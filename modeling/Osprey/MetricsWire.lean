/-
**Samples, and the bodies they travel in.**

`metrics/mod.rs`, the `History` of `metrics/ring.rs`, and `metrics/wire.rs`.  The schema has no
nested structures, so what belongs together travels as parallel arrays.  CPU utilisation is an `f64`
that nothing here computes with, and its type is a parameter.

Main definitions:

* `Osprey.Sample`, `Osprey.History` — what the sampler and the ring hand out;
* `Osprey.MetricsTickBody.tickBody`, `Osprey.MetricsHistoryBody.historyBody` — the bodies of
  `metrics.tick` and `metrics.history`.
-/

import Osprey.HostState

set_option relaxedAutoImplicit false
set_option autoImplicit false

namespace Osprey

/-- Milliseconds between the samples that the ring keeps. -/
def RING_INTERVAL_MS : UInt32 := 30000

structure DiskUsage where
  label : String
  usedBytes : UInt64
  totalBytes : UInt64
  deriving DecidableEq, Repr

/-- One reading of the whole machine.  A rate is absent when it is unknown for the interval. -/
structure Sample (F : Type) where
  tsMs : Int64
  cpuPercent : F
  memUsedBytes : UInt64
  memTotalBytes : UInt64
  disks : List DiskUsage
  netRxBytesPerSec : Option UInt64
  netTxBytesPerSec : Option UInt64
  deriving DecidableEq, Repr

/-- A run of stored samples at a fixed cadence. -/
structure History (F : Type) where
  startTs : Int64
  intervalMs : UInt32
  samples : List (Sample F)
  deriving DecidableEq, Repr

structure MetricsTickBody (F : Type) where
  sub : Uuid
  ts : Int64
  cpuPercent : F
  memUsedBytes : UInt64
  memTotalBytes : UInt64
  diskLabels : List String
  diskUsedBytes : List UInt64
  diskTotalBytes : List UInt64
  netRxBytesPerSec : Option UInt64
  netTxBytesPerSec : Option UInt64
  deriving DecidableEq, Repr

structure MetricsHistoryBody (F : Type) where
  sub : Uuid
  startTs : Int64
  intervalMs : UInt32
  cpuPercent : List F
  memUsedBytes : List UInt64
  memTotalBytes : Option UInt64
  netRxBytesPerSec : List UInt64
  netTxBytesPerSec : List UInt64
  deriving DecidableEq, Repr

variable {F : Type}

/-- One live sample as a `metrics.tick` body. -/
def MetricsTickBody.tickBody (sub : Uuid) (sample : Sample F) : MetricsTickBody F where
  sub := sub
  ts := sample.tsMs
  cpuPercent := sample.cpuPercent
  memUsedBytes := sample.memUsedBytes
  memTotalBytes := sample.memTotalBytes
  diskLabels := sample.disks.map DiskUsage.label
  diskUsedBytes := sample.disks.map DiskUsage.usedBytes
  diskTotalBytes := sample.disks.map DiskUsage.totalBytes
  netRxBytesPerSec := sample.netRxBytesPerSec
  netTxBytesPerSec := sample.netTxBytesPerSec

/-- The loop over the samples: the utilisation and the memory of a sample are pushed before its
rates are looked at, and the run stops at the first sample whose rates are not both known. -/
def collectRates : List (Sample F) → List F × List UInt64 × List UInt64 × List UInt64
  | [] => ([], [], [], [])
  | sample :: samples =>
      match sample.netRxBytesPerSec, sample.netTxBytesPerSec with
      | some rx, some tx =>
          let rest := collectRates samples
          (sample.cpuPercent :: rest.1, sample.memUsedBytes :: rest.2.1, rx :: rest.2.2.1,
            tx :: rest.2.2.2)
      | _, _ => ([sample.cpuPercent], [sample.memUsedBytes], [], [])

/-- A stored run as a `metrics.history` body.  The arrays without rates are cut to the length of
those with. -/
def MetricsHistoryBody.historyBody (sub : Uuid) (history : Option (History F))
    (memTotalBytes : Option UInt64) : MetricsHistoryBody F :=
  match history with
  | none => ⟨sub, 0, RING_INTERVAL_MS, [], [], memTotalBytes, [], []⟩
  | some history =>
      let (cpuPercent, memUsedBytes, netRxBytesPerSec, netTxBytesPerSec) :=
        collectRates history.samples
      let usable := netRxBytesPerSec.length
      ⟨sub, history.startTs, history.intervalMs, cpuPercent.take usable, memUsedBytes.take usable,
        match history.samples.getLast? with
        | none => memTotalBytes
        | some sample => some sample.memTotalBytes,
        netRxBytesPerSec, netTxBytesPerSec⟩

end Osprey
