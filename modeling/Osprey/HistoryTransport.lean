/-
**A history on its way to the chart.**

`history_body` spreads the samples of a history over four arrays, and the phone puts its points
together again from those.  The arrays stay aligned because the loop stops at the first sample
without rates and the two arrays that are an entry ahead by then are cut back.

Main definitions:

* `Osprey.usable` — the samples before the first whose rates are not known;
* `Osprey.Carries` — arrays with one entry for each of some samples;
* `Osprey.Charts` — points of a chart, one for each sample.

Main results:

* `Osprey.carries_historyBody` — **the arrays carry the usable samples of any history**;
* `Osprey.stored_of_run` — what a ring holds that is fed by `deliver` only;
* `Osprey.charts_samples` — points for all samples where no time overflows;
* `Osprey.history_survives` — both ends together.
-/

import Mathlib.Data.List.TakeWhile
import Osprey.MetricsChart

set_option relaxedAutoImplicit false
set_option autoImplicit false

namespace Osprey

variable {F : Type}

/-! ### Into the arrays -/

/-- The samples of a history before the first whose rates are not both known. -/
def usable (samples : List (Sample F)) : List (Sample F) :=
  samples.takeWhile fun sample => decide sample.Known

/-- The four arrays of a body have one entry for each of the samples: its own. -/
structure Carries (body : MetricsHistoryBody F) (samples : List (Sample F)) : Prop where
  cpuPercent : body.cpuPercent = samples.map Sample.cpuPercent
  memUsedBytes : body.memUsedBytes = samples.map Sample.memUsedBytes
  netRxBytesPerSec : body.netRxBytesPerSec.map some = samples.map Sample.netRxBytesPerSec
  netTxBytesPerSec : body.netTxBytesPerSec.map some = samples.map Sample.netTxBytesPerSec

variable {body : MetricsHistoryBody F} {samples : List (Sample F)}

/-- The arrays have as many entries as there are samples. -/
theorem Carries.lengths (h : Carries body samples) :
    body.cpuPercent.length = samples.length ∧ body.memUsedBytes.length = samples.length ∧
      body.netRxBytesPerSec.length = samples.length ∧
      body.netTxBytesPerSec.length = samples.length := by
  refine ⟨?_, ?_, ?_, ?_⟩
  · rw [h.cpuPercent, List.length_map]
  · rw [h.memUsedBytes, List.length_map]
  · have hlength := congrArg List.length h.netRxBytesPerSec
    rwa [List.length_map, List.length_map] at hlength
  · have hlength := congrArg List.length h.netTxBytesPerSec
    rwa [List.length_map, List.length_map] at hlength

/-- **What the loop collects**: the rates of the usable samples, and their utilisation and memory
with at most one entry more. -/
theorem collectRates_eq (samples : List (Sample F)) :
    (collectRates samples).1.take (usable samples).length
        = (usable samples).map Sample.cpuPercent ∧
      (collectRates samples).2.1.take (usable samples).length
        = (usable samples).map Sample.memUsedBytes ∧
      (collectRates samples).2.2.1.map some = (usable samples).map Sample.netRxBytesPerSec ∧
      (collectRates samples).2.2.2.map some = (usable samples).map Sample.netTxBytesPerSec := by
  induction samples with
  | nil => exact ⟨rfl, rfl, rfl, rfl⟩
  | cons sample samples ih =>
      obtain ⟨hcpu, hmem, hrx, htx⟩ := ih
      by_cases hknown : sample.Known
      · have husable : usable (sample :: samples) = sample :: usable samples :=
          List.takeWhile_cons_of_pos (decide_eq_true hknown)
        obtain ⟨rx, hsomeRx⟩ := Option.isSome_iff_exists.mp hknown.1
        obtain ⟨tx, hsomeTx⟩ := Option.isSome_iff_exists.mp hknown.2
        simp only [collectRates, hsomeRx, hsomeTx, husable, List.length_cons, List.take_succ_cons,
          List.map_cons, hcpu, hmem, hrx, htx, and_self]
      · have husable : usable (sample :: samples) = [] :=
          List.takeWhile_cons_of_neg fun h => hknown (of_decide_eq_true h)
        have hunknown : ∀ rx tx, sample.netRxBytesPerSec = some rx →
            sample.netTxBytesPerSec = some tx → False := by
          intro rx tx hrx htx
          refine hknown ⟨?_, ?_⟩
          · rw [hrx]
            rfl
          · rw [htx]
            rfl
        rw [husable]
        unfold collectRates
        split
        · rename_i rx tx hsomeRx hsomeTx
          exact (hunknown rx tx hsomeRx hsomeTx).elim
        · exact ⟨rfl, rfl, rfl, rfl⟩

/-- **The arrays carry the usable samples of any history.** -/
theorem carries_historyBody (sub : Uuid) (history : History F) (memTotalBytes : Option UInt64) :
    Carries (MetricsHistoryBody.historyBody sub (some history) memTotalBytes)
      (usable history.samples) := by
  obtain ⟨hcpu, hmem, hrx, htx⟩ := collectRates_eq history.samples
  have hlength := congrArg List.length hrx
  rw [List.length_map, List.length_map] at hlength
  refine ⟨?_, ?_, hrx, htx⟩
  · rw [← hcpu, ← hlength]
    rfl
  · rw [← hmem, ← hlength]
    rfl

/-- The longest prefix of some samples whose rates are all known. -/
structure LongestKnown (part samples : List (Sample F)) : Prop where
  isPrefix : part <+: samples
  known : ∀ sample ∈ part, sample.Known
  longest : ∀ other, other <+: samples → (∀ sample ∈ other, sample.Known) → other <+: part

theorem longestKnown_usable (samples : List (Sample F)) :
    LongestKnown (usable samples) samples := by
  refine ⟨List.takeWhile_prefix _, ?_, ?_⟩
  · intro sample hsample
    exact of_decide_eq_true (List.all_eq_true.mp List.all_takeWhile sample hsample)
  · induction samples with
    | nil =>
        intro other hother _
        rw [List.prefix_nil.mp hother]
        exact List.nil_prefix
    | cons sample samples ih =>
        intro other hother hknown
        cases other with
        | nil => exact List.nil_prefix
        | cons first rest =>
            obtain ⟨rfl, hrest⟩ := List.cons_prefix_cons.mp hother
            have husable : usable (first :: samples) = first :: usable samples :=
              List.takeWhile_cons_of_pos (decide_eq_true (hknown first List.mem_cons_self))
            rw [husable]
            refine List.cons_prefix_cons.mpr ⟨rfl, ih rest hrest fun sample hsample => ?_⟩
            exact hknown sample (List.mem_cons_of_mem _ hsample)

/-! ### Out of the arrays -/

/-- The points of a chart are those of the samples: the values are a sample's own, and its time is
where the start and the interval of the body put it. -/
def Charts (body : MetricsHistoryBody F) (points : List (MetricSample F))
    (samples : List (Sample F)) : Prop :=
  points.length = samples.length ∧ ∀ (i : ℕ) (sample : Sample F), samples[i]? = some sample →
    ∃ id, points[i]? = some ⟨id, sample.cpuPercent, sample.memUsedBytes, sample.netRxBytesPerSec,
        sample.netTxBytesPerSec⟩ ∧
      id.toInt = body.startTs.toInt + i * body.intervalMs.toNat

theorem checked_eq_some {i : ℤ} (hlow : -2 ^ 63 ≤ i) (hhigh : i ≤ 2 ^ 63 - 1) :
    ∃ value, checked i = some value ∧ value.toInt = i := by
  have hmin : Int64.minValue.toInt = -2 ^ 63 := by decide
  have hmax : Int64.maxValue.toInt = 2 ^ 63 - 1 := by decide
  refine ⟨Int64.ofInt i, ?_, Int64.toInt_ofInt_of_le (by omega) (by omega)⟩
  rw [checked, if_pos]
  rw [hmin, hmax]
  exact ⟨hlow, hhigh⟩

/-- The phone gives a point the time where it is put, unless that overflows. -/
theorem MetricsHistoryBody.pointTime_eq_some {index : ℕ}
    (hfits : body.startTs.toInt + index * body.intervalMs.toNat ≤ 2 ^ 63 - 1)
    (hoffset : index * body.intervalMs.toNat ≤ 2 ^ 63 - 1) :
    ∃ id, body.pointTime index = some id ∧
      id.toInt = body.startTs.toInt + index * body.intervalMs.toNat := by
  have hlow := body.startTs.le_toInt
  have hnonneg : (0 : ℤ) ≤ index * body.intervalMs.toNat := by positivity
  obtain ⟨offset, hsome, hvalue⟩ :=
    checked_eq_some (i := index * body.intervalMs.toNat) (by omega) (by omega)
  obtain ⟨id, hid, hidValue⟩ :=
    checked_eq_some (i := body.startTs.toInt + offset.toInt) (by omega) (by omega)
  refine ⟨id, ?_, by rw [hidValue, hvalue]⟩
  rw [pointTime, hsome]
  exact hid

/-- Points all of which are there make a list. -/
theorem MetricsHistoryBody.exists_pointsFrom {n index : ℕ}
    (h : ∀ i, i < n → ∃ point, body.point (index + i) = some point) :
    ∃ points, body.pointsFrom n index = some points ∧ points.length = n ∧
      ∀ i, i < n → points[i]? = body.point (index + i) := by
  induction n generalizing index with
  | zero => exact ⟨[], rfl, rfl, fun i hi => absurd hi (Nat.not_lt_zero i)⟩
  | succ n ih =>
      obtain ⟨first, hfirst⟩ := h 0 (Nat.succ_pos n)
      rw [Nat.add_zero] at hfirst
      obtain ⟨points, hpoints, hlength, hget⟩ := @ih (index + 1) fun i hi => by
        rw [Nat.add_assoc, Nat.add_comm 1 i]
        exact h (i + 1) (Nat.succ_lt_succ hi)
      refine ⟨first :: points, ?_, by rw [List.length_cons, hlength], ?_⟩
      · rw [pointsFrom, hfirst, hpoints]
      · intro i hi
        cases i with
        | zero => exact hfirst.symm
        | succ i =>
            rw [List.getElem?_cons_succ, hget i (Nat.lt_of_succ_lt_succ hi), Nat.add_assoc,
              Nat.add_comm 1 i]

theorem getElem?_of_map_some {α β : Type} {list : List α} {items : List β} {f : β → Option α}
    (h : list.map some = items.map f) {i : ℕ} {item : β} (hget : items[i]? = some item) :
    list[i]? = f item := by
  have hmap := congrArg (fun entries => entries[i]?) h
  simp only [List.getElem?_map, hget, Option.map_some] at hmap
  obtain ⟨value, hvalue, hitem⟩ := Option.map_eq_some_iff.mp hmap
  rw [hvalue, hitem]

/-- **Points for all samples**, where no time overflows. -/
theorem charts_samples (hcarries : Carries body samples) (hinterval : body.intervalMs ≠ 0)
    (hfits : ∀ i, i < samples.length →
      body.startTs.toInt + i * body.intervalMs.toNat ≤ 2 ^ 63 - 1 ∧
        i * body.intervalMs.toNat ≤ 2 ^ 63 - 1) :
    ∃ points, body.samples = some points ∧ Charts body points samples := by
  obtain ⟨hcpu, hmem, -, -⟩ := hcarries.lengths
  have hcount : body.count = samples.length := by
    rw [MetricsHistoryBody.count, hcpu, hmem, Nat.min_self]
  have hpoint {i : ℕ} {sample : Sample F} (hget : samples[i]? = some sample) :
      ∃ id, body.point i = some ⟨id, sample.cpuPercent, sample.memUsedBytes,
          sample.netRxBytesPerSec, sample.netTxBytesPerSec⟩ ∧
        id.toInt = body.startTs.toInt + i * body.intervalMs.toNat := by
    have hlt := (List.getElem?_eq_some_iff.mp hget).1
    obtain ⟨id, hid, hvalue⟩ :=
      MetricsHistoryBody.pointTime_eq_some (hfits i hlt).1 (hfits i hlt).2
    refine ⟨id, ?_, hvalue⟩
    have hcpuAt : body.cpuPercent[i]? = some sample.cpuPercent := by
      rw [hcarries.cpuPercent, List.getElem?_map, hget]
      rfl
    have hmemAt : body.memUsedBytes[i]? = some sample.memUsedBytes := by
      rw [hcarries.memUsedBytes, List.getElem?_map, hget]
      rfl
    have hrxAt : body.netRxBytesPerSec[i]? = sample.netRxBytesPerSec :=
      getElem?_of_map_some hcarries.netRxBytesPerSec hget
    have htxAt : body.netTxBytesPerSec[i]? = sample.netTxBytesPerSec :=
      getElem?_of_map_some hcarries.netTxBytesPerSec hget
    rw [MetricsHistoryBody.point, hid, hcpuAt, hmemAt, hrxAt, htxAt]
  have hpoints (i : ℕ) (hi : i < samples.length) : ∃ point, body.point (0 + i) = some point := by
    obtain ⟨id, hid, -⟩ := hpoint (List.getElem?_eq_getElem hi)
    rw [Nat.zero_add]
    exact ⟨_, hid⟩
  obtain ⟨points, hpoints, hlength, hall⟩ := MetricsHistoryBody.exists_pointsFrom hpoints
  refine ⟨points, ?_, hlength, fun i sample hget => ?_⟩
  · rw [MetricsHistoryBody.samples, if_neg hinterval, hcount]
    exact hpoints
  · obtain ⟨id, hid, hvalue⟩ := hpoint hget
    refine ⟨id, ?_, hvalue⟩
    rw [hall i (List.getElem?_eq_some_iff.mp hget).1, Nat.zero_add]
    exact hid

/-! ### A ring that is fed by `deliver` -/

/-- What storing a sample adds to the ring: that sample, if its rates are known. -/
theorem mem_store {recorder recorder' : Recorder F} {sample : Sample F}
    (h : recorder.store sample = some recorder') {stored : Sample F}
    (hstored : stored ∈ recorder'.ring.samples) :
    stored ∈ recorder.ring.samples ∨ (stored = sample ∧ sample.Known) := by
  by_cases hknown : sample.Known
  · have hpush (hmem : stored ∈ (recorder.ring.push sample).samples) :
        stored ∈ recorder.ring.samples ∨ (stored = sample ∧ sample.Known) := by
      rw [RingBuffer.push_samples] at hmem
      rcases List.mem_append.mp (List.mem_of_mem_drop hmem) with hmem | hmem
      · exact .inl hmem
      · exact .inr ⟨List.mem_singleton.mp hmem, hknown⟩
    rcases store_cases hknown h with ⟨-, rfl⟩ | ⟨due, -, -, rfl⟩ | ⟨due, m, -, -, -, -, -, rfl⟩
    · exact hpush hstored
    · exact .inl hstored
    · exact hpush hstored
  · have hsame : recorder' = recorder := by
      unfold Recorder.store at h
      rw [if_pos] at h
      · exact (Option.some.inj h).symm
      · rw [Bool.or_eq_true, Option.isNone_iff_eq_none, Option.isNone_iff_eq_none]
        by_contra hboth
        obtain ⟨hrx, htx⟩ := not_or.mp hboth
        exact hknown ⟨Option.isSome_iff_ne_none.mpr hrx, Option.isSome_iff_ne_none.mpr htx⟩
    rw [hsame] at hstored
    exact .inl hstored

/-- **What a ring holds that is fed by `deliver` only**: delivered samples with known rates. -/
theorem stored_of_run {samples : List (Sample F)} {recorder recorder' : Recorder F}
    (hrun : Transition.run Recorder.store recorder samples = some recorder')
    {stored : Sample F} (hstored : stored ∈ recorder'.ring.samples) :
    stored ∈ recorder.ring.samples ∨ (stored ∈ samples ∧ stored.Known) := by
  induction samples generalizing recorder with
  | nil =>
      cases hrun
      exact .inl hstored
  | cons sample samples ih =>
      obtain ⟨between, hstore, hrest⟩ := Transition.run_cons_eq_some.mp hrun
      rcases ih hrest with hmem | ⟨hmem, hknown⟩
      · rcases mem_store hstore hmem with hmem | ⟨rfl, hknown⟩
        · exact .inl hmem
        · exact .inr ⟨List.mem_cons_self, hknown⟩
      · exact .inr ⟨List.mem_cons_of_mem _ hmem, hknown⟩

theorem capacity_of_run {samples : List (Sample F)} {recorder : Recorder F}
    (hrun : Transition.run Recorder.store .new samples = some recorder) :
    recorder.ring.capacity = RING_CAPACITY :=
  Transition.run_keeps (I := fun recorder : Recorder F => recorder.ring.capacity = RING_CAPACITY)
    (fun _ _ _ h hstore => (store_capacity hstore).trans h) rfl hrun

theorem saturatingMul_ne_zero {n : ℕ} (hn : 0 < n) : saturatingMul RING_INTERVAL_MS n ≠ 0 := by
  intro hzero
  have hring : RING_INTERVAL_MS.toNat = 30000 := rfl
  have hvalue := congrArg UInt32.toNat hzero
  rw [saturatingMul, hring,
    UInt32.toNat_ofNat_of_lt' (lt_of_le_of_lt (min_le_left _ _) (by decide)),
    UInt32.toNat_zero] at hvalue
  omega

/-- Where a history of such a ring begins, and how far from there its last sample is put. -/
theorem history_bounds {ring : RingBuffer F} (hcapacity : ring.capacity = RING_CAPACITY)
    {backfillSeconds : UInt32} {nowMs : Int64} {history : History F}
    (h : ring.history backfillSeconds nowMs = some history) :
    history.intervalMs ≠ 0 ∧ (∃ first ∈ ring.samples, history.startTs = first.tsMs) ∧
      (∀ sample ∈ history.samples, sample ∈ ring.samples) ∧
      ∀ i, i < history.samples.length → i * history.intervalMs.toNat ≤ 30000 * RING_CAPACITY := by
  obtain ⟨newest, factor, hinterval, ⟨first, hfirst, hstart⟩, hread⟩ :=
    history_getElem? hcapacity h
  have hnewest : newest < RING_CAPACITY := by
    have hlt := (List.getElem?_eq_some_iff.mp hfirst).1
    rw [List.length_reverse] at hlt
    have hbounded := ring.bounded
    omega
  have hmem {i : ℕ} {sample : Sample F} (hget : ring.samples.reverse[i]? = some sample) :
      sample ∈ ring.samples := List.mem_reverse.mp (List.mem_of_getElem? hget)
  refine ⟨?_, ⟨first, hmem hfirst, hstart⟩, ?_, ?_⟩
  · obtain ⟨first', rest, -, -, hfactor, -⟩ := RingBuffer.history_eq_some h
    rw [hfactor]
    exact saturatingMul_ne_zero (RingBuffer.factor_pos _)
  · intro sample hsample
    obtain ⟨i, hi⟩ := List.mem_iff_getElem?.mp hsample
    exact hmem (hread i sample hi).2
  · intro i hi
    obtain ⟨hle, -⟩ := hread i _ (List.getElem?_eq_getElem hi)
    rw [hinterval]
    calc i * (30000 * factor) = 30000 * (i * factor) := by ring
      _ ≤ 30000 * RING_CAPACITY := Nat.mul_le_mul_left _ (hle.trans hnewest.le)

/-- All samples of a history of such a ring are usable. -/
theorem usable_of_known (h : ∀ sample ∈ samples, sample.Known) : usable samples = samples :=
  List.takeWhile_eq_self_iff.mpr fun sample hsample => decide_eq_true (h sample hsample)

/-- **A history survives the arrays.**  The body of any history carries its samples up to the first
whose rates are not known.  Those of a history of a ring that is fed by `deliver` are all there are,
and the phone makes one point of each of the body it has received: in their order, with the values
of the sample, `interval_ms` apart from `start_ts` on.  The clock is one that does not report times
after the year 146 million. -/
theorem history_survives {W : Type} (encode : MetricsHistoryBody F → W)
    (decode : W → Option (MetricsHistoryBody F))
    (hcodec : ∀ body, decode (encode body) = some body) (sub : Uuid)
    (memTotalBytes : Option UInt64) :
    (∀ history : History F,
      Carries (MetricsHistoryBody.historyBody sub (some history) memTotalBytes)
        (usable history.samples) ∧ LongestKnown (usable history.samples) history.samples) ∧
    ∀ {samples : List (Sample F)} {recorder : Recorder F} {backfillSeconds : UInt32}
      {nowMs : Int64} {history : History F},
      Transition.run Recorder.store .new samples = some recorder →
      (∀ sample ∈ samples, sample.tsMs.toInt ≤ 2 ^ 62) →
      recorder.ring.history backfillSeconds nowMs = some history →
      usable history.samples = history.samples ∧
      ∃ body points,
        decode (encode (MetricsHistoryBody.historyBody sub (some history) memTotalBytes))
          = some body ∧
        body.samples = some points ∧ points.length = history.samples.length ∧
        ∀ (i : ℕ) (sample : Sample F), history.samples[i]? = some sample →
          ∃ id, points[i]? = some ⟨id, sample.cpuPercent, sample.memUsedBytes,
              sample.netRxBytesPerSec, sample.netTxBytesPerSec⟩ ∧
            id.toInt = history.startTs.toInt + i * history.intervalMs.toNat := by
  refine ⟨fun history => ⟨carries_historyBody sub history memTotalBytes, longestKnown_usable _⟩, ?_⟩
  intro samples recorder backfillSeconds nowMs history hrun hclock hhistory
  obtain ⟨hinterval, ⟨first, hfirst, hstart⟩, hmem, hoffset⟩ :=
    history_bounds (capacity_of_run hrun) hhistory
  have hstored {stored : Sample F} (hmem : stored ∈ recorder.ring.samples) :
      stored ∈ samples ∧ stored.Known := by
    rcases stored_of_run hrun hmem with hnew | h
    · cases hnew
    · exact h
  have husable : usable history.samples = history.samples :=
    usable_of_known fun sample hsample => (hstored (hmem sample hsample)).2
  have hcarries := carries_historyBody sub history memTotalBytes
  rw [husable] at hcarries
  have hcapacity : 30000 * RING_CAPACITY = 86400000 := rfl
  have hbound := hclock first (hstored hfirst).1
  have hpoints : ∃ points,
      (MetricsHistoryBody.historyBody sub (some history) memTotalBytes).samples = some points ∧
        Charts (MetricsHistoryBody.historyBody sub (some history) memTotalBytes) points
          history.samples := by
    refine charts_samples hcarries hinterval fun i hi => ?_
    have hle := hoffset i hi
    have hstartTs : (MetricsHistoryBody.historyBody sub (some history) memTotalBytes).startTs
        = first.tsMs := hstart
    have hintervalMs : (MetricsHistoryBody.historyBody sub (some history) memTotalBytes).intervalMs
        = history.intervalMs := rfl
    rw [hstartTs, hintervalMs]
    rw [hcapacity] at hle
    have hcast : (i : ℤ) * history.intervalMs.toNat ≤ 86400000 := by exact_mod_cast hle
    constructor
    · omega
    · omega
  obtain ⟨points, hsome, hlength, hall⟩ := hpoints
  exact ⟨husable, _, points, hcodec _, hsome, hlength, hall⟩

/-- Four samples, three of which are stored and make a history of thirty-second steps. -/
theorem history_survives_steady : ∃ (recorder : Recorder ℕ) (history : History ℕ),
    Transition.run Recorder.store .new steadySamples = some recorder ∧
      recorder.ring.history 3600 85000 = some history ∧ history.samples.length = 3 ∧
      ∃ body points,
        some (MetricsHistoryBody.historyBody (toyUuid 1) (some history) none) = some body ∧
          body.samples = some points ∧ points.length = history.samples.length := by
  have hrun : ((Transition.run Recorder.store .new steadySamples).any fun recorder =>
      (recorder.ring.history 3600 85000).any fun history =>
        decide (history.samples.length = 3)) = true := by
    decide +kernel
  obtain ⟨recorder, hrecorder, hhistory⟩ := (Option.any_eq_true _ _).mp hrun
  obtain ⟨history, hhistory, hlength⟩ := (Option.any_eq_true _ _).mp hhistory
  have hclock : ∀ sample ∈ steadySamples, sample.tsMs.toInt ≤ 2 ^ 62 := by decide +kernel
  obtain ⟨-, body, points, hbody, hpoints, hcount, -⟩ :=
    (history_survives id some (fun _ => rfl) (toyUuid 1) none).2
      hrecorder hclock hhistory
  exact ⟨recorder, history, hrecorder, hhistory, of_decide_eq_true hlength, body, points, hbody,
    hpoints, hcount⟩

end Osprey
