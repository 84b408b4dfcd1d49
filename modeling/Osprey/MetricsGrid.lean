/-
**Which samples are stored, and when a history says they were taken.**

The second half of `deliver` in `metrics/engine.rs`: a sample with known rates goes into the ring
when the grid of `RING_INTERVAL_MS` has reached its next point.  A history carries no timestamps:
its sample `N` is taken to be at `start_ts + N * interval_ms`.  That is right to within one period
of the sampler as long as no point of the grid is passed over, and a period longer than the grid's
can pass over one.

Main definitions:

* `Osprey.snapForward` — the loop that advances the grid past a sample;
* `Osprey.Recorder` with `store` — the ring and the next point of the grid;
* `Osprey.Paced`, `Osprey.OnTime` — samples that come in time, and a history that is right to within
  a period.

Main results:

* `Osprey.snapForward_eq_some`, `Osprey.snapForward_ends_iff` — where the loop ends, and when it
  does;
* `Osprey.grid_of_run` — **every stored sample is within one period of its point of the grid**, if
  the period is not longer than the grid's;
* `Osprey.onTime_iff` — the histories of all paced samples are on time exactly for such periods.
-/

import Osprey.MetricsRing
import Osprey.Transition

set_option relaxedAutoImplicit false
set_option autoImplicit false

namespace Osprey

variable {F : Type}

/-! ### The grid -/

/-- The loop that advances `next` past a timestamp, in at most `rounds` rounds; `none` if it has not
ended by then. -/
def snapForward : ℕ → Int64 → Int64 → Option Int64
  | 0, _, _ => none
  | rounds + 1, next, tsMs =>
      if next ≤ tsMs then snapForward rounds (Saturating.add next 30000) tsMs else some next

/-- Rounds enough for the loop to end, if it ends at all. -/
def roundsFor (next tsMs : Int64) : ℕ := ((tsMs.toInt - next.toInt) / 30000).toNat + 2

/-- The ring, and `next_ring_due` of the sampler. -/
structure Recorder (F : Type) where
  ring : RingBuffer F
  nextRingDue : Option Int64

/-- Nothing is stored yet. -/
def Recorder.new : Recorder F := ⟨.new, none⟩

/-- What `deliver` does with a sample besides handing it to the subscribers; `none` when its loop
never ends. -/
def Recorder.store (recorder : Recorder F) (sample : Sample F) : Option (Recorder F) :=
  if sample.netRxBytesPerSec.isNone || sample.netTxBytesPerSec.isNone then some recorder
  else
    match recorder.nextRingDue with
    | none => some ⟨recorder.ring.push sample, some (Saturating.add sample.tsMs 30000)⟩
    | some due =>
        if due ≤ sample.tsMs then
          (snapForward (roundsFor due sample.tsMs) due sample.tsMs).map fun next =>
            ⟨recorder.ring.push sample, some next⟩
        else some recorder

theorem toInt_add_interval (next : Int64) :
    (Saturating.add next 30000).toInt = min (2 ^ 63 - 1) (next.toInt + 30000) := by
  have hinterval : (30000 : Int64).toInt = 30000 := by decide
  have hlow := next.le_toInt
  rw [Saturating.add, Saturating.toInt_ofIntClamp, hinterval]
  omega

/-- Where the loop ends: at the first point of the grid after the timestamp. -/
theorem snapForward_eq_some {tsMs : Int64} (hts : tsMs.toInt < 2 ^ 63 - 1) {rounds : ℕ}
    {next : Int64} (hrounds : (tsMs.toInt - next.toInt) / 30000 + 2 ≤ rounds)
    (hpositive : 0 < rounds) :
    ∃ m : ℕ, snapForward rounds next tsMs = some (Int64.ofIntClamp (next.toInt + 30000 * m)) ∧
      tsMs.toInt < next.toInt + 30000 * m ∧
      (m ≠ 0 → next.toInt + 30000 * m ≤ tsMs.toInt + 30000) := by
  induction rounds generalizing next with
  | zero => exact absurd hpositive (Nat.lt_irrefl 0)
  | succ rounds ih =>
      rw [snapForward]
      by_cases hle : next ≤ tsMs
      · rw [if_pos hle]
        rw [Int64.le_iff_toInt_le] at hle
        have hadd := toInt_add_interval next
        by_cases hmax : next.toInt + 30000 ≤ 2 ^ 63 - 1
        · rw [min_eq_right hmax] at hadd
          obtain ⟨m, hsnap, hafter, hfirst⟩ :=
            @ih (Saturating.add next 30000) (by omega) (by omega)
          refine ⟨m + 1, ?_, ?_, fun _ => ?_⟩
          · rw [hsnap, hadd]
            congr 2
            push_cast
            ring
          · rw [hadd] at hafter
            push_cast
            omega
          · rw [hadd] at hafter hfirst
            by_cases hm : m = 0
            · subst hm
              push_cast
              omega
            · have hbound := hfirst hm
              push_cast
              omega
        · -- the addition saturates, and nothing but the last timestamp is as late as that
          rw [min_eq_left (by omega)] at hadd
          obtain ⟨m, hsnap, hafter, hfirst⟩ :=
            @ih (Saturating.add next 30000) (by omega) (by omega)
          have hm : m = 0 := by
            by_contra hm
            have hbound := hfirst hm
            omega
          subst hm
          refine ⟨1, ?_, by omega, fun _ => by omega⟩
          rw [hsnap]
          congr 1
          rw [← Int64.toInt_inj, Saturating.toInt_ofIntClamp, Saturating.toInt_ofIntClamp, hadd]
          push_cast
          omega
      · rw [if_neg hle]
        rw [Int64.le_iff_toInt_le] at hle
        refine ⟨0, ?_, by omega, fun h => absurd rfl h⟩
        simp

theorem le_roundsFor (next tsMs : Int64) :
    (tsMs.toInt - next.toInt) / 30000 + 2 ≤ roundsFor next tsMs := by
  unfold roundsFor
  omega

theorem toInt_lt_of_ne_maxValue {tsMs : Int64} (h : tsMs ≠ Int64.maxValue) :
    tsMs.toInt < 2 ^ 63 - 1 := by
  have hvalue : Int64.maxValue.toInt = 2 ^ 63 - 1 := by decide
  have hne : tsMs.toInt ≠ Int64.maxValue.toInt := fun heq => h (Int64.toInt_inj.mp heq)
  have hhigh := tsMs.toInt_lt
  omega

/-- The loop never gets past the last timestamp there is. -/
theorem snapForward_max (rounds : ℕ) (next : Int64) :
    snapForward rounds next Int64.maxValue = none := by
  induction rounds generalizing next with
  | zero => rfl
  | succ rounds ih =>
      rw [snapForward, if_pos (Int64.le_maxValue next)]
      exact ih _

/-- **When the loop ends**, and past the timestamp: always but at the last timestamp there is, which
the clock reports for every time that does not fit.  There the saturating addition stands still. -/
theorem snapForward_ends_iff (due tsMs : Int64) :
    (∃ rounds next, snapForward rounds due tsMs = some next ∧ tsMs.toInt < next.toInt) ↔
      tsMs ≠ Int64.maxValue := by
  constructor
  · rintro ⟨rounds, next, hnext, -⟩ rfl
    rw [snapForward_max] at hnext
    cases hnext
  · intro hts
    have hlast := toInt_lt_of_ne_maxValue hts
    obtain ⟨m, hsnap, hafter, -⟩ :=
      snapForward_eq_some hlast (le_roundsFor due tsMs) (Nat.succ_pos _)
    refine ⟨_, _, hsnap, ?_⟩
    -- the point of the grid may lie past the end of the range, but then it is the end
    have hlow := due.le_toInt
    rw [Saturating.toInt_ofIntClamp]
    omega

/-- A clock set past the end of the range, a due time thirty seconds after the start: the loop never
ends. -/
theorem snapForward_stalls : ¬∀ due tsMs : Int64, 0 ≤ tsMs.toInt →
    ∃ rounds next, snapForward rounds due tsMs = some next ∧ tsMs.toInt < next.toInt := by
  intro h
  obtain ⟨rounds, next, hnext, -⟩ := h 30000 Int64.maxValue (by decide)
  rw [snapForward_max] at hnext
  cases hnext

/-- Both rates of the sample are known. -/
def Sample.Known (sample : Sample F) : Prop :=
  sample.netRxBytesPerSec.isSome = true ∧ sample.netTxBytesPerSec.isSome = true

instance (sample : Sample F) : Decidable sample.Known := inferInstanceAs (Decidable (_ ∧ _))

/-- **What storing a sample can do**: it is the first, it comes too early, or it is pushed and the
grid advanced to its first point after the sample. -/
theorem store_cases {recorder recorder' : Recorder F} {sample : Sample F} (hknown : sample.Known)
    (h : recorder.store sample = some recorder') :
    (recorder.nextRingDue = none ∧
      recorder' = ⟨recorder.ring.push sample, some (Saturating.add sample.tsMs 30000)⟩) ∨
    (∃ due, recorder.nextRingDue = some due ∧ sample.tsMs.toInt < due.toInt ∧
      recorder' = recorder) ∨
    ∃ (due : Int64) (m : ℕ), recorder.nextRingDue = some due ∧
      due.toInt ≤ sample.tsMs.toInt ∧ sample.tsMs.toInt < 2 ^ 63 - 1 ∧
      sample.tsMs.toInt < due.toInt + 30000 * m ∧
      due.toInt + 30000 * m ≤ sample.tsMs.toInt + 30000 ∧
      recorder' = ⟨recorder.ring.push sample, some (Int64.ofIntClamp (due.toInt + 30000 * m))⟩ := by
  have hrates : (sample.netRxBytesPerSec.isNone || sample.netTxBytesPerSec.isNone) = false := by
    simp [Option.isNone_eq_false_iff, hknown.1, hknown.2]
  simp only [Recorder.store, hrates, Bool.false_eq_true, if_false] at h
  split at h
  · rename_i hdue
    cases h
    exact .inl ⟨hdue, rfl⟩
  · rename_i due hdue
    split at h
    · rename_i hle
      rw [Int64.le_iff_toInt_le] at hle
      obtain ⟨next, hnext, rfl⟩ := Option.map_eq_some_iff.mp h
      have hts : sample.tsMs.toInt < 2 ^ 63 - 1 := by
        refine toInt_lt_of_ne_maxValue fun heq => ?_
        rw [heq, snapForward_max] at hnext
        cases hnext
      obtain ⟨m, hsnap, hafter, hfirst⟩ :=
        snapForward_eq_some hts (le_roundsFor due sample.tsMs) (Nat.succ_pos _)
      cases hnext.symm.trans hsnap
      exact .inr (.inr ⟨due, m, hdue, hle, hts, hafter, hfirst (by omega), rfl⟩)
    · rename_i hlt
      rw [Int64.le_iff_toInt_le, not_le] at hlt
      cases h
      exact .inr (.inl ⟨due, hdue, hlt, rfl⟩)

/-! ### Samples in time, and histories on time -/

/-- Timestamps that never go back, and that a period never separates. -/
def Paced (period : ℕ) (samples : List (Sample F)) : Prop :=
  samples.IsChain fun sample next =>
    sample.tsMs.toInt ≤ next.tsMs.toInt ∧ next.tsMs.toInt ≤ sample.tsMs.toInt + (period : ℤ)

/-- Every sample of the history is within a period of the time it is said to be taken at. -/
def OnTime (period : ℕ) (history : History F) : Prop :=
  ∀ (N : ℕ) (sample : Sample F), history.samples[N]? = some sample →
    |sample.tsMs.toInt - (history.startTs.toInt + N * history.intervalMs.toNat)| ≤ (period : ℤ)

/-- The newest samples after one more has been pushed. -/
theorem getElem?_reverse_push {ring : RingBuffer F} {sample : Sample F} {i : ℕ} {x : Sample F}
    (h : (ring.push sample).samples.reverse[i]? = some x) :
    (i = 0 ∧ x = sample) ∨ ∃ j, i = j + 1 ∧ ring.samples.reverse[j]? = some x := by
  rw [RingBuffer.push_samples, List.reverse_drop, List.reverse_append, List.reverse_singleton,
    List.singleton_append, List.getElem?_take] at h
  split at h
  · cases i with
    | zero =>
        rw [List.getElem?_cons_zero] at h
        exact .inl ⟨rfl, (Option.some.inj h).symm⟩
    | succ j =>
        rw [List.getElem?_cons_succ] at h
        exact .inr ⟨j, rfl, h⟩
  · cases h

/-- The grid after the samples: the `i`-th newest of the ring is within a period of the `i`-th last
point, and the last sample has not reached the next one.  The next point is `due` itself, unless
that has saturated. -/
def OnGrid (period : ℕ) (samples : List (Sample F)) (recorder : Recorder F) : Prop :=
  match recorder.nextRingDue with
  | none => samples = [] ∧ recorder.ring.samples = []
  | some due => ∃ point : ℤ, due = Int64.ofIntClamp point ∧ -2 ^ 63 ≤ point ∧
      (∃ last, samples.getLast? = some last ∧ last.tsMs.toInt < point) ∧
      ∀ (i : ℕ) (sample : Sample F), recorder.ring.samples.reverse[i]? = some sample →
        point - 30000 * (i + 1) ≤ sample.tsMs.toInt ∧
          sample.tsMs.toInt ≤ point - 30000 * (i + 1) + (period : ℤ)

/-- Storing one more sample in time keeps the ring on the grid. -/
theorem onGrid_store {period : ℕ} (hperiod : period ≤ 30000) {samples : List (Sample F)}
    {sample : Sample F} {recorder recorder' : Recorder F} (hgrid : OnGrid period samples recorder)
    (hpaced : Paced period (samples ++ [sample])) (hknown : sample.Known)
    (h : recorder.store sample = some recorder') :
    OnGrid period (samples ++ [sample]) recorder' := by
  have hlow := sample.tsMs.le_toInt
  rcases store_cases hknown h with ⟨hdue, rfl⟩ | ⟨due, hdue, hlt, rfl⟩ |
    ⟨due, m, hdue, hle, hts, hafter, hfirst, rfl⟩
  · -- the first sample makes the grid
    simp only [OnGrid, hdue] at hgrid
    refine ⟨sample.tsMs.toInt + 30000, rfl, by omega,
      ⟨sample, List.getLast?_concat, by omega⟩, fun i x hx => ?_⟩
    rcases getElem?_reverse_push hx with ⟨rfl, rfl⟩ | ⟨j, rfl, hold⟩
    · push_cast
      omega
    · simp [hgrid.2] at hold
  · simp only [OnGrid, hdue] at hgrid ⊢
    obtain ⟨point, rfl, hpoint, -, hstored⟩ := hgrid
    refine ⟨point, rfl, hpoint, ⟨sample, List.getLast?_concat, ?_⟩, hstored⟩
    rw [Saturating.toInt_ofIntClamp] at hlt
    omega
  · simp only [OnGrid, hdue] at hgrid
    obtain ⟨point, rfl, hpoint, ⟨last, hlast, hbefore⟩, hstored⟩ := hgrid
    -- a due time that a sample reaches has not saturated
    have hclamp : (Int64.ofIntClamp point).toInt = point := by
      rw [Saturating.toInt_ofIntClamp] at hle ⊢
      omega
    rw [hclamp] at hle hafter hfirst ⊢
    -- the sample before had not reached the point, so this one does not reach the next
    have hgap := (List.isChain_append.mp hpaced).2.2 last hlast sample rfl
    have hm : m = 1 := by omega
    subst hm
    refine ⟨point + 30000, by simp, by omega, ⟨sample, List.getLast?_concat, by omega⟩,
      fun i x hx => ?_⟩
    rcases getElem?_reverse_push hx with ⟨rfl, rfl⟩ | ⟨j, rfl, hold⟩
    · push_cast
      omega
    · obtain ⟨hlower, hupper⟩ := hstored j x hold
      push_cast
      omega

theorem store_capacity {recorder recorder' : Recorder F} {sample : Sample F}
    (h : recorder.store sample = some recorder') :
    recorder'.ring.capacity = recorder.ring.capacity := by
  unfold Recorder.store at h
  split at h
  · cases h
    rfl
  · split at h
    · cases h
      rfl
    · split at h
      · obtain ⟨next, -, rfl⟩ := Option.map_eq_some_iff.mp h
        rfl
      · cases h
        rfl

/-- **Every stored sample is within one period of its point of the grid**, if the period is not
longer than the grid's. -/
theorem grid_of_run {period : ℕ} (hperiod : period ≤ 30000) {samples : List (Sample F)}
    {recorder : Recorder F} (hpaced : Paced period samples)
    (hknown : ∀ sample ∈ samples, sample.Known)
    (hrun : Transition.run Recorder.store .new samples = some recorder) :
    OnGrid period samples recorder ∧ recorder.ring.capacity = RING_CAPACITY := by
  induction samples using List.reverseRecOn generalizing recorder with
  | nil =>
      cases hrun
      exact ⟨⟨rfl, rfl⟩, rfl⟩
  | append_singleton samples sample ih =>
      obtain ⟨before, hbefore, hlast⟩ := Transition.run_append.mp hrun
      obtain ⟨after, hstore, hafter⟩ := Transition.run_cons_eq_some.mp hlast
      cases hafter
      obtain ⟨hgrid, hcapacity⟩ := ih hpaced.left_of_append
        (fun sample hsample => hknown sample (List.mem_append_left _ hsample)) hbefore
      refine ⟨onGrid_store hperiod hgrid hpaced ?_ hstore, (store_capacity hstore).trans hcapacity⟩
      exact hknown sample (List.mem_append_right _ (List.mem_singleton_self _))

/-- Where a history of the ring comes from: the samples it carries, counted from the newest. -/
theorem history_getElem? {ring : RingBuffer F} (hcapacity : ring.capacity = RING_CAPACITY)
    {backfillSeconds : UInt32} {nowMs : Int64} {history : History F}
    (h : ring.history backfillSeconds nowMs = some history) :
    ∃ newest factor : ℕ, history.intervalMs.toNat = 30000 * factor ∧
      (∃ first, ring.samples.reverse[newest]? = some first ∧ history.startTs = first.tsMs) ∧
      ∀ (N : ℕ) (sample : Sample F), history.samples[N]? = some sample → N * factor ≤ newest ∧
        ring.samples.reverse[newest - N * factor]? = some sample := by
  obtain ⟨first, rest, hrun, hstart, hinterval, hsamples⟩ := RingBuffer.history_eq_some h
  have hsuffix : first :: rest <:+ ring.samples := hrun ▸ ring.run_isSuffix backfillSeconds nowMs
  obtain ⟨older, holder⟩ := hsuffix
  -- the newest samples are the run, read backwards
  have hread (i : ℕ) (hi : i ≤ rest.length) :
      ring.samples.reverse[rest.length - i]? = (first :: rest)[i]? := by
    rw [← holder, List.reverse_append, List.getElem?_append_left (by simp),
      List.getElem?_reverse (by simp)]
    congr 1
    rw [List.length_cons]
    omega
  refine ⟨rest.length, RingBuffer.factor (first :: rest), ?_, ⟨first, ?_, hstart⟩, ?_⟩
  · have hlength : (first :: rest).length ≤ RING_CAPACITY := by
      have hbounded := ring.bounded
      rw [hcapacity, ← holder, List.length_append] at hbounded
      omega
    have hfactor : RingBuffer.factor (first :: rest) ≤ 6 := by
      simp only [RingBuffer.factor, divCeil, MAX_HISTORY_SAMPLES, RING_CAPACITY] at hlength ⊢
      omega
    rw [hinterval, RingBuffer.toNat_saturatingMul (by omega)]
  · have hzero := hread 0 (Nat.zero_le _)
    rwa [Nat.sub_zero, List.getElem?_cons_zero] at hzero
  · intro N sample hsample
    rw [hsamples, getElem?_stepBy (RingBuffer.factor_pos _)] at hsample
    have hlt := (List.getElem?_eq_some_iff.mp hsample).1
    rw [List.length_cons] at hlt
    refine ⟨by omega, ?_⟩
    rw [hread _ (by omega), hsample]

/-- A ring on the grid hands out histories on time. -/
theorem onTime_of_grid {period : ℕ} {samples : List (Sample F)} {recorder : Recorder F}
    (hgrid : OnGrid period samples recorder)
    (hcapacity : recorder.ring.capacity = RING_CAPACITY) {backfillSeconds : UInt32} {nowMs : Int64}
    {history : History F} (h : recorder.ring.history backfillSeconds nowMs = some history) :
    OnTime period history := by
  obtain ⟨newest, factor, hinterval, ⟨first, hfirst, hstart⟩, hread⟩ :=
    history_getElem? hcapacity h
  unfold OnGrid at hgrid
  split at hgrid
  · simp [hgrid.2] at hfirst
  · obtain ⟨point, -, -, -, hstored⟩ := hgrid
    intro N sample hsample
    obtain ⟨hle, hget⟩ := hread N sample hsample
    obtain ⟨hlower, hupper⟩ := hstored _ first hfirst
    obtain ⟨hlower', hupper'⟩ := hstored _ sample hget
    rw [hstart, hinterval, abs_le]
    push_cast [Nat.cast_sub hle] at hlower' hupper' ⊢
    constructor
    · linarith
    · linarith

/-! ### A period that passes over a point of the grid -/

/-- A sample with known rates. -/
def sampleAt (tsMs : Int64) : Sample ℕ := ⟨tsMs, 7, 1000, 2000, [], some 10, some 20⟩

/-- Samples that come just before a point of the grid and then half an interval or a whole one after
it, in turn. -/
def jittered : List (Sample ℕ) :=
  [0, 29999, 45000, 59999, 90000, 119999, 135000, 149999, 180000].map sampleAt

/-- Every second point of the grid is passed over, and the fifth sample of the history was taken a
minute after the time it is said to be taken at. -/
theorem history_late : ∃ recorder history,
    Transition.run Recorder.store .new jittered = some recorder ∧
      recorder.ring.history 3600 180000 = some history ∧ history.startTs = 0 ∧
      history.intervalMs = 30000 ∧ history.samples[4]? = some (sampleAt 180000) := by
  have hrun : ((Transition.run Recorder.store .new jittered).any fun recorder =>
      decide (recorder.ring.history 3600 180000
        = some ⟨0, 30000, [0, 45000, 90000, 135000, 180000].map sampleAt⟩)) = true := by
    decide +kernel
  obtain ⟨recorder, hrecorder, hhistory⟩ := (Option.any_eq_true _ _).mp hrun
  exact ⟨recorder, _, hrecorder, of_decide_eq_true hhistory, rfl, rfl, rfl⟩

theorem jittered_paced {period : ℕ} (h : 30000 < period) : Paced period jittered := by
  have hpaced : jittered.IsChain fun sample next => sample.tsMs.toInt ≤ next.tsMs.toInt ∧
      next.tsMs.toInt ≤ sample.tsMs.toInt + 30001 := by
    decide +kernel
  refine hpaced.imp ?_
  rintro sample next ⟨hle, hgap⟩
  exact ⟨hle, by omega⟩

/-- A sample at `start_ts + 180000` is said to be taken at `start_ts + 120000`. -/
theorem not_onTime_late {period : ℕ} (hperiod : period ≤ 45000) {history : History ℕ}
    (hstart : history.startTs = 0) (hinterval : history.intervalMs = 30000)
    (hlast : history.samples[4]? = some (sampleAt 180000)) : ¬OnTime period history := by
  intro h
  have hbound := h 4 _ hlast
  have hvalues : (sampleAt 180000).tsMs.toInt = 180000 ∧ (0 : Int64).toInt = 0 ∧
      (30000 : UInt32).toNat = 30000 := by decide
  rw [hstart, hinterval, hvalues.1, hvalues.2.1, hvalues.2.2, abs_le] at hbound
  push_cast at hbound
  omega

/-- Samples at most 30.001 seconds apart, and a history of them that is wrong by a minute. -/
theorem history_off_cadence : (∀ sample ∈ jittered, sample.Known) ∧ Paced 30001 jittered ∧
    ∃ recorder history, Transition.run Recorder.store .new jittered = some recorder ∧
      recorder.ring.history 3600 180000 = some history ∧ ¬OnTime 30001 history := by
  obtain ⟨recorder, history, hrun, hhistory, hstart, hinterval, hlast⟩ := history_late
  exact ⟨by decide +kernel, jittered_paced (by decide), recorder, history, hrun, hhistory,
    not_onTime_late (by decide) hstart hinterval hlast⟩

/-- **When the cadence of a history is kept.**  The histories of all sequences of known-rate samples
that come at most a period apart are right to within the period exactly if the period is at most
`RING_INTERVAL_MS`. -/
theorem onTime_iff {period : ℕ} (hperiod : (period : ℤ) ≤ MAX_STEP_MS.toInt) :
    (∀ (F : Type) (samples : List (Sample F)), (∀ sample ∈ samples, sample.Known) →
      Paced period samples → ∀ recorder,
      Transition.run Recorder.store .new samples = some recorder →
      ∀ backfillSeconds nowMs history,
        recorder.ring.history backfillSeconds nowMs = some history → OnTime period history) ↔
      period ≤ RING_INTERVAL_MS.toNat := by
  have hring : RING_INTERVAL_MS.toNat = 30000 := rfl
  have hstep : MAX_STEP_MS.toInt = 45000 := by decide
  rw [hring]
  constructor
  · intro h
    by_contra hlong
    obtain ⟨recorder, history, hrun, hhistory, hstart, hinterval, hlast⟩ := history_late
    have hknown : ∀ sample ∈ jittered, sample.Known := by decide +kernel
    have hontime := h ℕ jittered hknown (jittered_paced (by omega)) recorder hrun 3600 180000
      history hhistory
    exact not_onTime_late (by omega) hstart hinterval hlast hontime
  · intro hshort F samples hknown hpaced recorder hrun backfillSeconds nowMs history hhistory
    obtain ⟨hgrid, hcapacity⟩ := grid_of_run hshort hpaced hknown hrun
    exact onTime_of_grid hgrid hcapacity hhistory

/-- Samples thirty seconds apart, but for the last. -/
def steadySamples : List (Sample ℕ) := [0, 30000, 60000, 85000].map sampleAt

/-- A history of them, with a period of thirty seconds. -/
theorem onTime_iff_steady : ∃ (recorder : Recorder ℕ) (history : History ℕ),
    Transition.run Recorder.store .new steadySamples = some recorder ∧
      recorder.ring.history 3600 85000 = some history ∧ history.samples.length = 3 ∧
      OnTime 30000 history := by
  have hrun : ((Transition.run Recorder.store .new steadySamples).any fun recorder =>
      (recorder.ring.history 3600 85000).any fun history =>
        decide (history.samples.length = 3)) = true := by
    decide +kernel
  have hpaced : Paced 30000 steadySamples := by
    unfold Paced
    decide +kernel
  obtain ⟨recorder, hrecorder, hhistory⟩ := (Option.any_eq_true _ _).mp hrun
  obtain ⟨history, hhistory, hlength⟩ := (Option.any_eq_true _ _).mp hhistory
  refine ⟨recorder, history, hrecorder, hhistory, of_decide_eq_true hlength, ?_⟩
  exact (onTime_iff (by decide)).mpr (by decide) ℕ steadySamples (by decide +kernel) hpaced recorder
    hrecorder 3600 85000 history hhistory

end Osprey
