/-
**The ring of stored samples.**

`metrics/ring.rs`: a queue of bounded length, and the newest run of it whose samples are near enough
to the declared cadence, thinned out so that it fits one message.

Main definitions:

* `Osprey.RingBuffer` with `push`, `latest` and `history`;
* `Osprey.walk` — the loop that collects the run, newest sample first;
* `Osprey.stepBy` — `Iterator::step_by`.

Main results:

* `Osprey.RingBuffer.push_samples` — the ring holds the last samples that were pushed;
* `Osprey.getElem?_stepBy`, `Osprey.length_stepBy_le` — what thinning out keeps, and how much;
* `Osprey.RingBuffer.history_eq_some` — **what a history is made of**.
-/

import Osprey.MetricsWire

set_option relaxedAutoImplicit false
set_option autoImplicit false

namespace Osprey

/-- 24 h at the ring's interval. -/
def RING_CAPACITY : ℕ := 2880

/-- Upper bound on the samples one `metrics.history` may carry. -/
def MAX_HISTORY_SAMPLES : ℕ := 512

/-- The widest step between consecutive samples of a run: `RING_INTERVAL_MS * 3 / 2`. -/
def MAX_STEP_MS : Int64 := 45000

/-- The narrowest: `RING_INTERVAL_MS / 2`. -/
def MIN_STEP_MS : Int64 := 15000

section StepBy

variable {α : Type}

/-- `step_by(n)` with `k` elements still to be passed over. -/
def stepByFrom (n : ℕ) : ℕ → List α → List α
  | _, [] => []
  | 0, a :: rest => a :: stepByFrom n (n - 1) rest
  | k + 1, _ :: rest => stepByFrom n k rest

/-- `Iterator::step_by`: the first element and every `n`-th after it. -/
def stepBy (n : ℕ) (list : List α) : List α := stepByFrom n 0 list

theorem getElem?_stepByFrom {n : ℕ} (hn : 0 < n) (k i : ℕ) (list : List α) :
    (stepByFrom n k list)[i]? = list[k + i * n]? := by
  induction list generalizing k i with
  | nil => simp [stepByFrom]
  | cons a rest ih =>
      cases k with
      | zero =>
          cases i with
          | zero => simp [stepByFrom]
          | succ i =>
              have hsplit : 0 + (i + 1) * n = n - 1 + i * n + 1 := by
                rw [Nat.succ_mul]
                omega
              rw [stepByFrom, List.getElem?_cons_succ, ih, hsplit, List.getElem?_cons_succ]
      | succ k =>
          rw [stepByFrom, ih, Nat.add_right_comm, List.getElem?_cons_succ]

/-- What thinning out keeps. -/
theorem getElem?_stepBy {n : ℕ} (hn : 0 < n) (i : ℕ) (list : List α) :
    (stepBy n list)[i]? = list[i * n]? := by
  rw [stepBy, getElem?_stepByFrom hn, Nat.zero_add]

/-- The first element is kept. -/
theorem head?_stepBy (n : ℕ) (list : List α) : (stepBy n list).head? = list.head? := by
  cases list <;> rfl

theorem le_divCeil_mul {a b : ℕ} (hb : 0 < b) : a ≤ divCeil a b * b := by
  have hlt := Nat.lt_div_mul_add hb (a := a + b - 1)
  unfold divCeil
  omega

/-- Where the factor is at least a `bound`-th of the length, at most `bound` elements are kept. -/
theorem length_stepBy_le {n bound : ℕ} (hn : 0 < n) {list : List α}
    (h : list.length ≤ n * bound) : (stepBy n list).length ≤ bound := by
  have hnone : (stepBy n list)[bound]? = none := by
    rw [getElem?_stepBy hn, List.getElem?_eq_none_iff, Nat.mul_comm]
    exact h
  exact List.getElem?_eq_none_iff.mp hnone

end StepBy

/-- Fixed-capacity history, oldest first. -/
structure RingBuffer (F : Type) where
  samples : List (Sample F)
  capacity : ℕ
  bounded : samples.length ≤ capacity
  positive : 0 < capacity

variable {F : Type}

namespace RingBuffer

def withCapacity (capacity : ℕ) : RingBuffer F :=
  ⟨[], max capacity 1, Nat.zero_le _, Nat.lt_of_lt_of_le Nat.one_pos (Nat.le_max_right _ _)⟩

def new : RingBuffer F := withCapacity RING_CAPACITY

/-- The oldest sample makes room where there is none left. -/
def push (ring : RingBuffer F) (sample : Sample F) : RingBuffer F where
  samples :=
    (if ring.samples.length = ring.capacity then ring.samples.tail else ring.samples) ++ [sample]
  capacity := ring.capacity
  bounded := by
    have hbounded := ring.bounded
    have hpositive := ring.positive
    rw [List.length_append, List.length_singleton]
    split
    · rw [List.length_tail]
      omega
    · omega
  positive := ring.positive

/-- The newest stored sample. -/
def latest (ring : RingBuffer F) : Option (Sample F) := ring.samples.getLast?

end RingBuffer

/-- The step from a sample to the next newer one is within the tolerance. -/
def onCadence (newer older : Sample F) : Bool :=
  MIN_STEP_MS ≤ Saturating.sub newer.tsMs older.tsMs &&
    Saturating.sub newer.tsMs older.tsMs ≤ MAX_STEP_MS

/-- The loop over the samples from the newest on; `previous` is the last one collected. -/
def walk (horizon : Int64) : Option (Sample F) → List (Sample F) → List (Sample F)
  | _, [] => []
  | previous, sample :: older =>
      if sample.tsMs < horizon then []
      else if previous.all fun newer => onCadence newer sample then
        sample :: walk horizon (some sample) older
      else []

/-- `u32::saturating_mul`, of a factor that is a `usize`. -/
def saturatingMul (a : UInt32) (factor : ℕ) : UInt32 :=
  UInt32.ofNat (min (2 ^ 32 - 1) (a.toNat * min (2 ^ 32 - 1) factor))

namespace RingBuffer

/-- The run that a history is made of, oldest first. -/
def run (ring : RingBuffer F) (backfillSeconds : UInt32) (nowMs : Int64) : List (Sample F) :=
  let backfill := Saturating.mul (Int64.ofNat backfillSeconds.toNat) 1000
  (walk (Saturating.sub nowMs backfill) none ring.samples.reverse).reverse

/-- By how much a run is thinned out. -/
def factor (run : List (Sample F)) : ℕ := max (divCeil run.length MAX_HISTORY_SAMPLES) 1

/-- The most recent `backfillSeconds` of history, as one contiguous run. -/
def history (ring : RingBuffer F) (backfillSeconds : UInt32) (nowMs : Int64) :
    Option (History F) :=
  if backfillSeconds = 0 then none
  else
    let run := ring.run backfillSeconds nowMs
    if run.isEmpty then none
    else
      let samples := stepBy (factor run) run
      match samples.head? with
      | none => none
      | some first => some ⟨first.tsMs, saturatingMul RING_INTERVAL_MS (factor run), samples⟩

/-! ### What a ring holds, and what a history is made of -/

/-- **The ring holds the last samples that were pushed.** -/
theorem push_samples (ring : RingBuffer F) (sample : Sample F) :
    (ring.push sample).samples
      = (ring.samples ++ [sample]).drop (ring.samples.length + 1 - ring.capacity) := by
  have hbounded := ring.bounded
  have hpositive := ring.positive
  unfold push
  by_cases hfull : ring.samples.length = ring.capacity
  · have hone : ring.samples.length + 1 - ring.capacity = 1 := by omega
    simp only [if_pos hfull, hone]
    rw [List.drop_append_of_le_length (by omega), List.drop_one]
  · have hzero : ring.samples.length + 1 - ring.capacity = 0 := by omega
    simp only [if_neg hfull, hzero, List.drop_zero]

theorem getLast?_push (ring : RingBuffer F) (sample : Sample F) :
    (ring.push sample).samples.getLast? = some sample := by
  simp [push]

end RingBuffer

theorem walk_isPrefix (horizon : Int64) (previous : Option (Sample F))
    (samples : List (Sample F)) : walk horizon previous samples <+: samples := by
  induction samples generalizing previous with
  | nil => exact List.prefix_refl []
  | cons sample older ih =>
      unfold walk
      split
      · exact List.nil_prefix
      · split
        · exact List.cons_prefix_cons.mpr ⟨rfl, ih (some sample)⟩
        · exact List.nil_prefix

namespace RingBuffer

/-- A run is the newest part of the ring. -/
theorem run_isSuffix (ring : RingBuffer F) (backfillSeconds : UInt32) (nowMs : Int64) :
    ring.run backfillSeconds nowMs <:+ ring.samples := by
  rw [run, ← List.reverse_prefix, List.reverse_reverse]
  exact walk_isPrefix _ _ _

theorem factor_pos (run : List (Sample F)) : 0 < factor run :=
  Nat.lt_of_lt_of_le Nat.one_pos (Nat.le_max_right _ _)

theorem length_le_factor_mul (run : List (Sample F)) :
    run.length ≤ factor run * MAX_HISTORY_SAMPLES :=
  (le_divCeil_mul (by decide)).trans (Nat.mul_le_mul_right _ (Nat.le_max_left _ _))

/-- Up to here the interval does not saturate. -/
theorem toNat_saturatingMul {n : ℕ} (hn : n ≤ 143165) :
    (saturatingMul RING_INTERVAL_MS n).toNat = 30000 * n := by
  have hring : RING_INTERVAL_MS.toNat = 30000 := rfl
  rw [saturatingMul, hring, min_eq_right (by omega), min_eq_right (by omega),
    UInt32.toNat_ofNat_of_lt']
  exact lt_of_le_of_lt (Nat.mul_le_mul_left 30000 hn) (by decide)

/-- **What a history is made of**: every `factor`-th sample of a run that is not empty, from the
oldest on. -/
theorem history_eq_some {ring : RingBuffer F} {backfillSeconds : UInt32} {nowMs : Int64}
    {history : History F} (h : ring.history backfillSeconds nowMs = some history) :
    ∃ first rest, ring.run backfillSeconds nowMs = first :: rest ∧ history.startTs = first.tsMs ∧
      history.intervalMs = saturatingMul RING_INTERVAL_MS (factor (first :: rest)) ∧
      history.samples = stepBy (factor (first :: rest)) (first :: rest) := by
  unfold RingBuffer.history at h
  split at h
  · cases h
  · cases hrun : ring.run backfillSeconds nowMs with
    | nil =>
        rw [hrun] at h
        cases h
    | cons first rest =>
        simp only [hrun, List.isEmpty_cons, Bool.false_eq_true, if_false, head?_stepBy,
          List.head?_cons, Option.some.injEq] at h
        subst h
        exact ⟨first, rest, rfl, rfl, rfl, rfl⟩

/-- A history carries at most `MAX_HISTORY_SAMPLES` samples. -/
theorem length_history_le {ring : RingBuffer F} {backfillSeconds : UInt32} {nowMs : Int64}
    {history : History F} (h : ring.history backfillSeconds nowMs = some history) :
    history.samples.length ≤ MAX_HISTORY_SAMPLES := by
  obtain ⟨first, rest, -, -, -, hsamples⟩ := history_eq_some h
  rw [hsamples]
  exact length_stepBy_le (factor_pos _) (length_le_factor_mul _)

end RingBuffer

end Osprey
