/-
**What the ring hands out.**

The specification of `metrics/ring.rs` over every sequence of pushes.  The loop of `history` goes
back from the newest sample and stops for either of two reasons; what it has collected by then is
the longest run at the end of the ring that is recent and on cadence throughout, whatever the order
of the timestamps.

Main definitions:

* `Osprey.Contiguous` — a run that is recent and on cadence;
* `Osprey.NewestRun` — the longest such run at the end of the ring.

Main results:

* `Osprey.RingBuffer.samples_foldl_push` — the ring holds the last samples that were pushed;
* `Osprey.newestRun_run` — **the loop collects the longest run**;
* `Osprey.RingBuffer.history_eq_none_iff` — when there is no history;
* `Osprey.RingBuffer.history_spec` — **the specification**.
-/

import Osprey.MetricsSchedule

set_option relaxedAutoImplicit false
set_option autoImplicit false

namespace Osprey

variable {F : Type}

/-! ### What the ring holds -/

namespace RingBuffer

theorem samples_foldl_push (pushed : List (Sample F)) (ring : RingBuffer F) :
    (pushed.foldl push ring).samples
      = (ring.samples ++ pushed).drop (ring.samples.length + pushed.length - ring.capacity) := by
  induction pushed generalizing ring with
  | nil =>
      have hzero : ring.samples.length + 0 - ring.capacity = 0 := by
        have hbounded := ring.bounded
        omega
      rw [List.foldl_nil, List.append_nil, List.length_nil, hzero, List.drop_zero]
  | cons sample pushed ih =>
      have hfirst := push_samples ring sample
      have hlength := congrArg List.length hfirst
      rw [List.length_drop, List.length_append, List.length_singleton] at hlength
      have hcapacity : (ring.push sample).capacity = ring.capacity := rfl
      have hpositive := ring.positive
      rw [List.foldl_cons, ih, hcapacity, hlength, hfirst, ← List.drop_append_of_le_length,
        List.drop_drop, List.append_assoc, List.singleton_append, List.length_cons]
      · congr 1
        omega
      · rw [List.length_append, List.length_singleton]
        omega

end RingBuffer

/-! ### The longest run -/

/-- Samples at or after the horizon, each 15 to 45 seconds after the one before. -/
structure Contiguous (horizon : ℤ) (samples : List (Sample F)) : Prop where
  recent : ∀ sample ∈ samples, horizon ≤ sample.tsMs.toInt
  cadence : samples.IsChain fun older newer =>
    15000 ≤ newer.tsMs.toInt - older.tsMs.toInt ∧ newer.tsMs.toInt - older.tsMs.toInt ≤ 45000

/-- The longest contiguous run at the end of `samples`. -/
structure NewestRun (horizon : ℤ) (samples run : List (Sample F)) : Prop where
  isSuffix : run <:+ samples
  contiguous : Contiguous horizon run
  longest : ∀ other, other <:+ samples → Contiguous horizon other → other <:+ run

/-- What the loop may collect behind `previous`, the newest first. -/
def Collectable (horizon : Int64) (previous : Option (Sample F)) (samples : List (Sample F)) :
    Prop :=
  (∀ sample ∈ samples, ¬sample.tsMs < horizon) ∧
    (previous.toList ++ samples).IsChain fun newer older => onCadence newer older = true

theorem collectable_nil (horizon : Int64) (previous : Option (Sample F)) :
    Collectable horizon previous [] := by
  refine ⟨fun _ hmem => absurd hmem List.not_mem_nil, ?_⟩
  cases previous with
  | none => exact List.isChain_nil
  | some newer => exact List.isChain_singleton newer

theorem collectable_cons_iff {horizon : Int64} {previous : Option (Sample F)} {sample : Sample F}
    {older : List (Sample F)} :
    Collectable horizon previous (sample :: older) ↔
      ¬sample.tsMs < horizon ∧ (previous.all fun newer => onCadence newer sample) = true ∧
        Collectable horizon (some sample) older := by
  unfold Collectable
  rw [List.forall_mem_cons]
  cases previous with
  | none =>
      simp only [Option.toList_none, List.nil_append, Option.all_none, Option.toList_some,
        List.singleton_append, true_and]
      exact and_assoc
  | some newer =>
      simp only [Option.toList_some, List.singleton_append, List.isChain_cons_cons, Option.all_some]
      constructor
      · rintro ⟨⟨hfirst, hrest⟩, hstep, hchain⟩
        exact ⟨hfirst, hstep, hrest, hchain⟩
      · rintro ⟨hfirst, hstep, hrest, hchain⟩
        exact ⟨⟨hfirst, hrest⟩, hstep, hchain⟩

theorem collectable_walk (horizon : Int64) (previous : Option (Sample F))
    (samples : List (Sample F)) : Collectable horizon previous (walk horizon previous samples) := by
  induction samples generalizing previous with
  | nil => exact collectable_nil horizon previous
  | cons sample older ih =>
      unfold walk
      split
      · exact collectable_nil horizon previous
      · rename_i hrecent
        split
        · rename_i hstep
          exact collectable_cons_iff.mpr ⟨hrecent, hstep, ih (some sample)⟩
        · exact collectable_nil horizon previous

/-- Whatever may be collected, the loop collects. -/
theorem isPrefix_walk {horizon : Int64} {previous : Option (Sample F)}
    {samples collected : List (Sample F)} (hpart : collected <+: samples)
    (h : Collectable horizon previous collected) : collected <+: walk horizon previous samples := by
  induction samples generalizing previous collected with
  | nil =>
      rw [List.prefix_nil.mp hpart]
      exact List.nil_prefix
  | cons sample older ih =>
      cases collected with
      | nil => exact List.nil_prefix
      | cons first rest =>
          obtain ⟨rfl, hrest⟩ := List.cons_prefix_cons.mp hpart
          obtain ⟨hrecent, hstep, htail⟩ := collectable_cons_iff.mp h
          rw [walk, if_neg hrecent, if_pos hstep]
          exact List.cons_prefix_cons.mpr ⟨rfl, ih hrest htail⟩

/-- The horizon of a request: the subtraction saturates only below every timestamp. -/
theorem lt_horizon_iff (nowMs : Int64) (backfillSeconds : UInt32) (tsMs : Int64) :
    tsMs < Saturating.sub nowMs (Saturating.mul (Int64.ofNat backfillSeconds.toNat) 1000) ↔
      tsMs.toInt < nowMs.toInt - backfillSeconds.toNat * 1000 := by
  have hbackfill : backfillSeconds.toNat < 2 ^ 32 := backfillSeconds.toNat_lt
  have hseconds : (Int64.ofNat backfillSeconds.toNat).toInt = backfillSeconds.toNat :=
    Int64.toInt_ofNat_of_lt (by omega)
  have hthousand : (1000 : Int64).toInt = 1000 := by decide
  have hlow := tsMs.le_toInt
  have hhigh := nowMs.toInt_lt
  rw [Int64.lt_iff_toInt_lt, Saturating.sub, Saturating.mul, Saturating.toInt_ofIntClamp,
    Saturating.toInt_ofIntClamp, hseconds, hthousand]
  omega

/-- Contiguous runs, read backwards, are what the loop may collect from the start. -/
theorem collectable_reverse_iff {nowMs : Int64} {backfillSeconds : UInt32}
    {samples : List (Sample F)} :
    Collectable (Saturating.sub nowMs (Saturating.mul
      (Int64.ofNat backfillSeconds.toNat) 1000)) none
        samples.reverse ↔
      Contiguous (nowMs.toInt - backfillSeconds.toNat * 1000) samples := by
  have hchain : (samples.reverse.IsChain fun newer older => onCadence newer older = true) ↔
      samples.IsChain fun older newer => 15000 ≤ newer.tsMs.toInt - older.tsMs.toInt ∧
        newer.tsMs.toInt - older.tsMs.toInt ≤ 45000 := by
    rw [List.isChain_reverse]
    simp only [onCadence_iff]
  unfold Collectable
  rw [Option.toList_none, List.nil_append, hchain]
  simp only [List.mem_reverse, lt_horizon_iff, not_lt]
  constructor
  · rintro ⟨hrecent, hcadence⟩
    exact ⟨hrecent, hcadence⟩
  · intro h
    exact ⟨h.recent, h.cadence⟩

/-- **The loop collects the longest run.** -/
theorem newestRun_run (ring : RingBuffer F) (backfillSeconds : UInt32) (nowMs : Int64) :
    NewestRun (nowMs.toInt - backfillSeconds.toNat * 1000) ring.samples
      (ring.run backfillSeconds nowMs) := by
  refine ⟨ring.run_isSuffix backfillSeconds nowMs, ?_, ?_⟩
  · rw [← collectable_reverse_iff, RingBuffer.run, List.reverse_reverse]
    exact collectable_walk _ none _
  · intro other hsuffix hcontiguous
    have hpart := List.reverse_prefix.mpr hsuffix
    rw [RingBuffer.run, ← List.reverse_prefix, List.reverse_reverse]
    exact isPrefix_walk hpart (collectable_reverse_iff.mpr hcontiguous)

namespace RingBuffer

/-! ### When there is no history -/

/-- The run is empty exactly if there is no sample, or the newest one is too old. -/
theorem run_eq_nil_iff (ring : RingBuffer F) (backfillSeconds : UInt32) (nowMs : Int64) :
    ring.run backfillSeconds nowMs = [] ↔
      ∀ newest, ring.latest = some newest →
        newest.tsMs.toInt < nowMs.toInt - backfillSeconds.toNat * 1000 := by
  have hrun := newestRun_run ring backfillSeconds nowMs
  constructor
  · intro hnil newest hnewest
    by_contra hrecent
    -- the newest sample alone would be a longer run
    obtain ⟨older, holder⟩ := List.getLast?_eq_some_iff.mp hnewest
    have hsingle : Contiguous (nowMs.toInt - backfillSeconds.toNat * 1000) [newest] := by
      refine ⟨fun sample hmem => ?_, List.isChain_singleton newest⟩
      rw [List.mem_singleton.mp hmem]
      exact not_lt.mp hrecent
    have hlonger := hrun.longest [newest] ⟨older, holder.symm⟩ hsingle
    rw [hnil] at hlonger
    exact List.cons_ne_nil _ _ (List.suffix_nil.mp hlonger)
  · intro hold
    rcases List.eq_nil_or_concat (ring.run backfillSeconds nowMs) with
      hnil | ⟨front, newest, hconcat⟩
    · exact hnil
    · rw [List.concat_eq_append] at hconcat
      obtain ⟨older, holder⟩ := hrun.isSuffix
      have hnewest : ring.latest = some newest := by
        rw [latest, ← holder, hconcat, ← List.append_assoc, List.getLast?_concat]
      have hrecent := hrun.contiguous.recent newest (by rw [hconcat]; simp)
      exact absurd (hold newest hnewest) (not_lt.mpr hrecent)

theorem history_eq_none_iff (ring : RingBuffer F) (backfillSeconds : UInt32) (nowMs : Int64) :
    ring.history backfillSeconds nowMs = none ↔
      backfillSeconds = 0 ∨ ring.samples = [] ∨ ∃ newest, ring.latest = some newest ∧
        newest.tsMs.toInt < nowMs.toInt - backfillSeconds.toNat * 1000 := by
  have hempty : ring.latest = none ↔ ring.samples = [] := List.getLast?_eq_none_iff
  have hnone : ring.history backfillSeconds nowMs = none ↔
      backfillSeconds = 0 ∨ ring.run backfillSeconds nowMs = [] := by
    unfold history
    by_cases hzero : backfillSeconds = 0
    · simp [hzero]
    · cases hrun : ring.run backfillSeconds nowMs with
      | nil => simp
      | cons first rest => simp [hzero, head?_stepBy]
  rw [hnone, run_eq_nil_iff]
  cases hlatest : ring.latest with
  | none => simp [hempty.mp hlatest]
  | some newest =>
      have hsome : ring.samples ≠ [] := by
        intro hnil
        rw [hempty.mpr hnil] at hlatest
        cases hlatest
      simp [hsome]

/-! ### How it is thinned out -/

/-- Where the last kept sample is: less than a factor from the end. -/
theorem length_stepBy_bounds {α : Type} {n : ℕ} (hn : 0 < n) {list : List α} (hne : list ≠ []) :
    ((stepBy n list).length - 1) * n < list.length ∧
      list.length ≤ ((stepBy n list).length - 1) * n + n := by
  have hlength := List.length_pos_of_ne_nil hne
  have hkept : 0 < (stepBy n list).length := by
    rw [List.length_pos_iff_exists_mem]
    obtain ⟨first, hfirst⟩ := Option.isSome_iff_exists.mp (List.isSome_head?.mpr hne)
    exact ⟨first, List.mem_of_head? ((head?_stepBy n list).trans hfirst)⟩
  constructor
  · have hlast := List.getElem?_eq_some_iff.mpr
      ⟨Nat.sub_lt hkept Nat.one_pos, rfl⟩
    rw [getElem?_stepBy hn] at hlast
    exact (List.getElem?_eq_some_iff.mp hlast).1
  · have hend : (stepBy n list)[(stepBy n list).length]? = none :=
      List.getElem?_eq_none le_rfl
    rw [getElem?_stepBy hn] at hend
    have hsplit : (stepBy n list).length * n = ((stepBy n list).length - 1) * n + n := by
      rw [← Nat.succ_mul, Nat.succ_eq_add_one, Nat.sub_add_cancel hkept]
    exact (List.getElem?_eq_none_iff.mp hend).trans_eq hsplit

/-! ### The specification -/

/-- A ring that samples have been pushed into. -/
def pushAll (capacity : ℕ) (pushed : List (Sample F)) : RingBuffer F :=
  pushed.foldl push (withCapacity capacity)

theorem factor_eq_divCeil {run : List (Sample F)} (hne : run ≠ []) :
    factor run = divCeil run.length MAX_HISTORY_SAMPLES := by
  have hlength := List.length_pos_of_ne_nil hne
  have hbound : MAX_HISTORY_SAMPLES = 512 := rfl
  rw [factor, divCeil, hbound]
  omega

/-- The interval of a ring of at most 70 million samples does not saturate. -/
theorem factor_le {run : List (Sample F)} (h : run.length ≤ 70000000) : factor run ≤ 143165 := by
  have hbound : MAX_HISTORY_SAMPLES = 512 := rfl
  rw [factor, divCeil, hbound]
  omega

/-- **The specification of the ring.**  It holds the last `capacity` samples pushed, in order.
There is no history exactly if none is asked for, nothing has been pushed, or the newest sample is
too old; otherwise it is every `factor`-th sample of the longest contiguous run at the end of the
ring, from the oldest on, with the interval that goes with it.  Timestamps may be anything: neither
the horizon nor a step can saturate to a different answer. -/
theorem history_spec {capacity : ℕ} (hpositive : 1 ≤ capacity) (hcapacity : capacity ≤ 70000000)
    (pushed : List (Sample F)) (backfillSeconds : UInt32) (nowMs : Int64) :
    (pushAll capacity pushed).samples = pushed.drop (pushed.length - capacity) ∧
    ((pushAll capacity pushed).history backfillSeconds nowMs = none ↔
      backfillSeconds = 0 ∨ (pushAll capacity pushed).samples = [] ∨
        ∃ newest, (pushAll capacity pushed).samples.getLast? = some newest ∧
          newest.tsMs.toInt < nowMs.toInt - backfillSeconds.toNat * 1000) ∧
    ∀ history, (pushAll capacity pushed).history backfillSeconds nowMs = some history →
      ∃ (run : List (Sample F)) (oldest : Sample F) (factor : ℕ),
        NewestRun (nowMs.toInt - backfillSeconds.toNat * 1000)
          (pushAll capacity pushed).samples run ∧
        run.head? = some oldest ∧ factor = divCeil run.length 512 ∧
        (∀ i, history.samples[i]? = run[i * factor]?) ∧
        history.startTs = oldest.tsMs ∧ history.intervalMs.toNat = 30000 * factor ∧
        history.samples.length ≤ 512 ∧ history.samples.head? = some oldest ∧
        (history.samples.length - 1) * factor < run.length ∧
        run.length - ((history.samples.length - 1) * factor + 1) < factor := by
  have hsamples : (pushAll capacity pushed).samples = pushed.drop (pushed.length - capacity) := by
    have hmax : max capacity 1 = capacity := max_eq_left hpositive
    rw [pushAll, samples_foldl_push]
    simp [withCapacity, hmax]
  refine ⟨hsamples, history_eq_none_iff _ _ _, ?_⟩
  intro history h
  obtain ⟨oldest, rest, hrun, hstart, hinterval, hthinned⟩ := history_eq_some h
  have hnewest := newestRun_run (pushAll capacity pushed) backfillSeconds nowMs
  rw [hrun] at hnewest
  have hne : oldest :: rest ≠ [] := List.cons_ne_nil _ _
  have hfactor := factor_eq_divCeil hne
  have hpos : 0 < factor (oldest :: rest) := factor_pos _
  have hshort : (oldest :: rest).length ≤ 70000000 := by
    refine hnewest.isSuffix.length_le.trans ?_
    rw [hsamples, List.length_drop]
    omega
  obtain ⟨hkept, hleft⟩ := length_stepBy_bounds hpos hne
  refine ⟨oldest :: rest, oldest, factor (oldest :: rest), hnewest, rfl, hfactor, ?_, hstart, ?_,
    length_history_le h, ?_, ?_, ?_⟩
  · intro i
    rw [hthinned, getElem?_stepBy hpos]
  · rw [hinterval, toNat_saturatingMul (factor_le hshort)]
  · rw [hthinned, head?_stepBy, List.head?_cons]
  · rw [hthinned]
    exact hkept
  · -- the next sample kept would be past the end
    rw [hthinned]
    omega

/-- Four samples into a ring of three, with a gap after the second. -/
def gappedSamples : List (Sample ℕ) := [0, 30000, 90000, 120000].map sampleAt

/-- The history of them is the part after the gap. -/
theorem history_spec_gapped : ∃ history,
    (pushAll 3 gappedSamples).history 3600 120000 = some history ∧ history.samples.length = 2 ∧
      ∃ run, NewestRun (-3480000) (pushAll 3 gappedSamples).samples run ∧
        history.samples.head? = run.head? := by
  have hsome : ((pushAll 3 gappedSamples).history 3600 120000).any fun history =>
      decide (history.samples.length = 2) := by
    decide +kernel
  obtain ⟨history, hhistory, hlength⟩ := (Option.any_eq_true _ _).mp hsome
  obtain ⟨run, oldest, factor, hrun, holdest, -, -, -, -, -, hfirst, -⟩ :=
    (history_spec (by decide) (by decide) gappedSamples 3600 120000).2.2 history hhistory
  exact ⟨history, hhistory, of_decide_eq_true hlength, run, hrun, hfirst.trans holdest.symm⟩

end RingBuffer

end Osprey
