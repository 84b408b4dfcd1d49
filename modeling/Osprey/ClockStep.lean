/-
**Storing across a step of the clock.**

The due time of `deliver` is a time of day.  It is moved forward past any gap, so storing resumes at
once after the clock has jumped ahead; but nothing moves it back.  After the clock has been set
back, samples are taken and dropped until it has caught up with the due time from before.

Main definitions:

* `Osprey.firstAdvanced` — the sample by which the timestamps after a step have advanced by 30 s;
* `Osprey.RecordedAfter` — a sample has been stored by then;
* `Osprey.DueWithin` — **the due time from before the step is not later than that**.

Main results:

* `Osprey.storing_suspended` — an hour without storing;
* `Osprey.recordedAfter_iff` — one step;
* `Osprey.recorded_iff` — **when history keeps being recorded**, over any number of steps.
-/

import Osprey.GridSampler

set_option relaxedAutoImplicit false
set_option autoImplicit false

namespace Osprey

variable {F : Type}

/-! ### After a step -/

/-- The first sample that is 30 s or more after the one at the start. -/
def firstAdvanced : List (Sample F) → Option (Sample F)
  | [] => none
  | start :: rest =>
      (start :: rest).find? fun sample => start.tsMs.toInt + 30000 ≤ sample.tsMs.toInt

theorem firstAdvanced_cons (start : Sample F) (rest : List (Sample F)) :
    firstAdvanced (start :: rest) = (start :: rest).find? fun sample =>
      start.tsMs.toInt + 30000 ≤ sample.tsMs.toInt := rfl

/-- By the time the timestamps have advanced by 30 s, one of the samples has been stored. -/
def RecordedAfter (s : Storing F) (segment : List (Sample F)) : Prop :=
  ∀ start front sample rest s', segment.head? = some start → segment = front ++ sample :: rest →
    start.tsMs.toInt + 30000 ≤ sample.tsMs.toInt →
    Transition.run Storing.deliver s (front ++ [sample]) = some s' →
    s.stored.length < s'.stored.length

/-- The due time is no later than the first sample that is 30 s after the step. -/
def DueWithin (recorder : Recorder F) (segment : List (Sample F)) : Prop :=
  ∀ due ∈ recorder.nextRingDue, ∀ sample ∈ firstAdvanced segment, due ≤ sample.tsMs

instance (recorder : Recorder F) (segment : List (Sample F)) :
    Decidable (DueWithin recorder segment) :=
  Option.decidableForallMem (p := fun due => ∀ sample ∈ firstAdvanced segment, due ≤ sample.tsMs)
    recorder.nextRingDue

/-- Consecutive timestamps differ by at most 30 s. -/
def Steady (segment : List (Sample F)) : Prop :=
  segment.IsChain fun sample next => |next.tsMs.toInt - sample.tsMs.toInt| ≤ 30000

/-! ### What a sequence stores -/

theorem length_stored_le_deliver {s s' : Storing F} {sample : Sample F}
    (h : s.deliver sample = some s') : s.stored.length ≤ s'.stored.length := by
  obtain ⟨recorder, -, rfl⟩ := Option.map_eq_some_iff.mp h
  simp only
  split
  · rw [List.length_append]
    exact Nat.le_add_right _ _
  · exact le_rfl

theorem length_stored_le_run {s s' : Storing F} {samples : List (Sample F)}
    (h : Transition.run Storing.deliver s samples = some s') :
    s.stored.length ≤ s'.stored.length := by
  induction samples generalizing s with
  | nil =>
      cases h
      exact le_rfl
  | cons sample samples ih =>
      obtain ⟨t, hdeliver, hrest⟩ := Transition.run_cons_eq_some.mp h
      exact (length_stored_le_deliver hdeliver).trans (ih hrest)

theorem deliver_of_not_stores {s : Storing F} {sample : Sample F}
    (h : ¬s.recorder.Stores sample) : s.deliver sample = some s := by
  rw [Storing.deliver, store_of_not_stores h, Option.map_some, if_neg h]

/-- Samples none of which would be stored leave everything as it was. -/
theorem run_of_not_stores {s : Storing F} {samples : List (Sample F)}
    (h : ∀ sample ∈ samples, ¬s.recorder.Stores sample) :
    Transition.run Storing.deliver s samples = some s := by
  induction samples with
  | nil => rfl
  | cons sample samples ih =>
      obtain ⟨hfirst, hrest⟩ := List.forall_mem_cons.mp h
      exact Transition.run_cons_eq_some.mpr ⟨s, deliver_of_not_stores hfirst, ih hrest⟩

/-- Deliveries before the last timestamp there is all end. -/
theorem run_deliver_total (s : Storing F) {samples : List (Sample F)}
    (hts : ∀ sample ∈ samples, sample.tsMs.toInt < 2 ^ 63 - 1) :
    ∃ s', Transition.run Storing.deliver s samples = some s' := by
  induction samples generalizing s with
  | nil => exact ⟨s, rfl⟩
  | cons sample samples ih =>
      obtain ⟨hfirst, hrest⟩ := List.forall_mem_cons.mp hts
      obtain ⟨recorder, hstore⟩ := store_total s.recorder sample hfirst
      obtain ⟨s', hrun⟩ := ih _ hrest
      exact ⟨s', Transition.run_cons_eq_some.mpr
        ⟨_, Option.map_eq_some_iff.mpr ⟨recorder, hstore, rfl⟩, hrun⟩⟩

/-- Where one of the samples would have been stored at the start, some sample is. -/
theorem length_stored_lt_run {s s' : Storing F} {samples : List (Sample F)} {sample : Sample F}
    (hmem : sample ∈ samples) (hstores : s.recorder.Stores sample)
    (hrun : Transition.run Storing.deliver s samples = some s') :
    s.stored.length < s'.stored.length := by
  induction samples with
  | nil => exact absurd hmem List.not_mem_nil
  | cons first samples ih =>
      obtain ⟨t, hdeliver, hrest⟩ := Transition.run_cons_eq_some.mp hrun
      by_cases hfirst : s.recorder.Stores first
      · obtain ⟨recorder, -, rfl⟩ := Option.map_eq_some_iff.mp hdeliver
        rw [if_pos hfirst] at hrest
        have hgrown := length_stored_le_run hrest
        simp only [List.length_append, List.length_singleton] at hgrown
        omega
      · cases hdeliver.symm.trans (deliver_of_not_stores hfirst)
        rcases List.mem_cons.mp hmem with rfl | hmem
        · exact absurd hstores hfirst
        · exact ih hmem hrest

/-! ### One step -/

/-- **One step of the clock.**  A sample is stored in time exactly if the due time from before the
step is reached in time. -/
theorem recordedAfter_iff {s : Storing F} {segment : List (Sample F)}
    (hknown : ∀ sample ∈ segment, sample.Known) :
    RecordedAfter s segment ↔ DueWithin s.recorder segment := by
  cases segment with
  | nil =>
      constructor
      · intro _ due _ sample hsample
        cases hsample
      · intro _ start front sample rest s' hstart
        cases hstart
  | cons start rest =>
      constructor
      · intro h due hdue sample hsample
        obtain ⟨hadvanced, front, after, hsplit, hbefore⟩ :=
          List.find?_eq_some_iff_append.mp ((firstAdvanced_cons start rest).symm.trans hsample)
        have hadvanced := of_decide_eq_true hadvanced
        by_contra hlate
        rw [Int64.le_iff_toInt_le, not_le] at hlate
        -- the sample and all before it are before the due time
        have hearly : ∀ x ∈ front ++ [sample], ¬s.recorder.Stores x := by
          intro x hx hstores
          have hreached := Int64.le_iff_toInt_le.mp (hstores.2 due hdue)
          rcases List.mem_append.mp hx with hx | hx
          · have hshort := hbefore x hx
            simp only [Bool.not_eq_true', decide_eq_false_iff_not, not_le] at hshort
            omega
          · rw [List.mem_singleton.mp hx] at hreached
            omega
        exact lt_irrefl _
          (h start front sample after s rfl hsplit hadvanced (run_of_not_stores hearly))
      · intro h start' front sample after s' hstart hsplit hadvanced hrun
        cases hstart
        obtain ⟨first, hfirst⟩ : ∃ first, (front ++ [sample]).find?
            (fun x => decide (start.tsMs.toInt + 30000 ≤ x.tsMs.toInt)) = some first := by
          rw [← Option.isSome_iff_exists, List.find?_isSome]
          exact ⟨sample, by simp, decide_eq_true hadvanced⟩
        have hfound : firstAdvanced (start :: rest) = some first := by
          rw [firstAdvanced, hsplit, ← List.singleton_append, ← List.append_assoc,
            List.find?_append, hfirst, Option.some_or]
        have hmem := List.mem_of_find?_eq_some hfirst
        have hsegment : first ∈ start :: rest :=
          List.mem_of_find?_eq_some ((firstAdvanced_cons start rest).symm.trans hfound)
        exact length_stored_lt_run hmem
          ⟨hknown first hsegment, fun due hdue => h due hdue first hfound⟩ hrun

/-! ### Any number of steps -/

/-- After every step of the clock, recording goes on.  The segments are what is delivered between
the steps. -/
def Recorded (segments : List (List (Sample F))) : Prop :=
  ∀ before segment after s, segments = before ++ segment :: after →
    Transition.run Storing.deliver .new before.flatten = some s → RecordedAfter s segment

/-- Four hours of a day, and then the same again: the clock is set back. -/
def setBack : List (List (Sample ℕ)) :=
  [[14400000, 14430000].map sampleAt, [0, 30000, 60000, 90000].map sampleAt]

/-- Samples thirty seconds apart, a clock set back by four hours, and nothing stored after it. -/
theorem storing_suspended : (∀ segment ∈ setBack, Steady segment) ∧
    (∀ sample ∈ setBack.flatten, sample.Known) ∧ ¬Recorded setBack := by
  refine ⟨?_, by decide +kernel, ?_⟩
  · unfold Steady
    decide +kernel
  · intro h
    have hrun : ∃ s, Transition.run Storing.deliver .new
        ([14400000, 14430000].map sampleAt) = some s ∧ s.recorder.nextRingDue = some 14460000 := by
      have hsome : ((Transition.run Storing.deliver .new
          ([14400000, 14430000].map sampleAt)).any fun s =>
            decide (s.recorder.nextRingDue = some 14460000)) = true := by
        decide +kernel
      obtain ⟨s, hs, hdue⟩ := (Option.any_eq_true _ _).mp hsome
      exact ⟨s, hs, of_decide_eq_true hdue⟩
    obtain ⟨s, hs, hdue⟩ := hrun
    have hafter := h [[14400000, 14430000].map sampleAt] _ [] s rfl hs
    have hwithin := (recordedAfter_iff (by decide +kernel)).mp hafter 14460000 hdue
      (sampleAt 30000) (by decide +kernel)
    exact absurd hwithin (by decide)

/-- **When history keeps being recorded.**  Deliveries end, and over any number of clock steps of
any size, a sample is stored within 30 s of each exactly if each finds the due time no later than
that. -/
theorem recorded_iff {segments : List (List (Sample F))}
    (hknown : ∀ sample ∈ segments.flatten, sample.Known) :
    ((∀ sample ∈ segments.flatten, sample.tsMs.toInt < 2 ^ 63 - 1) →
      ∃ s, Transition.run Storing.deliver .new segments.flatten = some s) ∧
    (Recorded segments ↔ ∀ before segment after s, segments = before ++ segment :: after →
      Transition.run Storing.deliver .new before.flatten = some s →
      DueWithin s.recorder segment) := by
  have hone (before : List (List (Sample F))) (segment : List (Sample F))
      (after : List (List (Sample F))) (hsplit : segments = before ++ segment :: after)
      (s : Storing F) : RecordedAfter s segment ↔ DueWithin s.recorder segment := by
    refine recordedAfter_iff fun sample hmem => hknown sample ?_
    exact List.mem_flatten.mpr ⟨segment, by rw [hsplit]; simp, hmem⟩
  refine ⟨run_deliver_total .new, ?_⟩
  constructor
  · intro h before segment after s hsplit hrun
    exact (hone before segment after hsplit s).mp (h before segment after s hsplit hrun)
  · intro h before segment after s hsplit hrun
    exact (hone before segment after hsplit s).mpr (h before segment after s hsplit hrun)

/-- A clock that is set back by ten seconds, and then forward by a day. -/
def corrected : List (List (Sample ℕ)) :=
  [[0, 30000, 45000].map sampleAt, [35000, 65000].map sampleAt,
    [86465000, 86495000].map sampleAt]

theorem recorded_iff_corrected : Recorded corrected := by
  refine (recorded_iff (by decide +kernel)).2.mpr ?_
  intro before segment after s hsplit hrun
  -- the three ways to split the sequence
  match before, hsplit with
  | [], hsplit =>
      cases hrun
      exact nofun
  | [_], hsplit =>
      simp only [corrected, List.cons_append, List.nil_append, List.cons.injEq] at hsplit
      obtain ⟨rfl, rfl, rfl⟩ := hsplit
      have hwithin : ((Transition.run Storing.deliver .new
          ([[0, 30000, 45000].map sampleAt].flatten)).all fun s =>
            decide (DueWithin s.recorder ([35000, 65000].map sampleAt))) = true := by
        decide +kernel
      rw [hrun] at hwithin
      exact of_decide_eq_true hwithin
  | [_, _], hsplit =>
      simp only [corrected, List.cons_append, List.nil_append, List.cons.injEq] at hsplit
      obtain ⟨rfl, rfl, rfl, rfl⟩ := hsplit
      have hwithin : ((Transition.run Storing.deliver .new
          ([[0, 30000, 45000].map sampleAt, [35000, 65000].map sampleAt].flatten)).all fun s =>
            decide (DueWithin s.recorder ([86465000, 86495000].map sampleAt))) = true := by
        decide +kernel
      rw [hrun] at hwithin
      exact of_decide_eq_true hwithin
  | _ :: _ :: _ :: before, hsplit =>
      simp [corrected] at hsplit

end Osprey
