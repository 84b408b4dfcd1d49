/-
**Labelled transition systems, run over lists of labels.**

A system is an executable step function `step : σ → α → Option σ`: the label says which process
moves and how, and `none` that the move is not enabled.  An interleaving of processes is a list of
labels, so a statement about every interleaving is a statement about every list.

Main definitions:

* `Transition.run` — follow a list of labels;
* `Transition.Meets` — every step of the run meets a condition on the state before it;
* `Transition.tracked` — the system with a history variable beside it.

Main results:

* `Transition.run_append`, `Transition.meets_cons`, `Transition.meets_append` — runs compose;
* `Transition.run_invariant` — **what every step of a kind keeps, every run of such steps keeps**;
* `Transition.run_keeps` — what every step keeps, every run keeps;
* `Transition.forall_states_iff_meets`, `Transition.forall_states_iff_meets_under`,
  `Transition.forall_states_iff_meets_at` — exactly which runs keep what one step keeps under an
  exact condition;
* `Transition.forall_steps_iff_meets` — exactly which runs have all steps with a property;
* `Transition.exists_tracked` — every run has its history;
* `Transition.getElem?_modify_cases`, `Transition.forall_modify` — a table of processes in which one
  process moves.
-/

import Mathlib.Data.List.Basic
import Mathlib.Tactic

set_option relaxedAutoImplicit false
set_option autoImplicit false

namespace Transition

variable {σ α : Type}

/-- Follow a list of labels; `none` when a move is not enabled. -/
def run (step : σ → α → Option σ) : σ → List α → Option σ
  | s, [] => some s
  | s, a :: as =>
      match step s a with
      | none => none
      | some t => run step t as

/-- Every step of the run over `as` from `s` meets the condition `C` on the state before it and its
label. -/
def Meets (step : σ → α → Option σ) (C : σ → α → Prop) : σ → List α → Prop
  | _, [] => True
  | s, a :: as => C s a ∧ ∀ t, step s a = some t → Meets step C t as

variable {step : σ → α → Option σ} {C : σ → α → Prop}

@[simp] theorem run_nil (s : σ) : run step s [] = some s := rfl

theorem run_cons_eq_some {s u : σ} {a : α} {as : List α} :
    run step s (a :: as) = some u ↔ ∃ t, step s a = some t ∧ run step t as = some u := by
  rw [run]
  cases step s a with
  | none => simp
  | some t => simp

/-- A run splits wherever its list of labels does. -/
theorem run_append {s u : σ} {as bs : List α} :
    run step s (as ++ bs) = some u ↔ ∃ t, run step s as = some t ∧ run step t bs = some u := by
  induction as generalizing s with
  | nil => simp
  | cons a as ih =>
      constructor
      · intro h
        obtain ⟨t, hstep, hrun⟩ := run_cons_eq_some.1 h
        obtain ⟨v, hv, hu⟩ := ih.mp hrun
        exact ⟨v, run_cons_eq_some.2 ⟨t, hstep, hv⟩, hu⟩
      · rintro ⟨v, hv, hu⟩
        obtain ⟨t, hstep, hrun⟩ := run_cons_eq_some.1 hv
        exact run_cons_eq_some.2 ⟨t, hstep, ih.mpr ⟨v, hrun, hu⟩⟩

/-- A run meets a condition step by step. -/
theorem meets_cons {s t : σ} {a : α} {as : List α} (hC : C s a) (hstep : step s a = some t)
    (h : Meets step C t as) : Meets step C s (a :: as) := by
  refine ⟨hC, ?_⟩
  intro t' hstep'
  cases hstep.symm.trans hstep'
  exact h

/-- Whether a run meets a condition is found out by following it. -/
instance Meets.decidable [∀ s a, Decidable (C s a)] :
    (s : σ) → (as : List α) → Decidable (Meets step C s as)
  | _, [] => .isTrue trivial
  | s, a :: as =>
      match hstep : step s a with
      | none =>
          decidable_of_iff (C s a)
            ⟨fun h => ⟨h, fun t ht => absurd (hstep.symm.trans ht) (by simp)⟩, And.left⟩
      | some t =>
          have := Meets.decidable t as
          decidable_of_iff (C s a ∧ Meets step C t as)
            ⟨fun h => meets_cons h.1 hstep h.2, fun h => ⟨h.1, h.2 t hstep⟩⟩

theorem meets_append {s t : σ} {as bs : List α} (hrun : run step s as = some t)
    (h : Meets step C s (as ++ bs)) : Meets step C s as ∧ Meets step C t bs := by
  induction as generalizing s with
  | nil =>
      cases hrun
      exact ⟨trivial, h⟩
  | cons a as ih =>
      obtain ⟨u, hstep, hrun⟩ := run_cons_eq_some.1 hrun
      obtain ⟨hC, hrest⟩ := h
      obtain ⟨hu, ht⟩ := ih hrun (hrest u hstep)
      refine ⟨⟨hC, ?_⟩, ht⟩
      intro u' hstep'
      cases hstep.symm.trans hstep'
      exact hu

/-- A run meets a condition if every step from a state it reaches does. -/
theorem meets_of_states {s : σ} {as : List α}
    (h : ∀ done a, done ++ [a] <+: as → ∀ t, run step s done = some t → C t a) :
    Meets step C s as := by
  induction as generalizing s with
  | nil => trivial
  | cons b as ih =>
      refine ⟨h [] b (by simp) s rfl, fun t ht => ih ?_⟩
      intro done a hdone u hu
      exact h (b :: done) a (by simpa using hdone) u (run_cons_eq_some.2 ⟨t, ht, hu⟩)

/-- A run that meets a condition meets it at every state it reaches. -/
theorem Meets.at {s t : σ} {as done : List α} {a : α} (h : Meets step C s as)
    (hdone : done ++ [a] <+: as) (ht : run step s done = some t) : C t a := by
  obtain ⟨rest, rfl⟩ := hdone
  rw [List.append_assoc] at h
  exact (meets_append ht h).2.1

/-- A run that meets a condition meets every weaker one. -/
theorem Meets.mono {D : σ → α → Prop} (h : ∀ s a, C s a → D s a) {s : σ} {as : List α}
    (hmeets : Meets step C s as) : Meets step D s as := by
  induction as generalizing s with
  | nil => trivial
  | cons a as ih => exact ⟨h s a hmeets.1, fun t ht => ih (hmeets.2 t ht)⟩

/-- **The invariant rule.**  What one step keeps under the condition, a run of steps that all meet
the condition keeps. -/
theorem run_invariant {I : σ → Prop}
    (hstep : ∀ s a t, I s → C s a → step s a = some t → I t) {s t : σ} {as : List α}
    (hs : I s) (hmeets : Meets step C s as) (hrun : run step s as = some t) : I t := by
  induction as generalizing s with
  | nil =>
      cases hrun
      exact hs
  | cons a as ih =>
      obtain ⟨u, hu, hrun⟩ := run_cons_eq_some.1 hrun
      exact ih (hstep s a u hs hmeets.1 hu) (hmeets.2 u hu) hrun

/-- A condition that every step meets is met along every run. -/
theorem meets_of_forall (h : ∀ s a, C s a) (s : σ) (as : List α) : Meets step C s as := by
  induction as generalizing s with
  | nil => trivial
  | cons a as ih => exact ⟨h s a, fun t _ => ih t⟩

/-- What every step keeps, every run keeps. -/
theorem run_keeps {I : σ → Prop} (hstep : ∀ s a t, I s → step s a = some t → I t) {s t : σ}
    {as : List α} (hs : I s) (hrun : run step s as = some t) : I t :=
  run_invariant (fun s a t hs (_ : True) => hstep s a t hs) hs
    (meets_of_forall (fun _ _ => trivial) s as) hrun

/-- **When a run keeps an invariant.**  Where one step keeps `I` exactly if it meets the condition
`C`, every state a run passes through has `I` exactly if all its steps meet `C`.  `D` is met by
every step, and `A` is what holds along every such run and may be used for that. -/
theorem forall_states_iff_meets_under {A I : σ → Prop} {D : σ → α → Prop}
    (hA : ∀ s a t, A s → D s a → step s a = some t → A t)
    (hstep : ∀ s a t, A s → D s a → I s → step s a = some t → (I t ↔ C s a)) {s u : σ} {as : List α}
    (hs : A s) (hI : I s) (hmeets : Meets step D s as) (hrun : run step s as = some u) :
    (∀ done, done <+: as → ∀ t, run step s done = some t → I t) ↔ Meets step C s as := by
  induction as generalizing s with
  | nil =>
      refine ⟨fun _ => trivial, fun _ done hdone t ht => ?_⟩
      rw [List.prefix_nil.mp hdone] at ht
      cases ht
      exact hI
  | cons a as ih =>
      obtain ⟨v, hv, hrest⟩ := run_cons_eq_some.1 hrun
      obtain ⟨hD, hmeets⟩ := hmeets
      have hkeeps := hstep s a v hs hD hI hv
      have ih := fun hIv => ih (hA s a v hs hD hv) hIv (hmeets v hv) hrest
      constructor
      · intro hall
        have hIv : I v := hall [a] (by simp) v (run_cons_eq_some.2 ⟨v, hv, rfl⟩)
        refine meets_cons (hkeeps.mp hIv) hv ((ih hIv).mp ?_)
        intro done hdone t ht
        exact hall (a :: done) (by simpa using hdone) t (run_cons_eq_some.2 ⟨v, hv, ht⟩)
      · rintro ⟨hC, hmeets⟩ done hdone t ht
        have hIv : I v := hkeeps.mpr hC
        cases done with
        | nil =>
            cases ht
            exact hI
        | cons b done =>
            obtain ⟨rfl, hdone'⟩ := List.cons_prefix_cons.mp hdone
            obtain ⟨v', hv', ht⟩ := run_cons_eq_some.1 ht
            cases hv.symm.trans hv'
            exact (ih hIv).mpr (hmeets v hv) done hdone' t ht

/-- The same for all runs. -/
theorem forall_states_iff_meets {A I : σ → Prop}
    (hA : ∀ s a t, A s → step s a = some t → A t)
    (hstep : ∀ s a t, A s → I s → step s a = some t → (I t ↔ C s a)) {s u : σ} {as : List α}
    (hs : A s) (hI : I s) (hrun : run step s as = some u) :
    (∀ done, done <+: as → ∀ t, run step s done = some t → I t) ↔ Meets step C s as :=
  forall_states_iff_meets_under (fun s a t hs _ => hA s a t hs) (fun s a t hs _ => hstep s a t hs)
    hs hI (meets_of_forall (C := fun _ _ => True) (fun _ _ => trivial) s as) hrun

/-- The same for a property `P` that says less than `I` in some states, where it is still enough for
the step that leads there to keep `I`. -/
theorem forall_states_iff_meets_at {I P : σ → Prop} (hP : ∀ s, I s → P s)
    (hI : ∀ s a t, I s → step s a = some t → P t → I t)
    (hstep : ∀ s a t, I s → step s a = some t → (I t ↔ C s a)) {s u : σ} {as : List α} (hs : I s)
    (hrun : run step s as = some u) :
    (∀ done, done <+: as → ∀ t, run step s done = some t → P t) ↔ Meets step C s as := by
  constructor
  · intro hall
    induction as generalizing s with
    | nil => trivial
    | cons a as ih =>
        obtain ⟨v, hv, hrest⟩ := run_cons_eq_some.1 hrun
        have hIv : I v := hI s a v hs hv
          (hall [a] (by simp) v (run_cons_eq_some.2 ⟨v, hv, rfl⟩))
        refine meets_cons ((hstep s a v hs hv).mp hIv) hv (ih hIv hrest ?_)
        intro done hdone t ht
        exact hall (a :: done) (by simpa using hdone) t (run_cons_eq_some.2 ⟨v, hv, ht⟩)
  · intro hmeets done hdone t ht
    have hkept := (forall_states_iff_meets (A := fun _ => True) (fun _ _ _ _ _ => trivial)
      (fun s a t _ => hstep s a t) trivial hs hrun).mpr hmeets
    exact hP t (hkept done hdone t ht)

/-- **When every step of a run has a property.**  Where one step has it exactly if it meets the
condition `C`, all steps of a run have it exactly if they all meet `C`. -/
theorem forall_steps_iff_meets {A : σ → Prop} {R : σ → α → σ → Prop}
    (hA : ∀ s a t, A s → step s a = some t → A t)
    (hstep : ∀ s a t, A s → step s a = some t → (R s a t ↔ C s a)) {s u : σ} {as : List α}
    (hs : A s) (hrun : run step s as = some u) :
    (∀ done a, done ++ [a] <+: as → ∀ t v, run step s done = some t → step t a = some v → R t a v) ↔
      Meets step C s as := by
  induction as generalizing s with
  | nil =>
      refine ⟨fun _ => trivial, fun _ done a hdone => ?_⟩
      simp at hdone
  | cons b as ih =>
      obtain ⟨w, hw, hrest⟩ := run_cons_eq_some.1 hrun
      have ih := ih (hA s b w hs hw) hrest
      constructor
      · intro hall
        have hfirst := hall [] b (by simp) s w rfl hw
        refine meets_cons ((hstep s b w hs hw).mp hfirst) hw (ih.mp ?_)
        intro done a hdone t v ht hv
        exact hall (b :: done) a (by simpa using hdone) t v (run_cons_eq_some.2 ⟨w, hw, ht⟩) hv
      · rintro ⟨hC, hmeets⟩ done a hdone t v ht hv
        cases done with
        | nil =>
            cases ht
            obtain ⟨rfl, -⟩ := List.cons_prefix_cons.mp hdone
            exact (hstep s a v hs hv).mpr hC
        | cons c done =>
            obtain ⟨rfl, hrestdone⟩ := List.cons_prefix_cons.mp hdone
            obtain ⟨w', hw', ht⟩ := run_cons_eq_some.1 ht
            cases hw.symm.trans hw'
            exact ih.mpr (hmeets w hw) done a hrestdone t v ht hv

/-! ### History variables -/

section

variable {γ : Type} {note : σ → α → γ → γ}

/-- The system with a variable beside its state that no step reads: `note` says how it changes,
given the state before the step. -/
def tracked (step : σ → α → Option σ) (note : σ → α → γ → γ) (s : σ × γ) (a : α) :
    Option (σ × γ) :=
  (step s.1 a).map fun t => (t, note s.1 a s.2)

theorem tracked_eq_some {s t : σ × γ} {a : α} :
    tracked step note s a = some t ↔ step s.1 a = some t.1 ∧ t.2 = note s.1 a s.2 := by
  obtain ⟨t, g⟩ := t
  simp only [tracked, Option.map_eq_some_iff, Prod.mk.injEq]
  constructor
  · rintro ⟨u, hu, rfl, rfl⟩
    exact ⟨hu, rfl⟩
  · rintro ⟨ht, rfl⟩
    exact ⟨t, ht, rfl, rfl⟩

/-- Every run of the system has its history. -/
theorem exists_tracked (note : σ → α → γ → γ) {s t : σ} {as : List α} (g : γ)
    (h : run step s as = some t) :
    ∃ g', run (tracked step note) (s, g) as = some (t, g') := by
  induction as generalizing s g with
  | nil =>
      cases h
      exact ⟨g, rfl⟩
  | cons a as ih =>
      obtain ⟨u, hstep, hrun⟩ := run_cons_eq_some.1 h
      obtain ⟨g', hg'⟩ := ih (note s a g) hrun
      exact ⟨g', run_cons_eq_some.2 ⟨(u, note s a g), tracked_eq_some.2 ⟨hstep, rfl⟩, hg'⟩⟩

end

/-! ### Tables of processes -/

variable {β : Type} {table : List β} {i : ℕ} {f : β → β}

/-- After process `i` has moved, an entry is that of another process, or the new one of `i`. -/
theorem getElem?_modify_cases {j : ℕ} {b : β} (h : (table.modify i f)[j]? = some b) :
    (i ≠ j ∧ table[j]? = some b) ∨ (i = j ∧ ∃ before, table[i]? = some before ∧ f before = b) := by
  by_cases hij : i = j
  · subst hij
    rw [List.getElem?_modify_eq] at h
    exact Or.inr ⟨rfl, Option.map_eq_some_iff.mp h⟩
  · rw [List.getElem?_modify_ne _ _ hij] at h
    exact Or.inl ⟨hij, h⟩

/-- What held of all processes still does if it holds of the one that has moved. -/
theorem forall_modify {P : ℕ → β → Prop} (h : ∀ j b, table[j]? = some b → P j b)
    (hf : ∀ b, table[i]? = some b → P i (f b)) :
    ∀ j b, (table.modify i f)[j]? = some b → P j b := by
  intro j b hb
  rcases getElem?_modify_cases hb with ⟨-, hold⟩ | ⟨rfl, before, hbefore, rfl⟩
  · exact h j b hold
  · exact hf before hbefore

end Transition
