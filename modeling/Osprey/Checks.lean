/-
**Checks made one after another.**

A checker walks over its input in order and stops at the first thing it does not like.  What it
answers when it stops, and what it has made sure of when it does not, are read off the steps once
here: for a sequence of two steps, for a walk that only checks, for a walk that produces one result
for each item, and for a walk that carries a state.

Main definitions:

* `Checks.require` — one check;
* `Checks.each` — check every item;
* `Checks.mapIndexed` — turn every item into a result, with its position at hand.

Main results:

* `Checks.bind_eq_ok`, `Checks.bind_eq_error` — one step and then another;
* `Checks.each_eq_ok`, `Checks.each_eq_error` — all pass, or the first that fails answers;
* `Checks.mapIndexed_mem` — where a result comes from;
* `Checks.mapIndexed_isOk_iff` — when there is a result for every item;
* `Checks.foldlM_error` — an error of a walk is the error of one step.
-/

import Mathlib.Data.List.Basic

set_option relaxedAutoImplicit false
set_option autoImplicit false

namespace Checks

variable {ε α β σ : Type}

/-! ### One step and then another -/

theorem bind_eq_ok {x : Except ε α} {f : α → Except ε β} {b : β} :
    (x >>= f) = .ok b ↔ ∃ a, x = .ok a ∧ f a = .ok b := by
  cases x with
  | error e => simp [bind, Except.bind]
  | ok a => simp [bind, Except.bind]

theorem bind_eq_error {x : Except ε α} {f : α → Except ε β} {e : ε} :
    (x >>= f) = .error e ↔ x = .error e ∨ ∃ a, x = .ok a ∧ f a = .error e := by
  cases x with
  | error e' => simp [bind, Except.bind]
  | ok a => simp [bind, Except.bind]

theorem pure_eq_ok {a b : α} : (pure a : Except ε α) = .ok b ↔ a = b := by
  simp [pure, Except.pure]

theorem pure_ne_error {a : α} {e : ε} : (pure a : Except ε α) ≠ .error e := by
  simp [pure, Except.pure]

/-! ### One check -/

/-- Go on if `p`, stop with `e` otherwise. -/
def require (p : Prop) [Decidable p] (e : ε) : Except ε Unit := if p then .ok () else .error e

theorem require_eq_ok {p : Prop} [Decidable p] {e : ε} {u : Unit} :
    require p e = .ok u ↔ p := by
  unfold require
  split <;> simp [*]

theorem require_eq_error {p : Prop} [Decidable p] {e e' : ε} :
    require p e = .error e' ↔ ¬ p ∧ e = e' := by
  unfold require
  split <;> simp [*]

/-! ### Checking every item -/

/-- Check the items in order, up to the first that fails. -/
def each (check : α → Except ε Unit) : List α → Except ε Unit
  | [] => .ok ()
  | a :: rest => do
      check a
      each check rest

theorem each_eq_ok {check : α → Except ε Unit} {items : List α} {u : Unit} :
    each check items = .ok u ↔ ∀ a ∈ items, check a = .ok () := by
  induction items with
  | nil => simp [each]
  | cons a rest ih =>
      simp only [each, bind_eq_ok, ih, List.forall_mem_cons]
      constructor
      · rintro ⟨_, ha, hrest⟩
        exact ⟨ha, hrest⟩
      · rintro ⟨ha, hrest⟩
        exact ⟨(), ha, hrest⟩

/-- **The first item that fails answers for the list.** -/
theorem each_eq_error {check : α → Except ε Unit} {items : List α} {e : ε} :
    each check items = .error e ↔
      ∃ before a after, items = before ++ a :: after ∧ (∀ b ∈ before, check b = .ok ()) ∧
        check a = .error e := by
  induction items with
  | nil => simp [each]
  | cons a rest ih =>
      rw [each, bind_eq_error]
      constructor
      · rintro (ha | ⟨_, ha, hrest⟩)
        · exact ⟨[], a, rest, rfl, by simp, ha⟩
        · obtain ⟨before, c, after, rfl, hbefore, hc⟩ := ih.mp hrest
          exact ⟨a :: before, c, after, rfl, List.forall_mem_cons.mpr ⟨ha, hbefore⟩, hc⟩
      · rintro ⟨before, c, after, heq, hbefore, hc⟩
        cases before with
        | nil =>
            obtain ⟨rfl, rfl⟩ := List.cons.inj heq
            exact .inl hc
        | cons b before =>
            obtain ⟨rfl, rfl⟩ := List.cons.inj heq
            obtain ⟨hb, hbefore⟩ := List.forall_mem_cons.mp hbefore
            exact .inr ⟨(), hb, ih.mpr ⟨before, c, after, rfl, hbefore, hc⟩⟩

theorem each_error_mem {check : α → Except ε Unit} {items : List α} {e : ε}
    (h : each check items = .error e) : ∃ a ∈ items, check a = .error e := by
  obtain ⟨before, a, after, rfl, _, ha⟩ := each_eq_error.1 h
  exact ⟨a, by simp, ha⟩

/-! ### A result for every item -/

/-- `items.map((item, i) => …)` where the body may throw. -/
def mapIndexed (f : ℕ → α → Except ε β) : ℕ → List α → Except ε (List β)
  | _, [] => .ok []
  | i, a :: rest => do
      let b ← f i a
      let bs ← mapIndexed f (i + 1) rest
      pure (b :: bs)

theorem mapIndexed_mem {f : ℕ → α → Except ε β} {items : List α} {i : ℕ} {results : List β}
    (h : mapIndexed f i items = .ok results) :
    ∀ b ∈ results, ∃ j, ∃ a ∈ items, f j a = .ok b := by
  induction items generalizing i results with
  | nil =>
      cases h
      simp
  | cons a rest ih =>
      rw [mapIndexed, bind_eq_ok] at h
      obtain ⟨b, hb, h⟩ := h
      obtain ⟨bs, hbs, h⟩ := bind_eq_ok.1 h
      obtain rfl := pure_eq_ok.1 h
      intro c hc
      rcases List.mem_cons.mp hc with rfl | hc
      · exact ⟨i, a, List.mem_cons_self, hb⟩
      · obtain ⟨j, d, hd, hok⟩ := ih hbs c hc
        exact ⟨j, d, List.mem_cons_of_mem _ hd, hok⟩

/-- There is a result for every item exactly when every item has one. -/
theorem mapIndexed_isOk_iff {f : α → Except ε β} {items : List α} {i : ℕ} :
    (∃ results, mapIndexed (fun _ => f) i items = .ok results) ↔
      ∀ a ∈ items, ∃ b, f a = .ok b := by
  induction items generalizing i with
  | nil => simp [mapIndexed]
  | cons a rest ih =>
      rw [List.forall_mem_cons, ← ih (i := i + 1)]
      simp only [mapIndexed, bind_eq_ok, pure_eq_ok]
      constructor
      · rintro ⟨_, b, hb, bs, hbs, -⟩
        exact ⟨⟨b, hb⟩, bs, hbs⟩
      · rintro ⟨⟨b, hb⟩, bs, hbs⟩
        exact ⟨_, b, hb, bs, hbs, rfl⟩

/-! ### A state carried along -/

/-- An error of the walk is the error of one step, made in a state the walk had reached. -/
theorem foldlM_error {step : σ → α → Except ε σ} {items : List α} {s : σ} {e : ε}
    (h : items.foldlM step s = .error e) :
    ∃ before a after t, items = before ++ a :: after ∧ before.foldlM step s = .ok t ∧
      step t a = .error e := by
  induction items generalizing s with
  | nil => exact absurd h pure_ne_error
  | cons a rest ih =>
      rw [List.foldlM_cons, bind_eq_error] at h
      rcases h with ha | ⟨t, ht, h⟩
      · exact ⟨[], a, rest, s, rfl, rfl, ha⟩
      · obtain ⟨before, c, after, u, rfl, hbefore, hc⟩ := ih h
        refine ⟨a :: before, c, after, u, rfl, ?_, hc⟩
        rw [List.foldlM_cons, bind_eq_ok]
        exact ⟨t, ht, hbefore⟩

end Checks
