/-
**Programs whose calls may be refused, or be the last.**

A program changes some state by calls to a system that it has no hand in.  At each call the system
does what is asked of it, or refuses and has no effect, or the process dies, before or after the
effect.  The environment decides, by a script of faults; a call beyond the script is carried out.

What a program leaves that is cut short is a state that it has been in: if it goes from one state to
the next by one call each, then a script leaves the state after as many calls as it lets through.

Main definitions:

* `CallScript.Fault`, `CallScript.Env`, `CallScript.Prog` — the environment, and programs over it;
* `CallScript.call`, `CallScript.call_cases` — one call, and what can become of it;
* `CallScript.passed` — how many of the next calls a script lets have their effect;
* `CallScript.Straight` — a program that passes through a list of states, one call each.

Main results:

* `CallScript.straight_call` — one call, with what is made of its answer;
* `CallScript.Straight.bind` — the rule for sequencing;
* `CallScript.Straight.run` — **what a script leaves of such a program**.
-/

import Osprey.AtomicFile

set_option relaxedAutoImplicit false
set_option autoImplicit false

namespace CallScript

open FileIO (Out)

/-! ### The environment -/

/-- What happens at one call: it is carried out, it is refused with an answer, or the process dies
in it. -/
inductive Fault (ι : Type)
  | proceed
  | refuse (answer : ι)
  | die (applied : Bool)
  deriving DecidableEq, Repr

/-- The state that the calls change, and the faults to come. -/
structure Env (σ ι : Type) where
  state : σ
  faults : List (Fault ι)
  deriving DecidableEq, Repr

/-- Programs that make calls. -/
def Prog (σ ι ε α : Type) : Type := Env σ ι → Out ε α × Env σ ι

variable {σ ι ε α β : Type}

namespace Prog

/-- Continue after success; an error or a death ends the program. -/
def bind (m : Prog σ ι ε α) (f : α → Prog σ ι ε β) : Prog σ ι ε β := fun env =>
  match m env with
  | (.ok a, env) => f a env
  | (.err e, env) => (.err e, env)
  | (.died, env) => (.died, env)

instance : Monad (Prog σ ι ε) where
  pure a env := (.ok a, env)
  bind := bind

def throw (e : ε) : Prog σ ι ε α := fun env => (.err e, env)

/-- Lift an answer that takes no call. -/
def ofExcept : Except ε α → Prog σ ι ε α
  | .ok a => pure a
  | .error e => throw e

theorem pure_run (a : α) (env : Env σ ι) : (pure a : Prog σ ι ε α) env = (.ok a, env) := rfl

theorem throw_run (e : ε) (env : Env σ ι) : (throw e : Prog σ ι ε α) env = (.err e, env) := rfl

theorem bind_run (m : Prog σ ι ε α) (f : α → Prog σ ι ε β) (env : Env σ ι) :
    (m >>= f) env =
      match m env with
      | (.ok a, env) => f a env
      | (.err e, env) => (.err e, env)
      | (.died, env) => (.died, env) := rfl

end Prog

/-- One call, with its answer and effect when it is carried out, and its answer when it is
refused. -/
def call (carried : σ → α × σ) (refused : ι → α) : Prog σ ι ε α := fun env =>
  match env.faults with
  | [] => (.ok (carried env.state).1, ⟨(carried env.state).2, []⟩)
  | .proceed :: faults => (.ok (carried env.state).1, ⟨(carried env.state).2, faults⟩)
  | .refuse answer :: faults => (.ok (refused answer), ⟨env.state, faults⟩)
  | .die applied :: faults =>
      (.died, ⟨if applied then (carried env.state).2 else env.state, faults⟩)

/-- A call is carried out, refused, or the process dies in it. -/
theorem call_cases (carried : σ → α × σ) (refused : ι → α) (env : Env σ ι) :
    (∃ faults, (env.faults = [] ∧ faults = [] ∨ env.faults = .proceed :: faults) ∧
      (call carried refused : Prog σ ι ε α) env =
        (.ok (carried env.state).1, ⟨(carried env.state).2, faults⟩)) ∨
    (∃ answer faults, env.faults = .refuse answer :: faults ∧
      (call carried refused : Prog σ ι ε α) env = (.ok (refused answer), ⟨env.state, faults⟩)) ∨
    ∃ applied faults, env.faults = .die applied :: faults ∧
      (call carried refused : Prog σ ι ε α) env =
        (.died, ⟨if applied then (carried env.state).2 else env.state, faults⟩) := by
  obtain ⟨state, faults⟩ := env
  cases faults with
  | nil => exact .inl ⟨[], .inl ⟨rfl, rfl⟩, rfl⟩
  | cons fault faults =>
      cases fault with
      | proceed => exact .inl ⟨faults, .inr rfl, rfl⟩
      | refuse answer => exact .inr (.inl ⟨answer, faults, rfl, rfl⟩)
      | die applied => exact .inr (.inr ⟨applied, faults, rfl, rfl⟩)

/-- The program has ended with an error, or the process has died. -/
def Stopped (out : Out ε α) : Prop := ∀ a, out ≠ .ok a

theorem stopped_err (e : ε) : Stopped (.err e : Out ε α) := fun _ h => nomatch h

theorem stopped_died : Stopped (.died : Out ε α) := fun _ h => nomatch h

theorem ok_or_stopped (out : Out ε α) : (∃ a, out = .ok a) ∨ Stopped out := by
  cases out with
  | ok a => exact .inl ⟨a, rfl⟩
  | err e => exact .inr (stopped_err e)
  | died => exact .inr stopped_died

/-- A program that has stopped does not go on. -/
theorem bind_of_stopped {m : Prog σ ι ε α} (f : α → Prog σ ι ε β) {env env' : Env σ ι}
    {out : Out ε α} (hrun : m env = (out, env')) (hstopped : Stopped out) :
    ∃ out', Stopped out' ∧ (m >>= f) env = (out', env') := by
  rw [Prog.bind_run, hrun]
  cases out with
  | ok a => exact absurd rfl (hstopped a)
  | err e => exact ⟨_, stopped_err e, rfl⟩
  | died => exact ⟨_, stopped_died, rfl⟩

theorem bind_of_ok {m : Prog σ ι ε α} (f : α → Prog σ ι ε β) {env env' : Env σ ι} {a : α}
    (hrun : m env = (.ok a, env')) : (m >>= f) env = f a env' := by
  rw [Prog.bind_run, hrun]

/-! ### Scripts -/

/-- How many of the next `n` calls have their effect, up to the first that is refused or the last.
A call that reads has its effect by answering. -/
def passed : ℕ → List (Fault ι) → ℕ
  | 0, _ => 0
  | n + 1, [] => n + 1
  | n + 1, .proceed :: faults => passed n faults + 1
  | _ + 1, .refuse _ :: _ => 0
  | _ + 1, .die applied :: _ => if applied then 1 else 0

/-- None of the next `n` calls is refused or the last. -/
def Clear : ℕ → List (Fault ι) → Prop
  | 0, _ => True
  | _ + 1, [] => True
  | n + 1, .proceed :: faults => Clear n faults
  | _ + 1, .refuse _ :: _ => False
  | _ + 1, .die _ :: _ => False

theorem clear_nil (n : ℕ) : Clear n ([] : List (Fault ι)) := by
  cases n with
  | zero => trivial
  | succ n => trivial

theorem passed_le (n : ℕ) (faults : List (Fault ι)) : passed n faults ≤ n := by
  induction n generalizing faults with
  | zero => exact Nat.zero_le _
  | succ n ih =>
      cases faults with
      | nil => exact le_rfl
      | cons fault faults =>
          cases fault with
          | proceed => exact Nat.succ_le_succ (ih faults)
          | refuse answer => exact Nat.zero_le _
          | die applied =>
              rw [passed]
              split
              · omega
              · exact Nat.zero_le _

theorem passed_of_clear {n : ℕ} {faults : List (Fault ι)} (h : Clear n faults) :
    passed n faults = n := by
  induction n generalizing faults with
  | zero => rfl
  | succ n ih =>
      cases faults with
      | nil => rfl
      | cons fault faults =>
          cases fault with
          | proceed => exact congrArg Nat.succ (ih h)
          | refuse answer => exact h.elim
          | die applied => exact h.elim

/-- A script for `m + n` calls is one for `m` calls and one for `n`. -/
theorem clear_add {m n : ℕ} {faults : List (Fault ι)} :
    Clear (m + n) faults ↔ Clear m faults ∧ Clear n (faults.drop m) := by
  induction m generalizing faults with
  | zero => simp [Clear]
  | succ m ih =>
      rw [Nat.succ_add]
      cases faults with
      | nil => cases n <;> simp [Clear]
      | cons fault faults =>
          cases fault with
          | proceed => simpa [Clear] using ih
          | refuse answer => simp [Clear]
          | die applied => simp [Clear]

theorem passed_add_of_clear {m : ℕ} (n : ℕ) {faults : List (Fault ι)} (h : Clear m faults) :
    passed (m + n) faults = m + passed n (faults.drop m) := by
  induction m generalizing faults with
  | zero => simp
  | succ m ih =>
      rw [Nat.succ_add]
      cases faults with
      | nil =>
          rw [List.drop_nil]
          cases n with
          | zero => simp [passed]
          | succ n => simp [passed]; omega
      | cons fault faults =>
          cases fault with
          | proceed =>
              have ih := @ih faults h
              simp only [passed, List.drop_succ_cons]
              omega
          | refuse answer => exact h.elim
          | die applied => exact h.elim

theorem passed_add_of_not_clear {m : ℕ} (n : ℕ) {faults : List (Fault ι)} (h : ¬Clear m faults) :
    passed (m + n) faults = passed m faults := by
  induction m generalizing faults with
  | zero => exact absurd trivial h
  | succ m ih =>
      rw [Nat.succ_add]
      cases faults with
      | nil => exact absurd trivial h
      | cons fault faults =>
          cases fault with
          | proceed => exact congrArg Nat.succ (ih h)
          | refuse answer => rfl
          | die applied => rfl

/-! ### Programs that pass through states -/

/-- The state after `n` of the calls that lead from `s` through `trail`. -/
def stateAfter (s : σ) (trail : List σ) (n : ℕ) : σ := (s :: trail).getD n s

/-- From `s` the program makes a call for each state of `trail`, by which it gets there, and then
ends with `out`; when a call is refused it stops, and leaves the state as it is. -/
def Straight (m : Prog σ ι ε α) (s : σ) (out : Out ε α) (trail : List σ) : Prop :=
  ∀ faults, ∃ out' rest, m ⟨s, faults⟩ = (out', ⟨stateAfter s trail (passed trail.length faults),
    rest⟩) ∧ (Clear trail.length faults → out' = out ∧ rest = faults.drop trail.length) ∧
      (¬Clear trail.length faults → Stopped out')

/-- **What a script leaves of such a program.** -/
theorem Straight.run {m : Prog σ ι ε α} {s : σ} {out : Out ε α} {trail : List σ}
    (h : Straight m s out trail) (faults : List (Fault ι)) :
    (m ⟨s, faults⟩).2.state = stateAfter s trail (passed trail.length faults) := by
  obtain ⟨out', rest, hrun, -⟩ := h faults
  rw [hrun]

theorem Straight.out_of_clear {m : Prog σ ι ε α} {s : σ} {out : Out ε α} {trail : List σ}
    (h : Straight m s out trail) {faults : List (Fault ι)} (hclear : Clear trail.length faults) :
    (m ⟨s, faults⟩).1 = out := by
  obtain ⟨out', rest, hrun, hout, -⟩ := h faults
  rw [hrun]
  exact (hout hclear).1

theorem Straight.stopped {m : Prog σ ι ε α} {s : σ} {out : Out ε α} {trail : List σ}
    (h : Straight m s out trail) {faults : List (Fault ι)} (hclear : ¬Clear trail.length faults) :
    Stopped (m ⟨s, faults⟩).1 := by
  obtain ⟨out', rest, hrun, -, hout⟩ := h faults
  rw [hrun]
  exact hout hclear

/-- Such a program succeeds only if it is to, and nothing goes wrong. -/
theorem Straight.clear_of_ok {m : Prog σ ι ε α} {s : σ} {out : Out ε α} {trail : List σ}
    (h : Straight m s out trail) {faults : List (Fault ι)} {a : α}
    (hok : (m ⟨s, faults⟩).1 = .ok a) : Clear trail.length faults ∧ out = .ok a := by
  by_cases hclear : Clear trail.length faults
  · exact ⟨hclear, (h.out_of_clear hclear).symm.trans hok⟩
  · exact absurd hok (h.stopped hclear a)

/-- A program that makes no call. -/
theorem straight_done {m : Prog σ ι ε α} {s : σ} {out : Out ε α}
    (h : ∀ faults, m ⟨s, faults⟩ = (out, ⟨s, faults⟩)) : Straight m s out [] := by
  intro faults
  exact ⟨out, faults, h faults, fun _ => ⟨rfl, rfl⟩, fun hclear => absurd trivial hclear⟩

/-- What ends a program that has no call left to make. -/
def outOf : Except ε α → Out ε α
  | .ok a => .ok a
  | .error e => .err e

theorem outOf_eq_ok {answer : Except ε α} {a : α} (h : outOf answer = .ok a) : answer = .ok a := by
  cases answer with
  | ok b =>
      cases h
      rfl
  | error e => cases h

theorem straight_ofExcept (answer : Except ε α) (s : σ) :
    Straight (Prog.ofExcept answer : Prog σ ι ε α) s (outOf answer) [] := by
  cases answer with
  | ok a => exact straight_done fun _ => rfl
  | error e => exact straight_done fun _ => rfl

/-- One call, after which the program ends: with `out` where the call has been carried out, and
with an error where it has been refused. -/
theorem straight_call {carried : σ → α × σ} {refused : ι → α} {k : α → Prog σ ι ε β} {s : σ}
    {out : Out ε β} (hcarried : ∀ env, k (carried s).1 env = (out, env))
    (hrefused : ∀ answer env, ∃ e, k (refused answer) env = (.err e, env)) :
    Straight (call carried refused >>= k) s out [(carried s).2] := by
  intro faults
  cases faults with
  | nil => exact ⟨out, [], hcarried _, fun _ => ⟨rfl, rfl⟩, fun hclear => absurd trivial hclear⟩
  | cons fault faults =>
      cases fault with
      | proceed =>
          exact ⟨out, faults, hcarried _, fun _ => ⟨rfl, rfl⟩, fun hclear => absurd trivial hclear⟩
      | refuse answer =>
          obtain ⟨e, he⟩ := hrefused answer ⟨s, faults⟩
          exact ⟨.err e, faults, he, fun hclear => hclear.elim, fun _ => stopped_err e⟩
      | die applied =>
          refine ⟨.died, faults, ?_, fun hclear => hclear.elim, fun _ => stopped_died⟩
          cases applied <;> rfl

theorem stateAfter_append_of_le {s : σ} {trail : List σ} (more : List σ) {n : ℕ}
    (h : n ≤ trail.length) : stateAfter s (trail ++ more) n = stateAfter s trail n := by
  simp only [stateAfter, List.getD_eq_getElem?_getD, ← List.cons_append]
  rw [List.getElem?_append_left (by simpa using Nat.lt_succ_of_le h)]

theorem stateAfter_append_add (s : σ) (trail more : List σ) (n : ℕ) (hn : n ≤ more.length) :
    stateAfter s (trail ++ more) (trail.length + n)
      = stateAfter (stateAfter s trail trail.length) more n := by
  cases n with
  | zero => exact stateAfter_append_of_le more le_rfl
  | succ n =>
      have hlt : trail.length + n < (trail ++ more).length := by simp; omega
      simp only [stateAfter, List.getD_eq_getElem?_getD, ← Nat.add_assoc, List.getElem?_cons_succ]
      rw [List.getElem?_append_right (Nat.le_add_right _ _), Nat.add_sub_cancel_left,
        List.getElem?_eq_getElem (by omega : n < more.length)]
      rfl

/-- **The rule for sequencing**: the second program goes on from where the first has got to. -/
theorem Straight.bind {m : Prog σ ι ε α} {k : α → Prog σ ι ε β} {s : σ} {a : α} {out : Out ε β}
    {t u : List σ} (hm : Straight m s (.ok a) t)
    (hk : Straight (k a) (stateAfter s t t.length) out u) :
    Straight (m >>= k) s out (t ++ u) := by
  intro faults
  obtain ⟨out₁, rest₁, hrun₁, hclear₁, hstopped₁⟩ := hm faults
  rw [Prog.bind_run, hrun₁, List.length_append]
  by_cases hclear : Clear t.length faults
  · obtain ⟨rfl, rfl⟩ := hclear₁ hclear
    obtain ⟨out₂, rest₂, hrun₂, hclear₂, hstopped₂⟩ := hk (faults.drop t.length)
    rw [passed_add_of_clear _ hclear, stateAfter_append_add _ _ _ _ (passed_le _ _),
      passed_of_clear hclear]
    refine ⟨out₂, rest₂, hrun₂, ?_, ?_⟩
    · intro hboth
      obtain ⟨rfl, rfl⟩ := hclear₂ (clear_add.mp hboth).2
      exact ⟨rfl, by rw [List.drop_drop]⟩
    · intro hnot
      exact hstopped₂ fun hrest => hnot (clear_add.mpr ⟨hclear, hrest⟩)
  · rw [passed_add_of_not_clear _ hclear, stateAfter_append_of_le _ (passed_le _ _)]
    have hstop := hstopped₁ hclear
    cases out₁ with
    | ok a => exact absurd rfl (hstop a)
    | err e =>
        exact ⟨.err e, rest₁, rfl, fun hboth => absurd (clear_add.mp hboth).1 hclear,
          fun _ => stopped_err e⟩
    | died =>
        exact ⟨.died, rest₁, rfl, fun hboth => absurd (clear_add.mp hboth).1 hclear,
          fun _ => stopped_died⟩

/-- A state that is passed through again and again. -/
theorem stateAfter_replicate (s : σ) (k n : ℕ) : stateAfter s (List.replicate k s) n = s := by
  rw [stateAfter, ← List.replicate_succ, List.getD_eq_getElem?_getD, List.getElem?_replicate]
  split <;> rfl

/-- A program that ends with an error does not go on. -/
theorem Straight.bind_err {m : Prog σ ι ε α} {s : σ} {e : ε} {trail : List σ}
    (hm : Straight m s (.err e) trail) (k : α → Prog σ ι ε β) :
    Straight (m >>= k) s (.err e) trail := by
  intro faults
  obtain ⟨out₁, rest₁, hrun₁, hclear₁, hstopped₁⟩ := hm faults
  rw [Prog.bind_run, hrun₁]
  by_cases hclear : Clear trail.length faults
  · obtain ⟨rfl, rfl⟩ := hclear₁ hclear
    exact ⟨.err e, _, rfl, fun _ => ⟨rfl, rfl⟩, fun h => absurd hclear h⟩
  · have hstop := hstopped₁ hclear
    cases out₁ with
    | ok a => exact absurd rfl (hstop a)
    | err e => exact ⟨.err e, rest₁, rfl, fun h => absurd h hclear, fun _ => stopped_err e⟩
    | died => exact ⟨.died, rest₁, rfl, fun h => absurd h hclear, fun _ => stopped_died⟩

end CallScript
