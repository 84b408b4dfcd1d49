/-
**Interleaved transactions under READ COMMITTED.**

Any number of transactions over one database, one statement at a time in any order.  Every statement
sees the rows committed when it runs, with its own transaction's writes over them.  An `UPDATE`
takes the rows of its snapshot one by one: a row another transaction in progress has written makes
it wait, and the version it then finds is checked against its predicate again.  An `INSERT` waits
while another transaction in progress holds a value of a unique index it needs.  A transaction ends
by committing its log at once, by a refused statement, or by a rollback from outside at any point.

Main definitions:

* `ReadCommitted.Txn`, `ReadCommitted.Store` — the transactions begun so far, and the committed
  rows;
* `ReadCommitted.Event`, `ReadCommitted.step` — the moves of the system;
* `ReadCommitted.Advance`, `ReadCommitted.Move` — what a move can do, as relations;
* `ReadCommitted.Coherent` — the invariant that keeps concurrent writers apart.

Main results:

* `ReadCommitted.move_of_step` — what a move can do;
* `ReadCommitted.coherent_of_run` — **what a transaction has written stays valid over the committed
  rows until it ends**, so committing it is as good as running its writes at once;
* `ReadCommitted.guaranteed_of_run` — a transaction that committed has kept its guarantees;
* `ReadCommitted.selected_at` — what a transaction has read was there when it read it.
-/

import Osprey.Transactions
import Osprey.Transition

set_option relaxedAutoImplicit false
set_option autoImplicit false

namespace ReadCommitted

open Transactions

variable {Row Key Index Val Call α : Type}

/-! ### The system -/

/-- A transaction begun for a call.  While an `UPDATE` is under way, the cursor holds the keys of
its snapshot's rows that are still to be visited and the rows it has updated. -/
structure Txn (S : Schema Row Key Index Val) (Call α : Type) where
  call : Call
  body : Tx S α
  cursor : Option (List Key × List Row)
  log : List (Access Row)
  outcome : Option (Except (DbError Index) α)

/-- The committed rows, and every transaction begun so far. -/
structure Store (S : Schema Row Key Index Val) (Call α : Type) where
  committed : List Row
  txns : List (Txn S Call α)

/-- A transaction begins, one takes its next step, or one is rolled back from outside. -/
inductive Event (Call : Type) : Type
  | start (call : Call)
  | exec (t : ℕ)
  | abort (t : ℕ)

variable {S : Schema Row Key Index Val}

/-- The database before any transaction. -/
def Store.init (committed : List Row) : Store S Call α := ⟨committed, []⟩

def Store.put (s : Store S Call α) (t : ℕ) (x : Txn S Call α) : Store S Call α :=
  { s with txns := s.txns.set t x }

/-- The versions written by the other transactions in progress. -/
def Store.others (s : Store S Call α) (t : ℕ) : List Row :=
  (s.txns.zipIdx.filter fun x => x.2 ≠ t ∧ x.1.outcome.isNone).flatMap fun x => written x.1.log

theorem mem_others {s : Store S Call α} {t t' : ℕ} {x : Txn S Call α} {row : Row}
    (hx : s.txns[t']? = some x) (hopen : x.outcome = none) (hne : t' ≠ t)
    (hrow : row ∈ written x.log) : row ∈ s.others t := by
  refine List.mem_flatMap.mpr ⟨(x, t'), List.mem_filter.mpr ⟨?_, by simp [hne, hopen]⟩, hrow⟩
  exact List.mem_zipIdx_iff_getElem?.mpr hx

/-- The transactions after one has been replaced. -/
theorem put_cases {s : Store S Call α} {t t' : ℕ} {x x' : Txn S Call α}
    (h : (s.put t x').txns[t']? = some x) :
    (t' = t ∧ x = x') ∨ (t' ≠ t ∧ s.txns[t']? = some x) := by
  rw [Store.put, List.getElem?_set] at h
  split at h
  · rename_i heq
    split at h
    · exact .inl ⟨heq.symm, (Option.some.inj h).symm⟩
    · cases h
  · rename_i hne
    exact .inr ⟨fun heq => hne heq.symm, h⟩

/-- The elements of a list after one has been added at its end. -/
theorem append_cases {β : Type} {l : List β} {t : ℕ} {x new : β}
    (h : (l ++ [new])[t]? = some x) : x = new ∨ l[t]? = some x := by
  rcases Nat.lt_or_ge t l.length with hlt | hge
  · rw [List.getElem?_append_left hlt] at h
    exact .inr h
  · rw [List.getElem?_append_right hge] at h
    exact .inl (List.mem_singleton.mp (List.mem_of_getElem? h))

section Steps

variable [DecidableEq Row] [DecidableEq Key] [DecidableEq Val]

/-- The rows transaction `x` sees. -/
def Store.sees (s : Store S Call α) (x : Txn S Call α) : List Row := visible s.committed x.log

/-- The next step of the transaction `x`, the `t`-th; `none` while it has to wait. -/
def advance (s : Store S Call α) (t : ℕ) (x : Txn S Call α) : Option (Store S Call α) :=
  match x.body with
  | .done result =>
      some ⟨s.sees x, s.txns.set t { x with outcome := some (.ok result) }⟩
  | .select p next =>
      let rows := (s.sees x).filter p
      some (s.put t
        { x with body := next rows, cursor := none, log := x.log ++ [.selected p rows] })
  | .update p assign next =>
      match x.cursor with
      | none => some (s.put t { x with cursor := some (((s.sees x).filter p).map S.key, []) })
      | some ([], rows) => some (s.put t { x with body := next rows, cursor := none })
      | some (key :: keys, rows) =>
          -- another transaction in progress has written the row: wait for it
          if (s.others t).any fun row => S.key row = key then none
          else
            -- the predicate is checked again, on the version that is there now
            match (s.sees x).find? fun row => S.key row = key && p row with
            | none => some (s.put t { x with cursor := some (keys, rows) })
            | some row =>
                some (s.put t
                  { x with
                    cursor := some (keys, rows ++ [assign.apply row])
                    log := x.log ++ [.updated row (assign.apply row)] })
  | .insert row next =>
      match S.firstShared (s.sees x ++ s.others t) row with
      | none =>
          if S.referencesMet (s.sees x) row then
            some (s.put t { x with body := next, cursor := none, log := x.log ++ [.inserted row] })
          else some (s.put t { x with outcome := some (.error .foreignKeyViolation) })
      | some index =>
          -- a value held by a transaction in progress only: wait for it
          if (s.sees x).any (S.shares index row) then
            some (s.put t { x with outcome := some (.error (.uniqueViolation index)) })
          else none

/-- One move of the system; `none` when it is not enabled. -/
def step (program : Call → Tx S α) (s : Store S Call α) : Event Call → Option (Store S Call α)
  | .start call => some { s with txns := s.txns ++ [⟨call, program call, none, [], none⟩] }
  | .exec t =>
      match s.txns[t]? with
      | none => none
      | some x => if x.outcome.isNone then advance s t x else none
  | .abort t =>
      match s.txns[t]? with
      | none => none
      | some x =>
          if x.outcome.isNone then some (s.put t { x with outcome := some (.error .aborted) })
          else none

end Steps

/-! ### What a move can do -/

section Moves

variable [DecidableEq Row] [DecidableEq Key] [DecidableEq Val]

/-- The steps of a transaction that do not end it. -/
inductive Advance (s : Store S Call α) (t : ℕ) (x : Txn S Call α) : Txn S Call α → Prop
  | select (p : Row → Bool) (next : List Row → Tx S α) (hbody : x.body = .select p next) :
      Advance s t x { x with
        body := next ((s.sees x).filter p)
        cursor := none
        log := x.log ++ [.selected p ((s.sees x).filter p)] }
  | scan (p : Row → Bool) (assign : Assignment S) (next : List Row → Tx S α)
      (hbody : x.body = .update p assign next) (hcursor : x.cursor = none) :
      Advance s t x { x with cursor := some (((s.sees x).filter p).map S.key, []) }
  | skip (p : Row → Bool) (assign : Assignment S) (next : List Row → Tx S α)
      (hbody : x.body = .update p assign next) (key : Key) (keys : List Key) (rows : List Row)
      (hcursor : x.cursor = some (key :: keys, rows))
      (hgone : ∀ row ∈ s.sees x, S.key row = key → p row = false) :
      Advance s t x { x with cursor := some (keys, rows) }
  | visit (p : Row → Bool) (assign : Assignment S) (next : List Row → Tx S α)
      (hbody : x.body = .update p assign next) (row : Row) (keys : List Key) (rows : List Row)
      (hcursor : x.cursor = some (S.key row :: keys, rows)) (hrow : row ∈ s.sees x)
      (hp : p row = true) (hfree : ∀ other ∈ s.others t, S.key other ≠ S.key row) :
      Advance s t x { x with
        cursor := some (keys, rows ++ [assign.apply row])
        log := x.log ++ [.updated row (assign.apply row)] }
  | finish (p : Row → Bool) (assign : Assignment S) (next : List Row → Tx S α)
      (hbody : x.body = .update p assign next) (rows : List Row)
      (hcursor : x.cursor = some ([], rows)) :
      Advance s t x { x with body := next rows, cursor := none }
  | insert (row : Row) (next : Tx S α) (hbody : x.body = .insert row next)
      (hrefuse : S.refuse (s.sees x) row = none)
      (hfree : ∀ other ∈ s.others t, ¬S.Clash row other) :
      Advance s t x { x with body := next, cursor := none, log := x.log ++ [.inserted row] }

/-- The moves of the system. -/
inductive Move (program : Call → Tx S α) (s : Store S Call α) : Event Call → Store S Call α → Prop
  | start (call : Call) :
      Move program s (.start call)
        { s with txns := s.txns ++ [⟨call, program call, none, [], none⟩] }
  | advance (t : ℕ) (x x' : Txn S Call α) (hx : s.txns[t]? = some x) (hopen : x.outcome = none)
      (hadvance : Advance s t x x') : Move program s (.exec t) (s.put t x')
  | commit (t : ℕ) (x : Txn S Call α) (hx : s.txns[t]? = some x) (hopen : x.outcome = none)
      (result : α) (hbody : x.body = .done result) :
      Move program s (.exec t) ⟨s.sees x, s.txns.set t { x with outcome := some (.ok result) }⟩
  | fail (event : Event Call) (t : ℕ) (x : Txn S Call α) (hx : s.txns[t]? = some x)
      (hopen : x.outcome = none) (error : DbError Index) :
      Move program s event (s.put t { x with outcome := some (.error error) })

theorem advance_cases {program : Call → Tx S α} {s s' : Store S Call α} {t : ℕ}
    {x : Txn S Call α} (hx : s.txns[t]? = some x) (hopen : x.outcome = none)
    (h : advance s t x = some s') : Move program s (.exec t) s' := by
  unfold advance at h
  split at h
  case h_1 result hbody =>
    cases h
    exact .commit t x hx hopen result hbody
  case h_2 p next hbody =>
    cases h
    exact .advance t x _ hx hopen (.select p next hbody)
  case h_3 p assign next hbody =>
    split at h
    · rename_i hcursor
      cases h
      exact .advance t x _ hx hopen (.scan p assign next hbody hcursor)
    · rename_i rows hcursor
      cases h
      exact .advance t x _ hx hopen (.finish p assign next hbody rows hcursor)
    · rename_i key keys rows hcursor
      split at h
      · cases h
      · rename_i hfree
        split at h
        · rename_i hnone
          cases h
          refine .advance t x _ hx hopen (.skip p assign next hbody key keys rows hcursor ?_)
          intro row hrow hkey
          simpa [hkey] using List.find?_eq_none.mp hnone row hrow
        · rename_i row hsome
          cases h
          have hfound := List.find?_some hsome
          simp only [Bool.and_eq_true, decide_eq_true_eq] at hfound
          obtain ⟨rfl, hp⟩ := hfound
          refine .advance t x _ hx hopen (.visit p assign next hbody row keys rows hcursor
            (List.mem_of_find?_eq_some hsome) hp ?_)
          simpa using hfree
  case h_4 row next hbody =>
    split at h
    · rename_i hshared
      split at h
      · rename_i hmet
        cases h
        have hfree := Schema.firstShared_eq_none.mp hshared
        refine .advance t x _ hx hopen (.insert row next hbody ?_ ?_)
        · exact Schema.refuse_eq_none.mpr
            ⟨fun other hother => hfree other (List.mem_append_left _ hother),
              Schema.referencesMet_eq_true.mp hmet⟩
        · exact fun other hother => hfree other (List.mem_append_right _ hother)
      · cases h
        exact .fail _ t x hx hopen _
    · split at h
      · cases h
        exact .fail _ t x hx hopen _
      · cases h

/-- **What a move can do.** -/
theorem move_of_step {program : Call → Tx S α} {s s' : Store S Call α} {event : Event Call}
    (h : step program s event = some s') : Move program s event s' := by
  cases event with
  | start call =>
      cases h
      exact .start call
  | exec t =>
      simp only [step] at h
      split at h
      · cases h
      · rename_i x hx
        split at h
        · rename_i hopen
          exact advance_cases hx (by simpa using hopen) h
        · cases h
  | abort t =>
      simp only [step] at h
      split at h
      · cases h
      · rename_i x hx
        split at h
        · rename_i hopen
          cases h
          exact .fail _ t x hx (by simpa using hopen) .aborted
        · cases h

/-- A step that does not end a transaction keeps its call and adds to its log. -/
theorem Advance.keeps {s : Store S Call α} {t : ℕ} {x x' : Txn S Call α} (h : Advance s t x x') :
    x'.call = x.call ∧ x'.outcome = x.outcome := by
  cases h with
  | select | scan | skip | visit | finish | insert => exact ⟨rfl, rfl⟩

/-- The transactions of a store stay, each with its call, and one that has ended stays as it is. -/
theorem txn_of_move {program : Call → Tx S α} {s s' : Store S Call α} {event : Event Call}
    (h : Move program s event s') {t : ℕ} {x : Txn S Call α} (hx : s.txns[t]? = some x) :
    ∃ x', s'.txns[t]? = some x' ∧ x'.call = x.call ∧ (x.outcome ≠ none → x' = x) := by
  -- a transaction that goes on replaces one in progress
  have hreplaced {t' : ℕ} {y y' : Txn S Call α} (hy : s.txns[t']? = some y)
      (hopen : y.outcome = none)
      (hcall : y'.call = y.call) : ∃ x', (s.txns.set t' y')[t]? = some x' ∧ x'.call = x.call ∧
        (x.outcome ≠ none → x' = x) := by
    by_cases heq : t' = t
    · subst heq
      cases hx.symm.trans hy
      refine ⟨y', ?_, hcall, fun hended => absurd hopen hended⟩
      rw [List.getElem?_set_self (List.getElem?_eq_some_iff.mp hx).1]
    · exact ⟨x, by rw [List.getElem?_set_ne heq, hx], rfl, fun _ => rfl⟩
  cases h with
  | start call =>
      refine ⟨x, ?_, rfl, fun _ => rfl⟩
      rw [List.getElem?_append_left (List.getElem?_eq_some_iff.mp hx).1, hx]
  | advance t' y y' hy hopen hadvance => exact hreplaced hy hopen hadvance.keeps.1
  | commit t' y hy hopen result hbody => exact hreplaced hy hopen rfl
  | fail _ t' y hy hopen error => exact hreplaced hy hopen rfl

/-! ### Concurrent writers are kept apart -/

/-- The committed rows meet the constraints, every transaction in progress has made sound accesses
over them, and no two of them have written versions that clash. -/
structure Coherent (s : Store S Call α) : Prop where
  consistent : S.Consistent s.committed
  sound : ∀ (t : ℕ) (x : Txn S Call α), s.txns[t]? = some x → x.outcome = none →
    Sound S s.committed x.log
  apart : ∀ (t t' : ℕ) (x x' : Txn S Call α), t ≠ t' → s.txns[t]? = some x → x.outcome = none →
    s.txns[t']? = some x' → x'.outcome = none →
    ∀ row ∈ written x.log, ∀ row' ∈ written x'.log, ¬S.Clash row row'

omit [DecidableEq Row] in
theorem coherent_init {committed : List Row} (h : S.Consistent committed) :
    Coherent (Store.init committed : Store S Call α) :=
  ⟨h, fun _ _ hx => by simp [Store.init] at hx, fun _ _ _ _ _ hx => by simp [Store.init] at hx⟩

/-- A step that does not end a transaction leaves its log sound. -/
theorem Advance.sound {s : Store S Call α} {t : ℕ} {x x' : Txn S Call α} (h : Advance s t x x')
    (hx : Sound S s.committed x.log) : Sound S s.committed x'.log := by
  cases h with
  | select p next hbody => exact hx.selected p _
  | scan | skip | finish => exact hx
  | visit p assign next hbody row keys rows hcursor hrow hp hfree => exact hx.updated assign hrow
  | insert row next hbody hrefuse hfree => exact hx.inserted hrefuse

/-- What a step of one transaction writes clashes with nothing the others have written. -/
theorem Advance.apart {s : Store S Call α} (hs : Coherent s) {t t' : ℕ} {x x' y : Txn S Call α}
    (hx : s.txns[t]? = some x) (hopen : x.outcome = none) (h : Advance s t x x')
    (hy : s.txns[t']? = some y) (hyopen : y.outcome = none) (hne : t' ≠ t) :
    ∀ row ∈ written x'.log, ∀ row' ∈ written y.log, ¬S.Clash row row' := by
  have hold := hs.apart t t' x y hne.symm hx hopen hy hyopen
  cases h with
  | select p next hbody =>
      intro row hrow
      rw [written_append] at hrow
      exact hold row (by simpa [written, Access.new?] using hrow)
  | scan | skip | finish => exact hold
  | visit p assign next hbody row keys rows hcursor hrow hp hfree =>
      intro new hnew row' hrow' hclash
      rw [written_append] at hnew
      rcases List.mem_append.mp hnew with hnew | hnew
      · exact hold new hnew row' hrow' hclash
      · cases List.mem_singleton.mp hnew
        have hclash : S.Clash row row' :=
          (Schema.clash_congr (assign.columns_apply row) rfl).mp hclash
        rcases mem_visible hrow with hcommitted | hown
        · -- the other has written a version of this very row: the visit would have waited
          refine hfree row' (mem_others hy hyopen hne hrow') ?_
          exact (hs.sound t' y hy hyopen).key_eq_of_clash hs.consistent hcommitted hrow' hclash
        · exact hold row hown row' hrow' hclash
  | insert new next hbody hrefuse hfree =>
      intro row hrow row' hrow' hclash
      rw [written_append] at hrow
      rcases List.mem_append.mp hrow with hrow | hrow
      · exact hold row hrow row' hrow' hclash
      · cases List.mem_singleton.mp hrow
        exact hfree row' (mem_others hy hyopen hne hrow') hclash

omit [DecidableEq Row] in
/-- Coherence where one transaction has been replaced, over the rows now committed. -/
theorem Coherent.put {s : Store S Call α} (hs : Coherent s) {t : ℕ} {x' : Txn S Call α}
    (hsound : x'.outcome = none → Sound S s.committed x'.log)
    (hapart : ∀ (t' : ℕ) (y : Txn S Call α), t' ≠ t → s.txns[t']? = some y → y.outcome = none →
      x'.outcome = none → ∀ row ∈ written x'.log, ∀ row' ∈ written y.log, ¬S.Clash row row') :
    Coherent (s.put t x') := by
  refine ⟨hs.consistent, ?_, ?_⟩
  · intro t' y hy hopen
    rcases put_cases hy with ⟨rfl, rfl⟩ | ⟨hne, hy⟩
    · exact hsound hopen
    · exact hs.sound t' y hy hopen
  · intro t₁ t₂ y₁ y₂ hne hy₁ hopen₁ hy₂ hopen₂
    rcases put_cases hy₁ with ⟨ht₁, hsame₁⟩ | ⟨hne₁, hold₁⟩
    · rcases put_cases hy₂ with ⟨ht₂, -⟩ | ⟨hne₂, hold₂⟩
      · exact absurd (ht₁.trans ht₂.symm) hne
      · exact hsame₁ ▸ hapart t₂ y₂ hne₂ hold₂ hopen₂ (hsame₁ ▸ hopen₁)
    · rcases put_cases hy₂ with ⟨-, hsame₂⟩ | ⟨hne₂, hold₂⟩
      · intro row hrow row' hrow' hclash
        exact hapart t₁ y₁ hne₁ hold₁ hopen₁ (hsame₂ ▸ hopen₂) row' (hsame₂ ▸ hrow') row hrow
          hclash.symm
      · exact hs.apart t₁ t₂ y₁ y₂ hne hold₁ hopen₁ hold₂ hopen₂

theorem coherent_of_move {program : Call → Tx S α} {s s' : Store S Call α} {event : Event Call}
    (hs : Coherent s) (h : Move program s event s') : Coherent s' := by
  cases h with
  | start call =>
      refine ⟨hs.consistent, ?_, ?_⟩
      · intro t x hx hopen
        rcases append_cases hx with rfl | hx
        · exact sound_nil _
        · exact hs.sound t x hx hopen
      · intro t t' x x' hne hx hopen hx' hopen'
        rcases append_cases hx with rfl | hx
        · intro row hrow
          cases hrow
        · rcases append_cases hx' with rfl | hx'
          · intro row _ row' hrow'
            cases hrow'
          · exact hs.apart t t' x x' hne hx hopen hx' hopen'
  | advance t x x' hx hopen hadvance =>
      refine hs.put (fun _ => hadvance.sound (hs.sound t x hx hopen)) ?_
      intro t' y hne hy hyopen _
      exact hadvance.apart hs hx hopen hy hyopen hne
  | commit t x hx hopen result hbody =>
      have hsound := hs.sound t x hx hopen
      refine ⟨hsound.consistent_visible hs.consistent, ?_, ?_⟩
      · intro t' y hy hyopen
        rcases put_cases hy with ⟨rfl, rfl⟩ | ⟨hne, hy⟩
        · cases hyopen
        · exact (hs.sound t' y hy hyopen).commit hsound
            (hs.apart t' t y x hne hy hyopen hx hopen)
      · intro t₁ t₂ y₁ y₂ hne hy₁ hopen₁ hy₂ hopen₂
        rcases put_cases hy₁ with ⟨rfl, rfl⟩ | ⟨_, hy₁⟩
        · cases hopen₁
        · rcases put_cases hy₂ with ⟨rfl, rfl⟩ | ⟨_, hy₂⟩
          · cases hopen₂
          · exact hs.apart t₁ t₂ y₁ y₂ hne hy₁ hopen₁ hy₂ hopen₂
  | fail _ t x hx hopen error =>
      exact hs.put (fun h => by cases h) (fun _ _ _ _ _ h => by cases h)

/-- **Concurrent writers are kept apart**: in every state a run reaches, what a transaction in
progress has written is still valid over the rows committed by then. -/
theorem coherent_of_run {program : Call → Tx S α} {s s' : Store S Call α}
    {events : List (Event Call)} (hs : Coherent s)
    (h : Transition.run (step program) s events = some s') : Coherent s' :=
  Transition.run_keeps (fun _ _ _ hs hstep => coherent_of_move hs (move_of_step hstep)) hs h

/-! ### Guarantees survive interleaving -/

/-- What is left of the transaction, after what it has done, ensures `P`.  While an `UPDATE` is
under way, whatever further rows it comes to update. -/
def Txn.Ensures (P : List (Access Row) → α → Prop) (x : Txn S Call α) : Prop :=
  match x.body, x.cursor with
  | .update p assign next, some (_, rows) =>
      ∀ more : List Row, (∀ row ∈ more, p row = true) →
        (next (rows ++ more.map assign.apply)).Ensures P
          (x.log ++ more.map fun row => .updated row (assign.apply row))
  | body, _ => body.Ensures P x.log

omit [DecidableEq Row] [DecidableEq Key] [DecidableEq Val] in
/-- Between statements, what is left is the body. -/
theorem Txn.ensures_of_cursor {P : List (Access Row) → α → Prop} {x : Txn S Call α}
    (h : x.cursor = none) : x.Ensures P ↔ x.body.Ensures P x.log := by
  unfold Txn.Ensures
  cases x.body <;> simp [h]

/-- A step that does not end the transaction keeps what the rest ensures. -/
theorem Advance.ensures {P : List (Access Row) → α → Prop} {s : Store S Call α} {t : ℕ}
    {x x' : Txn S Call α} (h : Advance s t x x') (hx : x.Ensures P) : x'.Ensures P := by
  cases h with
  | select p next hbody =>
      rw [Txn.ensures_of_cursor rfl]
      simp only [Txn.Ensures, hbody] at hx
      exact hx _ fun row hrow => (List.mem_filter.mp hrow).2
  | scan p assign next hbody hcursor =>
      rw [Txn.ensures_of_cursor hcursor, hbody] at hx
      simp only [Txn.Ensures, hbody, List.nil_append]
      exact hx
  | skip p assign next hbody key keys rows hcursor hgone =>
      simp only [Txn.Ensures, hbody, hcursor] at hx ⊢
      exact hx
  | visit p assign next hbody row keys rows hcursor hrow hp hfree =>
      simp only [Txn.Ensures, hbody, hcursor] at hx ⊢
      intro more hmore
      -- the rows still to come, with the one just updated in front of them
      have hcons : ∀ row' ∈ row :: more, p row' = true := by
        intro row' hrow'
        rcases List.mem_cons.mp hrow' with rfl | hrow'
        · exact hp
        · exact hmore row' hrow'
      simpa using hx (row :: more) hcons
  | finish p assign next hbody rows hcursor =>
      rw [Txn.ensures_of_cursor rfl]
      simp only [Txn.Ensures, hbody, hcursor] at hx
      simpa using hx [] (by simp)
  | insert row next hbody hrefuse hfree =>
      rw [Txn.ensures_of_cursor rfl]
      simp only [Txn.Ensures, hbody] at hx
      exact hx

/-- Every transaction keeps the guarantee of its call: what is left of one in progress ensures it,
and one that has committed has kept it. -/
structure Guaranteed (P : Call → List (Access Row) → α → Prop) (s : Store S Call α) : Prop where
  rest : ∀ (t : ℕ) (x : Txn S Call α), s.txns[t]? = some x → x.outcome = none →
    x.Ensures (P x.call)
  kept : ∀ (t : ℕ) (x : Txn S Call α) (result : α), s.txns[t]? = some x →
    x.outcome = some (.ok result) → P x.call x.log result

omit [DecidableEq Row] [DecidableEq Key] [DecidableEq Val] in
theorem guaranteed_init (P : Call → List (Access Row) → α → Prop) (committed : List Row) :
    Guaranteed P (Store.init committed : Store S Call α) :=
  ⟨fun _ _ hx => by simp [Store.init] at hx, fun _ _ _ hx => by simp [Store.init] at hx⟩

omit [DecidableEq Row] [DecidableEq Key] [DecidableEq Val] in
/-- Guarantees where one transaction has been replaced, whatever rows are now committed. -/
theorem Guaranteed.replace {P : Call → List (Access Row) → α → Prop} {s : Store S Call α}
    (hs : Guaranteed P s) {t : ℕ} {x' : Txn S Call α}
    (hrest : x'.outcome = none → x'.Ensures (P x'.call))
    (hkept : ∀ result, x'.outcome = some (.ok result) → P x'.call x'.log result)
    (committed : List Row) : Guaranteed P (⟨committed, s.txns.set t x'⟩ : Store S Call α) := by
  constructor
  · intro t' y hy hopen
    rcases put_cases hy with ⟨-, rfl⟩ | ⟨-, hy⟩
    · exact hrest hopen
    · exact hs.rest t' y hy hopen
  · intro t' y result hy hdone
    rcases put_cases hy with ⟨-, rfl⟩ | ⟨-, hy⟩
    · exact hkept result hdone
    · exact hs.kept t' y result hy hdone

theorem guaranteed_of_move {P : Call → List (Access Row) → α → Prop} {program : Call → Tx S α}
    (hprogram : ∀ call, (program call).Ensures (P call) []) {s s' : Store S Call α}
    {event : Event Call} (hs : Guaranteed P s) (h : Move program s event s') :
    Guaranteed P s' := by
  cases h with
  | start call =>
      constructor
      · intro t x hx hopen
        rcases append_cases hx with rfl | hx
        · exact (Txn.ensures_of_cursor rfl).mpr (hprogram call)
        · exact hs.rest t x hx hopen
      · intro t x result hx hdone
        rcases append_cases hx with rfl | hx
        · cases hdone
        · exact hs.kept t x result hx hdone
  | advance t x x' hx hopen hadvance =>
      obtain ⟨hcall, houtcome⟩ := hadvance.keeps
      refine hs.replace (fun _ => ?_) (fun result hdone => ?_) _
      · rw [hcall]
        exact hadvance.ensures (hs.rest t x hx hopen)
      · rw [houtcome, hopen] at hdone
        cases hdone
  | commit t x hx hopen result hbody =>
      have hrest := hs.rest t x hx hopen
      simp only [Txn.Ensures, hbody] at hrest
      refine hs.replace (fun hdone => ?_) (fun result' hdone => ?_) _
      · cases hdone
      · cases hdone
        exact hrest
  | fail _ t x hx hopen error =>
      refine hs.replace (fun hdone => ?_) (fun result' hdone => ?_) _
      · cases hdone
      · cases hdone

/-- **Guarantees survive interleaving**: what every call's transaction ensures, every transaction of
every run that commits has kept. -/
theorem guaranteed_of_run {P : Call → List (Access Row) → α → Prop} {program : Call → Tx S α}
    (hprogram : ∀ call, (program call).Ensures (P call) []) {s s' : Store S Call α}
    {events : List (Event Call)} (hs : Guaranteed P s)
    (h : Transition.run (step program) s events = some s') : Guaranteed P s' :=
  Transition.run_keeps
    (fun _ _ _ hs hstep => guaranteed_of_move hprogram hs (move_of_step hstep)) hs h

/-! ### Invariants of what is committed -/

/-- Transaction `t` has committed with the result. -/
def Store.Committed (s : Store S Call α) (t : ℕ) (x : Txn S Call α) (result : α) : Prop :=
  s.txns[t]? = some x ∧ x.outcome = some (.ok result)

/-- The database after transaction `t` has committed. -/
def Store.commit (s : Store S Call α) (t : ℕ) (x : Txn S Call α) (result : α) : Store S Call α :=
  ⟨s.sees x, s.txns.set t { x with outcome := some (.ok result) }⟩

omit [DecidableEq Key] [DecidableEq Val] in
/-- The transactions that have committed after a commit. -/
theorem committed_commit {s : Store S Call α} {t t' : ℕ} {x y : Txn S Call α} {result result' : α}
    (h : (s.commit t x result).Committed t' y result') :
    (t' = t ∧ y = { x with outcome := some (.ok result) } ∧ result' = result) ∨
      (t' ≠ t ∧ s.Committed t' y result') := by
  rcases put_cases h.1 with ⟨rfl, rfl⟩ | ⟨hne, hy⟩
  · have hresult := h.2
    cases hresult
    exact .inl ⟨rfl, rfl, rfl⟩
  · exact .inr ⟨hne, hy, h.2⟩

omit [DecidableEq Key] [DecidableEq Val] in
/-- The transaction that commits has committed. -/
theorem commit_self {s : Store S Call α} {t : ℕ} {x : Txn S Call α} (hx : s.txns[t]? = some x)
    (result : α) :
    (s.commit t x result).Committed t { x with outcome := some (.ok result) } result := by
  refine ⟨?_, rfl⟩
  rw [Store.commit, List.getElem?_set_self (List.getElem?_eq_some_iff.mp hx).1]

omit [DecidableEq Key] [DecidableEq Val] in
/-- The transactions that have committed stay so. -/
theorem Store.Committed.commit {s : Store S Call α} {t t' : ℕ} {x y : Txn S Call α}
    {result result' : α} (hy : s.Committed t' y result') (hx : s.txns[t]? = some x)
    (hopen : x.outcome = none) : (s.commit t x result).Committed t' y result' := by
  have hne : t ≠ t' := by
    rintro rfl
    have hsame := hx.symm.trans hy.1
    cases hsame
    have hdone := hopen.symm.trans hy.2
    cases hdone
  refine ⟨?_, hy.2⟩
  rw [Store.commit, List.getElem?_set_ne hne, hy.1]

omit [DecidableEq Row] [DecidableEq Key] [DecidableEq Val] in
/-- Replacing a transaction in progress by one that has not committed commits nothing. -/
theorem committed_put {s : Store S Call α} {t : ℕ} {x x' : Txn S Call α}
    (hx : s.txns[t]? = some x) (hopen : x.outcome = none)
    (hx' : ∀ result, x'.outcome ≠ some (.ok result)) (t' : ℕ) (y : Txn S Call α) (result : α) :
    (s.put t x').Committed t' y result ↔ s.Committed t' y result := by
  constructor
  · rintro ⟨hy, hdone⟩
    rcases put_cases hy with ⟨rfl, rfl⟩ | ⟨-, hy⟩
    · exact absurd hdone (hx' result)
    · exact ⟨hy, hdone⟩
  · rintro ⟨hy, hdone⟩
    have hne : t ≠ t' := by
      rintro rfl
      rw [hx] at hy
      cases hy
      rw [hopen] at hdone
      cases hdone
    exact ⟨by rw [Store.put, List.getElem?_set_ne hne, hy], hdone⟩

/-- A move either commits a transaction or changes neither the committed rows nor which
transactions have committed. -/
theorem Move.commit_or_quiet {program : Call → Tx S α} {s s' : Store S Call α}
    {event : Event Call} (h : Move program s event s') :
    (∃ t x result, event = .exec t ∧ s.txns[t]? = some x ∧ x.outcome = none ∧
      x.body = .done result ∧ s' = s.commit t x result) ∨
    (s'.committed = s.committed ∧
      ∀ t x result, s'.Committed t x result ↔ s.Committed t x result) := by
  cases h with
  | start call =>
      refine .inr ⟨rfl, fun t x result => ⟨?_, ?_⟩⟩
      · rintro ⟨hx, hdone⟩
        rcases append_cases hx with rfl | hx
        · cases hdone
        · exact ⟨hx, hdone⟩
      · rintro ⟨hx, hdone⟩
        refine ⟨?_, hdone⟩
        rw [List.getElem?_append_left (List.getElem?_eq_some_iff.mp hx).1, hx]
  | advance t x x' hx hopen hadvance =>
      refine .inr ⟨rfl, committed_put hx hopen fun result hdone => ?_⟩
      rw [hadvance.keeps.2, hopen] at hdone
      cases hdone
  | commit t x hx hopen result hbody => exact .inl ⟨t, x, result, rfl, hx, hopen, hbody, rfl⟩
  | fail _ t x hx hopen error =>
      refine .inr ⟨rfl, committed_put hx hopen fun result hdone => ?_⟩
      cases hdone

/-- A step at the end of a transaction's body commits it. -/
theorem step_commit {program : Call → Tx S α} {s : Store S Call α} {t : ℕ} {x : Txn S Call α}
    (hx : s.txns[t]? = some x) (hopen : x.outcome = none) {result : α}
    (hbody : x.body = .done result) :
    step program s (.exec t) = some (s.commit t x result) := by
  have hadvance : advance s t x = some (s.commit t x result) := by
    unfold advance
    split
    · rename_i result' hbody'
      cases hbody.symm.trans hbody'
      rfl
    · rename_i hbody'
      cases hbody.symm.trans hbody'
    · rename_i hbody'
      cases hbody.symm.trans hbody'
    · rename_i hbody'
      cases hbody.symm.trans hbody'
  simp only [step, hx]
  rw [if_pos (by simp [hopen]), hadvance]

/-- **An invariant of the committed rows and of the transactions that committed is checked at
commits**, where the log is sound over the committed rows and the call's guarantee holds. -/
theorem run_commits {P : Call → List (Access Row) → α → Prop} {program : Call → Tx S α}
    (hprogram : ∀ call, (program call).Ensures (P call) []) {J : Store S Call α → Prop}
    (hquiet : ∀ s s', J s → s'.committed = s.committed →
      (∀ t x result, s'.Committed t x result ↔ s.Committed t x result) → J s')
    (hcommit : ∀ s t x result, Coherent s → J s → s.txns[t]? = some x → x.outcome = none →
      P x.call x.log result → J (s.commit t x result))
    {s s' : Store S Call α} {events : List (Event Call)} (hs : Coherent s) (hP : Guaranteed P s)
    (hJ : J s) (h : Transition.run (step program) s events = some s') : J s' := by
  have hall : Coherent s' ∧ Guaranteed P s' ∧ J s' := by
    refine Transition.run_keeps (I := fun s => Coherent s ∧ Guaranteed P s ∧ J s) ?_
      ⟨hs, hP, hJ⟩ h
    rintro u event v ⟨hu, hP, hJ⟩ hstep
    have hmove := move_of_step hstep
    refine ⟨coherent_of_move hu hmove, guaranteed_of_move hprogram hP hmove, ?_⟩
    rcases hmove.commit_or_quiet with ⟨t, x, result, -, hx, hopen, hbody, rfl⟩ | ⟨hsame, hdone⟩
    · have hrest := hP.rest t x hx hopen
      simp only [Txn.Ensures, hbody] at hrest
      exact hcommit u t x result hu hJ hx hopen hrest
    · exact hquiet u v hJ hsame hdone
  exact hall.2.2

/-- Where the step commits a transaction, the condition holds of the rows committed before it, the
transaction and its result. -/
def AtCommits (C : List Row → Txn S Call α → α → Prop) (s : Store S Call α)
    (event : Event Call) : Prop :=
  ∀ (t : ℕ) (x : Txn S Call α) (result : α), event = .exec t → s.txns[t]? = some x →
    x.outcome = none → x.body = .done result → C s.committed x result

/-! ### Reads are of their moment -/

/-- A step adds at most one access to the log, and a read only when it is a read. -/
theorem Advance.log_cases {s : Store S Call α} {t : ℕ} {x x' : Txn S Call α}
    (h : Advance s t x x') : x'.log = x.log ∨ ∃ access, x'.log = x.log ++ [access] ∧
      ∀ p rows, access = .selected p rows →
        (∃ next, x.body = .select p next) ∧ rows = (s.sees x).filter p := by
  cases h with
  | select p next hbody =>
      refine .inr ⟨_, rfl, ?_⟩
      intro p' rows heq
      cases heq
      exact ⟨⟨next, hbody⟩, rfl⟩
  | scan | skip | finish => exact .inl rfl
  | visit | insert =>
      refine .inr ⟨_, rfl, ?_⟩
      intro p' rows heq
      cases heq

/-- A move of the system leaves a transaction's log alone or adds one access to it. -/
theorem log_of_move {program : Call → Tx S α} {s s' : Store S Call α} {event : Event Call}
    (h : Move program s event s') {t : ℕ} {x' : Txn S Call α} (hx' : s'.txns[t]? = some x') :
    x'.log = [] ∨ ∃ x, s.txns[t]? = some x ∧
      (x'.log = x.log ∨ event = .exec t ∧ Advance s t x x') := by
  cases h with
  | start call =>
      rcases append_cases hx' with rfl | hx
      · exact .inl rfl
      · exact .inr ⟨x', hx, .inl rfl⟩
  | advance t' x y hx hopen hadvance =>
      rcases put_cases hx' with ⟨rfl, rfl⟩ | ⟨-, hx'⟩
      · exact .inr ⟨x, hx, .inr ⟨rfl, hadvance⟩⟩
      · exact .inr ⟨x', hx', .inl rfl⟩
  | commit t' x hx hopen result hbody =>
      rcases put_cases hx' with ⟨rfl, rfl⟩ | ⟨-, hx'⟩
      · exact .inr ⟨x, hx, .inl rfl⟩
      · exact .inr ⟨x', hx', .inl rfl⟩
  | fail _ t' x hx hopen error =>
      rcases put_cases hx' with ⟨rfl, rfl⟩ | ⟨-, hx'⟩
      · exact .inr ⟨x, hx, .inl rfl⟩
      · exact .inr ⟨x', hx', .inl rfl⟩

/-- The run over `events` has a step of transaction `t`, with exactly the accesses `before` behind
it, that selects with `p`, and `rows` are the rows it then saw. -/
def ReadAt (program : Call → Tx S α) (committed : List Row) (events : List (Event Call)) (t : ℕ)
    (before : List (Access Row)) (p : Row → Bool) (rows : List Row) : Prop :=
  ∃ (done rest : List (Event Call)) (u : Store S Call α) (y : Txn S Call α)
    (next : List Row → Tx S α), events = done ++ .exec t :: rest ∧
    Transition.run (step program) (.init committed) done = some u ∧
    u.txns[t]? = some y ∧ y.body = .select p next ∧ y.log = before ∧
    rows = (visible u.committed before).filter p

theorem ReadAt.append {program : Call → Tx S α} {committed : List Row}
    {events : List (Event Call)} {t : ℕ} {before : List (Access Row)} {p : Row → Bool}
    {rows : List Row} (h : ReadAt program committed events t before p rows) (event : Event Call) :
    ReadAt program committed (events ++ [event]) t before p rows := by
  obtain ⟨done, rest, u, y, next, hevents, hread⟩ := h
  exact ⟨done, rest ++ [event], u, y, next, by simp [hevents], hread⟩

/-- **What a transaction has read was there when it read it.** -/
theorem selected_at {program : Call → Tx S α} {committed : List Row} {s : Store S Call α}
    {events : List (Event Call)}
    (h : Transition.run (step program) (.init committed) events = some s) {t : ℕ}
    {x : Txn S Call α} (hx : s.txns[t]? = some x) {before after : List (Access Row)}
    {p : Row → Bool} {rows : List Row} (hlog : x.log = before ++ .selected p rows :: after) :
    ReadAt program committed events t before p rows := by
  induction events using List.reverseRecOn generalizing s x after with
  | nil =>
      cases h
      simp [Store.init] at hx
  | append_singleton events event ih =>
      obtain ⟨u, hu, hlast⟩ := Transition.run_append.mp h
      obtain ⟨s', hstep, hs'⟩ := Transition.run_cons_eq_some.mp hlast
      cases hs'
      -- a read of an earlier step is there already; else this step made it
      have hearlier {y : Txn S Call α} {after : List (Access Row)} (hy : u.txns[t]? = some y)
          (hylog : y.log = before ++ .selected p rows :: after) :
          ReadAt program committed (events ++ [event]) t before p rows :=
        (ih hu hy hylog).append event
      rcases log_of_move (move_of_step hstep) hx with hnil | ⟨y, hy, hsame | ⟨rfl, hadvance⟩⟩
      · simp [hnil] at hlog
      · exact hearlier hy (hsame ▸ hlog)
      · rcases hadvance.log_cases with hsame | ⟨access, hnew, hread⟩
        · exact hearlier hy (hsame ▸ hlog)
        · rw [hnew] at hlog
          rcases List.eq_nil_or_concat after with rfl | ⟨after', last, rfl⟩
          · obtain ⟨hbefore, hlast⟩ := List.append_inj' hlog rfl
            obtain ⟨⟨next, hbody⟩, hrows⟩ := hread p rows (List.singleton_inj.mp hlast)
            exact ⟨events, [], u, y, next, rfl, hu, hy, hbody, hbefore, hbefore ▸ hrows⟩
          · have hlog : y.log ++ [access] = (before ++ .selected p rows :: after') ++ [last] := by
              simpa using hlog
            exact hearlier hy (List.append_inj' hlog rfl).1

end Moves

end ReadCommitted
