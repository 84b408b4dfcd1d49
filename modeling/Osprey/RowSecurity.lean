/-
**Row-level security.**

A database can attach a policy to a session: the rows its statements see are filtered, and the rows
they write are checked.  The policy does not look at the program, so what it guarantees holds of
every program, also of one that asks for everything.  What it does not cover are the constraints: a
unique index and a foreign key look at all rows, and an insertion that they refuse tells the program
so.

A program that keeps to the rows of its owner on its own account notices nothing of the policy.

Main definitions:

* `Transactions.Policy`, `Transactions.Denial` — the filter and the check of a session, and why a
  statement fails under them;
* `Transactions.Tx.execUnder` — a transaction run alone under a policy;
* `Transactions.Seen` — what the statements of a log have returned;
* `Transactions.Tx.Confined` — a program that asks for its owner's rows only;
* `Transactions.Tx.restrict` — a program with the filter put into its statements.

Main results:

* `Transactions.confined_execUnder` — **under an owner's policy no program sees or writes a row that
  is not the owner's**;
* `Transactions.execUnder_agree` — **what it can tell of the other rows is whether a constraint
  refuses an insertion, and nothing else**;
* `Transactions.filter_execUnder` — nobody else's rows change;
* `Transactions.execUnder_of_confined`, `Transactions.restrict_of_confined` — **a confined program
  runs the same with the policy and without it**.
-/

import Osprey.Transactions

set_option relaxedAutoImplicit false
set_option autoImplicit false

namespace Transactions

variable {Row Key Index Val α β : Type}

/-! ### Policies -/

/-- `USING` and `WITH CHECK`. -/
structure Policy (Row : Type) where
  filter : Row → Bool
  check : Row → Bool

/-- The policy that keeps a session to the rows of an owner. -/
def Policy.ofOwner (own : Row → Bool) : Policy Row := ⟨own, own⟩

/-- Why a statement fails under a policy. -/
inductive Denial (Index : Type) : Type
  | db (error : DbError Index)
  | policy
  deriving DecidableEq, Repr

variable [DecidableEq Row] [DecidableEq Key] [DecidableEq Val] {S : Schema Row Key Index Val}

/-- A transaction run alone under a policy.  `SELECT` and `UPDATE` find what the filter admits; what
is written has to pass the check, which comes before the constraints. -/
def Tx.execUnder (policy : Policy Row) (committed : List Row) :
    Tx S α → List (Access Row) → Except (Denial Index) (α × List (Access Row))
  | .done result, log => .ok (result, log)
  | .select p next, log =>
      let rows := (visible committed log).filter fun row => policy.filter row && p row
      (next rows).execUnder policy committed (log ++ [.selected p rows])
  | .update p assign next, log =>
      let rows := (visible committed log).filter fun row => policy.filter row && p row
      if rows.all fun row => policy.check (assign.apply row) then
        (next (rows.map assign.apply)).execUnder policy committed
          (log ++ rows.map fun row => .updated row (assign.apply row))
      else .error .policy
  | .insert row next, log =>
      if policy.check row then
        match S.refuse (visible committed log) row with
        | some error => .error (.db error)
        | none => next.execUnder policy committed (log ++ [.inserted row])
      else .error .policy

/-- Every row the statements of a log have returned is the owner's. -/
def Seen (own : Row → Bool) (log : List (Access Row)) : Prop :=
  ∀ p rows, .selected p rows ∈ log → ∀ row ∈ rows, own row = true

omit [DecidableEq Row] in
theorem seen_nil (own : Row → Bool) : Seen own ([] : List (Access Row)) :=
  fun _ _ h => by cases h

omit [DecidableEq Row] in
theorem Seen.append {own : Row → Bool} {log more : List (Access Row)} (h : Seen own log)
    (hmore : Seen own more) : Seen own (log ++ more) := by
  intro p rows hmem
  rcases List.mem_append.mp hmem with hmem | hmem
  · exact h p rows hmem
  · exact hmore p rows hmem

omit [DecidableEq Row] in
theorem seen_updated (own : Row → Bool) (rows : List Row) (f : Row → Row) :
    Seen own (rows.map fun row => .updated row (f row)) := by
  intro p found hmem
  obtain ⟨row, -, heq⟩ := List.mem_map.mp hmem
  cases heq

omit [DecidableEq Row] in
/-- The rows a filtered predicate finds are the owner's. -/
theorem owned_of_mem_filter {own p : Row → Bool} {rows : List Row} {row : Row}
    (h : row ∈ rows.filter fun row => own row && p row) : own row = true := by
  have hboth := (List.mem_filter.mp h).2
  rw [Bool.and_eq_true] at hboth
  exact hboth.1

/-! ### What a policy guarantees of every program -/

/-- **Under an owner's policy no program sees or writes a row that is not the owner's.** -/
theorem confined_execUnder {own : Row → Bool} {committed : List Row} {body : Tx S α}
    {log log' : List (Access Row)} {result : α} (hseen : Seen own log) (howned : Owned own log)
    (h : body.execUnder (.ofOwner own) committed log = .ok (result, log')) :
    Seen own log' ∧ Owned own log' := by
  induction body generalizing log with
  | done value =>
      cases h
      exact ⟨hseen, howned⟩
  | select p next ih =>
      refine ih _ (hseen.append ?_) (howned.append (owned_selected ..)) h
      intro q rows hmem row hrow
      cases List.mem_singleton.mp hmem
      exact owned_of_mem_filter hrow
  | update p assign next ih =>
      simp only [Tx.execUnder] at h
      split at h
      · rename_i hall
        refine ih _ (hseen.append (seen_updated own _ _)) (howned.append (owned_updated ?_)) h
        exact fun row hrow => ⟨owned_of_mem_filter hrow, List.all_eq_true.mp hall row hrow⟩
      · cases h
  | insert row next ih =>
      simp only [Tx.execUnder] at h
      split at h
      · rename_i hcheck
        split at h
        · cases h
        · refine ih (hseen.append ?_) (howned.append (owned_inserted hcheck)) h
          exact fun q rows hmem => by cases List.mem_singleton.mp hmem
      · cases h

/-- **What a program can tell of the other rows is whether a constraint refuses an insertion.**
Over two databases that agree on the owner's rows it ends the same way, unless it comes to an
insertion of a row of the owner's that one of the two refuses otherwise than the other. -/
theorem execUnder_agree {own : Row → Bool} {rows rows' : List Row} (hrows : AgreeOn own rows rows')
    (body : Tx S α) {log : List (Access Row)} (hlog : Owned own log) :
    body.execUnder (.ofOwner own) rows log = body.execUnder (.ofOwner own) rows' log ∨
      ∃ (before : List (Access Row)) (row : Row), Owned own before ∧ own row = true ∧
        S.refuse (visible rows before) row ≠ S.refuse (visible rows' before) row := by
  have hfilter (p : Row → Bool) {log : List (Access Row)} (hlog : Owned own log) :
      (visible rows log).filter (fun row => own row && p row)
        = (visible rows' log).filter fun row => own row && p row :=
    (hrows.visible hlog).filter fun row hrow => ((Bool.and_eq_true _ _).mp hrow).1
  induction body generalizing log with
  | done value => exact .inl rfl
  | select p next ih =>
      simp only [Tx.execUnder, Policy.ofOwner, ← hfilter p hlog]
      exact ih _ (hlog.append (owned_selected ..))
  | update p assign next ih =>
      by_cases hall : (((visible rows log).filter fun row => own row && p row).all fun row =>
          own (assign.apply row)) = true
      · simp only [Tx.execUnder, Policy.ofOwner, ← hfilter p hlog, hall, if_true]
        refine ih _ (hlog.append (owned_updated fun row hrow => ?_))
        exact ⟨owned_of_mem_filter hrow, List.all_eq_true.mp hall row hrow⟩
      · simp only [Tx.execUnder, Policy.ofOwner, ← hfilter p hlog, hall]
        exact .inl rfl
  | insert row next ih =>
      by_cases hcheck : own row = true
      · by_cases hsame : S.refuse (visible rows log) row = S.refuse (visible rows' log) row
        · simp only [Tx.execUnder, Policy.ofOwner, hcheck, if_true, ← hsame]
          cases S.refuse (visible rows log) row with
          | some error => exact .inl rfl
          | none => exact ih (hlog.append (owned_inserted hcheck))
        · exact .inr ⟨log, row, hlog, hcheck, hsame⟩
      · simp only [Tx.execUnder, Policy.ofOwner, hcheck]
        exact .inl rfl

/-- **Nobody else's rows change.** -/
theorem filter_execUnder {own other : Row → Bool} (hapart : ∀ row, own row = true →
    other row = false) {committed : List Row} {body : Tx S α} {log : List (Access Row)} {result : α}
    (h : body.execUnder (.ofOwner own) committed [] = .ok (result, log)) :
    (visible committed log).filter other = committed.filter other := by
  have howned := (confined_execUnder (seen_nil own) (owned_nil own) h).2
  rw [filter_visible fun old new hmem => .inr ⟨hapart old (howned.old old new hmem),
    hapart new (howned.new new (mem_written.mpr (.inr ⟨old, hmem⟩)))⟩]
  have hnone : (added log).filter other = [] := by
    refine List.filter_eq_nil_iff.mpr fun row hrow => ?_
    rw [hapart row (howned.new row (added_subset_written hrow))]
    exact Bool.false_ne_true
  rw [hnone, List.append_nil]

/-! ### Programs that keep to their owner's rows -/

/-- Whatever rows its statements meet, the program asks for the owner's rows only and writes rows of
the owner. -/
def Tx.Confined (own : Row → Bool) : Tx S α → Prop
  | .done _ => True
  | .select p next => (∀ row, p row = true → own row = true) ∧ ∀ rows, (next rows).Confined own
  | .update p assign next =>
      (∀ row, p row = true → own row = true ∧ own (assign.apply row) = true) ∧
        ∀ rows, (next rows).Confined own
  | .insert row next => own row = true ∧ next.Confined own

namespace Tx

variable {own : Row → Bool}

omit [DecidableEq Row] [DecidableEq Key] [DecidableEq Val]

theorem confined_pure (result : α) : (pure result : Tx S α).Confined own := trivial

theorem confined_query {p : Row → Bool} (h : ∀ row, p row = true → own row = true) :
    (query p : Tx S (List Row)).Confined own := ⟨h, fun _ => trivial⟩

theorem confined_modify {p : Row → Bool} {assign : Assignment S}
    (h : ∀ row, p row = true → own row = true ∧ own (assign.apply row) = true) :
    (modify p assign).Confined own := ⟨h, fun _ => trivial⟩

theorem confined_add {row : Row} (h : own row = true) : (add row : Tx S Unit).Confined own :=
  ⟨h, trivial⟩

theorem confined_bind {body : Tx S α} {f : α → Tx S β} (hbody : body.Confined own)
    (hf : ∀ result, (f result).Confined own) : (body >>= f).Confined own := by
  change (body.bind f).Confined own
  induction body with
  | done result => exact hf result
  | select p next ih => exact ⟨hbody.1, fun rows => ih rows (hbody.2 rows)⟩
  | update p assign next ih => exact ⟨hbody.1, fun rows => ih rows (hbody.2 rows)⟩
  | insert row next ih => exact ⟨hbody.1, ih hbody.2⟩

/-- The filter put into the statements. -/
def restrict (own : Row → Bool) : Tx S α → Tx S α
  | .done result => .done result
  | .select p next => .select (fun row => own row && p row) fun rows => (next rows).restrict own
  | .update p assign next =>
      .update (fun row => own row && p row) assign fun rows => (next rows).restrict own
  | .insert row next => .insert row (next.restrict own)

/-- A filter that admits everything a predicate asks for changes nothing. -/
theorem and_eq_self {p : Row → Bool} (h : ∀ row, p row = true → own row = true) :
    (fun row => own row && p row) = p := by
  funext row
  cases hrow : p row with
  | false => rw [Bool.and_false]
  | true => rw [h row hrow, Bool.and_true]

/-- **For a confined program the filter changes nothing**: it is the same program. -/
theorem restrict_of_confined {body : Tx S α} (h : body.Confined own) :
    body.restrict own = body := by
  induction body with
  | done result => rfl
  | select p next ih =>
      rw [restrict, and_eq_self h.1]
      exact congrArg _ (funext fun rows => ih rows (h.2 rows))
  | update p assign next ih =>
      rw [restrict, and_eq_self fun row hrow => (h.1 row hrow).1]
      exact congrArg _ (funext fun rows => ih rows (h.2 rows))
  | insert row next ih => rw [restrict, ih h.2]

end Tx

/-- **A confined program runs the same with the policy and without it.** -/
theorem execUnder_of_confined {own : Row → Bool} {committed : List Row} {body : Tx S α}
    (h : body.Confined own) (log : List (Access Row)) :
    body.execUnder (.ofOwner own) committed log
      = (body.exec committed log).mapError .db := by
  induction body generalizing log with
  | done result => rfl
  | select p next ih =>
      simp only [Tx.execUnder, Tx.exec, Policy.ofOwner, Tx.and_eq_self h.1]
      exact ih _ (h.2 _) _
  | update p assign next ih =>
      have hcheck : (((visible committed log).filter p).all fun row => own (assign.apply row))
          = true :=
        List.all_eq_true.mpr fun row hrow => (h.1 row (List.mem_filter.mp hrow).2).2
      simp only [Tx.execUnder, Tx.exec, Policy.ofOwner,
        Tx.and_eq_self fun row hrow => (h.1 row hrow).1, hcheck, if_true]
      exact ih _ (h.2 _) _
  | insert row next ih =>
      simp only [Tx.execUnder, Tx.exec, Policy.ofOwner, h.1, if_true]
      cases S.refuse (visible committed log) row with
      | some error => rfl
      | none => exact ih h.2 _

end Transactions
