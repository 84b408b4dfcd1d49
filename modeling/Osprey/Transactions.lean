/-
**Transactions over tables of rows.**

A database is a list of rows.  A schema says which of a row's columns are constrained: its primary
key, its entries in the unique indexes, and the keys it refers to.  A transaction is a sequence of
statements, each one's rows deciding what follows: a `SELECT` with a predicate, an `UPDATE` of
columns that carry no constraint, and an `INSERT` that the constraints can refuse.  What a
transaction has done so far is a log of accesses; the rows it sees are the committed ones with its
own log replayed over them.

Main definitions:

* `Transactions.Schema`, `Transactions.Assignment`, `Transactions.Tx` — constraints, updates that
  keep clear of them, and transactions;
* `Transactions.Access`, `Transactions.visible` — the log, and the rows it leaves visible;
* `Transactions.Schema.refuse` — why an `INSERT` is refused;
* `Transactions.Tx.exec` — running a transaction alone;
* `Transactions.Tx.Ensures` — what a transaction guarantees whatever rows its statements meet;
* `Transactions.Tx.Isolated` — a transaction that keeps to the rows of its owner.

Main results:

* `Transactions.Tx.ensures_bind` — guarantees compose;
* `Transactions.columns_visible` — replaying a log changes no constrained column;
* `Transactions.Tx.exec_congr` — **a transaction that keeps to its owner's rows does the same over
  any two databases that agree on them**.
-/

import Mathlib.Data.List.Basic
import Mathlib.Tactic

set_option relaxedAutoImplicit false
set_option autoImplicit false

namespace Transactions

variable {Row Key Index Val α β : Type}

/-! ### Constraints -/

/-- The constrained columns of the tables: the primary key, the unique indexes in the order in which
they are checked (a row of another table has no entry), and the keys a row refers to. -/
structure Schema (Row Key Index Val : Type) where
  key : Row → Key
  indexes : List Index
  entry : Index → Row → Option Val
  references : Row → List Key

/-- The constrained columns of one row. -/
structure Columns (Key Index Val : Type) where
  key : Key
  entry : Index → Option Val
  references : List Key

def Schema.columns (S : Schema Row Key Index Val) (row : Row) : Columns Key Index Val :=
  ⟨S.key row, fun index => S.entry index row, S.references row⟩

theorem Schema.key_eq_of_columns {S : Schema Row Key Index Val} {row other : Row}
    (h : S.columns row = S.columns other) : S.key row = S.key other :=
  congrArg Columns.key h

/-- An `UPDATE`'s assignment to columns that carry no constraint. -/
structure Assignment (S : Schema Row Key Index Val) where
  apply : Row → Row
  columns_apply : ∀ row, S.columns (apply row) = S.columns row

section Clashes

variable [DecidableEq Key] [DecidableEq Val]

/-- Two rows share their value of a unique index, `none` standing for the primary key. -/
def Schema.shares (S : Schema Row Key Index Val) : Option Index → Row → Row → Bool
  | none, row, other => S.key row = S.key other
  | some index, row, other =>
      (S.entry index row).isSome && S.entry index row = S.entry index other

/-- The indexes in the order in which an `INSERT` checks them. -/
def Schema.checked (S : Schema Row Key Index Val) : List (Option Index) :=
  none :: S.indexes.map some

/-- Two rows that no table can hold together. -/
def Schema.Clash (S : Schema Row Key Index Val) (row other : Row) : Prop :=
  ∃ index ∈ S.checked, S.shares index row other = true

instance Schema.Clash.decidable (S : Schema Row Key Index Val) (row other : Row) :
    Decidable (S.Clash row other) :=
  inferInstanceAs (Decidable (∃ index ∈ S.checked, S.shares index row other = true))

/-- The rows meet every constraint: no two clash, and every reference is met. -/
structure Schema.Consistent (S : Schema Row Key Index Val) (rows : List Row) : Prop where
  unique : rows.Pairwise fun row other => ¬S.Clash row other
  referenced : ∀ row ∈ rows, ∀ key ∈ S.references row, ∃ other ∈ rows, S.key other = key

theorem Schema.shares_symm {S : Schema Row Key Index Val} {index : Option Index} {row other : Row}
    (h : S.shares index row other = true) : S.shares index other row = true := by
  cases index with
  | none => simpa [Schema.shares, eq_comm] using h
  | some index =>
      simp only [Schema.shares, Bool.and_eq_true, decide_eq_true_eq] at h ⊢
      exact ⟨h.2 ▸ h.1, h.2.symm⟩

theorem Schema.Clash.symm {S : Schema Row Key Index Val} {row other : Row}
    (h : S.Clash row other) : S.Clash other row := by
  obtain ⟨index, hindex, hshares⟩ := h
  exact ⟨index, hindex, Schema.shares_symm hshares⟩

/-- Rows with one primary key clash. -/
theorem Schema.clash_of_key_eq {S : Schema Row Key Index Val} {row other : Row}
    (h : S.key row = S.key other) : S.Clash row other :=
  ⟨none, List.mem_cons_self .., by simpa [Schema.shares] using h⟩

/-- Whether two rows clash depends on their constrained columns alone. -/
theorem Schema.clash_congr {S : Schema Row Key Index Val} {row row' other other' : Row}
    (hrow : S.columns row = S.columns row') (hother : S.columns other = S.columns other') :
    S.Clash row other ↔ S.Clash row' other' := by
  simp only [Schema.columns, Columns.mk.injEq] at hrow hother
  have hentry (index : Index) : S.entry index row = S.entry index row' := congrFun hrow.2.1 index
  have hentry' (index : Index) : S.entry index other = S.entry index other' :=
    congrFun hother.2.1 index
  have hshares (index : Option Index) :
      S.shares index row other = S.shares index row' other' := by
    cases index with
    | none => simp [Schema.shares, hrow.1, hother.1]
    | some index => simp [Schema.shares, hentry index, hentry' index]
  simp only [Schema.Clash, hshares]

/-- Two rows of a consistent database that clash are one row. -/
theorem Schema.Consistent.eq_of_clash {S : Schema Row Key Index Val} {rows : List Row}
    (h : S.Consistent rows) {row other : Row} (hrow : row ∈ rows) (hother : other ∈ rows)
    (hclash : S.Clash row other) : row = other := by
  by_contra hne
  have : Std.Symm fun row other => ¬S.Clash row other := ⟨fun _ _ hno hcl => hno hcl.symm⟩
  exact h.unique.forall hrow hother hne hclash

/-- Whether any two rows clash depends on their constrained columns alone. -/
theorem Schema.pairwise_of_columns {S : Schema Row Key Index Val} {rows rows' : List Row}
    (hcolumns : rows.map S.columns = rows'.map S.columns)
    (h : rows.Pairwise fun row other => ¬S.Clash row other) :
    rows'.Pairwise fun row other => ¬S.Clash row other := by
  let R (a b : Columns Key Index Val) : Prop :=
    ∀ row other, S.columns row = a → S.columns other = b → ¬S.Clash row other
  have hR (row other : Row) : R (S.columns row) (S.columns other) ↔ ¬S.Clash row other :=
    ⟨fun h => h row other rfl rfl,
      fun h _ _ hrow hother hclash => h ((Schema.clash_congr hrow hother).mp hclash)⟩
  have hmap : (rows.map S.columns).Pairwise R := List.pairwise_map.mpr (h.imp (hR _ _).mpr)
  rw [hcolumns] at hmap
  exact (List.pairwise_map.mp hmap).imp (hR _ _).mp

end Clashes

/-! ### Transactions -/

/-- A transaction: its statements in order, the rows of each deciding what follows.  An `UPDATE`
hands back the rows it updated, as they are afterwards. -/
inductive Tx (S : Schema Row Key Index Val) (α : Type) : Type
  | done (result : α)
  | select (p : Row → Bool) (next : List Row → Tx S α)
  | update (p : Row → Bool) (assign : Assignment S) (next : List Row → Tx S α)
  | insert (row : Row) (next : Tx S α)

namespace Tx

variable {S : Schema Row Key Index Val}

def bind : Tx S α → (α → Tx S β) → Tx S β
  | .done result, f => f result
  | .select p next, f => .select p fun rows => (next rows).bind f
  | .update p assign next, f => .update p assign fun rows => (next rows).bind f
  | .insert row next, f => .insert row (next.bind f)

instance : Monad (Tx S) where
  pure := .done
  bind := .bind

/-- `SELECT … WHERE p`. -/
def query (p : Row → Bool) : Tx S (List Row) := .select p .done

/-- `UPDATE … SET assign WHERE p RETURNING …`. -/
def modify (p : Row → Bool) (assign : Assignment S) : Tx S (List Row) := .update p assign .done

/-- `INSERT`. -/
def add (row : Row) : Tx S Unit := .insert row (.done ())

end Tx

/-! ### What a transaction has done -/

/-- One access of a transaction to the tables. -/
inductive Access (Row : Type) : Type
  | selected (p : Row → Bool) (rows : List Row)
  | updated (old new : Row)
  | inserted (new : Row)

/-- The version of a row an access writes. -/
def Access.new? : Access Row → Option Row
  | .selected _ _ => none
  | .updated _ new => some new
  | .inserted new => some new

/-- The row an access adds to the tables. -/
def Access.added? : Access Row → Option Row
  | .inserted new => some new
  | _ => none

/-- The versions a transaction has written. -/
def written (log : List (Access Row)) : List Row := log.filterMap Access.new?

/-- The rows a transaction has inserted. -/
def added (log : List (Access Row)) : List Row := log.filterMap Access.added?

section Replay

variable [DecidableEq Row]

/-- The rows after an access: an update puts the new version of the row in the place of the old. -/
def Access.replay (rows : List Row) : Access Row → List Row
  | .selected _ _ => rows
  | .updated old new => rows.map fun row => if row = old then new else row
  | .inserted new => rows ++ [new]

/-- The rows a transaction sees: the committed ones, with its own writes replayed over them. -/
def visible (committed : List Row) (log : List (Access Row)) : List Row :=
  log.foldl Access.replay committed

end Replay

/-- Why a statement fails.  A transaction can also be rolled back from outside: a lost connection, a
timeout, the victim of a deadlock. -/
inductive DbError (Index : Type) : Type
  | uniqueViolation (index : Option Index)
  | foreignKeyViolation
  | aborted
  deriving DecidableEq, Repr

section Alone

variable [DecidableEq Key] [DecidableEq Val]

/-- The first index, in the order in which they are checked, whose value `row` shares with one of
`rows`. -/
def Schema.firstShared (S : Schema Row Key Index Val) (rows : List Row) (row : Row) :
    Option (Option Index) :=
  S.checked.find? fun index => rows.any (S.shares index row)

/-- The references of `row` are met by `rows`. -/
def Schema.referencesMet (S : Schema Row Key Index Val) (rows : List Row) (row : Row) : Bool :=
  (S.references row).all fun key => rows.any fun other => S.key other = key

/-- Why an `INSERT` of `row` into `rows` is refused, `none` when it is not. -/
def Schema.refuse (S : Schema Row Key Index Val) (rows : List Row) (row : Row) :
    Option (DbError Index) :=
  match S.firstShared rows row with
  | some index => some (.uniqueViolation index)
  | none => if S.referencesMet rows row then none else some .foreignKeyViolation

theorem Schema.firstShared_eq_none {S : Schema Row Key Index Val} {rows : List Row} {row : Row} :
    S.firstShared rows row = none ↔ ∀ other ∈ rows, ¬S.Clash row other := by
  simp only [Schema.firstShared, List.find?_eq_none, List.any_eq_true, Schema.Clash]
  constructor
  · rintro h other hother ⟨index, hindex, hshares⟩
    exact h index hindex ⟨other, hother, hshares⟩
  · rintro h index hindex ⟨other, hother, hshares⟩
    exact h other hother ⟨index, hindex, hshares⟩

omit [DecidableEq Val] in
theorem Schema.referencesMet_eq_true {S : Schema Row Key Index Val} {rows : List Row}
    {row : Row} : S.referencesMet rows row = true ↔
      ∀ key ∈ S.references row, ∃ other ∈ rows, S.key other = key := by
  simp [Schema.referencesMet]

/-- What the refusal of an insertion checks. -/
theorem Schema.refuse_eq_none {S : Schema Row Key Index Val} {rows : List Row} {row : Row} :
    S.refuse rows row = none ↔
      (∀ other ∈ rows, ¬S.Clash row other) ∧
        ∀ key ∈ S.references row, ∃ other ∈ rows, S.key other = key := by
  rw [← Schema.firstShared_eq_none, ← Schema.referencesMet_eq_true, Schema.refuse]
  cases S.firstShared rows row with
  | none => simp
  | some index => simp

/-- Whether an insertion is refused depends on constrained columns alone. -/
theorem Schema.refuse_of_columns {S : Schema Row Key Index Val} {rows rows' : List Row}
    (h : rows.map S.columns = rows'.map S.columns) (row : Row) :
    S.refuse rows row = S.refuse rows' row := by
  have hany (p : Columns Key Index Val → Bool) :
      (rows.any fun other => p (S.columns other)) = rows'.any fun other => p (S.columns other) := by
    have hmap (l : List Row) : (l.any fun other => p (S.columns other)) = (l.map S.columns).any p :=
      List.any_map.symm
    rw [hmap, hmap, h]
  have hshares (index : Option Index) :
      rows.any (S.shares index row) = rows'.any (S.shares index row) := by
    cases index with
    | none => exact hany fun columns => S.key row = columns.key
    | some index =>
        exact hany fun columns =>
          (S.entry index row).isSome && S.entry index row = columns.entry index
  have hmet : S.referencesMet rows row = S.referencesMet rows' row :=
    List.all_congr rfl fun key => hany fun columns => columns.key = key
  have hfirst : S.firstShared rows row = S.firstShared rows' row :=
    List.find?_congr fun index _ => hshares index
  rw [Schema.refuse, Schema.refuse, hfirst, hmet]

/-- Whether an insertion is refused depends on which unique values and which keys are there.  Rows
that both databases have besides may supply the keys. -/
theorem Schema.refuse_append_congr {S : Schema Row Key Index Val} {rows rows' extra : List Row}
    {row : Row} (hshared : ∀ index ∈ S.checked,
      rows.any (S.shares index row) = rows'.any (S.shares index row))
    (hreferences : ∀ key ∈ S.references row, (∃ other ∈ extra, S.key other = key) ∨
      ((∃ other ∈ rows, S.key other = key) ↔ ∃ other ∈ rows', S.key other = key)) :
    S.refuse (rows ++ extra) row = S.refuse (rows' ++ extra) row := by
  have hfirst : S.firstShared (rows ++ extra) row = S.firstShared (rows' ++ extra) row := by
    refine List.find?_congr fun index hindex => ?_
    rw [List.any_append, List.any_append, hshared index hindex]
  have hmet : S.referencesMet (rows ++ extra) row = S.referencesMet (rows' ++ extra) row := by
    rw [Bool.eq_iff_iff, Schema.referencesMet_eq_true, Schema.referencesMet_eq_true]
    refine forall₂_congr fun key hkey => ?_
    simp only [List.mem_append, or_and_right, exists_or]
    rcases hreferences key hkey with hextra | hsame
    · simp [hextra]
    · rw [hsame]
  rw [Schema.refuse, Schema.refuse, hfirst, hmet]

/-- A transaction run alone over the committed rows, after the accesses of `log`: its result and its
whole log, or the error that rolls it back. -/
def Tx.exec [DecidableEq Row] {S : Schema Row Key Index Val} (committed : List Row) :
    Tx S α → List (Access Row) → Except (DbError Index) (α × List (Access Row))
  | .done result, log => .ok (result, log)
  | .select p next, log =>
      let rows := (visible committed log).filter p
      (next rows).exec committed (log ++ [.selected p rows])
  | .update p assign next, log =>
      let rows := (visible committed log).filter p
      (next (rows.map assign.apply)).exec committed
        (log ++ rows.map fun row => .updated row (assign.apply row))
  | .insert row next, log =>
      match S.refuse (visible committed log) row with
      | some error => .error error
      | none => next.exec committed (log ++ [.inserted row])

theorem Tx.exec_query [DecidableEq Row] {S : Schema Row Key Index Val} (committed : List Row)
    (p : Row → Bool) (f : List Row → Tx S α) (log : List (Access Row)) :
    (Tx.query p >>= f).exec committed log
      = (f ((visible committed log).filter p)).exec committed
        (log ++ [.selected p ((visible committed log).filter p)]) := rfl

theorem Tx.exec_modify [DecidableEq Row] {S : Schema Row Key Index Val} (committed : List Row)
    (p : Row → Bool) (assign : Assignment S) (f : List Row → Tx S α) (log : List (Access Row)) :
    (Tx.modify p assign >>= f).exec committed log
      = (f (((visible committed log).filter p).map assign.apply)).exec committed
        (log ++ ((visible committed log).filter p).map fun row =>
          .updated row (assign.apply row)) := rfl

end Alone

/-! ### Guarantees of a transaction -/

/-- Whatever rows its statements meet, as long as they satisfy the statements' predicates, the
transaction ends with a log and a result that satisfy `P`. -/
def Tx.Ensures {S : Schema Row Key Index Val} (P : List (Access Row) → α → Prop) :
    Tx S α → List (Access Row) → Prop
  | .done result, log => P log result
  | .select p next, log =>
      ∀ rows : List Row, (∀ row ∈ rows, p row = true) →
        (next rows).Ensures P (log ++ [.selected p rows])
  | .update p assign next, log =>
      ∀ rows : List Row, (∀ row ∈ rows, p row = true) → (next (rows.map assign.apply)).Ensures P
        (log ++ rows.map fun row => .updated row (assign.apply row))
  | .insert row next, log => next.Ensures P (log ++ [.inserted row])

namespace Tx

variable {S : Schema Row Key Index Val} {P Q : List (Access Row) → α → Prop}

@[simp] theorem ensures_pure (result : α) (log : List (Access Row)) :
    (pure result : Tx S α).Ensures P log ↔ P log result := Iff.rfl

/-- **Guarantees compose**: what the first part ensures is what the second may start from. -/
@[simp] theorem ensures_bind {P : List (Access Row) → β → Prop} (body : Tx S α) (f : α → Tx S β)
    (log : List (Access Row)) :
    (body >>= f).Ensures P log ↔
      body.Ensures (fun log' result => (f result).Ensures P log') log := by
  change (body.bind f).Ensures P log ↔ _
  induction body generalizing log with
  | done result => exact Iff.rfl
  | select p next ih =>
      simp only [Tx.bind, Tx.Ensures]
      exact forall_congr' fun rows => forall_congr' fun _ => ih rows _
  | update p assign next ih =>
      simp only [Tx.bind, Tx.Ensures]
      exact forall_congr' fun rows => forall_congr' fun _ => ih _ _
  | insert row next ih => exact ih _

@[simp] theorem ensures_query {P : List (Access Row) → List Row → Prop} (p : Row → Bool)
    (log : List (Access Row)) :
    (query p : Tx S (List Row)).Ensures P log ↔
      ∀ rows : List Row, (∀ row ∈ rows, p row = true) → P (log ++ [.selected p rows]) rows :=
        Iff.rfl

@[simp] theorem ensures_modify {P : List (Access Row) → List Row → Prop} (p : Row → Bool)
    (assign : Assignment S) (log : List (Access Row)) :
    (modify p assign).Ensures P log ↔
      ∀ rows : List Row, (∀ row ∈ rows, p row = true) →
        P (log ++ rows.map fun row => .updated row (assign.apply row)) (rows.map assign.apply) :=
  Iff.rfl

@[simp] theorem ensures_add {P : List (Access Row) → Unit → Prop} (row : Row)
    (log : List (Access Row)) :
    (add row : Tx S Unit).Ensures P log ↔ P (log ++ [.inserted row]) () := Iff.rfl

/-- A guarantee can be weakened. -/
theorem Ensures.mono {body : Tx S α} {log : List (Access Row)} (hbody : body.Ensures P log)
    (h : ∀ log result, P log result → Q log result) : body.Ensures Q log := by
  induction body generalizing log with
  | done result => exact h _ _ hbody
  | select p next ih => exact fun rows hrows => ih rows (hbody rows hrows)
  | update p assign next ih => exact fun rows hrows => ih _ (hbody rows hrows)
  | insert row next ih => exact ih hbody

/-- Whatever rows its statements meet, every access of the transaction satisfies `A`. -/
def Accesses (A : Access Row → Prop) : Tx S α → Prop
  | .done _ => True
  | .select p next => (∀ rows, A (.selected p rows)) ∧ ∀ rows, (next rows).Accesses A
  | .update p assign next =>
      (∀ row, p row = true → A (.updated row (assign.apply row))) ∧
        ∀ rows, (next rows).Accesses A
  | .insert row next => A (.inserted row) ∧ next.Accesses A

theorem accesses_bind {A : Access Row → Prop} {body : Tx S α} {f : α → Tx S β}
    (hbody : body.Accesses A) (hf : ∀ result, (f result).Accesses A) :
    (body >>= f).Accesses A := by
  change (body.bind f).Accesses A
  induction body with
  | done result => exact hf result
  | select p next ih => exact ⟨hbody.1, fun rows => ih rows (hbody.2 rows)⟩
  | update p assign next ih => exact ⟨hbody.1, fun rows => ih rows (hbody.2 rows)⟩
  | insert row next ih => exact ⟨hbody.1, ih hbody.2⟩

theorem accesses_pure {A : Access Row → Prop} (result : α) : (pure result : Tx S α).Accesses A :=
  trivial

theorem accesses_query {A : Access Row → Prop} {p : Row → Bool} (h : ∀ rows, A (.selected p rows)) :
    (query p : Tx S (List Row)).Accesses A := ⟨h, fun _ => trivial⟩

theorem accesses_modify {A : Access Row → Prop} {p : Row → Bool} {assign : Assignment S}
    (h : ∀ row, p row = true → A (.updated row (assign.apply row))) :
    (modify p assign).Accesses A := ⟨h, fun _ => trivial⟩

theorem accesses_add {A : Access Row → Prop} {row : Row} (h : A (.inserted row)) :
    (add row : Tx S Unit).Accesses A := ⟨h, trivial⟩

/-- What every access of a transaction satisfies, every access of its log does. -/
theorem Accesses.ensures {A : Access Row → Prop} {body : Tx S α} (h : body.Accesses A)
    {log : List (Access Row)} (hlog : ∀ access ∈ log, A access) :
    body.Ensures (fun log _ => ∀ access ∈ log, A access) log := by
  induction body generalizing log with
  | done result => exact hlog
  | select p next ih =>
      intro rows _
      refine ih rows (h.2 rows) fun access haccess => ?_
      rcases List.mem_append.mp haccess with haccess | haccess
      · exact hlog access haccess
      · rw [List.mem_singleton.mp haccess]
        exact h.1 rows
  | update p assign next ih =>
      intro rows hrows
      refine ih _ (h.2 _) fun access haccess => ?_
      rcases List.mem_append.mp haccess with haccess | haccess
      · exact hlog access haccess
      · obtain ⟨row, hrow, rfl⟩ := List.mem_map.mp haccess
        exact h.1 row (hrows row hrow)
  | insert row next ih =>
      refine ih h.2 fun access haccess => ?_
      rcases List.mem_append.mp haccess with haccess | haccess
      · exact hlog access haccess
      · rw [List.mem_singleton.mp haccess]
        exact h.1

/-- Guarantees add up. -/
theorem Ensures.and {body : Tx S α} {log : List (Access Row)} (hP : body.Ensures P log)
    (hQ : body.Ensures Q log) : body.Ensures (fun log result => P log result ∧
      Q log result) log := by
  induction body generalizing log with
  | done result => exact ⟨hP, hQ⟩
  | select p next ih => exact fun rows hrows => ih rows (hP rows hrows) (hQ rows hrows)
  | update p assign next ih => exact fun rows hrows => ih _ (hP rows hrows) (hQ rows hrows)
  | insert row next ih => exact ih hP hQ

end Tx

/-! ### Replaying a log -/

@[simp] theorem written_append (log more : List (Access Row)) :
    written (log ++ more) = written log ++ written more := List.filterMap_append ..

@[simp] theorem added_append (log more : List (Access Row)) :
    added (log ++ more) = added log ++ added more := List.filterMap_append ..

@[simp] theorem written_nil : written ([] : List (Access Row)) = [] := rfl

@[simp] theorem written_selected (p : Row → Bool) (rows : List Row) (log : List (Access Row)) :
    written (.selected p rows :: log) = written log := rfl

@[simp] theorem written_updated (old new : Row) (log : List (Access Row)) :
    written (.updated old new :: log) = new :: written log := rfl

@[simp] theorem written_inserted (new : Row) (log : List (Access Row)) :
    written (.inserted new :: log) = new :: written log := rfl

@[simp] theorem added_nil : added ([] : List (Access Row)) = [] := rfl

@[simp] theorem added_selected (p : Row → Bool) (rows : List Row) (log : List (Access Row)) :
    added (.selected p rows :: log) = added log := rfl

@[simp] theorem added_updated (old new : Row) (log : List (Access Row)) :
    added (.updated old new :: log) = added log := rfl

@[simp] theorem added_inserted (new : Row) (log : List (Access Row)) :
    added (.inserted new :: log) = new :: added log := rfl

@[simp] theorem added_updates (rows : List Row) (f : Row → Row) :
    added (rows.map fun row => .updated row (f row)) = [] := by
  induction rows with
  | nil => rfl
  | cons row rows ih => exact ih

/-- What a log has written is what it inserted and the new versions of what it updated. -/
theorem mem_written {log : List (Access Row)} {row : Row} :
    row ∈ written log ↔ row ∈ added log ∨ ∃ old, .updated old row ∈ log := by
  induction log with
  | nil => simp
  | cons access log ih =>
      cases access with
      | selected p rows => simp [ih]
      | updated old new =>
          simp only [written_updated, added_updated, List.mem_cons, Access.updated.injEq, ih]
          constructor
          · rintro (rfl | hadded | ⟨old', hmem⟩)
            · exact .inr ⟨old, .inl ⟨rfl, rfl⟩⟩
            · exact .inl hadded
            · exact .inr ⟨old', .inr hmem⟩
          · rintro (hadded | ⟨old', ⟨-, rfl⟩ | hmem⟩)
            · exact .inr (.inl hadded)
            · exact .inl rfl
            · exact .inr (.inr ⟨old', hmem⟩)
      | inserted new => simp [ih, or_assoc]

theorem added_subset_written {log : List (Access Row)} {row : Row} (h : row ∈ added log) :
    row ∈ written log := mem_written.mpr (.inl h)

section Replayed

variable [DecidableEq Row] {S : Schema Row Key Index Val}

@[simp] theorem visible_nil (rows : List Row) : visible rows [] = rows := rfl

theorem visible_append (rows : List Row) (log more : List (Access Row)) :
    visible rows (log ++ more) = visible (visible rows log) more := List.foldl_append ..

/-- Every row a transaction sees is a committed one or one it has written. -/
theorem mem_visible {rows : List Row} {log : List (Access Row)} {row : Row}
    (h : row ∈ visible rows log) : row ∈ rows ∨ row ∈ written log := by
  induction log using List.reverseRecOn with
  | nil => exact .inl h
  | append_singleton log access ih =>
      rw [visible_append] at h
      rw [written_append, List.mem_append]
      cases access with
      | selected p found => exact (ih h).imp_right .inl
      | updated old new =>
          obtain ⟨row', hrow', hrow⟩ := List.mem_map.mp h
          split at hrow
          · exact .inr (.inr (by simp [written, Access.new?, hrow]))
          · exact (ih (hrow ▸ hrow')).imp_right .inl
      | inserted new =>
          rcases List.mem_append.mp h with h | h
          · exact (ih h).imp_right .inl
          · exact .inr (.inr h)

/-- A row that no update of the log replaces stays visible. -/
theorem visible_of_not_updated {rows : List Row} {log : List (Access Row)} {row : Row}
    (hrow : row ∈ rows) (h : ∀ new, .updated row new ∉ log) : row ∈ visible rows log := by
  induction log generalizing rows with
  | nil => exact hrow
  | cons access log ih =>
      refine ih ?_ fun new hnew => h new (List.mem_cons_of_mem _ hnew)
      cases access with
      | selected p found => exact hrow
      | updated old new =>
          have hne : row ≠ old := fun heq => h new (heq ▸ List.mem_cons_self ..)
          exact List.mem_map.mpr ⟨row, hrow, if_neg hne⟩
      | inserted new => exact List.mem_append_left _ hrow

/-- Every row a transaction sees is a committed one, one it inserted, or the new version of an
update. -/
theorem visible_cases {rows : List Row} {log : List (Access Row)} {row : Row}
    (h : row ∈ visible rows log) :
    row ∈ rows ∨ row ∈ added log ∨ ∃ old, .updated old row ∈ log :=
  (mem_visible h).imp_right mem_written.mp

/-- An inserted row that no update of the log replaces stays visible. -/
theorem visible_of_added {rows : List Row} {log : List (Access Row)} {row : Row}
    (hrow : row ∈ added log) (h : ∀ new, .updated row new ∉ log) : row ∈ visible rows log := by
  induction log generalizing rows with
  | nil => cases hrow
  | cons access log ih =>
      have hrest : ∀ new, .updated row new ∉ log :=
          fun new hnew => h new (List.mem_cons_of_mem _ hnew)
      cases access with
      | selected p found => exact ih hrow hrest
      | updated old new => exact ih hrow hrest
      | inserted new =>
          rcases List.mem_cons.mp hrow with rfl | hrow
          · have hlast : row ∈ rows ++ [row] := List.mem_append_right _ (List.mem_singleton_self _)
            change row ∈ visible (rows ++ [row]) log
            exact visible_of_not_updated hlast hrest
          · exact ih hrow hrest

/-- A version that an update of the log replaces, and that the log has not written, is gone. -/
theorem not_visible_of_updated {rows : List Row} {log : List (Access Row)} {old new : Row}
    (hmem : .updated old new ∈ log) (hwritten : old ∉ written log) : old ∉ visible rows log := by
  obtain ⟨before, after, rfl⟩ := List.append_of_mem hmem
  rw [written_append, List.mem_append, not_or, written_updated, List.mem_cons, not_or] at hwritten
  rw [visible_append]
  intro hvisible
  have hsplit : old ∈ visible (Access.replay (visible rows before) (.updated old new)) after :=
    hvisible
  rcases mem_visible hsplit with hreplayed | hafter
  · obtain ⟨row, -, heq⟩ := List.mem_map.mp hreplayed
    split at heq
    · exact hwritten.2.1 heq.symm
    · rename_i hne
      exact hne heq
  · exact hwritten.2.2 hafter

/-- What every update of the log keeps, some visible version of every row has kept. -/
theorem exists_visible {R : Row → Row → Prop} (hrefl : ∀ row, R row row)
    (htrans : ∀ a b c, R a b → R b c → R a c) {log : List (Access Row)}
    (hlog : ∀ old new, .updated old new ∈ log → R old new) {rows : List Row} {row : Row}
    (hrow : row ∈ rows) : ∃ row' ∈ visible rows log, R row row' := by
  induction log generalizing rows row with
  | nil => exact ⟨row, hrow, hrefl row⟩
  | cons access log ih =>
      have hrest : ∀ old new, .updated old new ∈ log → R old new :=
        fun old new h => hlog old new (List.mem_cons_of_mem _ h)
      cases access with
      | selected p found => exact ih hrest hrow
      | updated old new =>
          by_cases heq : row = old
          · have hnew : new ∈ Access.replay rows (.updated old new) :=
              List.mem_map.mpr ⟨row, hrow, if_pos heq⟩
            obtain ⟨row', hrow', hR⟩ := ih hrest hnew
            exact ⟨row', hrow', htrans _ _ _ (heq ▸ hlog old new (List.mem_cons_self ..)) hR⟩
          · exact ih hrest (List.mem_map.mpr ⟨row, hrow, if_neg heq⟩)
      | inserted new => exact ih hrest (List.mem_append_left _ hrow)

/-- Where no update of the log turns a row into one that is counted, at most the inserted ones are
counted besides the committed ones. -/
theorem countP_visible_le {p : Row → Bool} {log : List (Access Row)}
    (h : ∀ old new, .updated old new ∈ log → p new = true → p old = true) (rows : List Row) :
    (visible rows log).countP p ≤ rows.countP p + (added log).countP p := by
  induction log generalizing rows with
  | nil => simp
  | cons access log ih =>
      have ih := ih fun old new hmem => h old new (List.mem_cons_of_mem _ hmem)
      cases access with
      | selected q found => exact ih rows
      | updated old new =>
          refine (ih _).trans (Nat.add_le_add_right ?_ _)
          rw [Access.replay, List.countP_map]
          refine List.countP_mono_left fun row _ => ?_
          simp only [Function.comp]
          split
          · rename_i heq
            rw [heq]
            exact h old new (List.mem_cons_self ..)
          · exact id
      | inserted new =>
          refine (ih _).trans_eq ?_
          rw [Access.replay, List.countP_append, Nat.add_assoc, added_inserted,
            ← List.countP_append, List.singleton_append]

/-- Where no update of the log changes whether a row is counted, the committed rows and the inserted
ones are counted. -/
theorem countP_visible {p : Row → Bool} {log : List (Access Row)}
    (h : ∀ old new, .updated old new ∈ log → p old = p new) (rows : List Row) :
    (visible rows log).countP p = rows.countP p + (added log).countP p := by
  induction log generalizing rows with
  | nil => simp
  | cons access log ih =>
      have ih := ih fun old new hmem => h old new (List.mem_cons_of_mem _ hmem)
      cases access with
      | selected q found => exact ih rows
      | updated old new =>
          refine (ih _).trans ?_
          rw [Access.replay, List.countP_map, added_updated]
          refine congrArg (· + _) (List.countP_congr fun row _ => ?_)
          simp only [Function.comp]
          split
          · rename_i heq
            rw [heq, h old new (List.mem_cons_self ..)]
          · rfl
      | inserted new =>
          refine (ih _).trans ?_
          rw [Access.replay, List.countP_append, Nat.add_assoc, added_inserted,
            ← List.countP_append, List.singleton_append]

/-- Rows of a kind that no update of the log changes stay as they are, before the inserted ones. -/
theorem filter_visible {p : Row → Bool} {log : List (Access Row)}
    (h : ∀ old new, .updated old new ∈ log → old = new ∨ p old = false ∧ p new = false)
    (rows : List Row) :
    (visible rows log).filter p = rows.filter p ++ (added log).filter p := by
  induction log generalizing rows with
  | nil => simp
  | cons access log ih =>
      have ih := ih fun old new hmem => h old new (List.mem_cons_of_mem _ hmem)
      cases access with
      | selected q found => exact ih rows
      | updated old new =>
          refine (ih _).trans ?_
          rw [Access.replay, added_updated]
          refine congrArg (· ++ _) ?_
          rcases h old new (List.mem_cons_self ..) with rfl | ⟨hold, hnew⟩
          · refine congrArg (List.filter p) ?_
            refine List.map_congr_left (g := id) (fun row _ => ?_) |>.trans (List.map_id _)
            split
            · rename_i heq
              exact heq.symm
            · rfl
          · rw [List.filter_map]
            -- the rows that are replaced are not of the kind, before and after
            have hsame (row : Row) : p (if row = old then new else row) = p row := by
              split
              · rename_i heq
                rw [heq, hold, hnew]
              · rfl
            simp only [Function.comp_def, hsame]
            refine List.map_congr_left (g := id) (fun row hrow => ?_) |>.trans (List.map_id _)
            refine if_neg ?_
            rintro rfl
            rw [List.mem_filter, hold] at hrow
            exact Bool.false_ne_true hrow.2
      | inserted new =>
          refine (ih _).trans ?_
          rw [Access.replay, List.filter_append, List.append_assoc, added_inserted,
            ← List.filter_append, List.singleton_append]

/-- Every visible row goes back, by what every update of the log keeps, to a committed row or to an
inserted one. -/
theorem visible_origin {R : Row → Row → Prop} (hrefl : ∀ row, R row row)
    (htrans : ∀ a b c, R a b → R b c → R a c) {log : List (Access Row)}
    (hlog : ∀ old new, .updated old new ∈ log → R old new) {rows : List Row} {row : Row}
    (hrow : row ∈ visible rows log) : ∃ origin ∈ rows ++ added log, R origin row := by
  induction log using List.reverseRecOn generalizing row with
  | nil => exact ⟨row, List.mem_append_left _ hrow, hrefl row⟩
  | append_singleton log access ih =>
      have ih {row : Row} (hrow : row ∈ visible rows log) :
          ∃ origin ∈ rows ++ added (log ++ [access]), R origin row := by
        obtain ⟨origin, horigin, hR⟩ :=
          ih (fun old new h => hlog old new (List.mem_append_left _ h)) hrow
        refine ⟨origin, ?_, hR⟩
        rw [added_append, ← List.append_assoc]
        exact List.mem_append_left _ horigin
      rw [visible_append] at hrow
      cases access with
      | selected p found => exact ih hrow
      | updated old new =>
          obtain ⟨before, hbefore, heq⟩ := List.mem_map.mp hrow
          obtain ⟨origin, horigin, hR⟩ := ih hbefore
          split at heq
          · rename_i hold
            have hstep : R old new :=
              hlog old new (List.mem_append_right _ (List.mem_singleton_self _))
            exact ⟨origin, horigin, heq ▸ htrans _ _ _ (hold ▸ hR) hstep⟩
          · exact ⟨origin, horigin, heq ▸ hR⟩
      | inserted new =>
          rcases List.mem_append.mp hrow with hrow | hrow
          · exact ih hrow
          · refine ⟨row, ?_, hrefl row⟩
            rw [added_append, ← List.append_assoc]
            exact List.mem_append_right _ hrow

/-- **Replaying a log changes no constrained column**: the rows afterwards have those of the rows
before and of the rows inserted. -/
theorem columns_visible {log : List (Access Row)}
    (hkept : ∀ old new, .updated old new ∈ log → S.columns new = S.columns old) (rows : List Row) :
    (visible rows log).map S.columns = (rows ++ added log).map S.columns := by
  induction log generalizing rows with
  | nil => simp [added]
  | cons access log ih =>
      have ih := ih (fun old new h => hkept old new (List.mem_cons_of_mem _ h))
      cases access with
      | selected p found => exact ih rows
      | updated old new =>
          change (visible (rows.map _) log).map S.columns = _
          rw [ih, List.map_append, List.map_map]
          have hmap : rows.map (S.columns ∘ fun row => if row = old then new else row)
              = rows.map S.columns := by
            refine List.map_congr_left fun row _ => ?_
            by_cases hrow : row = old
            · simp [hrow, hkept old new (List.mem_cons_self ..)]
            · simp [hrow]
          rw [hmap, List.map_append]
          rfl
      | inserted new =>
          change (visible (rows ++ [new]) log).map S.columns = _
          rw [ih]
          simp [added, Access.added?]

/-- The accesses a transaction can have made over the committed rows: updates that keep the
constrained columns of rows it saw, and insertions that clash with nothing and refer to what is
there. -/
structure Sound [DecidableEq Key] [DecidableEq Val] (S : Schema Row Key Index Val)
    (rows : List Row) (log : List (Access Row)) : Prop where
  kept : ∀ old new, .updated old new ∈ log → S.columns new = S.columns old
  grounded : ∀ old new, .updated old new ∈ log → old ∈ rows ∨ old ∈ written log
  traced : ∀ new ∈ written log, ∃ row ∈ rows ++ added log, S.columns row = S.columns new
  fresh : ∀ new ∈ added log, ∀ row ∈ rows, ¬S.Clash new row
  distinct : (added log).Pairwise fun row other => ¬S.Clash row other
  referenced : ∀ new ∈ added log, ∀ key ∈ S.references new,
    ∃ other ∈ rows ++ added log, S.key other = key

variable [DecidableEq Key] [DecidableEq Val]

omit [DecidableEq Row] in
theorem sound_nil (rows : List Row) : Sound S rows [] where
  kept _ _ h := by cases h
  grounded _ _ h := by cases h
  traced _ h := by cases h
  fresh _ h := by cases h
  distinct := .nil
  referenced _ h := by cases h

/-- Every visible row has the constrained columns of a committed row or of an inserted one. -/
theorem Sound.source {rows : List Row} {log : List (Access Row)} (h : Sound S rows log) {row : Row}
    (hrow : row ∈ visible rows log) :
    ∃ row' ∈ rows ++ added log, S.columns row' = S.columns row := by
  have hmem := List.mem_map_of_mem (f := S.columns) hrow
  rw [columns_visible h.kept rows] at hmem
  exact List.mem_map.mp hmem

/-- Every committed row and every inserted one has a visible version. -/
theorem Sound.version {rows : List Row} {log : List (Access Row)} (h : Sound S rows log)
    {row : Row} (hrow : row ∈ rows ++ added log) :
    ∃ row' ∈ visible rows log, S.columns row' = S.columns row := by
  have hmem := List.mem_map_of_mem (f := S.columns) hrow
  rw [← columns_visible h.kept rows] at hmem
  exact List.mem_map.mp hmem

/-- **Committing a sound log keeps every constraint.** -/
theorem Sound.consistent_visible {rows : List Row} {log : List (Access Row)}
    (h : Sound S rows log) (hrows : S.Consistent rows) : S.Consistent (visible rows log) := by
  constructor
  · have hpair : (rows ++ added log).Pairwise fun row other => ¬S.Clash row other := by
      refine List.pairwise_append.mpr ⟨hrows.unique, h.distinct, ?_⟩
      intro row hrow new hnew hclash
      exact h.fresh new hnew row hrow hclash.symm
    exact Schema.pairwise_of_columns (columns_visible h.kept rows).symm hpair
  · intro row hrow key hkey
    obtain ⟨row', hrow', hsame⟩ := h.source hrow
    have hrefs : S.references row' = S.references row := congrArg Columns.references hsame
    have hmet : ∃ other ∈ rows ++ added log, S.key other = key := by
      rw [← hrefs] at hkey
      rcases List.mem_append.mp hrow' with hold | hnew
      · obtain ⟨other, hother, hkey⟩ := hrows.referenced row' hold key hkey
        exact ⟨other, List.mem_append_left _ hother, hkey⟩
      · exact h.referenced row' hnew key hkey
    obtain ⟨other, hother, rfl⟩ := hmet
    obtain ⟨other', hother', hsame⟩ := h.version hother
    exact ⟨other', hother', Schema.key_eq_of_columns hsame⟩

omit [DecidableEq Row] in
theorem Sound.selected {rows : List Row} {log : List (Access Row)} (h : Sound S rows log)
    (p : Row → Bool) (found : List Row) : Sound S rows (log ++ [.selected p found]) := by
  have hwritten : written (log ++ [.selected p found]) = written log := by
    rw [written_append]
    exact List.append_nil _
  have hadded : added (log ++ [.selected p found]) = added log := by
    rw [added_append]
    exact List.append_nil _
  have hupdated : ∀ old new, .updated old new ∈ log ++ [.selected p found] →
      .updated old new ∈ log := by
    intro old new hmem
    simpa using hmem
  exact ⟨fun old new hmem => h.kept old new (hupdated old new hmem),
    fun old new hmem => hwritten ▸ h.grounded old new (hupdated old new hmem),
    hwritten ▸ hadded ▸ h.traced, hadded ▸ h.fresh, hadded ▸ h.distinct, hadded ▸ h.referenced⟩

/-- Updating a row the transaction sees. -/
theorem Sound.updated {rows : List Row} {log : List (Access Row)} (h : Sound S rows log)
    (assign : Assignment S) {row : Row} (hrow : row ∈ visible rows log) :
    Sound S rows (log ++ [.updated row (assign.apply row)]) := by
  have hadded : added (log ++ [.updated row (assign.apply row)]) = added log := by
    rw [added_append]
    exact List.append_nil _
  refine ⟨?_, ?_, ?_, hadded ▸ h.fresh, hadded ▸ h.distinct, hadded ▸ h.referenced⟩
  · intro old new hmem
    rcases List.mem_append.mp hmem with hmem | hmem
    · exact h.kept old new hmem
    · cases List.mem_singleton.mp hmem
      exact assign.columns_apply row
  · intro old new hmem
    rw [written_append, List.mem_append]
    rcases List.mem_append.mp hmem with hmem | hmem
    · exact (h.grounded old new hmem).imp_right .inl
    · cases List.mem_singleton.mp hmem
      exact (mem_visible hrow).imp_right .inl
  · rw [written_append, hadded]
    intro new hnew
    rcases List.mem_append.mp hnew with hnew | hnew
    · exact h.traced new hnew
    · cases List.mem_singleton.mp hnew
      obtain ⟨source, hsource, hsame⟩ := h.source hrow
      exact ⟨source, hsource, hsame.trans (assign.columns_apply row).symm⟩

/-- Inserting a row that nothing refuses. -/
theorem Sound.inserted {rows : List Row} {log : List (Access Row)} (h : Sound S rows log)
    {new : Row} (hnew : S.refuse (visible rows log) new = none) :
    Sound S rows (log ++ [.inserted new]) := by
  have hadded : added (log ++ [.inserted new]) = added log ++ [new] := added_append ..
  obtain ⟨hfree, hrefs⟩ := Schema.refuse_eq_none.mp hnew
  have hunclashed : ∀ row ∈ rows ++ added log, ¬S.Clash new row := by
    intro row hrow hclash
    obtain ⟨row', hrow', hsame⟩ := h.version hrow
    exact hfree row' hrow' ((Schema.clash_congr rfl hsame).mpr hclash)
  refine ⟨?_, ?_, ?_, ?_, ?_, ?_⟩
  · intro old new hmem
    exact h.kept old new (by simpa using hmem)
  · intro old new hmem
    rw [written_append, List.mem_append]
    exact (h.grounded old new (by simpa using hmem)).imp_right .inl
  · rw [written_append, hadded, ← List.append_assoc]
    intro row hrow
    rcases List.mem_append.mp hrow with hrow | hrow
    · obtain ⟨source, hsource, hsame⟩ := h.traced row hrow
      exact ⟨source, List.mem_append_left _ hsource, hsame⟩
    · cases List.mem_singleton.mp hrow
      exact ⟨new, List.mem_append_right _ (List.mem_singleton_self _), rfl⟩
  · rw [hadded]
    intro row hrow other hother
    rcases List.mem_append.mp hrow with hrow | hrow
    · exact h.fresh row hrow other hother
    · cases List.mem_singleton.mp hrow
      exact hunclashed other (List.mem_append_left _ hother)
  · rw [hadded]
    refine List.pairwise_append.mpr ⟨h.distinct, List.pairwise_singleton .., ?_⟩
    intro row hrow other hother hclash
    cases List.mem_singleton.mp hother
    exact hunclashed row (List.mem_append_right _ hrow) hclash.symm
  · rw [hadded]
    intro row hrow key hkey
    rcases List.mem_append.mp hrow with hrow | hrow
    · obtain ⟨other, hother, heq⟩ := h.referenced row hrow key hkey
      refine ⟨other, ?_, heq⟩
      rw [← List.append_assoc]
      exact List.mem_append_left _ hother
    · cases List.mem_singleton.mp hrow
      obtain ⟨other, hother, rfl⟩ := hrefs key hkey
      obtain ⟨other', hother', hsame⟩ := h.source hother
      refine ⟨other', ?_, Schema.key_eq_of_columns hsame⟩
      rw [← List.append_assoc]
      exact List.mem_append_left _ hother'

omit [DecidableEq Row] in
/-- A version written by a sound log that clashes with a committed row is a version of that row. -/
theorem Sound.key_eq_of_clash {rows : List Row} {log : List (Access Row)} (h : Sound S rows log)
    (hrows : S.Consistent rows) {row new : Row} (hrow : row ∈ rows) (hnew : new ∈ written log)
    (hclash : S.Clash row new) : S.key new = S.key row := by
  obtain ⟨source, hsource, hsame⟩ := h.traced new hnew
  have hclash : S.Clash row source := (Schema.clash_congr rfl hsame).mpr hclash
  rcases List.mem_append.mp hsource with hold | hadded
  · rw [hrows.eq_of_clash hrow hold hclash]
    exact (Schema.key_eq_of_columns hsame).symm
  · exact absurd hclash.symm (h.fresh source hadded row hrow)

/-- **A log stays sound when another one is committed**, as long as the versions the two have
written do not clash. -/
theorem Sound.commit {rows : List Row} {log other : List (Access Row)} (h : Sound S rows log)
    (hother : Sound S rows other)
    (hapart : ∀ row ∈ written log, ∀ row' ∈ written other, ¬S.Clash row row') :
    Sound S (visible rows other) log := by
  -- a row both have found in place has been replaced by neither
  have hstays : ∀ old new, .updated old new ∈ log → old ∈ rows → old ∈ visible rows other := by
    intro old new hmem hold
    refine visible_of_not_updated hold fun new' hmem' => ?_
    refine hapart new (List.mem_filterMap.mpr ⟨_, hmem, rfl⟩) new'
      (List.mem_filterMap.mpr ⟨_, hmem', rfl⟩) (Schema.clash_of_key_eq ?_)
    exact Schema.key_eq_of_columns ((h.kept old new hmem).trans (hother.kept old new' hmem').symm)
  have hversion : ∀ row ∈ rows ++ added log, ∃ row' ∈ visible rows other ++ added log,
      S.columns row' = S.columns row := by
    intro row hrow
    rcases List.mem_append.mp hrow with hrow | hrow
    · obtain ⟨row', hrow', hsame⟩ := hother.version (List.mem_append_left _ hrow)
      exact ⟨row', List.mem_append_left _ hrow', hsame⟩
    · exact ⟨row, List.mem_append_right _ hrow, rfl⟩
  refine ⟨h.kept, ?_, ?_, ?_, h.distinct, ?_⟩
  · intro old new hmem
    exact (h.grounded old new hmem).imp_left (hstays old new hmem)
  · intro new hnew
    obtain ⟨source, hsource, hsame⟩ := h.traced new hnew
    obtain ⟨source', hsource', hsame'⟩ := hversion source hsource
    exact ⟨source', hsource', hsame'.trans hsame⟩
  · intro new hnew row hrow
    rcases mem_visible hrow with hrow | hrow
    · exact h.fresh new hnew row hrow
    · exact hapart new (added_subset_written hnew) row hrow
  · intro new hnew key hkey
    obtain ⟨row, hrow, rfl⟩ := h.referenced new hnew key hkey
    obtain ⟨row', hrow', hsame⟩ := hversion row hrow
    exact ⟨row', hrow', Schema.key_eq_of_columns hsame⟩

end Replayed

/-! ### Keeping to the rows of an owner -/

section Owned

/-- Two databases agree on the rows of an owner. -/
def AgreeOn (own : Row → Bool) (rows rows' : List Row) : Prop := rows.filter own = rows'.filter own

/-- Everything the log wrote, and every version it replaced, is the owner's. -/
structure Owned (own : Row → Bool) (log : List (Access Row)) : Prop where
  old : ∀ old new, .updated old new ∈ log → own old = true
  new : ∀ row ∈ written log, own row = true

theorem owned_nil (own : Row → Bool) : Owned own [] where
  old _ _ h := by cases h
  new _ h := by cases h

theorem Owned.append {own : Row → Bool} {log more : List (Access Row)} (h : Owned own log)
    (hmore : Owned own more) : Owned own (log ++ more) := by
  constructor
  · intro old new hmem
    rcases List.mem_append.mp hmem with hmem | hmem
    · exact h.old old new hmem
    · exact hmore.old old new hmem
  · intro row hrow
    rw [written_append] at hrow
    rcases List.mem_append.mp hrow with hrow | hrow
    · exact h.new row hrow
    · exact hmore.new row hrow

theorem owned_selected (own : Row → Bool) (p : Row → Bool) (rows : List Row) :
    Owned own [.selected p rows] :=
  ⟨fun _ _ h => by simp at h, fun _ h => by cases h⟩

theorem owned_inserted {own : Row → Bool} {row : Row} (h : own row = true) :
    Owned own [.inserted row] := by
  refine ⟨fun _ _ h => by simp at h, ?_⟩
  intro row' hrow'
  cases List.mem_singleton.mp hrow'
  exact h

/-- Updating rows of the owner to rows of the owner. -/
theorem owned_updated {own : Row → Bool} {f : Row → Row} {rows : List Row}
    (h : ∀ row ∈ rows, own row = true ∧ own (f row) = true) :
    Owned own (rows.map fun row => .updated row (f row)) := by
  constructor
  · intro old new hmem
    obtain ⟨row, hrow, heq⟩ := List.mem_map.mp hmem
    cases heq
    exact (h old hrow).1
  · intro new hnew
    obtain ⟨access, haccess, hnew⟩ := List.mem_filterMap.mp hnew
    obtain ⟨row, hrow, rfl⟩ := List.mem_map.mp haccess
    cases hnew
    exact (h row hrow).2

/-- A statement's predicate that holds of the owner's rows only picks the same rows of databases
that agree on them. -/
theorem AgreeOn.filter {own p : Row → Bool} {rows rows' : List Row} (h : AgreeOn own rows rows')
    (hp : ∀ row, p row = true → own row = true) : rows.filter p = rows'.filter p := by
  have hboth (l : List Row) : l.filter p = (l.filter own).filter p := by
    rw [List.filter_filter]
    refine List.filter_congr fun row _ => ?_
    cases hrow : p row with
    | false => rfl
    | true => simp [hp row hrow]
  rw [hboth rows, hboth rows', h]

/-- A row of the owner is in both databases. -/
theorem AgreeOn.mem {own : Row → Bool} {rows rows' : List Row} (h : AgreeOn own rows rows')
    {row : Row} (hrow : row ∈ rows) (hown : own row = true) : row ∈ rows' := by
  have hmem : row ∈ rows.filter own := List.mem_filter.mpr ⟨hrow, hown⟩
  rw [h] at hmem
  exact (List.mem_filter.mp hmem).1

theorem AgreeOn.symm {own : Row → Bool} {rows rows' : List Row} (h : AgreeOn own rows rows') :
    AgreeOn own rows' rows := Eq.symm h

variable [DecidableEq Row]

/-- Replaying a log of one owner over databases that agree on that owner's rows. -/
theorem AgreeOn.visible {own : Row → Bool} {rows rows' : List Row} (h : AgreeOn own rows rows')
    {log : List (Access Row)} (hlog : Owned own log) :
    AgreeOn own (visible rows log) (visible rows' log) := by
  induction log generalizing rows rows' with
  | nil => exact h
  | cons access log ih =>
      have hrest : Owned own log := by
        refine ⟨fun old new hmem => hlog.old old new (List.mem_cons_of_mem _ hmem), ?_⟩
        intro row hrow
        exact hlog.new row (by
          rw [show access :: log = [access] ++ log from rfl, written_append]
          exact List.mem_append_right _ hrow)
      refine ih ?_ hrest
      cases access with
      | selected p found => exact h
      | updated old new =>
          have hold : own old = true := hlog.old old new (List.mem_cons_self ..)
          have hnew : own new = true := hlog.new new (List.mem_cons_self ..)
          -- the replacement turns the owner's rows into the owner's, and others' into others'
          have hsame : (own ∘ fun row => if row = old then new else row) = own := by
            funext row
            by_cases hrow : row = old
            · simp [hrow, hold, hnew]
            · simp [hrow]
          simp only [AgreeOn, Access.replay, List.filter_map, hsame]
          exact congrArg _ h
      | inserted new =>
          simp only [AgreeOn, Access.replay, List.filter_append]
          exact congrArg (· ++ _) h

variable [DecidableEq Key] [DecidableEq Val] {S : Schema Row Key Index Val}

/-- Run over `rows`, the transaction selects, updates and inserts rows of the owner only, and what
it inserts is refused by `rows` and by `rows'` alike. -/
def Tx.Isolated (own : Row → Bool) (rows rows' : List Row) : Tx S α → List (Access Row) → Prop
  | .done _, _ => True
  | .select p next, log =>
      (∀ row, p row = true → own row = true) ∧
        (next ((Transactions.visible rows log).filter p)).Isolated own rows rows'
          (log ++ [.selected p ((Transactions.visible rows log).filter p)])
  | .update p assign next, log =>
      (∀ row, p row = true → own row = true ∧ own (assign.apply row) = true) ∧
        (next (((Transactions.visible rows log).filter p).map assign.apply)).Isolated own rows rows'
          (log ++ ((Transactions.visible rows log).filter p).map fun row =>
            .updated row (assign.apply row))
  | .insert row next, log =>
      own row = true ∧
        S.refuse (Transactions.visible rows log) row
          = S.refuse (Transactions.visible rows' log) row ∧
        (S.refuse (Transactions.visible rows log) row = none →
          next.Isolated own rows rows' (log ++ [.inserted row]))

namespace Tx

variable {own : Row → Bool} {rows rows' : List Row} {log : List (Access Row)}

theorem isolated_query {p : Row → Bool} {f : List Row → Tx S α} :
    (query p >>= f).Isolated own rows rows' log ↔
      (∀ row, p row = true → own row = true) ∧
        (f ((Transactions.visible rows log).filter p)).Isolated own rows rows'
          (log ++ [.selected p ((Transactions.visible rows log).filter p)]) := Iff.rfl

theorem isolated_modify {p : Row → Bool} {assign : Assignment S} {f : List Row → Tx S α} :
    (modify p assign >>= f).Isolated own rows rows' log ↔
      (∀ row, p row = true → own row = true ∧ own (assign.apply row) = true) ∧
        (f (((Transactions.visible rows log).filter p).map assign.apply)).Isolated own rows rows'
          (log ++ ((Transactions.visible rows log).filter p).map fun row =>
            .updated row (assign.apply row)) := Iff.rfl

/-- Handing on a result touches nothing. -/
theorem Isolated.map {body : Tx S α} (h : body.Isolated own rows rows' log) (f : α → β) :
    (body >>= fun result => pure (f result)).Isolated own rows rows' log := by
  change (body.bind fun result => .done (f result)).Isolated own rows rows' log
  induction body generalizing log with
  | done result => trivial
  | select p next ih => exact ⟨h.1, ih _ h.2⟩
  | update p assign next ih => exact ⟨h.1, ih _ h.2⟩
  | insert row next ih => exact ⟨h.1, h.2.1, fun hnone => ih (h.2.2 hnone)⟩

/-- An insertion looks at constrained columns alone, so what updates have done does not matter to
it. -/
theorem isolated_add {row : Row} {f : Unit → Tx S α}
    (hkept : ∀ old new, .updated old new ∈ log → S.columns new = S.columns old)
    (hown : own row = true)
    (hrefuse : S.refuse (rows ++ added log) row = S.refuse (rows' ++ added log) row)
    (hnext : (f ()).Isolated own rows rows' (log ++ [.inserted row])) :
    (add row >>= f).Isolated own rows rows' log := by
  refine ⟨hown, ?_, fun _ => hnext⟩
  rw [Schema.refuse_of_columns (columns_visible hkept rows),
    Schema.refuse_of_columns (columns_visible hkept rows'), hrefuse]

end Tx

/-- **A transaction that keeps to its owner's rows does the same over any two databases that agree
on them**: the same result, and the same accesses. -/
theorem Tx.exec_congr {own : Row → Bool} {rows rows' : List Row} (hrows : AgreeOn own rows rows')
    {body : Tx S α} {log : List (Access Row)} (hlog : Owned own log)
    (hbody : body.Isolated own rows rows' log) : body.exec rows log = body.exec rows' log := by
  induction body generalizing log with
  | done result => rfl
  | select p next ih =>
      obtain ⟨hp, hnext⟩ := hbody
      have hfound := (hrows.visible hlog).filter hp
      simp only [Tx.exec, ← hfound]
      exact ih _ (hlog.append (owned_selected ..)) hnext
  | update p assign next ih =>
      obtain ⟨hp, hnext⟩ := hbody
      have hfound := (hrows.visible hlog).filter fun row hrow => (hp row hrow).1
      simp only [Tx.exec, ← hfound]
      refine ih _ (hlog.append (owned_updated ?_)) hnext
      exact fun row hrow => hp row (List.mem_filter.mp hrow).2
  | insert row next ih =>
      obtain ⟨hown, hrefuse, hnext⟩ := hbody
      simp only [Tx.exec, ← hrefuse]
      cases hnone : S.refuse (Transactions.visible rows log) row with
      | some error => rfl
      | none => exact ih (hlog.append (owned_inserted hown)) (hnext hnone)

/-- What such a transaction writes is the owner's. -/
theorem Tx.owned_exec {own : Row → Bool} {rows rows' : List Row} {body : Tx S α}
    {log log' : List (Access Row)} {result : α} (hlog : Owned own log)
    (hbody : body.Isolated own rows rows' log) (h : body.exec rows log = .ok (result, log')) :
    Owned own log' := by
  induction body generalizing log with
  | done value =>
      cases h
      exact hlog
  | select p next ih => exact ih _ (hlog.append (owned_selected ..)) hbody.2 h
  | update p assign next ih =>
      refine ih _ (hlog.append (owned_updated ?_)) hbody.2 h
      exact fun row hrow => hbody.1 row (List.mem_filter.mp hrow).2
  | insert row next ih =>
      simp only [Tx.exec] at h
      split at h
      · cases h
      · rename_i hnone
        exact ih (hlog.append (owned_inserted hbody.1)) (hbody.2.2 hnone) h

end Owned

end Transactions
