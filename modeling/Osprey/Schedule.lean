/-
**What happens between a statement of a transaction and its commit.**

Under READ COMMITTED a transaction acts at its commit on what one of its statements saw earlier.
What the others commit in between decides whether that is still so.

Main definitions:

* `ReadCommitted.CommitAt`, `ReadCommitted.Stretch` — a commit of a run, and a part of it from a
  step of a transaction to its commit;
* `ReadCommitted.Undisturbed` — no transaction of a kind commits in such a stretch;
* `ReadCommitted.Through` — every way through a transaction to a result of a kind comes by a
  statement of a kind.

Main results:

* `ReadCommitted.committed_of_commits`, `ReadCommitted.committed_along` — what the commits of a run,
  and of a stretch of it, keep holds at its end;
* `ReadCommitted.updated_of_snapshot` — **an `UPDATE` reaches every row of its snapshot that its
  predicate still holds of when the transaction commits**;
* `ReadCommitted.stretch_of_selected`, `ReadCommitted.stretch_of_through` — the stretch from a read
  in the log, and from a statement that cannot be gone round;
* `ReadCommitted.undisturbed_of_alone` — one after the other, transactions do not disturb each
  other.
-/

import Osprey.ReadCommitted

set_option relaxedAutoImplicit false
set_option autoImplicit false

namespace ReadCommitted

open Transactions

variable {Row Key Index Val Call α : Type} {S : Schema Row Key Index Val}

/-! ### Ways through a transaction -/

/-- Every way through the transaction to a result such as `R` comes by a rest of it such as `Q`. -/
inductive Through (Q : Tx S α → Prop) (R : α → Prop) : Tx S α → Prop
  | here {body : Tx S α} (h : Q body) : Through Q R body
  | done {result : α} (h : ¬R result) : Through Q R (.done result)
  | select {p : Row → Bool} {next : List Row → Tx S α} (h : ∀ rows, Through Q R (next rows)) :
      Through Q R (.select p next)
  | update {p : Row → Bool} {assign : Assignment S} {next : List Row → Tx S α}
      (h : ∀ rows, Through Q R (next rows)) : Through Q R (.update p assign next)
  | insert {row : Row} {next : Tx S α} (h : Through Q R next) : Through Q R (.insert row next)

/-- What is left of the transaction comes by such a rest.  While an `UPDATE` is under way, after
it. -/
def Txn.Through (Q : Tx S α → Prop) (R : α → Prop) (x : Txn S Call α) : Prop :=
  match x.body, x.cursor with
  | .update _ _ next, some _ => ∀ rows, ReadCommitted.Through Q R (next rows)
  | body, _ => ReadCommitted.Through Q R body

theorem Txn.through_of_cursor {Q : Tx S α → Prop} {R : α → Prop} {x : Txn S Call α}
    (h : x.cursor = none) : x.Through Q R ↔ ReadCommitted.Through Q R x.body := by
  unfold Txn.Through
  cases x.body <;> simp [h]

/-- The transaction is about to begin its next statement. -/
def Txn.Begins (x : Txn S Call α) : Prop :=
  ∀ p assign next, x.body = .update p assign next → x.cursor = none

variable [DecidableEq Row] [DecidableEq Key] [DecidableEq Val]

/-- A step that does not end a transaction comes by such a rest, or leaves it to come. -/
theorem Advance.through {Q : Tx S α → Prop} {R : α → Prop} {s : Store S Call α} {t : ℕ}
    {x x' : Txn S Call α} (h : Advance s t x x') (hx : x.Through Q R) :
    x'.Through Q R ∨ (Q x.body ∧ x.Begins) := by
  cases h with
  | select p next hbody =>
      simp only [Txn.Through, hbody] at hx
      cases hx with
      | here hQ => exact .inr ⟨hbody ▸ hQ, fun _ _ _ heq => by cases hbody.symm.trans heq⟩
      | select h => exact .inl ((Txn.through_of_cursor rfl).mpr (h _))
  | scan p assign next hbody hcursor =>
      rw [Txn.through_of_cursor hcursor, hbody] at hx
      cases hx with
      | here hQ => exact .inr ⟨hbody ▸ hQ, fun _ _ _ _ => hcursor⟩
      | update h =>
          refine .inl ?_
          simp only [Txn.Through, hbody]
          exact h
  | skip p assign next hbody key keys rows hcursor hgone =>
      simp only [Txn.Through, hbody, hcursor] at hx ⊢
      exact .inl hx
  | visit p assign next hbody row keys rows hcursor hrow hp hfree =>
      simp only [Txn.Through, hbody, hcursor] at hx ⊢
      exact .inl hx
  | finish p assign next hbody rows hcursor =>
      simp only [Txn.Through, hbody, hcursor] at hx
      exact .inl ((Txn.through_of_cursor rfl).mpr (hx rows))
  | insert row next hbody hrefuse hfree =>
      simp only [Txn.Through, hbody] at hx
      cases hx with
      | here hQ => exact .inr ⟨hbody ▸ hQ, fun _ _ _ heq => by cases hbody.symm.trans heq⟩
      | insert h => exact .inl ((Txn.through_of_cursor rfl).mpr h)

/-! ### Stretches of a run -/

/-- A part of the run over `events`: transaction `t`, then `x`, takes a step in the store `u`, and
after the moves of `mid` it is `y` in the store `v`, where it commits with the result. -/
structure Stretch (program : Call → Tx S α) (rows : List Row) (events : List (Event Call)) (t : ℕ)
    (u : Store S Call α) (x : Txn S Call α) (mid : List (Event Call)) (v : Store S Call α)
    (y : Txn S Call α) (result : α) : Prop where
  within : ∃ done, done ++ .exec t :: (mid ++ [.exec t]) <+: events ∧
    Transition.run (step program) (.init rows) done = some u
  first : u.txns[t]? = some x
  between : Transition.run (step program) u (.exec t :: mid) = some v
  last : v.txns[t]? = some y
  commits : y.outcome = none ∧ y.body = .done result

/-- Transaction `t`, then `x`, commits with the result in the store `s`, after the moves of `done`:
what holds at every commit of a run whose programs keep the guarantees `P`. -/
structure CommitAt (P : Call → List (Access Row) → α → Prop) (program : Call → Tx S α)
    (rows : List Row) (events : List (Event Call)) (done : List (Event Call)) (t : ℕ)
    (s : Store S Call α) (x : Txn S Call α) (result : α) : Prop where
  within : done ++ [.exec t] <+: events
  reached : Transition.run (step program) (.init rows) done = some s
  txn : s.txns[t]? = some x
  commits : x.outcome = none ∧ x.body = .done result
  consistent : S.Consistent s.committed
  sound : Sound S s.committed x.log
  kept : P x.call x.log result

/-- Between a step of a transaction such as `reads` and its commit, if it is then such as `acts`, no
transaction such as `spoils` commits. -/
def Undisturbed (program : Call → Tx S α) (rows : List Row) (events : List (Event Call))
    (reads acts spoils : Txn S Call α → Prop) : Prop :=
  ∀ t u x mid v y result, Stretch program rows events t u x mid v y result → reads x → acts y →
    Transition.Meets (step program) (AtCommits fun _ z _ => ¬spoils z) u (.exec t :: mid)

variable {P : Call → List (Access Row) → α → Prop} {program : Call → Tx S α} {rows : List Row}
  {events : List (Event Call)}

/-- The stretch from a read in the log of a transaction that commits. -/
theorem stretch_of_selected {s : Store S Call α} {done : List (Event Call)} {t : ℕ}
    {y : Txn S Call α} {result : α} (h : CommitAt P program rows events done t s y result)
    {before after : List (Access Row)} {p : Row → Bool} {found : List Row}
    (hlog : y.log = before ++ .selected p found :: after) :
    ∃ u x mid, Stretch program rows events t u x mid s y result ∧
      (∃ next, x.body = .select p next) ∧ found = (visible u.committed before).filter p := by
  obtain ⟨first, mid, u, x, next, rfl, hu, hx, hbody, -, hfound⟩ :=
    selected_at h.reached h.txn hlog
  obtain ⟨u', hu', hmid⟩ := Transition.run_append.mp h.reached
  cases hu.symm.trans hu'
  refine ⟨u, x, mid, ⟨⟨first, ?_, hu⟩, hx, hmid, h.txn, h.commits⟩, ⟨next, hbody⟩, hfound⟩
  simpa using h.within

/-- The run over `events` has a step of transaction `t` from a rest of it such as `Q`, at the
beginning of a statement. -/
def PassedAt (program : Call → Tx S α) (rows : List Row) (events : List (Event Call)) (t : ℕ)
    (Q : Tx S α → Prop) : Prop :=
  ∃ done mid u x, events = done ++ .exec t :: mid ∧
    Transition.run (step program) (.init rows) done = some u ∧ u.txns[t]? = some x ∧
    Q x.body ∧ x.Begins

theorem PassedAt.append {t : ℕ} {Q : Tx S α → Prop} (h : PassedAt program rows events t Q)
    (event : Event Call) : PassedAt program rows (events ++ [event]) t Q := by
  obtain ⟨done, mid, u, x, rfl, hpassed⟩ := h
  exact ⟨done, mid ++ [event], u, x, by simp, hpassed⟩

/-- A transaction in progress still has such a rest to come by, or has passed one. -/
theorem through_or_passed {Q : Tx S α → Prop} {R : α → Prop}
    {s : Store S Call α} (h : Transition.run (step program) (.init rows) events = some s) {t : ℕ}
    {x : Txn S Call α} (hx : s.txns[t]? = some x) (hopen : x.outcome = none)
    (hthrough : Through Q R (program x.call)) :
    x.Through Q R ∨ PassedAt program rows events t Q := by
  induction events using List.reverseRecOn generalizing s x with
  | nil =>
      cases h
      simp [Store.init] at hx
  | append_singleton events event ih =>
      obtain ⟨u, hu, hlast⟩ := Transition.run_append.mp h
      obtain ⟨s', hstep, hs'⟩ := Transition.run_cons_eq_some.mp hlast
      cases hs'
      have hsame (hx : u.txns[t]? = some x) :
          x.Through Q R ∨ PassedAt program rows (events ++ [event]) t Q :=
        (ih hu hx hopen hthrough).imp_right (·.append event)
      cases move_of_step hstep with
      | start call =>
          rcases append_cases hx with rfl | hx
          · exact .inl ((Txn.through_of_cursor rfl).mpr hthrough)
          · exact hsame hx
      | advance t' y y' hy hyopen hadvance =>
          rcases put_cases hx with ⟨rfl, rfl⟩ | ⟨-, hx⟩
          · rw [hadvance.keeps.1] at hthrough
            rcases ih hu hy hyopen hthrough with hleft | hpassed
            · rcases hadvance.through hleft with hleft | ⟨hQ, hbegins⟩
              · exact .inl hleft
              · exact .inr ⟨events, [], u, y, rfl, hu, hy, hQ, hbegins⟩
            · exact .inr (hpassed.append _)
          · exact hsame hx
      | commit t' y hy hyopen result hbody =>
          rcases put_cases hx with ⟨rfl, rfl⟩ | ⟨-, hx⟩
          · cases hopen
          · exact hsame hx
      | fail _ t' y hy hyopen error =>
          rcases put_cases hx with ⟨rfl, rfl⟩ | ⟨-, hx⟩
          · cases hopen
          · exact hsame hx

/-- The stretch from a statement that cannot be gone round on the way to the result. -/
theorem stretch_of_through {Q : Tx S α → Prop} {R : α → Prop} {s : Store S Call α}
    {done : List (Event Call)} {t : ℕ} {y : Txn S Call α} {result : α}
    (h : CommitAt P program rows events done t s y result)
    (hthrough : Through Q R (program y.call)) (hR : R result) (hQ : ¬Q (.done result)) :
    ∃ u x mid, Stretch program rows events t u x mid s y result ∧ Q x.body ∧ x.Begins := by
  have hpassed : PassedAt program rows done t Q := by
    refine (through_or_passed h.reached h.txn h.commits.1 hthrough).resolve_left fun hleft => ?_
    simp only [Txn.Through, h.commits.2] at hleft
    cases hleft with
    | here h => exact hQ h
    | done h => exact h hR
  obtain ⟨first, mid, u, x, rfl, hu, hx, hbody, hbegins⟩ := hpassed
  obtain ⟨u', hu', hmid⟩ := Transition.run_append.mp h.reached
  cases hu.symm.trans hu'
  refine ⟨u, x, mid, ⟨⟨first, ?_, hu⟩, hx, hmid, h.txn, h.commits⟩, hbody, hbegins⟩
  simpa using h.within

/-- A transaction that has committed did so at a step of the run, with the log it has. -/
theorem committed_at {s : Store S Call α}
    (h : Transition.run (step program) (.init rows) events = some s) {t : ℕ} {x : Txn S Call α}
    {result : α} (hx : s.Committed t x result) :
    ∃ done rest u y, events = done ++ .exec t :: rest ∧
      Transition.run (step program) (.init rows) done = some u ∧ u.txns[t]? = some y ∧
      y.outcome = none ∧ y.body = .done result ∧ y.call = x.call ∧ y.log = x.log := by
  induction events using List.reverseRecOn generalizing s with
  | nil =>
      cases h
      simp [Store.init, Store.Committed] at hx
  | append_singleton events event ih =>
      obtain ⟨u, hu, hlast⟩ := Transition.run_append.mp h
      obtain ⟨s', hstep, hs'⟩ := Transition.run_cons_eq_some.mp hlast
      cases hs'
      have hearlier (hx : u.Committed t x result) : ∃ done rest u y,
          events ++ [event] = done ++ .exec t :: rest ∧
          Transition.run (step program) (.init rows) done = some u ∧ u.txns[t]? = some y ∧
          y.outcome = none ∧ y.body = .done result ∧ y.call = x.call ∧ y.log = x.log := by
        obtain ⟨done, rest, v, y, rfl, hy⟩ := ih hu hx
        exact ⟨done, rest ++ [event], v, y, by simp, hy⟩
      rcases (move_of_step hstep).commit_or_quiet with
        ⟨t', y, result', rfl, hy, hopen, hbody, rfl⟩ | ⟨-, hsame⟩
      · rcases committed_commit hx with ⟨rfl, rfl, rfl⟩ | ⟨-, hold⟩
        · exact ⟨events, [], u, y, rfl, hu, hy, hopen, hbody, rfl, rfl⟩
        · exact hearlier hold
      · exact hearlier ((hsame t x result).mp hx)

/-! ### What holds at the end of a stretch -/

section Along

/-- The logs of a run are sound and the guarantees kept. -/
theorem kept_of_run (hprogram : ∀ call, (program call).Ensures (P call) [])
    (hrows : S.Consistent rows) {s : Store S Call α}
    (h : Transition.run (step program) (.init rows) events = some s) :
    Coherent s ∧ Guaranteed P s :=
  ⟨coherent_of_run (coherent_init hrows) h, guaranteed_of_run hprogram (guaranteed_init _ _) h⟩

/-- **An invariant of the committed rows is checked at the commits of the run**, each with the moves
before it at hand. -/
theorem committed_of_commits (hprogram : ∀ call, (program call).Ensures (P call) [])
    (hrows : S.Consistent rows) {J : List Row → Prop} (hinit : J rows)
    (hcommit : ∀ done t (s : Store S Call α) x result,
      CommitAt P program rows events done t s x result → J s.committed →
        J (visible s.committed x.log))
    {done : List (Event Call)} (hdone : done <+: events) {s : Store S Call α}
    (h : Transition.run (step program) (.init rows) done = some s) : J s.committed := by
  induction done using List.reverseRecOn generalizing s with
  | nil =>
      cases h
      exact hinit
  | append_singleton done event ih =>
      obtain ⟨u, hu, hlast⟩ := Transition.run_append.mp h
      obtain ⟨s', hstep, hs'⟩ := Transition.run_cons_eq_some.mp hlast
      cases hs'
      have hJ := ih ((List.prefix_append ..).trans hdone) hu
      obtain ⟨hcoherent, hguaranteed⟩ := kept_of_run hprogram hrows hu
      rcases (move_of_step hstep).commit_or_quiet with
        ⟨t, x, result, rfl, hx, hopen, hbody, rfl⟩ | ⟨hsame, -⟩
      · have hrest := hguaranteed.rest t x hx hopen
        simp only [Txn.Ensures, hbody] at hrest
        exact hcommit done t u x result ⟨hdone, hu, hx, ⟨hopen, hbody⟩, hcoherent.consistent,
          hcoherent.sound t x hx hopen, hrest⟩ hJ
      · rwa [hsame]

/-- **What the commits of a stretch keep holds at its end**, where no transaction such as `Q`
commits. -/
theorem committed_along (hprogram : ∀ call, (program call).Ensures (P call) [])
    {Q : Txn S Call α → Prop} {J : List Row → Prop}
    (hcommit : ∀ rows (x : Txn S Call α) result, J rows → S.Consistent rows →
      Sound S rows x.log → P x.call x.log result → ¬Q x → J (visible rows x.log))
    {u v : Store S Call α} (hu : Coherent u ∧ Guaranteed P u) (hJ : J u.committed)
    (hmeets : Transition.Meets (step program) (AtCommits fun _ x _ => ¬Q x) u events)
    (hrun : Transition.run (step program) u events = some v) : J v.committed := by
  have hall : (Coherent v ∧ Guaranteed P v) ∧ J v.committed := by
    refine Transition.run_invariant
      (I := fun s => (Coherent s ∧ Guaranteed P s) ∧ J s.committed) ?_ ⟨hu, hJ⟩ hmeets hrun
    rintro s event s' ⟨⟨hs, hP⟩, hJ⟩ hmeets hstep
    have hmove := move_of_step hstep
    refine ⟨⟨coherent_of_move hs hmove, guaranteed_of_move hprogram hP hmove⟩, ?_⟩
    rcases hmove.commit_or_quiet with ⟨t, x, result, rfl, hx, hopen, hbody, rfl⟩ | ⟨hsame, -⟩
    · have hrest := hP.rest t x hx hopen
      simp only [Txn.Ensures, hbody] at hrest
      exact hcommit _ x result hJ hs.consistent (hs.sound t x hx hopen) hrest
        (hmeets t x result rfl hx hopen hbody)
    · rwa [hsame]
  exact hall.2

/-- The state of a transaction whose `UPDATE` has taken its snapshot: a committed row with a key of
the snapshot that the predicate holds of is still to be visited, or has been updated. -/
def Txn.Visits (p : Row → Bool) (keys : List Key) (committed : List Row) (x : Txn S Call α) :
    Prop :=
  ∀ row ∈ committed, p row = true → S.key row ∈ keys →
    (∃ assign next left found, x.body = .update p assign next ∧ x.cursor = some (left, found) ∧
      S.key row ∈ left) ∨ ∃ new, .updated row new ∈ x.log

omit [DecidableEq Row] [DecidableEq Key] [DecidableEq Val] in
/-- Where no visit is under way, every such row has been updated, and stays so. -/
theorem Txn.Visits.updated {p : Row → Bool} {keys : List Key} {committed : List Row}
    {x x' : Txn S Call α} (h : x.Visits p keys committed)
    (hdone : ∀ assign next key left found, x.body = .update p assign next →
      x.cursor ≠ some (key :: left, found)) (hlog : x.log ⊆ x'.log) :
    x'.Visits p keys committed := by
  intro row hrow hp hkey
  rcases h row hrow hp hkey with ⟨assign, next, left, found, hbody, hcursor, hleft⟩ | ⟨new, hnew⟩
  · cases left with
    | nil => cases hleft
    | cons key left => exact absurd hcursor (hdone assign next key left found hbody)
  · exact .inr ⟨new, hlog hnew⟩

/-- A step of the transaction itself visits the row it takes from the cursor. -/
theorem Advance.visits {s : Store S Call α} (hs : Coherent s) {t : ℕ} {x x' : Txn S Call α}
    (hx : s.txns[t]? = some x) (hopen : x.outcome = none) (h : Advance s t x x')
    {p : Row → Bool} {keys : List Key} (hvisits : x.Visits p keys s.committed) :
    x'.Visits p keys s.committed := by
  have hsees := (hs.sound t x hx hopen).consistent_visible hs.consistent
  cases h with
  | select q next hbody =>
      refine hvisits.updated (fun _ _ _ _ _ heq => ?_) (by simp)
      cases hbody.symm.trans heq
  | scan q assign next hbody hcursor =>
      refine hvisits.updated (fun _ _ _ _ _ _ heq => ?_) (by simp)
      cases hcursor.symm.trans heq
  | finish q assign next hbody rows hcursor =>
      refine hvisits.updated (fun _ _ _ _ _ _ heq => ?_) (by simp)
      cases hcursor.symm.trans heq
  | insert row next hbody hrefuse hfree =>
      refine hvisits.updated (fun _ _ _ _ _ heq => ?_) (by simp)
      cases hbody.symm.trans heq
  | skip q assign next hbody key left found hcursor hgone =>
      intro row hrow hp hkey
      rcases hvisits row hrow hp hkey with
        ⟨assign', next', left', found', hbody', hcursor', hleft⟩ | hupdated
      · cases hbody.symm.trans hbody'
        cases hcursor.symm.trans hcursor'
        by_cases hnone : ∃ new, .updated row new ∈ x.log
        · exact .inr hnone
        · rw [not_exists] at hnone
          rcases List.mem_cons.mp hleft with hhead | hleft
          · -- the row is there, so the visit would have found it
            have hno := hgone row (visible_of_not_updated hrow hnone) hhead
            rw [hp] at hno
            cases hno
          · exact .inl ⟨assign, next, left, found, hbody, rfl, hleft⟩
      · exact .inr hupdated
  | visit q assign next hbody old left found hcursor hold hq hfree =>
      intro row hrow hp hkey
      rcases hvisits row hrow hp hkey with
        ⟨assign', next', left', found', hbody', hcursor', hleft⟩ | ⟨new, hnew⟩
      · cases hbody.symm.trans hbody'
        cases hcursor.symm.trans hcursor'
        by_cases hnone : ∃ new, .updated row new ∈ x.log
        · obtain ⟨new, hnew⟩ := hnone
          exact .inr ⟨new, List.mem_append_left _ hnew⟩
        · rw [not_exists] at hnone
          rcases List.mem_cons.mp hleft with hhead | hleft
          · -- one row only has the key
            have hsame : row = old := hsees.eq_of_clash (visible_of_not_updated hrow hnone) hold
              (Schema.clash_of_key_eq hhead)
            rw [hsame]
            exact .inr ⟨_, List.mem_append_right _ (List.mem_singleton_self _)⟩
          · exact .inl ⟨assign, next, left, _, hbody, rfl, hleft⟩
      · exact .inr ⟨new, List.mem_append_left _ hnew⟩

/-- A commit of another transaction brings no row of the snapshot back under the predicate, and
leaves alone what this one has updated. -/
theorem Txn.Visits.commit {s : Store S Call α} (hs : Coherent s) {t t' : ℕ} {x z : Txn S Call α}
    (hne : t' ≠ t) (hx : s.txns[t]? = some x) (hopen : x.outcome = none)
    (hz : s.txns[t']? = some z) (hzopen : z.outcome = none) {p : Row → Bool} {keys : List Key}
    (hthere : ∀ key ∈ keys, ∃ row ∈ s.committed, S.key row = key)
    (hback : ∀ old new, .updated old new ∈ z.log → p new = true → p old = true)
    (h : x.Visits p keys s.committed) : x.Visits p keys (visible s.committed z.log) := by
  have hsound := hs.sound t' z hz hzopen
  intro row hrow hp hkey
  obtain ⟨origin, horigin, hsame, hpback⟩ := visible_origin
    (R := fun old new => S.key new = S.key old ∧ (p new = true → p old = true))
    (fun _ => ⟨rfl, id⟩) (fun _ _ _ hab hbc => ⟨hbc.1.trans hab.1, hab.2 ∘ hbc.2⟩)
    (fun old new hmem => ⟨Schema.key_eq_of_columns (hsound.kept old new hmem),
      hback old new hmem⟩) hrow
  rcases List.mem_append.mp horigin with hold | hnew
  · rcases h origin hold (hpback hp) (hsame ▸ hkey) with
      ⟨assign, next, left, found, hbody, hcursor, hleft⟩ | ⟨new, hnew⟩
    · exact .inl ⟨assign, next, left, found, hbody, hcursor, hsame ▸ hleft⟩
    · -- the two would have written versions of one row
      rcases mem_visible hrow with hcommitted | hwritten
      · have heq := hs.consistent.eq_of_clash hcommitted hold (Schema.clash_of_key_eq hsame)
        exact .inr ⟨new, heq ▸ hnew⟩
      · have hapart := hs.apart t t' x z hne.symm hx hopen hz hzopen new
          (mem_written.mpr (.inr ⟨origin, hnew⟩)) row hwritten
        refine absurd (Schema.clash_of_key_eq ?_) hapart
        have hkept := (hs.sound t x hx hopen).kept origin new hnew
        exact (Schema.key_eq_of_columns hkept).trans hsame.symm
  · -- an inserted row has no key that is there already
    obtain ⟨other, hother, hotherKey⟩ := hthere _ hkey
    exact absurd (Schema.clash_of_key_eq (hsame.symm.trans hotherKey.symm))
      (hsound.fresh origin hnew other hother)

/-- The invariant of a stretch that begins with the snapshot of an `UPDATE`. -/
structure Visiting (P : Call → List (Access Row) → α → Prop) (t : ℕ) (p : Row → Bool)
    (keys : List Key) (s : Store S Call α) : Prop where
  coherent : Coherent s
  guaranteed : Guaranteed P s
  there : ∀ key ∈ keys, ∃ row ∈ s.committed, S.key row = key
  visits : ∃ x, s.txns[t]? = some x ∧ (x.outcome = none → x.Visits p keys s.committed)

theorem Visiting.step (hprogram : ∀ call, (program call).Ensures (P call) []) {p : Row → Bool}
    (hback : ∀ call log result old new, P call log result → .updated old new ∈ log →
      p new = true → p old = true)
    {t : ℕ} {keys : List Key} {s s' : Store S Call α} {event : Event Call}
    (hs : Visiting P t p keys s) (hstep : ReadCommitted.step program s event = some s') :
    Visiting P t p keys s' := by
  have hmove := move_of_step hstep
  obtain ⟨x, hx, hvisits⟩ := hs.visits
  have hcoherent := coherent_of_move hs.coherent hmove
  have hguaranteed := guaranteed_of_move hprogram hs.guaranteed hmove
  cases hmove with
  | start call =>
      refine ⟨hcoherent, hguaranteed, hs.there, x, ?_, hvisits⟩
      rw [List.getElem?_append_left (List.getElem?_eq_some_iff.mp hx).1, hx]
  | advance t' z z' hz hzopen hadvance =>
      refine ⟨hcoherent, hguaranteed, hs.there, ?_⟩
      by_cases hsame : t' = t
      · subst hsame
        cases hz.symm.trans hx
        refine ⟨z', List.getElem?_set_self (List.getElem?_eq_some_iff.mp hz).1, fun _ => ?_⟩
        exact hadvance.visits hs.coherent hz hzopen (hvisits hzopen)
      · exact ⟨x, (List.getElem?_set_ne hsame).trans hx, hvisits⟩
  | commit t' z hz hzopen result hbody =>
      have hsound := hs.coherent.sound t' z hz hzopen
      refine ⟨hcoherent, hguaranteed, fun key hkey => ?_, ?_⟩
      · obtain ⟨row, hrow, rfl⟩ := hs.there key hkey
        obtain ⟨row', hrow', hcolumns⟩ := hsound.version (List.mem_append_left _ hrow)
        exact ⟨row', hrow', Schema.key_eq_of_columns hcolumns⟩
      · by_cases hsame : t' = t
        · subst hsame
          refine ⟨_, List.getElem?_set_self (List.getElem?_eq_some_iff.mp hz).1, fun hopen => ?_⟩
          cases hopen
        · refine ⟨x, (List.getElem?_set_ne hsame).trans hx, fun hopen => ?_⟩
          have hrest := hs.guaranteed.rest t' z hz hzopen
          simp only [Txn.Ensures, hbody] at hrest
          exact (hvisits hopen).commit hs.coherent hsame hx hopen hz hzopen hs.there
            fun old new => hback _ _ result old new hrest
  | fail _ t' z hz hzopen error =>
      refine ⟨hcoherent, hguaranteed, hs.there, ?_⟩
      by_cases hsame : t' = t
      · subst hsame
        refine ⟨_, List.getElem?_set_self (List.getElem?_eq_some_iff.mp hz).1, fun hopen => ?_⟩
        cases hopen
      · exact ⟨x, (List.getElem?_set_ne hsame).trans hx, hvisits⟩

/-- **An `UPDATE` reaches every row of its snapshot that its predicate still holds of when the
transaction commits**, where no committed update makes the predicate hold. -/
theorem updated_of_snapshot (hprogram : ∀ call, (program call).Ensures (P call) [])
    {p : Row → Bool} (hback : ∀ call log result old new, P call log result →
      .updated old new ∈ log → p new = true → p old = true)
    (hrows : S.Consistent rows) {t : ℕ} {u v : Store S Call α} {x y : Txn S Call α}
    {mid : List (Event Call)} {result : α}
    (h : Stretch program rows events t u x mid v y result) {assign : Assignment S}
    {next : List Row → Tx S α} (hbody : x.body = .update p assign next) (hbegins : x.Begins)
    {old row : Row} (hold : old ∈ u.committed) (hrow : row ∈ v.committed) (hp : p row = true)
    (hkey : S.key row = S.key old) : ∃ new, .updated row new ∈ y.log := by
  obtain ⟨done, -, hu⟩ := h.within
  obtain ⟨hcoherent, hguaranteed⟩ := kept_of_run hprogram hrows hu
  obtain ⟨w, hw, hmid⟩ := Transition.run_cons_eq_some.mp h.between
  have hcursor := hbegins p assign next hbody
  -- the first step takes the snapshot
  have hopen : x.outcome = none := by
    by_contra hended
    simp only [ReadCommitted.step, h.first] at hw
    rw [if_neg (by simpa [Option.isNone_iff_eq_none] using hended)] at hw
    cases hw
  have hscan : w = u.put t { x with cursor := some (((u.sees x).filter p).map S.key, []) } := by
    simp only [ReadCommitted.step, h.first, hopen, Option.isNone_none, if_true] at hw
    unfold advance at hw
    split at hw
    · rename_i heq
      cases hbody.symm.trans heq
    · rename_i heq
      cases hbody.symm.trans heq
    · rename_i heq
      cases hbody.symm.trans heq
      simp only [hcursor] at hw
      exact (Option.some.inj hw).symm
    · rename_i heq
      cases hbody.symm.trans heq
  have hvisiting : Visiting P t p [S.key old] w := by
    have hmove := move_of_step hw
    refine ⟨coherent_of_move hcoherent hmove, guaranteed_of_move hprogram hguaranteed hmove, ?_, ?_⟩
    · intro key hmem
      rw [List.mem_singleton.mp hmem, hscan]
      exact ⟨old, hold, rfl⟩
    · rw [hscan]
      refine ⟨_, List.getElem?_set_self (List.getElem?_eq_some_iff.mp h.first).1, fun _ => ?_⟩
      intro row' hrow' hp' _
      by_cases hnone : ∃ new, .updated row' new ∈ x.log
      · exact .inr hnone
      · rw [not_exists] at hnone
        refine .inl ⟨assign, next, _, _, hbody, rfl, List.mem_map_of_mem (List.mem_filter.mpr ?_)⟩
        exact ⟨visible_of_not_updated hrow' hnone, hp'⟩
  obtain ⟨-, -, -, y', hy', hvisits⟩ := Transition.run_keeps
    (fun _ _ _ hs hstep => hs.step hprogram hback hstep) hvisiting hmid
  cases hy'.symm.trans h.last
  rcases hvisits h.commits.1 row hrow hp (by simp [hkey]) with ⟨_, _, _, _, hupdate, -⟩ | hupdated
  · cases h.commits.2.symm.trans hupdate
  · exact hupdated

end Along

/-! ### One transaction after the other -/

/-- No other transaction is in progress when one takes a step. -/
def Alone (s : Store S Call α) (event : Event Call) : Prop :=
  match event with
  | .exec t => ∀ x ∈ s.txns.zipIdx, x.1.outcome.isNone = true → x.2 = t
  | _ => True

instance Alone.decidable (s : Store S Call α) : (event : Event Call) → Decidable (Alone s event)
  | .exec t => inferInstanceAs (Decidable (∀ x ∈ s.txns.zipIdx, _ → x.2 = t))
  | .start _ => inferInstanceAs (Decidable True)
  | .abort _ => inferInstanceAs (Decidable True)

/-- A transaction that has ended has ended in every later state. -/
theorem ended_of_run {s s' : Store S Call α}
    (h : Transition.run (step program) s events = some s') {t : ℕ} {x : Txn S Call α}
    (hx : s.txns[t]? = some x) (hended : x.outcome ≠ none) : s'.txns[t]? = some x := by
  refine Transition.run_keeps (I := fun s => s.txns[t]? = some x) ?_ hx h
  intro u event u' hu hstep
  obtain ⟨x', hx', -, hsame⟩ := txn_of_move (move_of_step hstep) hu
  rw [hx', hsame hended]

/-- A transaction that has begun is there in every later state. -/
theorem begun_of_run {s s' : Store S Call α}
    (h : Transition.run (step program) s events = some s') {t : ℕ} {x : Txn S Call α}
    (hx : s.txns[t]? = some x) : ∃ x', s'.txns[t]? = some x' := by
  refine Transition.run_keeps (I := fun s => ∃ x, s.txns[t]? = some x) ?_ ⟨x, hx⟩ h
  rintro u event u' ⟨x, hu⟩ hstep
  obtain ⟨x', hx', -⟩ := txn_of_move (move_of_step hstep) hu
  exact ⟨x', hx'⟩

/-- **Where transactions run one after the other, nothing commits in between.** -/
theorem undisturbed_of_alone
    (h : Transition.Meets (step program) Alone (.init rows) events)
    (reads acts spoils : Txn S Call α → Prop) :
    Undisturbed program rows events reads acts spoils := by
  intro t u x mid v y result hstretch _ _
  obtain ⟨done, ⟨rest, rfl⟩, hu⟩ := hstretch.within
  refine Transition.meets_of_states ?_
  rintro pre event ⟨post, hsplit⟩ w hw t' z result' rfl hz hopen hbody -
  -- the stretch goes on from here to the commit of `t`
  have hpost : Transition.run (step program) w (.exec t' :: post) = some v := by
    have hrun := hstretch.between
    rw [← hsplit, List.append_assoc] at hrun
    obtain ⟨w', hw', hrun⟩ := Transition.run_append.mp hrun
    cases hw.symm.trans hw'
    exact hrun
  have halone : Alone w (.exec t') := by
    have hevents : done ++ .exec t :: (mid ++ [.exec t]) ++ rest
        = (done ++ pre) ++ .exec t' :: (post ++ .exec t :: rest) := by
      have hcons : .exec t :: (mid ++ [.exec t]) = (.exec t :: mid) ++ [.exec t] := rfl
      rw [hcons, ← hsplit]
      simp
    rw [hevents] at h
    exact (Transition.meets_append (Transition.run_append.mpr ⟨u, hu, hw⟩) h).2.1
  obtain ⟨x', hx'⟩ := begun_of_run hw hstretch.first
  have hopen' : x'.outcome = none := by
    by_contra hended
    have hlast := ended_of_run hpost hx' hended
    cases hlast.symm.trans hstretch.last
    exact hended hstretch.commits.1
  have hsame : t = t' :=
    halone (x', t) (List.mem_zipIdx_iff_getElem?.mpr hx') (by simp [hopen'])
  subst hsame
  -- so it is the one that commits here, and has ended by then
  obtain ⟨w', hstep, hrun⟩ := Transition.run_cons_eq_some.mp hpost
  cases hstep.symm.trans (step_commit hz hopen hbody)
  have hlast := ended_of_run hrun (commit_self hz result').1 (by simp)
  cases hlast.symm.trans hstretch.last
  cases hstretch.commits.1

end ReadCommitted
