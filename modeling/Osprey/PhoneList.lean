/-
**Whether the machines in the phone's list are independent.**

When a machine has been paired or forgotten, the list is made anew, and every machine in it gets a
new model.  The models that were in the list go, with their connections, sessions and series, and
nothing closes their sessions.  A session is looked after as long as a listed model has it or a call
is about to close it; so what a pairing or a forgetting should keep is the models of the other
machines, and that every open session is looked after, and every one that is being dialled will be.

Main definitions:

* `Osprey.Linkage.InHand`, `Osprey.Linkage.Closable` — who looks after a session;
* `Osprey.AppModel.machine` — the machine that a move of a pairing or of a forgetting is about;
* `Osprey.AppModel.LeavesOthers` — what such a move should keep;
* `Osprey.AppModel.SparesOthers` — the condition on it.

Main results:

* `Osprey.DeviceTasks.closable_turn_iff` — which moves of an `unpair` leave no session behind;
* `Osprey.machines_independent_iff` — **exactly which runs keep the machines independent**.
-/

import Osprey.LatestPins

set_option relaxedAutoImplicit false
set_option autoImplicit false

namespace Osprey

variable {F : Type}

/-! ### Who looks after a session -/

/-- Call `k` is closing the session, or has dialled it for a revocation. -/
def DeviceCall.holds (k n : ℕ) : DeviceCall → Bool
  | closing session _ => session.number = n
  | closingLive live _ => live.number = n
  | revoking live => live.number = n ∧ n = k
  | _ => false

namespace Linkage

/-- A call has the session in hand. -/
def InHand (l : Linkage) (n : ℕ) : Prop :=
  ∃ (k : ℕ) (call : DeviceCall), l.calls[k]? = some call ∧ call.holds k n = true

/-- A call other than `i` does. -/
def Elsewhere (l : Linkage) (i n : ℕ) : Prop :=
  ∃ (k : ℕ) (call : DeviceCall), k ≠ i ∧ l.calls[k]? = some call ∧ call.holds k n = true

/-- A call has the session in hand, or a listed model has it. -/
def Closable (l : Linkage) (listed : Prop) (n : ℕ) : Prop :=
  l.InHand n ∨ listed ∧ l.session.map OpenSession.number = some n

/-- The model's session is open, and no call has it in hand. -/
def Sole (l : Linkage) : Prop :=
  ∃ session, l.session = some session ∧ session.number ∈ l.opened ∧ ¬l.InHand session.number

instance (l : Linkage) (n : ℕ) : Decidable (l.InHand n) :=
  decidable_of_iff
    (∃ k ∈ List.range l.calls.length, ∃ call ∈ l.calls[k]?, call.holds k n = true) <| by
    constructor
    · rintro ⟨k, -, call, hcall, hholds⟩
      exact ⟨k, call, hcall, hholds⟩
    · rintro ⟨k, call, hcall, hholds⟩
      exact ⟨k, List.mem_range.mpr (List.getElem?_eq_some_iff.mp hcall).1, call, hcall, hholds⟩

instance (l : Linkage) : Decidable l.Sole :=
  decidable_of_iff (∃ session ∈ l.session, session.number ∈ l.opened ∧ ¬l.InHand session.number)
    Iff.rfl

variable {l : Linkage} {i n : ℕ}

theorem inHand_iff {call : DeviceCall} (hcall : l.calls[i]? = some call) :
    l.InHand n ↔ call.holds i n = true ∨ l.Elsewhere i n := by
  constructor
  · rintro ⟨k, found, hfound, hholds⟩
    by_cases hk : k = i
    · subst hk
      cases hcall.symm.trans hfound
      exact Or.inl hholds
    · exact Or.inr ⟨k, found, hk, hfound, hholds⟩
  · rintro (hholds | ⟨k, found, -, hfound, hholds⟩)
    · exact ⟨i, call, hcall, hholds⟩
    · exact ⟨k, found, hfound, hholds⟩

/-- What call `i` has done changes nothing about the others. -/
theorem inHand_apply_iff {deed : Deed} (hi : i < l.calls.length) :
    (l.apply i deed).InHand n ↔ deed.next.holds i n = true ∨ l.Elsewhere i n := by
  have hcall : (l.apply i deed).calls[i]? = some deed.next := by
    rw [calls_apply]
    exact List.getElem?_set_self hi
  rw [inHand_iff hcall]
  refine or_congr_right ?_
  unfold Elsewhere
  rw [calls_apply]
  refine exists_congr fun k => exists_congr fun call => and_congr_right fun hk => ?_
  rw [List.getElem?_set_ne (Ne.symm hk)]

/-- The session of an `unpair` of its own is in its hand only. -/
theorem Numbered.own (h : l.Numbered) {live : OpenSession}
    (hcall : l.calls[i]? = some (.revoking live)) (hown : live.number = i) :
    i ∈ l.opened ∧ ¬l.Elsewhere i i ∧ l.session.map OpenSession.number ≠ some i := by
  have hnot : ¬l.PastDial i := by
    rintro ⟨call, hfound, hpast⟩
    exact DeviceTasks.absurd_pastDial hcall rfl call hfound hpast
  refine ⟨?_, ?_, ?_⟩
  · rcases h.revoking i live hcall with ⟨-, hopened⟩ | hpast
    · exact hopened
    · exact absurd (hown ▸ hpast) hnot
  · rintro ⟨k, call, hk, hfound, hholds⟩
    cases call with
    | closing session reason =>
        have hnumber : session.number = i := by simpa [DeviceCall.holds] using hholds
        exact hnot (hnumber ▸ h.closing k session reason hfound)
    | closingLive other hostOutcome =>
        have hnumber : other.number = i := by simpa [DeviceCall.holds] using hholds
        rcases h.closingLive k other hostOutcome hfound with hother | hpast
        · exact hk (hother.symm.trans hnumber)
        · exact hnot (hnumber ▸ hpast)
    | revoking other =>
        have hnumber : other.number = i ∧ i = k := by simpa [DeviceCall.holds] using hholds
        exact hk hnumber.2.symm
    | _ => cases hholds
  · intro hsession
    obtain ⟨session, hsession, hnumber⟩ := Option.map_eq_some_iff.mp hsession
    exact hnot (hnumber ▸ h.session session hsession)

end Linkage

/-! ### The moves of an `unpair` -/

namespace DeviceTasks

/-- The move is made by an `unpair`. -/
def unpairing (s : DeviceTasks F) : DeviceMove F → Bool
  | .unpair => true
  | .dialled i _ _ => s.calls[i]? = some .unpairDialling
  | .revoked _ _ _ => true
  | .closed i _ =>
      match s.calls[i]? with
      | some (.closing _ (.unpair _)) => true
      | some (.closingLive _ _) => true
      | _ => false
  | _ => false

/-- A revocation fails over a session that the `unpair` has dialled itself. -/
def abandons (s : DeviceTasks F) : DeviceMove F → Bool
  | .revoked i (.error _) _ =>
      match s.calls[i]? with
      | some (.revoking live) => live.number = i
      | _ => false
  | _ => false

theorem inHand_before_iff (s : DeviceTasks F) (move : DeviceMove F) {n : ℕ} :
    (s.before move).InHand n ↔ s.link.InHand n := by
  have harrive : ∀ disconnected, Linkage.InHand
      { s.link with calls := s.calls ++ [.arriving], disconnected } n ↔ s.link.InHand n := by
    intro disconnected
    constructor
    · rintro ⟨k, call, hcall, hholds⟩
      rcases Nat.lt_or_ge k s.calls.length with hlt | hge
      · exact ⟨k, call, (List.getElem?_append_left hlt).symm.trans hcall, hholds⟩
      · have hcall : (s.calls ++ [.arriving])[k]? = some call := hcall
        rw [List.getElem?_append_right hge, List.getElem?_singleton] at hcall
        split_ifs at hcall
        cases hcall
        cases hholds
    · rintro ⟨k, call, hcall, hholds⟩
      have hlt : k < s.calls.length := (List.getElem?_eq_some_iff.mp hcall).1
      exact ⟨k, call, (List.getElem?_append_left hlt).trans hcall, hholds⟩
  cases move with
  | connect => exact harrive false
  | refreshAfterForeground => exact harrive false
  | disconnect => exact harrive s.disconnected
  | sendPing => exact harrive s.disconnected
  | unpair => exact harrive s.disconnected
  | closed i answers =>
      simp only [before]
      split
      · exact Iff.rfl
      · exact Iff.rfl
      · exact Iff.rfl
  | _ => exact Iff.rfl

/-- Every open session is looked after, or was not before. -/
def KeepsClosable (l l' : Linkage) (listed listed' : Prop) : Prop :=
  ∀ n ∈ l'.opened, l'.Closable listed' n ∨ n ∈ l.opened ∧ ¬l.Closable listed n

section

variable {s : DeviceTasks F} {move : DeviceMove F} {i : ℕ} {prev call : DeviceCall}
  {listed listed' : Prop}

theorem closable_before_iff (hprev : (s.before move).calls[i]? = some prev) {n : ℕ} :
    s.link.Closable listed n ↔ (prev.holds i n = true ∨ (s.before move).Elsewhere i n) ∨
      listed ∧ s.device.session.map OpenSession.number = some n := by
  unfold Linkage.Closable
  rw [← inHand_before_iff s move, Linkage.inHand_iff hprev]
  rfl

/-- A call that goes on with all that it had in hand leaves no session behind. -/
theorem keepsClosable_wait (hprev : (s.before move).calls[i]? = some prev)
    (hopened : ∀ n ∈ (s.before move).opened, n ∈ s.opened)
    (hlisted : s.device.session ≠ none → (listed' ↔ listed))
    (hholds : ∀ n ∈ (s.before move).opened, prev.holds i n = true → call.holds i n = true) :
    KeepsClosable s.link ((s.before move).apply i (.wait call)) listed listed' := by
  intro n hn
  have hn : n ∈ (s.before move).opened := hn
  have hlt : i < (s.before move).calls.length := (List.getElem?_eq_some_iff.mp hprev).1
  by_cases hclosable : s.link.Closable listed n
  · refine Or.inl ?_
    rcases (closable_before_iff hprev).mp hclosable with hhand | ⟨hlist, hsession⟩
    · exact Or.inl ((Linkage.inHand_apply_iff hlt).mpr (hhand.imp_left (hholds n hn)))
    · have hsome : s.device.session ≠ none := by
        intro hnone
        rw [hnone] at hsession
        cases hsession
      refine Or.inr ⟨(hlisted hsome).mpr hlist, ?_⟩
      have hkept : ((s.before move).apply i (.wait call)).session = s.device.session :=
        (s.before_kept move).2
      rw [hkept]
      exact hsession
  · exact Or.inr ⟨hopened n hn, hclosable⟩

/-- A call that goes on without the session that only it had in hand leaves that behind. -/
theorem not_keepsClosable_wait (hprev : (s.before move).calls[i]? = some prev) {n : ℕ}
    (hn : n ∈ (s.before move).opened) (hholds : prev.holds i n = true)
    (hcall : call.holds i n = false) (helsewhere : ¬(s.before move).Elsewhere i n)
    (hsession : s.device.session.map OpenSession.number ≠ some n) :
    ¬KeepsClosable s.link ((s.before move).apply i (.wait call)) listed listed' := by
  intro h
  have hlt : i < (s.before move).calls.length := (List.getElem?_eq_some_iff.mp hprev).1
  rcases h n hn with hclosable | ⟨-, hnot⟩
  · rcases hclosable with hhand | ⟨-, hlist⟩
    · rcases (Linkage.inHand_apply_iff hlt).mp hhand with hheld | helse
      · cases hcall.symm.trans hheld
      · exact helsewhere helse
    · have hkept : ((s.before move).apply i (.wait call)).session = s.device.session :=
        (s.before_kept move).2
      rw [hkept] at hlist
      exact hsession hlist
  · exact hnot ((closable_before_iff hprev).mpr (Or.inl (Or.inl hholds)))

/-- A call that takes its own session in hand, and had nothing there, leaves no session behind. -/
theorem keepsClosable_hold (hprev : (s.before move).calls[i]? = some prev)
    (hopened : ∀ n ∈ (s.before move).opened, n ∈ s.opened)
    (hlisted : s.device.session ≠ none → (listed' ↔ listed))
    (hholds : ∀ n, prev.holds i n = false) {live : OpenSession} (hlive : live.number = i) :
    KeepsClosable s.link ((s.before move).apply i (.hold live)) listed listed' := by
  intro n hn
  have hlt : i < (s.before move).calls.length := (List.getElem?_eq_some_iff.mp hprev).1
  rcases List.mem_append.mp hn with hn | hn
  · have hwait : KeepsClosable s.link ((s.before move).apply i (.wait (.revoking live))) listed
        listed' :=
      keepsClosable_wait hprev hopened hlisted fun n _ hheld => by
        cases (hholds n).symm.trans hheld
    exact hwait n hn
  · obtain rfl := List.mem_singleton.mp hn
    refine Or.inl (Or.inl ((Linkage.inHand_apply_iff hlt).mpr (Or.inl ?_)))
    simp [Deed.next, DeviceCall.holds, hlive]

/-- A call that tears down leaves a session behind if it had it in hand, or if the listed model has
it, unless another call has it in hand. -/
theorem keepsClosable_tearDown_iff (hprev : (s.before move).calls[i]? = some prev)
    (hopened : ∀ n ∈ (s.before move).opened, n ∈ s.opened) {reason : TearDown} :
    KeepsClosable s.link ((s.before move).apply i (.tearDown reason)) listed listed' ↔
      ∀ n ∈ (s.before move).opened, ¬(s.before move).Elsewhere i n → prev.holds i n = false ∧
        ¬(listed ∧ s.device.session.map OpenSession.number = some n) := by
  have hlt : i < (s.before move).calls.length := (List.getElem?_eq_some_iff.mp hprev).1
  have hafter : ∀ n, ((s.before move).apply i (.tearDown reason)).Closable listed' n ↔
      (s.before move).Elsewhere i n := by
    intro n
    have hsession : ((s.before move).apply i (.tearDown reason)).session = none := rfl
    unfold Linkage.Closable
    rw [Linkage.inHand_apply_iff hlt, hsession]
    simp [Deed.next, DeviceCall.holds]
  constructor
  · intro h n hn helsewhere
    rcases h n hn with hclosable | ⟨-, hnot⟩
    · exact absurd ((hafter n).mp hclosable) helsewhere
    · rw [closable_before_iff hprev, not_or, not_or] at hnot
      exact ⟨by simpa using hnot.1.1, hnot.2⟩
  · intro h n hn
    by_cases helsewhere : (s.before move).Elsewhere i n
    · exact Or.inl ((hafter n).mpr helsewhere)
    · refine Or.inr ⟨hopened n hn, ?_⟩
      obtain ⟨hholds, hsession⟩ := h n hn helsewhere
      rw [closable_before_iff hprev]
      rintro ((hheld | helse) | hlist)
      · cases hholds.symm.trans hheld
      · exact helsewhere helse
      · exact hsession hlist

/-- A call that had nothing in hand and now tears down, or begins to, leaves no session behind. -/
theorem keepsClosable_tearDownDeed (hprev : (s.before move).calls[i]? = some prev)
    (hopened : ∀ n ∈ (s.before move).opened, n ∈ s.opened)
    (hlisted : s.device.session ≠ none → (listed' ↔ listed))
    (hholds : ∀ n ∈ (s.before move).opened, prev.holds i n = false) {reason : TearDown} :
    KeepsClosable s.link ((s.before move).apply i (s.link.tearDownDeed reason)) listed listed' := by
  unfold Linkage.tearDownDeed
  split
  · refine keepsClosable_wait hprev hopened hlisted ?_
    intro n hn hheld
    cases (hholds n hn).symm.trans hheld
  · rename_i hsession
    have hsession : s.device.session = none := hsession
    refine (keepsClosable_tearDown_iff hprev hopened).mpr ?_
    intro n hn _
    refine ⟨hholds n hn, ?_⟩
    rintro ⟨-, h⟩
    rw [hsession] at h
    cases h

theorem not_sole_of_unpairs {reason : TearDown}
    (h : (s.link.tearDownDeed reason).unpairs = true) : ¬s.link.Sole := by
  rintro ⟨session, hsession, -⟩
  simp only [Linkage.tearDownDeed, hsession] at h
  cases h

/-- A failed revocation leaves the session behind over which it was made, if that is the call's
own. -/
theorem keepsClosable_revoked_iff (hs : s.link.Numbered) {live : OpenSession}
    (hcall : s.calls[i]? = some (.revoking live)) {message : String} {answers : StoreAnswers}
    (hlisted : s.device.session ≠ none → (listed' ↔ listed)) {reason : TearDown} :
    KeepsClosable s.link ((s.before (.revoked i (.error message) answers)).apply i
      (s.link.tearDownDeed reason)) listed listed' ↔ live.number ≠ i := by
  have hprev : (s.before (.revoked i (.error message) answers)).calls[i]? = some (.revoking live) :=
    hcall
  constructor
  · intro h hown
    obtain ⟨hopened, helsewhere, hsession⟩ := hs.own hcall hown
    have hholds : (DeviceCall.revoking live).holds i i = true := by
      simp [DeviceCall.holds, hown]
    unfold Linkage.tearDownDeed at h
    split at h
    · rename_i session hmodel
      refine not_keepsClosable_wait hprev hopened hholds ?_ helsewhere hsession h
      have hnumber : session.number ≠ i := by
        rintro hsame
        exact hsession (by rw [hmodel, Option.map_some, hsame])
      simp [DeviceCall.holds, hnumber]
    · have hnot := (keepsClosable_tearDown_iff hprev (fun n hn => hn)).mp h i hopened helsewhere
      cases hholds.symm.trans hnot.1
  · intro hother
    refine keepsClosable_tearDownDeed hprev (fun n hn => hn) hlisted ?_
    intro n _
    have hnot : ¬(live.number = n ∧ n = i) := fun h => hother (h.1.trans h.2)
    simpa [DeviceCall.holds] using hnot

/-- The end of an `unpair`, whose session has closed, leaves a session behind exactly if the listed
model has it and no call has it in hand. -/
theorem keepsClosable_closed_iff {session : OpenSession} {reason : TearDown}
    (hcall : s.calls[i]? = some (.closing session reason)) {answers : StoreAnswers} :
    KeepsClosable s.link ((s.before (.closed i answers)).apply i (.tearDown reason)) listed
      listed' ↔ (listed → ¬s.link.Sole) := by
  have hbefore : s.before (.closed i answers) = (s.close session.number).link := by
    simp only [before, hcall]
  have hprev : (s.before (.closed i answers)).calls[i]? = some (.closing session reason) := by
    rw [hbefore]
    exact hcall
  have hopened : ∀ n, n ∈ (s.before (.closed i answers)).opened ↔ n ∈ s.opened ∧
      n ≠ session.number := by
    intro n
    rw [hbefore]
    simp [close, link]
  have hhand : ∀ n, n ≠ session.number →
      (s.link.InHand n ↔ (s.before (.closed i answers)).Elsewhere i n) := by
    intro n hn
    rw [← inHand_before_iff s (.closed i answers), Linkage.inHand_iff hprev]
    simp [DeviceCall.holds, Ne.symm hn]
  rw [keepsClosable_tearDown_iff hprev fun n hn => ((hopened n).mp hn).1]
  constructor
  · rintro h hlisted ⟨own, hown, hopen, hnot⟩
    have hne : own.number ≠ session.number := by
      intro hsame
      refine hnot ((inHand_before_iff s (.closed i answers)).mp ((Linkage.inHand_iff hprev).mpr ?_))
      simp [DeviceCall.holds, hsame]
    have hleft := h own.number ((hopened _).mpr ⟨hopen, hne⟩) (fun h => hnot ((hhand _ hne).mpr h))
    refine hleft.2 ⟨hlisted, ?_⟩
    have hown : s.device.session = some own := hown
    rw [hown, Option.map_some]
  · intro h n hn helsewhere
    obtain ⟨hopen, hne⟩ := (hopened n).mp hn
    refine ⟨by simp [DeviceCall.holds, Ne.symm hne], ?_⟩
    rintro ⟨hlisted, hsession⟩
    obtain ⟨own, hown, rfl⟩ := Option.map_eq_some_iff.mp hsession
    exact h hlisted ⟨own, hown, hopen, fun h => helsewhere ((hhand _ hne).mp h)⟩

/-- A tear-down that is only begun finds a session there, and does not unpair. -/
theorem listed_of_begun {reason : TearDown}
    (hlisted : (s.link.tearDownDeed reason).unpairs = false → (listed' ↔ listed))
    (hsession : s.device.session ≠ none) : listed' ↔ listed := by
  obtain ⟨session, hsession⟩ := Option.ne_none_iff_exists'.mp hsession
  have hsession : s.link.session = some session := hsession
  refine hlisted ?_
  simp only [Linkage.tearDownDeed, hsession]
  rfl

theorem closable_unpair_iff
    (hlisted : (s.deed .unpair).unpairs = false → (listed' ↔ listed)) :
    KeepsClosable s.link ((s.before .unpair).apply s.calls.length (s.deed .unpair)) listed
        listed' ↔
      s.abandons .unpair = false ∧ ((s.deed .unpair).unpairs = true → listed → ¬s.link.Sole) := by
  have hprev : (s.before .unpair).calls[s.calls.length]? = some .arriving :=
    List.getElem?_concat_length
  have hwait : ∃ call, s.deed .unpair = .wait call := by
    simp only [deed]
    split
    · exact ⟨_, rfl⟩
    · exact ⟨_, rfl⟩
  obtain ⟨call, hcall⟩ := hwait
  rw [hcall] at hlisted ⊢
  refine iff_of_true ?_ ⟨rfl, fun hunpairs => absurd hunpairs Bool.false_ne_true⟩
  refine keepsClosable_wait hprev (fun n hn => hn) (fun _ => hlisted rfl) ?_
  intro n _ hholds
  cases hholds

/-- The dial of an `unpair` takes the session that it opens in hand. -/
theorem closable_dialled_iff (hcall : s.calls[i]? = some .unpairDialling)
    {outcome : Except String HelloOkBody} {answers : StoreAnswers}
    (hmove : move = .dialled i outcome answers)
    (hlisted : (s.deed move).unpairs = false → (listed' ↔ listed)) :
    KeepsClosable s.link ((s.before move).apply i (s.deed move)) listed listed' ↔
      s.abandons move = false ∧ ((s.deed move).unpairs = true → listed → ¬s.link.Sole) := by
  subst hmove
  have hprev : (s.before (.dialled i outcome answers)).calls[i]? = some .unpairDialling := hcall
  cases outcome with
  | ok helloOk =>
      have hdeed : s.deed (.dialled i (.ok helloOk) answers) = .hold ⟨i, helloOk⟩ := by
        simp only [deed, hcall]
      rw [hdeed] at hlisted ⊢
      exact iff_of_true
        (keepsClosable_hold hprev (fun n hn => hn) (fun _ => hlisted rfl) (fun n => rfl) rfl)
        ⟨rfl, fun hunpairs => absurd hunpairs Bool.false_ne_true⟩
  | error message =>
      have hdeed : s.deed (.dialled i (.error message) answers) =
          s.link.tearDownDeed (.unpair (notTold message)) := by
        simp only [deed, hcall]
      rw [hdeed] at hlisted ⊢
      exact iff_of_true
        (keepsClosable_tearDownDeed hprev (fun n hn => hn) (listed_of_begun hlisted) fun n _ => rfl)
        ⟨rfl, fun hunpairs _ => not_sole_of_unpairs hunpairs⟩

/-- A revocation that succeeds closes the session it was made over next, whosever that is. -/
theorem closable_revoked_iff (hs : s.link.Numbered) {live : OpenSession}
    (hcall : s.calls[i]? = some (.revoking live)) {outcome : Except String String}
    {answers : StoreAnswers} (hmove : move = .revoked i outcome answers)
    (hlisted : (s.deed move).unpairs = false → (listed' ↔ listed)) :
    KeepsClosable s.link ((s.before move).apply i (s.deed move)) listed listed' ↔
      s.abandons move = false ∧ ((s.deed move).unpairs = true → listed → ¬s.link.Sole) := by
  subst hmove
  have hprev : (s.before (.revoked i outcome answers)).calls[i]? = some (.revoking live) := hcall
  cases outcome with
  | ok reason =>
      have hdeed : ∃ hostOutcome, s.deed (.revoked i (.ok reason) answers) =
          .wait (.closingLive live hostOutcome) := by
        simp only [deed, hcall]
        exact ⟨_, rfl⟩
      obtain ⟨hostOutcome, hdeed⟩ := hdeed
      rw [hdeed] at hlisted ⊢
      refine iff_of_true ?_ ⟨rfl, fun hunpairs => absurd hunpairs Bool.false_ne_true⟩
      refine keepsClosable_wait hprev (fun n hn => hn) (fun _ => hlisted rfl) ?_
      intro n _ hholds
      have hboth : live.number = n ∧ n = i := of_decide_eq_true hholds
      simp [DeviceCall.holds, hboth.1]
  | error message =>
      have hdeed : s.deed (.revoked i (.error message) answers) =
          s.link.tearDownDeed (.unpair (notTold message)) := by
        simp only [deed, hcall]
      rw [hdeed] at hlisted ⊢
      refine (keepsClosable_revoked_iff hs hcall (listed_of_begun hlisted)).trans ?_
      simp only [abandons, hcall, decide_eq_false_iff_not]
      exact ⟨fun hother => ⟨hother, fun hunpairs _ => not_sole_of_unpairs hunpairs⟩, And.left⟩

/-- Once the session is closed over which it was revoked, an `unpair` has nothing in hand. -/
theorem closable_closedLive_iff {live : OpenSession} {hostOutcome : String}
    (hcall : s.calls[i]? = some (.closingLive live hostOutcome)) {answers : StoreAnswers}
    (hlisted : (s.deed (.closed i answers)).unpairs = false → (listed' ↔ listed)) :
    KeepsClosable s.link ((s.before (.closed i answers)).apply i (s.deed (.closed i answers)))
        listed listed' ↔
      s.abandons (.closed i answers) = false ∧
        ((s.deed (.closed i answers)).unpairs = true → listed → ¬s.link.Sole) := by
  have hdeed : s.deed (.closed i answers) = s.link.tearDownDeed (.unpair hostOutcome) := by
    simp only [deed, hcall]
  have hbefore : s.before (.closed i answers) = (s.close live.number).link := by
    simp only [before, hcall]
  have hprev : (s.before (.closed i answers)).calls[i]? = some (.closingLive live hostOutcome) := by
    rw [hbefore]
    exact hcall
  have hopened : ∀ n, n ∈ (s.before (.closed i answers)).opened →
      n ∈ s.opened ∧ n ≠ live.number := by
    intro n hn
    rw [hbefore] at hn
    simpa [close, link] using hn
  rw [hdeed] at hlisted ⊢
  refine iff_of_true (keepsClosable_tearDownDeed hprev (fun n hn => (hopened n hn).1)
    (listed_of_begun hlisted) ?_) ⟨rfl, fun hunpairs _ => not_sole_of_unpairs hunpairs⟩
  intro n hn
  simp [DeviceCall.holds, Ne.symm (hopened n hn).2]

end

/-- **Which moves of an `unpair` leave no session behind**: those with which no revocation over a
session of its own fails and, when it returns, the listed model has no session that only it could
close. -/
theorem closable_turn_iff {pins : Pins} {s : DeviceTasks F} {move : DeviceMove F} {t : DeviceTurn F}
    {listed listed' : Prop} (hs : s.link.Numbered) (h : turn pins s move = some t)
    (hunpairing : s.unpairing move = true)
    (hlisted : (s.deed move).unpairs = false → (listed' ↔ listed)) :
    KeepsClosable s.link t.tasks.link listed listed' ↔
      s.abandons move = false ∧ ((s.deed move).unpairs = true → listed → ¬s.link.Sole) := by
  rw [turn_link h]
  cases move with
  | unpair => exact closable_unpair_iff hlisted
  | dialled i outcome answers =>
      exact closable_dialled_iff (of_decide_eq_true hunpairing) rfl hlisted
  | revoked i outcome answers =>
      cases hcall : s.calls[i]? with
      | none => simp [turn, revoked, hcall] at h
      | some call =>
          cases call with
          | revoking live =>
              exact closable_revoked_iff hs hcall rfl hlisted
          | _ => simp [turn, revoked, hcall] at h
  | closed i answers =>
      simp only [unpairing] at hunpairing
      split at hunpairing
      · rename_i session hostOutcome hcall
        have hdeed : s.deed (.closed i answers) = .tearDown (.unpair hostOutcome) := by
          simp only [deed, hcall]
        rw [hdeed]
        refine (keepsClosable_closed_iff hcall).trans ?_
        exact ⟨fun h => ⟨rfl, fun _ => h⟩, fun h => h.2 rfl⟩
      · rename_i live hostOutcome hcall
        exact closable_closedLive_iff hcall hlisted
      · cases hunpairing
  | _ => cases hunpairing

end DeviceTasks

/-! ### The moves of the app -/

/-- What changes nothing leaves no session behind. -/
theorem DeviceTasks.keepsClosable_refl (l : Linkage) (listed : Prop) :
    KeepsClosable l l listed listed := by
  intro n hn
  by_cases hclosable : l.Closable listed n
  · exact Or.inl hclosable
  · exact Or.inr ⟨hn, hclosable⟩

/-- A model that the list no longer shows leaves its session behind exactly if no call has that in
hand. -/
theorem DeviceTasks.keepsClosable_unlisted_iff {l : Linkage} {listed : Prop} :
    KeepsClosable l l listed False ↔ (listed → ¬l.Sole) := by
  constructor
  · rintro h hlisted ⟨session, hsession, hopened, hnot⟩
    rcases h session.number hopened with (hhand | ⟨hfalse, -⟩) | ⟨-, hclosable⟩
    · exact hnot hhand
    · exact hfalse
    · exact hclosable (Or.inr ⟨hlisted, by rw [hsession, Option.map_some]⟩)
  · intro h n hn
    by_cases hhand : l.InHand n
    · exact Or.inl (Or.inl hhand)
    · refine Or.inr ⟨hn, ?_⟩
      rintro (hhand' | ⟨hlisted, hsession⟩)
      · exact hhand hhand'
      · obtain ⟨session, hsome, rfl⟩ := Option.map_eq_some_iff.mp hsession
        exact h hlisted ⟨session, hsome, hn, hhand⟩

namespace AppModel

/-- The machine that a move of a pairing or of a forgetting is about. -/
def machine (s : AppModel F) : AppMove F → Option String
  | .pair (.ok payload) => some payload.agentDeviceId
  | .paired i _ _ _ =>
      match s.pairings[i]? with
      | some (some payload) => some payload.agentDeviceId
      | _ => none
  | .device k move _ =>
      match s.models[k]? with
      | some model => if model.unpairing move then some model.device.id else none
      | none => none
  | _ => none

/-- **What a move about one machine should leave.**  Every listed model of another machine whose
record is still in the store is listed and has not changed; every open session is in the hand of a
call or has a listed model, or had neither before; and no listed model whose `connect` is in its
dial goes. -/
structure LeavesOthers (s : AppModel F) (machine : String) (t : AppModel F) : Prop where
  kept : ∀ k ∈ s.devices, ∀ model ∈ s.models[k]?, model.device.id ≠ machine →
    (∃ r ∈ t.pins.keychain.records, r.agentDeviceId = model.device.id) →
      k ∈ t.devices ∧ t.models[k]? = some model
  closable : ∀ (k : ℕ) (model' : DeviceTasks F), t.models[k]? = some model' → ∀ n ∈ model'.opened,
    model'.link.Closable (k ∈ t.devices) n ∨
      ∃ model ∈ s.models[k]?, n ∈ model.opened ∧ ¬model.link.Closable (k ∈ s.devices) n
  dialled : ∀ k ∈ s.devices, ∀ model ∈ s.models[k]?, .dialling ∈ model.calls → k ∈ t.devices

/-- The pins that the list is made of anew in a move, if it is. -/
def remade (s : AppModel F) : AppMove F → Option Pins
  | .paired i (.ok now) saving reloading =>
      match s.pairings[i]? with
      | some (some payload) =>
          match s.pins.complete saving (payload.pin now) with
          | (.ok (), pins) =>
              if s.identityState = .ready ∧ pins.keychain.Readable reloading then some pins
              else none
          | _ => none
      | _ => none
  | .device k move reloading =>
      match s.models[k]? with
      | some model =>
          let pins := s.pins.apply (model.pinDeed move)
          if (model.deed move).unpairs = true ∧ s.identityState = .ready ∧
              pins.keychain.Readable reloading then some pins
          else none
      | none => none
  | _ => none

/-- In a move of an `unpair`, no revocation over a session of its own fails, and when it returns,
its listed model has no session that only it could close. -/
def SparesOwn (s : AppModel F) : AppMove F → Prop
  | .device k move _ => ∀ model ∈ s.models[k]?, model.abandons move = false ∧
      ((model.deed move).unpairs = true → k ∈ s.devices → ¬model.link.Sole)
  | _ => True

/-- When the list is made anew, no other listed machine is in the store, no listed model has a
session that only it could close, and no `connect` on a listed model is in its dial. -/
def SparesOthers (s : AppModel F) (machine : String) (move : AppMove F) : Prop :=
  s.SparesOwn move ∧ ∀ pins ∈ s.remade move, ∀ k ∈ s.devices, ∀ model ∈ s.models[k]?,
    (model.device.id ≠ machine →
      ∀ r ∈ pins.keychain.records, r.agentDeviceId ≠ model.device.id) ∧
    ¬model.link.Sole ∧ .dialling ∉ model.calls

instance (s : AppModel F) (move : AppMove F) : Decidable (s.SparesOwn move) :=
  match move with
  | .device k move _ => inferInstanceAs <| Decidable (∀ model ∈ s.models[k]?,
      model.abandons move = false ∧
        ((model.deed move).unpairs = true → k ∈ s.devices → ¬model.link.Sole))
  | .load .. | .beginScanning | .cancelScanning | .pair _ | .paired .. => .isTrue trivial

instance (s : AppModel F) (machine : String) (move : AppMove F) :
    Decidable (s.SparesOthers machine move) :=
  inferInstanceAs (Decidable (_ ∧ _))

/-- What making the list does: every entry gets a new model, or the list stays. -/
theorem reloadDevices_cases (s : AppModel F) (answers : StoreAnswers) :
    (s.identityState = .ready ∧ s.pins.keychain.Readable answers ∧
      ∃ hosts : List PairedHost,
        (s.reloadDevices answers).devices = List.range' s.models.length hosts.length ∧
        (s.reloadDevices answers).models = s.models ++ hosts.map DeviceTasks.new) ∨
    (¬(s.identityState = .ready ∧ s.pins.keychain.Readable answers) ∧
      (s.reloadDevices answers).devices = s.devices ∧
      (s.reloadDevices answers).models = s.models) := by
  unfold reloadDevices
  split
  · rename_i hready
    split
    · rename_i hosts keychain hloaded
      refine Or.inl ⟨hready, ?_, hosts, rfl, rfl⟩
      rw [Keychain.Readable, hloaded]
      rfl
    · rename_i e keychain hloaded
      refine Or.inr ⟨?_, rfl, rfl⟩
      rintro ⟨-, hread⟩
      rw [Keychain.Readable, hloaded] at hread
      cases hread
  · rename_i hnot
    exact Or.inr ⟨fun h => hnot h.1, rfl, rfl⟩

section

variable {s t u : AppModel F} {machine : String}

/-- Where the list stays, and with it all models of other machines, a move leaves the others as far
as it leaves no session behind. -/
theorem leavesOthers_iff_of_stays (hdevices : t.devices = s.devices)
    (hlength : t.models.length = s.models.length)
    (hothers : ∀ (k : ℕ) (model : DeviceTasks F), s.models[k]? = some model →
      model.device.id ≠ machine → t.models[k]? = some model) :
    s.LeavesOthers machine t ↔ ∀ (k : ℕ) (model model' : DeviceTasks F), s.models[k]? = some model →
      t.models[k]? = some model' →
        DeviceTasks.KeepsClosable model.link model'.link (k ∈ s.devices) (k ∈ s.devices) := by
  constructor
  · intro h k model model' hmodel hmodel' n hn
    rcases h.closable k model' hmodel' n hn with hclosable | ⟨found, hfound, hleft⟩
    · rw [hdevices] at hclosable
      exact Or.inl hclosable
    · cases hmodel.symm.trans hfound
      exact Or.inr hleft
  · intro h
    refine ⟨?_, ?_, ?_⟩
    · intro k hk model hmodel hother _
      rw [hdevices]
      exact ⟨hk, hothers k model hmodel hother⟩
    · intro k model' hmodel' n hn
      have hlt : k < s.models.length := by
        rw [← hlength]
        exact (List.getElem?_eq_some_iff.mp hmodel').1
      have hmodel := List.getElem?_eq_getElem hlt
      rw [hdevices]
      exact (h k _ model' hmodel hmodel' n hn).imp_right fun hleft => ⟨_, hmodel, hleft⟩
    · intro k hk model hmodel _
      rw [hdevices]
      exact hk

/-- Where the list is made anew, after a move that has got to `u`, no old model is listed. -/
theorem leavesOthers_iff_of_remade (hlength : u.models.length = s.models.length)
    {hosts : List PairedHost} (hdevices : t.devices = List.range' u.models.length hosts.length)
    (hmodels : t.models = u.models ++ hosts.map DeviceTasks.new) :
    s.LeavesOthers machine t ↔
      (∀ (k : ℕ) (model model' : DeviceTasks F), s.models[k]? = some model →
        u.models[k]? = some model' →
          DeviceTasks.KeepsClosable model.link model'.link (k ∈ s.devices) False) ∧
      ∀ k ∈ s.devices, ∀ model ∈ s.models[k]?,
        (model.device.id ≠ machine →
          ∀ r ∈ t.pins.keychain.records, r.agentDeviceId ≠ model.device.id) ∧
        .dialling ∉ model.calls := by
  have hunlisted : ∀ k, k < u.models.length → k ∉ t.devices := by
    intro k hk hmem
    rw [hdevices, List.mem_range'_1] at hmem
    exact absurd hmem.1 (Nat.not_le.mpr hk)
  have hold : ∀ k, k < u.models.length → t.models[k]? = u.models[k]? := by
    intro k hk
    rw [hmodels, List.getElem?_append_left hk]
  have hlt : ∀ {k : ℕ} {model : DeviceTasks F}, s.models[k]? = some model →
      k < u.models.length := by
    intro k model hmodel
    rw [hlength]
    exact (List.getElem?_eq_some_iff.mp hmodel).1
  constructor
  · intro h
    refine ⟨?_, ?_⟩
    · intro k model model' hmodel hmodel' n hn
      have hk := hlt hmodel
      rcases h.closable k model' ((hold k hk).trans hmodel') n hn with
        hclosable | ⟨found, hfound, hleft⟩
      · refine Or.inl (hclosable.imp_right fun hlisted => ?_)
        exact absurd hlisted.1 (hunlisted k hk)
      · cases hmodel.symm.trans hfound
        exact Or.inr hleft
    · intro k hk model hmodel
      refine ⟨?_, ?_⟩
      · intro hother r hr hid
        exact hunlisted k (hlt hmodel) (h.kept k hk model hmodel hother ⟨r, hr, hid⟩).1
      · intro hdialling
        exact hunlisted k (hlt hmodel) (h.dialled k hk model hmodel hdialling)
  · rintro ⟨hclosable, hdevice⟩
    refine ⟨?_, ?_, ?_⟩
    · rintro k hk model hmodel hother ⟨r, hr, hid⟩
      exact absurd hid ((hdevice k hk model hmodel).1 hother r hr)
    · intro k model' hmodel' n hn
      rcases Nat.lt_or_ge k u.models.length with hk | hk
      · rw [hold k hk] at hmodel'
        have hmodel := List.getElem?_eq_getElem (hlength ▸ hk)
        rcases hclosable k _ model' hmodel hmodel' n hn with hkept | hleft
        · exact Or.inl (hkept.imp_right fun hfalse => hfalse.1.elim)
        · exact Or.inr ⟨_, hmodel, hleft⟩
      · rw [hmodels, List.getElem?_append_right hk, List.getElem?_map] at hmodel'
        obtain ⟨host, -, rfl⟩ := Option.map_eq_some_iff.mp hmodel'
        cases hn
    · intro k hk model hmodel hdialling
      exact absurd hdialling (hdevice k hk model hmodel).2

/-- What holds of all models before and after one of them has moved. -/
theorem forall_set_iff {models : List (DeviceTasks F)} {k : ℕ} {model tasks : DeviceTasks F}
    (hmodel : models[k]? = some model) {P : ℕ → DeviceTasks F → DeviceTasks F → Prop} :
    (∀ (j : ℕ) (before after : DeviceTasks F), models[j]? = some before →
      (models.set k tasks)[j]? = some after → P j before after) ↔
    P k model tasks ∧ ∀ (j : ℕ) (other : DeviceTasks F), j ≠ k → models[j]? = some other →
      P j other other := by
  have hlt : k < models.length := (List.getElem?_eq_some_iff.mp hmodel).1
  constructor
  · intro h
    refine ⟨h k model tasks hmodel (List.getElem?_set_self hlt), ?_⟩
    intro j other hj hother
    exact h j other other hother ((List.getElem?_set_ne (Ne.symm hj)).trans hother)
  · rintro ⟨hmoved, hothers⟩ j before after hbefore hafter
    by_cases hj : j = k
    · subst hj
      cases hmodel.symm.trans hbefore
      cases (List.getElem?_set_self hlt).symm.trans hafter
      exact hmoved
    · cases hbefore.symm.trans ((List.getElem?_set_ne (Ne.symm hj)).symm.trans hafter)
      exact hothers j before hj hbefore

/-- A move that changes neither the list nor the models leaves the others. -/
theorem leavesOthers_of_same (hdevices : t.devices = s.devices) (hmodels : t.models = s.models) :
    s.LeavesOthers machine t := by
  refine (leavesOthers_iff_of_stays hdevices (by rw [hmodels]) ?_).mpr ?_
  · intro k model hmodel _
    rw [hmodels, hmodel]
  · intro k model model' hmodel hmodel'
    rw [hmodels] at hmodel'
    cases hmodel.symm.trans hmodel'
    exact DeviceTasks.keepsClosable_refl _ _

theorem sparesOthers_iff_of_remade {move : AppMove F} {pins : Pins}
    (h : s.remade move = some pins) :
    s.SparesOthers machine move ↔ s.SparesOwn move ∧ ∀ k ∈ s.devices, ∀ model ∈ s.models[k]?,
      (model.device.id ≠ machine →
        ∀ r ∈ pins.keychain.records, r.agentDeviceId ≠ model.device.id) ∧
      ¬model.link.Sole ∧ .dialling ∉ model.calls := by
  unfold SparesOthers
  simp [h]

theorem sparesOthers_iff_of_stays {move : AppMove F} (h : s.remade move = none) :
    s.SparesOthers machine move ↔ s.SparesOwn move := by
  unfold SparesOthers
  simp [h]

/-- The end of a pairing. -/
theorem leavesOthers_paired_iff {i : ℕ} {outcome : Except String Int64}
    {saving reloading : StoreAnswers} (h : s.paired i outcome saving reloading = some t) :
    s.LeavesOthers machine t ↔ s.SparesOthers machine (.paired i outcome saving reloading) := by
  have hspared : s.remade (.paired i outcome saving reloading) = none →
      s.SparesOthers machine (.paired i outcome saving reloading) := by
    intro hremade
    exact (sparesOthers_iff_of_stays hremade).mpr trivial
  obtain ⟨payload, hpayload, ⟨message, rfl, rfl⟩ | ⟨now, rfl, hcompleted⟩⟩ := paired_cases h
  · exact iff_of_true (leavesOthers_of_same rfl rfl) (hspared rfl)
  · have hremade : s.remade (.paired i (.ok now) saving reloading) =
        match s.pins.complete saving (payload.pin now) with
        | (.ok (), pins) =>
            if s.identityState = .ready ∧ pins.keychain.Readable reloading then some pins else none
        | _ => none := by
      simp only [remade, hpayload]
    generalize s.pins.complete saving (payload.pin now) = completed at hcompleted hremade
    obtain ⟨result, pins⟩ := completed
    rcases hcompleted with ⟨e, he, rfl⟩ | ⟨hok, text, rfl⟩
    · cases he
      exact iff_of_true (leavesOthers_of_same rfl rfl) (hspared hremade)
    · cases hok
      have hrecords := (pins_reloadDevices { s with pairings := s.pairings.set i none, pins }
          reloading).2
      rcases reloadDevices_cases { s with pairings := s.pairings.set i none, pins } reloading with
        ⟨hready, hread, hosts, hdevices, hmodels⟩ | ⟨hnot, hdevices, hmodels⟩
      · have hremade := hremade.trans (if_pos ⟨hready, hread⟩)
        refine (leavesOthers_iff_of_remade (s := s)
          (u := { s with pairings := s.pairings.set i none, pins })
          (t :=
            { reloadDevices { s with pairings := s.pairings.set i none, pins } reloading with
              pairingState := .idle
              banner := some text }) rfl hdevices hmodels).trans ?_
        rw [sparesOthers_iff_of_remade hremade]
        constructor
        · rintro ⟨hclosable, hothers⟩
          refine ⟨trivial, ?_⟩
          intro k hk model hmodel
          obtain ⟨hstored, hdialling⟩ := hothers k hk model hmodel
          have hsole := DeviceTasks.keepsClosable_unlisted_iff.mp
            (hclosable k model model hmodel hmodel) hk
          refine ⟨?_, hsole, hdialling⟩
          intro hother r hr
          exact hstored hother r (hrecords ▸ hr)
        · rintro ⟨-, hothers⟩
          refine ⟨?_, ?_⟩
          · intro k model model' hmodel hmodel'
            cases hmodel.symm.trans hmodel'
            exact DeviceTasks.keepsClosable_unlisted_iff.mpr fun hk =>
              (hothers k hk model hmodel).2.1
          · intro k hk model hmodel
            obtain ⟨hstored, -, hdialling⟩ := hothers k hk model hmodel
            refine ⟨?_, hdialling⟩
            intro hother r hr
            exact hstored hother r (hrecords ▸ hr)
      · exact iff_of_true (leavesOthers_of_same hdevices hmodels)
          (hspared (hremade.trans (if_neg hnot)))

/-- A move of the `unpair` of a model, after which the list stays. -/
theorem leavesOthers_unpair_stays_iff {k : ℕ} {model : DeviceTasks F} {move : DeviceMove F}
    {turned : DeviceTurn F} (hmodel : s.models[k]? = some model) (hnumbered : model.link.Numbered)
    (hturn : model.turn s.pins move = some turned) (hunpairing : model.unpairing move = true)
    (hdevices : t.devices = s.devices) (hmodels : t.models = s.models.set k turned.tasks) :
    s.LeavesOthers model.device.id t ↔ model.abandons move = false ∧
      ((model.deed move).unpairs = true → k ∈ s.devices → ¬model.link.Sole) := by
  have hothers : ∀ (j : ℕ) (other : DeviceTasks F), s.models[j]? = some other →
      other.device.id ≠ model.device.id → t.models[j]? = some other := by
    intro j other hother hid
    have hne : k ≠ j := by
      rintro rfl
      cases hmodel.symm.trans hother
      exact hid rfl
    rw [hmodels, List.getElem?_set_ne hne, hother]
  have hclosable : DeviceTasks.KeepsClosable model.link turned.tasks.link (k ∈ s.devices)
      (k ∈ s.devices) ↔ _ :=
    DeviceTasks.closable_turn_iff hnumbered hturn hunpairing fun _ => Iff.rfl
  rw [leavesOthers_iff_of_stays hdevices (by rw [hmodels, List.length_set]) hothers, ← hclosable,
    hmodels]
  refine (forall_set_iff hmodel).trans (and_iff_left ?_)
  intro j other _ _
  exact DeviceTasks.keepsClosable_refl _ _

/-- The return of the `unpair` of a model, with which the list is made anew. -/
theorem leavesOthers_unpair_remade_iff {k : ℕ} {model : DeviceTasks F} {move : DeviceMove F}
    {turned : DeviceTurn F} (hmodel : s.models[k]? = some model) (hnumbered : model.link.Numbered)
    (hturn : model.turn s.pins move = some turned) (hunpairing : model.unpairing move = true)
    (hunpairs : (model.deed move).unpairs = true) (hu : u.models = s.models.set k turned.tasks)
    {hosts : List PairedHost} (hdevices : t.devices = List.range' u.models.length hosts.length)
    (hmodels : t.models = u.models ++ hosts.map DeviceTasks.new) :
    s.LeavesOthers model.device.id t ↔ (model.abandons move = false ∧
      ((model.deed move).unpairs = true → k ∈ s.devices → ¬model.link.Sole)) ∧
      ∀ j ∈ s.devices, ∀ other ∈ s.models[j]?,
        (other.device.id ≠ model.device.id →
          ∀ r ∈ t.pins.keychain.records, r.agentDeviceId ≠ other.device.id) ∧
        ¬other.link.Sole ∧ .dialling ∉ other.calls := by
  have hclosable :
      DeviceTasks.KeepsClosable model.link turned.tasks.link (k ∈ s.devices) False ↔ _ :=
    DeviceTasks.closable_turn_iff hnumbered hturn hunpairing fun hnot => by
      cases hunpairs.symm.trans hnot
  rw [leavesOthers_iff_of_remade (by rw [hu, List.length_set]) hdevices hmodels, ← hclosable, hu]
  rw [forall_set_iff hmodel]
  constructor
  · rintro ⟨⟨hmoved, hstay⟩, hothers⟩
    refine ⟨hmoved, ?_⟩
    intro j hj other hother
    obtain ⟨hstored, hdialling⟩ := hothers j hj other hother
    refine ⟨hstored, ?_, hdialling⟩
    by_cases hjk : j = k
    · subst hjk
      cases hmodel.symm.trans hother
      exact (hclosable.mp hmoved).2 hunpairs hj
    · exact DeviceTasks.keepsClosable_unlisted_iff.mp (hstay j other hjk hother) hj
  · rintro ⟨hmoved, hothers⟩
    refine ⟨⟨hmoved, ?_⟩, ?_⟩
    · intro j other _ hother
      exact DeviceTasks.keepsClosable_unlisted_iff.mpr fun hj => (hothers j hj other hother).2.1
    · intro j hj other hother
      obtain ⟨hstored, -, hdialling⟩ := hothers j hj other hother
      exact ⟨hstored, hdialling⟩

/-- **One move** about a machine leaves the others exactly if it spares them. -/
theorem leavesOthers_step_iff (hs : ∀ model ∈ s.models, model.link.Numbered) {move : AppMove F}
    (h : s.step move = some t) (hmachine : s.machine move = some machine) :
    s.LeavesOthers machine t ↔ s.SparesOthers machine move := by
  cases move with
  | pair scanned =>
      cases scanned with
      | error message => cases hmachine
      | ok payload =>
          cases h
          rw [sparesOthers_iff_of_stays rfl]
          refine iff_of_true ?_ trivial
          have hkept : (s.pair (.ok payload)).devices = s.devices ∧
              (s.pair (.ok payload)).models = s.models := by
            unfold pair
            split
            · exact ⟨rfl, rfl⟩
            · exact ⟨rfl, rfl⟩
            · exact ⟨rfl, rfl⟩
          exact leavesOthers_of_same hkept.1 hkept.2
  | paired i outcome saving reloading => exact leavesOthers_paired_iff h
  | device k move reloading =>
      obtain ⟨model, turned, hmodel, hturn, hcases⟩ := device_cases h
      simp only [AppModel.machine, hmodel, Option.ite_none_right_eq_some, Option.some.injEq]
        at hmachine
      obtain ⟨hunpairing, rfl⟩ := hmachine
      have hnumbered := hs model (List.mem_of_getElem? hmodel)
      have hown : s.SparesOwn (.device k move reloading) ↔ model.abandons move = false ∧
          ((model.deed move).unpairs = true → k ∈ s.devices → ¬model.link.Sole) := by
        simp [SparesOwn, hmodel]
      have hremade : s.remade (.device k move reloading) =
          if (model.deed move).unpairs = true ∧ s.identityState = .ready ∧
              turned.pins.keychain.Readable reloading then some turned.pins
          else none := by
        rw [(DeviceTasks.posts_turn hturn).pins]
        simp only [remade, hmodel]
        rfl
      rcases hcases with ⟨hunpairs, rfl⟩ | ⟨hunpairs, text, rfl⟩
      · have hremade := hremade.trans (if_neg fun h => by cases hunpairs.symm.trans h.1)
        rw [sparesOthers_iff_of_stays hremade, hown]
        exact leavesOthers_unpair_stays_iff hmodel hnumbered hturn hunpairing rfl rfl
      · generalize hu : ({ s with
          models := s.models.set k turned.tasks
          pins := turned.pins
          banner := some text } : AppModel F) = u
        have hmodels : u.models = s.models.set k turned.tasks := by rw [← hu]
        have hrecords : (u.reloadDevices reloading).pins.keychain.records =
            turned.pins.keychain.records := by
          rw [(u.pins_reloadDevices reloading).2, ← hu]
        rcases u.reloadDevices_cases reloading with
          ⟨hready, hread, hosts, hnew, hall⟩ | ⟨hnot, hstays, hsame⟩
        · rw [← hu] at hready hread
          have hremade := hremade.trans (if_pos ⟨hunpairs, hready, hread⟩)
          rw [sparesOthers_iff_of_remade hremade, hown, ← hrecords]
          exact leavesOthers_unpair_remade_iff hmodel hnumbered hturn hunpairing hunpairs
            hmodels hnew
            hall
        · rw [← hu] at hnot
          have hremade := hremade.trans (if_neg fun h => hnot h.2)
          rw [sparesOthers_iff_of_stays hremade, hown]
          refine leavesOthers_unpair_stays_iff hmodel hnumbered hturn hunpairing ?_
            (hsame.trans hmodels)
          rw [hstays, ← hu]
  | _ => cases hmachine

/-- Every model that there ever is keeps whose sessions there are. -/
theorem numbered_step (hs : ∀ model ∈ s.models, model.link.Numbered) {move : AppMove F}
    (h : s.step move = some t) : ∀ model ∈ t.models, model.link.Numbered := by
  have hreload : ∀ (u : AppModel F) (answers : StoreAnswers),
      (∀ model ∈ u.models, model.link.Numbered) →
        ∀ model ∈ (u.reloadDevices answers).models, model.link.Numbered := by
    intro u answers hu
    rcases u.reloadDevices_cases answers with ⟨-, -, hosts, -, hmodels⟩ | ⟨-, -, hmodels⟩
    · rw [hmodels]
      intro model hmodel
      rcases List.mem_append.mp hmodel with hold | hnew
      · exact hu model hold
      · obtain ⟨host, -, rfl⟩ := List.mem_map.mp hnew
        exact DeviceTasks.numbered_new host
    · rw [hmodels]
      exact hu
  cases move with
  | load outcome answers =>
      cases h
      unfold load
      split
      · exact hs
      · exact hreload { s with identityState := .ready } answers hs
      · exact hs
  | beginScanning =>
      cases h
      exact hs
  | cancelScanning =>
      cases h
      exact hs
  | pair scanned =>
      cases h
      unfold pair
      split <;> exact hs
  | paired i outcome saving reloading =>
      obtain ⟨payload, -, ⟨message, rfl, rfl⟩ | ⟨now, rfl, ⟨e, -, rfl⟩ | ⟨-, text, rfl⟩⟩⟩ :=
        paired_cases h
      · exact hs
      · exact hs
      · exact hreload _ reloading hs
  | device k move reloading =>
      obtain ⟨model, turned, hmodel, hturn, hcases⟩ := device_cases h
      have hmoved : ∀ other ∈ s.models.set k turned.tasks, other.link.Numbered := by
        intro other hother
        rcases List.mem_or_eq_of_mem_set hother with hold | rfl
        · exact hs other hold
        · exact DeviceTasks.numbered_of_turn (hs model (List.mem_of_getElem? hmodel)) hturn
      rcases hcases with ⟨-, rfl⟩ | ⟨-, text, rfl⟩
      · exact hmoved
      · exact hreload _ reloading hmoved

end

end AppModel

open AppModel in
/-- **When the machines in the list are independent.**  In a run of any pairings, forgettings and
calls on models, every move of a pairing or of a forgetting leaves the other machines with their
models and leaves no session without a call or a listed model to close it, exactly if every such
move spares them. -/
theorem machines_independent_iff (pins : Pins) {moves : List (AppMove F)} {s : AppModel F}
    (hrun : Transition.run step (launch pins) moves = some s) :
    (∀ done move, done ++ [move] <+: moves → ∀ t v,
      Transition.run step (launch pins) done = some t → step t move = some v →
        ∀ machine ∈ t.machine move, t.LeavesOthers machine v) ↔
    Transition.Meets step (fun t move => ∀ machine ∈ t.machine move, t.SparesOthers machine move)
      (launch pins) moves := by
  refine Transition.forall_steps_iff_meets
    (A := fun s : AppModel F => ∀ model ∈ s.models, model.link.Numbered)
    (R := fun t move v => ∀ machine ∈ t.machine move, t.LeavesOthers machine v) ?_ ?_ ?_ hrun
  · intro s move t hs hstep
    exact numbered_step hs hstep
  · intro s move t hs hstep
    exact forall₂_congr fun machine hmachine => leavesOthers_step_iff hs hstep hmachine
  · intro model hmodel
    cases hmodel

/-- The operator pairs with a machine, connects to it, and forgets it; the host confirms. -/
def confirmedForget : List (AppMove Unit) :=
  [.load .ready .allDone, .pair (.ok (toyPayload 1)), .paired 0 (.ok 5) .allDone .allDone,
    .device 0 .connect .allDone, .device 0 (.dialled 0 (.ok toyHello) .allDone) .allDone,
    .device 0 .unpair .allDone, .device 0 (.revoked 1 (.ok "normal") .allDone) .allDone,
    .device 0 (.closed 1 .allDone) .allDone, .device 0 (.closed 1 .allDone) .allDone]

theorem machines_independent_iff_confirmedForget : ∃ s : AppModel Unit,
    Transition.run AppModel.step (.launch ⟨⟨none, none⟩, []⟩) confirmedForget = some s ∧
      ∀ done move, done ++ [move] <+: confirmedForget → ∀ t v,
        Transition.run AppModel.step (.launch ⟨⟨none, none⟩, []⟩) done = some t →
          t.step move = some v → ∀ machine ∈ t.machine move, t.LeavesOthers machine v := by
  have hrun : (Transition.run AppModel.step (AppModel.launch (F := Unit) ⟨⟨none, none⟩, []⟩)
      confirmedForget).isSome = true := by
    decide +kernel
  obtain ⟨s, hs⟩ := Option.isSome_iff_exists.mp hrun
  refine ⟨s, hs, (machines_independent_iff _ hs).mpr ?_⟩
  decide +kernel

/-- The operator is connected to one machine, and pairs with another. -/
def connectedThenPairing : List (AppMove Unit) :=
  [.load .ready .allDone, .pair (.ok (toyPayload 1)), .paired 0 (.ok 5) .allDone .allDone,
    .device 0 .connect .allDone, .device 0 (.dialled 0 (.ok toyHello) .allDone) .allDone,
    .pair (.ok { toyPayload 2 with agentDeviceId := "den" })]

/-- With the end of the pairing, the model of the first machine is not listed any more, and its
session is open. -/
theorem paired_machine_drops_other : ∃ s t : AppModel Unit,
    Transition.run AppModel.step (.launch ⟨⟨none, none⟩, []⟩) connectedThenPairing = some s ∧
      s.step (.paired 1 (.ok 6) .allDone .allDone) = some t ∧
      s.machine (.paired 1 (.ok 6) .allDone .allDone) = some "den" ∧
      s.devices = [0] ∧ t.devices = [1, 2] ∧
      (∃ model ∈ t.models[0]?, model.device.session.map OpenSession.number = some 0 ∧
        model.opened = [0] ∧ ¬model.link.InHand 0) ∧
      ¬s.LeavesOthers "den" t := by
  have hrun : ((Transition.run AppModel.step (AppModel.launch (F := Unit) ⟨⟨none, none⟩, []⟩)
      connectedThenPairing).any fun s =>
        (s.step (.paired 1 (.ok 6) .allDone .allDone)).any fun t =>
          decide (s.machine (.paired 1 (.ok 6) .allDone .allDone) = some "den" ∧
            s.devices = [0] ∧ t.devices = [1, 2] ∧
            (∃ model ∈ t.models[0]?, model.device.session.map OpenSession.number = some 0 ∧
              model.opened = [0] ∧ ¬model.link.InHand 0) ∧
            ∃ model ∈ s.models[0]?, model.device.id ≠ "den" ∧
              ∃ r ∈ t.pins.keychain.records, r.agentDeviceId = model.device.id)) = true := by
    decide +kernel
  obtain ⟨s, hs, h⟩ := (Option.any_eq_true _ _).mp hrun
  obtain ⟨t, ht, h⟩ := (Option.any_eq_true _ _).mp h
  obtain ⟨hmachine, hold, hnew, hopen, model, hmodel, hother, hstored⟩ := of_decide_eq_true h
  refine ⟨s, t, hs, ht, hmachine, hold, hnew, hopen, ?_⟩
  intro hleaves
  have hlisted := (hleaves.kept 0 (by rw [hold]; simp) model hmodel hother hstored).1
  rw [hnew] at hlisted
  simp at hlisted

end Osprey
