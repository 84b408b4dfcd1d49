/-
**What runs of the calls on one model keep.**

Two things should hold in every state in which all calls are suspended or have returned.  A model
that shows that it is connecting has a `connect` in its dial; and it shows a connection only with
the session whose hello produced what it shows, and nothing of either after the operator has
disconnected.  Neither does: `refreshAfterForeground` sets the connection to connecting before it
calls `connect`, which then returns at once; and a dial or a ping that comes back writes its result
whatever has happened since.  Both hold exactly as long as such moves meet the states in which they
do no harm.

Main definitions:

* `Osprey.DeviceTasks.ConnectingIsDialling`, `Osprey.DeviceTasks.RedialsInADial` — the first
  property, and the condition on a move;
* `Osprey.Linkage.KeepsLastWord`, `Osprey.Linkage.HeedsLastWord` — the second.

Main results:

* `Osprey.connecting_is_dialling_iff` — **exactly which runs never leave a model stuck**;
* `Osprey.connected_is_session_iff` — **exactly which runs keep connection and session together, and
  to the operator's last word**.
-/

import Osprey.DeviceLink
import Osprey.PairingFlow

set_option relaxedAutoImplicit false
set_option autoImplicit false

namespace Osprey

variable {F : Type}

namespace DeviceTasks

/-- The system of one model: the store, and the model with its calls. -/
def step (s : Pins × DeviceTasks F) (move : DeviceMove F) : Option (Pins × DeviceTasks F) :=
  (turn s.1 s.2 move).map fun t => (t.pins, t.tasks)

/-! ### Connecting -/

/-- A model that shows that it is connecting has a `connect` suspended in its dial. -/
def ConnectingIsDialling (s : DeviceTasks F) : Prop :=
  s.device.connection = .connecting → .dialling ∈ s.calls

end DeviceTasks

/-- A tear-down of `refreshAfterForeground`, after which it redials. -/
def TearDown.redials : TearDown → Bool
  | failedPing inRefresh _ => inRefresh
  | refresh => true
  | _ => false

namespace DeviceTasks

/-- A move with which a refresh is done with tearing down finds a `connect` suspended in its
dial. -/
def RedialsInADial (s : DeviceTasks F) (move : DeviceMove F) : Prop :=
  match s.deed move with
  | .tearDown reason => reason.redials → .dialling ∈ s.calls
  | _ => True

instance (s : DeviceTasks F) : Decidable s.ConnectingIsDialling :=
  inferInstanceAs (Decidable (_ → _))

instance (s : DeviceTasks F) (move : DeviceMove F) : Decidable (s.RedialsInADial move) := by
  unfold RedialsInADial
  split <;> infer_instance

end DeviceTasks

theorem TearDown.leaves_eq_connecting_iff {reason : TearDown} :
    reason.leaves = .connecting ↔ reason.redials := by
  cases reason with
  | failedPing inRefresh message => cases inRefresh <;> simp [leaves, redials]
  | _ => simp [leaves, redials]

namespace DeviceTasks

/-- A call that is not in its dial leaves the dials as they are. -/
theorem dialling_mem_set {calls : List DeviceCall} {i : ℕ} {call : DeviceCall}
    (hbefore : calls[i]? ≠ some .dialling) (h : .dialling ∈ calls) :
    .dialling ∈ calls.set i call := by
  obtain ⟨k, hk⟩ := List.mem_iff_getElem?.mp h
  have hne : i ≠ k := by
    rintro rfl
    exact hbefore hk
  exact List.mem_iff_getElem?.mpr ⟨k, by rw [List.getElem?_set_ne hne, hk]⟩

theorem dialling_before_iff {s : DeviceTasks F} {move : DeviceMove F} :
    .dialling ∈ (s.before move).calls ↔ .dialling ∈ s.calls := by
  cases move with
  | closed i answers =>
      simp only [before]
      split
      · rfl
      · rfl
      · rfl
  | _ => simp [before, link]

/-- Only a dial that comes back is done by a call in its dial. -/
theorem call_of_turn {pins : Pins} {s : DeviceTasks F} {move : DeviceMove F} {t : DeviceTurn F}
    (h : turn pins s move = some t) (haccept : ∀ opened, s.deed move ≠ .accept opened)
    (hfail : ∀ message, s.deed move ≠ .fail message) :
    (s.before move).calls[move.call s]? ≠ some .dialling := by
  cases move with
  | dialled i outcome answers =>
      intro hcall
      have hdialling : s.calls[i]? = some .dialling := hcall
      cases outcome with
      | ok helloOk => exact haccept ⟨i, helloOk⟩ (by simp only [deed, hdialling])
      | error message => exact hfail message (by simp only [deed, hdialling])
  | subscribed i outcome =>
      intro hcall
      have hcall : s.calls[i]? = some .dialling := hcall
      simp [turn, subscribed, hcall] at h
  | ponged i outcome answers =>
      intro hcall
      have hcall : s.calls[i]? = some .dialling := hcall
      simp [turn, ponged, hcall] at h
  | revoked i outcome answers =>
      intro hcall
      have hcall : s.calls[i]? = some .dialling := hcall
      simp [turn, revoked, hcall] at h
  | closed i answers =>
      simp only [before, DeviceMove.call]
      intro hcall
      have hcall : s.calls[i]? = some .dialling := by
        split at hcall
        · exact hcall
        · exact hcall
        · exact hcall
      simp [turn, closed, hcall] at h
  | tick tick => simp [before, link, DeviceMove.call]
  | _ => simp [before, DeviceMove.call]

/-- Only a `connect` dials. -/
theorem connect_of_dial {s : DeviceTasks F} {move : DeviceMove F} (h : s.deed move = .dial) :
    move = .connect := by
  have htearDown : ∀ reason, s.link.tearDownDeed reason ≠ .dial := by
    intro reason
    unfold Linkage.tearDownDeed
    split <;> simp
  have hping : ∀ refresh, s.link.pingDeed refresh ≠ .dial := by
    intro refresh
    unfold Linkage.pingDeed
    split <;> simp
  cases move with
  | connect => rfl
  | refreshAfterForeground =>
      simp only [deed] at h
      split_ifs at h
      · exact absurd h (hping true)
      · exact absurd h (htearDown _)
  | disconnect => exact absurd h (htearDown _)
  | sendPing => exact absurd h (hping false)
  | subscribed i outcome => cases h
  | tick tick => cases h
  | _ =>
      simp only [deed] at h
      split at h <;> first | cases h | exact absurd h (htearDown _)

/-- **One move** keeps the first property exactly if a refresh redials only in a dial. -/
theorem connectingIsDialling_turn_iff {pins : Pins} {s : DeviceTasks F} {move : DeviceMove F}
    {t : DeviceTurn F} (hs : s.ConnectingIsDialling) (h : turn pins s move = some t) :
    t.tasks.ConnectingIsDialling ↔ s.RedialsInADial move := by
  have hlink := turn_link h
  have hconnection : t.tasks.device.connection =
      ((s.before move).apply (move.call s) (s.deed move)).connection :=
        congrArg Linkage.connection hlink
  have hcalls : t.tasks.calls = ((s.before move).apply (move.call s) (s.deed move)).calls :=
    congrArg Linkage.calls hlink
  have hnot := call_of_turn h
  have hbefore : .dialling ∈ s.calls → .dialling ∈ (s.before move).calls := dialling_before_iff.mpr
  have hkept := (s.before_kept move).1
  unfold ConnectingIsDialling RedialsInADial
  rw [hconnection, hcalls]
  cases hdeed : s.deed move with
  | wait call =>
      simp only [hdeed, ne_eq, reduceCtorEq, not_false_eq_true, implies_true, forall_const] at hnot
      simp only [Linkage.apply, hkept, iff_true]
      intro hconnecting
      exact dialling_mem_set hnot (hbefore (hs hconnecting))
  | dial =>
      obtain rfl := connect_of_dial hdeed
      simp only [Linkage.apply, before, DeviceMove.call, iff_true]
      intro _
      rw [List.set_append_right _ _ (le_refl _), Nat.sub_self]
      simp
  | accept opened => simp [Linkage.apply]
  | fail message => simp [Linkage.apply]
  | answer connected => simp [Linkage.apply]
  | tearDown reason =>
      simp only [hdeed, ne_eq, reduceCtorEq, not_false_eq_true, implies_true, forall_const] at hnot
      simp only [Linkage.apply, TearDown.leaves_eq_connecting_iff]
      refine imp_congr_right fun _ => ⟨?_, fun h => dialling_mem_set hnot (hbefore h)⟩
      intro h
      rcases List.mem_or_eq_of_mem_set h with h | h
      · exact dialling_before_iff.mp h
      · cases h
  | hold live =>
      simp only [hdeed, ne_eq, reduceCtorEq, not_false_eq_true, implies_true, forall_const] at hnot
      simp only [Linkage.apply, hkept, iff_true]
      intro hconnecting
      exact dialling_mem_set hnot (hbefore (hs hconnecting))

/-- A model that has just been made, with no calls on it. -/
theorem connectingIsDialling_new (host : PairedHost) :
    (new host : DeviceTasks F).ConnectingIsDialling := by
  intro h
  cases h

end DeviceTasks

open DeviceTasks in
/-- **When a model is never stuck.**  In a run of any calls on a model, it shows that it is
connecting only while a `connect` is suspended in its dial, in every state, exactly if no refresh is
done with tearing down while none is. -/
theorem connecting_is_dialling_iff (pins : Pins) (host : PairedHost) {moves : List (DeviceMove F)}
    {s : Pins × DeviceTasks F} (hrun : Transition.run step (pins, new host) moves = some s) :
    (∀ done, done <+: moves → ∀ t, Transition.run step (pins, new host) done = some t →
      t.2.ConnectingIsDialling) ↔
    Transition.Meets step (fun s move => s.2.RedialsInADial move) (pins, new host) moves := by
  refine Transition.forall_states_iff_meets (A := fun _ => True) (fun _ _ _ _ _ => trivial) ?_
    trivial (connectingIsDialling_new host) hrun
  intro s move t _ hs hstep
  obtain ⟨turned, hturn, rfl⟩ := Option.map_eq_some_iff.mp hstep
  exact connectingIsDialling_turn_iff hs hturn

def toyHost : PairedHost := ⟨"agent", "", "", [], toyBundle 1, 0, none⟩

def toyHello : HelloOkBody := ⟨PROTOCOL_VERSION, [], toyUuid 2, "1.0", toyUuid 3, none⟩

/-- The operator connects, and comes back to the app while the host is being dialled, and once more
when it has answered. -/
def refreshedTwice : List (DeviceMove Unit) :=
  [.connect, .refreshAfterForeground, .dialled 0 (.ok toyHello) .allDone, .refreshAfterForeground,
    .ponged 2 (.ok 30) .allDone]

theorem connecting_is_dialling_iff_refreshedTwice : ∃ s : Pins × DeviceTasks Unit,
    Transition.run DeviceTasks.step (⟨⟨none, none⟩, []⟩, .new toyHost) refreshedTwice = some s ∧
      ∀ done, done <+: refreshedTwice → ∀ t,
        Transition.run DeviceTasks.step (⟨⟨none, none⟩, []⟩, .new toyHost) done = some t →
          t.2.ConnectingIsDialling := by
  have hrun : (Transition.run DeviceTasks.step (⟨⟨none, none⟩, []⟩, .new toyHost)
      refreshedTwice).isSome = true := by
    decide +kernel
  obtain ⟨s, hs⟩ := Option.isSome_iff_exists.mp hrun
  refine ⟨s, hs, (connecting_is_dialling_iff _ _ hs).mpr ?_⟩
  decide +kernel

/-- The dial fails, and the operator comes back to the app. -/
def refreshedAfterFailure : List (DeviceMove Unit) :=
  [.connect, .dialled 0 (.error "No route to host") .allDone, .refreshAfterForeground]

/-- The model shows that it is connecting, and all calls on it have returned. -/
theorem stuck_connecting : ∃ s : Pins × DeviceTasks Unit,
    Transition.run DeviceTasks.step (⟨⟨none, none⟩, []⟩, .new toyHost) refreshedAfterFailure =
      some s ∧ s.2.calls = [.returned, .returned] ∧ ¬s.2.ConnectingIsDialling := by
  have hrun : ((Transition.run DeviceTasks.step (⟨⟨none, none⟩, []⟩, .new toyHost)
      refreshedAfterFailure).any fun s =>
        decide (s.2.calls = [.returned, .returned] ∧ ¬s.2.ConnectingIsDialling)) = true := by
    decide +kernel
  obtain ⟨s, hs, h⟩ := (Option.any_eq_true _ _).mp hrun
  exact ⟨s, hs, of_decide_eq_true h⟩

/-! ### The operator's last word -/

theorem TearDown.leaves_eq_idle_iff {reason : TearDown} :
    reason.leaves = .idle ↔ reason.disconnects = true := by
  cases reason with
  | failedPing inRefresh message => cases inRefresh <;> simp [leaves, disconnects]
  | _ => simp [leaves, disconnects]

theorem TearDown.leaves_ne_connected (reason : TearDown) (connected : ConnectedSession) :
    reason.leaves ≠ .connected connected := by
  cases reason with
  | failedPing inRefresh message => cases inRefresh <;> simp [leaves]
  | _ => simp [leaves]

namespace Linkage

/-- A connection is shown only with the session whose hello produced what is shown, and nothing of
either while `disconnect` is the operator's last word. -/
structure KeepsLastWord (l : Linkage) : Prop where
  connected : ∀ connected, l.connection = .connected connected →
    l.session.map OpenSession.number = some connected.origin
  disconnected : l.disconnected = true → l.connection = .idle ∧ l.session = none

/-- A deed changes nothing that the operator has ended, and a ping's answer is to the session that
there is. -/
def HeedsLastWord (l : Linkage) : Deed → Prop
  | .accept _ => l.disconnected = false
  | .fail _ => l.disconnected = false
  | .answer connected => l.session.map OpenSession.number = some connected.origin
  | .tearDown reason => reason.disconnects = true ∨ l.disconnected = false
  | _ => True

instance (l : Linkage) (deed : Deed) : Decidable (l.HeedsLastWord deed) := by
  unfold HeedsLastWord
  split <;> infer_instance

/-- Where something is shown, the operator has to have asked for it. -/
theorem keepsLastWord_iff_of_shown {l : Linkage} (hshown : l.connection ≠ .idle)
    (hsession : ∀ connected, l.connection = .connected connected →
      l.session.map OpenSession.number = some connected.origin) :
    l.KeepsLastWord ↔ l.disconnected = false := by
  constructor
  · intro h
    by_contra hd
    exact hshown (h.disconnected (by simpa using hd)).1
  · intro hd
    refine ⟨hsession, ?_⟩
    intro hd'
    cases hd.symm.trans hd'

/-- **One deed**, done by a call that has not just come to dial, keeps the second property exactly
if it heeds the operator's last word. -/
theorem keepsLastWord_apply_iff {l : Linkage} {i : ℕ} {deed : Deed} (hl : l.KeepsLastWord)
    (hdial : deed = .dial → l.disconnected = false) :
    (l.apply i deed).KeepsLastWord ↔ l.HeedsLastWord deed := by
  cases deed with
  | wait call => exact iff_of_true ⟨hl.connected, hl.disconnected⟩ trivial
  | hold live => exact iff_of_true ⟨hl.connected, hl.disconnected⟩ trivial
  | dial =>
      refine iff_of_true ?_ trivial
      refine (keepsLastWord_iff_of_shown (by simp [apply]) ?_).mpr (hdial rfl)
      intro connected hconnected
      cases hconnected
  | accept opened =>
      refine keepsLastWord_iff_of_shown (by simp [apply]) ?_
      intro connected hconnected
      cases hconnected
      rfl
  | fail message =>
      refine keepsLastWord_iff_of_shown (by simp [apply]) ?_
      intro connected hconnected
      cases hconnected
  | answer connected =>
      constructor
      · intro h
        exact h.connected connected rfl
      · intro hsession
        refine ⟨?_, ?_⟩
        · intro shown hshown
          cases hshown
          exact hsession
        · intro hd
          simp only [HeedsLastWord, (hl.disconnected hd).2] at hsession
          cases hsession
  | tearDown reason =>
      cases hreason : reason.disconnects with
      | true =>
          refine iff_of_true ⟨?_, ?_⟩ (Or.inl hreason)
          · intro connected hconnected
            exact absurd hconnected (TearDown.leaves_ne_connected reason connected)
          · intro _
            exact ⟨TearDown.leaves_eq_idle_iff.mpr hreason, rfl⟩
      | false =>
          have hdisconnected : (l.apply i (.tearDown reason)).disconnected = l.disconnected := by
            simp [apply, hreason]
          simp only [HeedsLastWord, hreason, Bool.false_eq_true, false_or]
          rw [← hdisconnected]
          refine keepsLastWord_iff_of_shown ?_ ?_
          · intro hidle
            cases hreason.symm.trans (TearDown.leaves_eq_idle_iff.mp hidle)
          · intro connected hconnected
            exact absurd hconnected (TearDown.leaves_ne_connected reason connected)

end Linkage

namespace DeviceTasks

/-- What comes before a deed keeps the second property: at most, the operator has spoken. -/
theorem keepsLastWord_before {s : DeviceTasks F} {move : DeviceMove F} (hs : s.link.KeepsLastWord) :
    (s.before move).KeepsLastWord := by
  have hspoken : ∀ calls, Linkage.KeepsLastWord { s.link with calls, disconnected := false } := by
    intro calls
    refine ⟨hs.connected, ?_⟩
    intro hd
    cases hd
  cases move with
  | connect => exact hspoken _
  | refreshAfterForeground => exact hspoken _
  | closed i answers =>
      simp only [before]
      split
      · exact ⟨hs.connected, hs.disconnected⟩
      · exact ⟨hs.connected, hs.disconnected⟩
      · exact hs
  | _ => exact ⟨hs.connected, hs.disconnected⟩

/-- **One move** keeps the second property exactly if it heeds the operator's last word. -/
theorem keepsLastWord_turn_iff {pins : Pins} {s : DeviceTasks F} {move : DeviceMove F}
    {t : DeviceTurn F} (hs : s.link.KeepsLastWord) (h : turn pins s move = some t) :
    t.tasks.link.KeepsLastWord ↔ (s.before move).HeedsLastWord (s.deed move) := by
  rw [turn_link h]
  refine Linkage.keepsLastWord_apply_iff (keepsLastWord_before hs) ?_
  intro hdial
  rw [connect_of_dial hdial]
  rfl

theorem keepsLastWord_new (host : PairedHost) : (new host : DeviceTasks F).link.KeepsLastWord := by
  refine ⟨?_, ?_⟩
  · intro connected hconnected
    cases hconnected
  · intro hd
    cases hd

end DeviceTasks

open DeviceTasks in
/-- **When connection and session keep together, and to the operator's last word.**  In a run of any
calls on a model, in every state, it shows a connection only with the session whose hello produced
what it shows, and nothing of either from the return of a `disconnect` until the next `connect` or
`refreshAfterForeground` begins, exactly if every move heeds that. -/
theorem connected_is_session_iff (pins : Pins) (host : PairedHost) {moves : List (DeviceMove F)}
    {s : Pins × DeviceTasks F} (hrun : Transition.run step (pins, new host) moves = some s) :
    (∀ done, done <+: moves → ∀ t, Transition.run step (pins, new host) done = some t →
      t.2.link.KeepsLastWord) ↔
    Transition.Meets step (fun s move => (s.2.before move).HeedsLastWord (s.2.deed move))
      (pins, new host) moves := by
  refine Transition.forall_states_iff_meets (A := fun _ => True) (fun _ _ _ _ _ => trivial) ?_
    trivial (keepsLastWord_new host) hrun
  intro s move t _ hs hstep
  obtain ⟨turned, hturn, rfl⟩ := Option.map_eq_some_iff.mp hstep
  exact keepsLastWord_turn_iff hs hturn

/-- The operator connects, pings, disconnects, and connects again. -/
def reconnected : List (DeviceMove Unit) :=
  [.connect, .dialled 0 (.ok toyHello) .allDone, .sendPing, .ponged 1 (.ok 30) .allDone,
    .disconnect, .closed 2 .allDone, .connect, .dialled 3 (.ok toyHello) .allDone]

theorem connected_is_session_iff_reconnected : ∃ s : Pins × DeviceTasks Unit,
    Transition.run DeviceTasks.step (⟨⟨none, none⟩, []⟩, .new toyHost) reconnected = some s ∧
      ∀ done, done <+: reconnected → ∀ t,
        Transition.run DeviceTasks.step (⟨⟨none, none⟩, []⟩, .new toyHost) done = some t →
          t.2.link.KeepsLastWord := by
  have hrun : (Transition.run DeviceTasks.step (⟨⟨none, none⟩, []⟩, .new toyHost)
      reconnected).isSome = true := by
    decide +kernel
  obtain ⟨s, hs⟩ := Option.isSome_iff_exists.mp hrun
  refine ⟨s, hs, (connected_is_session_iff _ _ hs).mpr ?_⟩
  decide +kernel

/-- The operator disconnects while the host is being dialled. -/
def disconnectedInDial : List (DeviceMove Unit) :=
  [.connect, .disconnect, .dialled 0 (.ok toyHello) .allDone]

/-- `disconnect` has returned and nothing has been asked for since, and there are a connection and a
session. -/
theorem connected_after_disconnect : ∃ s : Pins × DeviceTasks Unit,
    Transition.run DeviceTasks.step (⟨⟨none, none⟩, []⟩, .new toyHost) disconnectedInDial = some s ∧
      s.2.disconnected = true ∧ s.2.device.isConnected = true ∧ ¬s.2.link.KeepsLastWord := by
  have hrun : ((Transition.run DeviceTasks.step (⟨⟨none, none⟩, []⟩, .new toyHost)
      disconnectedInDial).any fun s =>
        decide (s.2.disconnected = true ∧ s.2.device.isConnected = true ∧
          s.2.device.session ≠ none)) = true := by
    decide +kernel
  obtain ⟨s, hs, h⟩ := (Option.any_eq_true _ _).mp hrun
  obtain ⟨hdisconnected, hconnected, hsession⟩ := of_decide_eq_true h
  refine ⟨s, hs, hdisconnected, hconnected, ?_⟩
  intro hkeeps
  exact hsession (hkeeps.disconnected hdisconnected).2

end Osprey
