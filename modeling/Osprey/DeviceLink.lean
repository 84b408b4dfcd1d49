/-
**What the calls on a model do to its connection and its session.**

A model's connection, its session and the calls that are suspended on it make a small machine of
their own: a move of the model has a call wait, dial, take the session that its dial has opened,
show an error or the answer to a ping, or tear down.  Everything else in the model is the chart, the
name of the machine, and when a call may do which.

Main definitions:

* `Osprey.Linkage` — connection, session, calls, and the history variables;
* `Osprey.Deed`, `Osprey.Linkage.apply` — what a call does, and what that changes;
* `Osprey.DeviceTasks.deed`, `Osprey.DeviceTasks.before` — which deed a move of the code is, and
  what has changed before it.

Main results:

* `Osprey.DeviceTasks.turn_link` — **every move of the code is its deed**;
* `Osprey.DeviceTasks.numbered_of_turn` — whose sessions the suspended calls close.
-/

import Osprey.DeviceCalls

set_option relaxedAutoImplicit false
set_option autoImplicit false

namespace Osprey

variable {F : Type}

/-! ### The machine -/

structure Linkage where
  connection : ConnectionState
  session : Option OpenSession
  calls : List DeviceCall
  opened : List ℕ
  disconnected : Bool
  deriving DecidableEq, Repr

/-- What a call does. -/
inductive Deed
  /-- It is suspended elsewhere, or returns. -/
  | wait (call : DeviceCall)
  | dial
  | accept (opened : OpenSession)
  | fail (message : String)
  | answer (connected : ConnectedSession)
  | tearDown (reason : TearDown)
  /-- An `unpair` has a session of its own. -/
  | hold (live : OpenSession)
  deriving DecidableEq, Repr

/-- The connection that a tear-down leaves. -/
def TearDown.leaves : TearDown → ConnectionState
  | disconnect => .idle
  | failedPing false message => .failed message
  | failedPing true _ => .connecting
  | refresh => .connecting
  | unpair _ => .idle

/-- The tear-down is in a `disconnect`, of an `unpair` or by itself. -/
def TearDown.disconnects : TearDown → Bool
  | disconnect => true
  | unpair _ => true
  | _ => false

/-- The value that the hello of a session produces. -/
def OpenSession.connected (opened : OpenSession) : ConnectedSession where
  sessionId := opened.helloOk.sessionId
  hostDeviceId := opened.helloOk.deviceId
  hostSoftwareVersion := opened.helloOk.softwareVersion
  lastRoundTripMilliseconds := none
  pingsSent := 0
  origin := opened.number

namespace Linkage

/-- Call `i` does a deed. -/
def apply (l : Linkage) (i : ℕ) : Deed → Linkage
  | .wait call => { l with calls := l.calls.set i call }
  | .dial => { l with connection := .connecting, calls := l.calls.set i .dialling }
  | .accept opened =>
      { l with
        connection := .connected opened.connected
        session := some opened
        opened := l.opened ++ [i]
        calls := l.calls.set i
          (if opened.helloOk.capabilities.contains .metrics then .subscribing opened
          else .returned) }
  | .fail message =>
      { l with connection := .failed message, calls := l.calls.set i .returned }
  | .answer connected =>
      { l with connection := .connected connected, calls := l.calls.set i .returned }
  | .tearDown reason =>
      { l with
        connection := reason.leaves
        session := none
        calls := l.calls.set i .returned
        disconnected := reason.disconnects || l.disconnected }
  | .hold live =>
      { l with opened := l.opened ++ [i], calls := l.calls.set i (.revoking live) }

/-- A tear-down begins: it waits for the session to close, if there is one. -/
def tearDownDeed (l : Linkage) (reason : TearDown) : Deed :=
  match l.session with
  | some session => .wait (.closing session reason)
  | none => .tearDown reason

/-- A ping begins. -/
def pingDeed (l : Linkage) (refresh : Bool) : Deed :=
  match l.session, l.connection with
  | some session, .connected connected => .wait (.pinging refresh session connected)
  | _, _ => .wait .returned

end Linkage

/-! ### The moves of the code -/

/-- The call that makes a move; a new one has the next number. -/
def DeviceMove.call (s : DeviceTasks F) : DeviceMove F → ℕ
  | .dialled i _ _ => i
  | .subscribed i _ => i
  | .ponged i _ _ => i
  | .revoked i _ _ => i
  | .closed i _ => i
  | _ => s.calls.length

namespace DeviceTasks

def link (s : DeviceTasks F) : Linkage :=
  ⟨s.device.connection, s.device.session, s.calls, s.opened, s.disconnected⟩

/-- What has changed before the deed: a call has come, or a session has closed. -/
def before (s : DeviceTasks F) : DeviceMove F → Linkage
  | .connect => { s.link with calls := s.calls ++ [.arriving], disconnected := false }
  | .refreshAfterForeground =>
      { s.link with calls := s.calls ++ [.arriving], disconnected := false }
  | .disconnect => { s.link with calls := s.calls ++ [.arriving] }
  | .sendPing => { s.link with calls := s.calls ++ [.arriving] }
  | .unpair => { s.link with calls := s.calls ++ [.arriving] }
  | .closed i _ =>
      match s.calls[i]? with
      | some (.closing session _) => (s.close session.number).link
      | some (.closingLive live _) => (s.close live.number).link
      | _ => s.link
  | _ => s.link

/-- The deed of a move; where the move is not enabled, it is of no concern. -/
def deed (s : DeviceTasks F) : DeviceMove F → Deed
  | .connect =>
      match s.device.connection with
      | .connected _ => .wait .returned
      | .connecting => .wait .returned
      | _ => .dial
  | .disconnect => s.link.tearDownDeed .disconnect
  | .refreshAfterForeground =>
      if s.device.shouldStayConnected then
        if s.device.isConnected then s.link.pingDeed true else s.link.tearDownDeed .refresh
      else .wait .returned
  | .sendPing => s.link.pingDeed false
  | .unpair =>
      match s.device.session with
      | some live => .wait (.revoking live)
      | none => .wait .unpairDialling
  | .dialled i outcome _ =>
      match s.calls[i]?, outcome with
      | some .dialling, .ok helloOk => .accept ⟨i, helloOk⟩
      | some .dialling, .error message => .fail message
      | some .unpairDialling, .ok helloOk => .hold ⟨i, helloOk⟩
      | some .unpairDialling, .error message => s.link.tearDownDeed (.unpair (notTold message))
      | _, _ => .wait .returned
  | .subscribed _ _ => .wait .returned
  | .ponged i outcome _ =>
      match s.calls[i]?, outcome with
      | some (.pinging _ _ connected), .ok roundTripMilliseconds =>
          .answer
            { connected with
              lastRoundTripMilliseconds := some roundTripMilliseconds
              pingsSent := s.device.pingSequence }
      | some (.pinging refresh _ _), .error message =>
          s.link.tearDownDeed (.failedPing refresh message)
      | _, _ => .wait .returned
  | .revoked i outcome _ =>
      match s.calls[i]?, outcome with
      | some (.revoking live), .ok reason =>
          .wait (.closingLive live ("The host confirmed it (" ++ reason ++ ")."))
      | some (.revoking _), .error message => s.link.tearDownDeed (.unpair (notTold message))
      | _, _ => .wait .returned
  | .closed i _ =>
      match s.calls[i]? with
      | some (.closing _ reason) => .tearDown reason
      | some (.closingLive _ hostOutcome) => s.link.tearDownDeed (.unpair hostOutcome)
      | _ => .wait .returned
  | .tick _ => .wait .returned

/-- Before its deed, a move changes neither the connection nor the session. -/
theorem before_kept (s : DeviceTasks F) (move : DeviceMove F) :
    (s.before move).connection = s.device.connection ∧
      (s.before move).session = s.device.session := by
  cases move with
  | closed i answers =>
      simp only [before]
      split
      · exact ⟨rfl, rfl⟩
      · exact ⟨rfl, rfl⟩
      · exact ⟨rfl, rfl⟩
  | _ => exact ⟨rfl, rfl⟩

/-! ### What a call does with what it has waited for -/

theorem dialled_cases {pins : Pins} {s : DeviceTasks F} {i : ℕ}
    {outcome : Except String HelloOkBody} {answers : StoreAnswers} {t : DeviceTurn F}
    (h : dialled pins s i outcome answers = some t) :
    (∃ helloOk saved device, s.calls[i]? = some .dialling ∧ outcome = .ok helloOk ∧
        (s.device.accept ⟨i, helloOk⟩).adoptDisplayName pins answers helloOk.displayName =
          (saved, device) ∧
        t = ⟨saved, enter { s with device, opened := s.opened ++ [i] } i
          (if device.hostServesMetrics then .subscribing ⟨i, helloOk⟩ else .returned), none⟩) ∨
      (∃ message, s.calls[i]? = some .dialling ∧ outcome = .error message ∧
        t = ⟨pins,
          enter { s with device := { s.device with connection := .failed message } } i .returned,
          none⟩) ∨
      (∃ helloOk, s.calls[i]? = some .unpairDialling ∧ outcome = .ok helloOk ∧
        t = ⟨pins, enter { s with opened := s.opened ++ [i] } i (.revoking ⟨i, helloOk⟩), none⟩) ∨
      ∃ message, s.calls[i]? = some .unpairDialling ∧ outcome = .error message ∧
        t = disconnect pins s i answers (.unpair (notTold message)) := by
  unfold dialled at h
  split at h
  · rename_i helloOk hcall
    cases h
    exact Or.inl ⟨helloOk, _, _, hcall, rfl, rfl, rfl⟩
  · rename_i message hcall
    cases h
    exact Or.inr (Or.inl ⟨message, hcall, rfl, rfl⟩)
  · rename_i helloOk hcall
    cases h
    exact Or.inr (Or.inr (Or.inl ⟨helloOk, hcall, rfl, rfl⟩))
  · rename_i message hcall
    cases h
    exact Or.inr (Or.inr (Or.inr ⟨message, hcall, rfl, rfl⟩))
  · cases h

theorem ponged_cases {pins : Pins} {s : DeviceTasks F} {i : ℕ} {outcome : Except String Int64}
    {answers : StoreAnswers} {t : DeviceTurn F} (h : ponged pins s i outcome answers = some t) :
    (∃ refresh session connected roundTripMilliseconds,
        s.calls[i]? = some (.pinging refresh session connected) ∧
        outcome = .ok roundTripMilliseconds ∧
        t = ⟨pins,
          enter { s with
            device := { s.device with
              connection := .connected { connected with
                lastRoundTripMilliseconds := some roundTripMilliseconds
                pingsSent := s.device.pingSequence } } } i .returned,
          none⟩) ∨
      ∃ refresh session connected message,
        s.calls[i]? = some (.pinging refresh session connected) ∧ outcome = .error message ∧
        t = tearDown pins s i answers (.failedPing refresh message) := by
  unfold ponged at h
  split at h
  · rename_i refresh session connected roundTripMilliseconds hcall
    cases h
    exact Or.inl ⟨refresh, session, connected, roundTripMilliseconds, hcall, rfl, rfl⟩
  · rename_i refresh session connected message hcall
    cases h
    exact Or.inr ⟨refresh, session, connected, message, hcall, rfl, rfl⟩
  · cases h

theorem revoked_cases {pins : Pins} {s : DeviceTasks F} {i : ℕ} {outcome : Except String String}
    {answers : StoreAnswers} {t : DeviceTurn F} (h : revoked pins s i outcome answers = some t) :
    (∃ live reason, s.calls[i]? = some (.revoking live) ∧ outcome = .ok reason ∧
        t = ⟨pins, s.enter i (.closingLive live ("The host confirmed it (" ++ reason ++ ").")),
          none⟩) ∨
      ∃ live message, s.calls[i]? = some (.revoking live) ∧ outcome = .error message ∧
        t = disconnect pins s i answers (.unpair (notTold message)) := by
  unfold revoked at h
  split at h
  · rename_i live reason hcall
    cases h
    exact Or.inl ⟨live, reason, hcall, rfl, rfl⟩
  · rename_i live message hcall
    cases h
    exact Or.inr ⟨live, message, hcall, rfl, rfl⟩
  · cases h

theorem closed_cases {pins : Pins} {s : DeviceTasks F} {i : ℕ} {answers : StoreAnswers}
    {t : DeviceTurn F} (h : closed pins s i answers = some t) :
    (∃ session reason, s.calls[i]? = some (.closing session reason) ∧
        t = afterTearDown pins (s.close session.number) i answers reason) ∨
      ∃ live hostOutcome, s.calls[i]? = some (.closingLive live hostOutcome) ∧
        t = disconnect pins (s.close live.number) i answers (.unpair hostOutcome) := by
  unfold closed at h
  split at h
  · rename_i session reason hcall
    cases h
    exact Or.inl ⟨session, reason, hcall, rfl⟩
  · rename_i live hostOutcome hcall
    cases h
    exact Or.inr ⟨live, hostOutcome, hcall, rfl⟩
  · cases h

/-! ### Every move is its deed -/

@[simp] theorem link_enter (s : DeviceTasks F) (i : ℕ) (call : DeviceCall) :
    (s.enter i call).link = { s.link with calls := s.calls.set i call } := rfl

/-- Adopting a name changes nothing but the host. -/
theorem adoptDisplayName_eq (device : PhoneDevice F) (pins : Pins) (answers : StoreAnswers)
    (name : Option String) :
    ∃ host, (device.adoptDisplayName pins answers name).2 = { device with host } := by
  unfold PhoneDevice.adoptDisplayName
  cases device.adopts name with
  | none => exact ⟨device.host, rfl⟩
  | some name => exact ⟨{ device.host with displayName := some name }, rfl⟩

/-- The end of a refresh returns at once: `connect` finds the connection that was just set. -/
theorem link_afterTearDown (pins : Pins) (s : DeviceTasks F) (i : ℕ) (answers : StoreAnswers)
    (reason : TearDown) :
    (afterTearDown pins s i answers reason).tasks.link = s.link.apply i (.tearDown reason) := by
  cases reason with
  | disconnect => rfl
  | failedPing refresh message =>
      cases refresh with
      | false => rfl
      | true => rfl
  | refresh => rfl
  | unpair hostOutcome =>
      simp only [afterTearDown]
      split
      · rfl
      · rfl

theorem link_tearDown (pins : Pins) (s : DeviceTasks F) (i : ℕ) (answers : StoreAnswers)
    (reason : TearDown) :
    (tearDown pins s i answers reason).tasks.link =
      s.link.apply i (s.link.tearDownDeed reason) := by
  simp only [tearDown]
  split
  · rename_i session hsession
    have hsession : s.link.session = some session := hsession
    simp only [Linkage.tearDownDeed, hsession]
    rfl
  · rename_i hsession
    have hsession : s.link.session = none := hsession
    simp only [Linkage.tearDownDeed, hsession]
    exact link_afterTearDown pins _ i answers reason

theorem link_disconnect (pins : Pins) (s : DeviceTasks F) (i : ℕ) (answers : StoreAnswers)
    (reason : TearDown) :
    (disconnect pins s i answers reason).tasks.link =
      s.link.apply i (s.link.tearDownDeed reason) :=
  link_tearDown pins _ i answers reason

theorem link_connect (s : DeviceTasks F) (i : ℕ) :
    (s.connect i).link = s.link.apply i
      (match s.device.connection with
      | .connected _ => .wait .returned
      | .connecting => .wait .returned
      | _ => .dial) := by
  cases hconnection : s.device.connection with
  | idle => simp [connect, hconnection, Linkage.apply, link, enter]
  | connecting => simp [connect, hconnection, Linkage.apply, link, enter]
  | connected session => simp [connect, hconnection, Linkage.apply, link, enter]
  | failed message => simp [connect, hconnection, Linkage.apply, link, enter]

theorem link_sendPing {s t : DeviceTasks F} {i : ℕ} {refresh : Bool}
    (h : s.sendPing i refresh = some t) : t.link = s.link.apply i (s.link.pingDeed refresh) := by
  unfold sendPing at h
  split at h
  · rename_i session connected hsession hconnection
    have hsession : s.link.session = some session := hsession
    have hconnection : s.link.connection = .connected connected := hconnection
    split at h
    · cases h
      simp only [Linkage.pingDeed, hsession, hconnection]
      rfl
    · cases h
  · rename_i hnot
    cases h
    have hdeed : s.link.pingDeed refresh = .wait .returned := by
      unfold Linkage.pingDeed
      split
      · rename_i session connected hsession hconnection
        exact absurd hconnection (hnot session connected hsession)
      · rfl
    rw [hdeed]
    rfl

theorem link_dialled {pins : Pins} {s : DeviceTasks F} {i : ℕ} {outcome : Except String HelloOkBody}
    {answers : StoreAnswers} {t : DeviceTurn F} (h : dialled pins s i outcome answers = some t) :
    t.tasks.link = s.link.apply i (s.deed (.dialled i outcome answers)) := by
  rcases dialled_cases h with ⟨helloOk, saved, device, hcall, rfl, hadopted, rfl⟩ |
    ⟨message, hcall, rfl, rfl⟩ | ⟨helloOk, hcall, rfl, rfl⟩ | ⟨message, hcall, rfl, rfl⟩
  · obtain ⟨host, hhost⟩ :=
      adoptDisplayName_eq (s.device.accept ⟨i, helloOk⟩) pins answers helloOk.displayName
    rw [hadopted] at hhost
    cases hhost
    simp only [deed, hcall]
    rfl
  · simp only [deed, hcall]
    rfl
  · simp only [deed, hcall]
    rfl
  · simp only [deed, hcall]
    exact link_disconnect pins s i answers _

theorem link_ponged {pins : Pins} {s : DeviceTasks F} {i : ℕ} {outcome : Except String Int64}
    {answers : StoreAnswers} {t : DeviceTurn F} (h : ponged pins s i outcome answers = some t) :
    t.tasks.link = s.link.apply i (s.deed (.ponged i outcome answers)) := by
  rcases ponged_cases h with ⟨_, _, connected, _, hcall, rfl, rfl⟩ |
    ⟨refresh, _, _, message, hcall, rfl, rfl⟩
  · simp only [deed, hcall]
    rfl
  · simp only [deed, hcall]
    exact link_tearDown pins s i answers _

theorem link_revoked {pins : Pins} {s : DeviceTasks F} {i : ℕ} {outcome : Except String String}
    {answers : StoreAnswers} {t : DeviceTurn F} (h : revoked pins s i outcome answers = some t) :
    t.tasks.link = s.link.apply i (s.deed (.revoked i outcome answers)) := by
  rcases revoked_cases h with ⟨live, reason, hcall, rfl, rfl⟩ | ⟨live, message, hcall, rfl, rfl⟩
  · simp only [deed, hcall]
    rfl
  · simp only [deed, hcall]
    exact link_disconnect pins s i answers _

theorem link_closed {pins : Pins} {s : DeviceTasks F} {i : ℕ} {answers : StoreAnswers}
    {t : DeviceTurn F} (h : closed pins s i answers = some t) :
    t.tasks.link = (s.before (.closed i answers)).apply i (s.deed (.closed i answers)) := by
  rcases closed_cases h with ⟨session, reason, hcall, rfl⟩ | ⟨live, hostOutcome, hcall, rfl⟩
  · simp only [deed, before, hcall]
    exact link_afterTearDown pins _ i answers _
  · simp only [deed, before, hcall]
    exact link_disconnect pins _ i answers _

theorem link_subscribed {s t : DeviceTasks F} {i : ℕ}
    {outcome : Except String (Uuid × MetricsHistoryBody F)} (h : s.subscribed i outcome = some t) :
    t.link = s.link.apply i (.wait .returned) := by
  unfold subscribed at h
  split at h
  · obtain ⟨chart, -, rfl⟩ := Option.map_eq_some_iff.mp h
    rfl
  · cases h
    rfl
  · cases h

/-- **Every move of the code is its deed.** -/
theorem turn_link {pins : Pins} {s : DeviceTasks F} {move : DeviceMove F} {t : DeviceTurn F}
    (h : turn pins s move = some t) :
    t.tasks.link = (s.before move).apply (move.call s) (s.deed move) := by
  cases move with
  | connect =>
      cases h
      exact link_connect _ _
  | disconnect =>
      cases h
      exact link_disconnect pins _ _ _ _
  | refreshAfterForeground =>
      simp only [turn, refreshAfterForeground] at h
      simp only [deed]
      have hstay : s.arrive.device = s.device := rfl
      rw [hstay] at h
      split_ifs at h with hstay hconnected
      · obtain ⟨u, hu, rfl⟩ := Option.map_eq_some_iff.mp h
        rw [if_pos hstay, if_pos hconnected]
        exact link_sendPing hu
      · cases h
        rw [if_pos hstay, if_neg hconnected]
        exact link_tearDown pins _ _ _ _
      · cases h
        rw [if_neg hstay]
        rfl
  | sendPing =>
      obtain ⟨u, hu, rfl⟩ := Option.map_eq_some_iff.mp h
      exact link_sendPing hu
  | unpair =>
      cases h
      have hsession : s.arrive.device.session = s.device.session := rfl
      simp only [unpair, deed, hsession]
      cases s.device.session with
      | none => rfl
      | some live => rfl
  | dialled i outcome answers => exact link_dialled h
  | subscribed i outcome =>
      obtain ⟨u, hu, rfl⟩ := Option.map_eq_some_iff.mp h
      exact link_subscribed hu
  | ponged i outcome answers => exact link_ponged h
  | revoked i outcome answers => exact link_revoked h
  | closed i answers => exact link_closed h
  | tick tick =>
      cases h
      have hset : s.calls.set s.calls.length .returned = s.calls :=
        List.set_eq_of_length_le (le_refl _)
      simp only [deed, before, DeviceMove.call, Linkage.apply, link, hset]

end DeviceTasks

/-! ### Whose sessions there are -/

/-- A call that has a session to leave, if it ever had a dial: its dial is over. -/
def DeviceCall.pastDial : DeviceCall → Bool
  | subscribing _ => true
  | returned => true
  | _ => false

namespace Linkage

/-- The dial of a call is over. -/
def PastDial (l : Linkage) (i : ℕ) : Prop :=
  ∃ call, l.calls[i]? = some call ∧ call.pastDial = true

/-- A model's session, and what its calls tear down, come from dials that are over; an `unpair` that
revokes over a session of its own has it open. -/
structure Numbered (l : Linkage) : Prop where
  session : ∀ session, l.session = some session → l.PastDial session.number
  closing : ∀ (k : ℕ) session reason, l.calls[k]? = some (.closing session reason) →
    l.PastDial session.number
  closingLive : ∀ (k : ℕ) live hostOutcome, l.calls[k]? = some (.closingLive live hostOutcome) →
    live.number = k ∨ l.PastDial live.number
  revoking : ∀ (k : ℕ) live, l.calls[k]? = some (.revoking live) →
    live.number = k ∧ k ∈ l.opened ∨ l.PastDial live.number

/-- A deed is about a session that the model or the call has. -/
def Fits (l : Linkage) (i : ℕ) : Deed → Prop
  | .wait (.closing session _) => l.session = some session
  | .wait (.closingLive live _) => l.calls[i]? = some (.revoking live)
  | .wait (.revoking live) => l.session = some live
  | .accept opened => opened.number = i ∧ i < l.calls.length
  | .hold live => live.number = i
  | _ => True

theorem getElem?_set_cases {calls : List DeviceCall} {i k : ℕ} {call found : DeviceCall}
    (h : (calls.set i call)[k]? = some found) :
    k = i ∧ found = call ∨ k ≠ i ∧ calls[k]? = some found := by
  rw [List.getElem?_set] at h
  split_ifs at h with hik hlt
  · cases h
    exact Or.inl ⟨hik.symm, rfl⟩
  · exact Or.inr ⟨fun hki => hik hki.symm, h⟩

end Linkage

/-- Where a deed leaves its call. -/
def Deed.next : Deed → DeviceCall
  | .wait call => call
  | .dial => .dialling
  | .accept opened =>
      if opened.helloOk.capabilities.contains .metrics then .subscribing opened else .returned
  | .hold live => .revoking live
  | _ => .returned

namespace Linkage

theorem calls_apply (l : Linkage) (i : ℕ) (deed : Deed) :
    (l.apply i deed).calls = l.calls.set i deed.next := by
  cases deed <;> rfl

theorem pastDial_next_accept (opened : OpenSession) :
    (Deed.accept opened).next.pastDial = true := by
  simp only [Deed.next]
  split <;> rfl

variable {l : Linkage} {i : ℕ} {deed : Deed}

/-- A dial that is over stays so. -/
theorem PastDial.apply {n : ℕ} (h : l.PastDial n)
    (hi : ∀ call, l.calls[i]? = some call → call.pastDial = true → deed = .wait .returned) :
    (l.apply i deed).PastDial n := by
  obtain ⟨call, hcall, hpast⟩ := h
  unfold PastDial
  rw [calls_apply]
  by_cases hn : i = n
  · subst hn
    have hlt : i < l.calls.length := (List.getElem?_eq_some_iff.mp hcall).1
    obtain rfl := hi call hcall hpast
    exact ⟨.returned, List.getElem?_set_self hlt, rfl⟩
  · exact ⟨call, by rw [List.getElem?_set_ne hn, hcall], hpast⟩

/-- A deed that fits keeps whose sessions there are, unless its call is past its dial and goes
on. -/
theorem Numbered.apply (h : l.Numbered) (hfits : l.Fits i deed)
    (hi : ∀ call, l.calls[i]? = some call → call.pastDial = true → deed = .wait .returned) :
    (l.apply i deed).Numbered := by
  have hmono : ∀ {n}, l.PastDial n → (l.apply i deed).PastDial n := fun h => h.apply hi
  refine ⟨?_, ?_, ?_, ?_⟩
  · intro session hsession
    cases deed with
    | accept opened =>
        cases hsession
        obtain ⟨hnumber, hlt⟩ := hfits
        refine ⟨_, ?_, pastDial_next_accept session⟩
        rw [calls_apply, hnumber]
        exact List.getElem?_set_self hlt
    | tearDown reason => cases hsession
    | _ => exact hmono (h.session session hsession)
  · intro k session reason hk
    rw [calls_apply] at hk
    rcases getElem?_set_cases hk with ⟨rfl, hnext⟩ | ⟨-, hold⟩
    · cases deed with
      | wait call =>
          obtain rfl : DeviceCall.closing session reason = call := hnext
          exact hmono (h.session session hfits)
      | accept opened =>
          have hpast := pastDial_next_accept opened
          rw [← hnext] at hpast
          cases hpast
      | _ => cases hnext
    · exact hmono (h.closing k session reason hold)
  · intro k live hostOutcome hk
    rw [calls_apply] at hk
    rcases getElem?_set_cases hk with ⟨rfl, hnext⟩ | ⟨-, hold⟩
    · cases deed with
      | wait call =>
          obtain rfl : DeviceCall.closingLive live hostOutcome = call := hnext
          rcases h.revoking k live hfits with ⟨hown, -⟩ | hpast
          · exact Or.inl hown
          · exact Or.inr (hmono hpast)
      | accept opened =>
          have hpast := pastDial_next_accept opened
          rw [← hnext] at hpast
          cases hpast
      | _ => cases hnext
    · exact (h.closingLive k live hostOutcome hold).imp_right hmono
  · intro k live hk
    rw [calls_apply] at hk
    rcases getElem?_set_cases hk with ⟨rfl, hnext⟩ | ⟨-, hold⟩
    · cases deed with
      | wait call =>
          obtain rfl : DeviceCall.revoking live = call := hnext
          exact Or.inr (hmono (h.session live hfits))
      | accept opened =>
          have hpast := pastDial_next_accept opened
          rw [← hnext] at hpast
          cases hpast
      | hold own =>
          cases hnext
          exact Or.inl ⟨hfits, List.mem_append_right _ (List.mem_singleton.mpr rfl)⟩
      | _ => cases hnext
    · have hopened : k ∈ l.opened → k ∈ (l.apply i deed).opened := by
        intro hopen
        cases deed with
        | accept opened => exact List.mem_append_left _ hopen
        | hold own => exact List.mem_append_left _ hopen
        | _ => exact hopen
      rcases h.revoking k live hold with ⟨hown, hopen⟩ | hpast
      · exact Or.inl ⟨hown, hopened hopen⟩
      · exact Or.inr (hmono hpast)

/-- A call comes. -/
theorem Numbered.arrive (h : l.Numbered) (disconnected : Bool) :
    Numbered { l with calls := l.calls ++ [.arriving], disconnected } := by
  have hmono : ∀ {n}, l.PastDial n →
      PastDial { l with calls := l.calls ++ [.arriving], disconnected } n := by
    rintro n ⟨call, hcall, hpast⟩
    have hlt : n < l.calls.length := (List.getElem?_eq_some_iff.mp hcall).1
    exact ⟨call, (List.getElem?_append_left hlt).trans hcall, hpast⟩
  have hold : ∀ {k : ℕ} {call : DeviceCall}, call ≠ .arriving →
      (l.calls ++ [.arriving])[k]? = some call → l.calls[k]? = some call := by
    intro k call hcall hk
    rcases Nat.lt_or_ge k l.calls.length with hlt | hge
    · rwa [List.getElem?_append_left hlt] at hk
    · rw [List.getElem?_append_right hge, List.getElem?_singleton] at hk
      split_ifs at hk
      exact absurd (Option.some.inj hk).symm hcall
  refine ⟨?_, ?_, ?_, ?_⟩
  · intro session hsession
    exact hmono (h.session session hsession)
  · intro k session reason hk
    exact hmono (h.closing k session reason (hold (by simp) hk))
  · intro k live hostOutcome hk
    exact (h.closingLive k live hostOutcome (hold (by simp) hk)).imp_right hmono
  · intro k live hk
    exact (h.revoking k live (hold (by simp) hk)).imp_right hmono

/-- A session closes that no `unpair` is revoking over as its own. -/
theorem Numbered.close (h : l.Numbered) {number : ℕ}
    (hnumber : ∀ (k : ℕ) live, l.calls[k]? = some (.revoking live) → live.number = k → k ≠ number) :
    Numbered { l with opened := l.opened.filter (· ≠ number) } := by
  refine ⟨h.session, h.closing, h.closingLive, ?_⟩
  intro k live hk
  rcases h.revoking k live hk with ⟨hown, hopen⟩ | hpast
  · refine Or.inl ⟨hown, List.mem_filter.mpr ⟨hopen, ?_⟩⟩
    exact decide_eq_true (hnumber k live hk hown)
  · exact Or.inr hpast

end Linkage

namespace DeviceTasks

theorem fits_tearDownDeed {l l' : Linkage} {i : ℕ} {reason : TearDown}
    (h : l.session = l'.session) :
    l.Fits i (l'.tearDownDeed reason) := by
  unfold Linkage.tearDownDeed
  split
  · rename_i session hsession
    exact h.trans hsession
  · trivial

theorem fits_pingDeed {l l' : Linkage} {i : ℕ} {refresh : Bool} :
    l.Fits i (l'.pingDeed refresh) := by
  unfold Linkage.pingDeed
  split <;> trivial

/-- A call that is not past its dial. -/
theorem absurd_pastDial {P : Prop} {calls : List DeviceCall} {i : ℕ} {call : DeviceCall}
    (hcall : calls[i]? = some call) (hpast : call.pastDial = false) :
    ∀ found, calls[i]? = some found → found.pastDial = true → P := by
  intro found hfound hfoundPast
  cases hcall.symm.trans hfound
  cases hpast.symm.trans hfoundPast

/-- The deed of a move fits, and a call past its dial only returns. -/
theorem fits_of_turn {pins : Pins} {s : DeviceTasks F} {move : DeviceMove F} {t : DeviceTurn F}
    (h : turn pins s move = some t) :
    (s.before move).Fits (move.call s) (s.deed move) ∧
      ∀ call, (s.before move).calls[move.call s]? = some call → call.pastDial = true →
        s.deed move = .wait .returned := by
  have harrived : ∀ call, (s.calls ++ [.arriving])[s.calls.length]? = some call →
      call.pastDial = true → False := by
    intro call hcall hpast
    simp only [List.getElem?_concat_length, Option.some.injEq] at hcall
    rw [← hcall] at hpast
    cases hpast
  cases move with
  | connect =>
      refine ⟨?_, fun call hcall hpast => (harrived call hcall hpast).elim⟩
      simp only [deed]
      split <;> trivial
  | disconnect =>
      exact ⟨fits_tearDownDeed rfl, fun call hcall hpast => (harrived call hcall hpast).elim⟩
  | refreshAfterForeground =>
      refine ⟨?_, fun call hcall hpast => (harrived call hcall hpast).elim⟩
      simp only [deed]
      split_ifs
      · exact fits_pingDeed
      · exact fits_tearDownDeed rfl
      · trivial
  | sendPing => exact ⟨fits_pingDeed, fun call hcall hpast => (harrived call hcall hpast).elim⟩
  | unpair =>
      refine ⟨?_, fun call hcall hpast => (harrived call hcall hpast).elim⟩
      simp only [deed]
      split
      · rename_i live hlive
        exact hlive
      · trivial
  | dialled i outcome answers =>
      rcases dialled_cases h with ⟨helloOk, _, _, hcall, rfl, -⟩ | ⟨message, hcall, rfl, -⟩ |
        ⟨helloOk, hcall, rfl, -⟩ | ⟨message, hcall, rfl, -⟩
      · simp only [deed, before, DeviceMove.call, hcall]
        exact ⟨⟨rfl, (List.getElem?_eq_some_iff.mp hcall).1⟩, absurd_pastDial hcall rfl⟩
      · simp only [deed, before, DeviceMove.call, hcall]
        exact ⟨trivial, absurd_pastDial hcall rfl⟩
      · simp only [deed, before, DeviceMove.call, hcall]
        exact ⟨rfl, absurd_pastDial hcall rfl⟩
      · simp only [deed, before, DeviceMove.call, hcall]
        exact ⟨fits_tearDownDeed rfl, absurd_pastDial hcall rfl⟩
  | subscribed i outcome => exact ⟨trivial, fun _ _ _ => rfl⟩
  | ponged i outcome answers =>
      rcases ponged_cases h with ⟨_, _, _, _, hcall, rfl, -⟩ | ⟨_, _, _, _, hcall, rfl, -⟩
      · simp only [deed, before, DeviceMove.call, hcall]
        exact ⟨trivial, absurd_pastDial hcall rfl⟩
      · simp only [deed, before, DeviceMove.call, hcall]
        exact ⟨fits_tearDownDeed rfl, absurd_pastDial hcall rfl⟩
  | revoked i outcome answers =>
      rcases revoked_cases h with ⟨live, reason, hcall, rfl, -⟩ | ⟨live, message, hcall, rfl, -⟩
      · simp only [deed, before, DeviceMove.call, hcall]
        exact ⟨hcall, absurd_pastDial hcall rfl⟩
      · simp only [deed, before, DeviceMove.call, hcall]
        exact ⟨fits_tearDownDeed rfl, absurd_pastDial hcall rfl⟩
  | closed i answers =>
      rcases closed_cases h with ⟨session, reason, hcall, -⟩ | ⟨live, hostOutcome, hcall, -⟩
      · simp only [deed, before, DeviceMove.call, hcall]
        exact ⟨trivial, absurd_pastDial hcall rfl⟩
      · simp only [deed, before, DeviceMove.call, hcall]
        exact ⟨fits_tearDownDeed rfl, absurd_pastDial hcall rfl⟩
  | tick tick => exact ⟨trivial, fun _ _ _ => rfl⟩

/-- What has changed before a deed keeps whose sessions there are. -/
theorem numbered_before {s : DeviceTasks F} {move : DeviceMove F} (h : s.link.Numbered) :
    (s.before move).Numbered := by
  cases move with
  | connect => exact h.arrive false
  | refreshAfterForeground => exact h.arrive false
  | disconnect => exact h.arrive s.disconnected
  | sendPing => exact h.arrive s.disconnected
  | unpair => exact h.arrive s.disconnected
  | closed i answers =>
      simp only [before]
      split
      · rename_i session reason hcall
        refine h.close ?_
        rintro k live hk - rfl
        obtain ⟨call, hfound, hpast⟩ := h.closing i session reason hcall
        exact absurd_pastDial hk rfl call hfound hpast
      · rename_i live hostOutcome hcall
        refine h.close ?_
        rintro k other hk - rfl
        rcases h.closingLive i live hostOutcome hcall with hown | ⟨call, hfound, hpast⟩
        · rw [hown] at hk
          cases hcall.symm.trans hk
        · exact absurd_pastDial hk rfl call hfound hpast
      · exact h
  | _ => exact h

/-- **Every move keeps whose sessions there are.** -/
theorem numbered_of_turn {pins : Pins} {s : DeviceTasks F} {move : DeviceMove F} {t : DeviceTurn F}
    (hs : s.link.Numbered) (h : turn pins s move = some t) : t.tasks.link.Numbered := by
  obtain ⟨hfits, hi⟩ := fits_of_turn h
  rw [turn_link h]
  exact (numbered_before hs).apply hfits hi

theorem numbered_new (host : PairedHost) : (new host : DeviceTasks F).link.Numbered := by
  refine ⟨?_, ?_, ?_, ?_⟩
  · intro session hsession
    cases hsession
  · intro k session reason hk
    simp [link, new] at hk
  · intro k live hostOutcome hk
    simp [link, new] at hk
  · intro k live hk
    simp [link, new] at hk

end DeviceTasks

end Osprey
