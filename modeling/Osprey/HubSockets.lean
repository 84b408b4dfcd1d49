/-
**What the relay's hub holds after any sequence of events.**

`relay/src/ws/hub.ts` with the listener that `registerAttachRoute` of `relay/src/routes/ws.ts` puts
on a socket.  A socket may close at any time, also long after another one has taken its place or the
hub has dropped it, and its listeners then detach it from the keys it was attached to.

Main definitions:

* `Osprey.Relay.HubState` with `step` — the hub, the listeners, and what the hub has closed;
* `Osprey.Relay.Newest` — of a sequence of events: the socket was attached last, and neither
  detached nor dropped since.

Main results:

* `Osprey.Relay.lookup_step` — what one event leaves in the hub;
* `Osprey.Relay.hub_keeps_newest` — **the hub holds the newest socket of each key**, an `attach`
  closes the one it replaces, a `drop` the one it removes, and a late close removes no other socket.
-/

import Osprey.RelayHub

set_option relaxedAutoImplicit false
set_option autoImplicit false

namespace Osprey.Relay

/-! ### Exactly what a detach leaves -/

namespace SocketHub

theorem lookup_detach_eq_some {hub : SocketHub} {accountId deviceId k : Text} {socket i : ℕ} :
    (hub.detach accountId deviceId socket).sockets.lookup k = some i ↔
      hub.sockets.lookup k = some i ∧ ¬(key accountId deviceId = k ∧ socket = i) := by
  by_cases hholds : hub.get accountId deviceId = some socket
  · rw [detach, if_pos hholds, lookup_erase]
    split
    · rename_i hkey
      subst hkey
      have hlookup : hub.sockets.lookup (key accountId deviceId) = some socket := hholds
      rw [hlookup]
      simp
    · rename_i hkey
      simp [Ne.symm hkey]
  · rw [detach, if_neg hholds]
    refine ⟨fun h => ⟨h, ?_⟩, And.left⟩
    rintro ⟨rfl, rfl⟩
    exact hholds h

end SocketHub

/-! ### Events -/

/-- A listener for `close`: the socket it is on, and what it detaches that socket from. -/
structure CloseListener where
  socket : ℕ
  accountId : Text
  deviceId : Text
  deriving DecidableEq

/-- The hub, the listeners for `close`, and the sockets the hub has closed. -/
structure HubState where
  hub : SocketHub
  listeners : List CloseListener
  closes : List (ℕ × Close)

inductive HubEvent
  /-- `registerAttachRoute`, for a device of the right kind. -/
  | attach (accountId deviceId : Text) (socket : ℕ)
  | detach (accountId deviceId : Text) (socket : ℕ)
  | drop (accountId deviceId reason : Text)
  /-- The socket is closed, which may be any time after something has closed it. -/
  | closed (socket : ℕ)
  deriving DecidableEq

namespace HubState

def init : HubState := ⟨⟨∅⟩, [], []⟩

/-- All listeners for `close` on a socket. -/
def listenersOn (s : HubState) (socket : ℕ) : List CloseListener :=
  s.listeners.filter fun listener => listener.socket = socket

def step (s : HubState) : HubEvent → HubState
  | .attach accountId deviceId socket =>
      let (hub, superseded) := s.hub.attach accountId deviceId socket
      ⟨hub, s.listeners ++ [⟨socket, accountId, deviceId⟩], s.closes ++ superseded.toList⟩
  | .detach accountId deviceId socket => { s with hub := s.hub.detach accountId deviceId socket }
  | .drop accountId deviceId reason =>
      let (hub, dropped) := s.hub.drop accountId deviceId reason
      { s with hub, closes := s.closes ++ dropped.toList }
  | .closed socket =>
      { s with
        hub := (s.listenersOn socket).foldl
          (fun hub listener => hub.detach listener.accountId listener.deviceId listener.socket)
          s.hub }

/-- After a sequence of events. -/
def after (events : List HubEvent) : HubState := events.foldl step init

theorem after_concat (events : List HubEvent) (event : HubEvent) :
    after (events ++ [event]) = (after events).step event := by
  simp [after]

end HubState

/-! ### The newest socket -/

/-- The event attaches a socket to the key. -/
def HubEvent.AttachesTo (key : Text) : HubEvent → Prop
  | .attach accountId deviceId _ => SocketHub.key accountId deviceId = key
  | _ => False

/-- The event detaches the socket from the key, or drops what the key has. -/
def HubEvent.Removes (key : Text) (socket : ℕ) : HubEvent → Prop
  | .attach .. => False
  | .detach accountId deviceId detached =>
      SocketHub.key accountId deviceId = key ∧ detached = socket
  | .drop accountId deviceId _ => SocketHub.key accountId deviceId = key
  | .closed gone => gone = socket

/-- The socket was attached to the key, no socket was attached to it after that, and the socket was
neither detached nor dropped. -/
def Newest (events : List HubEvent) (key : Text) (socket : ℕ) : Prop :=
  ∃ before accountId deviceId since,
    events = before ++ .attach accountId deviceId socket :: since ∧
      SocketHub.key accountId deviceId = key ∧
      ∀ event ∈ since, ¬event.AttachesTo key ∧ ¬event.Removes key socket

/-- The event is the attach of the socket to the key. -/
def HubEvent.AttachOf (key : Text) (socket : ℕ) : HubEvent → Prop
  | .attach accountId deviceId attached =>
      SocketHub.key accountId deviceId = key ∧ attached = socket
  | _ => False

theorem newest_nil {key : Text} {socket : ℕ} : ¬Newest [] key socket := by
  rintro ⟨before, accountId, deviceId, since, h, -⟩
  simp at h

/-- One event more: it attaches the socket, or it leaves it the newest one. -/
theorem newest_concat {events : List HubEvent} {event : HubEvent} {key : Text} {socket : ℕ} :
    Newest (events ++ [event]) key socket ↔
      event.AttachOf key socket ∨
        (Newest events key socket ∧ ¬event.AttachesTo key ∧ ¬event.Removes key socket) := by
  constructor
  · rintro ⟨before, accountId, deviceId, since, h, hkey, hsince⟩
    rcases List.eq_nil_or_concat since with rfl | ⟨since, last, rfl⟩
    · obtain ⟨-, hlast⟩ := List.append_inj' h rfl
      cases hlast
      exact Or.inl ⟨hkey, rfl⟩
    · rw [List.concat_eq_append] at h hsince
      rw [← List.cons_append, ← List.append_assoc] at h
      obtain ⟨rfl, hlast⟩ := List.append_inj' h rfl
      cases hlast
      refine Or.inr ⟨⟨before, accountId, deviceId, since, rfl, hkey, ?_⟩, hsince event (by simp)⟩
      intro event hevent
      exact hsince event (List.mem_append_left _ hevent)
  · rintro (hattach | ⟨⟨before, accountId, deviceId, since, rfl, hkey, hsince⟩, hevent⟩)
    · cases event with
      | attach accountId deviceId attached =>
          obtain ⟨hkey, rfl⟩ := hattach
          exact ⟨events, accountId, deviceId, [], rfl, hkey, by simp⟩
      | detach accountId deviceId detached => cases hattach
      | drop accountId deviceId reason => cases hattach
      | closed gone => cases hattach
    · refine ⟨before, accountId, deviceId, since ++ [event], by simp, hkey, ?_⟩
      intro event' hevent'
      rcases List.mem_append.mp hevent' with hold | hnew
      · exact hsince event' hold
      · rw [List.mem_singleton.mp hnew]
        exact hevent

/-! ### What one event leaves -/

namespace HubState

/-- Every socket in the hub has a listener that detaches it. -/
def Heard (s : HubState) : Prop :=
  ∀ key socket, s.hub.sockets.lookup key = some socket →
    ∃ listener ∈ s.listeners,
      listener.socket = socket ∧ SocketHub.key listener.accountId listener.deviceId = key

/-- The listeners of a socket take it off all their keys, and no other socket off any. -/
theorem lookup_foldl_detach {listeners : List CloseListener} {hub : SocketHub} {key : Text}
    {socket : ℕ} :
    (listeners.foldl
        (fun hub listener => hub.detach listener.accountId listener.deviceId listener.socket)
        hub).sockets.lookup key = some socket ↔
      hub.sockets.lookup key = some socket ∧ ∀ listener ∈ listeners,
        ¬(SocketHub.key listener.accountId listener.deviceId = key ∧ listener.socket = socket) := by
  induction listeners generalizing hub with
  | nil => simp
  | cons listener listeners ih =>
      rw [List.foldl_cons, ih, SocketHub.lookup_detach_eq_some, List.forall_mem_cons, and_assoc]

/-- The closing of a socket takes it off every key that has it. -/
theorem Heard.lookup_closed {s : HubState} (hs : s.Heard) {gone : ℕ} {key : Text} {socket : ℕ} :
    (s.step (.closed gone)).hub.sockets.lookup key = some socket ↔
      s.hub.sockets.lookup key = some socket ∧ gone ≠ socket := by
  simp only [step, lookup_foldl_detach, listenersOn, List.mem_filter, decide_eq_true_eq]
  refine and_congr_right fun hlookup => ?_
  constructor
  · rintro hnone rfl
    obtain ⟨listener, hlistener, hsocket, hkey⟩ := hs key gone hlookup
    exact hnone listener ⟨hlistener, hsocket⟩ ⟨hkey, hsocket⟩
  · rintro hne listener ⟨-, rfl⟩ ⟨-, hsocket⟩
    exact hne hsocket

/-- **What one event leaves in the hub.** -/
theorem Heard.lookup_step {s : HubState} (hs : s.Heard) {event : HubEvent} {key : Text}
    {socket : ℕ} :
    (s.step event).hub.sockets.lookup key = some socket ↔
      event.AttachOf key socket ∨ (s.hub.sockets.lookup key = some socket ∧
        ¬event.AttachesTo key ∧ ¬event.Removes key socket) := by
  cases event with
  | attach accountId deviceId attached =>
      simp only [step, SocketHub.lookup_attach, HubEvent.AttachOf, HubEvent.AttachesTo,
        HubEvent.Removes]
      split
      · rename_i hkey
        simp [hkey]
      · rename_i hkey
        simp [Ne.symm hkey]
  | detach accountId deviceId detached =>
      simp [step, SocketHub.lookup_detach_eq_some, HubEvent.AttachOf, HubEvent.AttachesTo,
        HubEvent.Removes]
  | drop accountId deviceId reason =>
      simp only [step, SocketHub.lookup_drop, HubEvent.AttachOf, HubEvent.AttachesTo,
        HubEvent.Removes]
      split
      · rename_i hkey
        simp [hkey]
      · rename_i hkey
        simp [Ne.symm hkey]
  | closed closed =>
      simp [hs.lookup_closed, HubEvent.AttachOf, HubEvent.AttachesTo, HubEvent.Removes]

/-- An attach puts the listener on with the socket, and listeners stay. -/
theorem Heard.step {s : HubState} (hs : s.Heard) (event : HubEvent) : (s.step event).Heard := by
  intro key socket h
  rcases hs.lookup_step.mp h with hattach | ⟨hlookup, -, -⟩
  · cases event with
    | attach accountId deviceId attached =>
        obtain ⟨hkey, rfl⟩ := hattach
        exact ⟨⟨attached, accountId, deviceId⟩, by simp [HubState.step], rfl, hkey⟩
    | detach accountId deviceId detached => cases hattach
    | drop accountId deviceId reason => cases hattach
    | closed gone => cases hattach
  · obtain ⟨listener, hlistener, hown⟩ := hs key socket hlookup
    refine ⟨listener, ?_, hown⟩
    cases event with
    | attach accountId deviceId attached => exact List.mem_append_left _ hlistener
    | detach accountId deviceId detached => exact hlistener
    | drop accountId deviceId reason => exact hlistener
    | closed gone => exact hlistener

theorem heard_after (events : List HubEvent) : (after events).Heard := by
  induction events using List.reverseRecOn with
  | nil => simp [Heard, after, init]
  | append_singleton events event ih =>
      rw [after_concat]
      exact ih.step event

/-- What the hub holds under a key is the newest socket of the key. -/
theorem lookup_after {events : List HubEvent} {key : Text} {socket : ℕ} :
    (after events).hub.sockets.lookup key = some socket ↔ Newest events key socket := by
  induction events using List.reverseRecOn with
  | nil => simp [after, init, newest_nil]
  | append_singleton events event ih =>
      rw [after_concat, (heard_after events).lookup_step, newest_concat, ih]

theorem get_after {events : List HubEvent} {accountId deviceId : Text} {socket : ℕ} :
    (after events).hub.get accountId deviceId = some socket ↔
      Newest events (SocketHub.key accountId deviceId) socket := lookup_after

theorem get_after_eq_none {events : List HubEvent} {accountId deviceId : Text} :
    (after events).hub.get accountId deviceId = none ↔
      ∀ socket, ¬Newest events (SocketHub.key accountId deviceId) socket := by
  rw [Option.eq_none_iff_forall_ne_some]
  exact forall_congr' fun socket => not_congr get_after

/-! ### What is closed -/

variable {events : List HubEvent} {accountId deviceId : Text}

/-- An attach closes the other socket that was the newest one. -/
theorem closes_attach {previous socket : ℕ}
    (h : Newest events (SocketHub.key accountId deviceId) previous) (hne : previous ≠ socket) :
    (after (events ++ [.attach accountId deviceId socket])).closes
      = (after events).closes ++ [(previous, ⟨4000, "superseded".toList⟩)] := by
  simp [after_concat, step, SocketHub.attach, get_after.mpr h, hne]

/-- An attach closes nothing where no other socket was the newest one. -/
theorem closes_attach_of_forall {socket : ℕ}
    (h : ∀ previous, Newest events (SocketHub.key accountId deviceId) previous →
      previous = socket) :
    (after (events ++ [.attach accountId deviceId socket])).closes = (after events).closes := by
  rw [after_concat]
  cases hget : (after events).hub.get accountId deviceId with
  | none => simp [step, SocketHub.attach, hget]
  | some previous => simp [step, SocketHub.attach, hget, h previous (get_after.mp hget)]

/-- A drop closes the newest socket, and the key has none after it. -/
theorem closes_drop {socket : ℕ} (h : Newest events (SocketHub.key accountId deviceId) socket)
    (reason : Text) :
    (after (events ++ [.drop accountId deviceId reason])).closes
        = (after events).closes ++ [(socket, ⟨4001, reason⟩)] ∧
      (after (events ++ [.drop accountId deviceId reason])).hub.get accountId deviceId = none := by
  constructor
  · simp [after_concat, step, SocketHub.drop, get_after.mpr h]
  · rw [after_concat]
    exact (SocketHub.lookup_drop _ accountId deviceId reason _).trans (if_pos rfl)

/-- A drop does nothing where there is no newest socket. -/
theorem after_drop_of_forall
    (h : ∀ socket, ¬Newest events (SocketHub.key accountId deviceId) socket) (reason : Text) :
    after (events ++ [.drop accountId deviceId reason]) = after events := by
  simp [after_concat, step, SocketHub.drop, get_after_eq_none.mpr h]

end HubState

/-! ### The newest socket of each key -/

open HubState in
/-- **The hub holds the newest socket of each key.**  An attach closes the socket it replaces, if
that is another one, a drop the socket it removes, and nothing else closes any; a socket that closes
late is taken off the keys it still has, and no other socket is. -/
theorem hub_keeps_newest (events : List HubEvent) :
    (∀ (accountId deviceId : Text) (socket : ℕ),
      (after events).hub.get accountId deviceId = some socket ↔
        Newest events (SocketHub.key accountId deviceId) socket) ∧
    (∀ (accountId deviceId : Text) (socket : ℕ),
      (∀ previous, Newest events (SocketHub.key accountId deviceId) previous → previous ≠ socket →
        (after (events ++ [HubEvent.attach accountId deviceId socket])).closes
          = (after events).closes ++ [(previous, ⟨4000, "superseded".toList⟩)]) ∧
      ((∀ previous, Newest events (SocketHub.key accountId deviceId) previous →
          previous = socket) →
        (after (events ++ [HubEvent.attach accountId deviceId socket])).closes
          = (after events).closes)) ∧
    (∀ accountId deviceId reason : Text,
      (∀ socket, Newest events (SocketHub.key accountId deviceId) socket →
        (after (events ++ [HubEvent.drop accountId deviceId reason])).closes
            = (after events).closes ++ [(socket, ⟨4001, reason⟩)] ∧
          (after (events ++ [HubEvent.drop accountId deviceId reason])).hub.get accountId deviceId
            = none) ∧
      ((∀ socket, ¬Newest events (SocketHub.key accountId deviceId) socket) →
        after (events ++ [HubEvent.drop accountId deviceId reason]) = after events)) ∧
    (∀ (accountId deviceId : Text) (socket : ℕ),
      (after (events ++ [HubEvent.detach accountId deviceId socket])).closes
        = (after events).closes) ∧
    ∀ gone : ℕ, (after (events ++ [HubEvent.closed gone])).closes = (after events).closes ∧
      ∀ (accountId deviceId : Text) (socket : ℕ),
        (after (events ++ [HubEvent.closed gone])).hub.get accountId deviceId = some socket ↔
          (after events).hub.get accountId deviceId = some socket ∧ gone ≠ socket := by
  refine ⟨fun _ _ _ => get_after, ?_, ?_, ?_, ?_⟩
  · intro accountId deviceId socket
    exact ⟨fun previous => closes_attach, closes_attach_of_forall⟩
  · intro accountId deviceId reason
    exact ⟨fun socket h => closes_drop h reason, fun h => after_drop_of_forall h reason⟩
  · intro accountId deviceId socket
    rw [after_concat]
    rfl
  · intro gone
    rw [after_concat]
    exact ⟨rfl, fun accountId deviceId socket => (heard_after events).lookup_closed⟩

/-- A device that comes back: the first socket closes after the second is there. -/
theorem hub_keeps_newest_back :
    (HubState.after [.attach "a".toList "d".toList 1, .attach "a".toList "d".toList 2,
      .closed 1]).hub.get "a".toList "d".toList = some 2 :=
  ((hub_keeps_newest [.attach "a".toList "d".toList 1, .attach "a".toList "d".toList 2,
      .closed 1]).1 "a".toList "d".toList 2).mpr
    ⟨[.attach "a".toList "d".toList 1], "a".toList, "d".toList, [.closed 1], rfl, rfl,
      by simp [HubEvent.AttachesTo, HubEvent.Removes]⟩

end Osprey.Relay
