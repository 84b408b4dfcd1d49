/-
**Deleting a device while it connects.**

`DELETE /v1/devices/:id` revokes the device in the database and then drops its socket from the hub,
as `onDeviceRevoked` of `relay/src/routes/devices.ts` says.  Two things are left open.  A connection
of the device whose token was accepted before the revocation attaches its socket after it, whenever
its handler comes to run.  And the hub is keyed by the ids as they were spelled: the account id in
the token of the device, the device id as the database prints it.  The deletion drops under the
account id of its own caller's token and the device id of its path.

Main definitions:

* `Osprey.Relay.Immediate` — no socket of a device is in the hub once a deletion of it has answered
  204;
* `Osprey.Relay.InOrder` — no deletion of a device overtakes the authentication of a connection of
  it, and a deletion finds the sockets of its device under the spellings it has.

Main results:

* `Osprey.Relay.immediate_step_iff` — which steps keep the property;
* `Osprey.Relay.immediate_iff_inOrder` — **the property holds in every state of a run exactly if
  the run is in order**;
* `Osprey.Relay.revoked_device_attached` — a run of either kind in which it does not.
-/

import Osprey.RelayTimeline

set_option relaxedAutoImplicit false
set_option autoImplicit false

namespace Osprey.Relay

open Server

/-! ### The property and the condition -/

instance (s : Server) (deviceId : PgUuid) : Decidable (s.Revoked deviceId) :=
  inferInstanceAs (Decidable (∃ request ∈ s.deletes, request.revoked? = some deviceId))

/-- No socket in the hub is of a device that a deletion has answered 204 for. -/
def Immediate (s : Server) : Prop :=
  ∀ entry ∈ s.hub.sockets.entries, ∀ device ∈ s.deviceAt entry.2, ¬s.Revoked device.deviceId

instance (s : Server) : Decidable (Immediate s) :=
  inferInstanceAs (Decidable (∀ entry ∈ s.hub.sockets.entries, ∀ device ∈ s.deviceAt entry.2,
    ¬s.Revoked device.deviceId))

/-- A socket that is attached is of a device no deletion has answered 204 for. -/
def Current (s : Server) : ServerEvent → Prop
  | .attach i _ _ => ∀ device ∈ s.attaching i, ¬s.Revoked device.deviceId
  | _ => True

/-- A deletion that is about to drop its device finds the sockets of the device in the hub under the
account id as its caller's token spells it, and has the device id in its path as the database prints
it. -/
def Spelled (s : Server) : ServerEvent → Prop
  | .resumeDelete j _ =>
      ∀ x ∈ s.dropping j, ∀ entry ∈ s.hub.sockets.entries, ∀ device ∈ s.deviceAt entry.2,
        device.deviceId = x.2.value → device.accountId = x.1.accountId ∧ device.deviceId.text = x.2
  | _ => True

instance (s : Server) : (event : ServerEvent) → Decidable (Current s event)
  | .attach i _ _ =>
      inferInstanceAs (Decidable (∀ device ∈ s.attaching i, ¬s.Revoked device.deviceId))
  | .db _ | .upgrade .. | .authenticated _ | .message .. | .resume .. | .closing _ | .close _
  | .delete .. | .resumeDelete .. => .isTrue trivial

instance (s : Server) : (event : ServerEvent) → Decidable (Spelled s event)
  | .resumeDelete j _ =>
      inferInstanceAs (Decidable (∀ x ∈ s.dropping j, ∀ entry ∈ s.hub.sockets.entries,
        ∀ device ∈ s.deviceAt entry.2, device.deviceId = x.2.value →
          device.accountId = x.1.accountId ∧ device.deviceId.text = x.2))
  | .db _ | .upgrade .. | .authenticated _ | .attach .. | .message .. | .resume .. | .closing _
  | .close _ | .delete .. => .isTrue trivial

/-- The run is in order.  Between the `SELECT` of a connection's authentication and its being
attached, no deletion of its device commits and answers 204; and every deletion finds the sockets of
its device under the spellings it has. -/
structure InOrder (platform : Platform) (rows : List Row) (events : List ServerEvent) : Prop where
  attach : ∀ done i touch audit s device, done ++ [.attach i touch audit] <+: events →
    Transition.run (Server.step platform) (.init rows) done = some s →
    s.attaching i = some device → ¬Overtaken platform rows done i device.deviceId
  drop : Transition.Meets (Server.step platform) Spelled (.init rows) events

/-- The property, by the keys of the hub. -/
theorem immediate_iff {s : Server} : Immediate s ↔
    ∀ (key : Text) (i : ℕ) (device : AuthenticatedDevice),
    s.hub.sockets.lookup key = some i → s.deviceAt i = some device →
      ¬s.Revoked device.deviceId := by
  constructor
  · intro h key i device hi hdevice
    exact h ⟨key, i⟩ (AList.mem_lookup_iff.mp hi) device hdevice
  · rintro h ⟨key, i⟩ hentry device hdevice
    exact h key i device (AList.mem_lookup_iff.mpr hentry) hdevice

/-! ### One step -/

/-- What attaching a socket does to the property. -/
theorem immediate_attach_iff {platform : Platform} {s s' : Server} (hs : Lawful platform s)
    (hI : Immediate s) {i : ℕ} {device : AuthenticatedDevice}
    (hattaching : s.attaching i = some device)
    (hhub : s'.hub = (s.hub.attach device.accountId.chars device.deviceId.chars i).1)
    (hdevices : ∀ i', s'.deviceAt i' = if i' = i then some device else s.deviceAt i')
    (hrevoked : ∀ deviceId, s'.Revoked deviceId ↔ s.Revoked deviceId) :
    Immediate s' ↔ ¬s.Revoked device.deviceId := by
  rw [immediate_iff]
  constructor
  · intro hI' hdevice
    refine hI' (SocketHub.key device.accountId.chars device.deviceId.chars) i device ?_ ?_
      ((hrevoked _).mpr hdevice)
    · rw [hhub, SocketHub.lookup_attach, if_pos rfl]
    · rw [hdevices, if_pos rfl]
  · intro hdevice key i' device' hi' hdevice' hrevoked'
    rw [hhub, SocketHub.lookup_attach] at hi'
    rw [hrevoked] at hrevoked'
    split at hi'
    · cases hi'
      rw [hdevices, if_pos rfl] at hdevice'
      cases hdevice'
      exact hdevice hrevoked'
    · -- a socket that was in the hub before had its device, so it is not the new one
      obtain ⟨old, hold, -⟩ := hs.hub key i' hi'
      have hne : i' ≠ i := by
        rintro rfl
        cases (deviceAt_of_attaching hattaching).symm.trans hold
      rw [hdevices, if_neg hne] at hdevice'
      exact immediate_iff.mp hI key i' device' hi' hdevice' hrevoked'

/-- What the drop of a deletion does to the property. -/
theorem immediate_drop_iff {platform : Platform} {s s' : Server} (hs : Lawful platform s)
    (hI : Immediate s) {caller : AuthenticatedDevice} {deviceId : UuidText}
    (hhub : s'.hub = (s.hub.drop caller.accountId.chars deviceId.chars "device revoked".toList).1)
    (hdevices : ∀ i', s'.deviceAt i' = s.deviceAt i')
    (hrevoked : ∀ id, s'.Revoked id ↔ id = deviceId.value ∨ s.Revoked id) :
    Immediate s' ↔ ∀ entry ∈ s.hub.sockets.entries, ∀ device ∈ s.deviceAt entry.2,
      device.deviceId = deviceId.value →
        device.accountId = caller.accountId ∧ device.deviceId.text = deviceId := by
  rw [immediate_iff]
  constructor
  · rintro hI' ⟨key, i⟩ hentry device hdevice heq
    have hi := AList.mem_lookup_iff.mpr hentry
    obtain ⟨device', hdevice', hkey⟩ := hs.hub key i hi
    cases hdevice.symm.trans hdevice'
    by_contra hother
    -- under any other key the socket is still there
    have hne : key ≠ SocketHub.key caller.accountId.chars deviceId.chars := by
      intro hsame
      exact hother (SocketHub.key_injective
        (show SocketHub.key device.accountId.chars device.deviceId.text.chars = _ from
          hkey.symm.trans hsame))
    refine hI' key i device ?_ ((hdevices i).trans hdevice) ((hrevoked _).mpr (.inl heq))
    rw [hhub, SocketHub.lookup_drop, if_neg hne]
    exact hi
  · intro hspelled key i device hi hdevice hrevoked'
    rw [hhub, SocketHub.lookup_drop] at hi
    split at hi
    · cases hi
    · rename_i hne
      rw [hdevices] at hdevice
      rcases (hrevoked _).mp hrevoked' with heq | hbefore
      · obtain ⟨haccount, hid⟩ := hspelled ⟨key, i⟩ (AList.mem_lookup_iff.mp hi) device hdevice heq
        obtain ⟨device', hdevice', hkey⟩ := hs.hub key i hi
        cases hdevice.symm.trans hdevice'
        apply hne
        rw [hkey, ← haccount, ← hid]
        rfl
      · exact immediate_iff.mp hI key i device hi hdevice hbefore

/-- Where the hub holds no new socket and no deletion has answered, the property stays. -/
theorem Immediate.of_sub {s s' : Server} (hI : Immediate s)
    (hhub : ∀ key i, s'.hub.sockets.lookup key = some i → s.hub.sockets.lookup key = some i)
    (hdevices : ∀ i, s'.deviceAt i = s.deviceAt i)
    (hrevoked : ∀ deviceId, s'.Revoked deviceId ↔ s.Revoked deviceId) : Immediate s' := by
  rw [immediate_iff] at hI ⊢
  intro key i device hi hdevice hrevoked'
  exact hI key i device (hhub key i hi) ((hdevices i).symm.trans hdevice)
    ((hrevoked _).mp hrevoked')

/-- **Which steps keep the property.** -/
theorem immediate_step_iff {platform : Platform} {s s' : Server} {event : ServerEvent}
    (hs : Lawful platform s) (hI : Immediate s) (h : s.step platform event = some s') :
    Immediate s' ↔ Current s event ∧ Spelled s event := by
  cases (move_of_step h).hub with
  | quiet _ _ hkeeps hattach hdrop =>
      have hI' : Immediate s' :=
        hI.of_sub (fun key i hi => hkeeps.hub ▸ hi) hkeeps.deviceAt hkeeps.revoked
      refine ⟨fun _ => ?_, fun _ => hI'⟩
      cases event with
      | attach i touch audit => simp [Current, Spelled, hattach i touch audit rfl]
      | resumeDelete j draws => simp [Current, Spelled, hdrop j draws rfl]
      | db | upgrade | authenticated | message | resume | closing | close | delete =>
          exact ⟨trivial, trivial⟩
  | attach i touch audit device _ hattaching hhub hdevices hrevoked =>
      rw [immediate_attach_iff hs hI hattaching hhub hdevices hrevoked]
      simp [Current, Spelled, hattaching]
  | close i device _ hhub hdevices hrevoked =>
      refine ⟨fun _ => ⟨trivial, trivial⟩, fun _ => ?_⟩
      exact hI.of_sub (fun key i hi => SocketHub.lookup_detach (hhub ▸ hi)) hdevices hrevoked
  | drop j draws caller deviceId _ hdropping hhub hdevices hrevoked =>
      rw [immediate_drop_iff hs hI hhub hdevices hrevoked]
      simp only [Current, Spelled, hdropping, Option.mem_some_iff, forall_eq', true_and]

/-- A frame to a peer goes to a socket in the hub, so not to a device a deletion has answered
for. -/
theorem Immediate.not_routed {platform : Platform} {s s' : Server} {event : ServerEvent}
    (hI : Immediate s) (h : s.step platform event = some s') {x : Sent}
    (hsent : s'.sent = s.sent ++ [x]) (hrelay : x.frame.isRelay = true)
    {device : AuthenticatedDevice} (hdevice : s.deviceAt x.socket = some device) :
    ¬s.Revoked device.deviceId := by
  have hne : s'.sent ≠ s.sent := by simp [hsent]
  -- a reply is no frame of a peer
  have hreplies : ¬Replies s s' := by
    rintro (hsame | ⟨y, hy, hnot⟩)
    · exact hne hsame
    · obtain ⟨-, hxy⟩ := List.append_inj' (hsent.symm.trans hy) rfl
      rw [← List.singleton_inj.mp hxy, hrelay] at hnot
      cases hnot
  cases (move_of_step h).frames with
  | still _ _ hmessage hresume hhandlers hsame => exact absurd hsame hne
  | reply i raw device' _ hdevice' hhandlers hreply => exact absurd hreply hreplies
  | look i raw device' peer payload _ hdevice' hparse hhandlers hstore hsame =>
      exact absurd hsame hne
  | deliver k audit handler lookup peer payload socket _ hk hlooking hparse houtcome
      hpeer hdelivering
      hhandlers hsent' =>
      obtain ⟨-, hxy⟩ := List.append_inj' (hsent.symm.trans hsent') rfl
      rw [List.singleton_inj.mp hxy] at hdevice
      exact immediate_iff.mp hI _ socket device hpeer hdevice
  | answer k audit handler lookup handling _ hk hold hnew hdelivering hhandlers hreply =>
      exact absurd hreply hreplies

/-! ### Whole runs -/

/-- A run is in order exactly if all its steps are: a socket that is attached is of a deleted device
if a deletion has overtaken its authentication. -/
theorem inOrder_iff_meets {platform : Platform} {rows : List Row} (hrows : schema.Consistent rows)
    (events : List ServerEvent) : InOrder platform rows events ↔
      Transition.Meets (Server.step platform) (fun s event => Current s event ∧ Spelled s event)
        (.init rows) events := by
  constructor
  · intro hinorder
    refine Transition.meets_of_states fun done event hdone s hs => ⟨?_, hinorder.drop.at hdone hs⟩
    cases event with
    | attach i touch audit =>
        intro device hattaching
        rw [revoked_iff_overtaken hrows hs hattaching]
        exact hinorder.attach done i touch audit s device hdone hs hattaching
    | db | upgrade | authenticated | message | resume | closing | close | delete | resumeDelete =>
        trivial
  · intro hmeets
    refine ⟨fun done i touch audit s device hdone hs hattaching => ?_,
      hmeets.mono fun _ _ => And.right⟩
    rw [← revoked_iff_overtaken hrows hs hattaching]
    exact (hmeets.at hdone hs).1 device hattaching

/-- **Revocation is immediate exactly if the run is in order**: then, once a deletion of a device
has answered 204, no socket of the device is in the hub in any state of the run, and no frame of a
peer is sent to one. -/
theorem immediate_iff_inOrder (platform : Platform) {rows : List Row}
    (hrows : schema.Consistent rows) {events : List ServerEvent} {s : Server}
    (h : Transition.run (Server.step platform) (.init rows) events = some s) :
    ((∀ done, done <+: events → ∀ t,
        Transition.run (Server.step platform) (.init rows) done = some t → Immediate t) ↔
      InOrder platform rows events) ∧
    (InOrder platform rows events →
      ∀ before event after u u' x device, events = before ++ event :: after →
        Transition.run (Server.step platform) (.init rows) before = some u →
        u.step platform event = some u' → u'.sent = u.sent ++ [x] → x.frame.isRelay = true →
        u.deviceAt x.socket = some device → ¬u.Revoked device.deviceId) := by
  have hinit : Immediate (.init rows) := by
    intro entry hentry
    cases hentry
  have hiff := Transition.forall_states_iff_meets
    (fun _ _ _ hs hstep => lawful_of_move hs (Server.move_of_step hstep))
    (fun _ _ _ hs hI hstep => immediate_step_iff hs hI hstep) (lawful_init platform rows) hinit h
  rw [inOrder_iff_meets hrows]
  refine ⟨hiff, fun hmeets before event after u u' x device hevents hu hstep hsent hrelay
    hdevice => ?_⟩
  have hI : Immediate u := hiff.mpr hmeets before ⟨event :: after, hevents.symm⟩ u hu
  exact hI.not_routed hstep hsent hrelay hdevice

/-! ### Runs that are in order, and runs that are not -/

/-- The agent deletes the client, as request `j`: its token is checked by transaction `t`, and the
device is revoked by the next one. -/
def deletes (id : Text) (j t : ℕ) : List ServerEvent :=
  [.delete id (bearerHeader uuid0.chars "a".toList) "::1".toList, .db (.exec t), .db (.exec t),
    .resumeDelete j (drawsOf uuid2)] ++ List.replicate 8 (.db (.exec (t + 1))) ++
    [.resumeDelete j (drawsOf uuid2)]

/-- The client's token is found in the database, the client is deleted, and its connection goes
on. -/
def lateAttach : List ServerEvent :=
  (connects .client "b".toList 0 0).take 3 ++ deletes uuidA.chars 0 1 ++
    (connects .client "b".toList 0 0).drop 3

/-- The client is connected, and is deleted under its id in upper case. -/
def otherSpelling : List ServerEvent :=
  connects .client "b".toList 0 0 ++ deletes (uuidChars 'A') 0 3

/-- The client is connected, and is deleted under its id as the database prints it. -/
def orderlyDelete : List ServerEvent :=
  connects .client "b".toList 0 0 ++ deletes uuidA.chars 0 3

/-- In both runs the deletion has answered 204 and the client's socket is in the hub. -/
theorem revoked_device_attached :
    (∃ s, Transition.run (Server.step smallPlatform) (.init pairedRelay) lateAttach = some s ∧
      ¬Immediate s) ∧
    (∃ s, Transition.run (Server.step smallPlatform) (.init pairedRelay) otherSpelling = some s ∧
      ¬Immediate s) := by
  have hlate : ((Transition.run (Server.step smallPlatform) (.init pairedRelay) lateAttach).any
      fun s => ¬Immediate s) = true := by decide +kernel
  have hother : ((Transition.run (Server.step smallPlatform) (.init pairedRelay) otherSpelling).any
      fun s => ¬Immediate s) = true := by decide +kernel
  constructor
  · obtain ⟨s, hs, hnot⟩ := (Option.any_eq_true _ _).mp hlate
    exact ⟨s, hs, of_decide_eq_true hnot⟩
  · obtain ⟨s, hs, hnot⟩ := (Option.any_eq_true _ _).mp hother
    exact ⟨s, hs, of_decide_eq_true hnot⟩

/-- In this run it has answered 204 and the socket is gone. -/
theorem immediate_iff_inOrder_orderly : ∃ s,
    Transition.run (Server.step smallPlatform) (.init pairedRelay) orderlyDelete = some s ∧
      s.Revoked uuidA ∧ s.deviceAt 0 = some ⟨uuid0.text, uuidA, .client⟩ ∧ Immediate s := by
  have hrun : ((Transition.run (Server.step smallPlatform) (.init pairedRelay) orderlyDelete).any
      fun s => s.Revoked uuidA ∧ s.deviceAt 0 = some ⟨uuid0.text, uuidA, .client⟩) = true := by
    decide +kernel
  have hmeets : Transition.Meets (Server.step smallPlatform)
      (fun s event => Current s event ∧ Spelled s event) (.init pairedRelay) orderlyDelete := by
    decide +kernel
  have hrows : schema.Consistent pairedRelay := ⟨by decide +kernel, by decide +kernel⟩
  obtain ⟨s, hs, hend⟩ := (Option.any_eq_true _ _).mp hrun
  obtain ⟨hrevoked, hdevice⟩ := of_decide_eq_true hend
  have hinorder := (inOrder_iff_meets hrows orderlyDelete).mpr hmeets
  exact ⟨s, hs, hrevoked, hdevice,
    (immediate_iff_inOrder smallPlatform hrows hs).1.mpr hinorder orderlyDelete List.prefix_rfl s
      hs⟩

end Osprey.Relay
