/-
**Who may send a frame to whom.**

`handleFrame` of `relay/src/routes/ws.ts` looks the pairing of the two devices up, waits for the
database, and looks the peer's socket up afterwards.  Between the two, sockets attach, are
superseded and are dropped, and pairings are revoked.  Every frame the relay sends to a peer all the
same goes back to a message on a socket of the device it names, goes to a socket of the device that
message named, and had a pairing of the two when its own lookup was made.

Main definitions:

* `Osprey.Relay.received` — the messages of a run;
* `Osprey.Relay.PairedWhenLookedUp` — a live pairing was there when a transaction made its lookup;
* `Osprey.Relay.Lawful` — the invariant.

Main results:

* `Osprey.Relay.lawful_of_run` — the invariant holds in every state of every run;
* `Osprey.Relay.relayed_frame_authorised` — **every relayed frame was authorised**.
-/

import Osprey.RelayServer

set_option relaxedAutoImplicit false
set_option autoImplicit false

namespace Osprey.Relay

open Transactions ReadCommitted

/-! ### What stays -/

namespace Server

/-- A socket about to be attached has no device yet. -/
theorem deviceAt_of_attaching {s : Server} {i : ℕ} {device : AuthenticatedDevice}
    (h : s.attaching i = some device) : s.deviceAt i = none := by
  unfold attaching at h
  obtain ⟨conn, hconn, hphase⟩ := Option.bind_eq_some_iff.mp h
  split at hphase
  · rename_i device' heq
    rw [deviceAt, hconn, Option.bind_some, Conn.device?, heq]
  · cases hphase

/-- A socket keeps its device. -/
theorem HubMove.deviceAt {s s' : Server} {event : ServerEvent} (h : HubMove s event s') {i : ℕ}
    {device : AuthenticatedDevice} (hdevice : s.deviceAt i = some device) :
    s'.deviceAt i = some device := by
  cases h with
  | quiet _ _ hkeeps hattach hdrop => rw [hkeeps.deviceAt, hdevice]
  | attach i' touch audit device' _ hattaching hhub hdevices hrevoked =>
      rw [hdevices, if_neg, hdevice]
      rintro rfl
      cases (deviceAt_of_attaching hattaching).symm.trans hdevice
  | close i' device' _ hhub hdevices hrevoked => rw [hdevices, hdevice]
  | drop j draws caller deviceId _ hdropping hhub hdevices hrevoked => rw [hdevices, hdevice]

/-- A call of `handleFrame` keeps its arguments and the lookup it has made. -/
structure Continues (handler handler' : Handler) : Prop where
  socket : handler'.socket = handler.socket
  device : handler'.device = handler.device
  raw : handler'.raw = handler.raw
  lookup : handler'.handling.lookup = handler.handling.lookup

theorem FrameMove.handler {platform : Platform} {s s' : Server} {event : ServerEvent}
    (h : FrameMove platform s event s') {k : ℕ} {handler : Handler}
    (hk : s.handlers[k]? = some handler) :
    ∃ handler', s'.handlers[k]? = some handler' ∧ Continues handler handler' := by
  have hrefl : Continues handler handler := ⟨rfl, rfl, rfl, rfl⟩
  have hlt := (List.getElem?_eq_some_iff.mp hk).1
  -- the call whose turn it is keeps the number of its lookup
  have hset {k' : ℕ} {old : Handler} {lookup : ℕ} {handling : Handling}
      (hk' : s.handlers[k']? = some old) (hold : old.handling.lookup = some lookup)
      (hnew : handling.lookup = some lookup) :
      ∃ handler', (s.setHandling k' handling).handlers[k]? = some handler' ∧
        Continues handler handler' := by
    by_cases heq : k' = k
    · subst heq
      cases hk.symm.trans hk'
      refine ⟨{ handler with handling }, ?_, rfl, rfl, rfl, hnew.trans hold.symm⟩
      rw [setHandling, List.getElem?_modify_eq, hk]
      rfl
    · exact ⟨handler, by rw [setHandling, List.getElem?_modify_ne _ _ heq, hk], hrefl⟩
  cases h with
  | still _ _ hmessage hresume hhandlers hsent => exact ⟨handler, by rw [hhandlers, hk], hrefl⟩
  | reply i raw device _ hdevice hhandlers hsent =>
      exact ⟨handler, by rw [hhandlers, List.getElem?_append_left hlt, hk], hrefl⟩
  | look i raw device peer payload _ hdevice hparse hhandlers hstore hsent =>
      exact ⟨handler, by rw [hhandlers, List.getElem?_append_left hlt, hk], hrefl⟩
  | deliver k' audit old lookup peer payload socket _ hk' hlooking hparse houtcome hpeer hdelivering
      hhandlers hsent =>
      rw [hhandlers]
      exact hset hk' (by rw [hlooking, Handling.lookup]) rfl
  | answer k' audit old lookup handling _ hk' hold hnew hdelivering hhandlers hsent =>
      rw [hhandlers]
      exact hset hk' hold hnew

/-- A call of `handleFrame` goes on from one that was there, or was made by this event: for the
device of its socket, and with the next transaction for its lookup. -/
theorem FrameMove.handler_cases {platform : Platform} {s s' : Server} {event : ServerEvent}
    (h : FrameMove platform s event s') {k : ℕ} {handler' : Handler}
    (hk : s'.handlers[k]? = some handler') :
    (∃ handler, s.handlers[k]? = some handler ∧ Continues handler handler') ∨
    (s.deviceAt handler'.socket = some handler'.device ∧
      ∀ lookup, handler'.handling.lookup = some lookup → lookup = s.nextTxn ∧
        ∃ peer payload, parseClientFrame platform handler'.raw = .ok (.relay peer payload) ∧
          s'.store = (s.begin platform (.peerIsPaired handler'.device.accountId
            handler'.device.deviceId.text peer)).store) := by
  -- the call whose turn it is keeps the number of its lookup
  have hset {k' : ℕ} {old : Handler} {lookup : ℕ} {handling : Handling}
      (hk' : s.handlers[k']? = some old) (hold : old.handling.lookup = some lookup)
      (hnew : handling.lookup = some lookup)
      (hk : (s.setHandling k' handling).handlers[k]? = some handler') :
      ∃ handler, s.handlers[k]? = some handler ∧ Continues handler handler' := by
    rcases Transition.getElem?_modify_cases hk with ⟨-, hk⟩ | ⟨rfl, before, hbefore, rfl⟩
    · exact ⟨handler', hk, rfl, rfl, rfl, rfl⟩
    · cases hbefore.symm.trans hk'
      exact ⟨old, hk', rfl, rfl, rfl, hnew.trans hold.symm⟩
  cases h with
  | still _ _ hmessage hresume hhandlers hsent =>
      exact .inl ⟨handler', hhandlers ▸ hk, rfl, rfl, rfl, rfl⟩
  | reply i raw device _ hdevice hhandlers hsent =>
      rw [hhandlers] at hk
      rcases append_cases hk with rfl | hk
      · exact .inr ⟨hdevice, fun lookup hlookup => by cases hlookup⟩
      · exact .inl ⟨handler', hk, rfl, rfl, rfl, rfl⟩
  | look i raw device peer payload _ hdevice hparse hhandlers hstore hsent =>
      rw [hhandlers] at hk
      rcases append_cases hk with rfl | hk
      · refine .inr ⟨hdevice, fun lookup hlookup => ?_⟩
        cases hlookup
        exact ⟨rfl, peer, payload, hparse, hstore⟩
      · exact .inl ⟨handler', hk, rfl, rfl, rfl, rfl⟩
  | deliver k' audit old lookup peer payload socket _ hk' hlooking hparse houtcome hpeer hdelivering
      hhandlers hsent =>
      rw [hhandlers] at hk
      exact .inl (hset hk' (by rw [hlooking, Handling.lookup]) rfl hk)
  | answer k' audit old lookup handling _ hk' hold hnew hdelivering hhandlers hsent =>
      rw [hhandlers] at hk
      exact .inl (hset hk' hold hnew hk)

/-- A transaction keeps its call, and its outcome once it has one. -/
theorem Move.txn {platform : Platform} {s s' : Server} {event : ServerEvent}
    (h : Move platform s event s') {t : ℕ} {x : RelayTxn} (hx : s.store.txns[t]? = some x) :
    ∃ x', s'.store.txns[t]? = some x' ∧ x'.call = x.call ∧ (x.outcome ≠ none → x' = x) := by
  rcases h.store with ⟨e, -, he⟩ | ⟨calls, hcalls⟩
  · exact txn_of_move (ReadCommitted.move_of_step he) hx
  · refine ⟨x, ?_, rfl, fun _ => rfl⟩
    rw [hcalls, List.getElem?_append_left (List.getElem?_eq_some_iff.mp hx).1, hx]

theorem Move.outcome {platform : Platform} {s s' : Server} {event : ServerEvent}
    (h : Move platform s event s') {t : ℕ} {result : Except (DbError UniqueIndex) Answer}
    (ht : s.outcome t = some result) : s'.outcome t = some result := by
  obtain ⟨x, hx, houtcome⟩ := Option.bind_eq_some_iff.mp ht
  obtain ⟨x', hx', -, hsame⟩ := h.txn hx
  rw [hsame (by rw [houtcome]; simp)] at hx'
  rw [Server.outcome, hx', Option.bind_some, houtcome]

end Server

/-! ### The invariant -/

open Server

/-- A frame to a peer goes back to a call of `handleFrame` whose lookup found the pairing, and it
went to a socket of the device its message named. -/
def Authorised (platform : Platform) (s : Server) (x : Sent) (sender : PgUuid) (payload : Text) :
    Prop :=
  ∃ (handler : Handler) (peer : UuidText) (lookup : ℕ) (receiver : AuthenticatedDevice),
    s.handlers[x.handler]? = some handler ∧ handler.device.deviceId = sender ∧
    parseClientFrame platform handler.raw = .ok (.relay peer payload) ∧
    handler.handling.lookup = some lookup ∧
    s.outcome lookup = some (.ok (.peerIsPaired true)) ∧
    s.deviceAt x.socket = some receiver ∧ receiver.accountId = handler.device.accountId ∧
    receiver.deviceId.text = peer

/-- The hub holds attached sockets under their own keys, every message was handled for the device of
its socket, and with that device every lookup was made. -/
structure Lawful (platform : Platform) (s : Server) : Prop where
  hub : ∀ key i, s.hub.sockets.lookup key = some i → ∃ device, s.deviceAt i = some device ∧
    key = SocketHub.key device.accountId.chars device.deviceId.chars
  handler : ∀ (k : ℕ) (handler : Handler), s.handlers[k]? = some handler →
    s.deviceAt handler.socket = some handler.device
  lookup : ∀ (k : ℕ) (handler : Handler) (lookup : ℕ), s.handlers[k]? = some handler →
    handler.handling.lookup = some lookup → ∃ (peer : UuidText) (payload : Text) (x : RelayTxn),
      parseClientFrame platform handler.raw = .ok (.relay peer payload) ∧
      s.store.txns[lookup]? = some x ∧
      x.call = .peerIsPaired handler.device.accountId handler.device.deviceId.text peer
  sent : ∀ x ∈ s.sent, ∀ sender payload, x.frame = .relay sender payload →
    Authorised platform s x sender payload

theorem lawful_init (platform : Platform) (rows : List Row) : Lawful platform (.init rows) where
  hub key i h := by simp [Server.init] at h
  handler k handler h := by simp [Server.init] at h
  lookup k handler lookup h := by simp [Server.init] at h
  sent x h := by simp [Server.init] at h

/-- The hub goes on holding attached sockets under their own keys. -/
theorem Lawful.hub_of_move {platform : Platform} {s s' : Server} {event : ServerEvent}
    (hs : Lawful platform s) (h : HubMove s event s') (key : Text) (i : ℕ)
    (hi : s'.hub.sockets.lookup key = some i) : ∃ device, s'.deviceAt i = some device ∧
      key = SocketHub.key device.accountId.chars device.deviceId.chars := by
  -- a socket that was in the hub before
  have hbefore (hi : s.hub.sockets.lookup key = some i) : ∃ device,
      s'.deviceAt i = some device ∧
        key = SocketHub.key device.accountId.chars device.deviceId.chars := by
    obtain ⟨device, hdevice, hkey⟩ := hs.hub key i hi
    exact ⟨device, h.deviceAt hdevice, hkey⟩
  cases h with
  | quiet _ _ hkeeps hattach hdrop => exact hbefore (hkeeps.hub ▸ hi)
  | attach i' touch audit device _ hattaching hhub hdevices hrevoked =>
      rw [hhub, SocketHub.lookup_attach] at hi
      split at hi
      · rename_i hkey
        cases hi
        exact ⟨device, by rw [hdevices, if_pos rfl], hkey⟩
      · exact hbefore hi
  | close i' device _ hhub hdevices hrevoked => exact hbefore (SocketHub.lookup_detach (hhub ▸ hi))
  | drop j draws caller deviceId _ hdropping hhub hdevices hrevoked =>
      rw [hhub, SocketHub.lookup_drop] at hi
      split at hi
      · cases hi
      · exact hbefore hi

/-- A frame that was authorised stays so. -/
theorem Authorised.of_move {platform : Platform} {s s' : Server} {event : ServerEvent} {x : Sent}
    {sender : PgUuid} {payload : Text} (hx : Authorised platform s x sender payload)
    (h : Move platform s event s') : Authorised platform s' x sender payload := by
  obtain ⟨handler, peer, lookup, receiver, hk, hsender, hparse, hlookup, houtcome, hreceiver,
    haccount, hpeer⟩ := hx
  obtain ⟨handler', hk', hcontinues⟩ := h.frames.handler hk
  refine ⟨handler', peer, lookup, receiver, hk', ?_, ?_, ?_, h.outcome houtcome,
    h.hub.deviceAt hreceiver, ?_, hpeer⟩
  · rw [hcontinues.device, hsender]
  · rw [hcontinues.raw, hparse]
  · rw [hcontinues.lookup, hlookup]
  · rw [hcontinues.device, haccount]

/-- The frame that an event delivers is authorised. -/
theorem Lawful.authorised {platform : Platform} {s s' : Server} {k : ℕ} {audit : Draws}
    (hs : Lawful platform s) (h : Move platform s (.resume k audit) s') {handler : Handler}
    {lookup : ℕ} {peer : UuidText} {payload : Text} {socket : ℕ}
    (hk : s.handlers[k]? = some handler) (hlooking : handler.handling = .looking lookup)
    (hparse : parseClientFrame platform handler.raw = .ok (.relay peer payload))
    (houtcome : s.outcome lookup = some (.ok (.peerIsPaired true)))
    (hpeer : s.hub.get handler.device.accountId.chars peer.chars = some socket) :
    Authorised platform s' ⟨socket, .relay handler.device.deviceId payload, k⟩
      handler.device.deviceId payload := by
  -- the key under which the socket was found is the key it was attached with
  obtain ⟨receiver, hreceiver, hkey⟩ := hs.hub _ _ hpeer
  obtain ⟨haccount, hdevice⟩ := SocketHub.key_injective
    (show SocketHub.key handler.device.accountId.chars peer.chars
      = SocketHub.key receiver.accountId.chars receiver.deviceId.text.chars from hkey)
  have hbefore : Authorised platform s ⟨socket, .relay handler.device.deviceId payload, k⟩
      handler.device.deviceId payload :=
    ⟨handler, peer, lookup, receiver, hk, rfl, hparse, by rw [hlooking, Handling.lookup], houtcome,
      hreceiver, haccount.symm, hdevice.symm⟩
  exact hbefore.of_move h

theorem lawful_of_move {platform : Platform} {s s' : Server} {event : ServerEvent}
    (hs : Lawful platform s) (h : Move platform s event s') : Lawful platform s' where
  hub := hs.hub_of_move h.hub
  handler k handler' hk := by
    rcases h.frames.handler_cases hk with ⟨handler, hhandler, hcontinues⟩ | ⟨hdevice, -⟩
    · rw [hcontinues.socket, hcontinues.device]
      exact h.hub.deviceAt (hs.handler k handler hhandler)
    · exact h.hub.deviceAt hdevice
  lookup k handler' lookup hk hlookup := by
    rcases h.frames.handler_cases hk with ⟨handler, hhandler, hcontinues⟩ | ⟨-, hnew⟩
    · rw [hcontinues.lookup] at hlookup
      obtain ⟨peer, payload, x, hparse, hx, hcall⟩ := hs.lookup k handler lookup hhandler hlookup
      obtain ⟨x', hx', hcall', -⟩ := h.txn hx
      refine ⟨peer, payload, x', ?_, hx', ?_⟩
      · rw [hcontinues.raw, hparse]
      · rw [hcontinues.device, hcall', hcall]
    · obtain ⟨rfl, peer, payload, hparse, hstore⟩ := hnew lookup hlookup
      let call : Call :=
        .peerIsPaired handler'.device.accountId handler'.device.deviceId.text peer
      refine ⟨peer, payload, ⟨call, program platform.sha256Hex call, none, [], none⟩, hparse, ?_,
        rfl⟩
      rw [hstore, begin, nextTxn, List.getElem?_concat_length]
  sent x hx sender payload hframe := by
    -- what was sent before stays authorised; only a delivery sends a new frame of a peer
    have hbefore (hx : x ∈ s.sent) : Authorised platform s' x sender payload :=
      (hs.sent x hx sender payload hframe).of_move h
    have hreplies (hreplies : Replies s s') : Authorised platform s' x sender payload := by
      rcases hreplies with hsame | ⟨y, hy, hnot⟩
      · exact hbefore (hsame ▸ hx)
      · rw [hy] at hx
        rcases List.mem_append.mp hx with hx | hx
        · exact hbefore hx
        · rw [← List.mem_singleton.mp hx, hframe] at hnot
          cases hnot
    cases h.frames with
    | still _ _ hmessage hresume hhandlers hsent => exact hbefore (hsent ▸ hx)
    | reply i raw device _ hdevice hhandlers hsent => exact hreplies hsent
    | look i raw device peer payload _ hdevice hparse hhandlers hstore hsent =>
        exact hbefore (hsent ▸ hx)
    | deliver k audit handler lookup peer payload' socket _ hk hlooking hparse houtcome hpeer
        hdelivering hhandlers hsent =>
        rw [hsent] at hx
        rcases List.mem_append.mp hx with hx | hx
        · exact hbefore hx
        · cases List.mem_singleton.mp hx
          cases hframe
          exact hs.authorised h hk hlooking hparse houtcome hpeer
    | answer k audit handler lookup handling _ hk hold hnew hdelivering hhandlers hsent =>
        exact hreplies hsent

/-- **The invariant holds in every state of every run.** -/
theorem lawful_of_run {platform : Platform} {rows : List Row} {events : List ServerEvent}
    {s : Server} (h : Transition.run (Server.step platform) (.init rows) events = some s) :
    Lawful platform s :=
  Transition.run_keeps (fun _ _ _ hs hstep => lawful_of_move hs (Server.move_of_step hstep))
    (lawful_init platform rows) h

/-! ### The messages of a run -/

/-- The messages of a run, in the order they arrived, each with its socket. -/
def received (events : List ServerEvent) : List (ℕ × RawMessage) :=
  events.filterMap fun event =>
    match event with
    | .message i raw => some (i, raw)
    | _ => none

/-- The messages that `handleFrame` was called for. -/
def Server.messages (s : Server) : List (ℕ × RawMessage) :=
  s.handlers.map fun handler => (handler.socket, handler.raw)

theorem Server.messages_setHandling (s : Server) (k : ℕ) (handling : Handling) :
    (s.setHandling k handling).handlers.map (fun handler => (handler.socket, handler.raw))
      = s.messages := by
  refine List.ext_getElem? fun k' => ?_
  simp only [messages, setHandling, List.getElem?_map, List.getElem?_modify]
  cases s.handlers[k']? with
  | none => rfl
  | some handler =>
      simp only [Option.map_eq_map, Option.map_some]
      split
      · rfl
      · rfl

/-- `handleFrame` is called for each message, and for nothing else. -/
theorem Server.FrameMove.messages {platform : Platform} {s s' : Server} {event : ServerEvent}
    (h : FrameMove platform s event s') : s'.messages = s.messages ++ received [event] := by
  cases h with
  | still _ _ hmessage hresume hhandlers hsent =>
      have hnone : received [event] = [] := by
        cases event with
        | message i raw => exact absurd rfl (hmessage i raw)
        | db | upgrade | authenticated | attach | resume | closing | close | delete
          | resumeDelete =>
            rfl
      rw [hnone, List.append_nil, Server.messages, hhandlers, Server.messages]
  | reply i raw device _ hdevice hhandlers hsent => simp [Server.messages, hhandlers, received]
  | look i raw device peer payload _ hdevice hparse hhandlers hstore hsent =>
      simp [Server.messages, hhandlers, received]
  | deliver k audit handler lookup peer payload socket _ hk hlooking hparse houtcome
      hpeer hdelivering
      hhandlers hsent =>
      rw [Server.messages, hhandlers, messages_setHandling]
      simp [received]
  | answer k audit handler lookup handling _ hk hold hnew hdelivering hhandlers hsent =>
      rw [Server.messages, hhandlers, messages_setHandling]
      simp [received]

/-- **The calls of `handleFrame` are those for the messages of the run**, in order. -/
theorem received_of_run {platform : Platform} {rows : List Row} {events : List ServerEvent}
    {s : Server} (h : Transition.run (Server.step platform) (.init rows) events = some s) :
    s.messages = received events := by
  induction events using List.reverseRecOn generalizing s with
  | nil =>
      cases h
      rfl
  | append_singleton events event ih =>
      obtain ⟨u, hu, hlast⟩ := Transition.run_append.mp h
      obtain ⟨s', hstep, hs'⟩ := Transition.run_cons_eq_some.mp hlast
      cases hs'
      rw [(Server.move_of_step hstep).frames.messages, ih hu, received, received, received,
        List.filterMap_append]

/-! ### The lookup -/

/-- What a lookup that found a pairing has done: it has read one. -/
def LookedUp : Call → List (Access Row) → Answer → Prop
  | .peerIsPaired accountId deviceId peerDeviceId, log, answer =>
      answer = .peerIsPaired true → ∃ found, found ≠ [] ∧
        log = [.selected (livePairingBetween accountId.value deviceId.value peerDeviceId.value)
          found]
  | _, _, _ => True

theorem program_lookedUp (sha256Hex : Text → Text) (call : Call) :
    (program sha256Hex call).Ensures (LookedUp call) [] := by
  cases call with
  | peerIsPaired accountId deviceId peerDeviceId =>
      simp only [program, peerIsPaired, Tx.ensures_bind, Tx.ensures_query, Tx.ensures_pure,
        LookedUp]
      intro found _ hanswer
      refine ⟨found, ?_, rfl⟩
      rintro rfl
      simp at hanswer
  | issue | redeem | authenticate | touchLastSeen | list | revokeDevice | revokePairing | record =>
      exact ((program_accesses sha256Hex _).ensures (by simp)).mono fun _ _ _ => trivial

/-- When the transaction `lookup` made its `SELECT`, the committed rows of the database had an
unrevoked pairing of the account that joins the two devices, one way round or the other. -/
def PairedWhenLookedUp (platform : Platform) (rows : List Row) (events : List ServerEvent)
    (lookup : ℕ) (accountId deviceId peerId : PgUuid) : Prop :=
  ∃ (before after : List ServerEvent) (u : Server) (x : RelayTxn)
    (next : List Row → Tx schema Answer) (pairing : PairingRow),
    events = before ++ .db (.exec lookup) :: after ∧
    Transition.run (Server.step platform) (.init rows) before = some u ∧
    u.store.txns[lookup]? = some x ∧
    x.body = .select (livePairingBetween accountId deviceId peerId) next ∧
    .pairing pairing ∈ u.store.committed ∧ pairing.accountId = accountId ∧
    pairing.revokedAt = none ∧
    (pairing.agentDeviceId = deviceId ∧ pairing.clientDeviceId = peerId ∨
      pairing.clientDeviceId = deviceId ∧ pairing.agentDeviceId = peerId)

theorem livePairingBetween_eq_true {accountId deviceId peerDeviceId : PgUuid} {row : Row} :
    livePairingBetween accountId deviceId peerDeviceId row = true ↔ ∃ pairing,
      row = .pairing pairing ∧ pairing.accountId = accountId ∧ pairing.revokedAt = none ∧
      (pairing.agentDeviceId = deviceId ∧ pairing.clientDeviceId = peerDeviceId ∨
        pairing.clientDeviceId = deviceId ∧ pairing.agentDeviceId = peerDeviceId) := by
  simp only [livePairingBetween, Row.among_eq_true, Row.pairing?_eq_some, decide_eq_true_eq]

/-- A lookup that answered `true` found the pairing in the database as it was at that moment. -/
theorem pairedWhenLookedUp_of_outcome {platform : Platform} {rows : List Row}
    {events : List ServerEvent} {s : Server}
    (h : Transition.run (Server.step platform) (.init rows) events = some s) {lookup : ℕ}
    {x : RelayTxn} (hx : s.store.txns[lookup]? = some x) {accountId deviceId peer : UuidText}
    (hcall : x.call = .peerIsPaired accountId deviceId peer)
    (houtcome : s.outcome lookup = some (.ok (.peerIsPaired true))) :
    PairedWhenLookedUp platform rows events lookup accountId.value deviceId.value peer.value := by
  obtain ⟨dbEvents, hdb, hstates⟩ := store_of_run h
  have hended : x.outcome = some (.ok (.peerIsPaired true)) := by
    rw [Server.outcome, hx, Option.bind_some] at houtcome
    exact houtcome
  have hkept := (guaranteed_of_run (program_lookedUp platform.sha256Hex)
    (guaranteed_init LookedUp rows) hdb).kept lookup x _ hx hended
  rw [hcall] at hkept
  obtain ⟨found, hfound, hlog⟩ := hkept rfl
  have hlog : x.log = [] ++ [.selected (livePairingBetween accountId.value deviceId.value
      peer.value)
      found] := hlog
  obtain ⟨done, rest, store, y, next, hevents, hdone, hy, hbody, -, hrows⟩ :=
    selected_at hdb hx hlog
  obtain ⟨before, after, u, hsplit, hu, hstore⟩ := hstates done lookup rest hevents
  cases hdone.symm.trans hstore
  obtain ⟨row, hrow⟩ := List.exists_mem_of_ne_nil found hfound
  rw [hrows] at hrow
  obtain ⟨hcommitted, hlive⟩ := List.mem_filter.mp hrow
  obtain ⟨pairing, rfl, haccount, hunrevoked, hjoins⟩ := livePairingBetween_eq_true.mp hlive
  exact ⟨before, after, u, y, next, pairing, hsplit, hu, hy, hbody, hcommitted, haccount,
    hunrevoked, hjoins⟩

/-! ### Every relayed frame -/

/-- **Every relayed frame was authorised.**  In every run of the relay, a frame sent to a peer's
socket was received, with its payload, on a socket authenticated as the device it names; the
socket it went to was attached as a device of the same account, under the id the message
named; and the lookup made for that very message found, in the database as it was then, an
unrevoked pairing of the account joining the two devices. -/
theorem relayed_frame_authorised (platform : Platform) {rows : List Row}
    {events : List ServerEvent} {s : Server}
    (h : Transition.run (Server.step platform) (.init rows) events = some s) {x : Sent}
    (hx : x ∈ s.sent) {sender : PgUuid} {payload : Text}
    (hframe : x.frame = .relay sender payload) :
    ∃ (i : ℕ) (raw : RawMessage) (peer : UuidText) (device receiver : AuthenticatedDevice)
      (lookup : ℕ),
      (received events)[x.handler]? = some (i, raw) ∧
      parseClientFrame platform raw = .ok (.relay peer payload) ∧
      s.deviceAt i = some device ∧ device.deviceId = sender ∧
      s.deviceAt x.socket = some receiver ∧ receiver.accountId = device.accountId ∧
      receiver.deviceId.text = peer ∧
      (s.handlers[x.handler]?.bind fun handler => handler.handling.lookup) = some lookup ∧
      PairedWhenLookedUp platform rows events lookup device.accountId.value sender peer.value := by
  have hlawful := lawful_of_run h
  obtain ⟨handler, peer, lookup, receiver, hk, hsender, hparse, hlookup, houtcome, hreceiver,
    haccount, hpeer⟩ := hlawful.sent x hx sender payload hframe
  obtain ⟨peer', payload', y, hparse', hy, hcall⟩ :=
    hlawful.lookup x.handler handler lookup hk hlookup
  cases hparse.symm.trans hparse'
  refine ⟨handler.socket, handler.raw, peer, handler.device, receiver, lookup, ?_, hparse,
    hlawful.handler x.handler handler hk, hsender, hreceiver, haccount, hpeer, ?_, ?_⟩
  · rw [← received_of_run h, Server.messages, List.getElem?_map, hk]
    rfl
  · rw [hk, Option.bind_some, hlookup]
  · have hpaired := pairedWhenLookedUp_of_outcome h hy hcall houtcome
    rw [PgUuid.value_text, hsender] at hpaired
    exact hpaired

/-! ### A frame from an agent to its client -/

/-- The client of the small examples. -/
def uuidA : PgUuid := ⟨uuidChars 'a', by decide, by decide⟩

/-- SHA-256 of the secrets of the small examples, in hex: the empty one, `a` and `b`. -/
def digestEmpty : Text := "e3b0c44298fc1c149afbf4c8996fb92427ae41e4649b934ca495991b7852b855".toList
def digestA : Text := "ca978112ca1bbdcafac231b39a23dc4da786eff8147c4e72b9807785afee48bb".toList
def digestB : Text := "3e23e8160039594a33894f6564e1b1348bbd7a0088d42c4acb73eeaed59c009d".toList

/-- An account with an agent, whose secret is `a`, and its client, whose secret is `b`. -/
def pairedRelay : List Row :=
  [.account ⟨uuid0, 0, none⟩,
    .device ⟨uuid1, uuid0, .agent, [], [], .ed25519, [], [], digestA, 0, none, none⟩,
    .device ⟨uuidA, uuid0, .client, [], [], .p256, [], [], digestB, 0, none, none⟩,
    .pairing ⟨uuid3, uuid0, uuid1, uuidA, [], [], [], [], 0, none, none⟩]

/-- The JSON text of a frame to the client. -/
def frameJson (payload : Text) : Text :=
  "\x7b\"t\":\"relay\",\"to\":\"".toList ++ uuidA.chars ++ "\",\"payload\":\"".toList ++ payload ++
    "\"\x7d".toList

/-- A platform that does what node does on the secrets, bytes and texts of the small examples. -/
def smallPlatform : Platform where
  sha256Hex secret :=
    if secret = "a".toList then digestA else if secret = "b".toList then digestB else digestEmpty
  utf8 bytes := bytes.map fun byte => Char.ofNat byte.toNat
  jsonParse text :=
    (["x".toList, "y".toList].find? fun payload => text = frameJson payload).map fun payload =>
      .object [("t".toList, .string "relay".toList), ("to".toList, .string uuidA.chars),
        ("payload".toList, .string payload)]

/-- What `ws` hands over for a frame to the client. -/
def frameTo (payload : Text) : RawMessage :=
  .buffer ((frameJson payload).map fun c => UInt8.ofNat c.toNat)

/-- The header a device sends, with the account id in a spelling of its own. -/
def bearerHeader (accountId secret : Text) : Option Text :=
  some ("Bearer ".toList ++ accountId ++ '.' :: secret)

/-- What a transaction draws, under one id. -/
def drawsOf (id : PgUuid) : Draws := ⟨id, id, id, id, [], 10, 10, 10⟩

/-- A device connects: its token is checked by transaction `t`, and its socket attached. -/
def connects (endpoint : DeviceKind) (secret : Text) (i t : ℕ) : List ServerEvent :=
  [.upgrade endpoint (bearerHeader uuid0.chars secret) "::1".toList, .db (.exec t), .db (.exec t),
    .authenticated i, .attach i (drawsOf uuid2) (drawsOf uuid2)]

/-- Agent and client connect, and the agent sends a frame. -/
def relayEvents : List ServerEvent :=
  connects .agent "a".toList 0 0 ++ connects .client "b".toList 1 3 ++
    [.message 0 (frameTo "x".toList), .db (.exec 6), .db (.exec 6), .resume 0 (drawsOf uuid4)]

/-- The frame went out, and its lookup found the pairing. -/
theorem relayed_frame_authorised_small : ∃ s : Server,
    Transition.run (Server.step smallPlatform) (.init pairedRelay) relayEvents = some s ∧
      ∃ x ∈ s.sent, x.frame = .relay uuid1 "x".toList ∧ ∃ (peer : UuidText) (lookup : ℕ),
        PairedWhenLookedUp smallPlatform pairedRelay relayEvents lookup uuid0 uuid1 peer.value := by
  have hrun : ((Transition.run (Server.step smallPlatform) (.init pairedRelay) relayEvents).any
      fun s => s.sent = [⟨1, .relay uuid1 "x".toList, 0⟩] &&
        s.deviceAt 0 = some ⟨uuid0.text, uuid1, .agent⟩) = true := by
    decide +kernel
  obtain ⟨s, hs, hend⟩ := (Option.any_eq_true _ _).mp hrun
  simp only [Bool.and_eq_true, decide_eq_true_eq] at hend
  obtain ⟨hsent, hagent⟩ := hend
  have hx : (⟨1, .relay uuid1 "x".toList, 0⟩ : Sent) ∈ s.sent := by
    rw [hsent]
    exact List.mem_singleton_self _
  refine ⟨s, hs, _, hx, rfl, ?_⟩
  obtain ⟨i, raw, peer, device, receiver, lookup, hreceived, -, hdevice, -, -, -, -, -, hpaired⟩ :=
    relayed_frame_authorised smallPlatform hs hx rfl
  -- the only message came from the agent's socket
  have hfirst : (received relayEvents)[0]? = some (0, frameTo "x".toList) := rfl
  cases hreceived.symm.trans hfirst
  cases hdevice.symm.trans hagent
  rw [PgUuid.value_text] at hpaired
  exact ⟨peer, lookup, hpaired⟩

end Osprey.Relay
