/-
**The relay's server: sockets, frames and device deletions over the database.**

`relay/src/routes/ws.ts`, `relay/src/routes/devices.ts` and `relay/src/http/auth.ts`, with the hub
of `relay/src/app.ts`.  Node runs one callback at a time, and a handler is suspended at each `await`
of a repository call.  So the server is a transition system: a repository call begins a transaction
of the database, whose statements are events of their own, and the handler goes on at some later
event, when the transaction has ended.  What happens between the two is anything at all.

Main definitions:

* `Osprey.Relay.Server` — the database, the hub, the connections, the handlers of messages, the
  deletions, and everything sent;
* `Osprey.Relay.Server.step` — one event;
* `Osprey.Relay.Server.Move` — what an event can do, branch by branch.

Main results:

* `Osprey.Relay.Server.move_of_step` — **every step is one of these moves**;
* `Osprey.Relay.Server.store_of_run` — the database of a run is reached by a run of its own.
-/

import Osprey.RelayHub
import Osprey.RelayRedeem

set_option relaxedAutoImplicit false
set_option autoImplicit false

namespace Osprey.Relay

open Transactions ReadCommitted

/-! ### Requests -/

/-- The token of an `Authorization` header. -/
def bearer (authorization : Option Text) : Option Text :=
  match authorization with
  | none => none
  | some header =>
      match header.splitOn ' ' with
      | scheme :: value :: _ =>
          if scheme.map Char.toLower = "bearer".toList ∧ value ≠ [] then some value else none
      | _ => none

/-- What `resolveDevice` passes on to `devices.authenticate`. -/
def credentials (platform : Platform) (authorization : Option Text) : Option ParsedDeviceToken :=
  (bearer authorization).bind (parseDeviceToken platform.sha256Hex)

/-- `format: 'uuid'` of the request schemas: the `urn:uuid:` form is a uuid too. -/
def uuidFormat (id : Text) : Bool :=
  isUuid id ||
    ((id.take 9).map Char.toLower = "urn:uuid:".toList && isUuid (id.drop 9))

inductive ErrorCode
  | bad_request
  | unauthorized
  | not_found
  | conflict
  | rate_limited
  | internal
  deriving DecidableEq, Repr

/-! ### The state -/

/-- What the relay sends on a socket. -/
inductive ServerFrame
  | error (code : ErrorCode) (message : Text)
  | pong
  | relay (sender : PgUuid) (payload : Text)
  deriving DecidableEq

inductive ReadyState
  | OPEN
  | CLOSING
  | CLOSED
  deriving DecidableEq, Repr

/-- How far a connection has come. -/
inductive ConnPhase
  /-- `requireDevice` waits for the transaction -/
  | authenticating (t : ℕ)
  | authenticated (device : AuthenticatedDevice)
  /-- the handler of the route has put the socket into the hub, and its listeners are there -/
  | attached (device : AuthenticatedDevice)
  | refused
  deriving DecidableEq

/-- A connection to `/v1/agent` or `/v1/client`. -/
structure Conn where
  endpoint : DeviceKind
  remoteIp : Text
  phase : ConnPhase
  readyState : ReadyState
  closedWith : Option Close
  deriving DecidableEq

/-- How far a call of `handleFrame` has come; it keeps the transaction that looked its pairing
up. -/
inductive Handling
  | looking (lookup : ℕ)
  | rejecting (lookup audit : ℕ)
  | finished (lookup : Option ℕ)
  deriving DecidableEq

/-- A call of `handleFrame`. -/
structure Handler where
  socket : ℕ
  device : AuthenticatedDevice
  raw : RawMessage
  handling : Handling
  deriving DecidableEq

/-- How far a deletion has come; `revoked` is the answer 204. -/
inductive DeletePhase
  | authenticating (t : ℕ)
  | revoking (device : AuthenticatedDevice) (deviceId : UuidText) (t : ℕ)
  | revoked (device : AuthenticatedDevice) (deviceId : UuidText)
  | failed (code : ErrorCode)
  deriving DecidableEq

/-- `DELETE /v1/devices/:id`. -/
structure DeleteRequest where
  id : Text
  remoteIp : Text
  phase : DeletePhase
  deriving DecidableEq

/-- A frame that went out, and the call of `handleFrame` that sent it. -/
structure Sent where
  socket : ℕ
  frame : ServerFrame
  handler : ℕ
  deriving DecidableEq

/-- The relay. -/
structure Server where
  store : RelayStore
  hub : SocketHub
  conns : List Conn
  handlers : List Handler
  deletes : List DeleteRequest
  sent : List Sent

inductive ServerEvent
  /-- a step of the database; with `start`, a repository call made by any other route -/
  | db (event : ReadCommitted.Event Call)
  | upgrade (endpoint : DeviceKind) (authorization : Option Text) (remoteIp : Text)
  | authenticated (i : ℕ)
  | attach (i : ℕ) (touch audit : Draws)
  | message (i : ℕ) (raw : RawMessage)
  | resume (k : ℕ) (audit : Draws)
  | closing (i : ℕ)
  | close (i : ℕ)
  | delete (id : Text) (authorization : Option Text) (remoteIp : Text)
  | resumeDelete (j : ℕ) (draws : Draws)

namespace Server

/-- The relay when it starts, over the rows of the database. -/
def init (rows : List Row) : Server := ⟨.init rows, ⟨∅⟩, [], [], [], []⟩

/-- A repository call: its transaction begins. -/
def begin (platform : Platform) (s : Server) (call : Call) : Server :=
  { s with
    store :=
      { s.store with
        txns := s.store.txns ++ [⟨call, program platform.sha256Hex call, none, [], none⟩] } }

/-- The number of the next transaction. -/
def nextTxn (s : Server) : ℕ := s.store.txns.length

/-- How a transaction has ended. -/
def outcome (s : Server) (t : ℕ) : Option (Except (DbError UniqueIndex) Answer) :=
  s.store.txns[t]?.bind Txn.outcome

def setPhase (s : Server) (i : ℕ) (phase : ConnPhase) : Server :=
  { s with conns := s.conns.modify i fun conn => { conn with phase } }

/-- `socket.close(code, reason)`. -/
def closeSocket (s : Server) (i : ℕ) (close : Close) : Server :=
  { s with
    conns := s.conns.modify i fun conn =>
      if conn.readyState = .OPEN then
        { conn with readyState := .CLOSING, closedWith := some close }
      else conn }

/-- The socket that an operation of the hub wants closed. -/
def closeAfter (s : Server) : Option (ℕ × Close) → Server
  | none => s
  | some (i, close) => s.closeSocket i close

/-- `socket.readyState === socket.OPEN`. -/
def isOpen (s : Server) (socket : ℕ) : Bool :=
  s.conns[socket]?.any fun conn => conn.readyState = .OPEN

/-- `send`: nothing goes out on a socket that is not open. -/
def send (s : Server) (socket : ℕ) (frame : ServerFrame) (handler : ℕ) : Server :=
  if s.isOpen socket then
    { s with sent := s.sent ++ [⟨socket, frame, handler⟩] }
  else s

def setHandling (s : Server) (k : ℕ) (handling : Handling) : Server :=
  { s with handlers := s.handlers.modify k fun handler => { handler with handling } }

def setDelete (s : Server) (j : ℕ) (phase : DeletePhase) : Server :=
  { s with deletes := s.deletes.modify j fun request => { request with phase } }

/-! ### The events -/

/-- A request for a WebSocket: `requireDevice`, up to its `await`. -/
def upgrade (platform : Platform) (s : Server) (endpoint : DeviceKind)
    (authorization : Option Text) (remoteIp : Text) : Server :=
  match credentials platform authorization with
  | none => { s with conns := s.conns ++ [⟨endpoint, remoteIp, .refused, .CLOSED, none⟩] }
  | some token =>
      let t := s.nextTxn
      let s := s.begin platform (.authenticate token.accountId token.secretHash)
      { s with conns := s.conns ++ [⟨endpoint, remoteIp, .authenticating t, .OPEN, none⟩] }

/-- The rest of `requireDevice`. -/
def authenticated (s : Server) (i : ℕ) : Option Server :=
  match s.conns[i]?.map Conn.phase with
  | some (.authenticating t) =>
      match s.outcome t with
      | none => none
      | some (.ok (.authenticate (some device))) => some (s.setPhase i (.authenticated device))
      | some _ => some (s.setPhase i .refused)
  | _ => none

/-- The handler of `registerAttachRoute`. -/
def attach (platform : Platform) (s : Server) (i : ℕ) (touch audit : Draws) : Option Server :=
  match s.conns[i]? with
  | none => none
  | some conn =>
      match conn.phase with
      | .authenticated device =>
          if device.kind ≠ conn.endpoint then
            some ((s.closeSocket i ⟨4003, "wrong endpoint for this device kind".toList⟩).setPhase i
              .refused)
          else
            let (hub, superseded) := s.hub.attach device.accountId.chars device.deviceId.chars i
            let s := ({ s with hub }.setPhase i (.attached device)).closeAfter superseded
            let s := s.begin platform
              (.touchLastSeen touch device.accountId device.deviceId.text)
            some (s.begin platform
              (.record audit device.accountId (.wsAttached conn.endpoint) (some device.deviceId)
                (some conn.remoteIp)))
      | _ => none

/-- A message arrives: `handleFrame`, up to its first `await`. -/
def message (platform : Platform) (s : Server) (i : ℕ) (raw : RawMessage) : Option Server :=
  match s.conns[i]? with
  | none => none
  | some conn =>
      match conn.phase with
      | .attached device =>
          if conn.readyState = .CLOSED then none
          else
            let k := s.handlers.length
            let entered (handling : Handling) (s : Server) : Server :=
              { s with handlers := s.handlers ++ [⟨i, device, raw, handling⟩] }
            match parseClientFrame platform raw with
            | .error message =>
                some ((entered (.finished none) s).send i (.error .bad_request message) k)
            | .ok .ping => some ((entered (.finished none) s).send i .pong k)
            | .ok (.relay peer _) =>
                some (entered (.looking s.nextTxn)
                  (s.begin platform
                    (.peerIsPaired device.accountId device.deviceId.text peer)))
      | _ => none

/-- The pairing is there: `handleFrame` from the lookup on. -/
def deliver (s : Server) (k : ℕ) (handler : Handler) (lookup : ℕ) (peer : UuidText)
    (payload : Text) : Server :=
  let s := s.setHandling k (.finished (some lookup))
  match s.hub.get handler.device.accountId.chars peer.chars with
  | none => s.send handler.socket (.error .not_found "Peer is not connected".toList) k
  | some socket => s.send socket (.relay handler.device.deviceId payload) k

/-- What the listener makes of an error that `handleFrame` lets out. -/
def frameFailed (s : Server) (k : ℕ) (handler : Handler) (lookup : ℕ) : Server :=
  (s.setHandling k (.finished (some lookup))).send handler.socket
    (.error .internal "Frame could not be processed".toList) k

/-- A repository call of `handleFrame` is over. -/
def resume (platform : Platform) (s : Server) (k : ℕ) (audit : Draws) : Option Server :=
  match s.handlers[k]? with
  | none => none
  | some handler =>
      match handler.handling, parseClientFrame platform handler.raw with
      | .looking lookup, .ok (.relay peer payload) =>
          match s.outcome lookup with
          | none => none
          | some (.error _) => some (s.frameFailed k handler lookup)
          | some (.ok (.peerIsPaired true)) => some (s.deliver k handler lookup peer payload)
          | some (.ok _) =>
              some ((s.setHandling k (.rejecting lookup s.nextTxn)).begin platform
                (.record audit handler.device.accountId (.relayRejected peer)
                  (some handler.device.deviceId) none))
      | .rejecting lookup t, _ =>
          match s.outcome t with
          | none => none
          | some (.error _) => some (s.frameFailed k handler lookup)
          | some (.ok _) =>
              some ((s.setHandling k (.finished (some lookup))).send handler.socket
                (.error .not_found "Not found".toList) k)
      | _, _ => none

/-- The other end begins to close the socket. -/
def closing (s : Server) (i : ℕ) : Option Server :=
  match s.conns[i]? with
  | none => none
  | some conn =>
      match conn.phase with
      | .attached _ =>
          if conn.readyState = .OPEN then
            some { s with
              conns := s.conns.modify i fun conn => { conn with readyState := .CLOSING } }
          else none
      | _ => none

/-- The socket is closed, and the listener for that detaches it. -/
def close (s : Server) (i : ℕ) : Option Server :=
  match s.conns[i]? with
  | none => none
  | some conn =>
      match conn.phase with
      | .attached device =>
          if conn.readyState = .CLOSED then none
          else
            some { s with
              conns := s.conns.modify i fun conn => { conn with readyState := .CLOSED }
              hub := s.hub.detach device.accountId.chars device.deviceId.chars i }
      | _ => none

/-- A request for a deletion: the schema, and `requireDevice` up to its `await`. -/
def delete (platform : Platform) (s : Server) (id : Text) (authorization : Option Text)
    (remoteIp : Text) : Server :=
  if uuidFormat id then
    match credentials platform authorization with
    | none => { s with deletes := s.deletes ++ [⟨id, remoteIp, .failed .unauthorized⟩] }
    | some token =>
        let t := s.nextTxn
        let s := s.begin platform (.authenticate token.accountId token.secretHash)
        { s with deletes := s.deletes ++ [⟨id, remoteIp, .authenticating t⟩] }
  else { s with deletes := s.deletes ++ [⟨id, remoteIp, .failed .bad_request⟩] }

/-- The handler of the deletion, up to its `await`.  PostgreSQL has no `urn:uuid:` form. -/
def deleteDevice (platform : Platform) (s : Server) (j : ℕ) (request : DeleteRequest)
    (device : AuthenticatedDevice) (draws : Draws) : Server :=
  if device.kind ≠ .agent then s.setDelete j (.failed .not_found)
  else if hid : isUuid request.id = true then
    let deviceId : UuidText := ⟨request.id, hid⟩
    (s.setDelete j (.revoking device deviceId s.nextTxn)).begin platform
      (.revokeDevice draws device.accountId deviceId
        ⟨device.deviceId.text, device.kind, some request.remoteIp⟩)
  else s.setDelete j (.failed .internal)

/-- A repository call of a deletion is over. -/
def resumeDelete (platform : Platform) (s : Server) (j : ℕ) (draws : Draws) : Option Server :=
  match s.deletes[j]? with
  | none => none
  | some request =>
      match request.phase with
      | .authenticating t =>
          match s.outcome t with
          | none => none
          | some (.error _) => some (s.setDelete j (.failed .internal))
          | some (.ok (.authenticate (some device))) =>
              some (s.deleteDevice platform j request device draws)
          | some (.ok _) => some (s.setDelete j (.failed .unauthorized))
      | .revoking device deviceId t =>
          match s.outcome t with
          | none => none
          | some (.error _) => some (s.setDelete j (.failed .internal))
          | some (.ok (.revoke true)) =>
              -- `onDeviceRevoked`, then the answer
              let (hub, dropped) := s.hub.drop device.accountId.chars deviceId.chars
                "device revoked".toList
              some (({ s with hub }.closeAfter dropped).setDelete j (.revoked device deviceId))
          | some (.ok _) => some (s.setDelete j (.failed .not_found))
      | _ => none

/-- One event; `none` when it cannot happen. -/
def step (platform : Platform) (s : Server) : ServerEvent → Option Server
  | .db event =>
      (ReadCommitted.step (program platform.sha256Hex) s.store event).map fun store =>
        { s with store }
  | .upgrade endpoint authorization remoteIp =>
      some (s.upgrade platform endpoint authorization remoteIp)
  | .authenticated i => s.authenticated i
  | .attach i touch audit => s.attach platform i touch audit
  | .message i raw => s.message platform i raw
  | .resume k audit => s.resume platform k audit
  | .closing i => s.closing i
  | .close i => s.close i
  | .delete id authorization remoteIp => some (s.delete platform id authorization remoteIp)
  | .resumeDelete j draws => s.resumeDelete platform j draws

end Server

/-! ### What is observed -/

/-- The device of a socket whose handler has run. -/
def Conn.device? (conn : Conn) : Option AuthenticatedDevice :=
  match conn.phase with
  | .attached device => some device
  | _ => none

/-- The device a deletion has answered 204 for. -/
def DeleteRequest.revoked? (request : DeleteRequest) : Option PgUuid :=
  match request.phase with
  | .revoked _ deviceId => some deviceId.value
  | _ => none

/-- The transaction that looked the pairing up. -/
def Handling.lookup : Handling → Option ℕ
  | .looking lookup => some lookup
  | .rejecting lookup _ => some lookup
  | .finished lookup => lookup

/-- The frame is one of a peer's. -/
def ServerFrame.isRelay : ServerFrame → Bool
  | .relay _ _ => true
  | _ => false

namespace Server

def deviceAt (s : Server) (i : ℕ) : Option AuthenticatedDevice := s.conns[i]?.bind Conn.device?

/-- A deletion of the device has answered 204. -/
def Revoked (s : Server) (deviceId : PgUuid) : Prop :=
  ∃ request ∈ s.deletes, request.revoked? = some deviceId

/-- The device that the handler of the route is about to attach. -/
def attaching (s : Server) (i : ℕ) : Option AuthenticatedDevice :=
  s.conns[i]?.bind fun conn =>
    match conn.phase with
    | .authenticated device => if device.kind = conn.endpoint then some device else none
    | _ => none

/-- Whose revocation of which device a deletion is about to act on. -/
def dropping (s : Server) (j : ℕ) : Option (AuthenticatedDevice × UuidText) :=
  s.deletes[j]?.bind fun request =>
    match request.phase with
    | .revoking device deviceId t =>
        match s.outcome t with
        | some (.ok (.revoke true)) => some (device, deviceId)
        | _ => none
    | _ => none

/-- The socket and the payload of the frame that `handleFrame` is about to send to a peer. -/
def delivering (platform : Platform) (s : Server) (k : ℕ) : Option (ℕ × Text) :=
  s.handlers[k]?.bind fun handler =>
    match handler.handling, parseClientFrame platform handler.raw with
    | .looking lookup, .ok (.relay peer payload) =>
        match s.outcome lookup with
        | some (.ok (.peerIsPaired true)) =>
            (s.hub.get handler.device.accountId.chars peer.chars).bind fun socket =>
              if s.isOpen socket then some (socket, payload) else none
        | _ => none
    | _, _ => none

/-- Neither the hub, nor the devices of the sockets, nor the devices that deletions have answered
for have changed. -/
structure Keeps (s s' : Server) : Prop where
  hub : s'.hub = s.hub
  deviceAt : ∀ i, s'.deviceAt i = s.deviceAt i
  revoked : ∀ deviceId, s'.Revoked deviceId ↔ s.Revoked deviceId

/-- What an event can do to the hub, to the devices of the sockets and to the devices that deletions
have answered for. -/
inductive HubMove (s : Server) : ServerEvent → Server → Prop
  | quiet (event : ServerEvent) (s' : Server) (hkeeps : Keeps s s')
      (hattach : ∀ i touch audit, event = .attach i touch audit → s.attaching i = none)
      (hdrop : ∀ j draws, event = .resumeDelete j draws → s.dropping j = none) :
      HubMove s event s'
  | attach (i : ℕ) (touch audit : Draws) (device : AuthenticatedDevice) (s' : Server)
      (hattaching : s.attaching i = some device)
      (hhub : s'.hub = (s.hub.attach device.accountId.chars device.deviceId.chars i).1)
      (hdevice : ∀ i', s'.deviceAt i' = if i' = i then some device else s.deviceAt i')
      (hrevoked : ∀ deviceId, s'.Revoked deviceId ↔ s.Revoked deviceId) :
      HubMove s (.attach i touch audit) s'
  | close (i : ℕ) (device : AuthenticatedDevice) (s' : Server)
      (hhub : s'.hub = s.hub.detach device.accountId.chars device.deviceId.chars i)
      (hdevice : ∀ i', s'.deviceAt i' = s.deviceAt i')
      (hrevoked : ∀ deviceId, s'.Revoked deviceId ↔ s.Revoked deviceId) :
      HubMove s (.close i) s'
  | drop (j : ℕ) (draws : Draws) (caller : AuthenticatedDevice) (deviceId : UuidText)
      (s' : Server) (hdropping : s.dropping j = some (caller, deviceId))
      (hhub : s'.hub
        = (s.hub.drop caller.accountId.chars deviceId.chars "device revoked".toList).1)
      (hdevice : ∀ i', s'.deviceAt i' = s.deviceAt i')
      (hrevoked : ∀ id, s'.Revoked id ↔ id = deviceId.value ∨ s.Revoked id) :
      HubMove s (.resumeDelete j draws) s'

/-- Nothing was sent, or one frame that is not a peer's. -/
def Replies (s s' : Server) : Prop :=
  s'.sent = s.sent ∨ ∃ x, s'.sent = s.sent ++ [x] ∧ x.frame.isRelay = false

/-- What an event can do to the calls of `handleFrame` and to what has been sent. -/
inductive FrameMove (platform : Platform) (s : Server) : ServerEvent → Server → Prop
  | still (event : ServerEvent) (s' : Server) (hmessage : ∀ i raw, event ≠ .message i raw)
      (hresume : ∀ k audit, event ≠ .resume k audit)
      (hhandlers : s'.handlers = s.handlers) (hsent : s'.sent = s.sent) :
      FrameMove platform s event s'
  | reply (i : ℕ) (raw : RawMessage) (device : AuthenticatedDevice) (s' : Server)
      (hdevice : s.deviceAt i = some device)
      (hhandlers : s'.handlers = s.handlers ++ [⟨i, device, raw, .finished none⟩])
      (hsent : Replies s s') : FrameMove platform s (.message i raw) s'
  | look (i : ℕ) (raw : RawMessage) (device : AuthenticatedDevice) (peer : UuidText)
      (payload : Text) (s' : Server) (hdevice : s.deviceAt i = some device)
      (hparse : parseClientFrame platform raw = .ok (.relay peer payload))
      (hhandlers : s'.handlers = s.handlers ++ [⟨i, device, raw, .looking s.nextTxn⟩])
      (hstore : s'.store
        = (s.begin platform (.peerIsPaired device.accountId device.deviceId.text peer)).store)
      (hsent : s'.sent = s.sent) : FrameMove platform s (.message i raw) s'
  | deliver (k : ℕ) (audit : Draws) (handler : Handler) (lookup : ℕ) (peer : UuidText)
      (payload : Text) (socket : ℕ) (s' : Server) (hk : s.handlers[k]? = some handler)
      (hlooking : handler.handling = .looking lookup)
      (hparse : parseClientFrame platform handler.raw = .ok (.relay peer payload))
      (houtcome : s.outcome lookup = some (.ok (.peerIsPaired true)))
      (hpeer : s.hub.get handler.device.accountId.chars peer.chars = some socket)
      (hdelivering : s.delivering platform k = some (socket, payload))
      (hhandlers : s'.handlers = (s.setHandling k (.finished (some lookup))).handlers)
      (hsent : s'.sent = s.sent ++ [⟨socket, .relay handler.device.deviceId payload, k⟩]) :
      FrameMove platform s (.resume k audit) s'
  | answer (k : ℕ) (audit : Draws) (handler : Handler) (lookup : ℕ) (handling : Handling)
      (s' : Server) (hk : s.handlers[k]? = some handler)
      (hold : handler.handling.lookup = some lookup) (hnew : handling.lookup = some lookup)
      (hdelivering : s.delivering platform k = none)
      (hhandlers : s'.handlers = (s.setHandling k handling).handlers) (hsent : Replies s s') :
      FrameMove platform s (.resume k audit) s'

/-- Transactions have begun, and that is all. -/
def Grows (platform : Platform) (s s' : Server) : Prop :=
  ∃ calls : List Call, s'.store =
    { s.store with
      txns := s.store.txns ++
        calls.map fun call => ⟨call, program platform.sha256Hex call, none, [], none⟩ }

/-- Neither the calls of `handleFrame` nor what has been sent have changed, and of the database at
most that transactions have begun. -/
structure Silent (platform : Platform) (s s' : Server) : Prop where
  handlers : s'.handlers = s.handlers
  sent : s'.sent = s.sent
  grows : Grows platform s s'

/-- **What an event does**, to the hub, to the frames and to the database. -/
structure Move (platform : Platform) (s : Server) (event : ServerEvent) (s' : Server) : Prop where
  hub : HubMove s event s'
  frames : FrameMove platform s event s'
  store : (∃ e, event = .db e ∧
      ReadCommitted.step (program platform.sha256Hex) s.store e = some s'.store) ∨
    Grows platform s s'

/-! ### The parts of the state an operation keeps -/

theorem Keeps.refl (s : Server) : Keeps s s := ⟨rfl, fun _ => rfl, fun _ => .rfl⟩

theorem Keeps.trans {s t u : Server} (h : Keeps s t) (h' : Keeps t u) : Keeps s u :=
  ⟨h'.hub.trans h.hub, fun i => (h'.deviceAt i).trans (h.deviceAt i),
    fun deviceId => (h'.revoked deviceId).trans (h.revoked deviceId)⟩

/-- What changes neither the hub nor the devices nor the deletions. -/
theorem keeps_of_eq {s s' : Server} (hhub : s'.hub = s.hub) (hconns : s'.conns = s.conns)
    (hdeletes : s'.deletes = s.deletes) : Keeps s s' :=
  ⟨hhub, fun i => by rw [Server.deviceAt, Server.deviceAt, hconns],
    fun deviceId => by rw [Revoked, Revoked, hdeletes]⟩

theorem keeps_handlers (s : Server) (handlers : List Handler) : Keeps s { s with handlers } :=
  keeps_of_eq rfl rfl rfl

theorem keeps_begin (platform : Platform) (s : Server) (call : Call) :
    Keeps s (s.begin platform call) := keeps_of_eq rfl rfl rfl

theorem keeps_setHandling (s : Server) (k : ℕ) (handling : Handling) :
    Keeps s (s.setHandling k handling) := keeps_of_eq rfl rfl rfl

theorem keeps_send (s : Server) (socket : ℕ) (frame : ServerFrame) (handler : ℕ) :
    Keeps s (s.send socket frame handler) := by
  unfold send
  split
  · exact keeps_of_eq rfl rfl rfl
  · exact Keeps.refl s

/-- The devices after one connection has changed. -/
theorem deviceAt_modify {s : Server} {i : ℕ} {f : Conn → Conn} (i' : ℕ) :
    deviceAt { s with conns := s.conns.modify i f } i'
      = if i' = i then s.conns[i]?.bind fun conn => (f conn).device? else s.deviceAt i' := by
  simp only [Server.deviceAt]
  split
  · rename_i heq
    subst heq
    rw [List.getElem?_modify_eq]
    cases s.conns[i']? with
    | none => rfl
    | some conn => rfl
  · rename_i hne
    rw [List.getElem?_modify_ne f _ fun heq => hne heq.symm]

/-- A change to a connection that leaves its device alone. -/
theorem keeps_modify {s : Server} {i : ℕ} {f : Conn → Conn}
    (h : ∀ conn, s.conns[i]? = some conn → (f conn).device? = conn.device?) :
    Keeps s { s with conns := s.conns.modify i f } := by
  refine ⟨rfl, fun i' => ?_, fun _ => .rfl⟩
  rw [deviceAt_modify]
  split
  · rename_i heq
    subst heq
    rw [Server.deviceAt]
    cases hconn : s.conns[i']? with
    | none => rfl
    | some conn => exact h conn hconn
  · rfl

theorem keeps_closeSocket (s : Server) (i : ℕ) (close : Close) :
    Keeps s (s.closeSocket i close) := by
  refine keeps_modify fun conn _ => ?_
  split
  · rfl
  · rfl

theorem keeps_closeAfter (s : Server) (closed : Option (ℕ × Close)) :
    Keeps s (s.closeAfter closed) := by
  cases closed with
  | none => exact Keeps.refl s
  | some closed => exact keeps_closeSocket s closed.1 closed.2

theorem deletes_closeAfter (s : Server) (closed : Option (ℕ × Close)) :
    (s.closeAfter closed).deletes = s.deletes := by
  cases closed with
  | none => rfl
  | some closed => rfl

/-- A connection whose handler has not run moves on, short of that. -/
theorem keeps_setPhase {s : Server} {i : ℕ} {phase : ConnPhase}
    (hold : ∀ conn, s.conns[i]? = some conn → conn.device? = none)
    (hnew : ∀ device, phase ≠ .attached device) : Keeps s (s.setPhase i phase) := by
  refine keeps_modify fun conn hconn => ?_
  rw [hold conn hconn]
  cases phase with
  | attached device => exact absurd rfl (hnew device)
  | authenticating | authenticated | refused => rfl

/-- A new connection has no device. -/
theorem keeps_connect {s : Server} {conn : Conn} (h : conn.device? = none) :
    Keeps s { s with conns := s.conns ++ [conn] } := by
  refine ⟨rfl, fun i => ?_, fun _ => .rfl⟩
  simp only [Server.deviceAt]
  rcases Nat.lt_or_ge i s.conns.length with hlt | hge
  · rw [List.getElem?_append_left hlt]
  · rw [List.getElem?_append_right hge, List.getElem?_eq_none hge]
    cases hi : [conn][i - s.conns.length]? with
    | none => rfl
    | some conn' =>
        rw [List.mem_singleton.mp (List.mem_of_getElem? hi)]
        exact h

/-- A new deletion has not answered 204. -/
theorem keeps_request {s : Server} {request : DeleteRequest} (h : request.revoked? = none) :
    Keeps s { s with deletes := s.deletes ++ [request] } := by
  refine ⟨rfl, fun _ => rfl, fun deviceId => ?_⟩
  simp [Revoked, or_and_right, exists_or, h]

/-- The devices that deletions have answered for, after one has moved on that had not answered. -/
theorem revoked_setDelete {s : Server} {j : ℕ} {phase : DeletePhase} {request : DeleteRequest}
    (hj : s.deletes[j]? = some request) (hrequest : request.revoked? = none) (deviceId : PgUuid) :
    (s.setDelete j phase).Revoked deviceId ↔
      { request with phase }.revoked? = some deviceId ∨ s.Revoked deviceId := by
  constructor
  · rintro ⟨r, hr, hdevice⟩
    obtain ⟨j', hj'⟩ := List.getElem?_of_mem hr
    rcases Transition.getElem?_modify_cases hj' with ⟨-, hj'⟩ | ⟨-, request', hrequest', rfl⟩
    · exact .inr ⟨r, List.mem_of_getElem? hj', hdevice⟩
    · cases hj.symm.trans hrequest'
      exact .inl hdevice
  · rintro (hnew | ⟨r, hr, hdevice⟩)
    · refine ⟨{ request with phase }, List.mem_of_getElem? (i := j) ?_, hnew⟩
      rw [setDelete, List.getElem?_modify_eq, hj]
      rfl
    · obtain ⟨j', hj'⟩ := List.getElem?_of_mem hr
      have hne : j ≠ j' := by
        rintro rfl
        cases hj.symm.trans hj'
        cases hrequest.symm.trans hdevice
      refine ⟨r, List.mem_of_getElem? (i := j') ?_, hdevice⟩
      rw [setDelete, List.getElem?_modify_ne _ _ hne, hj']

/-- A deletion moves on without answering 204. -/
theorem keeps_setDelete {s : Server} {j : ℕ} {phase : DeletePhase} {request : DeleteRequest}
    (hj : s.deletes[j]? = some request) (hrequest : request.revoked? = none)
    (hphase : { request with phase }.revoked? = none) : Keeps s (s.setDelete j phase) := by
  refine ⟨rfl, fun _ => rfl, fun deviceId => ?_⟩
  rw [revoked_setDelete hj hrequest, hphase]
  simp

theorem Grows.refl (platform : Platform) (s : Server) : Grows platform s s := ⟨[], by simp⟩

theorem Grows.trans {platform : Platform} {s t u : Server} (h : Grows platform s t)
    (h' : Grows platform t u) : Grows platform s u := by
  obtain ⟨calls, hcalls⟩ := h
  obtain ⟨calls', hcalls'⟩ := h'
  exact ⟨calls ++ calls', by simp [hcalls', hcalls]⟩

theorem grows_begin (platform : Platform) (s : Server) (call : Call) :
    Grows platform s (s.begin platform call) := ⟨[call], rfl⟩

theorem grows_of_eq {platform : Platform} {s s' : Server} (h : s'.store = s.store) :
    Grows platform s s' := ⟨[], by simp [h]⟩

theorem Silent.trans {platform : Platform} {s t u : Server} (h : Silent platform s t)
    (h' : Silent platform t u) : Silent platform s u :=
  ⟨h'.handlers.trans h.handlers, h'.sent.trans h.sent, h.grows.trans h'.grows⟩

theorem silent_of_eq {platform : Platform} {s s' : Server} (hhandlers : s'.handlers = s.handlers)
    (hsent : s'.sent = s.sent) (hstore : s'.store = s.store) : Silent platform s s' :=
  ⟨hhandlers, hsent, grows_of_eq hstore⟩

theorem silent_begin (platform : Platform) (s : Server) (call : Call) :
    Silent platform s (s.begin platform call) := ⟨rfl, rfl, grows_begin platform s call⟩

theorem silent_closeAfter (platform : Platform) (s : Server) (closed : Option (ℕ × Close)) :
    Silent platform s (s.closeAfter closed) := by
  cases closed with
  | none => exact silent_of_eq rfl rfl rfl
  | some closed => exact silent_of_eq rfl rfl rfl

theorem handlers_send (s : Server) (socket : ℕ) (frame : ServerFrame) (handler : ℕ) :
    (s.send socket frame handler).handlers = s.handlers := by
  unfold send
  split
  · rfl
  · rfl

theorem grows_send (platform : Platform) (s : Server) (socket : ℕ) (frame : ServerFrame)
    (handler : ℕ) : Grows platform s (s.send socket frame handler) := by
  unfold send
  split
  · exact grows_of_eq rfl
  · exact Grows.refl platform s

/-- A frame that is not a peer's is a reply. -/
theorem replies_send {s u : Server} (hu : u.sent = s.sent) (socket : ℕ) {frame : ServerFrame}
    (hframe : frame.isRelay = false) (handler : ℕ) :
    Replies s (u.send socket frame handler) := by
  unfold send
  split
  · exact .inr ⟨⟨socket, frame, handler⟩, by rw [← hu], hframe⟩
  · exact .inl hu

/-- A frame goes out on an open socket. -/
theorem sent_send {s : Server} {socket : ℕ} (hopen : s.isOpen socket = true) (frame : ServerFrame)
    (handler : ℕ) : (s.send socket frame handler).sent = s.sent ++ [⟨socket, frame, handler⟩] := by
  rw [send, if_pos hopen]

theorem sent_send_closed {s : Server} {socket : ℕ} (hopen : ¬s.isOpen socket = true)
    (frame : ServerFrame) (handler : ℕ) : (s.send socket frame handler).sent = s.sent := by
  rw [send, if_neg hopen]

/-- An event that neither attaches nor drops. -/
theorem HubMove.of_keeps {s s' : Server} {event : ServerEvent} (h : Keeps s s')
    (hattach : ∀ i touch audit, event ≠ .attach i touch audit)
    (hdrop : ∀ j draws, event ≠ .resumeDelete j draws) : HubMove s event s' :=
  .quiet event s' h (fun i touch audit heq => absurd heq (hattach i touch audit))
    (fun j draws heq => absurd heq (hdrop j draws))

/-! ### Every step is a move -/

/-- An event that changes nothing but what is waited for. -/
theorem Move.of_quiet {platform : Platform} {s s' : Server} {event : ServerEvent}
    (hkeeps : Keeps s s') (hsilent : Silent platform s s')
    (hattach : ∀ i touch audit, event ≠ .attach i touch audit)
    (hdrop : ∀ j draws, event ≠ .resumeDelete j draws)
    (hmessage : ∀ i raw, event ≠ .message i raw) (hresume : ∀ k audit, event ≠ .resume k audit) :
    Move platform s event s' :=
  ⟨.of_keeps hkeeps hattach hdrop,
    .still event s' hmessage hresume hsilent.handlers hsilent.sent, .inr hsilent.grows⟩

theorem move_upgrade (platform : Platform) (s : Server) (endpoint : DeviceKind)
    (authorization : Option Text) (remoteIp : Text) :
    Move platform s (.upgrade endpoint authorization remoteIp)
      (s.upgrade platform endpoint authorization remoteIp) := by
  have hquiet : Keeps s (s.upgrade platform endpoint authorization remoteIp) ∧
      Silent platform s (s.upgrade platform endpoint authorization remoteIp) := by
    unfold upgrade
    split
    · exact ⟨keeps_connect rfl, silent_of_eq rfl rfl rfl⟩
    · exact ⟨(keeps_begin platform s _).trans (keeps_connect rfl),
        (silent_begin platform s _).trans (silent_of_eq rfl rfl rfl)⟩
  exact .of_quiet hquiet.1 hquiet.2 (by simp) (by simp) (by simp) (by simp)

theorem move_authenticated {platform : Platform} {s s' : Server} {i : ℕ}
    (h : s.authenticated i = some s') : Move platform s (.authenticated i) s' := by
  unfold authenticated at h
  split at h
  · rename_i t hphase
    -- a connection that waits for its authentication has no device yet
    have hold : ∀ conn, s.conns[i]? = some conn → conn.device? = none := by
      intro conn hconn
      rw [hconn] at hphase
      have hconn : conn.phase = .authenticating t := Option.some.inj hphase
      rw [Conn.device?, hconn]
    have hmove {phase : ConnPhase} (hphase : ∀ device, phase ≠ .attached device) :
        Move platform s (.authenticated i) (s.setPhase i phase) :=
      .of_quiet (keeps_setPhase hold hphase) (silent_of_eq rfl rfl rfl) (by simp) (by simp)
        (by simp) (by simp)
    split at h
    · cases h
    · cases h
      exact hmove (by simp)
    · cases h
      exact hmove (by simp)
  · cases h

theorem move_attach {platform : Platform} {s s' : Server} {i : ℕ} {touch audit : Draws}
    (h : s.attach platform i touch audit = some s') :
    Move platform s (.attach i touch audit) s' := by
  unfold attach at h
  split at h
  · cases h
  · rename_i conn hconn
    split at h
    · rename_i device hphase
      split at h
      · rename_i hkind
        cases h
        refine ⟨.quiet _ _ ((keeps_closeSocket s i _).trans (keeps_setPhase ?_ (by simp))) ?_
          (by simp), .still _ _ (by simp) (by simp) rfl rfl, .inr (grows_of_eq rfl)⟩
        · intro conn' hconn'
          rcases Transition.getElem?_modify_cases hconn' with ⟨hne, -⟩ | ⟨-, conn'', hsame, rfl⟩
          · exact absurd rfl hne
          · cases hconn.symm.trans hsame
            split
            · rw [Conn.device?, hphase]
            · rw [Conn.device?, hphase]
        · intro i' touch' audit' heq
          cases heq
          simp [attaching, hconn, hphase, hkind]
      · rename_i hkind
        cases h
        have hattaching : s.attaching i = some device := by
          simp only [attaching, hconn, Option.bind_some, hphase]
          rw [if_pos (not_not.mp hkind)]
        -- the hub and the phase change first; the rest keeps both
        let u : Server :=
          { s with
            hub := (s.hub.attach device.accountId.chars device.deviceId.chars i).1 }.setPhase i
            (.attached device)
        let closed := (s.hub.attach device.accountId.chars device.deviceId.chars i).2
        let touched : Call := .touchLastSeen touch device.accountId device.deviceId.text
        let recorded : Call := .record audit device.accountId (.wsAttached conn.endpoint)
          (some device.deviceId) (some conn.remoteIp)
        have hrest : Keeps u
            (((u.closeAfter closed).begin platform touched).begin platform recorded) :=
          (keeps_closeAfter u closed).trans
            ((keeps_begin platform _ touched).trans (keeps_begin platform _ recorded))
        have hchanged : Silent platform s u := silent_of_eq rfl rfl rfl
        have hsilent : Silent platform s
            (((u.closeAfter closed).begin platform touched).begin platform recorded) :=
          hchanged.trans ((silent_closeAfter platform u closed).trans
            ((silent_begin platform _ touched).trans (silent_begin platform _ recorded)))
        refine ⟨.attach i touch audit device _ hattaching (hrest.hub.trans rfl) ?_ hrest.revoked,
          .still _ _ (by simp) (by simp) hsilent.handlers hsilent.sent, .inr hsilent.grows⟩
        intro i'
        refine (hrest.deviceAt i').trans ((deviceAt_modify i').trans ?_)
        split
        · simp [hconn, Conn.device?]
        · rfl
    · cases h

theorem move_message {platform : Platform} {s s' : Server} {i : ℕ} {raw : RawMessage}
    (h : s.message platform i raw = some s') : Move platform s (.message i raw) s' := by
  unfold message at h
  split at h
  · cases h
  · rename_i conn hconn
    split at h
    · rename_i device hphase
      have hdevice : s.deviceAt i = some device := by
        simp [Server.deviceAt, hconn, Conn.device?, hphase]
      let u : Server := { s with handlers := s.handlers ++ [⟨i, device, raw, .finished none⟩] }
      have hentered : Grows platform s u := grows_of_eq rfl
      -- the frame is answered at once
      have hreply {frame : ServerFrame} (hframe : frame.isRelay = false) :
          Move platform s (.message i raw) (u.send i frame s.handlers.length) :=
        ⟨.of_keeps ((keeps_handlers s _).trans (keeps_send _ _ _ _)) (by simp) (by simp),
          .reply i raw device _ hdevice (handlers_send _ _ _ _) (replies_send rfl i hframe _),
          .inr (hentered.trans (grows_send platform _ _ _ _))⟩
      split at h
      · cases h
      · dsimp only at h
        split at h
        · cases h
          exact hreply rfl
        · cases h
          exact hreply rfl
        · rename_i peer payload hparse
          cases h
          exact ⟨.of_keeps ((keeps_begin platform s _).trans (keeps_handlers _ _)) (by simp)
            (by simp), .look i raw device peer payload _ hdevice hparse rfl rfl rfl,
            .inr ((grows_begin platform s _).trans (grows_of_eq rfl))⟩
    · cases h

/-- A call of `handleFrame` goes on without a frame to a peer. -/
theorem Move.of_answer {platform : Platform} {s s' : Server} {k : ℕ} {audit : Draws}
    {handler : Handler} {lookup : ℕ} {handling : Handling} (hk : s.handlers[k]? = some handler)
    (hold : handler.handling.lookup = some lookup) (hnew : handling.lookup = some lookup)
    (hdelivering : s.delivering platform k = none) (hkeeps : Keeps s s')
    (hhandlers : s'.handlers = (s.setHandling k handling).handlers) (hsent : Replies s s')
    (hgrows : Grows platform s s') : Move platform s (.resume k audit) s' :=
  ⟨.of_keeps hkeeps (by simp) (by simp),
    .answer k audit handler lookup handling s' hk hold hnew hdelivering hhandlers hsent,
    .inr hgrows⟩

/-- The call ends with a frame to its own socket. -/
theorem Move.of_reply {platform : Platform} {s : Server} {k : ℕ} {audit : Draws}
    {handler : Handler} {lookup : ℕ} (hk : s.handlers[k]? = some handler)
    (hold : handler.handling.lookup = some lookup) (hdelivering : s.delivering platform k = none)
    {frame : ServerFrame} (hframe : frame.isRelay = false) :
    Move platform s (.resume k audit)
      ((s.setHandling k (.finished (some lookup))).send handler.socket frame k) :=
  .of_answer hk hold rfl hdelivering ((keeps_setHandling s k _).trans (keeps_send _ _ _ _))
    (handlers_send _ _ _ _) (replies_send rfl _ hframe _)
    (Grows.trans (grows_of_eq rfl) (grows_send platform _ _ _ _))

theorem move_deliver {platform : Platform} {s : Server} {k : ℕ} {audit : Draws}
    {handler : Handler} {lookup : ℕ} {peer : UuidText} {payload : Text}
    (hk : s.handlers[k]? = some handler) (hlooking : handler.handling = .looking lookup)
    (hparse : parseClientFrame platform handler.raw = .ok (.relay peer payload))
    (houtcome : s.outcome lookup = some (.ok (.peerIsPaired true))) :
    Move platform s (.resume k audit) (s.deliver k handler lookup peer payload) := by
  have hold : handler.handling.lookup = some lookup := by rw [hlooking, Handling.lookup]
  unfold deliver
  dsimp only
  split
  · rename_i hpeer
    have hpeer : s.hub.get handler.device.accountId.chars peer.chars = none := hpeer
    exact .of_reply hk hold (by simp [delivering, hk, hlooking, hparse, houtcome, hpeer]) rfl
  · rename_i socket hpeer
    have hpeer : s.hub.get handler.device.accountId.chars peer.chars = some socket := hpeer
    have hkeeps := (keeps_setHandling s k (.finished (some lookup))).trans
      (keeps_send _ socket (.relay handler.device.deviceId payload) k)
    have hset : Grows platform s (s.setHandling k (.finished (some lookup))) := grows_of_eq rfl
    have hgrows := hset.trans
      (grows_send platform _ socket (.relay handler.device.deviceId payload) k)
    by_cases hopen : (s.setHandling k (.finished (some lookup))).isOpen socket = true
    · have hdelivering : s.delivering platform k = some (socket, payload) := by
        simp [delivering, hk, hlooking, hparse, houtcome, hpeer,
          show s.isOpen socket = true from hopen]
      exact ⟨.of_keeps hkeeps (by simp) (by simp),
        .deliver k audit handler lookup peer payload socket _ hk hlooking hparse houtcome hpeer
          hdelivering (handlers_send _ _ _ _) (sent_send hopen _ _), .inr hgrows⟩
    · have hdelivering : s.delivering platform k = none := by
        simp [delivering, hk, hlooking, hparse, houtcome, hpeer,
          show ¬s.isOpen socket = true from hopen]
      exact .of_answer hk hold rfl hdelivering hkeeps (handlers_send _ _ _ _)
        (.inl (sent_send_closed hopen _ _)) hgrows

theorem move_resume {platform : Platform} {s s' : Server} {k : ℕ} {audit : Draws}
    (h : s.resume platform k audit = some s') : Move platform s (.resume k audit) s' := by
  unfold resume at h
  split at h
  · cases h
  · rename_i handler hk
    split at h
    · rename_i lookup peer payload hlooking hparse
      have hold : handler.handling.lookup = some lookup := by rw [hlooking, Handling.lookup]
      split at h
      · cases h
      · rename_i houtcome
        cases h
        exact .of_reply hk hold (by simp [delivering, hk, hlooking, hparse, houtcome]) rfl
      · rename_i houtcome
        cases h
        exact move_deliver hk hlooking hparse houtcome
      · rename_i answer hanswer houtcome
        cases h
        have hset : Grows platform s (s.setHandling k (.rejecting lookup s.nextTxn)) :=
          grows_of_eq rfl
        refine .of_answer hk hold (show (Handling.rejecting lookup s.nextTxn).lookup =
          _ from rfl) ?_
          ((keeps_setHandling s k _).trans (keeps_begin platform _ _)) rfl (.inl rfl)
          (hset.trans (grows_begin platform _ _))
        simp only [delivering, hk, hlooking, hparse, houtcome, Option.bind_some]
        split
        · rename_i heq
          cases heq
          exact absurd rfl hanswer
        · rfl
    · rename_i lookup t hrejecting
      have hold : handler.handling.lookup = some lookup := by rw [hrejecting, Handling.lookup]
      have hdelivering : s.delivering platform k = none := by
        simp [delivering, hk, hrejecting]
      split at h
      · cases h
      · cases h
        exact .of_reply hk hold hdelivering rfl
      · cases h
        exact .of_reply hk hold hdelivering rfl
    · cases h

theorem move_closing {platform : Platform} {s s' : Server} {i : ℕ} (h : s.closing i = some s') :
    Move platform s (.closing i) s' := by
  unfold closing at h
  split at h
  · cases h
  · split at h
    · split at h
      · cases h
        exact .of_quiet (keeps_modify fun conn _ => rfl) (silent_of_eq rfl rfl rfl) (by simp)
          (by simp) (by simp) (by simp)
      · cases h
    · cases h

theorem move_close {platform : Platform} {s s' : Server} {i : ℕ} (h : s.close i = some s') :
    Move platform s (.close i) s' := by
  unfold close at h
  split at h
  · cases h
  · split at h
    · rename_i device _
      split at h
      · cases h
      · cases h
        have hclosed : Keeps s { s with
            conns := s.conns.modify i fun conn => { conn with readyState := .CLOSED } } :=
          keeps_modify fun conn _ => rfl
        exact ⟨.close i device _ rfl hclosed.deviceAt hclosed.revoked,
          .still _ _ (by simp) (by simp) rfl rfl, .inr (grows_of_eq rfl)⟩
    · cases h

theorem move_delete (platform : Platform) (s : Server) (id : Text) (authorization : Option Text)
    (remoteIp : Text) : Move platform s (.delete id authorization remoteIp)
      (s.delete platform id authorization remoteIp) := by
  have hquiet : Keeps s (s.delete platform id authorization remoteIp) ∧
      Silent platform s (s.delete platform id authorization remoteIp) := by
    unfold delete
    split
    · split
      · exact ⟨keeps_request rfl, silent_of_eq rfl rfl rfl⟩
      · exact ⟨(keeps_begin platform s _).trans (keeps_request rfl),
          (silent_begin platform s _).trans (silent_of_eq rfl rfl rfl)⟩
    · exact ⟨keeps_request rfl, silent_of_eq rfl rfl rfl⟩
  exact .of_quiet hquiet.1 hquiet.2 (by simp) (by simp) (by simp) (by simp)

/-- The handler of a deletion runs up to its `await`. -/
theorem quiet_deleteDevice (platform : Platform) {s : Server} {j : ℕ} {request : DeleteRequest}
    (hj : s.deletes[j]? = some request) (hrequest : request.revoked? = none)
    (device : AuthenticatedDevice) (draws : Draws) :
    Keeps s (s.deleteDevice platform j request device draws) ∧
      Silent platform s (s.deleteDevice platform j request device draws) := by
  unfold deleteDevice
  split
  · exact ⟨keeps_setDelete hj hrequest rfl, silent_of_eq rfl rfl rfl⟩
  · split
    · rename_i hid
      let u := s.setDelete j (.revoking device ⟨request.id, hid⟩ s.nextTxn)
      have hset : Silent platform s u := silent_of_eq rfl rfl rfl
      exact ⟨(keeps_setDelete hj hrequest rfl).trans (keeps_begin platform u _),
        hset.trans (silent_begin platform u _)⟩
    · exact ⟨keeps_setDelete hj hrequest rfl, silent_of_eq rfl rfl rfl⟩

theorem move_resumeDelete {platform : Platform} {s s' : Server} {j : ℕ} {draws : Draws}
    (h : s.resumeDelete platform j draws = some s') :
    Move platform s (.resumeDelete j draws) s' := by
  -- a step that does not answer 204
  have hquiet {s' : Server} (hkeeps : Keeps s s') (hsilent : Silent platform s s')
      (hdropping : s.dropping j = none) : Move platform s (.resumeDelete j draws) s' := by
    refine ⟨.quiet _ _ hkeeps (by simp) ?_,
      .still _ _ (by simp) (by simp) hsilent.handlers hsilent.sent, .inr hsilent.grows⟩
    intro j' draws' heq
    cases heq
    exact hdropping
  unfold resumeDelete at h
  split at h
  · cases h
  · rename_i request hj
    split at h
    · rename_i t hphase
      have hrequest : request.revoked? = none := by rw [DeleteRequest.revoked?, hphase]
      have hdropping : s.dropping j = none := by simp [dropping, hj, hphase]
      split at h
      · cases h
      · cases h
        exact hquiet (keeps_setDelete hj hrequest rfl) (silent_of_eq rfl rfl rfl) hdropping
      · rename_i device _
        cases h
        have hstarted := quiet_deleteDevice platform hj hrequest device draws
        exact hquiet hstarted.1 hstarted.2 hdropping
      · cases h
        exact hquiet (keeps_setDelete hj hrequest rfl) (silent_of_eq rfl rfl rfl) hdropping
    · rename_i device deviceId t hphase
      have hrequest : request.revoked? = none := by rw [DeleteRequest.revoked?, hphase]
      split at h
      · cases h
      · rename_i houtcome
        cases h
        exact hquiet (keeps_setDelete hj hrequest rfl) (silent_of_eq rfl rfl rfl)
          (by simp [dropping, hj, hphase, houtcome])
      · rename_i houtcome
        cases h
        -- the hub changes first; the socket is closed and the answer given after it
        let u : Server :=
          { s with hub := (s.hub.drop device.accountId.chars deviceId.chars
              "device revoked".toList).1 }
        let closed := (s.hub.drop device.accountId.chars deviceId.chars "device revoked".toList).2
        have hclosed := keeps_closeAfter u closed
        have hchanged : Silent platform s u := silent_of_eq rfl rfl rfl
        have hsilent := hchanged.trans (silent_closeAfter platform u closed)
        have hdeletes : (u.closeAfter closed).deletes[j]? = some request := by
          rw [deletes_closeAfter]
          exact hj
        refine ⟨.drop j draws device deviceId _ (by simp [dropping, hj, hphase, houtcome])
          (hclosed.hub.trans rfl) hclosed.deviceAt ?_,
          .still _ _ (by simp) (by simp) hsilent.handlers hsilent.sent, .inr hsilent.grows⟩
        intro id
        refine (revoked_setDelete hdeletes hrequest id).trans (or_congr ?_ (hclosed.revoked id))
        simp [DeleteRequest.revoked?, eq_comm]
      · rename_i answer hanswer houtcome
        cases h
        refine hquiet (keeps_setDelete hj hrequest rfl) (silent_of_eq rfl rfl rfl) ?_
        simp only [dropping, hj, hphase, houtcome, Option.bind_some]
        split
        · rename_i heq
          cases heq
          exact absurd rfl hanswer
        · rfl
    · cases h

/-- **Every step is a move.** -/
theorem move_of_step {platform : Platform} {s s' : Server} {event : ServerEvent}
    (h : s.step platform event = some s') : Move platform s event s' := by
  cases event with
  | db event =>
      obtain ⟨store, hstore, rfl⟩ := Option.map_eq_some_iff.mp h
      exact ⟨.of_keeps (keeps_of_eq rfl rfl rfl) (by simp) (by simp),
        .still _ _ (by simp) (by simp) rfl rfl, .inl ⟨event, rfl, hstore⟩⟩
  | upgrade endpoint authorization remoteIp =>
      cases h
      exact move_upgrade platform s endpoint authorization remoteIp
  | authenticated i => exact move_authenticated h
  | attach i touch audit => exact move_attach h
  | message i raw => exact move_message h
  | resume k audit => exact move_resume h
  | closing i => exact move_closing h
  | close i => exact move_close h
  | delete id authorization remoteIp =>
      cases h
      exact move_delete platform s id authorization remoteIp
  | resumeDelete j draws => exact move_resumeDelete h

/-! ### The database of a run -/

theorem run_starts (platform : Platform) (store : RelayStore) (calls : List Call) :
    Transition.run (ReadCommitted.step (program platform.sha256Hex)) store (calls.map .start)
      = some { store with
        txns := store.txns ++
          calls.map fun call => ⟨call, program platform.sha256Hex call, none, [], none⟩ } := by
  induction calls generalizing store with
  | nil => simp
  | cons call calls ih =>
      refine Transition.run_cons_eq_some.mpr ⟨_, rfl, ?_⟩
      rw [ih]
      simp

/-- **The database of a run is reached by a run of its own**, and at each step of one of its
transactions the relay is in a state of the run. -/
theorem store_of_run {platform : Platform} {rows : List Row} {events : List ServerEvent}
    {s : Server} (h : Transition.run (step platform) (init rows) events = some s) :
    ∃ dbEvents : List (ReadCommitted.Event Call),
      Transition.run (ReadCommitted.step (program platform.sha256Hex)) (.init rows) dbEvents
        = some s.store ∧
      ∀ done t rest, dbEvents = done ++ .exec t :: rest → ∃ before after u,
        events = before ++ .db (.exec t) :: after ∧
        Transition.run (step platform) (init rows) before = some u ∧
        Transition.run (ReadCommitted.step (program platform.sha256Hex)) (.init rows) done
          = some u.store := by
  induction events using List.reverseRecOn generalizing s with
  | nil =>
      cases h
      exact ⟨[], rfl, fun done t rest heq => by simp at heq⟩
  | append_singleton events event ih =>
      obtain ⟨u, hu, hlast⟩ := Transition.run_append.mp h
      obtain ⟨s', hstep, hs'⟩ := Transition.run_cons_eq_some.mp hlast
      cases hs'
      obtain ⟨dbEvents, hdb, hstates⟩ := ih hu
      -- a step of a transaction that was there before this event
      have hearlier {done : List (ReadCommitted.Event Call)} {t : ℕ}
          {rest : List (ReadCommitted.Event Call)} (heq : dbEvents = done ++ .exec t :: rest) :
          ∃ before after v,
          events ++ [event] = before ++ .db (.exec t) :: after ∧
          Transition.run (step platform) (init rows) before = some v ∧
          Transition.run (ReadCommitted.step (program platform.sha256Hex)) (.init rows) done
            = some v.store := by
        obtain ⟨before, after, v, hevents, hv⟩ := hstates done t rest heq
        exact ⟨before, after ++ [event], v, by simp [hevents], hv⟩
      rcases (move_of_step hstep).store with ⟨e, rfl, he⟩ | ⟨calls, hcalls⟩
      · refine ⟨dbEvents ++ [e], Transition.run_append.mpr
          ⟨u.store, hdb, Transition.run_cons_eq_some.mpr ⟨s.store, he, rfl⟩⟩, ?_⟩
        intro done t rest heq
        rcases List.append_eq_append_iff.mp heq with ⟨as, rfl, has⟩ | ⟨cs, rfl, hcs⟩
        · cases as with
          | nil =>
              cases has
              exact ⟨events, [], u, rfl, hu, by simpa using hdb⟩
          | cons a as => simp at has
        · cases cs with
          | nil =>
              cases hcs
              exact ⟨events, [], u, rfl, hu, by simpa using hdb⟩
          | cons c cs =>
              cases hcs
              exact hearlier rfl
      · refine ⟨dbEvents ++ calls.map .start, Transition.run_append.mpr
          ⟨u.store, hdb, hcalls ▸ run_starts platform u.store calls⟩, ?_⟩
        intro done t rest heq
        -- the new events are no steps of a transaction
        have hstart : ∀ e ∈ calls.map ReadCommitted.Event.start, e ≠ .exec t := by
          intro e he heq
          obtain ⟨call, -, rfl⟩ := List.mem_map.mp he
          cases heq
        rcases List.append_eq_append_iff.mp heq with ⟨as, rfl, has⟩ | ⟨cs, rfl, hcs⟩
        · exact absurd rfl (hstart (.exec t) (by simp [has]))
        · cases cs with
          | nil =>
              rw [List.nil_append] at hcs
              exact absurd rfl (hstart (.exec t) (hcs ▸ List.mem_cons_self ..))
          | cons c cs =>
              cases hcs
              exact hearlier rfl

end Server

end Osprey.Relay
