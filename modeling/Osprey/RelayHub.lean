/-
**The relay's registry of live sockets, and what arrives on them.**

`relay/src/ws/hub.ts` and `relay/src/ws/frames.ts`.  The hub is a map from strings to sockets, and
its keys are made from the account id and the device id in the spelling they are handed over in; a
socket is the number of its connection.  What the platform supplies, decoding UTF-8 and
`JSON.parse`, is a parameter.

Main definitions:

* `Osprey.Relay.SocketHub` with `attach`, `detach`, `get` and `drop`;
* `Osprey.Relay.parseClientFrame` — the frames a socket accepts.

Main results:

* `Osprey.Relay.SocketHub.key_injective` — a key determines both spellings it was made from;
* `Osprey.Relay.SocketHub.lookup_attach`, `Osprey.Relay.SocketHub.lookup_detach`,
  `Osprey.Relay.SocketHub.lookup_drop` — what each operation leaves in the map.
-/

import Mathlib.Data.List.AList
import Osprey.RelayDb

set_option relaxedAutoImplicit false
set_option autoImplicit false

namespace Osprey.Relay

/-! ### The hub -/

/-- The code and the reason a socket is closed with. -/
structure Close where
  code : ℕ
  reason : Text
  deriving DecidableEq

/-- `Map<string, WebSocket>`. -/
structure SocketHub where
  sockets : AList fun _ : Text => ℕ

namespace SocketHub

def key (accountId deviceId : Text) : Text := accountId ++ ':' :: deviceId

def get (hub : SocketHub) (accountId deviceId : Text) : Option ℕ :=
  hub.sockets.lookup (key accountId deviceId)

/-- The new socket takes the key; the one it takes it from is to be closed. -/
def attach (hub : SocketHub) (accountId deviceId : Text) (socket : ℕ) :
    SocketHub × Option (ℕ × Close) :=
  let previous := hub.get accountId deviceId
  (⟨hub.sockets.insert (key accountId deviceId) socket⟩,
    match previous with
    | none => none
    | some previous =>
        if previous ≠ socket then some (previous, ⟨4000, "superseded".toList⟩) else none)

/-- Only the socket that holds the key gives it up. -/
def detach (hub : SocketHub) (accountId deviceId : Text) (socket : ℕ) : SocketHub :=
  if hub.get accountId deviceId = some socket then ⟨hub.sockets.erase (key accountId deviceId)⟩
  else hub

/-- Whatever socket holds the key loses it and is to be closed. -/
def drop (hub : SocketHub) (accountId deviceId : Text) (reason : Text) :
    SocketHub × Option (ℕ × Close) :=
  match hub.get accountId deviceId with
  | none => (hub, none)
  | some socket => (⟨hub.sockets.erase (key accountId deviceId)⟩, some (socket, ⟨4001, reason⟩))

/-! ### What the operations leave -/

theorem lookup_attach (hub : SocketHub) (accountId deviceId : Text) (socket : ℕ) (k : Text) :
    (hub.attach accountId deviceId socket).1.sockets.lookup k
      = if k = key accountId deviceId then some socket else hub.sockets.lookup k := by
  split
  · rename_i heq
    rw [heq]
    exact AList.lookup_insert _
  · rename_i hne
    exact AList.lookup_insert_ne hne

theorem lookup_erase (hub : SocketHub) (k k' : Text) :
    (hub.sockets.erase k).lookup k' = if k' = k then none else hub.sockets.lookup k' := by
  split
  · rename_i heq
    rw [heq]
    exact AList.lookup_erase _ _
  · rename_i hne
    exact AList.lookup_erase_ne hne

theorem lookup_drop (hub : SocketHub) (accountId deviceId reason k : Text) :
    (hub.drop accountId deviceId reason).1.sockets.lookup k
      = if k = key accountId deviceId then none else hub.sockets.lookup k := by
  unfold drop
  split
  · rename_i hnone
    split
    · rename_i heq
      rw [heq]
      exact hnone
    · rfl
  · exact lookup_erase hub _ k

/-- A socket that is in the hub after another has been detached was in it before. -/
theorem lookup_detach {hub : SocketHub} {accountId deviceId k : Text} {socket i : ℕ}
    (h : (hub.detach accountId deviceId socket).sockets.lookup k = some i) :
    hub.sockets.lookup k = some i := by
  unfold detach at h
  split at h
  · rw [lookup_erase] at h
    split at h
    · cases h
    · exact h
  · exact h

/-- A key determines both spellings it was made from. -/
theorem key_injective {accountId deviceId accountId' deviceId' : UuidText}
    (h : key accountId.chars deviceId.chars = key accountId'.chars deviceId'.chars) :
    accountId = accountId' ∧ deviceId = deviceId' := by
  have hlength : accountId.chars.length = accountId'.chars.length := by
    rw [matchesAll_length accountId.valid, matchesAll_length accountId'.valid]
  obtain ⟨haccount, hdevice⟩ := List.append_inj h hlength
  exact ⟨UuidText.ext_chars haccount, UuidText.ext_chars (List.cons.inj hdevice).2⟩

end SocketHub

/-! ### Frames -/

/-- What `JSON.parse` returns; an object has each of its names once. -/
inductive Json
  | null
  | bool (value : Bool)
  | number (literal : Text)
  | string (text : Text)
  | array (items : List Json)
  | object (fields : List (Text × Json))

/-- A field of an object; `none` for `undefined`. -/
def Json.field (fields : List (Text × Json)) (name : Text) : Option Json :=
  (fields.find? fun field => field.1 = name).map Prod.snd

/-- What the platform supplies. -/
structure Platform where
  sha256Hex : Text → Text
  utf8 : List UInt8 → Text
  jsonParse : Text → Option Json

/-- What `ws` hands to a listener for messages. -/
inductive RawMessage
  | string (text : Text)
  | buffer (bytes : List UInt8)
  | other
  deriving DecidableEq

inductive ClientFrame
  | relay (peer : UuidText) (payload : Text)
  | ping
  deriving DecidableEq

def MAX_FRAME_BYTES : ℕ := 256 * 1024

/-- `text.length`: UTF-16 code units. -/
def utf16Length (text : Text) : ℕ := (text.map fun c => if c.toNat < 0x10000 then 1 else 2).sum

/-- The text of a message, within the size limit. -/
def frameText (platform : Platform) (raw : RawMessage) : Except Text Text := do
  let text ← match raw with
    | .string text => pure text
    | .buffer bytes =>
        if bytes.length > MAX_FRAME_BYTES then throw "frame too large".toList
        else pure (platform.utf8 bytes)
    | .other => throw "unsupported frame encoding".toList
  if utf16Length text > MAX_FRAME_BYTES then throw "frame too large".toList
  return text

/-- The frame an object is. -/
def frameOfFields (fields : List (Text × Json)) : Except Text ClientFrame :=
  match Json.field fields "t".toList with
  | some (.string t) =>
      if t = "ping".toList then .ok .ping
      else if t = "relay".toList then
        match Json.field fields "to".toList with
        | some (.string peer) =>
            if hpeer : isUuid peer = true then
              match Json.field fields "payload".toList with
              | some (.string payload) =>
                  if payload.isEmpty then .error "relay.payload must be a non-empty string".toList
                  else .ok (.relay ⟨peer, hpeer⟩ payload)
              | _ => .error "relay.payload must be a non-empty string".toList
            else .error "relay.to must be a device uuid".toList
        | _ => .error "relay.to must be a device uuid".toList
      else .error "unknown frame type".toList
  | _ => .error "unknown frame type".toList

def parseClientFrame (platform : Platform) (raw : RawMessage) : Except Text ClientFrame := do
  let text ← frameText platform raw
  match platform.jsonParse text with
  | none => throw "frame is not valid JSON".toList
  | some (.object fields) => frameOfFields fields
  | some _ => throw "frame must be a JSON object".toList

end Osprey.Relay
