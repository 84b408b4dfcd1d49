/-
**The wire envelope and its bodies.**

`osprey-proto`: the registry of message types, the envelope common to every message, and the bodies
of the types that are fully defined.  Decoding is in two steps, the envelope and then its body, so a
body that does not parse still has the id and the type that an answer needs.

The JSON values that envelopes carry are a parameter, and so is `serde_json` on them.  The bodies of
`pair.request` and `pair.confirm` are left empty: no modelled function reads them.

Main definitions:

* `Osprey.MessageType`, `Osprey.Body`, `Osprey.Envelope` — the registry, bodies and envelopes;
* `Osprey.SerdeJson` — `serde_json` on envelopes and bodies;
* `Osprey.Envelope.new`, `Osprey.Envelope.checkVersion`, `Osprey.Envelope.decodeBody`.

Main results:

* `Osprey.Envelope.checkVersion_eq_ok` — which envelopes pass the version check.
-/

import Osprey.MetricsWire
import Osprey.Revocation

set_option relaxedAutoImplicit false
set_option autoImplicit false

namespace Osprey

/-! ### The registry -/

/-- Every message type the protocol reserves. -/
inductive MessageType
  | error
  | hello
  | helloOk
  | ping
  | pong
  | bye
  | pairRequest
  | pairConfirm
  | pairRevoke
  | metricsSubscribe
  | metricsTick
  | metricsHistory
  | procList
  | procKill
  | procStart
  | procPriority
  | svcList
  | svcStart
  | svcStop
  | svcRestart
  | svcStartupType
  | powerReboot
  | powerShutdown
  | powerSleep
  | powerLock
  | powerLogoff
  | powerWol
  | execRun
  | execResult
  | termOpen
  | termData
  | termResize
  | termClose
  | fsList
  | fsStat
  | fsMkdir
  | fsDelete
  | fsRename
  | fsReadBegin
  | fsChunk
  | fsWriteBegin
  | fsTransferStatus
  | evtQuery
  | evtTail
  | appList
  | appUninstall
  | taskList
  | taskRun
  | taskEnable
  | netInterfaces
  | netConnections
  | netSpeedtest
  | alertRulesGet
  | alertRulesSet
  | alertFired
  | alertAck
  | streamStart
  | streamStop
  | streamQuality
  | streamMonitors
  | streamSelectMonitor
  | inputMouse
  | inputKey
  | inputScroll
  | inputText
  | inputSas
  | clipPush
  | clipPull
  | clipChanged
  | audioStart
  | audioStop
  | privacyBlank
  | privacyBlockLocalInput
  deriving DecidableEq, Repr

def MessageType.asStr : MessageType → String
  | .error => "error"
  | .hello => "hello"
  | .helloOk => "hello.ok"
  | .ping => "ping"
  | .pong => "pong"
  | .bye => "bye"
  | .pairRequest => "pair.request"
  | .pairConfirm => "pair.confirm"
  | .pairRevoke => "pair.revoke"
  | .metricsSubscribe => "metrics.subscribe"
  | .metricsTick => "metrics.tick"
  | .metricsHistory => "metrics.history"
  | .procList => "proc.list"
  | .procKill => "proc.kill"
  | .procStart => "proc.start"
  | .procPriority => "proc.priority"
  | .svcList => "svc.list"
  | .svcStart => "svc.start"
  | .svcStop => "svc.stop"
  | .svcRestart => "svc.restart"
  | .svcStartupType => "svc.startup_type"
  | .powerReboot => "power.reboot"
  | .powerShutdown => "power.shutdown"
  | .powerSleep => "power.sleep"
  | .powerLock => "power.lock"
  | .powerLogoff => "power.logoff"
  | .powerWol => "power.wol"
  | .execRun => "exec.run"
  | .execResult => "exec.result"
  | .termOpen => "term.open"
  | .termData => "term.data"
  | .termResize => "term.resize"
  | .termClose => "term.close"
  | .fsList => "fs.list"
  | .fsStat => "fs.stat"
  | .fsMkdir => "fs.mkdir"
  | .fsDelete => "fs.delete"
  | .fsRename => "fs.rename"
  | .fsReadBegin => "fs.read.begin"
  | .fsChunk => "fs.chunk"
  | .fsWriteBegin => "fs.write.begin"
  | .fsTransferStatus => "fs.transfer.status"
  | .evtQuery => "evt.query"
  | .evtTail => "evt.tail"
  | .appList => "app.list"
  | .appUninstall => "app.uninstall"
  | .taskList => "task.list"
  | .taskRun => "task.run"
  | .taskEnable => "task.enable"
  | .netInterfaces => "net.interfaces"
  | .netConnections => "net.connections"
  | .netSpeedtest => "net.speedtest"
  | .alertRulesGet => "alert.rules.get"
  | .alertRulesSet => "alert.rules.set"
  | .alertFired => "alert.fired"
  | .alertAck => "alert.ack"
  | .streamStart => "stream.start"
  | .streamStop => "stream.stop"
  | .streamQuality => "stream.quality"
  | .streamMonitors => "stream.monitors"
  | .streamSelectMonitor => "stream.select_monitor"
  | .inputMouse => "input.mouse"
  | .inputKey => "input.key"
  | .inputScroll => "input.scroll"
  | .inputText => "input.text"
  | .inputSas => "input.sas"
  | .clipPush => "clip.push"
  | .clipPull => "clip.pull"
  | .clipChanged => "clip.changed"
  | .audioStart => "audio.start"
  | .audioStop => "audio.stop"
  | .privacyBlank => "privacy.blank"
  | .privacyBlockLocalInput => "privacy.block_local_input"

/-- Machine-readable failure class. -/
inductive ErrorCode
  | badRequest
  | unsupported
  | unauthorized
  | notFound
  | conflict
  | rateLimited
  | timeout
  | versionMismatch
  | internal
  | unknown (raw : String)
  deriving DecidableEq, Repr

/-- Why a session is ending. -/
inductive ByeReason
  | normal
  | unpaired
  | hostShutdown
  | idleTimeout
  | protocolError
  | unknown (raw : String)
  deriving DecidableEq, Repr

/-- A message group a peer implements. -/
inductive Capability
  | metrics
  | process
  | service
  | power
  | exec
  | terminal
  | files
  | events
  | apps
  | tasks
  | network
  | alerts
  | sessionPlane
  | input
  | clipboard
  | audio
  | privacy
  | unknown (raw : String)
  deriving DecidableEq, Repr

/-! ### Bodies -/

structure ErrorBody where
  code : ErrorCode
  message : String
  retryable : Bool
  deriving DecidableEq, Repr

structure HelloBody where
  protocolVersion : UInt32
  minProtocolVersion : UInt32
  capabilities : List Capability
  deviceId : Uuid
  softwareVersion : String
  deriving DecidableEq, Repr

structure HelloOkBody where
  protocolVersion : UInt32
  capabilities : List Capability
  deviceId : Uuid
  softwareVersion : String
  sessionId : Uuid
  displayName : Option String
  deriving DecidableEq, Repr

structure PingBody where
  seq : UInt64
  deriving DecidableEq, Repr

structure PongBody where
  seq : UInt64
  echoTs : Int64
  deriving DecidableEq, Repr

structure ByeBody where
  reason : ByeReason
  detail : Option String
  deriving DecidableEq, Repr

structure MetricsSubscribeBody where
  backfillSeconds : UInt32
  stream : Bool
  deriving DecidableEq, Repr

/-- A decoded body, one constructor for each fully defined message type. -/
inductive Body (F : Type)
  | error (body : ErrorBody)
  | hello (body : HelloBody)
  | helloOk (body : HelloOkBody)
  | ping (body : PingBody)
  | pong (body : PongBody)
  | bye (body : ByeBody)
  | pairRequest
  | pairConfirm
  | pairRevoke (body : PairRevokeBody)
  | metricsSubscribe (body : MetricsSubscribeBody)
  | metricsTick (body : MetricsTickBody F)
  | metricsHistory (body : MetricsHistoryBody F)
  deriving DecidableEq, Repr

variable {F V : Type}

/-- The registry type a body belongs to. -/
def Body.messageType : Body F → MessageType
  | .error _ => .error
  | .hello _ => .hello
  | .helloOk _ => .helloOk
  | .ping _ => .ping
  | .pong _ => .pong
  | .bye _ => .bye
  | .pairRequest => .pairRequest
  | .pairConfirm => .pairConfirm
  | .pairRevoke _ => .pairRevoke
  | .metricsSubscribe _ => .metricsSubscribe
  | .metricsTick _ => .metricsTick
  | .metricsHistory _ => .metricsHistory

/-! ### Envelopes -/

/-- Highest envelope version this build speaks. -/
def PROTOCOL_VERSION : UInt32 := 1

/-- Lowest envelope version this build accepts from a peer. -/
def MIN_PROTOCOL_VERSION : UInt32 := 1

/-- The envelope common to every message; `V` is the type of JSON values. -/
structure Envelope (V : Type) where
  v : UInt32
  id : Uuid
  t : MessageType
  ts : Int64
  body : V
  deriving DecidableEq, Repr

inductive ProtoError
  | unsupportedVersion (found min max : UInt32)
  | bodyDeferred (t : MessageType)
  | malformedBody (t : MessageType) (source : JsonError)
  | encode (t : MessageType) (source : JsonError)
  deriving DecidableEq, Repr

/-- The display text of a protocol error. -/
def ProtoError.toString : ProtoError → String
  | .unsupportedVersion found min max =>
      s!"envelope version {found} is outside the supported range {min}..={max}"
  | .bodyDeferred t => "no body schema is defined for message type `" ++ t.asStr ++ "`"
  | .malformedBody t _ => "malformed `" ++ t.asStr ++ "` body"
  | .encode t _ => "could not encode `" ++ t.asStr ++ "` body"

/-- `serde_json`: envelopes from and to bytes, bodies to values, and the schema of each defined
type. -/
structure SerdeJson (F V : Type) where
  fromSlice : Bytes → Except JsonError (Envelope V)
  toVec : Envelope V → Except JsonError Bytes
  toValue : Body F → Except JsonError V
  error : V → Except JsonError ErrorBody
  hello : V → Except JsonError HelloBody
  helloOk : V → Except JsonError HelloOkBody
  ping : V → Except JsonError PingBody
  pong : V → Except JsonError PongBody
  bye : V → Except JsonError ByeBody
  pairRequest : V → Except JsonError Unit
  pairConfirm : V → Except JsonError Unit
  pairRevoke : V → Except JsonError PairRevokeBody
  metricsSubscribe : V → Except JsonError MetricsSubscribeBody
  metricsTick : V → Except JsonError (MetricsTickBody F)
  metricsHistory : V → Except JsonError (MetricsHistoryBody F)

/-- Everything the agent sends can be encoded: the generated types never fail to serialise. -/
structure SerdeJson.Encodes (json : SerdeJson F V) : Prop where
  toValue : ∀ body, ∃ value, json.toValue body = .ok value
  toVec : ∀ envelope, ∃ bytes, json.toVec envelope = .ok bytes

namespace Envelope

/-- Wraps a decoded body in an envelope at the current protocol version. -/
def new (json : SerdeJson F V) (id : Uuid) (ts : Int64) (body : Body F) :
    Except ProtoError (Envelope V) :=
  match json.toValue body with
  | .error source => .error (.encode body.messageType source)
  | .ok value => .ok ⟨PROTOCOL_VERSION, id, body.messageType, ts, value⟩

/-- Rejects an envelope this build cannot interpret. -/
def checkVersion (envelope : Envelope V) : Except ProtoError Unit :=
  if envelope.v < MIN_PROTOCOL_VERSION ∨ PROTOCOL_VERSION < envelope.v then
    .error (.unsupportedVersion envelope.v MIN_PROTOCOL_VERSION PROTOCOL_VERSION)
  else .ok ()

/-- The envelope is of a version that this build interprets. -/
def Supported (envelope : Envelope V) : Prop :=
  MIN_PROTOCOL_VERSION ≤ envelope.v ∧ envelope.v ≤ PROTOCOL_VERSION

instance (envelope : Envelope V) : Decidable envelope.Supported :=
  inferInstanceAs (Decidable (_ ∧ _))

/-- Decode one body against its schema. -/
def decode {α : Type} (t : MessageType) (schema : V → Except JsonError α) (wrap : α → Body F)
    (value : V) : Except ProtoError (Body F) :=
  match schema value with
  | .error source => .error (.malformedBody t source)
  | .ok body => .ok (wrap body)

/-- Decodes `body` against the schema selected by `t`. -/
def decodeBody (json : SerdeJson F V) (envelope : Envelope V) : Except ProtoError (Body F) :=
  match envelope.t with
  | .error => decode .error json.error .error envelope.body
  | .hello => decode .hello json.hello .hello envelope.body
  | .helloOk => decode .helloOk json.helloOk .helloOk envelope.body
  | .ping => decode .ping json.ping .ping envelope.body
  | .pong => decode .pong json.pong .pong envelope.body
  | .bye => decode .bye json.bye .bye envelope.body
  | .pairRequest => decode .pairRequest json.pairRequest (fun _ => .pairRequest) envelope.body
  | .pairConfirm => decode .pairConfirm json.pairConfirm (fun _ => .pairConfirm) envelope.body
  | .pairRevoke => decode .pairRevoke json.pairRevoke .pairRevoke envelope.body
  | .metricsSubscribe =>
      decode .metricsSubscribe json.metricsSubscribe .metricsSubscribe envelope.body
  | .metricsTick => decode .metricsTick json.metricsTick .metricsTick envelope.body
  | .metricsHistory => decode .metricsHistory json.metricsHistory .metricsHistory envelope.body
  | other => .error (.bodyDeferred other)

theorem checkVersion_eq_ok (envelope : Envelope V) :
    envelope.checkVersion = .ok () ↔ envelope.Supported := by
  unfold checkVersion Supported
  split_ifs with h
  · refine iff_of_false (by simp) ?_
    rintro ⟨hmin, hmax⟩
    rcases h with h | h
    · exact absurd hmin (UInt32.not_le.mpr h)
    · exact absurd hmax (UInt32.not_le.mpr h)
  · refine iff_of_true rfl ?_
    rw [not_or] at h
    exact ⟨UInt32.not_lt.mp h.1, UInt32.not_lt.mp h.2⟩

end Envelope

end Osprey
