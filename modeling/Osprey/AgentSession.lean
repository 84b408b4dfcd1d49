/-
**The agent's half of a session.**

`osprey-svc/src/session.rs`: the opening `hello`, and the loop that pushes metrics while it answers
the peer.  An ignored request is indistinguishable from a hung host, so every request is answered,
with its own id.

The environment of a session is explicit: the messages that the Noise session delivers, in order,
and for each round of the loop what the sampler has queued, what the transport answers, what the
clocks show, and how the revocation handler decides.  A session leaves a trace of what it did, in
order.

Main definitions:

* `Osprey.send`, `Osprey.readHello`, `Osprey.pushTicks`, `Osprey.dispatch`, `Osprey.serveLoop`,
  `Osprey.serve` — the session;
* `Osprey.Event`, `Osprey.Arrival` — what it leaves in the trace;
* `Osprey.roundTail` — a round of the loop, after its ticks were pushed.

Main results:

* `Osprey.serveLoop_cons` — a round is its ticks and its rest.
-/

import Osprey.Envelope

set_option relaxedAutoImplicit false
set_option autoImplicit false

namespace Osprey

open ByteIO (ErrorKind)

/-! ### What a session runs in -/

/-- `std::time::Instant`, in nanoseconds. -/
abbrev Instant := ℕ

/-- A session with no inbound traffic and no live stream for this long is hung up on. -/
def SESSION_IDLE_TIMEOUT : ℕ := 300 * 1000000000

/-- What the agent reports about itself in `hello.ok`. -/
structure SessionConfig where
  deviceId : Uuid
  softwareVersion : String
  displayName : Option String
  deriving DecidableEq, Repr

inductive SessionEnd
  | peerSaidBye
  | peerClosed
  | revoked
  deriving DecidableEq, Repr

/-- Summary of a completed session. -/
structure SessionReport where
  ended : SessionEnd
  peerDeviceId : Uuid
  pingsAnswered : ℕ
  deriving DecidableEq, Repr

/-- The errors a session ends with, by the context that the source gives them. -/
inductive SessionError
  /-- "could not build an envelope" -/
  | buildEnvelope (source : ProtoError)
  /-- "could not encode an envelope" -/
  | encodeEnvelope (source : JsonError)
  /-- "could not write to the noise session" -/
  | write (source : Error)
  /-- "could not read from the noise session" -/
  | read (source : Error)
  /-- "peer sent a malformed envelope" -/
  | malformedEnvelope (source : JsonError)
  /-- "could not wait on the session transport" -/
  | wait (kind : ErrorKind)
  /-- "peer closed the session before sending hello" -/
  | closedBeforeHello
  /-- "peer opened with `{}` instead of `hello`" -/
  | openedWith (t : MessageType)
  /-- "peer sent a malformed hello" -/
  | malformedHello
  /-- "no common protocol version with the peer" -/
  | noCommonVersion
  /-- "no traffic for {} seconds" -/
  | noTraffic (seconds : ℕ)
  deriving DecidableEq, Repr

/-- What the Noise session delivers next. -/
inductive Inbound
  | message (bytes : Bytes)
  | closed
  | failed (source : Error)
  deriving DecidableEq, Repr

/-- What the session makes of it: a whole envelope, or the reason there is none. -/
inductive Arrival (V : Type)
  | envelope (envelope : Envelope V)
  | malformed (source : JsonError)
  | closed
  | failed (source : Error)
  deriving DecidableEq, Repr

/-- What a session does, as seen from outside; `active` and `quiet` are readings of the clock, when
there was traffic and when a wait has ended without any. -/
inductive Event (V : Type)
  | arrived (arrival : Arrival V)
  | sent (envelope : Envelope V)
  | active (now : Instant)
  | quiet (now : Instant)
  | waitFailed (kind : ErrorKind)
  | revocationRefused (refusal : RevocationRefusal)
  | revocationApplied (applied : AppliedRevocation)
  deriving DecidableEq, Repr

/-- The wire as the session leaves it: the trace, how many ids were drawn, how many envelopes were
built, and what the next writes answer, `none` for success. -/
structure Wire (V : Type) where
  trace : List (Event V)
  drawn : ℕ
  built : ℕ
  script : List (Option Error)

/-- `serde_json`, the ids that `Uuid::new_v4` draws, and what `now_ms` shows for each envelope. -/
structure SessionEnv (F V : Type) where
  json : SerdeJson F V
  newV4 : ℕ → Uuid
  nowMs : ℕ → Int64

/-- One round of the loop: what the sampler has queued, the clock after pushing it, what waiting on
the transport answers, the clocks after a wait and after a message, what the metrics engine answers,
and how the revocation handler decides. -/
structure Round (F : Type) where
  queued : List (Sample F)
  pushedAt : Instant
  ready : Except ErrorKind Bool
  quietAt : Instant
  receivedAt : Instant
  history : UInt32 → Option (History F)
  latestTotalMemory : Option UInt64
  apply : PairRevokeBody → PinnedPeer → Uuid → Except RevocationRefusal AppliedRevocation

variable {F V : Type}

/-! ### Sending and receiving -/

def Wire.note (wire : Wire V) (event : Event V) : Wire V :=
  { wire with trace := wire.trace ++ [event] }

/-- Build an envelope, encode it and write it. -/
def send (env : SessionEnv F V) (wire : Wire V) (id : Uuid) (body : Body F) :
    Except SessionError Unit × Wire V :=
  match Envelope.new env.json id (env.nowMs wire.built) body with
  | .error e => (.error (.buildEnvelope e), wire)
  | .ok envelope =>
      match env.json.toVec envelope with
      | .error e => (.error (.encodeEnvelope e), wire)
      | .ok _ =>
          match wire.script with
          | some e :: script => (.error (.write e), { wire with script })
          | none :: script =>
              (.ok (), { wire.note (.sent envelope) with built := wire.built + 1, script })
          | [] => (.ok (), { wire.note (.sent envelope) with built := wire.built + 1 })

def sendError (env : SessionEnv F V) (wire : Wire V) (id : Uuid) (code : ErrorCode)
    (message : String) (retryable : Bool) : Except SessionError Unit × Wire V :=
  send env wire id (.error ⟨code, message, retryable⟩)

/-- What becomes of a delivery. -/
def SerdeJson.arrival (json : SerdeJson F V) : Inbound → Arrival V
  | .closed => .closed
  | .failed e => .failed e
  | .message bytes =>
      match json.fromSlice bytes with
      | .error e => .malformed e
      | .ok envelope => .envelope envelope

/-- Receive and parse one envelope; `none` is a clean close. -/
def recvEnvelope (env : SessionEnv F V) (wire : Wire V) (inbound : Inbound) :
    Except SessionError (Option (Envelope V)) × Wire V :=
  let wire := wire.note (.arrived (env.json.arrival inbound))
  match env.json.arrival inbound with
  | .failed e => (.error (.read e), wire)
  | .closed => (.ok none, wire)
  | .malformed e => (.error (.malformedEnvelope e), wire)
  | .envelope envelope => (.ok (some envelope), wire)

/-- The capability set this build implements. -/
def capabilities : List Capability := [.metrics]

/-- Answer with an error and give up: the pattern of a refused `hello`. -/
def refuseHello (env : SessionEnv F V) (wire : Wire V) (id : Uuid) (code : ErrorCode)
    (message : String) (failure : SessionError) : Except SessionError (Uuid × Uuid) × Wire V :=
  match sendError env wire id code message false with
  | (.error e, wire) => (.error e, wire)
  | (.ok (), wire) => (.error failure, wire)

/-- Read the opening `hello` and negotiate the envelope version.  The two ranges are compared, not
the version of the envelope itself.  Answers with the peer's device id and the id of the hello. -/
def readHello (env : SessionEnv F V) (wire : Wire V) (inbound : Inbound) :
    Except SessionError (Uuid × Uuid) × Wire V :=
  match recvEnvelope env wire inbound with
  | (.error e, wire) => (.error e, wire)
  | (.ok none, wire) => (.error .closedBeforeHello, wire)
  | (.ok (some envelope), wire) =>
      if envelope.t ≠ .hello then
        refuseHello env wire envelope.id .badRequest
          "the first message on a session must be `hello`" (.openedWith envelope.t)
      else
        match envelope.decodeBody env.json with
        | .ok (.hello hello) =>
            let ceiling := min PROTOCOL_VERSION hello.protocolVersion
            let floor := max MIN_PROTOCOL_VERSION hello.minProtocolVersion
            if ceiling < floor then
              let theirs := s!"{hello.minProtocolVersion}..={hello.protocolVersion}"
              let ours := s!"{MIN_PROTOCOL_VERSION}..={PROTOCOL_VERSION}"
              refuseHello env wire envelope.id .versionMismatch
                s!"peer speaks {theirs}, this build speaks {ours}" .noCommonVersion
            else (.ok (hello.deviceId, envelope.id), wire)
        | _ =>
            refuseHello env wire envelope.id .badRequest "hello body did not match the schema"
              .malformedHello

/-! ### The loop -/

/-- Per-session state that outlives one dispatched message: the pings answered, and the id of the
subscribe whose stream is live, if any. -/
structure Runtime where
  pingsAnswered : ℕ
  stream : Option Uuid
  deriving DecidableEq, Repr

/-- Send one tick after the other, each under an id of its own. -/
def sendTicks (env : SessionEnv F V) (subId : Uuid) (wire : Wire V) :
    List (Sample F) → Except SessionError Unit × Wire V
  | [] => (.ok (), wire)
  | sample :: samples =>
      match send env { wire with drawn := wire.drawn + 1 } (env.newV4 wire.drawn)
          (.metricsTick (.tickBody subId sample)) with
      | (.error e, wire) => (.error e, wire)
      | (.ok (), wire) => sendTicks env subId wire samples

/-- Send every queued sample.  Answers whether anything was sent. -/
def pushTicks (env : SessionEnv F V) (runtime : Runtime) (wire : Wire V)
    (queued : List (Sample F)) : Except SessionError Bool × Wire V :=
  match runtime.stream with
  | none => (.ok false, wire)
  | some subId =>
      if queued.isEmpty then (.ok false, wire)
      else
        match sendTicks env subId wire queued with
        | (.error e, wire) => (.error e, wire)
        | (.ok (), wire) => (.ok true, wire)

/-- What handling one envelope comes to. -/
structure Dispatched (V : Type) where
  result : Except SessionError (Option SessionEnd)
  runtime : Runtime
  wire : Wire V

/-- Answer, and go on: the pattern `send(..)?; Ok(None)`, with the runtime as it is after a
successful answer. -/
def answer (env : SessionEnv F V) (runtime answered : Runtime) (wire : Wire V) (id : Uuid)
    (body : Body F) : Dispatched V :=
  match send env wire id body with
  | (.error e, wire) => ⟨.error e, runtime, wire⟩
  | (.ok (), wire) => ⟨.ok none, answered, wire⟩

/-- Answer with an error, and go on. -/
def refuse (env : SessionEnv F V) (runtime : Runtime) (wire : Wire V) (id : Uuid) (code : ErrorCode)
    (message : String) : Dispatched V :=
  answer env runtime runtime wire id (.error ⟨code, message, false⟩)

/-- Answer a `metrics.subscribe`: backfill now, then stream if asked.  A new stream replaces the old
one, and no stream ends it. -/
def handleMetricsSubscribe (env : SessionEnv F V) (round : Round F) (runtime : Runtime)
    (wire : Wire V) (id : Uuid) (body : MetricsSubscribeBody) : Dispatched V :=
  answer env runtime { runtime with stream := if body.stream then some id else none } wire id
    (.metricsHistory (.historyBody id (round.history body.backfillSeconds) round.latestTotalMemory))

/-- The display text of a rejection. -/
def RevocationRejection.toString : RevocationRejection → String
  | .malformed => "nonce or signature has the wrong length"
  | .wrongIssuer => "issuer is not the device on this session"
  | .unrelatedTarget => "revoked device is not part of this pairing"
  | .staleClock => "issued_at is outside the accepted clock window"
  | .badSignature => "signature does not verify under the pinned identity key"
  | .replayedNonce => "this revocation nonce has already been used"

def RevocationRefusal.code : RevocationRefusal → ErrorCode
  | .rejected .malformed => .badRequest
  | .rejected .replayedNonce => .conflict
  | .rejected _ => .unauthorized
  | .notApplied _ => .internal

def RevocationRefusal.wireMessage : RevocationRefusal → String
  | .rejected reason => "pair.revoke refused: " ++ reason.toString
  | .notApplied _ => "the revocation could not be applied at the host"

/-- Apply a `pair.revoke`, or tell the peer why it was refused.  The `bye` is a courtesy: the pin is
gone, and a failure to send it changes nothing. -/
def handleRevoke (env : SessionEnv F V) (round : Round F) (peer : PinnedPeer)
    (peerDeviceId : Uuid) (runtime : Runtime) (wire : Wire V) (id : Uuid) (body : PairRevokeBody) :
    Dispatched V :=
  match round.apply body peer peerDeviceId with
  | .error refusal =>
      refuse env runtime (wire.note (.revocationRefused refusal)) id refusal.code
        refusal.wireMessage
  | .ok applied =>
      ⟨.ok (some .revoked), runtime,
        (send env (wire.note (.revocationApplied applied)) id (.bye ⟨.unpaired,
          some "pair.revoke accepted; this device is no longer paired"⟩)).2⟩

/-- Handle one envelope.  A session end ends the session. -/
def dispatch (env : SessionEnv F V) (round : Round F) (peer : PinnedPeer) (peerDeviceId : Uuid)
    (runtime : Runtime) (wire : Wire V) (envelope : Envelope V) : Dispatched V :=
  match envelope.checkVersion with
  | .error e => refuse env runtime wire envelope.id .versionMismatch e.toString
  | .ok () =>
      match envelope.t with
      | .ping =>
          match envelope.decodeBody env.json with
          | .ok (.ping ping) =>
              answer env runtime { runtime with pingsAnswered := runtime.pingsAnswered + 1 } wire
                envelope.id (.pong ⟨ping.seq, envelope.ts⟩)
          | _ => refuse env runtime wire envelope.id .badRequest
              "ping body did not match the schema"
      | .metricsSubscribe =>
          match envelope.decodeBody env.json with
          | .ok (.metricsSubscribe body) =>
              handleMetricsSubscribe env round runtime wire envelope.id body
          | _ => refuse env runtime wire envelope.id .badRequest
              "metrics.subscribe body did not match the schema"
      | .pairRevoke =>
          match envelope.decodeBody env.json with
          | .ok (.pairRevoke body) =>
              handleRevoke env round peer peerDeviceId runtime wire envelope.id body
          | _ => refuse env runtime wire envelope.id .badRequest
              "pair.revoke body did not match the schema"
      -- A `bye` whose body does not parse still ends the session.
      | .bye => ⟨.ok (some .peerSaidBye), runtime, wire⟩
      | other => refuse env runtime wire envelope.id .unsupported
          ("`" ++ other.asStr ++ "` is reserved but not implemented in this build")

/-- What a session has come to: its trace, and its result unless it is still running. -/
structure ServeOut (V : Type) where
  trace : List (Event V)
  result : Option (Except SessionError SessionReport)

/-- The loop, round after round; it goes on for as long as there are rounds, and a read blocks when
there is nothing to be delivered any more. -/
def serveLoop (env : SessionEnv F V) (peer : PinnedPeer) (peerDeviceId : Uuid) :
    Runtime → Instant → Wire V → List Inbound → List (Round F) → ServeOut V
  | _, _, wire, _, [] => ⟨wire.trace, none⟩
  | runtime, lastActivity, wire, inbox, round :: rounds =>
      match pushTicks env runtime wire round.queued with
      | (.error e, wire) => ⟨wire.trace, some (.error e)⟩
      | (.ok pushed, wire) =>
          let lastActivity := if pushed then round.pushedAt else lastActivity
          let wire := if pushed then wire.note (.active round.pushedAt) else wire
          match round.ready with
          | .error kind => ⟨(wire.note (.waitFailed kind)).trace, some (.error (.wait kind))⟩
          | .ok false =>
              let wire := wire.note (.quiet round.quietAt)
              if SESSION_IDLE_TIMEOUT ≤ round.quietAt - lastActivity then
                ⟨wire.trace, some (.error (.noTraffic (SESSION_IDLE_TIMEOUT / 1000000000)))⟩
              else serveLoop env peer peerDeviceId runtime lastActivity wire inbox rounds
          | .ok true =>
              match inbox with
              | [] => ⟨wire.trace, none⟩
              | inbound :: inbox =>
                  match recvEnvelope env wire inbound with
                  | (.error e, wire) => ⟨wire.trace, some (.error e)⟩
                  | (.ok none, wire) =>
                      ⟨wire.trace, some (.ok ⟨.peerClosed, peerDeviceId, runtime.pingsAnswered⟩)⟩
                  | (.ok (some envelope), wire) =>
                      let out := dispatch env round peer peerDeviceId runtime
                        (wire.note (.active round.receivedAt)) envelope
                      match out.result with
                      | .error e => ⟨out.wire.trace, some (.error e)⟩
                      | .ok (some ended) => ⟨out.wire.trace,
                          some (.ok ⟨ended, peerDeviceId, out.runtime.pingsAnswered⟩)⟩
                      | .ok none => serveLoop env peer peerDeviceId out.runtime round.receivedAt
                          out.wire inbox rounds

/-- Run the agent's half of a session; `startedAt` is the clock when the loop is entered, and
`script` what the writes answer. -/
def serve (env : SessionEnv F V) (config : SessionConfig) (peer : PinnedPeer) (startedAt : Instant)
    (script : List (Option Error)) (inbox : List Inbound) (rounds : List (Round F)) : ServeOut V :=
  match inbox with
  | [] => ⟨[], none⟩
  | inbound :: inbox =>
      match readHello env ⟨[], 0, 0, script⟩ inbound with
      | (.error e, wire) => ⟨wire.trace, some (.error e)⟩
      | (.ok (peerDeviceId, helloId), wire) =>
          match send env { wire with drawn := wire.drawn + 1 } helloId (.helloOk
              ⟨PROTOCOL_VERSION, capabilities, config.deviceId, config.softwareVersion,
                env.newV4 wire.drawn, config.displayName⟩) with
          | (.error e, wire) => ⟨wire.trace, some (.error e)⟩
          | (.ok (), wire) => serveLoop env peer peerDeviceId ⟨0, none⟩ startedAt wire inbox rounds

/-! ### A round of the loop -/

/-- The rest of a round, after its ticks were pushed. -/
def roundTail (env : SessionEnv F V) (peer : PinnedPeer) (peerDeviceId : Uuid) (runtime : Runtime)
    (lastActivity : Instant) (wire : Wire V) (inbox : List Inbound) (round : Round F)
    (rounds : List (Round F)) : ServeOut V :=
  match round.ready with
  | .error kind => ⟨(wire.note (.waitFailed kind)).trace, some (.error (.wait kind))⟩
  | .ok false =>
      let wire := wire.note (.quiet round.quietAt)
      if SESSION_IDLE_TIMEOUT ≤ round.quietAt - lastActivity then
        ⟨wire.trace, some (.error (.noTraffic (SESSION_IDLE_TIMEOUT / 1000000000)))⟩
      else serveLoop env peer peerDeviceId runtime lastActivity wire inbox rounds
  | .ok true =>
      match inbox with
      | [] => ⟨wire.trace, none⟩
      | inbound :: inbox =>
          match recvEnvelope env wire inbound with
          | (.error e, wire) => ⟨wire.trace, some (.error e)⟩
          | (.ok none, wire) =>
              ⟨wire.trace, some (.ok ⟨.peerClosed, peerDeviceId, runtime.pingsAnswered⟩)⟩
          | (.ok (some envelope), wire) =>
              let out := dispatch env round peer peerDeviceId runtime
                (wire.note (.active round.receivedAt)) envelope
              match out.result with
              | .error e => ⟨out.wire.trace, some (.error e)⟩
              | .ok (some ended) => ⟨out.wire.trace,
                  some (.ok ⟨ended, peerDeviceId, out.runtime.pingsAnswered⟩)⟩
              | .ok none => serveLoop env peer peerDeviceId out.runtime round.receivedAt
                  out.wire inbox rounds

/-- A round is its ticks and its rest. -/
theorem serveLoop_cons (env : SessionEnv F V) (peer : PinnedPeer) (peerDeviceId : Uuid)
    (runtime : Runtime) (last : Instant) (wire : Wire V) (inbox : List Inbound) (round : Round F)
    (rounds : List (Round F)) :
    serveLoop env peer peerDeviceId runtime last wire inbox (round :: rounds) =
      match pushTicks env runtime wire round.queued with
      | (.error e, wire) => ⟨wire.trace, some (.error e)⟩
      | (.ok pushed, wire) =>
          roundTail env peer peerDeviceId runtime (if pushed then round.pushedAt else last)
            (if pushed then wire.note (.active round.pushedAt) else wire) inbox round rounds := by
  rw [serveLoop]
  rfl

end Osprey
