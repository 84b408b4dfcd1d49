/-
**The phone's half of a pairing mirrors the agent's.**

`ios/…/Pairing/PairingFlow.swift`, and `begin` of `Noise/NoiseChannel.swift`, against
`initiate_inner` of `pairing/flow.rs`.  The two make their checks in different orders and with
different means: the phone compares the host's bundle with the scanned one where the agent verifies
and pins both, and the phone takes the acceptance only if it comes in one chunk.

Both drive the same Noise core, and the two JSON decoders accept the same identity messages.  The
encoders need not agree: two hellos may say the same in different bytes.  A host's messages are
sealed for the handshake that one hello has begun, so the bytes of the host are not the same in two
runs, even where it says the same; what it says is what the core makes of them.  A read of the
phone's socket that fails, or a write of either side that does, ends its run without a session, so
each direction assumes the I/O of the side it concludes about.

Main definitions:

* `Osprey.NoiseChannel.begin`, `Osprey.PairingFlow.authenticate`, `Osprey.PairingFlow.run` — the
  phone's half;
* `Osprey.PhoneJson.Agrees` — what is assumed of the two JSON libraries;
* `Osprey.heard` — **what a host says** to a controller, as far as it counts here;
* `Osprey.HostAuthenticated`, `Osprey.AcceptedInOneChunk` — **what both sides need of the host**, as
  facts about its bytes.

Main results:

* `Osprey.hostAuthenticated_of_agent`, `Osprey.authenticateHost_of_hostAuthenticated`,
  `Osprey.PairingFlow.hostAuthenticated_of_phone`,
  `Osprey.PairingFlow.authenticate_of_hostAuthenticated` — the first half, on both sides;
* `Osprey.accepted_iff_heard` — what both sides need of the host depends on what it says alone;
* `Osprey.controllers_agree` — **the two controllers pair with the same hosts**.
-/

import Osprey.PairingAgreement
import Osprey.PhoneSession

set_option relaxedAutoImplicit false
set_option autoImplicit false

namespace Osprey

open ByteIO

variable {H T : Type}

/-! ### The phone's controller -/

/-- `JSONEncoder` and `JSONDecoder` on identity messages. -/
structure PhoneJson where
  encode : IdentityMessage → Except JsonError Bytes
  decode : Bytes → Except JsonError IdentityMessage

/-- The decoders accept the same identity messages. -/
def PhoneJson.Agrees (json : PhoneJson) (codec : IdentityCodec) : Prop :=
  ∀ bytes message, json.decode bytes = .ok message ↔ codec.fromSlice bytes = .ok message

/-- What the phone's half of a pairing can throw. -/
inductive PairingError
  | encode (source : JsonError)
  | handshakeAlreadyStarted
  | channel (source : NoiseChannelError)
  | io (kind : ErrorKind)
  | hostClosedDuringHandshake
  | malformedHostIdentity (source : JsonError)
  | hostIdentityMismatch
  | hostStaticMismatch
  | peerClosedMidExchange
  | unexpectedHostAcceptance
  deriving DecidableEq

/-- Which handshake to run. -/
inductive ChannelPattern
  | pairing (pairingSecret : PairingSecret)
  | session
  deriving DecidableEq, Repr

/-- The configuration that the engine builds the handshake from. -/
def ChannelPattern.config (pattern : ChannelPattern) (localStatic remoteStatic : Key32) :
    HandshakeConfig :=
  match pattern with
  | pairing pairingSecret =>
      ⟨.pairing, .initiator, localStatic, some remoteStatic, some pairingSecret⟩
  | session => ⟨.session, .initiator, localStatic, some remoteStatic, none⟩

namespace NoiseChannel

/-- A channel on which nothing has begun. -/
def new : NoiseChannel H T := ⟨none, none⟩

/-- Build the handshake and produce the first message's wire bytes. -/
def begin (snow : Snow H T) (ch : NoiseChannel H T) (pattern : ChannelPattern) (rng : ℕ)
    (localStatic remoteStatic : Key32) (payload : Bytes) :
    Except PairingError Bytes × NoiseChannel H T :=
  if ch.handshake.isSome ∨ ch.transport.isSome then (.error .handshakeAlreadyStarted, ch)
  else
    match Handshake.new snow (pattern.config localStatic remoteStatic) rng with
    | .error e => (.error (.channel (.core (.ofCore e))), ch)
    | .ok state =>
        match (NoiseHandshake.wrap state).writeMessage snow payload with
        | (.error e, h) => (.error (.channel (.core e)), { ch with handshake := some h })
        | (.ok first, h) => (.ok first, { ch with handshake := some h })

end NoiseChannel

/-- The phone's side of a connection: what its reads return, and where its writes go. -/
structure PhoneSocket where
  reads : List Bytes
  writer : Writer

namespace PairingFlow

def confirmTag : Bytes := ascii "osprey/pair/confirm/v1"

def acceptTag : Bytes := ascii "osprey/pair/accept/v1"

/-- The first half of `run`: the handshake, and the checks on the bundle that the host sent in
it. -/
def authenticate (snow : Snow H T) (json : PhoneJson) (rng : ℕ) (socket : PhoneSocket)
    (localNoiseStaticPrivateKey : Key32) (localPublicIdentity : PublicIdentity)
    (expectedAgentIdentity : PublicIdentity) (pairingSecret : PairingSecret) :
    Except PairingError (NoiseChannel H T) × PhoneSocket :=
  match json.encode ⟨localPublicIdentity⟩ with
  | .error e => (.error (.encode e), socket)
  | .ok hello =>
      match NoiseChannel.new.begin snow (.pairing pairingSecret) rng localNoiseStaticPrivateKey
          expectedAgentIdentity.noiseStaticPub hello with
      | (.error e, _) => (.error e, socket)
      | (.ok first, channel) =>
          match socket.writer.writeAll first with
          | (.error kind, writer) => (.error (.io kind), { socket with writer })
          | (.ok (), writer) =>
              match readHandshakePayload snow channel socket.reads with
              | (.error e, _, reads) => (.error (.channel e), ⟨reads, writer⟩)
              | (.ok none, _, reads) => (.error .hostClosedDuringHandshake, ⟨reads, writer⟩)
              | (.ok (some second), channel, reads) =>
                  match channel.promote snow with
                  | (.error e, _) => (.error (.channel e), ⟨reads, writer⟩)
                  | (.ok remoteStaticPublicKey, channel) =>
                      match json.decode second with
                      | .error e => (.error (.malformedHostIdentity e), ⟨reads, writer⟩)
                      | .ok offered =>
                          if offered.identity ≠ expectedAgentIdentity then
                            (.error .hostIdentityMismatch, ⟨reads, writer⟩)
                          else if offered.identity.noiseStaticPub ≠ remoteStaticPublicKey then
                            (.error .hostStaticMismatch, ⟨reads, writer⟩)
                          else (.ok channel, ⟨reads, writer⟩)

/-- Run the exchange over an already-connected stream.  The session that is returned is the channel
on its stream. -/
def run (snow : Snow H T) (json : PhoneJson) (rng : ℕ) (socket : PhoneSocket)
    (localNoiseStaticPrivateKey : Key32) (localPublicIdentity : PublicIdentity)
    (expectedAgentIdentity : PublicIdentity) (pairingSecret : PairingSecret) :
    Except PairingError (NoiseChannel H T) × PhoneSocket :=
  match authenticate snow json rng socket localNoiseStaticPrivateKey localPublicIdentity
      expectedAgentIdentity pairingSecret with
  | (.error e, socket) => (.error e, socket)
  | (.ok channel, socket) =>
      match channel.sealPayload snow.toSnowTransport confirmTag with
      | (.error e, _) => (.error (.channel e), socket)
      | (.ok sealed, channel) =>
          match socket.writer.writeAll sealed with
          | (.error kind, writer) => (.error (.io kind), { socket with writer })
          | (.ok (), writer) =>
              match receive snow.toSnowTransport channel socket.reads with
              | (.error e, _, reads) => (.error (.channel e), ⟨reads, writer⟩)
              | (.ok none, _, reads) => (.error .peerClosedMidExchange, ⟨reads, writer⟩)
              | (.ok (some accept), channel, reads) =>
                  if accept ≠ acceptTag then (.error .unexpectedHostAcceptance, ⟨reads, writer⟩)
                  else (.ok channel, ⟨reads, writer⟩)

end PairingFlow

/-! ### What both need of the host -/

/-- The host's first message, behind which `rest` is left, completes the handshake that the scanned
code prescribes and this hello has begun, and carries the bundle of that code, which names the
static the handshake has authenticated. -/
def HostAuthenticated (snow : Snow H T) (codec : IdentityCodec) (identity : DeviceIdentity)
    (qr : QrPayload) (rng : ℕ) (hello input : Bytes) (session : NoiseSession T) (rest : Bytes) :
    Prop :=
  ∃ (message reply payload : Bytes) (state state₁ state₂ : H) (parsed : IdentityMessage),
    Handshake.new snow ⟨.pairing, .initiator, identity.noiseStaticSecret,
      some qr.agentIdentity.noiseStaticPub, some qr.pairingSecret⟩ rng = .ok state ∧
    snow.hsWriteMessage state hello = .ok (message, state₁) ∧
    message.length ≤ NOISE_MAX_MESSAGE_LEN ∧
    input = encodeFrame reply ++ rest ∧ reply.length ≤ NOISE_MAX_MESSAGE_LEN ∧
    snow.hsReadMessage state₁ reply = .ok (payload, state₂) ∧
    Handshake.intoSession snow state₂ = .ok session ∧
    codec.fromSlice payload = .ok parsed ∧ parsed.identity = qr.agentIdentity ∧
    parsed.identity.noiseStaticPub = session.remoteStatic

/-- The next frame of the host, after the confirmation has been sealed, is the acceptance in one
chunk. -/
def AcceptedInOneChunk (snow : SnowTransport T) (session : NoiseSession T) (rest : Bytes) : Prop :=
  ∃ (state₁ state₂ : T) (w : Writer) (frame tail : Bytes),
    sendChunks snow session.state Writer.empty (splitIntoChunks CONFIRM_TAG) = (.ok (), state₁, w) ∧
    rest = encodeFrame frame ++ tail ∧ frame.length ≤ NOISE_MAX_MESSAGE_LEN ∧
    snow.readMessage state₁ frame = .ok (FLAG_FINAL :: ACCEPT_TAG, state₂)

/-- The host has done what both sides need. -/
def Accepted (snow : Snow H T) (codec : IdentityCodec) (identity : DeviceIdentity)
    (qr : QrPayload) (rng : ℕ) (hello input : Bytes) : Prop :=
  ∃ session rest, HostAuthenticated snow codec identity qr rng hello input session rest ∧
    AcceptedInOneChunk snow.toSnowTransport session rest

/-! ### What the host says -/

/-- What a host says to a controller: the payload of its handshake message, the static that it is
authenticated by, and the chunk that it sends first after the confirmation. -/
structure HostSpeech where
  payload : Bytes
  remoteStatic : Key32
  answer : Option Bytes
  deriving DecidableEq

/-- The first chunk behind the handshake, as it opens once the confirmation has been sealed. -/
def firstChunk (snow : SnowTransport T) (session : NoiseSession T) (rest : Bytes) : Option Bytes :=
  match sendChunks snow session.state Writer.empty (splitIntoChunks CONFIRM_TAG) with
  | (.error _, _, _) => none
  | (.ok (), state, _) =>
      match scanFrame rest with
      | (.ok (.frame frame), _) =>
          match snow.readMessage state frame with
          | .error _ => none
          | .ok (chunk, _) => some chunk
      | _ => none

/-- What the Noise core makes of the bytes of a host, in the handshake that `hello` has begun;
`none` where the handshake does not come about. -/
def heard (snow : Snow H T) (identity : DeviceIdentity) (qr : QrPayload) (rng : ℕ)
    (hello input : Bytes) : Option HostSpeech :=
  match Handshake.new snow ⟨.pairing, .initiator, identity.noiseStaticSecret,
      some qr.agentIdentity.noiseStaticPub, some qr.pairingSecret⟩ rng with
  | .error _ => none
  | .ok state =>
      match snow.hsWriteMessage state hello with
      | .error _ => none
      | .ok (message, state) =>
          if NOISE_MAX_MESSAGE_LEN < message.length then none
          else
            match scanFrame input with
            | (.ok (.frame reply), rest) =>
                match snow.hsReadMessage state reply with
                | .error _ => none
                | .ok (payload, state) =>
                    match Handshake.intoSession snow state with
                    | .error _ => none
                    | .ok session =>
                        some ⟨payload, session.remoteStatic,
                          firstChunk snow.toSnowTransport session rest⟩
            | _ => none

/-- The host sends the bundle of the scanned code, which names the static it is authenticated by,
and then its acceptance. -/
def HostSpeech.Accepts (codec : IdentityCodec) (qr : QrPayload) (speech : HostSpeech) : Prop :=
  ∃ parsed, codec.fromSlice speech.payload = .ok parsed ∧ parsed.identity = qr.agentIdentity ∧
    parsed.identity.noiseStaticPub = speech.remoteStatic ∧
    speech.answer = some (FLAG_FINAL :: ACCEPT_TAG)

theorem heard_eq_some {snow : Snow H T} {identity : DeviceIdentity} {qr : QrPayload} {rng : ℕ}
    {hello input : Bytes} {speech : HostSpeech} :
    heard snow identity qr rng hello input = some speech ↔
      ∃ (message reply rest : Bytes) (state state₁ state₂ : H) (session : NoiseSession T),
        Handshake.new snow ⟨.pairing, .initiator, identity.noiseStaticSecret,
          some qr.agentIdentity.noiseStaticPub, some qr.pairingSecret⟩ rng = .ok state ∧
        snow.hsWriteMessage state hello = .ok (message, state₁) ∧
        message.length ≤ NOISE_MAX_MESSAGE_LEN ∧
        input = encodeFrame reply ++ rest ∧ reply.length ≤ NOISE_MAX_MESSAGE_LEN ∧
        snow.hsReadMessage state₁ reply = .ok (speech.payload, state₂) ∧
        Handshake.intoSession snow state₂ = .ok session ∧
        session.remoteStatic = speech.remoteStatic ∧
        firstChunk snow.toSnowTransport session rest = speech.answer := by
  constructor
  · intro h
    unfold heard at h
    split at h
    · cases h
    rename_i state hnew
    split at h
    · cases h
    rename_i message state₁ hwrite
    split_ifs at h with hlong
    split at h
    · rename_i reply rest hscan
      obtain ⟨hinput, hreply⟩ := eq_encodeFrame_of_scanFrame hscan
      split at h
      · cases h
      rename_i payload state₂ hread
      split at h
      · cases h
      rename_i session hsession
      cases h
      exact ⟨message, reply, rest, state, state₁, state₂, session, hnew, hwrite, not_lt.mp hlong,
        hinput, hreply, hread, hsession, rfl, rfl⟩
    · cases h
  · rintro ⟨message, reply, rest, state, state₁, state₂, session, hnew, hwrite, hlen, rfl, hreply,
      hread, hsession, hstatic, hanswer⟩
    unfold heard
    simp only [hnew, hwrite, hread, hsession, scanFrame_encodeFrame hreply]
    rw [if_neg (not_lt.mpr hlen), hstatic, hanswer]

/-- The acceptance in one chunk is the first chunk that opens. -/
theorem acceptedInOneChunk_iff {snow : SnowTransport T} {session : NoiseSession T} {rest : Bytes} :
    AcceptedInOneChunk snow session rest ↔
      firstChunk snow session rest = some (FLAG_FINAL :: ACCEPT_TAG) := by
  constructor
  · rintro ⟨state₁, state₂, w, frame, tail, hchunks, rfl, hlen, hread⟩
    simp only [firstChunk, hchunks, scanFrame_encodeFrame hlen, hread]
  · intro h
    unfold firstChunk at h
    split at h
    · cases h
    rename_i state₁ w hchunks
    split at h
    · rename_i frame tail hscan
      obtain ⟨hrest, hlen⟩ := eq_encodeFrame_of_scanFrame hscan
      split at h
      · cases h
      rename_i chunk state₂ hread
      cases h
      exact ⟨state₁, state₂, w, frame, tail, hchunks, hrest, hlen, hread⟩
    · cases h

/-- **What both sides need of the host depends on what it says alone.** -/
theorem accepted_iff_heard {snow : Snow H T} {codec : IdentityCodec} {identity : DeviceIdentity}
    {qr : QrPayload} {rng : ℕ} {hello input : Bytes} :
    Accepted snow codec identity qr rng hello input ↔
      ∃ speech ∈ heard snow identity qr rng hello input, speech.Accepts codec qr := by
  constructor
  · rintro ⟨session, rest, ⟨message, reply, payload, state, state₁, state₂, parsed, hnew, hwrite,
      hlen, hinput, hreply, hread, hsession, hparsed, hbundle, hstatic⟩, haccepted⟩
    refine ⟨⟨payload, session.remoteStatic, _⟩, heard_eq_some.mpr ⟨message, reply, rest, state,
      state₁, state₂, session, hnew, hwrite, hlen, hinput, hreply, hread, hsession, rfl, rfl⟩, ?_⟩
    exact ⟨parsed, hparsed, hbundle, hstatic, acceptedInOneChunk_iff.mp haccepted⟩
  · rintro ⟨speech, hheard, parsed, hparsed, hbundle, hstatic, haccepted⟩
    obtain ⟨message, reply, rest, state, state₁, state₂, session, hnew, hwrite, hlen, hinput,
      hreply, hread, hsession, hremote, hanswer⟩ := heard_eq_some.mp hheard
    refine ⟨session, rest, ⟨message, reply, speech.payload, state, state₁, state₂, parsed, hnew,
      hwrite, hlen, hinput, hreply, hread, hsession, hparsed, hbundle, ?_⟩, ?_⟩
    · rw [hstatic, hremote]
    · rw [acceptedInOneChunk_iff, hanswer, haccepted]

/-! ### Writing -/

/-- What one writer let through, a reliable one lets through, and the cipher is in the same
state. -/
theorem sendChunks_transfer {snow : SnowTransport T} {state state' : T} {w w' w₂ : Writer}
    {chunks : List Bytes} (h : sendChunks snow state w chunks = (.ok (), state', w'))
    (hw₂ : w₂.Reliable) :
    ∃ w₂', sendChunks snow state w₂ chunks = (.ok (), state', w₂') ∧ w₂'.Reliable := by
  induction chunks generalizing state w w₂ with
  | nil =>
      cases h
      exact ⟨w₂, rfl, hw₂⟩
  | cons chunk chunks ih =>
      rw [sendChunks] at h
      cases hwrite : snow.writeMessage state chunk with
      | error e =>
          rw [hwrite] at h
          cases h
      | ok answer =>
          obtain ⟨cipher, state₁⟩ := answer
          rw [hwrite] at h
          dsimp only at h
          split at h
          · cases h
          · rename_i w₁ hframe
            have hframed : Writer.Reliable ⟨w₂.output ++ encodeFrame cipher, []⟩ := rfl
            obtain ⟨w₂', hrest, hreliable⟩ := ih h hframed
            refine ⟨w₂', ?_, hreliable⟩
            rw [sendChunks, hwrite]
            dsimp only
            rw [writeFrame_reliable hw₂ (writeFrame_ok hframe).2]
            exact hrest

/-- `send` is its chunks and a flush. -/
theorem sendChunks_of_send {snow : SnowTransport T} {session session' : NoiseSession T}
    {payload : Bytes} {w w' : Writer} (h : session.send snow payload w = (.ok (), session', w')) :
    ∃ state w₁, sendChunks snow session.state w (splitIntoChunks payload) = (.ok (), state, w₁) ∧
      session' = { session with state } := by
  unfold NoiseSession.send at h
  split at h
  · cases h
  · rename_i state w₁ hchunks
    split at h
    · cases h
    · cases h
      exact ⟨state, w₁, hchunks, rfl⟩

theorem send_of_sendChunks {snow : SnowTransport T} {session : NoiseSession T} {state : T}
    {payload : Bytes} {w w₁ w₂ : Writer}
    (h : sendChunks snow session.state w₁ (splitIntoChunks payload) = (.ok (), state, w₂))
    (hw : w.Reliable) :
    ∃ w', session.send snow payload w = (.ok (), { session with state }, w') ∧ w'.Reliable := by
  obtain ⟨w₃, hsent, hreliable⟩ := sendChunks_transfer h hw
  refine ⟨⟨w₃.output ++ [], []⟩, ?_, rfl⟩
  rw [NoiseSession.send, hsent]
  dsimp only [Writer.flush]
  rw [Writer.writeAll_reliable hreliable]

/-! ### The first half, on the agent's side -/

/-- A bundle verifies to one pin. -/
theorem pin_of_verifySelfConsistent {crypto : Crypto} {bundle : PublicIdentity}
    (h : bundle.verifySelfConsistent crypto = .ok ()) :
    PinnedPeer.pin crypto bundle = .ok ⟨bundle.identityAlgorithm, bundle.identityPub,
      bundle.noiseStaticPub, bundle.noiseStaticSig⟩ :=
  PinnedPeer.pin_eq_ok.mpr ⟨h, rfl⟩

theorem hostAuthenticated_of_agent {snow : Snow H T} {codec : IdentityCodec} {crypto : Crypto}
    {call : InitiateCall} {peer : PinnedPeer} {session : NoiseSession T} {stream : Stream}
    (h : authenticateHost snow codec crypto call = (.ok (peer, session), stream)) :
    PinnedPeer.pin crypto call.qr.agentIdentity = .ok peer ∧
      ∃ hello, codec.toVec ⟨call.identity.publicIdentity⟩ = .ok hello ∧
        HostAuthenticated snow codec call.identity call.qr call.rng hello call.stream.reader.input
          session stream.reader.input := by
  unfold authenticateHost at h
  split at h
  · cases h
  rename_i expected hexpected
  obtain ⟨-, rfl⟩ := PinnedPeer.pin_eq_ok.mp hexpected
  split at h
  · cases h
  rename_i handshake hnew
  split at h
  · cases h
  rename_i hello hhello
  split at h
  · cases h
  rename_i session₁ response stream₁ hrun
  split at h
  · cases h
  rename_i peer₁ hpin
  split_ifs at h with hsame
  · cases h
  cases h
  rw [not_not] at hsame
  subst hsame
  obtain ⟨msg1, msg2, state₁, state₂, hwrite, -, hlen, hread, hresponse, hsession⟩ :=
    Handshake.runInitiator_ok hrun
  obtain ⟨hinput, hreply⟩ := readFrame_ok hread
  obtain ⟨parsed, hparsed, hpinned, hstatic⟩ := pinFromHandshake_ok hpin
  -- the pins are equal field by field, and so are the bundles
  obtain ⟨-, hfields⟩ := PinnedPeer.pin_eq_ok.mp hpinned
  have hbundle : parsed.identity = call.qr.agentIdentity := by
    simp only [PinnedPeer.mk.injEq] at hfields
    obtain ⟨halgorithm, hkey, hkeyStatic, hsignature⟩ := hfields
    cases hidentity : parsed.identity
    cases hqr : call.qr.agentIdentity
    simp_all
  refine ⟨hexpected, hello, encodeIdentity_ok hhello, msg1, msg2, response, handshake, state₁,
    state₂, parsed, hnew, hwrite, hlen, hinput, hreply, hresponse, hsession, hparsed, hbundle, ?_⟩
  rw [hstatic, hbundle]

/-- The agent's side gets that far, if its I/O does not fail. -/
theorem authenticateHost_of_hostAuthenticated {snow : Snow H T} {codec : IdentityCodec}
    {crypto : Crypto} {call : InitiateCall} {session : NoiseSession T} {hello rest : Bytes}
    (hverified : call.qr.agentIdentity.verifySelfConsistent crypto = .ok ())
    (hreader : call.stream.reader.Benign) (hwriter : call.stream.writer.Reliable)
    (hhello : codec.toVec ⟨call.identity.publicIdentity⟩ = .ok hello)
    (h : HostAuthenticated snow codec call.identity call.qr call.rng hello call.stream.reader.input
      session rest) :
    ∃ peer stream, authenticateHost snow codec crypto call = (.ok (peer, session), stream) ∧
      PinnedPeer.pin crypto call.qr.agentIdentity = .ok peer ∧ stream.reader.Benign ∧
      stream.reader.input = rest ∧ stream.writer.Reliable := by
  obtain ⟨message, reply, payload, state, state₁, state₂, parsed, hnew, hwrite, hlen, hinput,
    hreply, hread, hsession, hparsed, hbundle, hstatic⟩ := h
  have hpin := pin_of_verifySelfConsistent hverified
  obtain ⟨reader, hframe, hrest, hbenign⟩ := readFrame_benign hreader
  rw [hinput, scanFrame_encodeFrame hreply] at hframe hrest
  have hencode : encodeIdentity codec call.identity = .ok hello := by
    rw [encodeIdentity, hhello]
  have hflushed : ∃ writer, Handshake.writeFlushed call.stream message
      = (.ok (), { call.stream with writer }) ∧ writer.Reliable := by
    refine ⟨⟨call.stream.writer.output ++ encodeFrame message ++ [], []⟩, ?_, rfl⟩
    rw [Handshake.writeFlushed, writeFrame_reliable hwriter hlen]
    rfl
  obtain ⟨writer, hflushed, hreliable⟩ := hflushed
  have hrun : Handshake.runInitiator snow state call.stream hello
      = (.ok (session, payload), ⟨reader, writer⟩) := by
    rw [Handshake.runInitiator, Handshake.writeMessage, hwrite]
    simp only [hflushed, Handshake.readRequired, hframe, Handshake.readMessage, hread, hsession]
  have hpinned : pinFromHandshake codec crypto payload session
      = .ok ⟨call.qr.agentIdentity.identityAlgorithm, call.qr.agentIdentity.identityPub,
        call.qr.agentIdentity.noiseStaticPub, call.qr.agentIdentity.noiseStaticSig⟩ := by
    rw [hbundle] at hstatic
    simp only [pinFromHandshake, hparsed, hbundle, hpin, PinnedPeer.matchesHandshakeStatic, hstatic,
      decide_true, if_true]
  refine ⟨_, ⟨reader, writer⟩, ?_, hpin, hbenign, hrest, hreliable⟩
  unfold authenticateHost
  simp only [hpin, hnew, hencode, hrun, hpinned, ne_eq, not_true_eq_false, if_false]

/-! ### The first half, on the phone's side -/

/-- A frame that is complete in the buffer is read before anything else is. -/
theorem readHandshakePayload_frame {snow : Snow H T} {state : H} {writes done : ℕ}
    {reads reads' : List Bytes} {inbound frame tail payload : Bytes} {ch : NoiseChannel H T}
    (htake : takeFrame inbound = (.ok (some frame), tail))
    (h : readHandshakePayload snow (handshakeChannel state inbound writes done) reads
      = (.ok (some payload), ch, reads')) :
    ∃ state', snow.hsReadMessage state frame = .ok (payload, state') ∧
      ch = handshakeChannel state' tail writes (done + 1) ∧ reads' = reads := by
  rw [readHandshakePayload] at h
  cases hread : snow.hsReadMessage state frame with
  | error e =>
      simp [NoiseChannel.handshakePayload, handshakeChannel, NoiseHandshake.readMessage, htake,
        NoiseHandshake.stateMut, Handshake.readMessage, hread] at h
  | ok answer =>
      simp only [NoiseChannel.handshakePayload, handshakeChannel, NoiseHandshake.readMessage, htake,
        NoiseHandshake.stateMut, Handshake.readMessage, hread] at h
      cases h
      exact ⟨answer.2, rfl, rfl, rfl⟩

/-- When the handshake loop has a payload, the stream began with the frame it came in, and what is
behind that frame is still there. -/
theorem readHandshakePayload_ok {snow : Snow H T} {state : H} {writes done : ℕ}
    {reads reads' : List Bytes} (hreads : SocketReads reads) {inbound payload : Bytes}
    {ch : NoiseChannel H T}
    (h : readHandshakePayload snow (handshakeChannel state inbound writes done) reads
      = (.ok (some payload), ch, reads')) :
    ∃ reply state' inbound', reply.length ≤ NOISE_MAX_MESSAGE_LEN ∧
      inbound ++ reads.flatten = encodeFrame reply ++ (inbound' ++ reads'.flatten) ∧
      snow.hsReadMessage state reply = .ok (payload, state') ∧
      ch = handshakeChannel state' inbound' writes (done + 1) ∧ SocketReads reads' := by
  induction reads generalizing inbound with
  | nil =>
      rcases takeFrame_eq inbound with ⟨-, htake⟩ | ⟨frame, tail, rfl, hframe, htake⟩
      · simp [readHandshakePayload, NoiseChannel.handshakePayload, handshakeChannel,
          NoiseHandshake.readMessage, htake] at h
      · obtain ⟨state', hread, rfl, rfl⟩ := readHandshakePayload_frame htake h
        exact ⟨frame, state', tail, hframe, by simp, hread, rfl, hreads⟩
  | cons bytes reads ih =>
      rcases takeFrame_eq inbound with ⟨hnone, htake⟩ | ⟨frame, tail, rfl, hframe, htake⟩
      · have hlt := length_lt_of_completeFrameLen_none hnone
        have hbytes := hreads.head_le
        have hfit : ¬MAX_INBOUND_BUFFER < inbound.length + bytes.length := by
          simp only [MAX_INBOUND_BUFFER, LENGTH_PREFIX_LEN] at *
          omega
        have hstep : readHandshakePayload snow (handshakeChannel state
            (inbound ++ bytes) writes done)
            reads = (.ok (some payload), ch, reads') := by
          rw [readHandshakePayload] at h
          simpa [NoiseChannel.handshakePayload, handshakeChannel, NoiseHandshake.readMessage, htake,
            NoiseChannel.push, NoiseHandshake.pushBytes, pushBounded, hfit] using h
        obtain ⟨reply, state', inbound', hreply, hinput, hrest⟩ := ih hreads.tail hstep
        refine ⟨reply, state', inbound', hreply, ?_, hrest⟩
        rw [List.flatten_cons, ← List.append_assoc]
        exact hinput
      · obtain ⟨state', hread, rfl, rfl⟩ := readHandshakePayload_frame htake h
        exact ⟨frame, state', tail, hframe, by simp, hread, rfl, hreads⟩

/-- Promotion keeps the buffered bytes, and reports the static that the core has authenticated. -/
theorem promote_handshakeChannel (snow : Snow H T) (state : H) (inbound : Bytes)
    (writes done : ℕ) :
    (∀ session, Handshake.intoSession snow state = .ok session →
      (handshakeChannel (T := T) state inbound writes done).promote snow
        = (.ok session.remoteStatic,
          liveChannel (session.setMaxMessageLen MAX_CHUNK_PAYLOAD_LEN) inbound)) ∧
    ∀ static ch, (handshakeChannel (T := T) state inbound writes done).promote snow =
      (.ok static, ch) →
      ∃ session, Handshake.intoSession snow state = .ok session ∧ static = session.remoteStatic ∧
        ch = liveChannel (session.setMaxMessageLen MAX_CHUNK_PAYLOAD_LEN) inbound := by
  have hpromote (session : NoiseSession T) (hsession : Handshake.intoSession snow state =
      .ok session) :
      (handshakeChannel (T := T) state inbound writes done).promote snow
        = (.ok session.remoteStatic,
          liveChannel (session.setMaxMessageLen MAX_CHUNK_PAYLOAD_LEN) inbound) := by
    simp [NoiseChannel.promote, handshakeChannel, NoiseHandshake.intoTransport,
      NoiseHandshake.stateMut, hsession, NoiseTransport.fromSession, liveChannel,
      NoiseSession.setMaxMessageLen]
  refine ⟨hpromote, ?_⟩
  intro static ch h
  cases hsession : Handshake.intoSession snow state with
  | error e =>
      simp [NoiseChannel.promote, handshakeChannel, NoiseHandshake.intoTransport,
        NoiseHandshake.stateMut, hsession] at h
  | ok session =>
      rw [hpromote session hsession] at h
      cases h
      exact ⟨session, rfl, rfl, rfl⟩

theorem frameEncode_ok_iff {message bytes : Bytes} : frameEncode message = .ok bytes ↔
    message.length ≤ NOISE_MAX_MESSAGE_LEN ∧ bytes = encodeFrame message := by
  have hempty : Writer.empty.Reliable := rfl
  unfold frameEncode
  by_cases hlen : message.length ≤ NOISE_MAX_MESSAGE_LEN
  · rw [writeFrame_reliable hempty hlen]
    simp [hlen, Writer.empty, eq_comm]
  · rw [writeFrame, if_pos (not_le.mp hlen)]
    simp [hlen]

/-- The first message of a channel is what the core writes, framed. -/
theorem begin_eq_ok_iff {snow : Snow H T} {pairingSecret : PairingSecret} {rng : ℕ}
    {localStatic remoteStatic : Key32} {payload first : Bytes} {ch : NoiseChannel H T} :
    NoiseChannel.new.begin snow (.pairing pairingSecret) rng localStatic remoteStatic payload
        = (.ok first, ch) ↔
      ∃ state message state₁,
        Handshake.new snow ⟨.pairing, .initiator, localStatic, some remoteStatic,
          some pairingSecret⟩ rng = .ok state ∧
        snow.hsWriteMessage state payload = .ok (message, state₁) ∧
        message.length ≤ NOISE_MAX_MESSAGE_LEN ∧ first = encodeFrame message ∧
        ch = handshakeChannel state₁ [] 1 0 := by
  have hfresh : ¬((NoiseChannel.new : NoiseChannel H T).handshake.isSome ∨
      (NoiseChannel.new : NoiseChannel H T).transport.isSome) := by
    simp [NoiseChannel.new]
  unfold NoiseChannel.begin
  rw [if_neg hfresh, ChannelPattern.config]
  cases hnew : Handshake.new snow ⟨.pairing, .initiator, localStatic, some remoteStatic,
      some pairingSecret⟩ rng with
  | error e => simp
  | ok state =>
      cases hwrite : snow.hsWriteMessage state payload with
      | error e =>
          simp [NoiseHandshake.wrap, NoiseHandshake.writeMessage, NoiseHandshake.stateMut,
            Handshake.writeMessage, hwrite]
      | ok answer =>
          obtain ⟨message, state₁⟩ := answer
          simp only [NoiseHandshake.wrap, NoiseHandshake.writeMessage, NoiseHandshake.stateMut,
            Handshake.writeMessage, hwrite]
          constructor
          · intro h
            split at h
            · cases h
            · rename_i encoded heq
              cases h
              simp only [Prod.mk.injEq] at heq
              obtain ⟨hlen, hfirst⟩ := frameEncode_ok_iff.mp heq.1
              refine ⟨state, message, state₁, rfl, hwrite, hlen, hfirst, ?_⟩
              rw [← heq.2]
              rfl
          · rintro ⟨state', message', state₁', hstate, hsame, hlen, rfl, rfl⟩
            cases hstate
            cases hwrite.symm.trans hsame
            rw [frameEncode_ok_iff.mpr ⟨hlen, rfl⟩]
            rfl

namespace PairingFlow

/-- When the phone has authenticated the host, the host has done what both sides need. -/
theorem hostAuthenticated_of_phone {snow : Snow H T} {codec : IdentityCodec} {json : PhoneJson}
    {rng : ℕ} {socket socket' : PhoneSocket} {identity : DeviceIdentity} {qr : QrPayload}
    (hjson : json.Agrees codec) (hreads : SocketReads socket.reads) {channel : NoiseChannel H T}
    (h : authenticate snow json rng socket identity.noiseStaticSecret identity.publicIdentity
      qr.agentIdentity qr.pairingSecret = (.ok channel, socket')) :
    ∃ (session : NoiseSession T) (inbound hello : Bytes),
      channel = liveChannel (session.setMaxMessageLen MAX_CHUNK_PAYLOAD_LEN) inbound ∧
      SocketReads socket'.reads ∧ json.encode ⟨identity.publicIdentity⟩ = .ok hello ∧
      HostAuthenticated snow codec identity qr rng hello socket.reads.flatten session
        (inbound ++ socket'.reads.flatten) := by
  unfold authenticate at h
  split at h
  · cases h
  rename_i hello hhello
  split at h
  · cases h
  rename_i first started hbegin
  obtain ⟨state, message, state₁, hnew, hwrite, hlen, rfl, rfl⟩ := begin_eq_ok_iff.mp hbegin
  split at h
  · cases h
  rename_i writer hsent
  split at h
  · cases h
  · cases h
  rename_i second channel₁ reads hpayload
  obtain ⟨reply, state₂, inbound, hreply, hinput, hread, rfl, hreads'⟩ :=
    readHandshakePayload_ok hreads hpayload
  split at h
  · cases h
  rename_i static channel₂ hpromote
  obtain ⟨session, hsession, rfl, rfl⟩ :=
    (promote_handshakeChannel snow state₂ inbound 1 (0 + 1)).2 _ _ hpromote
  split at h
  · cases h
  rename_i offered hdecode
  split_ifs at h with hidentity hstatic
  · cases h
  · cases h
  cases h
  rw [not_not] at hidentity hstatic
  exact ⟨session, inbound, hello, rfl, hreads', hhello, message, reply, second, state, state₁,
    state₂, offered, hnew, hwrite, hlen, hinput, hreply, hread, hsession,
    (hjson second offered).mp hdecode, hidentity, hstatic⟩

/-- The phone gets that far, if its writes do not fail. -/
theorem authenticate_of_hostAuthenticated {snow : Snow H T} {codec : IdentityCodec}
    {json : PhoneJson} {rng : ℕ} {socket : PhoneSocket} {identity : DeviceIdentity} {qr : QrPayload}
    (hjson : json.Agrees codec) (hreads : SocketReads socket.reads)
    (hwriter : socket.writer.Reliable) {session : NoiseSession T} {hello rest : Bytes}
    (hhello : json.encode ⟨identity.publicIdentity⟩ = .ok hello)
    (h : HostAuthenticated snow codec identity qr rng hello socket.reads.flatten session rest) :
    ∃ inbound socket', authenticate snow json rng socket identity.noiseStaticSecret
        identity.publicIdentity qr.agentIdentity qr.pairingSecret
          = (.ok (liveChannel (session.setMaxMessageLen MAX_CHUNK_PAYLOAD_LEN) inbound), socket') ∧
      SocketReads socket'.reads ∧ inbound ++ socket'.reads.flatten = rest ∧
      socket'.writer.Reliable := by
  obtain ⟨message, reply, payload, state, state₁, state₂, parsed, hnew, hwrite, hlen, hinput,
    hreply, hread, hsession, hparsed, hbundle, hstatic⟩ := h
  have hbegin := begin_eq_ok_iff.mpr ⟨state, message, state₁, hnew, hwrite, hlen, rfl, rfl⟩
  obtain ⟨inbound, reads', hpayload, hrest, hreads'⟩ :=
    readHandshakePayload_eq snow hreply hread 1 0 hreads [] rest (by simpa using hinput)
  have hpromote := (promote_handshakeChannel (T := T) snow state₂ inbound 1 (0 + 1)).1
      session hsession
  refine ⟨inbound, ⟨reads', ⟨socket.writer.output ++ encodeFrame message, []⟩⟩, ?_, hreads', hrest,
    rfl⟩
  unfold authenticate
  simp only [hhello, hbegin, Writer.writeAll_reliable hwriter, hpayload, hpromote,
    (hjson payload parsed).mpr hparsed]
  rw [if_neg (not_not.mpr hbundle), if_neg (not_not.mpr hstatic)]

end PairingFlow

/-! ### The second half -/

/-- What the phone receives came in one chunk. -/
theorem receive_ok {snow : SnowTransport T} {session : NoiseSession T} {reads reads' : List Bytes}
    (hreads : SocketReads reads) {inbound message : Bytes} {ch : NoiseChannel H T}
    (h : receive snow (liveChannel session inbound) reads = (.ok (some message), ch, reads')) :
    ∃ frame tail state', inbound ++ reads.flatten = encodeFrame frame ++ tail ∧
      frame.length ≤ NOISE_MAX_MESSAGE_LEN ∧
      snow.readMessage session.state frame = .ok (FLAG_FINAL :: message, state') := by
  cases hfull : completeFrameLen (inbound ++ reads.flatten) with
  | none =>
      rw [receive_starved snow session hreads hfull] at h
      cases h
  | some total =>
      obtain ⟨frame, hscan, hlen, htake, -⟩ := exists_frame_of_completeFrameLen hfull
      obtain ⟨hok, hbad⟩ := receive_complete (H := H) snow session hreads hfull
      rw [htake] at hok hbad
      rcases decryptOne_encodeFrame snow session hlen with
        ⟨message', state, haccept, hdecrypt⟩ | ⟨-, err, session', hdecrypt, -⟩
      · obtain ⟨inbound', reads'', hreceive, -⟩ := hok message' _ hdecrypt
        rw [hreceive] at h
        cases h
        obtain ⟨plain, body, hread, hplain, -, hmessage, -⟩ := acceptChunk_eq_ok haccept
        obtain rfl := splitChunkHeader_eq_final hplain
        rw [List.nil_append] at hmessage
        subst hmessage
        exact ⟨frame, _, state, (eq_encodeFrame_of_scanFrame hscan).1, hlen, hread⟩
      · obtain ⟨t, reads'', hreceive, -⟩ := hbad err session' hdecrypt
        rw [hreceive] at h
        cases h

/-- A message in one chunk is received, if it is not too long. -/
theorem receive_of_one_chunk {snow : SnowTransport T} {session : NoiseSession T}
    {reads : List Bytes} (hreads : SocketReads reads) {inbound message frame tail : Bytes}
    {state' : T} (hinput : inbound ++ reads.flatten = encodeFrame frame ++ tail)
    (hlen : frame.length ≤ NOISE_MAX_MESSAGE_LEN)
    (hread : snow.readMessage session.state frame = .ok (FLAG_FINAL :: message, state'))
    (hmessage : message.length ≤ session.maxMessageLen) :
    ∃ (ch : NoiseChannel H T) (reads' : List Bytes),
      receive snow (liveChannel session inbound) reads = (.ok (some message), ch, reads') := by
  have hfull : completeFrameLen (inbound ++ reads.flatten) = some (encodeFrame frame).length := by
    rw [hinput, completeFrameLen_encodeFrame hlen]
  have htake : (inbound ++ reads.flatten).take (encodeFrame frame).length = encodeFrame frame := by
    rw [hinput, List.take_left]
  have hcount : 0 < session.maxChunks := Nat.succ_pos _
  have haccept : acceptChunk snow session.maxMessageLen session.maxChunks session.state frame [] 0
      = (.ok (true, [] ++ message), state') :=
    acceptChunk_of_read hcount hread (splitChunkHeader_final message)
      nofun (by simpa using hmessage)
  rcases decryptOne_encodeFrame snow session hlen with
    ⟨message', state, haccept', hdecrypt⟩ | ⟨hrefused, -⟩
  · cases haccept.symm.trans haccept'
    obtain ⟨hok, -⟩ := receive_complete (H := H) snow session hreads hfull
    rw [htake] at hok
    obtain ⟨inbound', reads', hreceive, -⟩ := hok _ _ hdecrypt
    exact ⟨_, reads', hreceive⟩
  · exact absurd haccept (hrefused _ _)

/-- What the phone seals is what the core sends. -/
theorem sealPayload_eq_ok_iff {snow : SnowTransport T} {session : NoiseSession T}
    {inbound payload bytes : Bytes} {ch : NoiseChannel H T} :
    (liveChannel session inbound).sealPayload snow payload = (.ok bytes, ch) ↔
      ∃ state w, sendChunks snow session.state Writer.empty (splitIntoChunks payload)
          = (.ok (), state, w) ∧
        bytes = w.output ∧ ch = liveChannel { session with state } inbound := by
  have hempty : Writer.empty.Reliable := rfl
  constructor
  · intro h
    simp only [NoiseChannel.sealPayload, liveChannel, NoiseTransport.encrypt,
      NoiseTransport.checkLive] at h
    split at h
    · cases h
    · rename_i sealed t hencrypt
      cases h
      split at hencrypt
      · cases hencrypt
      · rename_i session' w hsend
        cases hencrypt
        obtain ⟨state, w₁, hchunks, rfl⟩ := sendChunks_of_send hsend
        obtain ⟨w₂, hsent, hreliable⟩ := sendChunks_transfer hchunks hempty
        cases hchunks.symm.trans hsent
        refine ⟨state, w₁, hchunks, ?_, rfl⟩
        rw [NoiseSession.send, hchunks] at hsend
        simp only [Writer.flush, Writer.writeAll_reliable hreliable, List.append_nil] at hsend
        cases hsend
        rfl
  · rintro ⟨state, w, hchunks, rfl, rfl⟩
    obtain ⟨w₂, hsent, hreliable⟩ := sendChunks_transfer hchunks hempty
    cases hchunks.symm.trans hsent
    simp only [NoiseChannel.sealPayload, liveChannel, NoiseTransport.encrypt,
      NoiseTransport.checkLive, NoiseSession.send, hchunks, Writer.flush,
      Writer.writeAll_reliable hreliable, List.append_nil]

/-- The phone has a session when the host has done both, and only then. -/
theorem PairingFlow.run_ok {snow : Snow H T} {codec : IdentityCodec} {json : PhoneJson} {rng : ℕ}
    {socket socket' : PhoneSocket} {identity : DeviceIdentity} {qr : QrPayload}
    (hjson : json.Agrees codec) (hreads : SocketReads socket.reads) {channel : NoiseChannel H T}
    (h : run snow json rng socket identity.noiseStaticSecret identity.publicIdentity
      qr.agentIdentity qr.pairingSecret = (.ok channel, socket')) :
    ∃ hello, json.encode ⟨identity.publicIdentity⟩ = .ok hello ∧
      Accepted snow codec identity qr rng hello socket.reads.flatten := by
  unfold run at h
  split at h
  · cases h
  rename_i channel₁ socket₁ hauthenticate
  obtain ⟨session, inbound, hello, rfl, hreads₁, hhello, hhost⟩ :=
    hostAuthenticated_of_phone hjson hreads hauthenticate
  split at h
  · cases h
  rename_i sealed channel₂ hseal
  obtain ⟨state₁, w, hchunks, rfl, rfl⟩ := sealPayload_eq_ok_iff.mp hseal
  split at h
  · cases h
  rename_i writer hsent
  split at h
  · cases h
  · cases h
  rename_i accept channel₃ reads hreceive
  split_ifs at h with haccept
  · cases h
  rw [not_not] at haccept
  obtain ⟨frame, tail, state₂, hinput, hlen, hread⟩ := receive_ok hreads₁ hreceive
  rw [haccept] at hread
  exact ⟨hello, hhello, session, _, hhost, state₁, state₂, w, frame, tail, hchunks, hinput, hlen,
    hread⟩

theorem PairingFlow.run_of_accepted {snow : Snow H T} {codec : IdentityCodec} {json : PhoneJson}
    {rng : ℕ} {socket : PhoneSocket} {identity : DeviceIdentity} {qr : QrPayload}
    (hjson : json.Agrees codec) (hreads : SocketReads socket.reads)
    (hwriter : socket.writer.Reliable) {hello : Bytes}
    (hhello : json.encode ⟨identity.publicIdentity⟩ = .ok hello)
    (haccepted : Accepted snow codec identity qr rng hello socket.reads.flatten) :
    ∃ channel socket', run snow json rng socket identity.noiseStaticSecret identity.publicIdentity
      qr.agentIdentity qr.pairingSecret = (.ok channel, socket') := by
  obtain ⟨session, rest, hhost, state₁, state₂, w, frame, tail, hchunks, hinput, hlen, hread⟩ :=
    haccepted
  obtain ⟨inbound, socket₁, hauthenticate, hreads₁, hrest, hwriter₁⟩ :=
    authenticate_of_hostAuthenticated hjson hreads hwriter hhello hhost
  have hseal : (liveChannel (H := H) (session.setMaxMessageLen MAX_CHUNK_PAYLOAD_LEN)
      inbound).sealPayload snow.toSnowTransport confirmTag = _ :=
    sealPayload_eq_ok_iff.mpr ⟨state₁, w, hchunks, rfl, rfl⟩
  have hshort : acceptTag.length ≤ MAX_CHUNK_PAYLOAD_LEN := by decide
  obtain ⟨channel, reads', hreceive⟩ : ∃ (channel : NoiseChannel H T) (reads' : List Bytes),
      receive snow.toSnowTransport (liveChannel
        { session.setMaxMessageLen MAX_CHUNK_PAYLOAD_LEN with state := state₁ } inbound)
        socket₁.reads = (.ok (some acceptTag), channel, reads') :=
    receive_of_one_chunk hreads₁ (hrest.trans hinput) hlen hread hshort
  have htag : ¬acceptTag ≠ acceptTag := not_not.mpr rfl
  refine ⟨channel, ⟨reads', ⟨socket₁.writer.output ++ w.output, []⟩⟩, ?_⟩
  unfold run
  simp only [hauthenticate, hseal, Writer.writeAll_reliable hwriter₁, hreceive]
  rw [if_neg htag]

/-- The host sends its acceptance in one chunk: the first frame after the confirmation has been sent
is a final chunk. -/
def SingleChunkAcceptance (snow : Snow H T) (codec : IdentityCodec) (crypto : Crypto)
    (call : InitiateCall) : Prop :=
  ∀ peer session stream session' writer,
    authenticateHost snow codec crypto call = (.ok (peer, session), stream) →
    session.send snow.toSnowTransport CONFIRM_TAG stream.writer = (.ok (), session', writer) →
    firstChunkFinal snow.toSnowTransport session'.state stream.reader.input = true

/-- A first chunk that is final is all of the message. -/
theorem recv_of_firstChunkFinal {snow : SnowTransport T} {session : NoiseSession T} {r : Reader}
    {message : Bytes} (hfinal : firstChunkFinal snow session.state r.input = true)
    (h : (session.recv snow r).result = .ok (some message)) :
    ∃ frame tail state', r.input = encodeFrame frame ++ tail ∧
      frame.length ≤ NOISE_MAX_MESSAGE_LEN ∧
      snow.readMessage session.state frame = .ok (FLAG_FINAL :: message, state') := by
  rw [NoiseSession.recv, recvLoop] at h
  rcases hread : readFrame r with ⟨e | frame | _, r'⟩
  · rw [hread] at h
    cases h
  · rw [hread] at h
    obtain ⟨hinput, hlen⟩ := readFrame_ok hread
    dsimp only at h
    rw [firstChunkFinal, hinput, scanFrame_encodeFrame hlen] at hfinal
    split at h
    · cases h
    · rename_i assembled state haccept
      cases h
      obtain ⟨plain, body, hdecrypt, hplain, -, hmessage, -⟩ := acceptChunk_eq_ok haccept
      obtain rfl := splitChunkHeader_eq_final hplain
      rw [List.nil_append] at hmessage
      subst hmessage
      exact ⟨frame, r'.input, state, hinput, hlen, hdecrypt⟩
    · -- a chunk that announces more is not final
      rename_i assembled state haccept
      obtain ⟨plain, body, hdecrypt, hplain, -⟩ := acceptChunk_eq_ok haccept
      obtain rfl := splitChunkHeader_eq_more hplain
      simp only [hdecrypt] at hfinal
      exact absurd hfinal (by decide)
  · rw [hread] at h
    cases h

/-- The agent has paired: the host has done what both sides need, if its acceptance was one
chunk. -/
theorem initiateInner_accepted {snow : Snow H T} {codec : IdentityCodec} {crypto : Crypto}
    {call : InitiateCall} {outcome : PairingOutcome T} {stream' : Stream}
    (hsingle : SingleChunkAcceptance snow codec crypto call)
    (h : initiateInner snow codec crypto call = (.ok outcome, stream')) :
    ∃ hello, codec.toVec ⟨call.identity.publicIdentity⟩ = .ok hello ∧
      Accepted snow codec call.identity call.qr call.rng hello call.stream.reader.input := by
  have hempty : Writer.empty.Reliable := rfl
  unfold initiateInner at h
  split at h
  · cases h
  rename_i peer session stream hauthenticate
  obtain ⟨-, hello, hhello, hhost⟩ := hostAuthenticated_of_agent hauthenticate
  split at h
  · cases h
  rename_i session₁ writer hsend
  have hfinal := hsingle peer session stream session₁ writer hauthenticate hsend
  obtain ⟨state₁, w₁, hchunks, rfl⟩ := sendChunks_of_send hsend
  obtain ⟨w, hsent, -⟩ := sendChunks_transfer hchunks hempty
  split at h
  · cases h
  rename_i accept session₂ stream₂ hrecv
  split_ifs at h with haccept
  · cases h
  rw [not_not] at haccept
  have hreceived := recvRequired_ok hrecv
  obtain ⟨frame, tail, state₂, hinput, hlen, hread⟩ := recv_of_firstChunkFinal hfinal hreceived
  rw [haccept] at hread
  exact ⟨hello, hhello, session, stream.reader.input, hhost, state₁, state₂, w, frame, tail, hsent,
    hinput, hlen, hread⟩

/-- The agent pairs with such a host, if its I/O does not fail. -/
theorem initiateInner_of_accepted {snow : Snow H T} {codec : IdentityCodec} {crypto : Crypto}
    {call : InitiateCall} {hello : Bytes}
    (hverified : call.qr.agentIdentity.verifySelfConsistent crypto = .ok ())
    (hreader : call.stream.reader.Benign) (hwriter : call.stream.writer.Reliable)
    (hhello : codec.toVec ⟨call.identity.publicIdentity⟩ = .ok hello)
    (haccepted : Accepted snow codec call.identity call.qr call.rng hello
      call.stream.reader.input) :
    ∃ outcome stream', initiateInner snow codec crypto call = (.ok outcome, stream') ∧
      PinnedPeer.pin crypto call.qr.agentIdentity = .ok outcome.peer := by
  obtain ⟨session, rest, hhost, state₁, state₂, w, frame, tail, hchunks, hinput, hlen, hread⟩ :=
    haccepted
  obtain ⟨peer, stream, hauthenticate, hpin, hbenign, hrest, hwriter₁⟩ :=
    authenticateHost_of_hostAuthenticated hverified hreader hwriter hhello hhost
  obtain ⟨writer, hsend, -⟩ := send_of_sendChunks hchunks hwriter₁
  have hdefault : session.maxMessageLen = DEFAULT_MAX_MESSAGE_LEN := by
    obtain ⟨_, _, _, _, _, _, _, _, _, _, _, _, _, hsession, _⟩ := hhost
    obtain ⟨transport, -, -, hnew⟩ := Handshake.intoSession_ok hsession
    rw [hnew]
    rfl
  obtain ⟨received, hrecv⟩ : ∃ received, recvRequired snow.toSnowTransport .transport
      { session with state := state₁ } { stream with writer }
        = (.ok ACCEPT_TAG, received) := by
    obtain ⟨reader, -, -, hloop⟩ := recvLoop_scan snow.toSnowTransport session.maxMessageLen
      session.maxChunks state₁ hbenign [] 0
    have haccept : acceptChunk snow.toSnowTransport session.maxMessageLen session.maxChunks state₁
        frame [] 0 = (.ok (true, [] ++ ACCEPT_TAG), state₂) := by
      refine acceptChunk_of_read (Nat.succ_pos _) hread (splitChunkHeader_final ACCEPT_TAG) nofun ?_
      rw [hdefault]
      decide
    rw [hrest, hinput, scanFrame_encodeFrame hlen] at hloop
    simp only [haccept, List.nil_append] at hloop
    rw [recvRequired, NoiseSession.recv]
    exact ⟨_, by rw [show NoiseSession.maxChunks { session with state := state₁ }
      = session.maxChunks from rfl, hloop]⟩
  have htag : ¬ACCEPT_TAG ≠ ACCEPT_TAG := not_not.mpr rfl
  refine ⟨⟨peer, received.1⟩, received.2, ?_, hpin⟩
  unfold initiateInner
  simp only [hauthenticate, hsend, hrecv]
  rw [if_neg htag]

/-! ### The confirmation -/

/-- The agent confirms only to a host that it has authenticated: otherwise no more than one frame
goes out. -/
theorem initiateInner_output {snow : Snow H T} {codec : IdentityCodec} {crypto : Crypto}
    {call : InitiateCall} :
    (∃ sent : Bytes, sent.length ≤ NOISE_MAX_MESSAGE_LEN ∧
      (initiateInner snow codec crypto call).2.writer.output <+:
        call.stream.writer.output ++ encodeFrame sent) ∨
    ∃ hello session rest, codec.toVec ⟨call.identity.publicIdentity⟩ = .ok hello ∧
      HostAuthenticated snow codec call.identity call.qr call.rng hello call.stream.reader.input
        session rest := by
  rcases hauthenticate : authenticateHost snow codec crypto call with
    ⟨refusal | ⟨peer, session⟩, stream⟩
  · left
    have hout := authenticateHost_output hauthenticate
    rw [initiateInner, hauthenticate]
    exact hout
  · obtain ⟨-, hello, hhello, hhost⟩ := hostAuthenticated_of_agent hauthenticate
    exact .inr ⟨hello, session, stream.reader.input, hhello, hhost⟩

namespace PairingFlow

theorem authenticate_output (snow : Snow H T) (json : PhoneJson) (rng : ℕ) (socket : PhoneSocket)
    (localStatic : Key32) (localIdentity expected : PublicIdentity) (secret : PairingSecret) :
    ∃ sent : Bytes, sent.length ≤ NOISE_MAX_MESSAGE_LEN ∧
      (authenticate snow json rng socket localStatic localIdentity expected
        secret).2.writer.output <+:
        socket.writer.output ++ encodeFrame sent := by
  have hquiet : ∃ sent : Bytes, sent.length ≤ NOISE_MAX_MESSAGE_LEN ∧
      socket.writer.output <+: socket.writer.output ++ encodeFrame sent :=
    ⟨[], Nat.zero_le _, List.prefix_append _ _⟩
  unfold authenticate
  split
  · exact hquiet
  split
  · exact hquiet
  rename_i first channel hbegin
  obtain ⟨state, message, state₁, -, -, hlen, rfl, -⟩ := begin_eq_ok_iff.mp hbegin
  have hout := (socket.writer.writeAll_output (encodeFrame message)).2
  -- whatever happens after the hello, nothing else is written here
  split
  · rename_i kind writer hsent
    rw [hsent] at hout
    exact ⟨message, hlen, hout⟩
  rename_i writer hsent
  rw [hsent] at hout
  refine ⟨message, hlen, ?_⟩
  split
  · exact hout
  · exact hout
  · split
    · exact hout
    · split
      · exact hout
      · split_ifs
        · exact hout
        · exact hout
        · exact hout

/-- The phone confirms only to a host that it has authenticated. -/
theorem run_output {snow : Snow H T} {codec : IdentityCodec} {json : PhoneJson} {rng : ℕ}
    {socket : PhoneSocket} {identity : DeviceIdentity} {qr : QrPayload}
    (hjson : json.Agrees codec) (hreads : SocketReads socket.reads) :
    (∃ sent : Bytes, sent.length ≤ NOISE_MAX_MESSAGE_LEN ∧
      (run snow json rng socket identity.noiseStaticSecret identity.publicIdentity qr.agentIdentity
        qr.pairingSecret).2.writer.output <+: socket.writer.output ++ encodeFrame sent) ∨
    ∃ (hello : Bytes) (session : NoiseSession T) (rest : Bytes),
      json.encode ⟨identity.publicIdentity⟩ = .ok hello ∧
      HostAuthenticated snow codec identity qr rng hello socket.reads.flatten session rest := by
  have hout := authenticate_output snow json rng socket identity.noiseStaticSecret
    identity.publicIdentity qr.agentIdentity qr.pairingSecret
  rcases hauthenticate : authenticate snow json rng socket identity.noiseStaticSecret
      identity.publicIdentity qr.agentIdentity qr.pairingSecret with ⟨e | channel, socket₁⟩
  · left
    rw [hauthenticate] at hout
    rw [run, hauthenticate]
    exact hout
  · obtain ⟨session, inbound, hello, -, -, hhello, hhost⟩ :=
      hostAuthenticated_of_phone hjson hreads hauthenticate
    exact .inr ⟨hello, session, _, hhello, hhost⟩

end PairingFlow

/-- **The two controllers pair with the same hosts.**  The scanned bundle's cross-signature
verifies, and the host says the same to both, whatever bytes they introduce themselves with.  If the
phone has a session then the agent pairs, with the scanned identity pinned; if the agent pairs, and
the acceptance came in one chunk, the phone has a session; and either sends its confirmation only to
a host whose bundle is the scanned one and names the static that the handshake authenticated. -/
theorem controllers_agree (snow : Snow H T) (codec : IdentityCodec) (crypto : Crypto)
    (json : PhoneJson) (identity : DeviceIdentity) (qr : QrPayload) (rng rng' : ℕ)
    (socket : PhoneSocket) (stream : Stream) (hello hello' : Bytes) (hjson : json.Agrees codec)
    (hverified : qr.agentIdentity.verifySelfConsistent crypto = .ok ())
    (hreads : SocketReads socket.reads)
    (hhello : json.encode ⟨identity.publicIdentity⟩ = .ok hello)
    (hhello' : codec.toVec ⟨identity.publicIdentity⟩ = .ok hello')
    (hsame : heard snow identity qr rng hello socket.reads.flatten
      = heard snow identity qr rng' hello' stream.reader.input) :
    (stream.reader.Benign → stream.writer.Reliable → ∀ channel socket',
      PairingFlow.run snow json rng socket identity.noiseStaticSecret identity.publicIdentity
        qr.agentIdentity qr.pairingSecret = (.ok channel, socket') →
      ∃ outcome stream', initiateInner snow codec crypto ⟨stream, identity, qr, rng'⟩
          = (.ok outcome, stream') ∧
        PinnedPeer.pin crypto qr.agentIdentity = .ok outcome.peer) ∧
    (socket.writer.Reliable → SingleChunkAcceptance snow codec crypto ⟨stream, identity, qr, rng'⟩ →
      ∀ outcome stream', initiateInner snow codec crypto ⟨stream, identity, qr, rng'⟩
          = (.ok outcome, stream') →
      ∃ channel socket', PairingFlow.run snow json rng socket identity.noiseStaticSecret
        identity.publicIdentity qr.agentIdentity qr.pairingSecret = (.ok channel, socket')) ∧
    ((∃ sent : Bytes, sent.length ≤ NOISE_MAX_MESSAGE_LEN ∧
        (initiateInner snow codec crypto ⟨stream, identity, qr, rng'⟩).2.writer.output <+:
          stream.writer.output ++ encodeFrame sent) ∨
      ∃ session rest, HostAuthenticated snow codec identity qr rng' hello' stream.reader.input
        session rest) ∧
    ((∃ sent : Bytes, sent.length ≤ NOISE_MAX_MESSAGE_LEN ∧
        (PairingFlow.run snow json rng socket identity.noiseStaticSecret identity.publicIdentity
          qr.agentIdentity qr.pairingSecret).2.writer.output <+:
            socket.writer.output ++ encodeFrame sent) ∨
      ∃ (session : NoiseSession T) (rest : Bytes),
        HostAuthenticated snow codec identity qr rng hello socket.reads.flatten session rest) := by
  refine ⟨?_, ?_, ?_, ?_⟩
  · intro hreader hwriter channel socket' hrun
    obtain ⟨said, hsaid, haccepted⟩ := PairingFlow.run_ok hjson hreads hrun
    cases hhello.symm.trans hsaid
    rw [accepted_iff_heard, hsame] at haccepted
    exact initiateInner_of_accepted hverified hreader hwriter hhello'
      (accepted_iff_heard.mpr haccepted)
  · intro hwriter hsingle outcome stream' hinner
    obtain ⟨said, hsaid, haccepted⟩ := initiateInner_accepted hsingle hinner
    cases hhello'.symm.trans hsaid
    rw [accepted_iff_heard, ← hsame] at haccepted
    exact PairingFlow.run_of_accepted hjson hreads hwriter hhello (accepted_iff_heard.mpr haccepted)
  · refine initiateInner_output.imp id ?_
    rintro ⟨said, session, rest, hsaid, hhost⟩
    cases hhello'.symm.trans hsaid
    exact ⟨session, rest, hhost⟩
  · refine (PairingFlow.run_output hjson hreads).imp id ?_
    rintro ⟨said, session, rest, hsaid, hhost⟩
    cases hhello.symm.trans hsaid
    exact ⟨session, rest, hhost⟩

/-- The agent's library reads over blanks. -/
def blankCodec : IdentityCodec :=
  ⟨pairCodec.toVec, fun bytes => pairCodec.fromSlice (bytes.filter (· ≠ 32))⟩

/-- The phone's library does so too, and writes one behind its messages. -/
def toyPhoneJson : PhoneJson :=
  ⟨fun message => (pairCodec.toVec message).map (· ++ [32]), blankCodec.fromSlice⟩

/-- What the host 9 sends to the phone, in two reads that cut its reply. -/
def toySocket : PhoneSocket :=
  let bytes := (toyRun []).controller.stream.reader.input
  ⟨[bytes.take 5, bytes.drop 5], Writer.empty⟩

/-- The phone pairs with the host 9, and so the agent does, which has introduced itself with other
bytes. -/
theorem controllers_agree_toy : ∃ outcome stream',
    initiateInner sealedNoise blankCodec toyCrypto (toyRun []).controller = (.ok outcome, stream') ∧
      PinnedPeer.pin toyCrypto (toyBundle 9) = .ok outcome.peer := by
  have hreads : SocketReads toySocket.reads := by
    unfold SocketReads
    decide +kernel
  have hrun : (PairingFlow.run sealedNoise toyPhoneJson 0 toySocket (toyNonce 1) (toyBundle 1)
      (toyBundle 9) (toyNonce 5)).1.isOk = true := by
    decide +kernel
  rcases hanswer : PairingFlow.run sealedNoise toyPhoneJson 0 toySocket (toyNonce 1) (toyBundle 1)
      (toyBundle 9) (toyNonce 5) with ⟨e | channel, socket'⟩
  · rw [hanswer] at hrun
    cases hrun
  · exact (controllers_agree sealedNoise blankCodec toyCrypto toyPhoneJson
      ⟨toyNonce 1, toyBundle 1⟩ ⟨"lan-only", "host", toyBundle 9, toyNonce 5⟩ 0 0 toySocket
      (toyRun []).controller.stream [1, 32] [1] (fun _ _ => Iff.rfl) (by decide +kernel) hreads
      (by decide +kernel) (by decide +kernel) (by decide +kernel)).1
      (by simp [Reader.Benign, toyRun, Reader.ofBytes]) rfl channel socket' hanswer

end Osprey
