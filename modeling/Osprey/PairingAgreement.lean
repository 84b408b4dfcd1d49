/-
**The two halves of a pairing, and what each knows of the other.**

`pairing/flow.rs`, controller side, run against the host side of `Osprey.PairingFlow`.  The two are
joined by a channel that delivers a part of what was written and may fail at any step on either
side; each side writes its own audit log.

Noise is ideal: what one side reads is what the other wrote, a request is readable only by the host
it was addressed to, and the static that a handshake reports is that of the device at its other end.
Everything else follows from the bytes.  The messages of the two sides alternate, so a side that
has read its second message knows how far the other has come.

Main definitions:

* `Osprey.authenticateHost`, `Osprey.initiateInner`, `Osprey.initiate` — the scanning device's half;
* `Osprey.Snow.Ideal`, `Osprey.IdentityCodec.Lawful` — what is assumed of Noise and of JSON;
* `Osprey.PairingRun`, `Osprey.PairingRun.Delivers` — one run of the two halves;
* `Osprey.DeviceIdentity.PinnedAs` — a pin that is of this device.

Main results:

* `Osprey.PairingRun.linked` — when both sides have authenticated the other, they have
  authenticated each other;
* `Osprey.pairing_agreement` — **agreement**: the host pairs only with a controller that has
  authenticated it; a controller that pairs is paired with by the host exactly when the host, after
  the confirmation, completes.
-/

import Osprey.PairingWindow

set_option relaxedAutoImplicit false
set_option autoImplicit false

namespace Osprey

open ByteIO

variable {H T : Type}

/-! ### The controller -/

/-- The payload of a scanned QR code.  The version, the relay and the addresses in it are left out:
the exchange does not read them. -/
structure QrPayload where
  accountId : String
  deviceId : String
  agentIdentity : PublicIdentity
  pairingSecret : PairingSecret
  deriving DecidableEq, Repr

/-- One call of `initiate`, with what the handshake draws at random. -/
structure InitiateCall where
  stream : Stream
  identity : DeviceIdentity
  qr : QrPayload
  rng : ℕ

/-- The first half of `initiate_inner`: the handshake with the host of the QR code, up to where that
host is authenticated.  The QR code is the trust anchor, so its cross-certificate is checked before
a byte goes out. -/
def authenticateHost (snow : Snow H T) (codec : IdentityCodec) (crypto : Crypto)
    (call : InitiateCall) : PairingAttempt (PinnedPeer × NoiseSession T) × Stream :=
  match PinnedPeer.pin crypto call.qr.agentIdentity with
  | .error e => (.error (.badSignature, e), call.stream)
  | .ok expected =>
      match Handshake.new snow ⟨.pairing, .initiator, call.identity.noiseStaticSecret,
          some expected.noiseStaticPub, some call.qr.pairingSecret⟩ call.rng with
      | .error e => (.error (.handshakeRejected, e), call.stream)
      | .ok handshake =>
          match encodeIdentity codec call.identity with
          | .error refusal => (.error refusal, call.stream)
          | .ok hello =>
              match Handshake.runInitiator snow handshake call.stream hello with
              | (.error e, stream) => (.error (classifyHandshake e), stream)
              | (.ok (session, response), stream) =>
                  match pinFromHandshake codec crypto response session with
                  | .error refusal => (.error refusal, stream)
                  | .ok peer =>
                      if peer ≠ expected then
                        (.error (.peerIdentityMismatch, .unpinnedPeer), stream)
                      else (.ok (peer, session), stream)

/-- Controller side, without the record: authenticate the host, confirm, and wait to be accepted. -/
def initiateInner (snow : Snow H T) (codec : IdentityCodec) (crypto : Crypto)
    (call : InitiateCall) : PairingAttempt (PairingOutcome T) × Stream :=
  match authenticateHost snow codec crypto call with
  | (.error refusal, stream) => (.error refusal, stream)
  | (.ok (peer, session), stream) =>
      match session.send snow.toSnowTransport CONFIRM_TAG stream.writer with
      | (.error e, _, writer) => (.error (.transport, e), { stream with writer })
      | (.ok (), session, writer) =>
          match recvRequired snow.toSnowTransport .transport session { stream with writer } with
          | (.error refusal, _, stream) => (.error refusal, stream)
          | (.ok accept, session, stream) =>
              if accept ≠ ACCEPT_TAG then
                (.error (.malformedPayload, .handshakeConfig
                  "host sent an unexpected pairing acceptance"), stream)
              else (.ok ⟨peer, session⟩, stream)

/-- What a call of `initiate` leaves behind. -/
structure InitiateOut (T : Type) where
  result : Except Error (PairingOutcome T)
  stream : Stream
  audit : AuditLog

/-- Controller side.  Runs the scanning device's half against a scanned QR. -/
def initiate (snow : Snow H T) (codec : IdentityCodec) (crypto : Crypto) (audit : AuditLog)
    (call : InitiateCall) : InitiateOut T :=
  let inner := initiateInner snow codec crypto call
  let recorded := finish crypto audit ⟨call.qr.accountId, call.qr.deviceId⟩ inner.1
  ⟨recorded.1, inner.2, recorded.2⟩

/-! ### What is assumed of Noise and of JSON -/

/-- Noise as an ideal: for every initiator and responder of a pairing, whatever their keys, a
message that is read is the one that was written, a request is read only by the holder of the static
it was addressed to, and the static that the responder reports is that of the initiator. -/
structure Snow.Ideal (snow : Snow H T) (publicOf : Key32 → Key32) : Prop where
  request : ∀ {localI remote localR : Key32} {pskI pskR : PairingSecret} {rngI rngR : ℕ}
    {init init' resp resp' : H} {payload msg1 request : Bytes},
    snow.build ⟨.pairing, .initiator, localI, some remote, some pskI⟩ rngI = .ok init →
    snow.build ⟨.pairing, .responder, localR, none, some pskR⟩ rngR = .ok resp →
    snow.hsWriteMessage init payload = .ok (msg1, init') →
    snow.hsReadMessage resp msg1 = .ok (request, resp') →
    request = payload ∧ remote = publicOf localR
  response : ∀ {localI remote localR : Key32} {pskI pskR : PairingSecret} {rngI rngR : ℕ}
    {init init' init'' resp resp' resp'' : H} {payload msg1 request reply msg2 response : Bytes},
    snow.build ⟨.pairing, .initiator, localI, some remote, some pskI⟩ rngI = .ok init →
    snow.build ⟨.pairing, .responder, localR, none, some pskR⟩ rngR = .ok resp →
    snow.hsWriteMessage init payload = .ok (msg1, init') →
    snow.hsReadMessage resp msg1 = .ok (request, resp') →
    snow.hsWriteMessage resp' reply = .ok (msg2, resp'') →
    snow.hsReadMessage init' msg2 = .ok (response, init'') →
    response = reply ∧ snow.getRemoteStatic resp'' = some (publicOf localI)

/-- JSON reads back what it has written. -/
def IdentityCodec.Lawful (codec : IdentityCodec) : Prop :=
  ∀ (message : IdentityMessage) (bytes : Bytes),
    codec.toVec message = .ok bytes → codec.fromSlice bytes = .ok message

/-- The pin is of this device: of its identity bundle, and of the static whose secret it holds. -/
def DeviceIdentity.PinnedAs (crypto : Crypto) (publicOf : Key32 → Key32)
    (identity : DeviceIdentity) (peer : PinnedPeer) : Prop :=
  PinnedPeer.pin crypto identity.publicIdentity = .ok peer ∧
    peer.noiseStaticPub = publicOf identity.noiseStaticSecret

/-! ### How far a side has come -/

/-- Sending only ever adds to what went out. -/
theorem sendChunks_output (snow : SnowTransport T) (state : T) (w : Writer) (chunks : List Bytes) :
    w.output <+: (sendChunks snow state w chunks).2.2.output := by
  induction chunks generalizing state w with
  | nil => exact List.prefix_rfl
  | cons chunk chunks ih =>
      rw [sendChunks]
      rcases snow.writeMessage state chunk with e | ⟨cipher, state₁⟩
      · exact List.prefix_rfl
      dsimp only
      have hframe := (writeFrame_output w cipher).1
      generalize writeFrame w cipher = written at hframe ⊢
      obtain ⟨e | u, w₁⟩ := written
      · exact hframe
      · exact hframe.trans (ih state₁ w₁)

theorem send_output (snow : SnowTransport T) (session : NoiseSession T) (payload : Bytes)
    (w : Writer) : w.output <+: (session.send snow payload w).2.2.output := by
  have hchunks := sendChunks_output snow session.state w (splitIntoChunks payload)
  unfold NoiseSession.send
  generalize sendChunks snow session.state w (splitIntoChunks payload) = sent at hchunks ⊢
  obtain ⟨e | u, state, w₁⟩ := sent
  · exact hchunks
  · dsimp only [Writer.flush] at hchunks ⊢
    have hflush := (w₁.writeAll_output []).1
    generalize w₁.writeAll [] = flushed at hflush ⊢
    obtain ⟨kind | u', w₂⟩ := flushed
    · exact hchunks.trans hflush
    · exact hchunks.trans hflush

/-- A message is at least one frame. -/
theorem recv_input_ne_nil {snow : SnowTransport T} {session : NoiseSession T} {r : Reader}
    {message : Bytes} (h : (session.recv snow r).result = .ok (some message)) : r.input ≠ [] := by
  rw [NoiseSession.recv, recvLoop] at h
  rcases hread : readFrame r with ⟨e | frame | _, r'⟩
  · rw [hread] at h
    cases h
  · intro hnil
    have hinput := (readFrame_ok hread).1
    rw [hnil] at hinput
    simp [encodeFrame, toBeBytes] at hinput
  · rw [hread] at h
    cases h

theorem encodeIdentity_ok {codec : IdentityCodec} {identity : DeviceIdentity} {bytes : Bytes}
    (h : encodeIdentity codec identity = .ok bytes) :
    codec.toVec ⟨identity.publicIdentity⟩ = .ok bytes := by
  unfold encodeIdentity at h
  split at h
  · cases h
  · rename_i hvec
    cases h
    exact hvec

theorem recvRequired_writer (snow : SnowTransport T) (reason : PairingFailureReason)
    (session : NoiseSession T) (stream : Stream) :
    (recvRequired snow reason session stream).2.2.writer = stream.writer := by
  unfold recvRequired
  split <;> rfl

/-- What a host has exchanged by the time it has a confirmed peer: it has read a request and sent
the reply, and there was more to read; `out` is what has gone out on its side. -/
structure HostExchange (snow : Snow H T) (codec : IdentityCodec) (crypto : Crypto)
    (secret : PairingSecret) (call : RespondCall) (peer : PinnedPeer) (out : Bytes) where
  resp : H
  resp' : H
  resp'' : H
  msg1 : Bytes
  msg2 : Bytes
  request : Bytes
  reply : Bytes
  rest : Bytes
  parsed : IdentityMessage
  build : snow.build ⟨.pairing, .responder, call.identity.noiseStaticSecret, none, some secret⟩
    call.rng = .ok resp
  readRequest : snow.hsReadMessage resp msg1 = .ok (request, resp')
  writeReply : snow.hsWriteMessage resp' reply = .ok (msg2, resp'')
  encoded : codec.toVec ⟨call.identity.publicIdentity⟩ = .ok reply
  decoded : codec.fromSlice request = .ok parsed
  pinned : PinnedPeer.pin crypto parsed.identity = .ok peer
  static : snow.getRemoteStatic resp'' = some peer.noiseStaticPub.val
  input : call.stream.reader.input = encodeFrame msg1 ++ rest
  inputLen : msg1.length ≤ NOISE_MAX_MESSAGE_LEN
  more : rest ≠ []
  output : call.stream.writer.output ++ encodeFrame msg2 <+: out
  outputLen : msg2.length ≤ NOISE_MAX_MESSAGE_LEN

/-- What a controller has exchanged by the time it has authenticated the host of its QR code: it has
sent the request and read a response. -/
structure ControllerExchange (snow : Snow H T) (codec : IdentityCodec) (crypto : Crypto)
    (call : InitiateCall) (peer : PinnedPeer) (out : Bytes) where
  init : H
  init' : H
  init'' : H
  msg1 : Bytes
  msg2 : Bytes
  hello : Bytes
  response : Bytes
  rest : Bytes
  parsed : IdentityMessage
  build : snow.build ⟨.pairing, .initiator, call.identity.noiseStaticSecret,
    some peer.noiseStaticPub, some call.qr.pairingSecret⟩ call.rng = .ok init
  writeRequest : snow.hsWriteMessage init hello = .ok (msg1, init')
  readResponse : snow.hsReadMessage init' msg2 = .ok (response, init'')
  encoded : codec.toVec ⟨call.identity.publicIdentity⟩ = .ok hello
  decoded : codec.fromSlice response = .ok parsed
  pinned : PinnedPeer.pin crypto parsed.identity = .ok peer
  input : call.stream.reader.input = encodeFrame msg2 ++ rest
  inputLen : msg2.length ≤ NOISE_MAX_MESSAGE_LEN
  output : call.stream.writer.output ++ encodeFrame msg1 <+: out
  outputLen : msg1.length ≤ NOISE_MAX_MESSAGE_LEN

/-- What went out stays out. -/
def HostExchange.mono {snow : Snow H T} {codec : IdentityCodec} {crypto : Crypto}
    {secret : PairingSecret} {call : RespondCall} {peer : PinnedPeer} {out out' : Bytes}
    (exchange : HostExchange snow codec crypto secret call peer out) (h : out <+: out') :
    HostExchange snow codec crypto secret call peer out' :=
  { exchange with output := exchange.output.trans h }

def ControllerExchange.mono {snow : Snow H T} {codec : IdentityCodec} {crypto : Crypto}
    {call : InitiateCall} {peer : PinnedPeer} {out out' : Bytes}
    (exchange : ControllerExchange snow codec crypto call peer out) (h : out <+: out') :
    ControllerExchange snow codec crypto call peer out' :=
  { exchange with output := exchange.output.trans h }

/-- A host whose peer does not confirm has sent no more than one frame. -/
theorem confirmation_output {snow : Snow H T} {codec : IdentityCodec} {crypto : Crypto}
    {offer : PairingOffer} {call : RespondCall} {refusal : PairingFailureReason × Error}
    {stream : Stream} (h : confirmation snow codec crypto offer call = (.error refusal, stream)) :
    ∃ sent : Bytes, sent.length ≤ NOISE_MAX_MESSAGE_LEN ∧
      stream.writer.output <+: call.stream.writer.output ++ encodeFrame sent := by
  have hquiet : ∃ sent : Bytes, sent.length ≤ NOISE_MAX_MESSAGE_LEN ∧
      call.stream.writer.output <+: call.stream.writer.output ++ encodeFrame sent :=
    ⟨[], Nat.zero_le _, List.prefix_append _ _⟩
  unfold confirmation at h
  split_ifs at h
  · cases h
    exact hquiet
  · cases h
    exact hquiet
  split at h
  · cases h
    exact hquiet
  rename_i handshake hnew
  split at h
  · cases h
    exact hquiet
  rename_i reply hreply
  have hsent := Handshake.runResponder_output snow handshake call.stream reply
  generalize Handshake.runResponder snow handshake call.stream reply = ran at h hsent
  obtain ⟨e | ⟨session, request⟩, stream₁⟩ := ran
  · cases h
    exact hsent
  dsimp only at h hsent
  split at h
  · cases h
    exact hsent
  rw [← recvRequired_writer snow.toSnowTransport .pskMismatch session stream₁] at hsent
  generalize recvRequired snow.toSnowTransport .pskMismatch session stream₁ = received at h hsent
  obtain ⟨refused | confirm, session₁, stream₂⟩ := received
  · cases h
    exact hsent
  dsimp only at h hsent
  split_ifs at h
  · cases h
    exact hsent
  · cases h

/-- A confirmed peer stands for an exchange. -/
theorem hostExchange_of_confirmed {snow : Snow H T} {codec : IdentityCodec} {crypto : Crypto}
    {offer : PairingOffer} {call : RespondCall} {peer : PinnedPeer} {session : NoiseSession T}
    {stream : Stream}
    (h : confirmation snow codec crypto offer call = (.ok (peer, session), stream)) :
    Nonempty (HostExchange snow codec crypto offer.secret call peer stream.writer.output) := by
  unfold confirmation at h
  split_ifs at h
  · cases h
  · cases h
  split at h
  · cases h
  rename_i handshake hnew
  split at h
  · cases h
  rename_i reply hreply
  rcases hrun : Handshake.runResponder snow handshake call.stream reply with
    ⟨e | ⟨session₁, request⟩, stream₁⟩
  · rw [hrun] at h
    cases h
  rw [hrun] at h
  dsimp only at h
  split at h
  · cases h
  rename_i peer₁ hpin
  have hquiet := recvRequired_writer snow.toSnowTransport .pskMismatch session₁ stream₁
  rcases hrecv : recvRequired snow.toSnowTransport .pskMismatch session₁ stream₁ with
    ⟨refused | confirm, session₂, stream₂⟩
  · rw [hrecv] at h
    cases h
  rw [hrecv] at h hquiet
  dsimp only at h hquiet
  split_ifs at h
  · cases h
  cases h
  obtain ⟨msg1, msg2, resp', resp'', hread, hrequest, hwrite, hout, hlen, hsession⟩ :=
    Handshake.runResponder_ok hrun
  obtain ⟨parsed, hparsed, hpinned, hremote⟩ := pinFromHandshake_ok hpin
  obtain ⟨-, -, hstatic, -⟩ := Handshake.intoSession_ok hsession
  obtain ⟨hinput, hinputLen⟩ := readFrame_ok hread
  exact ⟨{
    resp := handshake, resp' := resp', resp'' := resp'', msg1 := msg1, msg2 := msg2,
    request := request, reply := reply, rest := stream₁.reader.input, parsed := parsed
    build := Handshake.build_of_new hnew
    readRequest := hrequest
    writeReply := hwrite
    encoded := encodeIdentity_ok hreply
    decoded := hparsed
    pinned := hpinned
    static := by
      rw [hstatic, hremote]
      rfl
    input := hinput
    inputLen := hinputLen
    more := recv_input_ne_nil (recvRequired_ok hrecv)
    output := by rw [hquiet, hout]
    outputLen := hlen }⟩

/-- A controller that does not authenticate its host has sent no more than one frame. -/
theorem authenticateHost_output {snow : Snow H T} {codec : IdentityCodec} {crypto : Crypto}
    {call : InitiateCall} {refusal : PairingFailureReason × Error} {stream : Stream}
    (h : authenticateHost snow codec crypto call = (.error refusal, stream)) :
    ∃ sent : Bytes, sent.length ≤ NOISE_MAX_MESSAGE_LEN ∧
      stream.writer.output <+: call.stream.writer.output ++ encodeFrame sent := by
  have hquiet : ∃ sent : Bytes, sent.length ≤ NOISE_MAX_MESSAGE_LEN ∧
      call.stream.writer.output <+: call.stream.writer.output ++ encodeFrame sent :=
    ⟨[], Nat.zero_le _, List.prefix_append _ _⟩
  unfold authenticateHost at h
  split at h
  · cases h
    exact hquiet
  split at h
  · cases h
    exact hquiet
  rename_i handshake hnew
  split at h
  · cases h
    exact hquiet
  rename_i hello hhello
  have hsent := Handshake.runInitiator_output snow handshake call.stream hello
  generalize Handshake.runInitiator snow handshake call.stream hello = ran at h hsent
  obtain ⟨e | ⟨session, response⟩, stream₁⟩ := ran
  · cases h
    exact hsent
  dsimp only at h hsent
  split at h
  · cases h
    exact hsent
  split_ifs at h
  · cases h
    exact hsent
  · cases h

/-- An authenticated host stands for an exchange. -/
theorem controllerExchange_of_authenticated {snow : Snow H T} {codec : IdentityCodec}
    {crypto : Crypto} {call : InitiateCall} {peer : PinnedPeer} {session : NoiseSession T}
    {stream : Stream}
    (h : authenticateHost snow codec crypto call = (.ok (peer, session), stream)) :
    ∃ exchange : ControllerExchange snow codec crypto call peer stream.writer.output,
      exchange.rest = stream.reader.input := by
  unfold authenticateHost at h
  split at h
  · cases h
  rename_i expected hexpected
  split at h
  · cases h
  rename_i handshake hnew
  split at h
  · cases h
  rename_i hello hhello
  rcases hrun : Handshake.runInitiator snow handshake call.stream hello with
    ⟨e | ⟨session₁, response⟩, stream₁⟩
  · rw [hrun] at h
    cases h
  rw [hrun] at h
  dsimp only at h
  split at h
  · cases h
  rename_i peer₁ hpin
  split_ifs at h with hmismatch
  · cases h
  cases h
  obtain rfl : peer = expected := not_not.mp hmismatch
  obtain ⟨msg1, msg2, init', init'', hwrite, hout, hlen, hread, hresponse, -⟩ :=
    Handshake.runInitiator_ok hrun
  obtain ⟨parsed, hparsed, hpinned, -⟩ := pinFromHandshake_ok hpin
  obtain ⟨hinput, hinputLen⟩ := readFrame_ok hread
  refine ⟨{
    init := handshake, init' := init', init'' := init'', msg1 := msg1, msg2 := msg2,
    hello := hello, response := response, rest := stream.reader.input, parsed := parsed
    build := Handshake.build_of_new hnew
    writeRequest := hwrite
    readResponse := hresponse
    encoded := encodeIdentity_ok hhello
    decoded := hparsed
    pinned := hpinned
    input := hinput
    inputLen := hinputLen
    output := by rw [hout]
    outputLen := hlen }, rfl⟩

/-! ### One run of the two halves -/

/-- The two halves, each with its own stream and its own log. -/
structure PairingRun where
  offer : PairingOffer
  hostAudit : AuditLog
  host : RespondCall
  controllerAudit : AuditLog
  controller : InitiateCall

namespace PairingRun

def respond (snow : Snow H T) (codec : IdentityCodec) (crypto : Crypto) (run : PairingRun) :
    RespondOut T :=
  Osprey.respond snow codec crypto run.offer run.hostAudit run.host

def initiate (snow : Snow H T) (codec : IdentityCodec) (crypto : Crypto) (run : PairingRun) :
    InitiateOut T :=
  Osprey.initiate snow codec crypto run.controllerAudit run.controller

/-- The channel: each side reads a part of what the other writes, from its beginning, and nothing
was written before.  Where the parts end, and which reads and writes fail, is left open. -/
structure Delivers (snow : Snow H T) (codec : IdentityCodec) (crypto : Crypto) (run : PairingRun) :
    Prop where
  hostFresh : run.host.stream.writer.output = []
  controllerFresh : run.controller.stream.writer.output = []
  toHost : run.host.stream.reader.input <+:
    (run.initiate snow codec crypto).stream.writer.output
  toController : run.controller.stream.reader.input <+:
    (run.respond snow codec crypto).stream.writer.output

section

variable {snow : Snow H T} {codec : IdentityCodec} {crypto : Crypto} {run : PairingRun}

/-- Behind a frame there is no room for more in a stream of one frame. -/
theorem not_prefix_of_one_frame {message sent rest : Bytes}
    (hmessage : message.length ≤ NOISE_MAX_MESSAGE_LEN)
    (hsent : sent.length ≤ NOISE_MAX_MESSAGE_LEN) (hrest : rest ≠ []) :
    ¬ encodeFrame message ++ rest <+: encodeFrame sent := by
  intro h
  rw [← List.append_nil (encodeFrame sent)] at h
  exact hrest (List.prefix_nil.mp (encodeFrame_initial hmessage hsent h).2)

/-- What a host that has confirmed a peer sends after the reply goes out behind it. -/
theorem output_of_confirmed {peer : PinnedPeer} {session : NoiseSession T} {stream : Stream}
    (h : confirmation snow codec crypto run.offer run.host = (.ok (peer, session), stream)) :
    stream.writer.output <+: (run.respond snow codec crypto).stream.writer.output := by
  have hinner := respondInner_eq snow codec crypto run.offer run.host
  have hsend := send_output snow.toSnowTransport session ACCEPT_TAG stream.writer
  rw [h] at hinner
  dsimp only at hinner
  rw [PairingRun.respond, Osprey.respond, hinner]
  generalize session.send snow.toSnowTransport ACCEPT_TAG stream.writer = sent at hsend ⊢
  obtain ⟨e | u, session₁, writer⟩ := sent
  · exact hsend
  · exact hsend

/-- What a controller that has authenticated its host sends after the request goes out behind it. -/
theorem output_of_authenticated {peer : PinnedPeer} {session : NoiseSession T} {stream : Stream}
    (h : authenticateHost snow codec crypto run.controller = (.ok (peer, session), stream)) :
    stream.writer.output <+: (run.initiate snow codec crypto).stream.writer.output := by
  have hsend := send_output snow.toSnowTransport session CONFIRM_TAG stream.writer
  rw [PairingRun.initiate, Osprey.initiate, initiateInner, h]
  dsimp only
  generalize session.send snow.toSnowTransport CONFIRM_TAG stream.writer = sent at hsend ⊢
  obtain ⟨e | u, session₁, writer⟩ := sent
  · exact hsend
  dsimp only at hsend ⊢
  have hquiet := recvRequired_writer snow.toSnowTransport .transport session₁
    { stream with writer }
  generalize recvRequired snow.toSnowTransport .transport session₁ { stream with writer } =
    received at hquiet ⊢
  obtain ⟨result, session₂, stream₂⟩ := received
  dsimp only at hquiet
  rw [← hquiet] at hsend
  rcases result with refusal | accept
  · exact hsend
  · dsimp only
    split_ifs
    · exact hsend
    · exact hsend

/-- A frame at the head of a part of a stream is the first frame of the stream. -/
theorem first_frame_eq {message sent rest input out : Bytes}
    (hmessage : message.length ≤ NOISE_MAX_MESSAGE_LEN)
    (hsent : sent.length ≤ NOISE_MAX_MESSAGE_LEN) (hinput : input = encodeFrame message ++ rest)
    (hdelivered : input <+: out) (hout : encodeFrame sent <+: out) : message = sent := by
  obtain ⟨tail, rfl⟩ := hout
  rw [hinput] at hdelivered
  exact (encodeFrame_initial hmessage hsent hdelivered).1

/-- **When both sides have authenticated the other, they have authenticated each other.** -/
theorem linked {publicOf : Key32 → Key32} (hnoise : snow.Ideal publicOf) (hcodec : codec.Lawful)
    (hchannel : run.Delivers snow codec crypto) {hostPeer controllerPeer : PinnedPeer}
    (host : HostExchange snow codec crypto run.offer.secret run.host hostPeer
      (run.respond snow codec crypto).stream.writer.output)
    (controller : ControllerExchange snow codec crypto run.controller controllerPeer
      (run.initiate snow codec crypto).stream.writer.output) :
    run.controller.identity.PinnedAs crypto publicOf hostPeer ∧
      run.host.identity.PinnedAs crypto publicOf controllerPeer := by
  have hmsg1 : host.msg1 = controller.msg1 := by
    have hout := controller.output
    rw [hchannel.controllerFresh, List.nil_append] at hout
    exact first_frame_eq host.inputLen controller.outputLen host.input hchannel.toHost hout
  have hmsg2 : controller.msg2 = host.msg2 := by
    have hout := host.output
    rw [hchannel.hostFresh, List.nil_append] at hout
    exact first_frame_eq controller.inputLen host.outputLen controller.input
      hchannel.toController hout
  have hread := host.readRequest
  have hresponse := controller.readResponse
  rw [hmsg1] at hread
  rw [hmsg2] at hresponse
  -- the messages are the same on both sides, so Noise hands over the payloads and the statics
  obtain ⟨hrequest, hremote⟩ :=
    hnoise.request controller.build host.build controller.writeRequest hread
  obtain ⟨hreply, hstatic⟩ := hnoise.response controller.build host.build controller.writeRequest
    hread host.writeReply hresponse
  refine ⟨⟨?_, ?_⟩, ?_, hremote⟩
  · have hdecoded := hcodec _ _ controller.encoded
    rw [← hrequest, host.decoded] at hdecoded
    have hpinned := host.pinned
    rw [Except.ok.inj hdecoded] at hpinned
    exact hpinned
  · have hsame := host.static.symm.trans hstatic
    exact Subtype.ext (Option.some.inj hsame)
  · have hdecoded := hcodec _ _ host.encoded
    rw [← hreply, controller.decoded] at hdecoded
    have hpinned := controller.pinned
    rw [Except.ok.inj hdecoded] at hpinned
    exact hpinned

/-- A controller that was accepted has authenticated its host, and there was something to read
behind the response. -/
theorem authenticated_of_initiate {outcome : PairingOutcome T}
    (h : (run.initiate snow codec crypto).result = .ok outcome) :
    ∃ (session : NoiseSession T) (stream : Stream),
      authenticateHost snow codec crypto run.controller = (.ok (outcome.peer, session), stream) ∧
      stream.reader.input ≠ [] := by
  have hinner : (initiateInner snow codec crypto run.controller).1 = .ok outcome := finish_ok h
  unfold initiateInner at hinner
  rcases hauth : authenticateHost snow codec crypto run.controller with
    ⟨refusal | ⟨peer, session⟩, stream⟩
  · rw [hauth] at hinner
    cases hinner
  rw [hauth] at hinner
  dsimp only at hinner
  rcases hsend : session.send snow.toSnowTransport CONFIRM_TAG stream.writer with
    ⟨e | u, session₁, writer⟩
  · rw [hsend] at hinner
    cases hinner
  rw [hsend] at hinner
  dsimp only at hinner
  rcases hrecv : recvRequired snow.toSnowTransport .transport session₁ { stream with writer } with
    ⟨refusal | accept, session₂, stream₂⟩
  · rw [hrecv] at hinner
    cases hinner
  rw [hrecv] at hinner
  dsimp only at hinner
  split_ifs at hinner
  cases hinner
  have hmore := recv_input_ne_nil (recvRequired_ok hrecv)
  exact ⟨session, stream, rfl, hmore⟩

/-- A host that had something to be read behind its reply has confirmed its peer. -/
theorem confirmed_of_controllerExchange (hchannel : run.Delivers snow codec crypto)
    {peer : PinnedPeer} {out : Bytes}
    (controller : ControllerExchange snow codec crypto run.controller peer out)
    (hmore : controller.rest ≠ []) :
    ∃ (peer' : PinnedPeer) (session : NoiseSession T) (stream : Stream),
      confirmation snow codec crypto run.offer run.host = (.ok (peer', session), stream) := by
  rcases hconfirmation : confirmation snow codec crypto run.offer run.host with
    ⟨refusal | ⟨peer', session⟩, stream⟩
  · obtain ⟨sent, hsent, hout⟩ := confirmation_output hconfirmation
    have hstream := (respond_of_refused run.hostAudit hconfirmation).2.2.2
    have hdelivered := hchannel.toController
    rw [PairingRun.respond, hstream, controller.input] at hdelivered
    rw [hchannel.hostFresh, List.nil_append] at hout
    exact absurd (hdelivered.trans hout)
      (not_prefix_of_one_frame controller.inputLen hsent hmore)
  · exact ⟨peer', session, stream, rfl⟩

/-- A controller that had something to be read behind its request has authenticated its host. -/
theorem authenticated_of_hostExchange (hchannel : run.Delivers snow codec crypto)
    {peer : PinnedPeer} {out : Bytes}
    (host : HostExchange snow codec crypto run.offer.secret run.host peer out) :
    ∃ (peer' : PinnedPeer) (session : NoiseSession T) (stream : Stream),
      authenticateHost snow codec crypto run.controller = (.ok (peer', session), stream) := by
  rcases hauth : authenticateHost snow codec crypto run.controller with
    ⟨refusal | ⟨peer', session⟩, stream⟩
  · obtain ⟨sent, hsent, hout⟩ := authenticateHost_output hauth
    have hdelivered := hchannel.toHost
    rw [PairingRun.initiate, Osprey.initiate, initiateInner, hauth, host.input] at hdelivered
    rw [hchannel.controllerFresh, List.nil_append] at hout
    exact absurd (hdelivered.trans hout) (not_prefix_of_one_frame host.inputLen hsent host.more)
  · exact ⟨peer', session, stream, rfl⟩

end

end PairingRun

/-- **Pairing agreement.**  For every run of the two halves over a channel that may fail anywhere,
with either log failing: a controller that pairs has pinned the host it talked to, and the host has
paired with it, as the device it is, exactly when the host completes what follows the confirmation,
that is, when it learns that its acceptance went out and its record lands.  A host that pairs does
so with a controller that has authenticated it, without any condition. -/
theorem pairing_agreement {snow : Snow H T} {publicOf : Key32 → Key32}
    (hnoise : snow.Ideal publicOf) {codec : IdentityCodec} (hcodec : codec.Lawful)
    (crypto : Crypto) (run : PairingRun) (hchannel : run.Delivers snow codec crypto) :
    (∀ outcome, (run.initiate snow codec crypto).result = .ok outcome →
      run.host.identity.PinnedAs crypto publicOf outcome.peer ∧
      ((∃ hostOutcome, (run.respond snow codec crypto).result = .ok hostOutcome ∧
          run.controller.identity.PinnedAs crypto publicOf hostOutcome.peer) ↔
        Completes snow codec crypto run.offer run.hostAudit run.host)) ∧
    (∀ hostOutcome, (run.respond snow codec crypto).result = .ok hostOutcome →
      run.controller.identity.PinnedAs crypto publicOf hostOutcome.peer ∧
      ∃ (peer : PinnedPeer) (session : NoiseSession T) (stream : Stream),
        authenticateHost snow codec crypto run.controller = (.ok (peer, session), stream) ∧
        run.host.identity.PinnedAs crypto publicOf peer) := by
  constructor
  · intro outcome houtcome
    obtain ⟨session, stream, hauth, hmore⟩ := PairingRun.authenticated_of_initiate houtcome
    obtain ⟨controller, hrest⟩ := controllerExchange_of_authenticated hauth
    rw [← hrest] at hmore
    obtain ⟨peer, session', stream', hconfirmed⟩ :=
      PairingRun.confirmed_of_controllerExchange hchannel controller hmore
    obtain ⟨host⟩ := hostExchange_of_confirmed hconfirmed
    obtain ⟨hpeer, hhost⟩ := PairingRun.linked hnoise hcodec hchannel
      (host.mono (PairingRun.output_of_confirmed hconfirmed))
      (controller.mono (PairingRun.output_of_authenticated hauth))
    obtain ⟨-, -, hresult, hpaired⟩ := respond_of_confirmed run.hostAudit hconfirmed
    refine ⟨hhost, ?_⟩
    rw [← hresult]
    constructor
    · rintro ⟨hostOutcome, hok, -⟩
      rw [PairingRun.respond] at hok
      rw [hok]
      rfl
    · intro hok
      cases hrespond : (Osprey.respond snow codec crypto run.offer run.hostAudit
          run.host).result with
      | error e => simp [hrespond, Except.isOk, Except.toBool] at hok
      | ok hostOutcome =>
          refine ⟨hostOutcome, hrespond, ?_⟩
          rw [hpaired hostOutcome hrespond]
          exact hpeer
  · intro hostOutcome hrespond
    rcases hconfirmed : confirmation snow codec crypto run.offer run.host with
      ⟨refusal | ⟨peer, session⟩, stream⟩
    · have hrefused := (respond_of_refused run.hostAudit hconfirmed).2.1
      cases hrefused.symm.trans hrespond
    · obtain rfl := (respond_of_confirmed run.hostAudit hconfirmed).2.2.2 hostOutcome hrespond
      obtain ⟨host⟩ := hostExchange_of_confirmed hconfirmed
      obtain ⟨peer', session', stream', hauth⟩ :=
        PairingRun.authenticated_of_hostExchange hchannel host
      obtain ⟨controller, -⟩ := controllerExchange_of_authenticated hauth
      obtain ⟨hpeer, hhost⟩ := PairingRun.linked hnoise hcodec hchannel
        (host.mono (PairingRun.output_of_confirmed hconfirmed))
        (controller.mono (PairingRun.output_of_authenticated hauth))
      exact ⟨hpeer, peer', session', stream', hauth, hhost⟩

/-! ### A run whose host cannot record it -/

/-- One side of a toy handshake: its role and keys, and the static of the other side as far as it is
known. -/
structure ToyHandshake where
  role : Role
  localStatic : Key32
  remote : Bytes
  psk : PairingSecret

/-- A toy `snow` in which a key pair is one key.  A request names the host it is for and the device
it is from; the reply is sealed with the first half of the pre-shared key, and so is everything that
follows. -/
def sealedNoise : Snow ToyHandshake PairingSecret where
  toSnowTransport := pskNoise.toSnowTransport
  build config _ :=
    match config.psk with
    | some psk =>
        .ok ⟨config.role, config.localStatic, (config.remoteStatic.map Subtype.val).getD [], psk⟩
    | none => .error ⟨"missing psk"⟩
  hsWriteMessage state payload :=
    match state.role with
    | .initiator => .ok (state.remote ++ (state.localStatic.val ++ payload), state)
    | .responder => .ok (state.psk.val.take NOISE_TAG_LEN ++ payload, state)
  hsReadMessage state message :=
    match state.role with
    | .initiator =>
        if message.take NOISE_TAG_LEN = state.psk.val.take NOISE_TAG_LEN then
          .ok (message.drop NOISE_TAG_LEN, state)
        else .error ⟨"decrypt error"⟩
    | .responder =>
        if message.take 32 = state.localStatic.val then
          .ok (message.drop 64, { state with remote := (message.drop 32).take 32 })
        else .error ⟨"decrypt error"⟩
  getRemoteStatic state := some state.remote
  intoTransportMode state := .ok state.psk

/-- A request is read by the host it is for, with its payload and the device it is from. -/
theorem sealedNoise_request {remote localI localR : Key32} {psk : PairingSecret} {known : Bytes}
    {payload request : Bytes} {resp' : ToyHandshake}
    (h : sealedNoise.hsReadMessage ⟨.responder, localR, known, psk⟩
      (remote.val ++ (localI.val ++ payload)) = .ok (request, resp')) :
    request = payload ∧ remote = localR ∧ resp' = ⟨.responder, localR, localI.val, psk⟩ := by
  have hhost : (remote.val ++ (localI.val ++ payload)).take 32 = remote.val :=
    List.take_left' remote.property
  have hdevice : ((remote.val ++ (localI.val ++ payload)).drop 32).take 32 = localI.val := by
    rw [List.drop_left' remote.property, List.take_left' localI.property]
  have hpayload : (remote.val ++ (localI.val ++ payload)).drop 64 = payload := by
    rw [← List.append_assoc, List.drop_left' (by simp [remote.property, localI.property])]
  dsimp only [sealedNoise] at h
  rw [hhost, hdevice, hpayload] at h
  split_ifs at h with hkey
  cases h
  exact ⟨rfl, Subtype.ext hkey, rfl⟩

theorem sealedNoise_ideal : sealedNoise.Ideal id where
  request := by
    intro localI remote localR pskI pskR rngI rngR init init' resp resp' payload msg1 request
      hinit hresp hwrite hread
    cases hinit
    cases hresp
    cases hwrite
    obtain ⟨hrequest, hremote, -⟩ := sealedNoise_request hread
    exact ⟨hrequest, hremote⟩
  response := by
    intro localI remote localR pskI pskR rngI rngR init init' init'' resp resp' resp'' payload msg1
      request reply msg2 response hinit hresp hwrite hread hreply hresponse
    cases hinit
    cases hresp
    cases hwrite
    obtain ⟨-, -, rfl⟩ := sealedNoise_request hread
    cases hreply
    have hpayload : (pskR.val.take NOISE_TAG_LEN ++ reply).drop NOISE_TAG_LEN = reply :=
      List.drop_left' (by simp [pskR.property, NOISE_TAG_LEN])
    dsimp only [sealedNoise] at hresponse
    rw [hpayload] at hresponse
    split_ifs at hresponse
    cases hresponse
    exact ⟨rfl, rfl⟩

/-- A codec that knows the bundles of the controller 1 and the host 9. -/
def pairCodec : IdentityCodec where
  toVec message :=
    if message = ⟨toyBundle 1⟩ then .ok [1]
    else if message = ⟨toyBundle 9⟩ then .ok [9]
    else .error ⟨"unknown device"⟩
  fromSlice bytes :=
    if bytes = [1] then .ok ⟨toyBundle 1⟩
    else if bytes = [9] then .ok ⟨toyBundle 9⟩
    else .error ⟨"expected value"⟩

theorem pairCodec_lawful : pairCodec.Lawful := by
  intro message bytes h
  dsimp only [pairCodec] at h ⊢
  split_ifs at h with hone hnine
  · cases h
    rw [hone]
    rfl
  · cases h
    rw [hnine]
    rfl

/-- The controller 1 pairs with the host 9, whose log answers as `log` says. -/
def toyRun (log : List (Option ErrorKind)) : PairingRun where
  offer := PairingOffer.new (toyNonce 5) 120 0
  hostAudit := ⟨[], log⟩
  host := ⟨⟨Reader.ofBytes (wire [(toyNonce 9).val ++ ((toyNonce 1).val ++ [1]),
      FLAG_FINAL :: CONFIRM_TAG ++ List.replicate 16 5]), Writer.empty⟩,
    ⟨toyNonce 9, toyBundle 9⟩, ⟨"lan-only", "host"⟩, 0, 0⟩
  controllerAudit := ⟨[], []⟩
  controller := ⟨⟨Reader.ofBytes (wire [List.replicate 16 5 ++ [9],
      FLAG_FINAL :: ACCEPT_TAG ++ List.replicate 16 5]), Writer.empty⟩,
    ⟨toyNonce 1, toyBundle 1⟩, ⟨"lan-only", "host", toyBundle 9, toyNonce 5⟩, 0⟩

theorem toyRun_delivers (log : List (Option ErrorKind)) (hlog : log = [] ∨ log = [some .other]) :
    (toyRun log).Delivers sealedNoise pairCodec toyCrypto := by
  rcases hlog with rfl | rfl
  · exact ⟨rfl, rfl, by decide +kernel, by decide +kernel⟩
  · exact ⟨rfl, rfl, by decide +kernel, by decide +kernel⟩

/-- When the log of the host takes the record, both sides are paired, with each other. -/
theorem pairing_agreement_recorded :
    ∃ outcome hostOutcome,
      ((toyRun []).initiate sealedNoise pairCodec toyCrypto).result = .ok outcome ∧
      ((toyRun []).respond sealedNoise pairCodec toyCrypto).result = .ok hostOutcome ∧
      (toyRun []).host.identity.PinnedAs toyCrypto id outcome.peer ∧
      (toyRun []).controller.identity.PinnedAs toyCrypto id hostOutcome.peer := by
  have hinitiate : ((toyRun []).initiate sealedNoise pairCodec toyCrypto).result.isOk = true := by
    decide +kernel
  have hrespond : ((toyRun []).respond sealedNoise pairCodec toyCrypto).result.isOk = true := by
    decide +kernel
  obtain ⟨hcontroller, hhost⟩ := pairing_agreement sealedNoise_ideal pairCodec_lawful toyCrypto
    (toyRun []) (toyRun_delivers [] (.inl rfl))
  cases houtcome : ((toyRun []).initiate sealedNoise pairCodec toyCrypto).result with
  | error e => simp [houtcome, Except.isOk, Except.toBool] at hinitiate
  | ok outcome =>
      cases hhostOutcome : ((toyRun []).respond sealedNoise pairCodec toyCrypto).result with
      | error e => simp [hhostOutcome, Except.isOk, Except.toBool] at hrespond
      | ok hostOutcome =>
          exact ⟨outcome, hostOutcome, rfl, rfl, (hcontroller outcome houtcome).1,
            (hhost hostOutcome hhostOutcome).1⟩

/-- When it does not, the controller is paired with a host that has refused it. -/
theorem controller_paired_alone :
    sealedNoise.Ideal id ∧ pairCodec.Lawful ∧
    (toyRun [some .other]).Delivers sealedNoise pairCodec toyCrypto ∧
    ((toyRun [some .other]).initiate sealedNoise pairCodec toyCrypto).result.isOk = true ∧
    ((toyRun [some .other]).respond sealedNoise pairCodec toyCrypto).result.isOk = false :=
  ⟨sealedNoise_ideal, pairCodec_lawful, toyRun_delivers _ (.inr rfl), by decide +kernel,
    by decide +kernel⟩

end Osprey
