/-
**The Noise handshake driver.**

`osprey-core/src/noise/handshake.rs`: the checks on a handshake's configuration, its two messages,
the promotion to a transport session, and the two halves of the exchange over a stream.  `snow`'s
handshake state is a parameter, as its transport state is in `Osprey/NoiseSession.lean`; what it
draws from the system's random source is an argument of `build`.

Main definitions:

* `Osprey.Snow` — both halves of `snow`;
* `Osprey.HandshakeConfig`, `Osprey.Handshake.new` — which configurations are refused;
* `Osprey.Handshake.intoSession` — promotion, with the authenticated static;
* `Osprey.Handshake.runInitiator`, `Osprey.Handshake.runResponder` — the exchange;
* `Osprey.Handshake.Answered` — what the responder has done when it has a session.

Main results:

* `Osprey.Handshake.answered_of_runResponder` — **a session stands for a handshake**: whatever the
  peer sends, the responder has one only when every step of the handshake succeeded;
* `Osprey.Handshake.runInitiator_ok`, `Osprey.Handshake.runResponder_ok` — the messages that the two
  halves have exchanged by then, as bytes on the stream;
* `Osprey.Handshake.runInitiator_output`, `Osprey.Handshake.runResponder_output` — a half that fails
  has sent no more than one frame.
-/

import Osprey.NoiseSession

set_option relaxedAutoImplicit false
set_option autoImplicit false

namespace Osprey

open ByteIO

/-- Which of the two handshakes is being run. -/
inductive Pattern
  | pairing
  | session
  deriving DecidableEq, Repr

/-- IK is asymmetric: only the initiator supplies the peer's static up front. -/
inductive Role
  | initiator
  | responder
  deriving DecidableEq, Repr

/-- The secret carried in the QR code. -/
abbrev PairingSecret := Key32

structure HandshakeConfig where
  pattern : Pattern
  role : Role
  localStatic : Key32
  remoteStatic : Option Key32
  psk : Option PairingSecret
  deriving DecidableEq, Repr

/-- `snow`: handshake states `H` and transport states `T`.  `build` stands for the builder calls,
which are handed the protocol name, the keys and the pre-shared key, and `rng` for what they and
the messages draw at random. -/
structure Snow (H T : Type) extends SnowTransport T where
  build : HandshakeConfig → ℕ → Except SnowError H
  hsWriteMessage : H → Bytes → Except SnowError (Bytes × H)
  hsReadMessage : H → Bytes → Except SnowError (Bytes × H)
  getRemoteStatic : H → Option Bytes
  intoTransportMode : H → Except SnowError T

/-- A two-way stream. -/
structure Stream where
  reader : Reader
  writer : Writer
  deriving DecidableEq, Repr

variable {H T : Type}

namespace Handshake

/-- Build a handshake, refusing the configurations that would silently weaken it. -/
def new (snow : Snow H T) (config : HandshakeConfig) (rng : ℕ) : Except Error H :=
  match config.pattern, config.psk with
  | .pairing, none =>
      .error (.handshakeConfig "pairing pattern requires the QR pairing secret as PSK")
  | .session, some _ => .error (.handshakeConfig "session pattern must not carry a pairing PSK")
  | _, _ =>
      if config.role = .initiator ∧ config.remoteStatic = none then
        .error (.handshakeConfig "IK initiator requires the responder's static key up front")
      else
        match snow.build config rng with
        | .error e => .error (.handshake .build e)
        | .ok state => .ok state

/-- Produce the next handshake message carrying `payload`. -/
def writeMessage (snow : Snow H T) (state : H) (payload : Bytes) : Except Error (Bytes × H) :=
  match snow.hsWriteMessage state payload with
  | .error e => .error (.handshake .write e)
  | .ok answer => .ok answer

/-- Consume a handshake message, returning its decrypted payload. -/
def readMessage (snow : Snow H T) (state : H) (message : Bytes) : Except Error (Bytes × H) :=
  match snow.hsReadMessage state message with
  | .error e => .error (.handshake .read e)
  | .ok answer => .ok answer

/-- Promote to transport mode, capturing the peer's authenticated static key. -/
def intoSession (snow : Snow H T) (state : H) : Except Error (NoiseSession T) :=
  match snow.getRemoteStatic state with
  | none => .error .missingRemoteStatic
  | some remote =>
      if h : remote.length = 32 then
        match snow.intoTransportMode state with
        | .error e => .error (.handshake .transport e)
        | .ok transport => .ok (NoiseSession.new transport ⟨remote, h⟩)
      else .error (.badKeyLength "peer noise static" remote.length)

/-- Write one framed message and flush it. -/
def writeFlushed (stream : Stream) (message : Bytes) : Except Error Unit × Stream :=
  match writeFrame stream.writer message with
  | (.error e, writer) => (.error e, { stream with writer })
  | (.ok (), writer) =>
      match writer.flush with
      | (.error kind, writer) => (.error (.io kind), { stream with writer })
      | (.ok (), writer) => (.ok (), { stream with writer })

/-- Read one framed message; a clean close in its place is a truncation. -/
def readRequired (stream : Stream) : Except Error Bytes × Stream :=
  match readFrame stream.reader with
  | (.error e, reader) => (.error e, { stream with reader })
  | (.ok .eof, reader) => (.error (.truncatedFrame 0 2), { stream with reader })
  | (.ok (.frame message), reader) => (.ok message, { stream with reader })

/-- Run the initiator half over `stream`, returning the session and the responder's payload. -/
def runInitiator (snow : Snow H T) (state : H) (stream : Stream) (payload : Bytes) :
    Except Error (NoiseSession T × Bytes) × Stream :=
  match writeMessage snow state payload with
  | .error e => (.error e, stream)
  | .ok (msg1, state) =>
      match writeFlushed stream msg1 with
      | (.error e, stream) => (.error e, stream)
      | (.ok (), stream) =>
          match readRequired stream with
          | (.error e, stream) => (.error e, stream)
          | (.ok msg2, stream) =>
              match readMessage snow state msg2 with
              | .error e => (.error e, stream)
              | .ok (response, state) =>
                  match intoSession snow state with
                  | .error e => (.error e, stream)
                  | .ok session => (.ok (session, response), stream)

/-- Run the responder half: `reply` is the payload of the second message, and the initiator's
payload is returned alongside the session. -/
def runResponder (snow : Snow H T) (state : H) (stream : Stream) (reply : Bytes) :
    Except Error (NoiseSession T × Bytes) × Stream :=
  match readRequired stream with
  | (.error e, stream) => (.error e, stream)
  | (.ok msg1, stream) =>
      match readMessage snow state msg1 with
      | .error e => (.error e, stream)
      | .ok (request, state) =>
          match writeMessage snow state reply with
          | .error e => (.error e, stream)
          | .ok (msg2, state) =>
              match writeFlushed stream msg2 with
              | (.error e, stream) => (.error e, stream)
              | (.ok (), stream) =>
                  match intoSession snow state with
                  | .error e => (.error e, stream)
                  | .ok session => (.ok (session, request), stream)

/-! ### What a session stands for -/

theorem build_of_new {snow : Snow H T} {config : HandshakeConfig} {rng : ℕ} {state : H}
    (h : new snow config rng = .ok state) : snow.build config rng = .ok state := by
  unfold new at h
  split at h
  · cases h
  · cases h
  · split_ifs at h
    cases hbuild : snow.build config rng with
    | error e =>
        rw [hbuild] at h
        cases h
    | ok built =>
        rw [hbuild] at h
        cases h
        rfl

/-- The responder has read the request off `reader` in the handshake state `state`, answered it with
`reply`, and promoted the state to `transport`; `remoteStatic` is the static it has authenticated
and `rest` what is left to read. -/
def Answered (snow : Snow H T) (state : H) (reader : Reader) (request reply : Bytes)
    (remoteStatic : Key32) (transport : T) (rest : Reader) : Prop :=
  ∃ (state₁ state₂ : H) (msg1 msg2 : Bytes),
    readFrame reader = (.ok (.frame msg1), rest) ∧
    snow.hsReadMessage state msg1 = .ok (request, state₁) ∧
    snow.hsWriteMessage state₁ reply = .ok (msg2, state₂) ∧
    snow.getRemoteStatic state₂ = some remoteStatic ∧
    snow.intoTransportMode state₂ = .ok transport

theorem intoSession_ok {snow : Snow H T} {state : H} {session : NoiseSession T}
    (h : intoSession snow state = .ok session) :
    ∃ transport, snow.intoTransportMode state = .ok transport ∧
      snow.getRemoteStatic state = some session.remoteStatic ∧
      session = NoiseSession.new transport session.remoteStatic := by
  unfold intoSession at h
  cases hremote : snow.getRemoteStatic state with
  | none =>
      rw [hremote] at h
      cases h
  | some remote =>
      rw [hremote] at h
      dsimp only at h
      split_ifs at h with hlen
      cases htransport : snow.intoTransportMode state with
      | error e =>
          rw [htransport] at h
          cases h
      | ok transport =>
          rw [htransport] at h
          cases h
          exact ⟨transport, rfl, rfl, rfl⟩

theorem readRequired_ok {stream stream' : Stream} {message : Bytes}
    (h : readRequired stream = (.ok message, stream')) :
    readFrame stream.reader = (.ok (.frame message), stream'.reader) := by
  unfold readRequired at h
  split at h
  · cases h
  · cases h
  · rename_i hread
    cases h
    exact hread

/-- Writing leaves the reading half alone. -/
theorem writeFlushed_reader (stream : Stream) (message : Bytes) :
    (writeFlushed stream message).2.reader = stream.reader := by
  unfold writeFlushed
  split
  · rfl
  · split <;> rfl

/-! ### What a handshake leaves on the wire -/

/-- However sending a message ends, a part of a frame has gone out behind what was there. -/
theorem writeFlushed_output (stream : Stream) (message : Bytes) :
    ∃ sent : Bytes, sent.length ≤ NOISE_MAX_MESSAGE_LEN ∧
      (writeFlushed stream message).2.writer.output <+:
        stream.writer.output ++ encodeFrame sent := by
  obtain ⟨-, sent, hsent, hpart⟩ := writeFrame_output stream.writer message
  refine ⟨sent, hsent, ?_⟩
  unfold writeFlushed
  rcases hframe : writeFrame stream.writer message with ⟨e | u, writer⟩
  · rw [hframe] at hpart
    exact hpart
  · rw [hframe] at hpart
    have hflush := (writer.writeAll_output []).2
    rw [List.append_nil] at hflush
    dsimp only [Writer.flush]
    rcases hwriter : writer.writeAll [] with ⟨kind | u', writer'⟩
    · rw [hwriter] at hflush
      exact hflush.trans hpart
    · rw [hwriter] at hflush
      exact hflush.trans hpart

/-- A message that was sent has gone out whole. -/
theorem writeFlushed_ok {stream stream' : Stream} {message : Bytes}
    (h : writeFlushed stream message = (.ok (), stream')) :
    stream'.writer.output = stream.writer.output ++ encodeFrame message ∧
      message.length ≤ NOISE_MAX_MESSAGE_LEN := by
  unfold writeFlushed at h
  split at h
  · cases h
  · rename_i writer hframe
    obtain ⟨hout, hlen⟩ := writeFrame_ok hframe
    split at h
    · cases h
    · rename_i writer' hflush
      cases h
      have hsame := Writer.writeAll_ok hflush
      rw [List.append_nil] at hsame
      exact ⟨hsame.trans hout, hlen⟩

/-- Reading leaves the writing half alone. -/
theorem readRequired_writer (stream : Stream) :
    (readRequired stream).2.writer = stream.writer := by
  unfold readRequired
  split <;> rfl

/-- Everything that has happened when the responder's half ends with a session. -/
theorem runResponder_ok {snow : Snow H T} {state : H} {stream stream' : Stream}
    {reply request : Bytes} {session : NoiseSession T}
    (h : runResponder snow state stream reply = (.ok (session, request), stream')) :
    ∃ (msg1 msg2 : Bytes) (state₁ state₂ : H),
      readFrame stream.reader = (.ok (.frame msg1), stream'.reader) ∧
      snow.hsReadMessage state msg1 = .ok (request, state₁) ∧
      snow.hsWriteMessage state₁ reply = .ok (msg2, state₂) ∧
      stream'.writer.output = stream.writer.output ++ encodeFrame msg2 ∧
      msg2.length ≤ NOISE_MAX_MESSAGE_LEN ∧
      intoSession snow state₂ = .ok session := by
  unfold runResponder at h
  have hquiet := readRequired_writer stream
  rcases hread : readRequired stream with ⟨e | msg1, stream₁⟩
  · rw [hread] at h
    cases h
  rw [hread] at h hquiet
  dsimp only at h hquiet
  unfold readMessage writeMessage at h
  rcases hrequest : snow.hsReadMessage state msg1 with e | ⟨payload, state₁⟩
  · rw [hrequest] at h
    cases h
  rw [hrequest] at h
  dsimp only at h
  rcases hreply : snow.hsWriteMessage state₁ reply with e | ⟨msg2, state₂⟩
  · rw [hreply] at h
    cases h
  rw [hreply] at h
  dsimp only at h
  -- what the session reads from starts right behind the request
  have hreader := writeFlushed_reader stream₁ msg2
  rcases hwrite : writeFlushed stream₁ msg2 with ⟨e | u, stream₂⟩
  · rw [hwrite] at h
    cases h
  rw [hwrite] at h hreader
  dsimp only at h hreader
  cases hsession : intoSession snow state₂ with
  | error e =>
      rw [hsession] at h
      cases h
  | ok promoted =>
      rw [hsession] at h
      cases h
      obtain ⟨hout, hlen⟩ := writeFlushed_ok hwrite
      rw [hquiet] at hout
      refine ⟨msg1, msg2, state₁, state₂, ?_, hrequest, hreply, hout, hlen, hsession⟩
      rw [hreader]
      exact readRequired_ok hread

/-- Everything that has happened when the initiator's half ends with a session. -/
theorem runInitiator_ok {snow : Snow H T} {state : H} {stream stream' : Stream}
    {payload response : Bytes} {session : NoiseSession T}
    (h : runInitiator snow state stream payload = (.ok (session, response), stream')) :
    ∃ (msg1 msg2 : Bytes) (state₁ state₂ : H),
      snow.hsWriteMessage state payload = .ok (msg1, state₁) ∧
      stream'.writer.output = stream.writer.output ++ encodeFrame msg1 ∧
      msg1.length ≤ NOISE_MAX_MESSAGE_LEN ∧
      readFrame stream.reader = (.ok (.frame msg2), stream'.reader) ∧
      snow.hsReadMessage state₁ msg2 = .ok (response, state₂) ∧
      intoSession snow state₂ = .ok session := by
  unfold runInitiator readMessage writeMessage at h
  rcases hrequest : snow.hsWriteMessage state payload with e | ⟨msg1, state₁⟩
  · rw [hrequest] at h
    cases h
  rw [hrequest] at h
  dsimp only at h
  have hreader := writeFlushed_reader stream msg1
  rcases hwrite : writeFlushed stream msg1 with ⟨e | u, stream₁⟩
  · rw [hwrite] at h
    cases h
  rw [hwrite] at h hreader
  dsimp only at h hreader
  obtain ⟨hout, hlen⟩ := writeFlushed_ok hwrite
  have hquiet := readRequired_writer stream₁
  rcases hread : readRequired stream₁ with ⟨e | msg2, stream₂⟩
  · rw [hread] at h
    cases h
  rw [hread] at h hquiet
  dsimp only at h hquiet
  rcases hresponse : snow.hsReadMessage state₁ msg2 with e | ⟨payload₂, state₂⟩
  · rw [hresponse] at h
    cases h
  rw [hresponse] at h
  dsimp only at h
  cases hsession : intoSession snow state₂ with
  | error e =>
      rw [hsession] at h
      cases h
  | ok promoted =>
      rw [hsession] at h
      cases h
      rw [← hquiet] at hout
      refine ⟨msg1, msg2, state₁, state₂, rfl, hout, hlen, ?_, hresponse, hsession⟩
      rw [← hreader]
      exact readRequired_ok hread

/-- **A session stands for a handshake.** -/
theorem answered_of_runResponder {snow : Snow H T} {state : H} {stream stream' : Stream}
    {reply request : Bytes} {session : NoiseSession T}
    (h : runResponder snow state stream reply = (.ok (session, request), stream')) :
    ∃ transport, session = NoiseSession.new transport session.remoteStatic ∧
      Answered snow state stream.reader request reply session.remoteStatic transport
        stream'.reader := by
  obtain ⟨msg1, msg2, state₁, state₂, hread, hrequest, hreply, -, -, hsession⟩ := runResponder_ok h
  obtain ⟨transport, htransport, hstatic, hnew⟩ := intoSession_ok hsession
  exact ⟨transport, hnew, state₁, state₂, msg1, msg2, hread, hrequest, hreply, hstatic,
    htransport⟩

/-- However the responder's half ends, at most one frame has gone out. -/
theorem runResponder_output (snow : Snow H T) (state : H) (stream : Stream) (reply : Bytes) :
    ∃ sent : Bytes, sent.length ≤ NOISE_MAX_MESSAGE_LEN ∧
      (runResponder snow state stream reply).2.writer.output <+:
        stream.writer.output ++ encodeFrame sent := by
  have hwriter := readRequired_writer stream
  rw [← hwriter]
  unfold runResponder
  generalize readRequired stream = read
  obtain ⟨result, stream₁⟩ := read
  have hquiet : ∃ sent : Bytes, sent.length ≤ NOISE_MAX_MESSAGE_LEN ∧
      stream₁.writer.output <+: stream₁.writer.output ++ encodeFrame sent :=
    ⟨[], Nat.zero_le _, List.prefix_append _ _⟩
  rcases result with e | msg1
  · exact hquiet
  dsimp only
  rcases readMessage snow state msg1 with e | ⟨request, state₁⟩
  · exact hquiet
  dsimp only
  rcases writeMessage snow state₁ reply with e | ⟨msg2, state₂⟩
  · exact hquiet
  dsimp only
  have hsent := writeFlushed_output stream₁ msg2
  generalize writeFlushed stream₁ msg2 = written at hsent ⊢
  obtain ⟨e | u, stream₂⟩ := written
  · exact hsent
  · dsimp only
    rcases intoSession snow state₂ with e | session
    · exact hsent
    · exact hsent

/-- However the initiator's half ends, at most one frame has gone out. -/
theorem runInitiator_output (snow : Snow H T) (state : H) (stream : Stream) (payload : Bytes) :
    ∃ sent : Bytes, sent.length ≤ NOISE_MAX_MESSAGE_LEN ∧
      (runInitiator snow state stream payload).2.writer.output <+:
        stream.writer.output ++ encodeFrame sent := by
  unfold runInitiator
  rcases writeMessage snow state payload with e | ⟨msg1, state₁⟩
  · exact ⟨[], Nat.zero_le _, List.prefix_append _ _⟩
  dsimp only
  have hsent := writeFlushed_output stream msg1
  generalize writeFlushed stream msg1 = written at hsent ⊢
  obtain ⟨e | u, stream₁⟩ := written
  · exact hsent
  dsimp only at hsent ⊢
  rw [← readRequired_writer stream₁] at hsent
  generalize readRequired stream₁ = read at hsent ⊢
  obtain ⟨e | msg2, stream₂⟩ := read
  · exact hsent
  dsimp only
  rcases readMessage snow state₁ msg2 with e | ⟨response, state₂⟩
  · exact hsent
  dsimp only
  rcases intoSession snow state₂ with e | session
  · exact hsent
  · exact hsent

end Handshake

end Osprey
