/-
**The push/pull bridge the phone drives.**

`osprey-ffi/src/framing.rs`, `session.rs` and `handshake.rs`: a phone cannot block in `recv`, so
the bridge keeps the bytes that arrived in a buffer, decides for itself whether a whole frame is
there, and hands the core exactly that frame.  A transport that failed once refuses everything
afterwards.

Main definitions:

* `Osprey.completeFrameLen`, `Osprey.takeFrame`, `Osprey.pushBounded` — the buffer;
* `Osprey.NoiseTransport` with `encrypt`, `pushBytes`, `nextMessage` — the transport;
* `Osprey.NoiseHandshake` with `pushBytes`, `readMessage`, `intoTransport` — the handshake.

Main results:

* `Osprey.completeFrameLen_eq_some` — the completeness test agrees with the core's parser;
* `Osprey.takeFrame_eq` — so does the parse;
* `Osprey.decryptOne_encodeFrame` — what the bridge makes of a whole frame;
* `Osprey.NoiseTransport.refused_of_failed` — **failure is final**.
-/

import Osprey.Conversation
import Osprey.Handshake

set_option relaxedAutoImplicit false
set_option autoImplicit false

namespace Osprey

open ByteIO

variable {H T : Type}

/-! ### The buffer -/

def LENGTH_PREFIX_LEN : ℕ := 2

def MAX_INBOUND_BUFFER : ℕ := 2 * (NOISE_MAX_MESSAGE_LEN + LENGTH_PREFIX_LEN)

/-- Length of the complete frame at the head of `buffer`, prefix included, or `none` if more bytes
are needed. -/
def completeFrameLen (buffer : Bytes) : Option ℕ :=
  match buffer with
  | hi :: lo :: _ =>
      let total := LENGTH_PREFIX_LEN + fromBeBytes hi lo
      if total ≤ buffer.length then some total else none
  | _ => none

/-- Pull one complete frame off the head of `buffer`, removing its bytes. -/
def takeFrame (buffer : Bytes) : Except OspreyError (Option Bytes) × Bytes :=
  match completeFrameLen buffer with
  | none => (.ok none, buffer)
  | some total =>
      match (readFrame (Reader.ofBytes (buffer.take total))).1 with
      | .error e => (.error (.ofCore e), buffer)
      | .ok .eof =>
          (.error (.framing (.text "frame vanished between length check and parse")), buffer)
      | .ok (.frame frame) => (.ok (some frame), buffer.drop total)

/-- Append socket bytes to an inbound buffer, refusing unbounded growth. -/
def pushBounded (buffer data : Bytes) : Except OspreyError Bytes :=
  if MAX_INBOUND_BUFFER < buffer.length + data.length then
    .error (.inboundOverflow MAX_INBOUND_BUFFER)
  else .ok (buffer ++ data)

/-- Add the length prefix to one Noise message. -/
def frameEncode (message : Bytes) : Except OspreyError Bytes :=
  match writeFrame Writer.empty message with
  | (.error e, _) => .error (.ofCore e)
  | (.ok (), w) => .ok w.output

/-- The completeness test answers exactly when the parser finds a frame. -/
theorem completeFrameLen_eq_some {buffer : Bytes} {total : ℕ} :
    completeFrameLen buffer = some total ↔
      ∃ frame, scanFrame buffer = (.ok (.frame frame), buffer.drop total) ∧
        total = (encodeFrame frame).length := by
  match buffer with
  | [] => simp [completeFrameLen]
  | [_] => simp [completeFrameLen, scanFrame]
  | hi :: lo :: rest =>
      have htotal : LENGTH_PREFIX_LEN + fromBeBytes hi lo ≤ (hi :: lo :: rest).length ↔
          fromBeBytes hi lo ≤ rest.length := by
        simp only [LENGTH_PREFIX_LEN, List.length_cons]
        omega
      simp only [completeFrameLen, scanFrame]
      by_cases hle : fromBeBytes hi lo ≤ rest.length
      · rw [if_pos (htotal.2 hle), if_pos hle]
        constructor
        · intro h
          obtain rfl := Option.some.inj h
          refine ⟨rest.take (fromBeBytes hi lo), ?_, ?_⟩
          · rw [LENGTH_PREFIX_LEN, Nat.add_comm, List.drop_succ_cons, List.drop_succ_cons]
          · rw [length_encodeFrame, List.length_take, Nat.min_eq_left hle, LENGTH_PREFIX_LEN,
              Nat.add_comm]
        · rintro ⟨frame, h, rfl⟩
          simp only [Prod.mk.injEq, Except.ok.injEq, FrameRead.frame.injEq] at h
          rw [length_encodeFrame, ← h.1, List.length_take, Nat.min_eq_left hle, LENGTH_PREFIX_LEN,
            Nat.add_comm]
      · rw [if_neg (fun h => hle (htotal.1 h)), if_neg hle]
        simp

/-- Nothing complete is buffered: the buffer is shorter than the longest frame. -/
theorem length_lt_of_completeFrameLen_none {buffer : Bytes} (h : completeFrameLen buffer = none) :
    buffer.length < NOISE_MAX_MESSAGE_LEN + LENGTH_PREFIX_LEN := by
  match buffer with
  | [] => decide
  | [_] => simp [NOISE_MAX_MESSAGE_LEN, LENGTH_PREFIX_LEN]
  | hi :: lo :: rest =>
      have hb := fromBeBytes_le hi lo
      simp only [completeFrameLen] at h
      split_ifs at h with hle
      omega

/-- More bytes do not change the frame at the head. -/
theorem completeFrameLen_append {buffer : Bytes} {total : ℕ}
    (h : completeFrameLen buffer = some total) (more : Bytes) :
    completeFrameLen (buffer ++ more) = some total := by
  match buffer with
  | [] => simp [completeFrameLen] at h
  | [_] => simp [completeFrameLen] at h
  | hi :: lo :: rest =>
      simp only [completeFrameLen, List.cons_append] at h ⊢
      split_ifs at h with hle
      rw [if_pos (by simp at hle ⊢; omega), h]

/-- The frame at the head of a buffer that holds one: its bytes and what is behind them. -/
theorem exists_frame_of_completeFrameLen {buffer : Bytes} {total : ℕ}
    (h : completeFrameLen buffer = some total) :
    ∃ frame, scanFrame buffer = (.ok (.frame frame), buffer.drop total) ∧
      frame.length ≤ NOISE_MAX_MESSAGE_LEN ∧ buffer.take total = encodeFrame frame ∧
      total ≤ buffer.length := by
  obtain ⟨frame, hscan, rfl⟩ := completeFrameLen_eq_some.1 h
  obtain ⟨heq, hlen⟩ := eq_encodeFrame_of_scanFrame hscan
  refine ⟨frame, hscan, hlen, ?_, ?_⟩
  · conv_lhs => rw [heq]
    exact List.take_left
  · conv_rhs => rw [heq]
    rw [List.length_append]
    omega

/-- A buffer that holds the bytes of a frame is complete. -/
theorem completeFrameLen_encodeFrame {frame : Bytes} (hlen : frame.length ≤ NOISE_MAX_MESSAGE_LEN)
    (rest : Bytes) :
    completeFrameLen (encodeFrame frame ++ rest) = some (encodeFrame frame).length := by
  refine completeFrameLen_eq_some.2 ⟨frame, ?_, rfl⟩
  rw [scanFrame_encodeFrame hlen, List.drop_left]

/-- The core's parser on one whole frame. -/
theorem readFrame_ofBytes_encodeFrame {frame : Bytes}
    (hlen : frame.length ≤ NOISE_MAX_MESSAGE_LEN) :
    (readFrame (Reader.ofBytes (encodeFrame frame))).1 = .ok (.frame frame) := by
  obtain ⟨r', hread, -, -⟩ := readFrame_benign (Reader.benign_ofBytes (encodeFrame frame))
  have hscan := scanFrame_encodeFrame hlen []
  rw [List.append_nil] at hscan
  rw [hread, Reader.ofBytes_input, hscan]

/-- `takeFrame` removes exactly the frame at the head, or nothing. -/
theorem takeFrame_eq (buffer : Bytes) :
    (completeFrameLen buffer = none ∧ takeFrame buffer = (.ok none, buffer)) ∨
      ∃ frame rest, buffer = encodeFrame frame ++ rest ∧
        frame.length ≤ NOISE_MAX_MESSAGE_LEN ∧ takeFrame buffer = (.ok (some frame), rest) := by
  rcases h : completeFrameLen buffer with _ | total
  · exact Or.inl ⟨rfl, by simp [takeFrame, h]⟩
  · obtain ⟨frame, hscan, hlen, htake, -⟩ := exists_frame_of_completeFrameLen h
    refine Or.inr ⟨frame, buffer.drop total, (eq_encodeFrame_of_scanFrame hscan).1, hlen, ?_⟩
    simp only [takeFrame, h, htake, readFrame_ofBytes_encodeFrame hlen]

/-! ### The transport -/

/-- The state behind `NoiseTransport`'s lock. -/
structure NoiseTransport (T : Type) where
  session : NoiseSession T
  inbound : Bytes
  failed : Option OspreyError

/-- Decrypt exactly one framed chunk out of `bytes`. -/
def decryptOne (snow : SnowTransport T) (session : NoiseSession T) (bytes : Bytes) :
    Except OspreyError Bytes × NoiseSession T :=
  let out := session.recv snow (Reader.ofBytes bytes)
  let session := { session with state := out.state }
  match out.result with
  | .ok (some message) => (.ok message, session)
  | .ok none =>
      (.error (.framing (.text "core reported end-of-stream on a complete frame")), session)
  | .error (.truncatedFrame 0 2) => (.error (.messageTooLarge MAX_CHUNK_PAYLOAD_LEN), session)
  | .error err => (.error (.ofCore err), session)

namespace NoiseTransport

def fromSession (session : NoiseSession T) (inbound : Bytes) : NoiseTransport T :=
  ⟨session.setMaxMessageLen MAX_CHUNK_PAYLOAD_LEN, inbound, none⟩

def checkLive (t : NoiseTransport T) : Except OspreyError Unit :=
  match t.failed with
  | some earlier => .error (.sessionClosed earlier)
  | none => .ok ()

/-- Record a fatal channel error; an earlier one is kept. -/
def fail (t : NoiseTransport T) (err : OspreyError) : NoiseTransport T :=
  { t with failed := t.failed.or (some err) }

/-- Encrypt `payload` into wire bytes. -/
def encrypt (snow : SnowTransport T) (t : NoiseTransport T) (payload : Bytes) :
    Except OspreyError Bytes × NoiseTransport T :=
  match t.checkLive with
  | .error e => (.error e, t)
  | .ok () =>
      match t.session.send snow payload Writer.empty with
      | (.error err, session, _) => (.error (.ofCore err), { t with session }.fail (.ofCore err))
      | (.ok (), session, w) => (.ok w.output, { t with session })

/-- Hand over bytes just read from the socket. -/
def pushBytes (t : NoiseTransport T) (data : Bytes) : Except OspreyError Unit × NoiseTransport T :=
  match t.checkLive with
  | .error e => (.error e, t)
  | .ok () =>
      match pushBounded t.inbound data with
      | .error e => (.error e, t)
      | .ok inbound => (.ok (), { t with inbound })

/-- Decrypt the next complete message, or `none` if more bytes are needed. -/
def nextMessage (snow : SnowTransport T) (t : NoiseTransport T) :
    Except OspreyError (Option Bytes) × NoiseTransport T :=
  match t.checkLive with
  | .error e => (.error e, t)
  | .ok () =>
      match completeFrameLen t.inbound with
      | none => (.ok none, t)
      | some total =>
          match decryptOne snow t.session (t.inbound.take total) with
          | (.ok message, session) =>
              (.ok (some message), { t with session, inbound := t.inbound.drop total })
          | (.error err, session) => (.error err, { t with session }.fail err)

/-- **Failure is final**: a transport that failed refuses to encrypt, to take bytes and to deliver,
and none of these calls changes it. -/
theorem refused_of_failed (snow : SnowTransport T) {t : NoiseTransport T} {earlier : OspreyError}
    (h : t.failed = some earlier) :
    (∀ payload, t.encrypt snow payload = (.error (.sessionClosed earlier), t)) ∧
      (∀ data, t.pushBytes data = (.error (.sessionClosed earlier), t)) ∧
      t.nextMessage snow = (.error (.sessionClosed earlier), t) := by
  have hlive : t.checkLive = .error (.sessionClosed earlier) := by simp [checkLive, h]
  exact ⟨fun _ => by simp [encrypt, hlive], fun _ => by simp [pushBytes, hlive],
    by simp [nextMessage, hlive]⟩

/-- Bytes fit whenever nothing complete is buffered and the read was not larger than a frame. -/
theorem pushBytes_ok {t : NoiseTransport T} (hlive : t.failed = none)
    (hnone : completeFrameLen t.inbound = none) {data : Bytes}
    (hdata : data.length ≤ NOISE_MAX_MESSAGE_LEN) :
    t.pushBytes data = (.ok (), { t with inbound := t.inbound ++ data }) := by
  have hlt := length_lt_of_completeFrameLen_none hnone
  have hfit : ¬MAX_INBOUND_BUFFER < t.inbound.length + data.length := by
    simp only [MAX_INBOUND_BUFFER, LENGTH_PREFIX_LEN] at *
    omega
  simp [pushBytes, checkLive, hlive, pushBounded, hfit]

end NoiseTransport

/-- No error of the core turns into an overflow of the bridge's buffer. -/
theorem OspreyError.ofCore_ne_inboundOverflow (err : Error) (limit : ℕ) :
    OspreyError.ofCore err ≠ .inboundOverflow limit := by
  cases err <;> simp [OspreyError.ofCore]

/-- **One whole frame**: the bridge delivers its body when the core's loop accepts it as the final
chunk of a message, and otherwise it fails — also when the chunk announces that more follow, for
the core then finds the end of the one-frame buffer. -/
theorem decryptOne_encodeFrame (snow : SnowTransport T) (session : NoiseSession T) {frame : Bytes}
    (hlen : frame.length ≤ NOISE_MAX_MESSAGE_LEN) :
    (∃ message state,
      acceptChunk snow session.maxMessageLen session.maxChunks session.state frame [] 0 =
        (.ok (true, message), state) ∧
      decryptOne snow session (encodeFrame frame) = (.ok message, { session with state })) ∨
    ((∀ message state,
      acceptChunk snow session.maxMessageLen session.maxChunks session.state frame [] 0 ≠
        (.ok (true, message), state)) ∧
      ∃ err session', decryptOne snow session (encodeFrame frame) = (.error err, session') ∧
        ∀ limit, err ≠ .inboundOverflow limit) := by
  have hscan : scanFrame (encodeFrame frame) = (.ok (.frame frame), []) := by
    simpa using scanFrame_encodeFrame hlen []
  obtain ⟨r', hr', hin', hloop⟩ := recvLoop_scan snow session.maxMessageLen session.maxChunks
    session.state (Reader.benign_ofBytes (encodeFrame frame)) [] 0
  rw [Reader.ofBytes_input, hscan] at hloop hin'
  have hrecv : session.recv snow (Reader.ofBytes (encodeFrame frame)) = _ := hloop
  rcases hacc : acceptChunk snow session.maxMessageLen session.maxChunks session.state frame [] 0
    with ⟨err | ⟨_ | _, message⟩, state⟩
  · -- refused by the core
    right
    refine ⟨by simp, ?_⟩
    simp only [hacc] at hrecv
    simp only [decryptOne, hrecv]
    split
    · simp at *
    · simp at *
    · exact ⟨_, _, rfl, by simp⟩
    · exact ⟨_, _, rfl, OspreyError.ofCore_ne_inboundOverflow _⟩
  · -- a continuation: the next round of the loop finds the end of the buffer
    right
    refine ⟨by simp, ?_⟩
    obtain ⟨r'', -, -, hloop₁⟩ := recvLoop_scan snow session.maxMessageLen session.maxChunks
      state hr' message 1
    rw [hin', scanFrame_nil] at hloop₁
    simp only [hacc, Nat.zero_add, hloop₁, one_ne_zero, if_false] at hrecv
    simp only [decryptOne, hrecv]
    exact ⟨.messageTooLarge MAX_CHUNK_PAYLOAD_LEN, _, rfl, by simp⟩
  · left
    simp only [hacc] at hrecv
    exact ⟨message, state, rfl, by simp [decryptOne, hrecv]⟩

/-! ### The handshake -/

/-- The state behind `NoiseHandshake`'s lock.  `state` is `none` once the handshake was promoted. -/
structure NoiseHandshake (H : Type) where
  state : Option H
  inbound : Bytes
  writes : ℕ
  reads : ℕ

namespace NoiseHandshake

def wrap (state : H) : NoiseHandshake H := ⟨some state, [], 0, 0⟩

def stateMut (h : NoiseHandshake H) : Except OspreyError H :=
  match h.state with
  | none => .error (.sessionState "handshake has already been promoted to a transport session")
  | some state => .ok state

/-- Produce the next handshake message, already framed. -/
def writeMessage (snow : Snow H T) (h : NoiseHandshake H) (payload : Bytes) :
    Except OspreyError Bytes × NoiseHandshake H :=
  match h.stateMut with
  | .error e => (.error e, h)
  | .ok state =>
      match Handshake.writeMessage snow state payload with
      | .error e => (.error (.ofCore e), h)
      | .ok (message, state) =>
          (frameEncode message, { h with state := some state, writes := h.writes + 1 })

/-- Hand over bytes just read from the socket. -/
def pushBytes (h : NoiseHandshake H) (data : Bytes) : Except OspreyError Unit × NoiseHandshake H :=
  match pushBounded h.inbound data with
  | .error e => (.error e, h)
  | .ok inbound => (.ok (), { h with inbound })

/-- Consume one buffered handshake message, or `none` when it has not arrived yet. -/
def readMessage (snow : Snow H T) (h : NoiseHandshake H) :
    Except OspreyError (Option Bytes) × NoiseHandshake H :=
  match takeFrame h.inbound with
  | (.error e, inbound) => (.error e, { h with inbound })
  | (.ok none, inbound) => (.ok none, { h with inbound })
  | (.ok (some frame), inbound) =>
      let h := { h with inbound }
      match h.stateMut with
      | .error e => (.error e, h)
      | .ok state =>
          match Handshake.readMessage snow state frame with
          | .error e => (.error (.ofCore e), h)
          | .ok (payload, state) =>
              (.ok (some payload), { h with state := some state, reads := h.reads + 1 })

/-- Promote the completed handshake into a transport session; the bytes that are already buffered
move across with it. -/
def intoTransport (snow : Snow H T) (h : NoiseHandshake H) :
    Except OspreyError (NoiseTransport T) × NoiseHandshake H :=
  match h.stateMut with
  | .error e => (.error e, h)
  | .ok state =>
      let taken := { h with state := none, inbound := [] }
      match Handshake.intoSession snow state with
      | .error e => (.error (.ofCore e), taken)
      | .ok session => (.ok (NoiseTransport.fromSession session h.inbound), taken)

end NoiseHandshake

end Osprey
