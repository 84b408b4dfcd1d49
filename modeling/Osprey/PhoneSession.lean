/-
**The phone's receiver refines the blocking one.**

`ios/…/Noise/NoiseChannel.swift` and `NoiseSession.swift`: the actor around the bridge of
`Osprey/FfiBridge.lean`, and the two loops that pump socket bytes into it — one for the handshake
reply, one for messages.  The socket is the list of its reads: each of them non-empty, none longer
than what the loop asks for, and the end of the list is the close.

The blocking receiver is `Osprey.NoiseSession.recv` with the cap that the bridge sets.  It can
reassemble messages of several chunks and the phone cannot; up to the first such message, and up to
the first frame the core refuses, the two see the same.

Main definitions:

* `Osprey.NoiseChannel` with `push`, `handshakePayload`, `promote`, `nextMessage` — the actor;
* `Osprey.receive`, `Osprey.readHandshakePayload` — the two loops;
* `Osprey.recvTrace` — the messages the blocking receiver yields, each with whether its first
  chunk was already final and with what is left on the stream behind it.

Main results:

* `Osprey.receive_starved`, `Osprey.receive_complete` — one call of `receive`, for every cutting of
  the stream into reads;
* `Osprey.receiveMany_eq` — any number of calls;
* `Osprey.phone_refines_blocking` — **the refinement**, across the handshake boundary.
-/

import Osprey.FfiBridge

set_option relaxedAutoImplicit false
set_option autoImplicit false

namespace Osprey

open ByteIO

variable {H T : Type}

/-! ### The actor -/

/-- What a call on the channel can throw. -/
inductive NoiseChannelError
  | handshakeNotStarted
  | transportNotEstablished
  | core (err : OspreyError)
  deriving DecidableEq, Repr

/-- The actor around the FFI objects.  A promoted handshake is dropped. -/
structure NoiseChannel (H T : Type) where
  handshake : Option (NoiseHandshake H)
  transport : Option (NoiseTransport T)

namespace NoiseChannel

/-- Hand socket bytes to whichever half of the channel is live. -/
def push (ch : NoiseChannel H T) (data : Bytes) :
    Except NoiseChannelError Unit × NoiseChannel H T :=
  match ch.transport, ch.handshake with
  | some t, _ =>
      match t.pushBytes data with
      | (.error e, t) => (.error (.core e), { ch with transport := some t })
      | (.ok (), t) => (.ok (), { ch with transport := some t })
  | none, none => (.error .handshakeNotStarted, ch)
  | none, some h =>
      match h.pushBytes data with
      | (.error e, h) => (.error (.core e), { ch with handshake := some h })
      | (.ok (), h) => (.ok (), { ch with handshake := some h })

/-- The responder's decrypted handshake payload, once a whole message has arrived. -/
def handshakePayload (snow : Snow H T) (ch : NoiseChannel H T) :
    Except NoiseChannelError (Option Bytes) × NoiseChannel H T :=
  match ch.handshake with
  | none => (.error .handshakeNotStarted, ch)
  | some h =>
      match h.readMessage snow with
      | (.error e, h) => (.error (.core e), { ch with handshake := some h })
      | (.ok payload, h) => (.ok payload, { ch with handshake := some h })

/-- Promote to transport mode and hand back the peer static the handshake authenticated.  The
length check on that static cannot fail: the core's session holds 32 bytes. -/
def promote (snow : Snow H T) (ch : NoiseChannel H T) :
    Except NoiseChannelError Key32 × NoiseChannel H T :=
  match ch.handshake with
  | none => (.error .handshakeNotStarted, ch)
  | some h =>
      match h.intoTransport snow with
      | (.error e, h) => (.error (.core e), { ch with handshake := some h })
      | (.ok t, _) => (.ok t.session.remoteStatic, ⟨none, some t⟩)

/-- `seal`: encrypt one logical payload into its wire bytes. -/
def sealPayload (snow : SnowTransport T) (ch : NoiseChannel H T) (payload : Bytes) :
    Except NoiseChannelError Bytes × NoiseChannel H T :=
  match ch.transport with
  | none => (.error .transportNotEstablished, ch)
  | some t =>
      match t.encrypt snow payload with
      | (.error e, t) => (.error (.core e), { ch with transport := some t })
      | (.ok bytes, t) => (.ok bytes, { ch with transport := some t })

/-- The next decrypted message, or `none` while more socket bytes are needed. -/
def nextMessage (snow : SnowTransport T) (ch : NoiseChannel H T) :
    Except NoiseChannelError (Option Bytes) × NoiseChannel H T :=
  match ch.transport with
  | none => (.error .transportNotEstablished, ch)
  | some t =>
      match t.nextMessage snow with
      | (.error e, t) => (.error (.core e), { ch with transport := some t })
      | (.ok message, t) => (.ok message, { ch with transport := some t })

end NoiseChannel

/-! ### The two loops -/

/-- How many bytes the loops ask the socket for at a time. -/
def readChunkLength : ℕ := 16 * 1024

/-- `NoiseSession.receive`: drain first, read only when nothing complete is buffered. -/
def receive (snow : SnowTransport T) (ch : NoiseChannel H T) (reads : List Bytes) :
    Except NoiseChannelError (Option Bytes) × NoiseChannel H T × List Bytes :=
  match ch.nextMessage snow with
  | (.error e, ch) => (.error e, ch, reads)
  | (.ok (some message), ch) => (.ok (some message), ch, reads)
  | (.ok none, ch) =>
      match reads with
      | [] => (.ok none, ch, [])
      | bytes :: reads =>
          match ch.push bytes with
          | (.error e, ch) => (.error e, ch, reads)
          | (.ok (), ch) => receive snow ch reads

/-- Drive one handshake message in from the socket. -/
def readHandshakePayload (snow : Snow H T) (ch : NoiseChannel H T) (reads : List Bytes) :
    Except NoiseChannelError (Option Bytes) × NoiseChannel H T × List Bytes :=
  match ch.handshakePayload snow with
  | (.error e, ch) => (.error e, ch, reads)
  | (.ok (some payload), ch) => (.ok (some payload), ch, reads)
  | (.ok none, ch) =>
      match reads with
      | [] => (.ok none, ch, [])
      | bytes :: reads =>
          match ch.push bytes with
          | (.error e, ch) => (.error e, ch, reads)
          | (.ok (), ch) => readHandshakePayload snow ch reads

/-- The answers of `n` calls of `receive`, and what they leave behind. -/
def receiveMany (snow : SnowTransport T) : ℕ → NoiseChannel H T → List Bytes →
    List (Except NoiseChannelError (Option Bytes)) × NoiseChannel H T × List Bytes
  | 0, ch, reads => ([], ch, reads)
  | n + 1, ch, reads =>
      let (answer, ch, reads) := receive snow ch reads
      let (answers, ch, reads) := receiveMany snow n ch reads
      (answer :: answers, ch, reads)

/-- The reads of a socket: never empty, never longer than what was asked for. -/
def SocketReads (reads : List Bytes) : Prop :=
  ∀ bytes ∈ reads, bytes ≠ [] ∧ bytes.length ≤ readChunkLength

theorem SocketReads.tail {bytes : Bytes} {reads : List Bytes} (h : SocketReads (bytes :: reads)) :
    SocketReads reads := fun b hb => h b (List.mem_cons_of_mem _ hb)

theorem SocketReads.head_le {bytes : Bytes} {reads : List Bytes}
    (h : SocketReads (bytes :: reads)) : bytes.length ≤ NOISE_MAX_MESSAGE_LEN :=
  (h bytes (List.mem_cons_self ..)).2.trans (by decide)

/-! ### One call of `receive` -/

/-- A live transport inside the actor, after promotion. -/
def liveChannel (session : NoiseSession T) (inbound : Bytes) : NoiseChannel H T :=
  ⟨none, some ⟨session, inbound, none⟩⟩

/-- Nothing complete is buffered: the actor asks for more bytes. -/
theorem nextMessage_starved (snow : SnowTransport T) (session : NoiseSession T) {inbound : Bytes}
    (h : completeFrameLen inbound = none) :
    (liveChannel (H := H) session inbound).nextMessage snow =
      (.ok none, liveChannel session inbound) := by
  simp [NoiseChannel.nextMessage, liveChannel, NoiseTransport.nextMessage,
    NoiseTransport.checkLive, h]

/-- The bytes of one read fit behind an incomplete frame. -/
theorem push_live (session : NoiseSession T) {inbound : Bytes}
    (h : completeFrameLen inbound = none) {bytes : Bytes}
    (hbytes : bytes.length ≤ NOISE_MAX_MESSAGE_LEN) :
    (liveChannel (H := H) session inbound).push bytes =
      (.ok (), liveChannel session (inbound ++ bytes)) := by
  have hpush := NoiseTransport.pushBytes_ok (t := ⟨session, inbound, none⟩) rfl h hbytes
  simp [NoiseChannel.push, liveChannel, hpush]

/-- As long as the whole stream holds no complete frame, `receive` reads it to its end and answers
that the peer closed; no byte is lost. -/
theorem receive_starved (snow : SnowTransport T) (session : NoiseSession T) {reads : List Bytes}
    (hreads : SocketReads reads) {inbound : Bytes}
    (h : completeFrameLen (inbound ++ reads.flatten) = none) :
    receive snow (liveChannel (H := H) session inbound) reads =
      (.ok none, liveChannel session (inbound ++ reads.flatten), []) := by
  -- more bytes never undo a complete frame, so the buffer alone holds none
  have hbuf : completeFrameLen inbound = none := by
    by_contra hne
    obtain ⟨total, htotal⟩ := Option.ne_none_iff_exists'.1 hne
    rw [completeFrameLen_append htotal] at h
    simp at h
  induction reads generalizing inbound with
  | nil => simp [receive, nextMessage_starved snow session hbuf]
  | cons bytes reads ih =>
      rw [List.flatten_cons, ← List.append_assoc] at h ⊢
      rw [receive, nextMessage_starved snow session hbuf]
      simp only [push_live session hbuf hreads.head_le]
      refine ih hreads.tail h ?_
      by_contra hne
      obtain ⟨total, htotal⟩ := Option.ne_none_iff_exists'.1 hne
      rw [completeFrameLen_append htotal] at h
      simp at h

/-- When the stream holds a complete frame, `receive` hands exactly that frame to the core, however
the stream is cut into reads: its message is delivered and the rest of the stream stays, or the
transport has failed. -/
theorem receive_complete (snow : SnowTransport T) (session : NoiseSession T) {reads : List Bytes}
    (hreads : SocketReads reads) {inbound : Bytes} {total : ℕ}
    (h : completeFrameLen (inbound ++ reads.flatten) = some total) :
    (∀ message session',
      decryptOne snow session ((inbound ++ reads.flatten).take total) = (.ok message, session') →
      ∃ inbound' reads', receive snow (liveChannel (H := H) session inbound) reads =
          (.ok (some message), liveChannel session' inbound', reads') ∧
        inbound' ++ reads'.flatten = (inbound ++ reads.flatten).drop total ∧ SocketReads reads') ∧
    (∀ err session',
      decryptOne snow session ((inbound ++ reads.flatten).take total) = (.error err, session') →
      ∃ t reads', receive snow (liveChannel (H := H) session inbound) reads =
          (.error (.core err), ⟨none, some t⟩, reads') ∧ t.failed = some err) := by
  induction reads generalizing inbound with
  | nil =>
      simp only [List.flatten_nil, List.append_nil] at h ⊢
      constructor
      · intro message session' hdec
        refine ⟨inbound.drop total, [], ?_, by simp, hreads⟩
        simp [receive, NoiseChannel.nextMessage, liveChannel, NoiseTransport.nextMessage,
          NoiseTransport.checkLive, h, hdec]
      · intro err session' hdec
        refine ⟨⟨session', inbound, some err⟩, [], ?_, rfl⟩
        simp [receive, NoiseChannel.nextMessage, liveChannel, NoiseTransport.nextMessage,
          NoiseTransport.checkLive, h, hdec, NoiseTransport.fail]
  | cons bytes reads ih =>
      rcases hbuf : completeFrameLen inbound with _ | total'
      · -- nothing complete yet: one more read, and the induction hypothesis
        rw [List.flatten_cons, ← List.append_assoc] at h ⊢
        have hstep : receive snow (liveChannel (H := H) session inbound) (bytes :: reads) =
            receive snow (liveChannel session (inbound ++ bytes)) reads := by
          rw [receive, nextMessage_starved snow session hbuf]
          simp only [push_live session hbuf hreads.head_le]
        rw [hstep]
        exact ih hreads.tail h
      · -- the frame is already buffered, and the reads stay where they are
        have htotal : total' = total := by
          rw [completeFrameLen_append hbuf] at h
          exact Option.some.inj h
        subst htotal
        obtain ⟨_, _, _, _, hle⟩ := exists_frame_of_completeFrameLen hbuf
        rw [List.take_append_of_le_length hle, List.drop_append_of_le_length hle]
        constructor
        · intro message session' hdec
          refine ⟨inbound.drop total', bytes :: reads, ?_, rfl, hreads⟩
          simp [receive, NoiseChannel.nextMessage, liveChannel, NoiseTransport.nextMessage,
            NoiseTransport.checkLive, hbuf, hdec]
        · intro err session' hdec
          refine ⟨⟨session', inbound, some err⟩, bytes :: reads, ?_, rfl⟩
          simp [receive, NoiseChannel.nextMessage, liveChannel, NoiseTransport.nextMessage,
            NoiseTransport.checkLive, hbuf, hdec, NoiseTransport.fail]

/-- After a failure every call of `receive` answers with it. -/
theorem receiveMany_failed (snow : SnowTransport T) (n : ℕ) {t : NoiseTransport T}
    {err : OspreyError} (h : t.failed = some err) (reads : List Bytes) :
    receiveMany snow n (⟨none, some t⟩ : NoiseChannel H T) reads =
      (List.replicate n (.error (.core (.sessionClosed err))), ⟨none, some t⟩, reads) := by
  have hone : receive snow (⟨none, some t⟩ : NoiseChannel H T) reads =
      (.error (.core (.sessionClosed err)), ⟨none, some t⟩, reads) := by
    rw [receive]
    simp only [NoiseChannel.nextMessage, (NoiseTransport.refused_of_failed snow h).2.2]
  induction n with
  | zero => rfl
  | succ n ih => simp only [receiveMany, hone, ih, List.replicate_succ]

/-- On a stream without a complete frame every call of `receive` answers that the peer closed, and
the bytes stay. -/
theorem receiveMany_starved (snow : SnowTransport T) (n : ℕ) (session : NoiseSession T)
    {reads : List Bytes} (hreads : SocketReads reads) {inbound : Bytes}
    (h : completeFrameLen (inbound ++ reads.flatten) = none) :
    ∃ inbound' reads', receiveMany snow n (liveChannel (H := H) session inbound) reads =
        (List.replicate n (.ok none), liveChannel session inbound', reads') ∧
      inbound' ++ reads'.flatten = inbound ++ reads.flatten := by
  induction n generalizing inbound reads with
  | zero => exact ⟨inbound, reads, rfl, rfl⟩
  | succ n ih =>
      have hnil :
          completeFrameLen (inbound ++ reads.flatten ++ ([] : List Bytes).flatten) = none := by
        simpa using h
      obtain ⟨inbound', reads', hrec, heq⟩ := ih (by simp [SocketReads]) hnil
      refine ⟨inbound', reads', ?_, by simpa using heq⟩
      simp only [receiveMany, receive_starved snow session hreads h, hrec, List.replicate_succ]

/-! ### The blocking receiver -/

/-- One message of the blocking receiver: its bytes, whether its first chunk was already the final
one, and what is left on the stream behind it. -/
structure Received where
  message : Bytes
  single : Bool
  rest : Bytes

/-- The first frame of `input` decrypts to a chunk that says it is final. -/
def firstChunkFinal (snow : SnowTransport T) (state : T) (input : Bytes) : Bool :=
  match (scanFrame input).1 with
  | .ok (.frame frame) =>
      match snow.readMessage state frame with
      | .ok (flag :: _, _) => flag == FLAG_FINAL
      | _ => false
  | _ => false

/-- The messages that the first `n` calls of the blocking `recv` yield, up to the first call that
yields none. -/
def recvTrace (snow : SnowTransport T) : ℕ → NoiseSession T → Bytes → List Received
  | 0, _, _ => []
  | n + 1, s, input =>
      let out := s.recv snow (Reader.ofBytes input)
      match out.result with
      | .ok (some message) =>
          ⟨message, firstChunkFinal snow s.state input, out.reader.input⟩ ::
            recvTrace snow n { s with state := out.state } out.reader.input
      | _ => []

/-- What the blocking receiver yields, cut at the first message whose first chunk is not final. -/
def cutTrace (snow : SnowTransport T) (n : ℕ) (s : NoiseSession T) (input : Bytes) :
    List Received :=
  (recvTrace snow n s input).takeWhile Received.single

/-- What is left on the stream behind the last of `received`. -/
def restAfter (input : Bytes) : List Received → Bytes
  | [] => input
  | x :: xs => restAfter x.rest xs

@[simp] theorem restAfter_nil (input : Bytes) : restAfter input [] = input := rfl

@[simp] theorem restAfter_cons (input : Bytes) (x : Received) (xs : List Received) :
    restAfter input (x :: xs) = restAfter x.rest xs := rfl

/-- The blocking receiver stops where no complete frame is left. -/
theorem cutTrace_starved (snow : SnowTransport T) (n : ℕ) (s : NoiseSession T) {input : Bytes}
    (h : completeFrameLen input = none) : cutTrace snow n s input = [] := by
  cases n with
  | zero => rfl
  | succ n =>
      obtain ⟨r', -, -, hloop⟩ := recvLoop_scan snow s.maxMessageLen s.maxChunks s.state
        (Reader.benign_ofBytes input) [] 0
      have hrecv : s.recv snow (Reader.ofBytes input) = _ := hloop
      simp only [Reader.ofBytes_input] at hrecv
      have hno : ∀ frame, (scanFrame input).1 ≠ .ok (.frame frame) := by
        intro frame hscan
        have hpair : scanFrame input = (.ok (.frame frame), (scanFrame input).2) := by rw [← hscan]
        obtain ⟨heq, hlen⟩ := eq_encodeFrame_of_scanFrame hpair
        rw [heq, completeFrameLen_encodeFrame hlen] at h
        simp at h
      rcases hscan : (scanFrame input).1 with e | (frame | _)
      · simp [cutTrace, recvTrace, hrecv, hscan]
      · exact absurd hscan (hno frame)
      · simp [cutTrace, recvTrace, hrecv, hscan]

/-- The blocking receiver at a complete frame: it yields the frame's message when the frame is
accepted as a final chunk, and the cut is here when it is not. -/
theorem cutTrace_complete (snow : SnowTransport T) (n : ℕ) (s : NoiseSession T) {frame : Bytes}
    (hlen : frame.length ≤ NOISE_MAX_MESSAGE_LEN) (rest : Bytes) :
    (∀ message state,
      acceptChunk snow s.maxMessageLen s.maxChunks s.state frame [] 0 =
        (.ok (true, message), state) →
      cutTrace snow (n + 1) s (encodeFrame frame ++ rest) =
        ⟨message, true, rest⟩ :: cutTrace snow n { s with state } rest) ∧
    ((∀ message state,
      acceptChunk snow s.maxMessageLen s.maxChunks s.state frame [] 0 ≠
        (.ok (true, message), state)) →
      cutTrace snow (n + 1) s (encodeFrame frame ++ rest) = []) := by
  have hscan := scanFrame_encodeFrame hlen rest
  obtain ⟨r', -, hin', hloop⟩ := recvLoop_scan snow s.maxMessageLen s.maxChunks s.state
    (Reader.benign_ofBytes (encodeFrame frame ++ rest)) [] 0
  have hrecv : s.recv snow (Reader.ofBytes (encodeFrame frame ++ rest)) = _ := hloop
  rw [Reader.ofBytes_input, hscan] at hrecv hin'
  constructor
  · intro message state hacc
    obtain ⟨plain, body, hread, hplain, -⟩ := acceptChunk_eq_ok hacc
    obtain rfl := splitChunkHeader_eq_final hplain
    have hfirst : firstChunkFinal snow s.state (encodeFrame frame ++ rest) = true := by
      simp [firstChunkFinal, hscan, hread]
    simp only [hacc] at hrecv
    simp only [cutTrace, recvTrace, hrecv, hfirst, hin', List.takeWhile_cons_of_pos]
  · intro hno
    rcases hacc : acceptChunk snow s.maxMessageLen s.maxChunks s.state frame [] 0 with
      ⟨err | ⟨_ | _, message⟩, state⟩
    · simp only [hacc] at hrecv
      simp [cutTrace, recvTrace, hrecv]
    · -- a continuation: whatever message it leads to is cut
      obtain ⟨plain, body, hread, hplain, -⟩ := acceptChunk_eq_ok hacc
      obtain rfl := splitChunkHeader_eq_more hplain
      have hfirst : firstChunkFinal snow s.state (encodeFrame frame ++ rest) = false := by
        simp [firstChunkFinal, hscan, hread, FLAG_MORE, FLAG_FINAL]
      simp only [cutTrace, recvTrace, hfirst]
      split <;> simp
    · exact absurd hacc (hno message state)

/-! ### The refinement -/

/-- What `k` calls of `receive` answer where the cut trace ends: closed-by-peer for ever, when no
complete frame is left, or a failure and then its repetition. -/
def endAnswers (k : ℕ) (rest : Bytes) (err : OspreyError) :
    List (Except NoiseChannelError (Option Bytes)) :=
  match completeFrameLen rest, k with
  | none, k => List.replicate k (.ok none)
  | some _, 0 => []
  | some _, k + 1 => .error (.core err) :: List.replicate k (.error (.core (.sessionClosed err)))

/-- What `n` calls of `receive` answer: the messages of the cut blocking trace, and then what there
is to answer at its end. -/
def receiveAnswers (n : ℕ) (input : Bytes) (received : List Received) (err : OspreyError) :
    List (Except NoiseChannelError (Option Bytes)) :=
  received.map (fun x => .ok (some x.message)) ++
    endAnswers (n - received.length) (restAfter input received) err

theorem receiveAnswers_cons (n : ℕ) (input : Bytes) (x : Received) (xs : List Received)
    (err : OspreyError) :
    receiveAnswers (n + 1) input (x :: xs) err =
      .ok (some x.message) :: receiveAnswers n x.rest xs err := by
  simp [receiveAnswers]

/-- **Any number of calls of `receive`**, for every cutting of the transport bytes into socket
reads. -/
theorem receiveMany_eq (snow : SnowTransport T) (n : ℕ) (session : NoiseSession T)
    {reads : List Bytes} (hreads : SocketReads reads) (inbound : Bytes) :
    ∃ err ch reads', receiveMany snow n (liveChannel (H := H) session inbound) reads =
        (receiveAnswers n (inbound ++ reads.flatten)
          (cutTrace snow n session (inbound ++ reads.flatten)) err, ch, reads') ∧
      (∀ limit, err ≠ .inboundOverflow limit) ∧
      ((cutTrace snow n session (inbound ++ reads.flatten)).length < n →
        completeFrameLen (restAfter (inbound ++ reads.flatten)
          (cutTrace snow n session (inbound ++ reads.flatten))) ≠ none →
        ∃ t, ch = ⟨none, some t⟩ ∧ t.failed = some err) := by
  induction n generalizing session inbound reads with
  | zero =>
      refine ⟨.unpinnedPeer, liveChannel session inbound, reads, ?_, by simp, ?_⟩
      · simp only [receiveMany, cutTrace, recvTrace, receiveAnswers, endAnswers]
        split <;> simp_all
      · intro h
        simp at h
  | succ n ih =>
      rcases hfull : completeFrameLen (inbound ++ reads.flatten) with _ | total
      · obtain ⟨inbound', reads', hrec, -⟩ :=
          receiveMany_starved (H := H) snow (n + 1) session hreads hfull
        refine ⟨.unpinnedPeer, liveChannel session inbound', reads', ?_, by simp, ?_⟩
        · rw [hrec, cutTrace_starved snow (n + 1) session hfull]
          simp [receiveAnswers, endAnswers, hfull]
        · rw [cutTrace_starved snow (n + 1) session hfull, restAfter_nil, hfull]
          intro _ h
          exact absurd rfl h
      · obtain ⟨frame, hscan, hlen, htake, -⟩ := exists_frame_of_completeFrameLen hfull
        obtain ⟨hok, hbad⟩ := receive_complete (H := H) snow session hreads hfull
        rw [htake] at hok hbad
        have hinput := (eq_encodeFrame_of_scanFrame hscan).1
        generalize (inbound ++ reads.flatten).drop total = rest at hinput hok
        rw [hinput] at hfull ⊢
        obtain ⟨htrace, hcut⟩ := cutTrace_complete snow n session hlen rest
        rcases decryptOne_encodeFrame snow session hlen with
          ⟨message, state, hacc, hdec⟩ | ⟨hno, err, session', hdec, herr⟩
        · -- delivered: the rest of the stream, by induction
          obtain ⟨inbound', reads', hrecv, hsplit, hreads'⟩ := hok message _ hdec
          obtain ⟨err, ch, reads'', hrec, herr, hfail⟩ := ih { session with state } hreads' inbound'
          rw [hsplit] at hrec hfail
          refine ⟨err, ch, reads'', ?_, herr, ?_⟩
          · rw [htrace message state hacc, receiveAnswers_cons]
            simp only [receiveMany, hrecv, hrec]
          · rw [htrace message state hacc, restAfter_cons]
            intro h
            exact hfail (by simpa using h)
        · -- refused: the cut is here
          obtain ⟨t, reads', hrecv, hfailed⟩ := hbad err session' hdec
          refine ⟨err, ⟨none, some t⟩, reads', ?_, herr, fun _ _ => ⟨t, rfl, hfailed⟩⟩
          rw [hcut hno]
          simp only [receiveMany, hrecv, receiveMany_failed snow n hfailed]
          simp [receiveAnswers, endAnswers, hfull]

/-! ### Across the handshake boundary -/

/-- A handshake in progress inside the actor. -/
def handshakeChannel (state : H) (inbound : Bytes) (writes reads : ℕ) : NoiseChannel H T :=
  ⟨some ⟨some state, inbound, writes, reads⟩, none⟩

/-- Whatever is buffered of a stream that starts with a frame, the first complete frame in the
buffer is that one. -/
theorem frame_unique {frame reply rest tail more : Bytes}
    (hframe : frame.length ≤ NOISE_MAX_MESSAGE_LEN) (hreply : reply.length ≤ NOISE_MAX_MESSAGE_LEN)
    (h : encodeFrame frame ++ tail ++ more = encodeFrame reply ++ rest) :
    frame = reply ∧ tail ++ more = rest := by
  have h₁ := scanFrame_encodeFrame hframe (tail ++ more)
  have h₂ := scanFrame_encodeFrame hreply rest
  rw [← List.append_assoc, h, h₂] at h₁
  simp only [Prod.mk.injEq, Except.ok.injEq, FrameRead.frame.injEq] at h₁
  exact ⟨h₁.1.symm, h₁.2.symm⟩

/-- The handshake loop stops at the first complete frame, hands its body to the core, and keeps
every byte behind it. -/
theorem readHandshakePayload_eq (snow : Snow H T) {state state' : H} {reply payload : Bytes}
    (hlen : reply.length ≤ NOISE_MAX_MESSAGE_LEN)
    (hread : snow.hsReadMessage state reply = .ok (payload, state')) (writes done : ℕ)
    {reads : List Bytes} (hreads : SocketReads reads) (inbound rest : Bytes)
    (hin : inbound ++ reads.flatten = encodeFrame reply ++ rest) :
    ∃ inbound' reads',
      readHandshakePayload snow (handshakeChannel state inbound writes done) reads =
        (.ok (some payload), handshakeChannel state' inbound' writes (done + 1), reads') ∧
      inbound' ++ reads'.flatten = rest ∧ SocketReads reads' := by
  induction reads generalizing inbound with
  | nil =>
      rcases takeFrame_eq inbound with ⟨hnone, -⟩ | ⟨frame, tail, rfl, hframe, htake⟩
      · -- the whole stream is buffered, so the frame is complete
        rw [List.flatten_nil, List.append_nil] at hin
        rw [hin, completeFrameLen_encodeFrame hlen] at hnone
        simp at hnone
      · obtain ⟨rfl, hrest⟩ := frame_unique hframe hlen hin
        refine ⟨tail, [], ?_, hrest, hreads⟩
        simp [readHandshakePayload, NoiseChannel.handshakePayload, handshakeChannel,
          NoiseHandshake.readMessage, htake, NoiseHandshake.stateMut, Handshake.readMessage, hread]
  | cons bytes reads ih =>
      rcases takeFrame_eq inbound with ⟨hnone, htake⟩ | ⟨frame, tail, rfl, hframe, htake⟩
      · have hlt := length_lt_of_completeFrameLen_none hnone
        have hbytes := hreads.head_le
        -- a buffer without a complete frame has room for one more read
        have hfit : ¬MAX_INBOUND_BUFFER < inbound.length + bytes.length := by
          simp only [MAX_INBOUND_BUFFER, LENGTH_PREFIX_LEN] at *
          omega
        have hstep : readHandshakePayload snow (handshakeChannel state inbound writes done)
            (bytes :: reads) =
            readHandshakePayload snow (handshakeChannel state (inbound ++ bytes) writes done)
              reads := by
          rw [readHandshakePayload]
          simp [NoiseChannel.handshakePayload, handshakeChannel, NoiseHandshake.readMessage, htake,
            NoiseChannel.push, NoiseHandshake.pushBytes, pushBounded, hfit]
        rw [hstep]
        exact ih hreads.tail (inbound ++ bytes) (by simpa [List.append_assoc] using hin)
      · obtain ⟨rfl, hrest⟩ := frame_unique hframe hlen hin
        refine ⟨tail, bytes :: reads, ?_, hrest, hreads⟩
        simp [readHandshakePayload, NoiseChannel.handshakePayload, handshakeChannel,
          NoiseHandshake.readMessage, htake, NoiseHandshake.stateMut, Handshake.readMessage, hread]

/-- The toy cipher with a handshake of the same kind: its messages are tagged with their number,
and the peer's static is all nines. -/
def countingNoise : Snow ℕ ℕ where
  toSnowTransport := countingSnow
  build _ _ := .ok 0
  hsWriteMessage := countingSnow.writeMessage
  hsReadMessage := countingSnow.readMessage
  getRemoteStatic _ := some (List.replicate 32 9)
  intoTransportMode _ := .ok 0

/-- **The phone refines the blocking receiver, across the handshake boundary.**  The inbound bytes
are the framed handshake reply followed by any transport bytes, cut into socket reads in any way.
The handshake loop answers with the reply's payload; promotion moves the bytes that are already
buffered, and with the unread ones they are the transport bytes; and any number of calls of
`receive` answers with the messages of the blocking receiver, cut at the first message whose first
chunk is not final and at the first frame the core refuses.  At that frame `receive` throws, the
failure is not an overflow of the inbound buffer, and from then on the transport refuses to encrypt,
to take bytes and to deliver.  When only an incomplete frame is left, `receive` answers that the
peer closed. -/
theorem phone_refines_blocking (snow : Snow H T) {state state' : H} {reply payload : Bytes}
    {session : NoiseSession T} (hlen : reply.length ≤ NOISE_MAX_MESSAGE_LEN)
    (hread : snow.hsReadMessage state reply = .ok (payload, state'))
    (hsession : Handshake.intoSession snow state' = .ok session) (writes : ℕ)
    {reads : List Bytes} (hreads : SocketReads reads) (transport : Bytes)
    (hin : reads.flatten = encodeFrame reply ++ transport) (n : ℕ) :
    ∃ inbound reads₁,
      readHandshakePayload snow (handshakeChannel state [] writes 0) reads =
        (.ok (some payload), handshakeChannel state' inbound writes 1, reads₁) ∧
      (handshakeChannel state' inbound writes 1).promote snow =
        (.ok session.remoteStatic,
          liveChannel (session.setMaxMessageLen MAX_CHUNK_PAYLOAD_LEN) inbound) ∧
      inbound ++ reads₁.flatten = transport ∧
      ∃ err ch reads₂,
        receiveMany snow.toSnowTransport n
            (liveChannel (H := H) (session.setMaxMessageLen MAX_CHUNK_PAYLOAD_LEN) inbound) reads₁ =
          (receiveAnswers n transport (cutTrace snow.toSnowTransport n
            (session.setMaxMessageLen MAX_CHUNK_PAYLOAD_LEN) transport) err, ch, reads₂) ∧
        (∀ limit, err ≠ .inboundOverflow limit) ∧
        ((cutTrace snow.toSnowTransport n (session.setMaxMessageLen MAX_CHUNK_PAYLOAD_LEN)
            transport).length < n →
          completeFrameLen (restAfter transport (cutTrace snow.toSnowTransport n
            (session.setMaxMessageLen MAX_CHUNK_PAYLOAD_LEN) transport)) ≠ none →
          ∃ t, ch = ⟨none, some t⟩ ∧
            (∀ data, t.encrypt snow.toSnowTransport data = (.error (.sessionClosed err), t)) ∧
            (∀ data, t.pushBytes data = (.error (.sessionClosed err), t)) ∧
            t.nextMessage snow.toSnowTransport = (.error (.sessionClosed err), t)) := by
  obtain ⟨inbound, reads₁, hpayload, hsplit, hreads₁⟩ :=
    readHandshakePayload_eq snow hlen hread writes 0 hreads [] transport (by simpa using hin)
  refine ⟨inbound, reads₁, hpayload, ?_, hsplit, ?_⟩
  · simp [NoiseChannel.promote, handshakeChannel, NoiseHandshake.intoTransport,
      NoiseHandshake.stateMut, hsession, NoiseTransport.fromSession, liveChannel,
      NoiseSession.setMaxMessageLen]
  · obtain ⟨err, ch, reads₂, hmany, herr, hfail⟩ := receiveMany_eq (H := H) snow.toSnowTransport n
      (session.setMaxMessageLen MAX_CHUNK_PAYLOAD_LEN) hreads₁ inbound
    rw [hsplit] at hmany hfail
    refine ⟨err, ch, reads₂, hmany, herr, ?_⟩
    intro hshort hcomplete
    obtain ⟨t, rfl, hfailed⟩ := hfail hshort hcomplete
    exact ⟨t, rfl, NoiseTransport.refused_of_failed snow.toSnowTransport hfailed⟩

/-- A reply, one message and a part of the next, in two reads that cut both the reply and the
message, on the toy cipher. -/
theorem phone_refines_blocking_two_reads :
    ∃ inbound reads₁,
      readHandshakePayload countingNoise (handshakeChannel 1 [] 1 0)
          [(encodeFrame ([5] ++ List.replicate 16 1)).take 3,
            (encodeFrame ([5] ++ List.replicate 16 1)).drop 3 ++
              (wire [[0, 7] ++ List.replicate 16 0] ++ [0])] =
        (.ok (some [5]), handshakeChannel 2 inbound 1 1, reads₁) ∧
      inbound ++ reads₁.flatten = wire [[0, 7] ++ List.replicate 16 0] ++ [0] := by
  have hread : countingNoise.hsReadMessage 1 ([5] ++ List.replicate 16 1) = .ok ([5], 2) := by
    decide
  have hsession : Handshake.intoSession countingNoise 2 =
      .ok (NoiseSession.new 0 ⟨List.replicate 32 9, rfl⟩) := rfl
  have hreads : SocketReads [(encodeFrame ([5] ++ List.replicate 16 1)).take 3,
      (encodeFrame ([5] ++ List.replicate 16 1)).drop 3 ++
        (wire [[0, 7] ++ List.replicate 16 0] ++ [0])] := by
    intro bytes hbytes
    simp only [List.mem_cons, List.not_mem_nil, or_false] at hbytes
    rcases hbytes with rfl | rfl <;> decide
  obtain ⟨inbound, reads₁, hpayload, -, hsplit, -⟩ :=
    phone_refines_blocking countingNoise (by decide) hread hsession 1 hreads
      (wire [[0, 7] ++ List.replicate 16 0] ++ [0]) (by decide) 2
  exact ⟨inbound, reads₁, hpayload, hsplit⟩

end Osprey
