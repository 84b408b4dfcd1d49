/-
**Whole conversations over one stream.**

`Osprey/NoiseSession.lean` describes one call of `send` and one of `recv`.  This module puts them
together: an honest sender that writes one payload after the other, against any reader; and a
sender that holds the session keys but encrypts whatever chunks it likes, over a stream that may
be cut off at any byte.

Main definitions:

* `Osprey.SnowTransport.Lockstep` — what is assumed of `snow`: a relation between a sending and a
  receiving state under which every ciphertext is one tag longer than its plaintext and is
  decrypted to it when the ciphertexts arrive in the order they were produced;
* `Osprey.sendAll`, `Osprey.recvMany` — a list of payloads sent, and a number of calls of `recv`.

Main results:

* `Osprey.splitIntoChunks_eq` — the sender's chunks are the chunks of one message, few enough and
  short enough for the receiver's caps;
* `Osprey.recvMany_sendAll` — **the round trip**: every payload arrives, in order, and then the end
  of the stream, for ever;
* `Osprey.recv_hostile` — **reassembly of arbitrary chunks**: exactly the well-formed messages
  within the caps are delivered, whole.
-/

import Osprey.NoiseSession

set_option relaxedAutoImplicit false
set_option autoImplicit false

namespace Osprey

open ByteIO

variable {T : Type}

/-! ### The sender's chunks -/

section Chunks

variable {α : Type}

theorem chunks_nil (n : ℕ) : chunks n ([] : List α) = [] := by
  rw [chunks]
  simp

theorem chunks_of_ne_nil {n : ℕ} (hn : 0 < n) {xs : List α} (hxs : xs ≠ []) :
    chunks n xs = xs.take n :: chunks n (xs.drop n) := by
  rw [chunks, if_pos ⟨hn, hxs⟩]

/-- The pieces put together again. -/
theorem flatten_chunks {n : ℕ} (hn : 0 < n) (xs : List α) : (chunks n xs).flatten = xs := by
  induction hm : xs.length using Nat.strong_induction_on generalizing xs with
  | _ m ih =>
      by_cases hxs : xs = []
      · simp [hxs, chunks_nil]
      · have hpos : 0 < xs.length := List.length_pos_iff.2 hxs
        rw [chunks_of_ne_nil hn hxs, List.flatten_cons, ih _ (by simp; omega) _ rfl,
          List.take_append_drop]

/-- No piece is empty or too long. -/
theorem length_of_mem_chunks {n : ℕ} (hn : 0 < n) (xs : List α) :
    ∀ c ∈ chunks n xs, c ≠ [] ∧ c.length ≤ n := by
  induction hm : xs.length using Nat.strong_induction_on generalizing xs with
  | _ m ih =>
      intro c hc
      by_cases hxs : xs = []
      · simp [hxs, chunks_nil] at hc
      · have hpos : 0 < xs.length := List.length_pos_iff.2 hxs
        rw [chunks_of_ne_nil hn hxs] at hc
        rcases List.mem_cons.1 hc with rfl | hc
        · refine ⟨?_, by simp⟩
          simp [hxs]
          omega
        · exact ih _ (by simp; omega) _ rfl c hc

/-- How many pieces there are. -/
theorem length_chunks {n : ℕ} (hn : 0 < n) (xs : List α) :
    (chunks n xs).length = divCeil xs.length n := by
  induction hm : xs.length using Nat.strong_induction_on generalizing xs with
  | _ m ih =>
      by_cases hxs : xs = []
      · subst hm
        simp only [hxs, chunks_nil, List.length_nil, divCeil]
        rw [Nat.div_eq_of_lt (by omega)]
      · have hpos : 0 < xs.length := List.length_pos_iff.2 hxs
        rw [chunks_of_ne_nil hn hxs, List.length_cons, ih _ (by simp; omega) _ rfl,
          List.length_drop, hm]
        simp only [divCeil]
        rcases Nat.lt_or_ge n m with hlt | hge
        · rw [show m + n - 1 = (m - n + n - 1) + n by omega, Nat.add_div_right _ hn]
        · rw [show m - n + n - 1 = n - 1 by omega, Nat.div_eq_of_lt (by omega),
            show m + n - 1 = (m - 1) + n by omega, Nat.add_div_right _ hn,
            Nat.div_eq_of_lt (by omega)]

end Chunks

/-- Flagging the last piece, and only it, as final gives the chunks of one message. -/
theorem mapIdx_flag_eq {parts : List Bytes} (hne : parts ≠ []) :
    ∀ total, total = parts.length →
      parts.mapIdx (fun i part => (if i + 1 = total then FLAG_FINAL else FLAG_MORE) :: part) =
        messageChunks parts.dropLast (parts.getLast hne) := by
  induction parts with
  | nil => exact absurd rfl hne
  | cons part parts ih =>
      intro total htotal
      cases parts with
      | nil => simp [htotal]
      | cons next parts =>
          have hrec := ih (by simp) (total - 1) (by simp [htotal])
          rw [List.mapIdx_cons]
          simp only [List.dropLast_cons_cons, messageChunks_cons,
            List.getLast_cons (List.cons_ne_nil next parts)]
          rw [← hrec, if_neg (by simp [htotal])]
          congr 2
          funext i chunk
          have : (i + 1 + 1 = total) ↔ (i + 1 = total - 1) := by omega
          simp [this]

/-- **What the sender emits**: the chunks of one message that reassembles to the payload, none of
its continuations empty, each of them short enough for one Noise message, and no more of them than
a receiver that admits the payload counts. -/
theorem splitIntoChunks_eq (payload : Bytes) :
    ∃ bodies last, splitIntoChunks payload = messageChunks bodies last ∧
      bodies.flatten ++ last = payload ∧ (∀ b ∈ bodies, b ≠ []) ∧
      (∀ c ∈ messageChunks bodies last, c.length ≤ NOISE_MAX_PLAINTEXT_LEN) ∧
      bodies.length ≤ payload.length / MAX_CHUNK_PAYLOAD_LEN := by
  by_cases hp : payload = []
  · exact ⟨[], [], by simp [splitIntoChunks, hp], by simp [hp], by simp,
      by simp [NOISE_MAX_PLAINTEXT_LEN, NOISE_MAX_MESSAGE_LEN, NOISE_TAG_LEN], by simp⟩
  have hpos : 0 < payload.length := List.length_pos_iff.2 hp
  have hn : 0 < MAX_CHUNK_PAYLOAD_LEN := by decide
  have hlen := length_chunks hn payload
  have hparts : chunks MAX_CHUNK_PAYLOAD_LEN payload ≠ [] := by
    rw [chunks_of_ne_nil hn hp]
    simp
  have hmem := length_of_mem_chunks hn payload
  have hflat := flatten_chunks hn payload
  -- exactly the last piece is flagged as final
  have heq : splitIntoChunks payload =
      messageChunks (chunks MAX_CHUNK_PAYLOAD_LEN payload).dropLast
        ((chunks MAX_CHUNK_PAYLOAD_LEN payload).getLast hparts) := by
    rw [splitIntoChunks, if_neg hp]
    exact mapIdx_flag_eq hparts _ hlen.symm
  generalize chunks MAX_CHUNK_PAYLOAD_LEN payload = parts at hlen hparts hmem hflat heq
  have hsub : ∀ b ∈ parts.dropLast, b ∈ parts := fun b hb => List.dropLast_subset _ hb
  refine ⟨parts.dropLast, parts.getLast hparts, heq, ?_, ?_, ?_, ?_⟩
  · have hsplit := congrArg List.flatten (List.dropLast_concat_getLast hparts)
    rw [List.flatten_append, List.flatten_singleton] at hsplit
    rw [hsplit, hflat]
  · exact fun b hb => (hmem b (hsub b hb)).1
  · intro c hc
    have hplain : NOISE_MAX_PLAINTEXT_LEN = MAX_CHUNK_PAYLOAD_LEN + 1 := by decide
    simp only [messageChunks, List.mem_append, List.mem_map, List.mem_singleton] at hc
    rcases hc with ⟨b, hb, rfl⟩ | rfl
    · have := (hmem b (hsub b hb)).2
      simp only [List.length_cons]
      omega
    · have := (hmem _ (List.getLast_mem hparts)).2
      simp only [List.length_cons]
      omega
  · -- one chunk fewer than the ceiling of the quotient is at most its floor
    have hceil : divCeil payload.length MAX_CHUNK_PAYLOAD_LEN ≤
        payload.length / MAX_CHUNK_PAYLOAD_LEN + 1 := by
      rw [← Nat.add_div_right _ hn]
      exact Nat.div_le_div_right (by omega)
    rw [List.length_dropLast, hlen]
    exact Nat.sub_le_of_le_add hceil

/-! ### The round trip -/

/-- **What is assumed of `snow`**: `Matched` relates a sending state to the receiving state of the
other end.  A plaintext that fits into a Noise message is encrypted to a ciphertext one tag
longer, the other end decrypts that ciphertext to it, and the two states match again. -/
def SnowTransport.Lockstep (snow : SnowTransport T) (Matched : T → T → Prop) : Prop :=
  ∀ {sending receiving : T} {plain : Bytes}, Matched sending receiving →
    plain.length ≤ NOISE_MAX_PLAINTEXT_LEN →
    ∃ cipher sending' receiving', snow.writeMessage sending plain = .ok (cipher, sending') ∧
      cipher.length = plain.length + NOISE_TAG_LEN ∧
      snow.readMessage receiving cipher = .ok (plain, receiving') ∧ Matched sending' receiving'

/-- Send the payloads one after the other on one stream. -/
def sendAll (snow : SnowTransport T) (s : NoiseSession T) (w : Writer) :
    List Bytes → Except Error Unit × NoiseSession T × Writer
  | [] => (.ok (), s, w)
  | payload :: rest =>
      match s.send snow payload w with
      | (.error e, s, w) => (.error e, s, w)
      | (.ok (), s, w) => sendAll snow s w rest

/-- The answers of `n` calls of `recv` on one stream. -/
def recvMany (snow : SnowTransport T) : ℕ → NoiseSession T → Reader →
    List (Except Error (Option Bytes))
  | 0, _, _ => []
  | n + 1, s, r =>
      let out := s.recv snow r
      out.result :: recvMany snow n { s with state := out.state } out.reader

/-! ### A toy cipher -/

/-- A stand-in for `snow` that can be run: the state counts the messages, and the tag of a
ciphertext is sixteen copies of the count.  As with the real cipher a ciphertext is one tag longer
than its plaintext, and it is refused out of turn or when its tag was changed. -/
def countingSnow : SnowTransport ℕ where
  writeMessage n plain :=
    if NOISE_MAX_PLAINTEXT_LEN < plain.length then .error ⟨"input error"⟩
    else .ok (plain ++ List.replicate NOISE_TAG_LEN (UInt8.ofNat n), n + 1)
  readMessage n cipher :=
    if NOISE_TAG_LEN ≤ cipher.length ∧
        cipher.drop (cipher.length - NOISE_TAG_LEN) = List.replicate NOISE_TAG_LEN (UInt8.ofNat n)
    then .ok (cipher.take (cipher.length - NOISE_TAG_LEN), n + 1)
    else .error ⟨"decrypt error"⟩

theorem countingSnow_lockstep :
    countingSnow.Lockstep fun sending receiving => sending = receiving := by
  intro n _ plain hmatch hlen
  subst hmatch
  refine ⟨plain ++ List.replicate NOISE_TAG_LEN (UInt8.ofNat n), n + 1, n + 1, ?_, by simp, ?_, rfl⟩
  · simp [countingSnow, Nat.not_lt.2 hlen]
  · simp [countingSnow]

section RoundTrip

variable {snow : SnowTransport T} {Matched : T → T → Prop}

/-- The chunk loop of the sender, seen from the other end: frames that decrypt to the chunks. -/
theorem sendChunks_lockstep (hsnow : snow.Lockstep Matched) {plains : List Bytes}
    (hplains : ∀ p ∈ plains, p.length ≤ NOISE_MAX_PLAINTEXT_LEN) {sending receiving : T}
    (hmatch : Matched sending receiving) (output : Bytes) :
    ∃ frames sending' receiving',
      sendChunks snow sending ⟨output, []⟩ plains =
        (.ok (), sending', ⟨output ++ wire frames, []⟩) ∧
      snow.Decrypts receiving frames plains receiving' ∧ Matched sending' receiving' ∧
      ∀ f ∈ frames, f.length ≤ NOISE_MAX_MESSAGE_LEN := by
  induction plains generalizing sending receiving output with
  | nil => exact ⟨[], sending, receiving, by simp [sendChunks], .nil _, hmatch, by simp⟩
  | cons plain plains ih =>
      have hplain : plain.length ≤ NOISE_MAX_PLAINTEXT_LEN := hplains _ (List.mem_cons_self ..)
      obtain ⟨cipher, sending₁, receiving₁, hwrite, hlen, hread, hmatch₁⟩ := hsnow hmatch hplain
      have hcipher : cipher.length ≤ NOISE_MAX_MESSAGE_LEN := by
        rw [hlen]
        exact Nat.add_le_of_le_sub (by decide) hplain
      obtain ⟨frames, sending', receiving', hsend, hdec, hmatch', hframes⟩ :=
        ih (fun p hp => hplains p (List.mem_cons_of_mem _ hp)) hmatch₁
          (output ++ encodeFrame cipher)
      refine ⟨cipher :: frames, sending', receiving', ?_, .cons hread hdec, hmatch', ?_⟩
      · have hreliable : Writer.Reliable ⟨output, []⟩ := rfl
        simp only [sendChunks, hwrite, writeFrame_reliable hreliable hcipher, hsend]
        simp
      · intro f hf
        rcases List.mem_cons.1 hf with rfl | hf
        · exact hcipher
        · exact hframes f hf

/-- One payload sent: frames that decrypt to its chunks. -/
theorem send_lockstep (hsnow : snow.Lockstep Matched) (s : NoiseSession T) {receiving : T}
    (hmatch : Matched s.state receiving) (payload output : Bytes) :
    ∃ frames sending' receiving',
      s.send snow payload ⟨output, []⟩ =
        (.ok (), { s with state := sending' }, ⟨output ++ wire frames, []⟩) ∧
      snow.Decrypts receiving frames (splitIntoChunks payload) receiving' ∧
      Matched sending' receiving' ∧ ∀ f ∈ frames, f.length ≤ NOISE_MAX_MESSAGE_LEN := by
  obtain ⟨bodies, last, heq, -, -, hshort, -⟩ := splitIntoChunks_eq payload
  rw [← heq] at hshort
  obtain ⟨frames, sending', receiving', hsend, hdec, hmatch', hframes⟩ :=
    sendChunks_lockstep hsnow hshort hmatch output
  refine ⟨frames, sending', receiving', ?_, hdec, hmatch', hframes⟩
  simp [NoiseSession.send, hsend, Writer.flush, Writer.writeAll]

/-- The frames of one payload received: the payload, and the stream behind it. -/
theorem recv_splitIntoChunks {receiver : NoiseSession T} {receiving' : T} {frames : List Bytes}
    {payload : Bytes} (hpayload : payload.length ≤ receiver.maxMessageLen)
    (hdec : snow.Decrypts receiver.state frames (splitIntoChunks payload) receiving')
    (hframes : ∀ f ∈ frames, f.length ≤ NOISE_MAX_MESSAGE_LEN) {r : Reader} (hr : r.Benign)
    {rest : Bytes} (hin : r.input = wire frames ++ rest) :
    ∃ r' : Reader, r'.Benign ∧ r'.input = rest ∧
      receiver.recv snow r = ⟨.ok (some payload), receiving', r'⟩ := by
  obtain ⟨bodies, last, heq, hflat, hne, -, hcount⟩ := splitIntoChunks_eq payload
  rw [heq] at hdec
  have hchunks : 0 + (bodies.length + 1) ≤ receiver.maxChunks := by
    have : payload.length / MAX_CHUNK_PAYLOAD_LEN ≤
        receiver.maxMessageLen / MAX_CHUNK_PAYLOAD_LEN := Nat.div_le_div_right hpayload
    simp only [NoiseSession.maxChunks]
    omega
  have hbytes : ([] : Bytes).length + (bodies.flatten ++ last).length ≤ receiver.maxMessageLen := by
    simpa [hflat] using hpayload
  obtain ⟨r', hr', hin', hloop⟩ :=
    recvLoop_message hdec hframes hne [] 0 hchunks hbytes hr hin
  refine ⟨r', hr', hin', ?_⟩
  rw [NoiseSession.recv, hloop, hflat]
  simp

/-- On an exhausted stream `recv` answers `Ok(None)`. -/
theorem recv_nil (snow : SnowTransport T) (s : NoiseSession T) {r : Reader} (hr : r.Benign)
    (hin : r.input = []) :
    ∃ r' : Reader, r'.Benign ∧ r'.input = [] ∧ s.recv snow r = ⟨.ok none, s.state, r'⟩ := by
  obtain ⟨r', hr', hin', hloop⟩ :=
    recvLoop_scan snow s.maxMessageLen s.maxChunks s.state hr [] 0
  rw [hin, scanFrame_nil] at hloop hin'
  exact ⟨r', hr', hin', hloop⟩

/-- It keeps doing so. -/
theorem recvMany_end (snow : SnowTransport T) (n : ℕ) {r : Reader} (hr : r.Benign)
    (hin : r.input = []) (receiver : NoiseSession T) :
    recvMany snow n receiver r = List.replicate n (.ok none) := by
  induction n generalizing r receiver with
  | zero => rfl
  | succ n ih =>
      obtain ⟨r', hr', hin', hrecv⟩ := recv_nil snow receiver hr hin
      rw [recvMany, List.replicate_succ, hrecv]
      exact congrArg _ (ih hr' hin' receiver)

/-- The conversation, behind whatever was written before it. -/
theorem recvMany_sendAll_append (hsnow : snow.Lockstep Matched) (payloads : List Bytes) :
    ∀ (sender receiver : NoiseSession T) (output : Bytes), Matched sender.state receiver.state →
      (∀ p ∈ payloads, p.length ≤ receiver.maxMessageLen) →
      ∃ sender' stream, sendAll snow sender ⟨output, []⟩ payloads =
          (.ok (), sender', ⟨output ++ stream, []⟩) ∧
        ∀ (n : ℕ) (r : Reader), r.Benign → r.input = stream →
          recvMany snow n receiver r = (List.range n).map fun i => .ok payloads[i]? := by
  induction payloads with
  | nil =>
      intro sender receiver output hmatch hlen
      refine ⟨sender, [], by simp [sendAll], ?_⟩
      intro n r hr hin
      rw [recvMany_end snow n hr hin receiver]
      simp [List.map_const']
  | cons payload payloads ih =>
      intro sender receiver output hmatch hlen
      -- the first payload leaves the two ends in lockstep for the others
      obtain ⟨frames, sending', receiving', hsend, hdec, hmatch', hframes⟩ :=
        send_lockstep hsnow sender hmatch payload output
      obtain ⟨sender', stream, hrest, hrecv⟩ := ih { sender with state := sending' }
        { receiver with state := receiving' } (output ++ wire frames) hmatch'
        (fun p hp => hlen p (List.mem_cons_of_mem _ hp))
      refine ⟨sender', wire frames ++ stream, ?_, ?_⟩
      · simp only [sendAll, hsend, hrest, List.append_assoc]
      · intro n r hr hin
        cases n with
        | zero => rfl
        | succ n =>
            obtain ⟨r', hr', hin', hone⟩ := recv_splitIntoChunks
              (hlen payload (List.mem_cons_self ..)) hdec hframes hr hin
            rw [recvMany, hone, List.range_succ_eq_map, List.map_cons, List.map_map]
            exact congrArg _ (hrecv n r' hr' hin')

/-- **The round trip over whole conversations.**  For every cap of the receiver, every list of
payloads within it, and every way the reader may cut the stream up or be interrupted: the payloads
are sent, and the `i`-th call of `recv` answers with the `i`-th of them, or with `Ok(None)` when
there are no more. -/
theorem recvMany_sendAll (hsnow : snow.Lockstep Matched) (sender receiver : NoiseSession T)
    (hmatch : Matched sender.state receiver.state) (payloads : List Bytes)
    (hpayloads : ∀ p ∈ payloads, p.length ≤ receiver.maxMessageLen)
    (script : List ReadStep) (hscript : ∀ s ∈ script, s.benign = true) (n : ℕ) :
    ∃ sender' stream,
      sendAll snow sender Writer.empty payloads = (.ok (), sender', ⟨stream, []⟩) ∧
      recvMany snow n receiver ⟨stream, script⟩ = (List.range n).map fun i => .ok payloads[i]? := by
  obtain ⟨sender', stream, hsend, hrecv⟩ :=
    recvMany_sendAll_append hsnow payloads sender receiver [] hmatch hpayloads
  exact ⟨sender', stream, hsend, hrecv n ⟨stream, script⟩ hscript rfl⟩

end RoundTrip

/-- A conversation of an empty payload and a short one, read a byte at a time with an
interruption: three calls of `recv`. -/
theorem recvMany_sendAll_short :
    ∃ sender' stream,
      sendAll countingSnow ⟨0, ⟨List.replicate 32 0, rfl⟩, 0⟩ Writer.empty [[], [7, 8]] =
        (.ok (), sender', ⟨stream, []⟩) ∧
      recvMany countingSnow 3 ⟨0, ⟨List.replicate 32 0, rfl⟩, 2⟩
          ⟨stream, [.upTo 0, .err .interrupted, .upTo 3]⟩ =
        (List.range 3).map fun i => .ok [[], [7, 8]][i]? :=
  recvMany_sendAll countingSnow_lockstep ⟨0, ⟨List.replicate 32 0, rfl⟩, 0⟩
    ⟨0, ⟨List.replicate 32 0, rfl⟩, 2⟩ rfl [[], [7, 8]] (by decide)
    [.upTo 0, .err .interrupted, .upTo 3] (by decide) 3

/-! ### Reassembly against a hostile sender -/

/-- The plaintexts of a stream cut off after `t` bytes start with the chunks of a message that a
receiver with cap `max` delivers: continuations with non-empty bodies `bodies`, one final chunk
with body `last`, within the chunk ceiling and the byte cap, and all of their frames before the
cut. -/
structure Deliverable (max : ℕ) (frames plains : List Bytes) (t : ℕ) (bodies : List Bytes)
    (last : Bytes) : Prop where
  chunks : messageChunks bodies last <+: plains
  nonempty : ∀ b ∈ bodies, b ≠ []
  count : bodies.length + 1 ≤ max / MAX_CHUNK_PAYLOAD_LEN + 2
  bytes : (bodies.flatten ++ last).length ≤ max
  whole : (wire (frames.take (bodies.length + 1))).length ≤ t

/-- A deliverable message is delivered, and its frames are what was read. -/
theorem recv_of_deliverable {snow : SnowTransport T} {s : NoiseSession T} {state' : T}
    {frames plains : List Bytes} (hdec : snow.Decrypts s.state frames plains state')
    (hframes : ∀ f ∈ frames, f.length ≤ NOISE_MAX_MESSAGE_LEN) {t : ℕ} {r : Reader}
    (hr : r.Benign) (hin : r.input = (wire frames).take t) {bodies : List Bytes} {last : Bytes}
    (h : Deliverable s.maxMessageLen frames plains t bodies last) :
    (s.recv snow r).result = .ok (some (bodies.flatten ++ last)) ∧
      (s.recv snow r).reader.input =
        r.input.drop (wire (frames.take (bodies.length + 1))).length := by
  obtain ⟨rest, rfl⟩ := h.chunks
  obtain ⟨state₁, hfirst, -⟩ := hdec.split
  rw [length_messageChunks] at hfirst
  -- the cut lies behind the last frame of the message
  have hcut : r.input = wire (frames.take (bodies.length + 1)) ++
      (wire (frames.drop (bodies.length + 1))).take
        (t - (wire (frames.take (bodies.length + 1))).length) := by
    have hwire : wire frames = wire (frames.take (bodies.length + 1)) ++
        wire (frames.drop (bodies.length + 1)) := by
      rw [← wire_append, List.take_append_drop]
    rw [hin]
    conv_lhs => rw [hwire]
    rw [List.take_append, List.take_of_length_le h.whole]
  have hcount : 0 + (bodies.length + 1) ≤ s.maxChunks := by
    simpa [NoiseSession.maxChunks] using h.count
  have hbytes : ([] : Bytes).length + (bodies.flatten ++ last).length ≤ s.maxMessageLen := by
    simpa using h.bytes
  obtain ⟨r', -, hin', hloop⟩ := recvLoop_message hfirst
    (fun f hf => hframes f (List.mem_of_mem_take hf)) h.nonempty [] 0 hcount hbytes hr hcut
  rw [NoiseSession.recv, hloop]
  refine ⟨by simp, ?_⟩
  rw [hin', hcut, List.drop_left]

/-- **Reassembly of arbitrary chunks.**  For every cap, every list of frames that decrypt to any
plaintexts whatever, every cut and every benign way of reading: `recv` delivers a message exactly
when the plaintexts before the cut start with its chunks and it is within the caps, and then it has
read its frames and no more; it answers `Ok(None)` exactly on the empty stream; in every other case
it fails; and it never reads more than `max / 65518 + 3` frames. -/
theorem recv_hostile (snow : SnowTransport T) (s : NoiseSession T) {state' : T}
    {frames plains : List Bytes} (hdec : snow.Decrypts s.state frames plains state')
    (hframes : ∀ f ∈ frames, f.length ≤ NOISE_MAX_MESSAGE_LEN) (t : ℕ) (r : Reader)
    (hr : r.Benign) (hin : r.input = (wire frames).take t) :
    (∀ m, (s.recv snow r).result = .ok (some m) ↔
      ∃ bodies last, Deliverable s.maxMessageLen frames plains t bodies last ∧
        m = bodies.flatten ++ last) ∧
    (∀ bodies last, Deliverable s.maxMessageLen frames plains t bodies last →
      (s.recv snow r).reader.input =
        r.input.drop (wire (frames.take (bodies.length + 1))).length) ∧
    ((s.recv snow r).result = .ok none ↔ r.input = []) ∧
    ((∃ e, (s.recv snow r).result = .error e) ↔
      r.input ≠ [] ∧ ¬∃ bodies last, Deliverable s.maxMessageLen frames plains t bodies last) ∧
    ∃ j, j ≤ s.maxMessageLen / MAX_CHUNK_PAYLOAD_LEN + 3 ∧
      (s.recv snow r).reader.input = r.input.drop (wire (frames.take j)).length := by
  obtain ⟨hout, j, hj, hrest⟩ := recvLoop_outcome s.maxMessageLen s.maxChunks hdec hframes [] 0
    (Nat.zero_le _) t hr hin
  have hmsg : ∀ bodies last, Deliverable s.maxMessageLen frames plains t bodies last →
      (s.recv snow r).result = .ok (some (bodies.flatten ++ last)) :=
    fun _ _ h => (recv_of_deliverable hdec hframes hr hin h).1
  have hnil : r.input = [] → (s.recv snow r).result = .ok none := by
    intro h
    obtain ⟨r', -, -, hrecv⟩ := recv_nil snow s hr h
    rw [hrecv]
  have hjle : j ≤ s.maxMessageLen / MAX_CHUNK_PAYLOAD_LEN + 3 := by
    simp only [NoiseSession.maxChunks] at hj
    omega
  refine ⟨?_, fun _ _ h => (recv_of_deliverable hdec hframes hr hin h).2, ?_, ?_, j, hjle, hrest⟩
  · -- a delivered message has its chunks at the head of the stream
    intro m
    constructor
    · intro hm
      rcases hout with ⟨bodies, last, hres, hpre, hne, hcount, hbytes, hwhole⟩ | ⟨e, he⟩ |
        ⟨hnone, -⟩
      · refine ⟨bodies, last, ⟨hpre, hne, ?_, by simpa using hbytes, hwhole⟩, ?_⟩
        · simpa [NoiseSession.maxChunks] using hcount
        · simpa using hm.symm.trans hres
      · exact absurd (hm.symm.trans he) (by simp)
      · exact absurd (hm.symm.trans hnone) (by simp)
    · rintro ⟨bodies, last, h, rfl⟩
      exact hmsg bodies last h
  · constructor
    · intro hm
      rcases hout with ⟨bodies, last, hres, -⟩ | ⟨e, he⟩ | ⟨-, -, hempty⟩
      · exact absurd (hm.symm.trans hres) (by simp)
      · exact absurd (hm.symm.trans he) (by simp)
      · exact hempty
    · exact hnil
  · constructor
    · rintro ⟨e, he⟩
      refine ⟨?_, ?_⟩
      · intro h
        exact absurd (he.symm.trans (hnil h)) (by simp)
      · rintro ⟨bodies, last, h⟩
        exact absurd (he.symm.trans (hmsg bodies last h)) (by simp)
    · rintro ⟨hne, hno⟩
      rcases hout with ⟨bodies, last, hres, hpre, hbodies, hcount, hbytes, hwhole⟩ | he |
        ⟨-, -, hempty⟩
      · refine absurd ⟨bodies, last, hpre, hbodies, ?_, by simpa using hbytes, hwhole⟩ hno
        simpa [NoiseSession.maxChunks] using hcount
      · exact he
      · exact absurd hempty hne

/-- A message of two chunks whose stream is cut off right behind it, on the toy cipher. -/
theorem recv_hostile_two_chunks :
    ((⟨0, ⟨List.replicate 32 0, rfl⟩, 2⟩ : NoiseSession ℕ).recv countingSnow
      ⟨(wire [[1, 5] ++ List.replicate 16 0, [0, 6] ++ List.replicate 16 1,
        [9] ++ List.replicate 16 2]).take 40, [.upTo 4]⟩).result = .ok (some [5, 6]) := by
  have hdec : countingSnow.Decrypts 0
      [[1, 5] ++ List.replicate 16 0, [0, 6] ++ List.replicate 16 1, [9] ++ List.replicate 16 2]
      [[1, 5], [0, 6], [9]] 3 :=
    .cons rfl (.cons rfl (.cons rfl (.nil 3)))
  refine ((recv_hostile countingSnow ⟨0, ⟨List.replicate 32 0, rfl⟩, 2⟩ hdec (by decide) 40
    ⟨_, [.upTo 4]⟩ (by decide) rfl).1 [5, 6]).2 ⟨[[5]], [6], ?_, rfl⟩
  exact ⟨by decide, by decide, by decide, by decide, by decide⟩

end Osprey
