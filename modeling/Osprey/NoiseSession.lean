/-
**The established Noise transport: chunked, framed, authenticated messages.**

`osprey-core/src/noise/session.rs`.  The cipher is `snow`'s and is a parameter: a transport state
and the two functions that encrypt and decrypt one message with it.  Everything the source does
around the cipher is translated: the chunk loop of `send`, and the reassembly loop of `recv` with
its two caps.

Main definitions:

* `Osprey.SnowTransport` — the transport half of `snow`;
* `Osprey.NoiseSession`, `Osprey.NoiseSession.send`, `Osprey.NoiseSession.recv` — the session;
* `Osprey.SnowTransport.Decrypts` — a list of ciphertexts decrypts, in order, to a list of
  plaintexts;
* `Osprey.messageChunks` — the chunk plaintexts of one message: continuations, then a final chunk;
* `Osprey.RecvOutcome` — what the reassembly loop may come to.

Main results:

* `Osprey.recvLoop_scan` — one round of the reassembly loop on a benign reader;
* `Osprey.recvLoop_message` — **completeness**: a well-formed message within the caps is delivered;
* `Osprey.recvLoop_outcome` — **soundness**: what the loop can do on any stream of frames, cut off
  anywhere.
-/

import Osprey.Framing

set_option relaxedAutoImplicit false
set_option autoImplicit false

namespace Osprey

open ByteIO

/-- A 32-byte key. -/
abbrev Key32 := { key : Bytes // key.length = 32 }

/-- `snow::TransportState`: one message is encrypted or decrypted at a time.  A failing call leaves
the state as it was. -/
structure SnowTransport (T : Type) where
  writeMessage : T → Bytes → Except SnowError (Bytes × T)
  readMessage : T → Bytes → Except SnowError (Bytes × T)

structure NoiseSession (T : Type) where
  state : T
  remoteStatic : Key32
  maxMessageLen : ℕ

/-- What one call of `recv` leaves behind: its answer, the session and the stream. -/
structure RecvOut (T : Type) where
  result : Except Error (Option Bytes)
  state : T
  reader : Reader

variable {T : Type}

namespace NoiseSession

def new (state : T) (remoteStatic : Key32) : NoiseSession T :=
  ⟨state, remoteStatic, DEFAULT_MAX_MESSAGE_LEN⟩

def setMaxMessageLen (s : NoiseSession T) (max : ℕ) : NoiseSession T :=
  { s with maxMessageLen := max }

/-- How many chunks an honest sender could need for a message of the permitted size. -/
def maxChunks (s : NoiseSession T) : ℕ := s.maxMessageLen / MAX_CHUNK_PAYLOAD_LEN + 2

end NoiseSession

/-! ### Sending -/

/-- The loop of `send`: encrypt and write one chunk after the other. -/
def sendChunks (snow : SnowTransport T) (state : T) (w : Writer) :
    List Bytes → Except Error Unit × T × Writer
  | [] => (.ok (), state, w)
  | chunk :: rest =>
      match snow.writeMessage state chunk with
      | .error e => (.error (.transportAuth e), state, w)
      | .ok (cipher, state) =>
          match writeFrame w cipher with
          | (.error e, w) => (.error e, state, w)
          | (.ok (), w) => sendChunks snow state w rest

/-- Encrypt and write `payload`, chunking it across as many Noise messages as needed. -/
def NoiseSession.send (snow : SnowTransport T) (s : NoiseSession T) (payload : Bytes) (w : Writer) :
    Except Error Unit × NoiseSession T × Writer :=
  match sendChunks snow s.state w (splitIntoChunks payload) with
  | (.error e, state, w) => (.error e, { s with state }, w)
  | (.ok (), state, w) =>
      match w.flush with
      | (.error kind, w) => (.error (.io kind), { s with state }, w)
      | (.ok (), w) => (.ok (), { s with state }, w)

/-! ### Receiving -/

/-- What the loop of `recv` does with one frame: count it, decrypt it, check it, append its body.
Answers whether the chunk was the final one, and the bytes assembled so far. -/
def acceptChunk (snow : SnowTransport T) (maxLen maxChunks : ℕ) (state : T) (frame : Bytes)
    (assembled : Bytes) (chunks : ℕ) : Except Error (Bool × Bytes) × T :=
  if maxChunks < chunks + 1 then (.error (.tooManyChunks maxChunks), state)
  else
    match snow.readMessage state frame with
    | .error e => (.error (.transportAuth e), state)
    | .ok (plain, state) =>
        match splitChunkHeader plain with
        | .error e => (.error e, state)
        | .ok (finalChunk, body) =>
            if !finalChunk && body.isEmpty then (.error .emptyContinuationChunk, state)
            else if maxLen < assembled.length + body.length then
              (.error (.messageTooLarge maxLen), state)
            else (.ok (finalChunk, assembled ++ body), state)

/-- A chunk past the ceiling is refused, so the loop of `recv` ends. -/
theorem acceptChunk_ok_lt {snow : SnowTransport T} {maxLen maxChunks : ℕ} {state state' : T}
    {frame assembled : Bytes} {chunks : ℕ} {answer : Bool × Bytes}
    (h : acceptChunk snow maxLen maxChunks state frame assembled chunks = (.ok answer, state')) :
    chunks < maxChunks := by
  unfold acceptChunk at h
  split_ifs at h with hlt
  · simp at h
  · omega

/-- The loop of `recv`. -/
def recvLoop (snow : SnowTransport T) (maxLen maxChunks : ℕ) (state : T) (r : Reader)
    (assembled : Bytes) (chunks : ℕ) : RecvOut T :=
  match readFrame r with
  | (.error e, r) => ⟨.error e, state, r⟩
  | (.ok .eof, r) =>
      if chunks = 0 then ⟨.ok none, state, r⟩ else ⟨.error (.truncatedFrame 0 2), state, r⟩
  | (.ok (.frame frame), r) =>
      match _h : acceptChunk snow maxLen maxChunks state frame assembled chunks with
      | (.error e, state) => ⟨.error e, state, r⟩
      | (.ok (true, assembled), state) => ⟨.ok (some assembled), state, r⟩
      | (.ok (false, assembled), state) =>
          recvLoop snow maxLen maxChunks state r assembled (chunks + 1)
termination_by maxChunks - chunks
decreasing_by
  have := acceptChunk_ok_lt _h
  omega

/-- Read, decrypt and reassemble one logical message. -/
def NoiseSession.recv (snow : SnowTransport T) (s : NoiseSession T) (r : Reader) : RecvOut T :=
  recvLoop snow s.maxMessageLen s.maxChunks s.state r [] 0

/-- One round of the loop on a benign reader: the frame is the one at the head of the bytes, and
what the round does with it depends on `Osprey.acceptChunk` alone. -/
theorem recvLoop_scan (snow : SnowTransport T) (maxLen maxChunks : ℕ) (state : T) {r : Reader}
    (hr : r.Benign) (assembled : Bytes) (chunks : ℕ) :
    ∃ r' : Reader, r'.Benign ∧ r'.input = (scanFrame r.input).2 ∧
      recvLoop snow maxLen maxChunks state r assembled chunks =
        match (scanFrame r.input).1 with
        | .error e => ⟨.error e, state, r'⟩
        | .ok .eof =>
            if chunks = 0 then ⟨.ok none, state, r'⟩ else ⟨.error (.truncatedFrame 0 2), state, r'⟩
        | .ok (.frame frame) =>
            match acceptChunk snow maxLen maxChunks state frame assembled chunks with
            | (.error e, state) => ⟨.error e, state, r'⟩
            | (.ok (true, assembled), state) => ⟨.ok (some assembled), state, r'⟩
            | (.ok (false, assembled), state) =>
                recvLoop snow maxLen maxChunks state r' assembled (chunks + 1) := by
  obtain ⟨r', hread, hin, hr'⟩ := readFrame_benign hr
  refine ⟨r', hr', hin, ?_⟩
  rw [recvLoop, hread]
  rcases (scanFrame r.input).1 with e | (frame | _)
  · rfl
  · simp only
    rcases hacc : acceptChunk snow maxLen maxChunks state frame assembled chunks with
      ⟨e | ⟨_ | _, asm⟩, st⟩ <;> simp only
  · rfl

/-! ### The chunks of one message -/

/-- The ciphertexts `frames` decrypt, one after the other, to the plaintexts `plains`. -/
inductive SnowTransport.Decrypts (snow : SnowTransport T) : T → List Bytes → List Bytes → T → Prop
  | nil (state : T) : Decrypts snow state [] [] state
  | cons {state state' state'' : T} {frame plain : Bytes} {frames plains : List Bytes} :
      snow.readMessage state frame = .ok (plain, state') →
      Decrypts snow state' frames plains state'' →
      Decrypts snow state (frame :: frames) (plain :: plains) state''

/-- A prefix of the plaintexts comes from a prefix of the ciphertexts. -/
theorem SnowTransport.Decrypts.split {snow : SnowTransport T} {s₁ s₃ : T}
    {ps qs : List Bytes} : ∀ {fs : List Bytes}, snow.Decrypts s₁ fs (ps ++ qs) s₃ →
      ∃ s₂, snow.Decrypts s₁ (fs.take ps.length) ps s₂ ∧
        snow.Decrypts s₂ (fs.drop ps.length) qs s₃ := by
  induction ps generalizing s₁ with
  | nil => intro fs h; exact ⟨s₁, by simpa using Decrypts.nil s₁, by simpa using h⟩
  | cons p ps ih =>
      intro fs h
      cases h with
      | cons hread h =>
          obtain ⟨s₂, h₁, h₂⟩ := ih h
          exact ⟨s₂, by simpa using Decrypts.cons hread h₁, by simpa using h₂⟩

/-- The chunk plaintexts of one message: continuation chunks with bodies `bodies`, then the final
chunk with body `last`. -/
def messageChunks (bodies : List Bytes) (last : Bytes) : List Bytes :=
  bodies.map (FLAG_MORE :: ·) ++ [FLAG_FINAL :: last]

@[simp] theorem length_messageChunks (bodies : List Bytes) (last : Bytes) :
    (messageChunks bodies last).length = bodies.length + 1 := by
  simp [messageChunks]

@[simp] theorem messageChunks_nil (last : Bytes) : messageChunks [] last = [FLAG_FINAL :: last] :=
  rfl

@[simp] theorem messageChunks_cons (body : Bytes) (bodies : List Bytes) (last : Bytes) :
    messageChunks (body :: bodies) last = (FLAG_MORE :: body) :: messageChunks bodies last := rfl

/-- A chunk that the loop may still count is accepted when its body is within the byte cap and it
is not an empty continuation. -/
theorem acceptChunk_of_read {snow : SnowTransport T} {maxLen maxChunks : ℕ} {state state' : T}
    {frame plain assembled body : Bytes} {chunks : ℕ} {finalChunk : Bool}
    (hc : chunks < maxChunks) (hread : snow.readMessage state frame = .ok (plain, state'))
    (hplain : splitChunkHeader plain = .ok (finalChunk, body))
    (hbody : finalChunk = false → body ≠ []) (hlen : assembled.length + body.length ≤ maxLen) :
    acceptChunk snow maxLen maxChunks state frame assembled chunks =
      (.ok (finalChunk, assembled ++ body), state') := by
  have hempty : (!finalChunk && body.isEmpty) = false := by
    cases finalChunk <;> simp_all
  simp [acceptChunk, Nat.not_lt.2 hc, hread, hplain, hempty, Nat.not_lt.2 hlen]

/-- **Completeness**: the chunks of a message within the two caps are reassembled into it, and
nothing behind them is read. -/
theorem recvLoop_message {snow : SnowTransport T} {maxLen maxChunks : ℕ} {state state' : T}
    {frames : List Bytes} {bodies : List Bytes} {last : Bytes}
    (hdec : snow.Decrypts state frames (messageChunks bodies last) state')
    (hframes : ∀ f ∈ frames, f.length ≤ NOISE_MAX_MESSAGE_LEN) (hbodies : ∀ b ∈ bodies, b ≠ [])
    (assembled : Bytes) (chunks : ℕ) (hchunks : chunks + (bodies.length + 1) ≤ maxChunks)
    (hlen : assembled.length + (bodies.flatten ++ last).length ≤ maxLen)
    {r : Reader} (hr : r.Benign) {rest : Bytes} (hin : r.input = wire frames ++ rest) :
    ∃ r' : Reader, r'.Benign ∧ r'.input = rest ∧
      recvLoop snow maxLen maxChunks state r assembled chunks =
        ⟨.ok (some (assembled ++ (bodies.flatten ++ last))), state', r'⟩ := by
  induction bodies generalizing state frames assembled chunks r with
  | nil =>
      cases hdec with
      | cons hread hnil =>
          cases hnil
          obtain ⟨r', hr', hin', hloop⟩ :=
            recvLoop_scan snow maxLen maxChunks state hr assembled chunks
          rw [hin, wire_cons, wire_nil, List.append_nil,
            scanFrame_encodeFrame (hframes _ (List.mem_cons_self ..))] at hloop hin'
          have hacc : acceptChunk snow maxLen maxChunks state _ assembled chunks = _ :=
            acceptChunk_of_read (by simpa using hchunks) hread
              (splitChunkHeader_final last) (by simp) (by simpa using hlen)
          refine ⟨r', hr', hin', ?_⟩
          rw [hloop]
          simp only [hacc]
          simp
  | cons body bodies ih =>
      cases hdec with
      | cons hread hdec =>
          obtain ⟨r₁, hr₁, hin₁, hloop⟩ :=
            recvLoop_scan snow maxLen maxChunks state hr assembled chunks
          rw [hin, wire_cons, List.append_assoc,
            scanFrame_encodeFrame (hframes _ (List.mem_cons_self ..))] at hloop hin₁
          simp only [List.length_cons] at hchunks
          simp only [List.flatten_cons, List.append_assoc, List.length_append] at hlen
          have hacc : acceptChunk snow maxLen maxChunks state _ assembled chunks = _ :=
            acceptChunk_of_read (by omega) hread (splitChunkHeader_more body)
              (fun _ => hbodies body (List.mem_cons_self ..)) (by omega)
          -- the loop goes on behind the frame, with one chunk more to its count
          obtain ⟨r', hr', hin', hrec⟩ := ih hdec
            (fun f hf => hframes f (List.mem_cons_of_mem _ hf))
            (fun b hb => hbodies b (List.mem_cons_of_mem _ hb)) (assembled ++ body) (chunks + 1)
            (by omega) (by simp only [List.length_append]; omega) hr₁ hin₁
          refine ⟨r', hr', hin', ?_⟩
          rw [hloop]
          simp only [hacc]
          rw [hrec]
          simp

/-- What one accepted chunk was. -/
theorem acceptChunk_eq_ok {snow : SnowTransport T} {maxLen maxChunks : ℕ} {state state' : T}
    {frame assembled assembled' : Bytes} {chunks : ℕ} {finalChunk : Bool}
    (h : acceptChunk snow maxLen maxChunks state frame assembled chunks =
      (.ok (finalChunk, assembled'), state')) :
    ∃ plain body, snow.readMessage state frame = .ok (plain, state') ∧
      splitChunkHeader plain = .ok (finalChunk, body) ∧ (finalChunk = false → body ≠ []) ∧
      assembled' = assembled ++ body ∧ assembled'.length ≤ maxLen := by
  unfold acceptChunk at h
  split_ifs at h with hc
  · simp at h
  · rcases hread : snow.readMessage state frame with e | ⟨plain, st⟩
    · simp [hread] at h
    · rcases hsplit : splitChunkHeader plain with e | ⟨fin, body⟩
      · simp [hread, hsplit] at h
      · simp only [hread, hsplit] at h
        split_ifs at h with hempty hbig
        · simp at h
        · simp at h
        · simp only [Prod.mk.injEq, Except.ok.injEq] at h
          obtain ⟨⟨rfl, rfl⟩, rfl⟩ := h
          refine ⟨plain, body, rfl, hsplit, ?_, rfl, by simp; omega⟩
          intro hf
          simpa [hf] using hempty

/-- What the loop may come to on a stream of `frames` that decrypt to `plains`, cut off after `t`
bytes.  It delivers a message, and then the plaintexts start with its chunks, all of them lie before
the cut, and it is within the caps; or it fails; or the stream was empty at the start of the
message. It has read no more than one frame past the chunk ceiling. -/
def RecvOutcome (maxLen maxChunks : ℕ) (frames plains : List Bytes) (t : ℕ) (r : Reader)
    (assembled : Bytes) (chunks : ℕ) (out : RecvOut T) : Prop :=
  ((∃ bodies last, out.result = .ok (some (assembled ++ (bodies.flatten ++ last))) ∧
        messageChunks bodies last <+: plains ∧ (∀ b ∈ bodies, b ≠ []) ∧
        chunks + (bodies.length + 1) ≤ maxChunks ∧
        assembled.length + (bodies.flatten ++ last).length ≤ maxLen ∧
        (wire (frames.take (bodies.length + 1))).length ≤ t) ∨
      (∃ e, out.result = .error e) ∨
      (out.result = .ok none ∧ chunks = 0 ∧ r.input = [])) ∧
    ∃ j, chunks + j ≤ maxChunks + 1 ∧
      out.reader.input = r.input.drop (wire (frames.take j)).length

/-- The stream has ended. -/
theorem recvOutcome_end (snow : SnowTransport T) (maxLen maxChunks : ℕ) (state : T)
    (frames plains : List Bytes) (t : ℕ) {r : Reader} (hr : r.Benign) (hnil : r.input = [])
    (assembled : Bytes) {chunks : ℕ} (hchunks : chunks ≤ maxChunks) :
    RecvOutcome maxLen maxChunks frames plains t r assembled chunks
      (recvLoop snow maxLen maxChunks state r assembled chunks) := by
  obtain ⟨r', hr', hin', hloop⟩ := recvLoop_scan snow maxLen maxChunks state hr assembled chunks
  rw [hnil, scanFrame_nil] at hloop hin'
  simp only at hloop
  rw [hloop]
  refine ⟨?_, 0, by omega, ?_⟩
  · split_ifs with h0
    · exact Or.inr (Or.inr ⟨rfl, h0, hnil⟩)
    · exact Or.inr (Or.inl ⟨_, rfl⟩)
  · split_ifs <;> simp [hin', hnil]

/-- One complete frame with a continuation chunk comes before. -/
theorem RecvOutcome.more {maxLen maxChunks : ℕ} {frame body : Bytes} {frames plains : List Bytes}
    {t : ℕ} {r r' : Reader} {assembled : Bytes} {chunks : ℕ} {out : RecvOut T}
    (h : RecvOutcome maxLen maxChunks frames plains (t - (encodeFrame frame).length) r'
      (assembled ++ body) (chunks + 1) out)
    (hbody : body ≠ []) (hwhole : (encodeFrame frame).length ≤ t)
    (hin : r.input = encodeFrame frame ++ r'.input) :
    RecvOutcome maxLen maxChunks (frame :: frames) ((FLAG_MORE :: body) :: plains) t r assembled
      chunks out := by
  obtain ⟨hout, j, hj, hrest⟩ := h
  refine ⟨?_, j + 1, by omega, ?_⟩
  · rcases hout with ⟨bodies, last, hres, hpre, hne, hcount, hbytes, hfit⟩ | hfail | hnone
    · refine Or.inl ⟨body :: bodies, last, ?_, ?_, ?_, ?_, ?_, ?_⟩
      · rw [hres]
        simp
      · rw [messageChunks_cons]
        exact (List.prefix_cons_inj _).2 hpre
      · intro b hb
        rcases List.mem_cons.1 hb with rfl | hb
        · exact hbody
        · exact hne b hb
      · simp only [List.length_cons]
        omega
      · simp only [List.flatten_cons, List.append_assoc, List.length_append] at hbytes ⊢
        omega
      · simp only [List.length_cons, List.take_succ_cons, wire_cons, List.length_append]
        omega
    · exact Or.inr (Or.inl hfail)
    · exact absurd hnone.2.1 (by omega)
  · rw [hrest, hin, List.take_succ_cons, wire_cons, List.length_append, List.drop_append]
    simp

/-- **Soundness**: what the loop comes to on any stream of frames, cut off anywhere. -/
theorem recvLoop_outcome {snow : SnowTransport T} (maxLen maxChunks : ℕ) {state state' : T}
    {frames plains : List Bytes} (hdec : snow.Decrypts state frames plains state')
    (hframes : ∀ f ∈ frames, f.length ≤ NOISE_MAX_MESSAGE_LEN)
    (assembled : Bytes) (chunks : ℕ) (hchunks : chunks ≤ maxChunks)
    (t : ℕ) {r : Reader} (hr : r.Benign) (hin : r.input = (wire frames).take t) :
    RecvOutcome maxLen maxChunks frames plains t r assembled chunks
      (recvLoop snow maxLen maxChunks state r assembled chunks) := by
  induction hdec generalizing assembled chunks t r with
  | nil state =>
      exact recvOutcome_end snow maxLen maxChunks state _ _ t hr (by simpa using hin) assembled
        hchunks
  | @cons state state₁ state₂ frame plain frames plains hread hdec ih =>
      have hlenf : frame.length ≤ NOISE_MAX_MESSAGE_LEN := hframes _ (List.mem_cons_self ..)
      -- The cut is before the next frame, inside it, or behind it.
      rcases Nat.eq_zero_or_pos t with rfl | hpos
      · exact recvOutcome_end snow maxLen maxChunks state _ _ 0 hr (by simpa using hin) assembled
          hchunks
      obtain ⟨r', hr', hin', hloop⟩ := recvLoop_scan snow maxLen maxChunks state hr assembled chunks
      rcases Nat.lt_or_ge t (encodeFrame frame).length with hcut | hwhole
      · obtain ⟨got, want, hscan⟩ := scanFrame_take_encodeFrame hlenf hpos hcut
        have htake : r.input = (encodeFrame frame).take t := by
          rw [hin, wire_cons, List.take_append_of_le_length (by omega)]
        rw [htake, hscan] at hloop hin'
        simp only at hloop
        rw [hloop]
        refine ⟨Or.inr (Or.inl ⟨_, rfl⟩), 1, by omega, ?_⟩
        simp only [hin', htake]
        simp
      · have htake : r.input =
            encodeFrame frame ++ (wire frames).take (t - (encodeFrame frame).length) := by
          rw [hin, wire_cons, List.take_append, List.take_of_length_le hwhole]
        rw [htake, scanFrame_encodeFrame hlenf] at hloop hin'
        simp only at hloop hin'
        rcases hacc : acceptChunk snow maxLen maxChunks state frame assembled chunks with
          ⟨e | ⟨fin, asm⟩, st⟩
        · simp only [hacc] at hloop
          rw [hloop]
          refine ⟨Or.inr (Or.inl ⟨e, rfl⟩), 1, by omega, ?_⟩
          simp [hin', htake]
        · have hc := acceptChunk_ok_lt hacc
          obtain ⟨plain', body, hread', hplain, hbody, rfl, hlen⟩ := acceptChunk_eq_ok hacc
          obtain ⟨rfl, rfl⟩ : plain' = plain ∧ st = state₁ := by
            rw [hread] at hread'
            simpa using hread'.symm
          cases fin with
          | true =>
              simp only [hacc] at hloop
              rw [hloop]
              obtain rfl := splitChunkHeader_eq_final hplain
              refine ⟨Or.inl ⟨[], body, by simp, ⟨plains, by simp⟩, by simp, ?_, ?_, ?_⟩,
                1, by omega, ?_⟩
              · simpa using hc
              · simpa using hlen
              · simpa using hwhole
              · simp [hin', htake]
          | false =>
              simp only [hacc] at hloop
              rw [hloop]
              obtain rfl := splitChunkHeader_eq_more hplain
              have hrest := ih (fun f hf => hframes f (List.mem_cons_of_mem _ hf))
                (assembled ++ body) (chunks + 1) hc (t - (encodeFrame frame).length) hr' hin'
              exact hrest.more (hbody rfl) hwhole (by rw [htake, hin'])

end Osprey
