/-
**Length-prefix framing and chunking.**

`osprey-core/src/noise/framing.rs`: every Noise message travels behind a two-byte big-endian
length, and a payload is cut into chunks whose first byte says whether more follow.  The functions
are translated as the source has them, on the scripted streams of `Osprey/ByteStream.lean`.

The reader loops over short reads and interruptions; the parse it performs is a function of the
bytes alone.  That function is `Osprey.scanFrame`, and the rest of the development reasons about
it instead of about the loop.

Main definitions:

* `Osprey.writeFrame`, `Osprey.readFrame`, `Osprey.readExactOrEof` — the framed stream;
* `Osprey.splitIntoChunks`, `Osprey.splitChunkHeader` — the chunks of a payload;
* `Osprey.encodeFrame`, `Osprey.wire` — the bytes a frame, and a list of frames, occupies;
* `Osprey.scanFrame` — the frame at the head of a byte string.

Main results:

* `Osprey.readExactOrEof_benign` — the fill loop does not see how its input is cut up;
* `Osprey.readFrame_benign` — **a benign reader is a parser of its bytes**;
* `Osprey.scanFrame_encodeFrame`, `Osprey.scanFrame_take_encodeFrame` — what the parser makes of a
  whole frame and of a part of one;
* `Osprey.writeFrame_reliable` — what is written is the encoding.
-/

import Osprey.Error

set_option relaxedAutoImplicit false
set_option autoImplicit false

namespace Osprey

open ByteIO

/-! ### Constants -/

def NOISE_MAX_MESSAGE_LEN : ℕ := 65535

def NOISE_TAG_LEN : ℕ := 16

def NOISE_MAX_PLAINTEXT_LEN : ℕ := NOISE_MAX_MESSAGE_LEN - NOISE_TAG_LEN

def CHUNK_HEADER_LEN : ℕ := 1

def MAX_CHUNK_PAYLOAD_LEN : ℕ := NOISE_MAX_PLAINTEXT_LEN - CHUNK_HEADER_LEN

def DEFAULT_MAX_MESSAGE_LEN : ℕ := 4 * 1024 * 1024

def FLAG_FINAL : UInt8 := 0x00

def FLAG_MORE : UInt8 := 0x01

/-! ### Frames -/

/-- Outcome of reading one frame from a stream; the source leaves the frame in the caller's
buffer. -/
inductive FrameRead
  | frame (out : Bytes)
  | eof
  deriving DecidableEq, Repr

/-- `u16::to_be_bytes`. -/
def toBeBytes (n : ℕ) : Bytes := [UInt8.ofNat (n / 256), UInt8.ofNat (n % 256)]

/-- `u16::from_be_bytes`. -/
def fromBeBytes (hi lo : UInt8) : ℕ := hi.toNat * 256 + lo.toNat

theorem fromBeBytes_toBeBytes {n : ℕ} (h : n ≤ NOISE_MAX_MESSAGE_LEN) :
    fromBeBytes (UInt8.ofNat (n / 256)) (UInt8.ofNat (n % 256)) = n := by
  simp only [fromBeBytes, NOISE_MAX_MESSAGE_LEN, UInt8.toNat_ofNat'] at *
  omega

theorem fromBeBytes_le (hi lo : UInt8) : fromBeBytes hi lo ≤ NOISE_MAX_MESSAGE_LEN := by
  have h₁ := hi.toNat_lt
  have h₂ := lo.toNat_lt
  simp only [fromBeBytes, NOISE_MAX_MESSAGE_LEN]
  omega

/-- Write one length-prefixed Noise message.  The source's `u16::try_from` cannot fail after the
first check. -/
def writeFrame (w : Writer) (message : Bytes) : Except Error Unit × Writer :=
  if NOISE_MAX_MESSAGE_LEN < message.length then
    (.error (.frameTooLarge message.length NOISE_MAX_MESSAGE_LEN), w)
  else
    match w.writeAll (toBeBytes message.length) with
    | (.error kind, w) => (.error (.io kind), w)
    | (.ok (), w) =>
        match w.writeAll message with
        | (.error kind, w) => (.error (.io kind), w)
        | (.ok (), w) => (.ok (), w)

/-- Fill a buffer that still has room for `want` bytes, returning what was read before the end of
the stream.  An interrupted read is retried. -/
def readExactOrEof (r : Reader) (want : ℕ) : Except Error Bytes × Reader :=
  if want = 0 then (.ok [], r)
  else
    match _h : r.read want with
    | (.ok [], r') => (.ok [], r')
    | (.ok (b :: bs), r') =>
        match readExactOrEof r' (want - (b :: bs).length) with
        | (.ok rest, r'') => (.ok ((b :: bs) ++ rest), r'')
        | (.error e, r'') => (.error e, r'')
    | (.error .interrupted, r') => readExactOrEof r' want
    | (.error kind, r') => (.error (.io kind), r')
termination_by r.script.length + want
decreasing_by
  · have := r.read_script_le want
    simp_all
    omega
  · have := Reader.read_script_lt _h
    omega

/-- Read one length-prefixed Noise message. -/
def readFrame (r : Reader) : Except Error FrameRead × Reader :=
  match readExactOrEof r 2 with
  | (.error e, r) => (.error e, r)
  | (.ok [], r) => (.ok .eof, r)
  | (.ok [hi, lo], r) =>
      let want := fromBeBytes hi lo
      match readExactOrEof r want with
      | (.error e, r) => (.error e, r)
      | (.ok out, r) =>
          if out.length = want then (.ok (.frame out), r)
          else (.error (.truncatedFrame out.length want), r)
  | (.ok got, r) => (.error (.truncatedFrame got.length 2), r)

/-! ### Chunks -/

/-- `slice::chunks`: consecutive pieces of `n` elements, the last one possibly shorter. -/
def chunks {α : Type} (n : ℕ) (xs : List α) : List (List α) :=
  if 0 < n ∧ xs ≠ [] then xs.take n :: chunks n (xs.drop n) else []
termination_by xs.length
decreasing_by
  have : 0 < xs.length := List.length_pos_iff.2 (by tauto)
  simp
  omega

/-- `usize::div_ceil`. -/
def divCeil (n d : ℕ) : ℕ := (n + d - 1) / d

/-- Split a payload into chunk plaintexts, each prefixed with its continuation flag. -/
def splitIntoChunks (payload : Bytes) : List Bytes :=
  if payload = [] then [[FLAG_FINAL]]
  else
    let total := divCeil payload.length MAX_CHUNK_PAYLOAD_LEN
    (chunks MAX_CHUNK_PAYLOAD_LEN payload).mapIdx fun i part =>
      (if i + 1 = total then FLAG_FINAL else FLAG_MORE) :: part

/-- Strip and interpret a chunk's continuation flag. -/
def splitChunkHeader (chunk : Bytes) : Except Error (Bool × Bytes) :=
  match chunk with
  | [] => .error .emptyChunk
  | flag :: body =>
      if flag = FLAG_FINAL then .ok (true, body)
      else if flag = FLAG_MORE then .ok (false, body)
      else .error (.badContinuationFlag flag)

@[simp] theorem splitChunkHeader_final (body : Bytes) :
    splitChunkHeader (FLAG_FINAL :: body) = .ok (true, body) := rfl

@[simp] theorem splitChunkHeader_more (body : Bytes) :
    splitChunkHeader (FLAG_MORE :: body) = .ok (false, body) := rfl

/-- A chunk is accepted as final exactly when its flag is `FLAG_FINAL`. -/
theorem splitChunkHeader_eq_final {chunk body : Bytes}
    (h : splitChunkHeader chunk = .ok (true, body)) : chunk = FLAG_FINAL :: body := by
  unfold splitChunkHeader at h
  split at h
  · simp at h
  · split_ifs at h <;> simp_all

/-- A chunk is accepted as a continuation exactly when its flag is `FLAG_MORE`. -/
theorem splitChunkHeader_eq_more {chunk body : Bytes}
    (h : splitChunkHeader chunk = .ok (false, body)) : chunk = FLAG_MORE :: body := by
  unfold splitChunkHeader at h
  split at h
  · simp at h
  · split_ifs at h <;> simp_all

/-! ### The bytes of a frame -/

/-- The bytes one frame occupies on the stream. -/
def encodeFrame (message : Bytes) : Bytes := toBeBytes message.length ++ message

/-- The bytes a list of frames occupies on the stream. -/
def wire (frames : List Bytes) : Bytes := frames.flatMap encodeFrame

@[simp] theorem length_encodeFrame (message : Bytes) :
    (encodeFrame message).length = message.length + 2 := by
  simp [encodeFrame, toBeBytes]

@[simp] theorem wire_nil : wire [] = [] := rfl

@[simp] theorem wire_cons (frame : Bytes) (frames : List Bytes) :
    wire (frame :: frames) = encodeFrame frame ++ wire frames := rfl

@[simp] theorem wire_append (fs gs : List Bytes) : wire (fs ++ gs) = wire fs ++ wire gs := by
  simp [wire]

/-- Writing to a stream that does not fail appends the encoding. -/
theorem writeFrame_reliable {w : Writer} (hw : w.Reliable) {message : Bytes}
    (hlen : message.length ≤ NOISE_MAX_MESSAGE_LEN) :
    writeFrame w message = (.ok (), ⟨w.output ++ encodeFrame message, []⟩) := by
  have hout : Writer.Reliable ⟨w.output ++ toBeBytes message.length, []⟩ := rfl
  rw [writeFrame, if_neg (by omega), Writer.writeAll_reliable hw]
  simp only
  rw [Writer.writeAll_reliable hout]
  simp [encodeFrame]

/-! ### Reading is parsing -/

/-- The frame at the head of a byte string, and what is left after it: what `Osprey.readFrame`
computes on a stream that holds `input` and then ends. -/
def scanFrame (input : Bytes) : Except Error FrameRead × Bytes :=
  match input with
  | [] => (.ok .eof, [])
  | [_] => (.error (.truncatedFrame 1 2), [])
  | hi :: lo :: rest =>
      if fromBeBytes hi lo ≤ rest.length then
        (.ok (.frame (rest.take (fromBeBytes hi lo))), rest.drop (fromBeBytes hi lo))
      else (.error (.truncatedFrame rest.length (fromBeBytes hi lo)), [])

/-! One call of `read` inside the fill loop, by its outcome. -/

theorem readExactOrEof_zero (r : Reader) : readExactOrEof r 0 = (.ok [], r) := by
  rw [readExactOrEof]
  simp

theorem readExactOrEof_end {r r' : Reader} {want : ℕ} (hw : want ≠ 0)
    (h : r.read want = (.ok [], r')) : readExactOrEof r want = (.ok [], r') := by
  rw [readExactOrEof, if_neg hw]
  split <;> simp_all

theorem readExactOrEof_more {r r' : Reader} {want : ℕ} {got : Bytes} (hw : want ≠ 0)
    (hgot : got ≠ []) (h : r.read want = (.ok got, r')) {rest : Bytes} {r'' : Reader}
    (hrec : readExactOrEof r' (want - got.length) = (.ok rest, r'')) :
    readExactOrEof r want = (.ok (got ++ rest), r'') := by
  rw [readExactOrEof, if_neg hw]
  split <;> simp_all

theorem readExactOrEof_interrupted {r r' : Reader} {want : ℕ} (hw : want ≠ 0)
    (h : r.read want = (.error .interrupted, r')) :
    readExactOrEof r want = readExactOrEof r' want := by
  rw [readExactOrEof, if_neg hw]
  split <;> simp_all

/-- **The fill loop does not see how its input is cut up**: a benign reader fills the buffer with
the next `want` bytes, or with all that is left. -/
theorem readExactOrEof_benign {r : Reader} (hr : r.Benign) (want : ℕ) :
    ∃ r', readExactOrEof r want = (.ok (r.input.take want), r') ∧
      r'.input = r.input.drop want ∧ r'.Benign := by
  -- the measure of the loop: script that is left, plus room that is left
  induction hm : r.script.length + want using Nat.strong_induction_on generalizing r want with
  | _ m ih =>
      by_cases hw : want = 0
      · subst hw
        exact ⟨r, by simp [readExactOrEof_zero], by simp, hr⟩
      rcases Reader.read_benign hr want with
        ⟨r₁, hread, hin, hr₁⟩ | ⟨n, r₁, hread, hin, hr₁, hn, hpos⟩
      · have hlt := Reader.read_script_lt hread
        obtain ⟨r₂, hrec, hin₂, hr₂⟩ := ih _ (by omega) hr₁ want rfl
        exact ⟨r₂, by rw [readExactOrEof_interrupted hw hread, hrec, hin], by rw [hin₂, hin], hr₂⟩
      · have hn0 : 0 < n := hpos (by omega)
        by_cases hin0 : r.input = []
        · refine ⟨r₁, ?_, by simp [hin, hin0], hr₁⟩
          rw [readExactOrEof_end hw (by simpa [hin0] using hread), hin0, List.take_nil]
        · have hle : r₁.script.length ≤ r.script.length := by
            simpa [hread] using r.read_script_le want
          have hlen : 0 < r.input.length := List.length_pos_iff.2 hin0
          have hgot : (r.input.take n).length = min n r.input.length := List.length_take ..
          obtain ⟨r₂, hrec, hin₂, hr₂⟩ := ih _ (by omega) hr₁ (want - (r.input.take n).length) rfl
          -- what is taken now and what is taken later are one `take`
          have hsplit : want - (r.input.take n).length = want - n ∨ r.input.length ≤ n := by omega
          refine ⟨r₂, ?_, ?_, hr₂⟩
          · rw [readExactOrEof_more hw (by simp [hin0]; omega) hread hrec, hin]
            rcases hsplit with h | h
            · rw [h, ← List.take_add, Nat.add_sub_cancel' hn]
            · rw [List.drop_eq_nil_of_le h, List.take_nil, List.append_nil,
                List.take_of_length_le h, List.take_of_length_le (by omega)]
          · rw [hin₂, hin, List.drop_drop]
            rcases hsplit with h | h
            · rw [h, Nat.add_sub_cancel' hn]
            · rw [List.drop_eq_nil_of_le (by omega), List.drop_eq_nil_of_le (by omega)]

/-- **A benign reader is a parser of its bytes**: reading a frame answers what
`Osprey.scanFrame` answers and leaves what it leaves. -/
theorem readFrame_benign {r : Reader} (hr : r.Benign) :
    ∃ r', readFrame r = ((scanFrame r.input).1, r') ∧ r'.input = (scanFrame r.input).2 ∧
      r'.Benign := by
  obtain ⟨r₁, h₁, hin₁, hr₁⟩ := readExactOrEof_benign hr 2
  unfold readFrame
  rw [h₁]
  match hin : r.input with
  | [] => exact ⟨r₁, rfl, by simp [hin₁, hin, scanFrame], hr₁⟩
  | [b] => exact ⟨r₁, rfl, by simp [hin₁, hin, scanFrame], hr₁⟩
  | hi :: lo :: rest =>
      obtain ⟨r₂, h₂, hin₂, hr₂⟩ := readExactOrEof_benign hr₁ (fromBeBytes hi lo)
      have hrest : r₁.input = rest := by simp [hin₁, hin]
      rw [hrest] at h₂ hin₂
      by_cases hle : fromBeBytes hi lo ≤ rest.length
      · refine ⟨r₂, ?_, ?_, hr₂⟩
        · simp [h₂, scanFrame, hle]
        · simp [hin₂, scanFrame, hle]
      · have htake : rest.take (fromBeBytes hi lo) = rest := List.take_of_length_le (by omega)
        refine ⟨r₂, ?_, ?_, hr₂⟩
        · simp [h₂, htake, scanFrame, hle]
          omega
        · simp [hin₂, scanFrame, hle]
          omega

/-! ### What the parser makes of frames -/

@[simp] theorem scanFrame_nil : scanFrame [] = (.ok .eof, []) := rfl

/-- The bytes of a frame are parsed back, and nothing after them is touched. -/
theorem scanFrame_encodeFrame {message : Bytes} (hlen : message.length ≤ NOISE_MAX_MESSAGE_LEN)
    (rest : Bytes) :
    scanFrame (encodeFrame message ++ rest) = (.ok (.frame message), rest) := by
  simp only [encodeFrame, toBeBytes, List.cons_append, List.nil_append, scanFrame,
    fromBeBytes_toBeBytes hlen]
  rw [if_pos (by simp)]
  simp

/-- A part of a frame is a truncated frame. -/
theorem scanFrame_take_encodeFrame {message : Bytes}
    (hlen : message.length ≤ NOISE_MAX_MESSAGE_LEN) {t : ℕ} (h₀ : 0 < t)
    (ht : t < (encodeFrame message).length) :
    ∃ got want, scanFrame ((encodeFrame message).take t) =
      (.error (.truncatedFrame got want), []) := by
  rw [length_encodeFrame] at ht
  match t with
  | 0 => omega
  | 1 => exact ⟨1, 2, rfl⟩
  | t + 2 =>
      refine ⟨(message.take t).length, message.length, ?_⟩
      simp only [encodeFrame, toBeBytes, List.cons_append, List.nil_append, List.take_succ_cons,
        scanFrame, fromBeBytes_toBeBytes hlen]
      rw [if_neg (by simp; omega)]

/-- A frame that the parser returns is the encoding of its body, in front of what is left. -/
theorem eq_encodeFrame_of_scanFrame {input body rest : Bytes}
    (h : scanFrame input = (.ok (.frame body), rest)) :
    input = encodeFrame body ++ rest ∧ body.length ≤ NOISE_MAX_MESSAGE_LEN := by
  match input with
  | [] => simp at h
  | [_] => simp [scanFrame] at h
  | hi :: lo :: tail =>
      simp only [scanFrame] at h
      split_ifs at h with hle
      · simp only [Prod.mk.injEq, Except.ok.injEq, FrameRead.frame.injEq] at h
        obtain ⟨rfl, rfl⟩ := h
        have hb := fromBeBytes_le hi lo
        have hlen : (tail.take (fromBeBytes hi lo)).length = fromBeBytes hi lo := by simp [hle]
        have hhi := hi.toNat_lt
        have hlo := lo.toNat_lt
        refine ⟨?_, by omega⟩
        have h₁ : UInt8.ofNat (fromBeBytes hi lo / 256) = hi := by
          apply UInt8.toNat_inj.1
          simp only [fromBeBytes, UInt8.toNat_ofNat']
          omega
        have h₂ : UInt8.ofNat (fromBeBytes hi lo % 256) = lo := by
          apply UInt8.toNat_inj.1
          simp only [fromBeBytes, UInt8.toNat_ofNat']
          omega
        simp [encodeFrame, toBeBytes, hlen, h₁, h₂]
      · simp at h

/-! ### Any reader, any writer -/

/-- What was read is what the stream began with, also when other reads fail. -/
theorem readExactOrEof_ok {r r' : Reader} {want : ℕ} {got : Bytes}
    (h : readExactOrEof r want = (.ok got, r')) : r.input = got ++ r'.input := by
  induction hm : r.script.length + want using Nat.strong_induction_on
    generalizing r want got with
  | _ m ih =>
      rw [readExactOrEof] at h
      split_ifs at h with hwant
      · cases h
        rfl
      split at h
      · rename_i r₁ hread
        cases h
        exact (Reader.read_ok hread).1
      · rename_i b bs r₁ hread
        have hinput := (Reader.read_ok hread).1
        have hscript := r.read_script_le want
        rw [hread] at hscript
        split at h
        · rename_i rest r₂ hrest
          cases h
          have htail := ih _ (by simp at hscript ⊢; omega) hrest rfl
          rw [hinput, htail, List.append_assoc]
        · cases h
      · rename_i r₁ hread
        have hscript := Reader.read_script_lt hread
        rw [← Reader.read_error hread]
        exact ih _ (by omega) h rfl
      · cases h

/-- A frame that was read stood at the head of the stream. -/
theorem readFrame_ok {r r' : Reader} {message : Bytes}
    (h : readFrame r = (.ok (.frame message), r')) :
    r.input = encodeFrame message ++ r'.input ∧ message.length ≤ NOISE_MAX_MESSAGE_LEN := by
  unfold readFrame at h
  split at h
  · cases h
  · cases h
  · rename_i hi lo r₁ hheader
    have hinput := readExactOrEof_ok hheader
    dsimp only at h
    split at h
    · cases h
    · rename_i out r₂ hbody
      split_ifs at h with hlen
      · cases h
        apply eq_encodeFrame_of_scanFrame
        rw [hinput, readExactOrEof_ok hbody]
        simp only [List.cons_append, List.nil_append, scanFrame, List.length_append]
        rw [if_pos (by omega), ← hlen, List.take_left, List.drop_left]
      · cases h
  · cases h

/-- Frames are their own boundaries: of two streams that begin with a frame and of which one goes
on like the other, the first frames are the same. -/
theorem encodeFrame_initial {a b x y : Bytes} (ha : a.length ≤ NOISE_MAX_MESSAGE_LEN)
    (hb : b.length ≤ NOISE_MAX_MESSAGE_LEN) (h : encodeFrame a ++ x <+: encodeFrame b ++ y) :
    a = b ∧ x <+: y := by
  obtain ⟨t, ht⟩ := h
  have hscan : scanFrame (encodeFrame a ++ (x ++ t)) = scanFrame (encodeFrame b ++ y) := by
    rw [← List.append_assoc, ht]
  rw [scanFrame_encodeFrame ha, scanFrame_encodeFrame hb] at hscan
  cases hscan
  exact ⟨rfl, List.prefix_append x t⟩

/-- However writing a frame ends, a part of the frame has gone out behind what was there. -/
theorem writeFrame_output (w : Writer) (message : Bytes) :
    w.output <+: (writeFrame w message).2.output ∧
    ∃ sent : Bytes, sent.length ≤ NOISE_MAX_MESSAGE_LEN ∧
      (writeFrame w message).2.output <+: w.output ++ encodeFrame sent := by
  unfold writeFrame
  split_ifs with hlen
  · exact ⟨List.prefix_rfl, [], Nat.zero_le _, List.prefix_append _ _⟩
  have hlen : message.length ≤ NOISE_MAX_MESSAGE_LEN := Nat.le_of_not_lt hlen
  obtain ⟨hkept₁, hpart₁⟩ := w.writeAll_output (toBeBytes message.length)
  rcases hheader : w.writeAll (toBeBytes message.length) with ⟨kind | u, w₁⟩
  · rw [hheader] at hkept₁ hpart₁
    refine ⟨hkept₁, message, hlen, hpart₁.trans ?_⟩
    rw [encodeFrame, ← List.append_assoc]
    exact List.prefix_append _ _
  · have hout₁ := Writer.writeAll_ok hheader
    rw [hheader] at hkept₁
    obtain ⟨hkept₂, hpart₂⟩ := w₁.writeAll_output message
    rw [hout₁, List.append_assoc] at hpart₂
    dsimp only
    rcases hbody : w₁.writeAll message with ⟨kind | u, w₂⟩
    · rw [hbody] at hkept₂ hpart₂
      exact ⟨hkept₁.trans hkept₂, message, hlen, hpart₂⟩
    · rw [hbody] at hkept₂ hpart₂
      exact ⟨hkept₁.trans hkept₂, message, hlen, hpart₂⟩

/-- A frame that was written has gone out whole. -/
theorem writeFrame_ok {w w' : Writer} {message : Bytes}
    (h : writeFrame w message = (.ok (), w')) :
    w'.output = w.output ++ encodeFrame message ∧ message.length ≤ NOISE_MAX_MESSAGE_LEN := by
  unfold writeFrame at h
  split_ifs at h with hlen
  · cases h
  split at h
  · cases h
  · rename_i w₁ hheader
    split at h
    · cases h
    · rename_i w₂ hbody
      cases h
      rw [Writer.writeAll_ok hbody, Writer.writeAll_ok hheader, List.append_assoc]
      exact ⟨rfl, Nat.le_of_not_lt hlen⟩

end Osprey
