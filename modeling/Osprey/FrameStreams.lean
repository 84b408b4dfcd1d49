/-
**Frames written one after another, and the two parsers of them.**

`osprey-core/src/noise/framing.rs` reads frames off a stream that ends at some point, where the end
inside a frame is an error; `osprey-ffi/src/framing.rs` takes frames off a buffer that more bytes
may still come to, where it is not.  Both agree on what a frame is.

Main definitions:

* `Osprey.writtenFrames` — the bytes of frames written one after another;
* `Osprey.readFrames` — the answers of a number of calls of `read_frame`;
* `Osprey.frameDecode` — `take_frame` for callers that keep the buffer themselves.

Main results:

* `Osprey.readFrames_wire_append` — frames at the head of a stream are read, and the rest is left;
* `Osprey.exists_cut` — where a cut falls;
* `Osprey.framing_agrees` — **the frames come back, cut where they may be**, and the buffer gives up
  exactly what is read.
-/

import Osprey.FfiBridge

set_option relaxedAutoImplicit false
set_option autoImplicit false

namespace Osprey

open ByteIO

/-! ### Writing -/

/-- The outputs of `write_frame`, put together. -/
def writtenFrames (frames : List Bytes) : Bytes :=
  frames.flatMap fun frame => (writeFrame Writer.empty frame).2.output

theorem writtenFrames_eq_wire {frames : List Bytes}
    (hframes : ∀ frame ∈ frames, frame.length ≤ NOISE_MAX_MESSAGE_LEN) :
    writtenFrames frames = wire frames := by
  refine List.flatMap_congr fun frame hframe => ?_
  have hempty : Writer.empty.Reliable := rfl
  rw [writeFrame_reliable hempty (hframes frame hframe)]
  exact List.nil_append _

/-! ### Reading -/

/-- The answers of `n` calls of `read_frame` on one stream. -/
def readFrames : ℕ → Reader → List (Except Error FrameRead)
  | 0, _ => []
  | n + 1, r => (readFrame r).1 :: readFrames n (readFrame r).2

/-- A frame at the head of a stream is read first. -/
theorem readFrames_encodeFrame {frame rest : Bytes} (hframe : frame.length ≤ NOISE_MAX_MESSAGE_LEN)
    {r : Reader} (hr : r.Benign) (hin : r.input = encodeFrame frame ++ rest) :
    ∃ r' : Reader, r'.Benign ∧ r'.input = rest ∧
      ∀ n, readFrames (n + 1) r = .ok (.frame frame) :: readFrames n r' := by
  obtain ⟨r', hread, hin', hr'⟩ := readFrame_benign hr
  rw [hin, scanFrame_encodeFrame hframe] at hread hin'
  refine ⟨r', hr', hin', ?_⟩
  intro n
  rw [readFrames, hread]

/-- **Frames at the head of a stream are read in order**, and what is behind them is left. -/
theorem readFrames_wire_append {frames : List Bytes} {rest : Bytes}
    (hframes : ∀ frame ∈ frames, frame.length ≤ NOISE_MAX_MESSAGE_LEN) {r : Reader}
    (hr : r.Benign) (hin : r.input = wire frames ++ rest) :
    ∃ r' : Reader, r'.Benign ∧ r'.input = rest ∧ ∀ n, readFrames (frames.length + n) r
      = frames.map (fun frame => .ok (.frame frame)) ++ readFrames n r' := by
  induction frames generalizing r with
  | nil => exact ⟨r, hr, hin, by simp⟩
  | cons frame frames ih =>
      obtain ⟨hframe, hframes⟩ := List.forall_mem_cons.mp hframes
      rw [wire_cons, List.append_assoc] at hin
      obtain ⟨r₁, hr₁, hin₁, hfirst⟩ := readFrames_encodeFrame hframe hr hin
      obtain ⟨r₂, hr₂, hin₂, hrest⟩ := ih hframes hr₁ hin₁
      refine ⟨r₂, hr₂, hin₂, ?_⟩
      intro n
      rw [List.length_cons, Nat.add_right_comm, hfirst, hrest]
      rfl

/-- At the end of a stream every call says so. -/
theorem readFrames_end {r : Reader} (hr : r.Benign) (hin : r.input = []) (n : ℕ) :
    readFrames n r = List.replicate n (.ok .eof) := by
  induction n generalizing r with
  | zero => rfl
  | succ n ih =>
      obtain ⟨r', hread, hin', hr'⟩ := readFrame_benign hr
      rw [hin, scanFrame_nil] at hread hin'
      rw [readFrames, hread, ih hr' hin', List.replicate_succ]

/-! ### Cuts -/

/-- **Where a cut falls**: some frames lie whole before it, and of the next one a part that is
shorter than the frame. -/
theorem exists_cut {frames : List Bytes} {t : ℕ} (ht : t < (wire frames).length) :
    ∃ k frame s, frames[k]? = some frame ∧ s < (encodeFrame frame).length ∧
      t = (wire (frames.take k)).length + s ∧
      (wire frames).take t = wire (frames.take k) ++ (encodeFrame frame).take s := by
  induction frames generalizing t with
  | nil => simp at ht
  | cons frame frames ih =>
      rw [wire_cons] at ht ⊢
      by_cases hfirst : t < (encodeFrame frame).length
      · refine ⟨0, frame, t, rfl, hfirst, by simp, ?_⟩
        rw [List.take_append_of_le_length hfirst.le]
        rfl
      · have hle : (encodeFrame frame).length ≤ t := not_lt.mp hfirst
        rw [List.length_append] at ht
        obtain ⟨k, next, s, hnext, hs, hcut, htake⟩ := ih (t := t - (encodeFrame frame).length)
          (by omega)
        refine ⟨k + 1, next, s, hnext, hs, ?_, ?_⟩
        · rw [List.take_succ_cons, wire_cons, List.length_append]
          omega
        · rw [List.take_append, List.take_of_length_le hle, htake, List.take_succ_cons, wire_cons,
            List.append_assoc]

/-- What is read of a stream that is cut. -/
theorem readFrames_cut {frames : List Bytes}
    (hframes : ∀ frame ∈ frames, frame.length ≤ NOISE_MAX_MESSAGE_LEN) {r : Reader}
    (hr : r.Benign) {t : ℕ} (ht : t < (wire frames).length) (hin : r.input = (wire frames).take t) :
    ∃ k < frames.length, (wire (frames.take k)).length ≤ t ∧
      t < (wire (frames.take (k + 1))).length ∧
      ∃ last, readFrames (k + 1) r
          = (frames.take k).map (fun frame => .ok (.frame frame)) ++ [last] ∧
        (t = (wire (frames.take k)).length → last = .ok .eof) ∧
        (t ≠ (wire (frames.take k)).length →
          ∃ got want, last = .error (.truncatedFrame got want)) := by
  obtain ⟨k, frame, s, hframe, hs, hcut, htake⟩ := exists_cut ht
  obtain ⟨hk, rfl⟩ := List.getElem?_eq_some_iff.mp hframe
  have hlength : (frames.take k).length = k := List.length_take_of_le hk.le
  have hnext : frames.take (k + 1) = frames.take k ++ [frames[k]] := by
    rw [List.take_add_one, List.getElem?_eq_getElem hk, Option.toList_some]
  rw [htake] at hin
  obtain ⟨r', hr', hin', hread⟩ :=
    readFrames_wire_append (fun frame h => hframes frame (List.mem_of_mem_take h)) hr hin
  obtain ⟨r'', hlast, -, -⟩ := readFrame_benign hr'
  have hread := hread 1
  rw [hlength] at hread
  refine ⟨k, hk, by omega, ?_, (readFrame r').1, hread, ?_, ?_⟩
  · rw [hnext, wire_append, List.length_append, wire_cons, wire_nil, List.append_nil]
    omega
  · intro hboundary
    obtain rfl : s = 0 := by omega
    rw [hlast, hin', List.take_zero, scanFrame_nil]
  · intro hinside
    obtain ⟨got, want, hscan⟩ :=
      scanFrame_take_encodeFrame (hframes _ (List.getElem_mem hk)) (by omega) hs
    exact ⟨got, want, by rw [hlast, hin', hscan]⟩

/-! ### The buffer -/

/-- `FrameScan`. -/
structure FrameScan where
  frame : Option Bytes
  consumed : ℕ
  deriving DecidableEq

/-- Strip one length-prefixed frame from the head of `buffer`. -/
def frameDecode (buffer : Bytes) : Except OspreyError FrameScan :=
  match takeFrame buffer with
  | (.error e, _) => .error e
  | (.ok (some frame), owned) => .ok ⟨some frame, buffer.length - owned.length⟩
  | (.ok none, _) => .ok ⟨none, 0⟩

/-- The core reads a frame of these bytes, and the bridge finds it. -/
structure TakesFrame (r : Reader) (frame rest : Bytes) : Prop where
  bytes : r.input = encodeFrame frame ++ rest
  read : ∃ r', readFrame r = (.ok (.frame frame), r') ∧ r'.input = rest
  complete : completeFrameLen r.input = some (encodeFrame frame).length
  take : takeFrame r.input = (.ok (some frame), rest)
  decode : frameDecode r.input = .ok ⟨some frame, (encodeFrame frame).length⟩

/-- The core reads no frame of these bytes, and the bridge finds none. -/
structure TakesNone (r : Reader) : Prop where
  read : ∀ frame, (readFrame r).1 ≠ .ok (.frame frame)
  complete : completeFrameLen r.input = none
  take : takeFrame r.input = (.ok none, r.input)
  decode : frameDecode r.input = .ok ⟨none, 0⟩

/-- **The two parsers agree.** -/
theorem takesFrame_or_takesNone {r : Reader} (hr : r.Benign) :
    (∃ frame rest, TakesFrame r frame rest) ∨ TakesNone r := by
  obtain ⟨r', hread, hin', -⟩ := readFrame_benign hr
  rcases takeFrame_eq r.input with ⟨hnone, htake⟩ | ⟨frame, rest, hbytes, hlength, htake⟩
  · refine Or.inr ⟨?_, hnone, htake, by rw [frameDecode, htake]⟩
    intro frame hframe
    rw [hread] at hframe
    obtain ⟨hbytes, hlength⟩ := eq_encodeFrame_of_scanFrame (Prod.ext hframe rfl)
    rw [hbytes, completeFrameLen_encodeFrame hlength] at hnone
    cases hnone
  · have hscan := scanFrame_encodeFrame hlength rest
    rw [← hbytes] at hscan
    rw [hscan] at hread hin'
    refine Or.inl ⟨frame, rest, hbytes, ⟨r', hread, hin'⟩, ?_, htake, ?_⟩
    · rw [hbytes]
      exact completeFrameLen_encodeFrame hlength rest
    · rw [frameDecode, htake]
      simp [hbytes]

/-! ### Framing -/

/-- **Framing.**  Frames that were written come back in order, and then the end of the stream; of a
stream that is cut, the frames that are whole come back, and then the end, or an error if the cut is
inside a frame; and the buffer gives up a frame exactly when the core reads one. -/
theorem framing_agrees (frames : List Bytes)
    (hframes : ∀ frame ∈ frames, frame.length ≤ NOISE_MAX_MESSAGE_LEN) :
    (∀ r : Reader, r.Benign → r.input = writtenFrames frames → ∀ n, readFrames (frames.length + n) r
      = frames.map (fun frame => .ok (.frame frame)) ++ List.replicate n (.ok .eof)) ∧
    (∀ r : Reader, r.Benign → r.input <+: writtenFrames frames → r.input ≠ writtenFrames frames →
      ∃ k < frames.length, (writtenFrames (frames.take k)).length ≤ r.input.length ∧
        r.input.length < (writtenFrames (frames.take (k + 1))).length ∧
        ∃ last, readFrames (k + 1) r
            = (frames.take k).map (fun frame => .ok (.frame frame)) ++ [last] ∧
          (r.input.length = (writtenFrames (frames.take k)).length → last = .ok .eof) ∧
          (r.input.length ≠ (writtenFrames (frames.take k)).length →
            ∃ got want, last = .error (.truncatedFrame got want))) ∧
    ∀ r : Reader, r.Benign → (∃ frame rest, TakesFrame r frame rest) ∨ TakesNone r := by
  refine ⟨?_, ?_, fun r hr => takesFrame_or_takesNone hr⟩
  · intro r hr hin n
    rw [writtenFrames_eq_wire hframes, ← List.append_nil (wire frames)] at hin
    obtain ⟨r', hr', hin', hread⟩ := readFrames_wire_append hframes hr hin
    rw [hread, readFrames_end hr' hin']
  · intro r hr hprefix hproper
    have htake (k : ℕ) : writtenFrames (frames.take k) = wire (frames.take k) :=
      writtenFrames_eq_wire fun frame h => hframes frame (List.mem_of_mem_take h)
    rw [writtenFrames_eq_wire hframes] at hprefix hproper
    have hshort : r.input.length < (wire frames).length := by
      refine lt_of_le_of_ne hprefix.length_le fun hlength => hproper ?_
      exact hprefix.eq_of_length hlength
    simp only [htake]
    exact readFrames_cut hframes hr hshort (List.prefix_iff_eq_take.mp hprefix)

/-- Two frames read byte by byte, with an interruption. -/
theorem framing_agrees_short :
    readFrames 3 ⟨writtenFrames [[], [1]], [.upTo 0, .err .interrupted, .upTo 0, .upTo 0]⟩
      = [.ok (.frame []), .ok (.frame [1]), .ok .eof] :=
  (framing_agrees [[], [1]] (by simp [NOISE_MAX_MESSAGE_LEN])).1 ⟨writtenFrames [[], [1]],
      [.upTo 0, .err .interrupted, .upTo 0, .upTo 0]⟩ (by decide) rfl 1

end Osprey
