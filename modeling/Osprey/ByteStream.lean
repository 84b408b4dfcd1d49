/-
**Blocking byte streams that deliver what they hold in arbitrary pieces.**

A reader is the bytes that are still to come, after which the stream ends, together with a
*script*: what each of the following calls of `read` does.  A call may deliver fewer bytes than
asked for, and it may fail; once the script is exhausted every call delivers all it can.  A finite
script is no restriction, since a finite run only makes finitely many calls.  A writer collects
what was written and has a script of its own, because writing may fail half-way.

What a consumer needs to know is which scripts cannot be told apart from a plain cursor over the
same bytes.  These are the *benign* ones: every failure they inject is an interruption, which a
retry loop does not let through.

Main definitions:

* `ByteIO.Reader`, `ByteIO.Reader.read` — a reader and one call of it;
* `ByteIO.Reader.Benign` — the script contains no failure other than an interruption;
* `ByteIO.Writer`, `ByteIO.Writer.writeAll`, `ByteIO.Writer.flush` — a writer and its calls.

Main results:

* `ByteIO.Reader.read_benign` — one call of a benign reader;
* `ByteIO.Writer.writeAll_reliable` — a writer with an empty script accepts everything.
-/

import Mathlib.Data.List.Basic
import Mathlib.Tactic

set_option relaxedAutoImplicit false
set_option autoImplicit false

namespace ByteIO

/-- The kinds of I/O failure the consumers of a stream tell apart. -/
inductive ErrorKind
  | interrupted
  | timedOut
  | wouldBlock
  | notConnected
  | notFound
  | other
  deriving DecidableEq, Repr

/-- What one call of `read` does. -/
inductive ReadStep
  /-- Deliver at most `extra + 1` bytes: a short read never delivers nothing unless the stream
  has ended. -/
  | upTo (extra : ℕ)
  | err (kind : ErrorKind)
  deriving DecidableEq, Repr

/-- A step that a loop retrying interruptions cannot be stopped by. -/
def ReadStep.benign : ReadStep → Bool
  | upTo _ => true
  | err kind => kind == ErrorKind.interrupted

/-- A stream of bytes that ends after `input`, read as `script` says. -/
structure Reader where
  input : List UInt8
  script : List ReadStep
  deriving DecidableEq, Repr

namespace Reader

/-- The reader over a byte string that always delivers all it can. -/
def ofBytes (input : List UInt8) : Reader := ⟨input, []⟩

@[simp] theorem ofBytes_input (input : List UInt8) : (ofBytes input).input = input := rfl

/-- One call of `read` with room for `len` bytes. -/
def read (r : Reader) (len : ℕ) : Except ErrorKind (List UInt8) × Reader :=
  match r.script with
  | [] => (.ok (r.input.take len), { r with input := r.input.drop len })
  | .upTo extra :: script =>
      (.ok (r.input.take (min (extra + 1) len)), ⟨r.input.drop (min (extra + 1) len), script⟩)
  | .err kind :: script => (.error kind, ⟨r.input, script⟩)

/-- Every failure in the script is an interruption. -/
def Benign (r : Reader) : Prop := ∀ s ∈ r.script, s.benign = true

instance (r : Reader) : Decidable r.Benign := inferInstanceAs (Decidable (∀ s ∈ r.script, _))

@[simp] theorem benign_ofBytes (input : List UInt8) : (ofBytes input).Benign := by
  simp [Benign, ofBytes]

/-- A call consumes script, or there was none. -/
theorem read_script_le (r : Reader) (len : ℕ) :
    (r.read len).2.script.length ≤ r.script.length := by
  unfold read
  split <;> simp_all

/-- A failing call consumes script: this is what makes a retry loop terminate. -/
theorem read_script_lt {r r' : Reader} {len : ℕ} {kind : ErrorKind}
    (h : r.read len = (.error kind, r')) : r'.script.length < r.script.length := by
  unfold read at h
  split at h
  · simp at h
  · simp at h
  · rename_i hs
    obtain rfl := congrArg Prod.snd h
    simp [hs]

/-- What a call delivers is what the stream began with. -/
theorem read_ok {r r' : Reader} {len : ℕ} {got : List UInt8} (h : r.read len = (.ok got, r')) :
    r.input = got ++ r'.input ∧ got.length ≤ len := by
  unfold read at h
  split at h
  · cases h
    exact ⟨(List.take_append_drop _ _).symm, List.length_take_le _ _⟩
  · cases h
    exact ⟨(List.take_append_drop _ _).symm,
      (List.length_take_le _ _).trans (Nat.min_le_right _ _)⟩
  · cases h

/-- A call that fails takes nothing off the stream. -/
theorem read_error {r r' : Reader} {len : ℕ} {kind : ErrorKind}
    (h : r.read len = (.error kind, r')) : r'.input = r.input := by
  unfold read at h
  split at h
  · cases h
  · cases h
  · cases h
    rfl

/-- **One call of a benign reader**: it is interrupted and nothing is lost, or it delivers the
next `n` bytes, and `n` is positive when there is room. -/
theorem read_benign {r : Reader} (hr : r.Benign) (len : ℕ) :
    (∃ r', r.read len = (.error .interrupted, r') ∧ r'.input = r.input ∧ r'.Benign) ∨
    ∃ n r', r.read len = (.ok (r.input.take n), r') ∧ r'.input = r.input.drop n ∧ r'.Benign ∧
      n ≤ len ∧ (0 < len → 0 < n) := by
  obtain ⟨input, script⟩ := r
  cases script with
  | nil => exact Or.inr ⟨len, _, rfl, rfl, by simp [Benign], Nat.le_refl _, id⟩
  | cons s script =>
      have htail : ∀ i, Benign ⟨i, script⟩ := fun i t ht => hr t (List.mem_cons_of_mem _ ht)
      cases s with
      | upTo extra =>
          exact Or.inr ⟨min (extra + 1) len, _, rfl, rfl, htail _, Nat.min_le_right _ _, by omega⟩
      | err kind =>
          have hk : kind = .interrupted := by
            simpa [ReadStep.benign] using hr (.err kind) (List.mem_cons_self ..)
          subst hk
          exact Or.inl ⟨_, rfl, rfl, htail _⟩

end Reader

/-! ### Writers -/

/-- What one call on a writer does. -/
inductive WriteStep
  | ok
  /-- Fail, after `accepted` bytes of the data went out. -/
  | err (kind : ErrorKind) (accepted : ℕ)
  deriving DecidableEq, Repr

/-- What was written so far, and what the following calls do. -/
structure Writer where
  output : List UInt8
  script : List WriteStep
  deriving DecidableEq, Repr

namespace Writer

/-- A writer that never fails. -/
def empty : Writer := ⟨[], []⟩

/-- Write all of `data`, or fail after a part of it. -/
def writeAll (w : Writer) (data : List UInt8) : Except ErrorKind Unit × Writer :=
  match w.script with
  | [] => (.ok (), { w with output := w.output ++ data })
  | .ok :: script => (.ok (), ⟨w.output ++ data, script⟩)
  | .err kind accepted :: script => (.error kind, ⟨w.output ++ data.take accepted, script⟩)

/-- Flushing writes nothing of its own, but it may fail. -/
def flush (w : Writer) : Except ErrorKind Unit × Writer := w.writeAll []

/-- A writer whose script is empty accepts everything. -/
def Reliable (w : Writer) : Prop := w.script = []

theorem writeAll_reliable {w : Writer} (hw : w.Reliable) (data : List UInt8) :
    w.writeAll data = (.ok (), ⟨w.output ++ data, []⟩) := by
  obtain ⟨output, script⟩ := w
  cases hw
  rfl

/-- However a write ends, a part of the data has gone out behind what was there. -/
theorem writeAll_output (w : Writer) (data : List UInt8) :
    w.output <+: (w.writeAll data).2.output ∧ (w.writeAll data).2.output <+: w.output ++ data := by
  unfold writeAll
  split
  · exact ⟨List.prefix_append _ _, List.prefix_rfl⟩
  · exact ⟨List.prefix_append _ _, List.prefix_rfl⟩
  · exact ⟨List.prefix_append _ _,
      (List.prefix_append_right_inj w.output).mpr (List.take_prefix _ _)⟩

/-- A write that succeeds is a write of everything. -/
theorem writeAll_ok {w w' : Writer} {data : List UInt8} (h : w.writeAll data = (.ok (), w')) :
    w'.output = w.output ++ data := by
  unfold writeAll at h
  split at h
  · cases h
    rfl
  · cases h
    rfl
  · cases h

end Writer

end ByteIO
