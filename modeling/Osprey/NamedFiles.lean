/-
**Files behind names.**

Several processes use the same names for their files.  What a name stands for changes when a file is
renamed; a handle goes on writing the file it was opened on, whatever that is called by now.  So a
file and its name are two things, and two processes that open one name share one file.

Main definitions:

* `NamedFiles.Disk` — the files, and the names that stand for them, each for another file;
* `NamedFiles.Disk.openTruncate`, `NamedFiles.Disk.write`, `NamedFiles.Disk.rename`,
  `NamedFiles.Disk.read` — the operations.

Main results:

* `NamedFiles.Disk.read_openTruncate_of_ne`, `NamedFiles.Disk.read_write_of_ne` — what is opened and
  written under one name is not seen under another;
* `NamedFiles.Disk.read_rename` — after the renaming, what was behind the old name is behind the
  new one;
* `NamedFiles.overwrite_length` — writing at the end appends.
-/

import Mathlib.Logic.Function.Basic
import Mathlib.Tactic

set_option relaxedAutoImplicit false
set_option autoImplicit false

namespace NamedFiles

/-- The files by number, and the file that each name stands for. -/
structure Disk (Name : Type) where
  file : Name → Option ℕ
  data : ℕ → List UInt8
  /-- The number of the next file. -/
  next : ℕ
  below : ∀ name i, file name = some i → i < next
  apart : ∀ name other i, file name = some i → file other = some i → name = other

/-- The bytes after `chunk` has been written at `offset`.  A gap before it is filled with zeros. -/
def overwrite (bytes : List UInt8) (offset : ℕ) (chunk : List UInt8) : List UInt8 :=
  (bytes ++ List.replicate (offset - bytes.length) 0).take offset ++ chunk ++
    bytes.drop (offset + chunk.length)

/-- Writing at the end appends. -/
theorem overwrite_length (bytes chunk : List UInt8) :
    overwrite bytes bytes.length chunk = bytes ++ chunk := by
  have hrest : bytes.drop (bytes.length + chunk.length) = [] :=
    List.drop_eq_nil_of_le (Nat.le_add_right _ _)
  rw [overwrite, hrest, Nat.sub_self, List.replicate_zero, List.append_nil, List.append_nil,
    List.take_length]

/-- Bytes of `body` written behind those before them. -/
theorem overwrite_take (body : List UInt8) {written : ℕ} (hle : written ≤ body.length) (n : ℕ) :
    overwrite (body.take written) written ((body.drop written).take n)
      = body.take (written + n) := by
  have hlength : (body.take written).length = written := List.length_take_of_le hle
  have happend := overwrite_length (body.take written) ((body.drop written).take n)
  rw [hlength] at happend
  rw [happend, List.take_add]

namespace Disk

variable {Name : Type}

/-- What is behind the name. -/
def read (disk : Disk Name) (name : Name) : Option (List UInt8) := (disk.file name).map disk.data

/-- Write through a handle to the file. -/
def write (disk : Disk Name) (i offset : ℕ) (chunk : List UInt8) : Disk Name :=
  { disk with data := Function.update disk.data i (overwrite (disk.data i) offset chunk) }

theorem data_write (disk : Disk Name) (i offset : ℕ) (chunk : List UInt8) :
    (disk.write i offset chunk).data i = overwrite (disk.data i) offset chunk :=
  Function.update_self _ _ _

theorem read_write_of_ne {disk : Disk Name} {name : Name} {i : ℕ} (hne : disk.file name ≠ some i)
    (offset : ℕ) (chunk : List UInt8) : (disk.write i offset chunk).read name = disk.read name := by
  unfold read
  cases hname : disk.file name with
  | none =>
      rw [show (disk.write i offset chunk).file name = none from hname]
      rfl
  | some j =>
      rw [show (disk.write i offset chunk).file name = some j from hname]
      have hij : j ≠ i := by
        rintro rfl
        exact hne hname
      exact congrArg some (Function.update_of_ne hij _ _)

variable [DecidableEq Name]

/-- Open for writing, created or truncated; the file is returned. -/
def openTruncate (disk : Disk Name) (name : Name) : ℕ × Disk Name :=
  match disk.file name with
  | some i => (i, { disk with data := Function.update disk.data i [] })
  | none =>
      (disk.next, {
        file := Function.update disk.file name (some disk.next)
        data := Function.update disk.data disk.next []
        next := disk.next + 1
        below := by
          intro other i hother
          rw [Function.update_apply] at hother
          split at hother
          · cases hother
            exact Nat.lt_succ_self _
          · exact Nat.lt_succ_of_lt (disk.below other i hother)
        apart := by
          intro other other' i hother hother'
          rw [Function.update_apply] at hother hother'
          split at hother
          · cases hother
            split at hother'
            · rename_i h h'
              exact h.trans h'.symm
            · exact absurd (disk.below other' _ hother') (lt_irrefl _)
          · split at hother'
            · cases hother'
              exact absurd (disk.below other _ hother) (lt_irrefl _)
            · exact disk.apart other other' i hother hother' })

/-- Let `target` stand for what `source` stands for; `none` where that is nothing. -/
def rename (disk : Disk Name) (source target : Name) : Option (Disk Name) :=
  match hsource : disk.file source with
  | none => none
  | some i =>
      some {
        file := fun name =>
          if name = target then some i else if name = source then none else disk.file name
        data := disk.data
        next := disk.next
        below := by
          intro name j hname
          split_ifs at hname
          · cases hname
            exact disk.below source i hsource
          · exact disk.below name j hname
        apart := by
          have hmoved {name : Name} (hne : name ≠ source) : disk.file name ≠ some i :=
            fun hname => hne (disk.apart name source i hname hsource)
          intro name other j hname hother
          split_ifs at hname hother with h h' h'' h'''
          · exact h.trans h'.symm
          · cases hname
            exact absurd hother (hmoved ‹_›)
          · cases hother
            exact absurd hname (hmoved ‹_›)
          · exact disk.apart name other j hname hother }

variable {disk : Disk Name}

theorem file_openTruncate_of_ne {name other : Name} (hne : other ≠ name) :
    (disk.openTruncate name).2.file other = disk.file other := by
  unfold openTruncate
  split
  · rfl
  · exact Function.update_of_ne hne _ _

/-- The name that was opened stands for the file that was returned, which is empty. -/
theorem file_openTruncate (disk : Disk Name) (name : Name) :
    (disk.openTruncate name).2.file name = some (disk.openTruncate name).1 ∧
      (disk.openTruncate name).2.data (disk.openTruncate name).1 = [] := by
  unfold openTruncate
  split
  · rename_i i hname
    exact ⟨hname, Function.update_self _ _ _⟩
  · exact ⟨Function.update_self _ _ _, Function.update_self _ _ _⟩

/-- Opening one name does not touch what is behind another. -/
theorem read_openTruncate_of_ne {name other : Name} (hne : other ≠ name) :
    (disk.openTruncate name).2.read other = disk.read other := by
  unfold read
  rw [file_openTruncate_of_ne hne]
  cases hother : disk.file other with
  | none => rfl
  | some j =>
      have hdata : (disk.openTruncate name).2.data j = disk.data j := by
        unfold openTruncate
        split
        · rename_i i hname
          refine Function.update_of_ne ?_ _ _
          rintro rfl
          exact hne (disk.apart other name j hother hname)
        · exact Function.update_of_ne (disk.below other j hother).ne _ _
      rw [Option.map_some, Option.map_some, hdata]

/-- What was behind the source is behind the target, and the source stands for nothing. -/
theorem read_rename {disk' : Disk Name} {source target : Name}
    (h : disk.rename source target = some disk') :
    disk'.read target = disk.read source := by
  unfold rename at h
  split at h
  · cases h
  · rename_i i hsource
    cases h
    simp [read, hsource]

end Disk

end NamedFiles
