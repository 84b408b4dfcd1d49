/-
**Replacing a file by writing a temporary one and renaming it, under faults.**

Every file operation either succeeds, or answers with an error, or is the point at which the process
dies; a write may be cut short in all three senses.  The environment decides, by a script of faults.
A program is a function from the world to an answer and a world, and the world keeps every state the
disk has been in, so that what a reader or a later process can find there is on record.

Main definitions:

* `FileIO.Fault`, `FileIO.Disk`, `FileIO.World` — the environment;
* `FileIO.FileM` — programs over it, with the primitive operations;
* `FileIO.replaceTarget` — open the temporary file, write it, flush it, rename it;
* `FileIO.Keeps`, `FileIO.Replaces` — stretches of execution during which the target did not
  change, respectively went from its old contents to new ones in one step;
* `FileIO.Attempt` — a program ends in success with a postcondition, or has kept the target.

Main results:

* `FileIO.attempt_bind` — the rule for sequencing;
* `FileIO.attempt_op_keeps` — every operation but the rename keeps the target;
* `FileIO.attempt_replaceTarget` — **the replacement is atomic**.
-/

import Osprey.ByteStream

set_option relaxedAutoImplicit false
set_option autoImplicit false

namespace FileIO

open ByteIO (ErrorKind)

/-! ### The environment -/

/-- What the environment does at one file operation.  `written` is how much of a write got through
when it is cut short. -/
inductive Fault
  | proceed
  | fail (kind : ErrorKind) (written : ℕ)
  | die (written : ℕ)
  deriving DecidableEq, Repr

/-- A file and the temporary file beside it. -/
structure Disk where
  target : Option (List UInt8)
  tmp : Option (List UInt8)
  deriving DecidableEq, Repr

/-- The disk, the faults to come, and every state the disk has been in, the latest first. -/
structure World where
  disk : Disk
  faults : List Fault
  trail : List Disk
  deriving DecidableEq, Repr

def World.start (disk : Disk) (faults : List Fault) : World := ⟨disk, faults, [disk]⟩

/-- At the start the disk has been in one state. -/
theorem World.target_of_mem_start {disk d : Disk} {faults : List Fault}
    (h : d ∈ (World.start disk faults).trail) : d.target = disk.target :=
  congrArg Disk.target (List.mem_singleton.mp h)

/-- How a program ends. -/
inductive Out (ε α : Type)
  | ok (a : α)
  | err (e : ε)
  | died
  deriving DecidableEq, Repr

/-- Programs over the disk. -/
def FileM (ε α : Type) : Type := World → Out ε α × World

variable {ε ε' α β : Type}

namespace FileM

/-- Continue after success; an error or a death ends the program. -/
def bind (m : FileM ε α) (f : α → FileM ε β) : FileM ε β := fun w =>
  match m w with
  | (.ok a, w) => f a w
  | (.err e, w) => (.err e, w)
  | (.died, w) => (.died, w)

instance : Monad (FileM ε) where
  pure a w := (.ok a, w)
  bind := bind

def throw (e : ε) : FileM ε α := fun w => (.err e, w)

/-- `Result::map_err`. -/
def mapErr (m : FileM ε α) (f : ε → ε') : FileM ε' α := fun w =>
  match m w with
  | (.ok a, w) => (.ok a, w)
  | (.err e, w) => (.err (f e), w)
  | (.died, w) => (.died, w)

/-- Lift an answer that does not touch the disk. -/
def ofExcept : Except ε α → FileM ε α
  | .ok a => fun w => (.ok a, w)
  | .error e => throw e

theorem pure_run (a : α) (w : World) : (pure a : FileM ε α) w = (.ok a, w) := rfl

theorem throw_run (e : ε) (w : World) : (throw e : FileM ε α) w = (.err e, w) := rfl

theorem bind_run (m : FileM ε α) (f : α → FileM ε β) (w : World) :
    (m >>= f) w =
      match m w with
      | (.ok a, w) => f a w
      | (.err e, w) => (.err e, w)
      | (.died, w) => (.died, w) := rfl

theorem ofExcept_ok {answer : Except ε α} {w w' : World} {a : α}
    (h : ofExcept answer w = (.ok a, w')) : answer = .ok a := by
  cases answer with
  | error e => cases h
  | ok b =>
      cases h
      rfl

theorem mapErr_eq_err {m : FileM ε α} {f : ε → ε'} {w w' : World} {e : ε'}
    (h : m.mapErr f w = (.err e, w')) : ∃ source, e = f source := by
  unfold mapErr at h
  split at h
  · cases h
  · cases h
    exact ⟨_, rfl⟩
  · cases h

end FileM

/-! ### Operations -/

/-- One file operation: it leaves `done` when it succeeds, and `cut written` when it is cut
short. -/
def op (done : Disk → Disk) (cut : Disk → ℕ → Disk) : FileM ErrorKind Unit := fun w =>
  match w.faults with
  | [] => (.ok (), ⟨done w.disk, [], done w.disk :: w.trail⟩)
  | .proceed :: faults => (.ok (), ⟨done w.disk, faults, done w.disk :: w.trail⟩)
  | .fail kind n :: faults => (.err kind, ⟨cut w.disk n, faults, cut w.disk n :: w.trail⟩)
  | .die n :: faults => (.died, ⟨cut w.disk n, faults, cut w.disk n :: w.trail⟩)

/-- An operation that leaves both files as they are. -/
def passive : FileM ErrorKind Unit := op id fun d _ => d

/-- `fs::read` of the target. -/
def readTarget : FileM ErrorKind (List UInt8) := do
  passive
  fun w =>
    match w.disk.target with
    | none => (.err .notFound, w)
    | some bytes => (.ok bytes, w)

/-- `fs::create_dir_all` of the parent directory. -/
def createDirAll : FileM ErrorKind Unit := passive

/-- Open the temporary file for writing, created or truncated. -/
def openTmp : FileM ErrorKind Unit := op (fun d => { d with tmp := some [] }) fun d _ => d

/-- `write_all` to the temporary file. -/
def writeTmp (body : List UInt8) : FileM ErrorKind Unit :=
  op (fun d => { d with tmp := some body }) fun d n => { d with tmp := some (body.take n) }

/-- `sync_all` on the temporary file. -/
def syncTmp : FileM ErrorKind Unit := passive

/-- `fs::rename` of the temporary file to the target. -/
def renameTmp : FileM ErrorKind Unit := op (fun d => ⟨d.tmp, none⟩) fun d _ => d

/-- Which of its four operations a replacement failed in. -/
inductive ReplaceStage
  | openFile
  | writeAll
  | syncAll
  | rename
  deriving DecidableEq, Repr

/-- Write a temporary file, flush it, and rename it over the target. -/
def replaceTarget (body : List UInt8) : FileM (ReplaceStage × ErrorKind) Unit := do
  openTmp.mapErr fun kind => (.openFile, kind)
  (writeTmp body).mapErr fun kind => (.writeAll, kind)
  syncTmp.mapErr fun kind => (.syncAll, kind)
  renameTmp.mapErr fun kind => (.rename, kind)

/-! ### Stretches that keep the target -/

/-- Between the worlds `w` and `w'` the target file did not change. -/
structure Keeps (w w' : World) : Prop where
  target : w'.disk.target = w.disk.target
  trail : ∀ d ∈ w'.trail, d ∈ w.trail ∨ d.target = w.disk.target

theorem Keeps.refl (w : World) : Keeps w w := ⟨rfl, fun _ hd => .inl hd⟩

theorem Keeps.trans {w w' w'' : World} (h : Keeps w w') (h' : Keeps w' w'') : Keeps w w'' := by
  refine ⟨h'.target.trans h.target, ?_⟩
  intro d hd
  rcases h'.trail d hd with hd | hd
  · exact h.trail d hd
  · exact .inr (hd.trans h.target)

/-- The program ends in success with `Q`, or it ends otherwise and has kept the target. -/
def Attempt (m : FileM ε α) (w : World) (Q : α → World → Prop) : Prop :=
  match m w with
  | (.ok a, w') => Q a w'
  | (.err _, w') => Keeps w w'
  | (.died, w') => Keeps w w'

theorem attempt_pure {a : α} {w : World} {Q : α → World → Prop} (h : Q a w) :
    Attempt (pure a : FileM ε α) w Q := h

theorem attempt_mapErr {m : FileM ε α} {w : World} {Q : α → World → Prop} (h : Attempt m w Q)
    (f : ε → ε') : Attempt (m.mapErr f) w Q := by
  unfold Attempt FileM.mapErr at *
  cases hm : m w with
  | mk out w' =>
      rw [hm] at h
      cases out with
      | ok a => exact h
      | err e => exact h
      | died => exact h

/-- The rule for sequencing: the first program keeps the target, and the second goes on from
there. -/
theorem attempt_bind {m : FileM ε α} {f : α → FileM ε β} {w : World} {Q : β → World → Prop}
    (h : Attempt m w fun a w' => Keeps w w' ∧ Attempt (f a) w' Q) : Attempt (m >>= f) w Q := by
  unfold Attempt at h ⊢
  rw [FileM.bind_run]
  cases hm : m w with
  | mk out w' =>
      rw [hm] at h
      cases out with
      | err e => exact h
      | died => exact h
      | ok a =>
          obtain ⟨hkeeps, hrest⟩ := h
          dsimp only at hrest ⊢
          cases hf : f a w' with
          | mk out' w'' =>
              rw [hf] at hrest
              cases out' with
              | ok b => exact hrest
              | err e => exact hkeeps.trans hrest
              | died => exact hkeeps.trans hrest

theorem attempt_mono {m : FileM ε α} {w : World} {Q Q' : α → World → Prop} (h : Attempt m w Q)
    (hQ : ∀ a w', Q a w' → Q' a w') : Attempt m w Q' := by
  unfold Attempt at *
  cases hm : m w with
  | mk out w' =>
      rw [hm] at h
      cases out with
      | ok a => exact hQ a w' h
      | err e => exact h
      | died => exact h

/-- The three ways an attempt can end. -/
theorem Attempt.cases {m : FileM ε α} {w : World} {Q : α → World → Prop} (h : Attempt m w Q) :
    (∃ a w', m w = (.ok a, w') ∧ Q a w') ∨ (∃ e w', m w = (.err e, w') ∧ Keeps w w') ∨
      ∃ w', m w = (.died, w') ∧ Keeps w w' := by
  unfold Attempt at h
  cases hm : m w with
  | mk out w' =>
      rw [hm] at h
      cases out with
      | ok a => exact .inl ⟨a, w', rfl, h⟩
      | err e => exact .inr (.inl ⟨e, w', rfl, h⟩)
      | died => exact .inr (.inr ⟨w', rfl, h⟩)

/-- A step onto a disk with the same target keeps it. -/
theorem keeps_step {w : World} {d : Disk} (hd : d.target = w.disk.target) (faults : List Fault) :
    Keeps w ⟨d, faults, d :: w.trail⟩ := by
  refine ⟨hd, ?_⟩
  intro d' hd'
  rcases List.mem_cons.mp hd' with rfl | hd'
  · exact .inr hd
  · exact .inl hd'

/-- An operation that is cut short without having touched the target. -/
theorem attempt_op {done : Disk → Disk} {cut : Disk → ℕ → Disk}
    (hcut : ∀ d n, (cut d n).target = d.target) (w : World) :
    Attempt (op done cut) w fun _ w' =>
      w'.disk = done w.disk ∧ w'.trail = done w.disk :: w.trail := by
  unfold Attempt op
  cases w.faults with
  | nil => exact ⟨rfl, rfl⟩
  | cons fault faults =>
      cases fault with
      | proceed => exact ⟨rfl, rfl⟩
      | fail kind n => exact keeps_step (hcut _ _) faults
      | die n => exact keeps_step (hcut _ _) faults

/-- **Every operation but the rename keeps the target**, whatever the environment does. -/
theorem attempt_op_keeps {done : Disk → Disk} {cut : Disk → ℕ → Disk}
    (hdone : ∀ d, (done d).target = d.target) (hcut : ∀ d n, (cut d n).target = d.target)
    (w : World) :
    Attempt (op done cut) w fun _ w' => Keeps w w' ∧ w'.disk = done w.disk := by
  refine attempt_mono (attempt_op hcut w) ?_
  rintro - ⟨disk, faults, trail⟩ ⟨hdisk, htrail⟩
  dsimp only at hdisk htrail
  subst hdisk htrail
  exact ⟨keeps_step (hdone _) faults, rfl⟩

theorem attempt_passive (w : World) :
    Attempt passive w fun _ w' => Keeps w w' ∧ w'.disk = w.disk :=
  attempt_op_keeps (fun _ => rfl) (fun _ _ => rfl) w

theorem attempt_openTmp (w : World) :
    Attempt openTmp w fun _ w' => Keeps w w' ∧ w'.disk = { w.disk with tmp := some [] } :=
  attempt_op_keeps (by intro d; rfl) (by intro d n; rfl) w

theorem attempt_writeTmp (body : List UInt8) (w : World) :
    Attempt (writeTmp body) w fun _ w' => Keeps w w' ∧ w'.disk = { w.disk with tmp := some body } :=
  attempt_op_keeps (by intro d; rfl) (by intro d n; rfl) w

theorem attempt_renameTmp (w : World) :
    Attempt renameTmp w fun _ w' =>
      w'.disk = ⟨w.disk.tmp, none⟩ ∧ w'.trail = ⟨w.disk.tmp, none⟩ :: w.trail :=
  attempt_op (fun _ _ => rfl) w

/-- Reading answers with the contents of the target, and keeps it. -/
theorem attempt_readTarget (w : World) :
    Attempt readTarget w fun bytes w' => Keeps w w' ∧ w.disk.target = some bytes := by
  refine attempt_bind (attempt_mono (attempt_passive w) ?_)
  rintro - w' ⟨hkeeps, hdisk⟩
  refine ⟨hkeeps, ?_⟩
  unfold Attempt
  dsimp only
  cases htarget : w'.disk.target with
  | none => exact Keeps.refl w'
  | some bytes => exact ⟨hkeeps, by rw [← hdisk, htarget]⟩

/-- Between the worlds `w` and `w'` the target went from its old contents to `body`, with nothing in
between. -/
structure Replaces (w w' : World) (body : List UInt8) : Prop where
  target : w'.disk.target = some body
  trail : ∀ d ∈ w'.trail, d ∈ w.trail ∨ d.target = w.disk.target ∨ d.target = some body

/-- A stretch that kept the target, followed by its replacement. -/
theorem Keeps.replaces {w w' w'' : World} {body : List UInt8} (h : Keeps w w')
    (h' : Replaces w' w'' body) : Replaces w w'' body := by
  refine ⟨h'.target, ?_⟩
  intro d hd
  rcases h'.trail d hd with hd | hd | hd
  · rcases h.trail d hd with hd | hd
    · exact .inl hd
    · exact .inr (.inl hd)
  · exact .inr (.inl (hd.trans h.target))
  · exact .inr (.inr hd)

/-- A replacement, followed by a stretch that kept the target. -/
theorem Replaces.keeps {w w' w'' : World} {body : List UInt8} (h : Replaces w w' body)
    (h' : Keeps w' w'') : Replaces w w'' body := by
  refine ⟨h'.target.trans h.target, ?_⟩
  intro d hd
  rcases h'.trail d hd with hd | hd
  · exact h.trail d hd
  · exact .inr (.inr (hd.trans h.target))

/-- **The replacement is atomic.**  It succeeds and the target went from its old contents to the new
ones in one step, or it does not succeed and the target was never touched. -/
theorem attempt_replaceTarget (body : List UInt8) (w : World) :
    Attempt (replaceTarget body) w fun _ w' => Replaces w w' body := by
  refine attempt_bind (attempt_mono (attempt_mapErr (attempt_openTmp w) _) ?_)
  rintro - w₁ ⟨hkeeps₁, -⟩
  refine ⟨hkeeps₁, attempt_bind (attempt_mono (attempt_mapErr (attempt_writeTmp body w₁) _) ?_)⟩
  rintro - w₂ ⟨hkeeps₂, hdisk₂⟩
  refine ⟨hkeeps₂, attempt_bind (attempt_mono (attempt_mapErr (attempt_passive w₂) _) ?_)⟩
  rintro - w₃ ⟨hkeeps₃, hdisk₃⟩
  refine ⟨hkeeps₃, attempt_mono (attempt_mapErr (attempt_renameTmp w₃) _) ?_⟩
  rintro - w₄ ⟨hdisk₄, htrail₄⟩
  have htmp : w₃.disk.tmp = some body := by rw [hdisk₃, hdisk₂]
  refine (hkeeps₁.trans (hkeeps₂.trans hkeeps₃)).replaces ⟨by rw [hdisk₄, htmp], ?_⟩
  intro d hd
  rw [htrail₄] at hd
  rcases List.mem_cons.mp hd with rfl | hd
  · exact .inr (.inr htmp)
  · exact .inl hd

end FileIO
