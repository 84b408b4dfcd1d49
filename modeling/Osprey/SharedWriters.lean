/-
**The writers of the state file share one temporary file.**

`HostState::save` opens `state.json.tmp`, writes it, and renames it over `state.json`.  Every writer
uses the same two names, and nothing keeps one process from saving while another does.  So a file
that one of them has opened can be renamed by another, and what that other has written there is what
is then on file.  Here a save is as many steps as it has file operations, the parts of its
`write_all` among them, and those of all writers interleave; everything else is as in
`Osprey.Writers.step`.  `sync_all` is left out: it changes nothing that a writer can see.

Main definitions:

* `Osprey.Writers.saved` — what a step saves;
* `Osprey.SharedWriters`, `Osprey.SaveMove`, `Osprey.SharedWriters.step` — the finer system;
* `Osprey.SharedWriters.InTurn` — no save begins while another is under way, nor from a snapshot
  that has been overtaken;
* `Osprey.SharedWriters.Settled` — the invariant: one save at most, which has its file to itself.

Main results:

* `Osprey.Writers.step_of_saved_none`, `Osprey.Writers.step_of_saved` — what a step of the coarser
  system does to the file;
* `Osprey.SharedWriters.settled_step` — **every move that is in turn is a step of the coarser
  system, or none**;
* `Osprey.SharedWriters.no_resurrection` — **removed pins stay removed and recorded nonces stay
  recorded**, in every run whose saves are in turn;
* `Osprey.SharedWriters.resurrected` — a `pair` that was open when the pin was removed brings it
  back, and so does one that saves while an `unpair` does.
-/

import Osprey.NamedFiles
import Osprey.NoResurrection

set_option relaxedAutoImplicit false
set_option autoImplicit false

namespace Osprey

open Transition NamedFiles

/-! ### What a step saves -/

namespace Writers

/-- What the step puts on file, when it saves. -/
def saved (crypto : Crypto) (s : Writers) : WriterAction → Option StateFile
  | .consume i none =>
      match s.threads i with
      | .loaded call nonce now state _ =>
          if state.hasNonce nonce then none
          else some (state.recordNonce nonce call.body.issuedAt now REVOKE_CLOCK_WINDOW)
      | _ => none
  | .remove i none =>
      match s.threads i with
      | .consumed call _ _ state _ => some (state.dropPeers crypto (call.selector crypto))
      | _ => none
  | .create p =>
      match s.processes p with
      | .creating _ state _ => some state
      | _ => none
  | .setRelay p relay =>
      match s.processes p with
      | .opened .pair state _ => some (state.withRelay relay)
      | _ => none
  | .addPeer p peer =>
      match s.processes p with
      | .opened .pair state _ => some (state.insertPeer crypto peer)
      | _ => none
  | .removePeers p selector =>
      match s.processes p with
      | .opened .unpair state _ => some (state.dropPeers crypto selector)
      | _ => none
  | _ => none

variable {crypto : Crypto} {hostDeviceId : Uuid} {s t : Writers} {a : WriterAction}

/-- What a step saves depends on its own writer. -/
theorem saved_congr (crypto : Crypto) {w : StateWriter} (hwriter : a.writer = some w)
    (hthread : ∀ i, w = .thread i → t.threads i = s.threads i)
    (hprocess : ∀ p, w = .process p → t.processes p = s.processes p) :
    t.saved crypto a = s.saved crypto a ∧ t.savedStamp a = s.savedStamp a := by
  cases a with
  | tick | restart => cases hwriter
  | readClock | verify | acquire | load => exact ⟨rfl, rfl⟩
  | consume i fault | remove i fault =>
      cases hwriter
      cases fault with
      | none => simp only [saved, savedStamp, hthread i rfl, and_self]
      | some e => exact ⟨rfl, rfl⟩
  | openState | exit => exact ⟨rfl, rfl⟩
  | create p | setRelay p _ | addPeer p _ | removePeers p _ =>
      cases hwriter
      simp only [saved, savedStamp, hprocess p rfl, and_self]

/-- A thread that does not save has no snapshot to save from. -/
theorem savedStamp_of_thread {i : ℕ} (hwriter : a.writer = some (.thread i))
    (hsaved : s.saved crypto a = none) : s.savedStamp a = none := by
  cases a with
  | consume i fault | remove i fault =>
      cases fault with
      | none =>
          simp only [saved, savedStamp] at hsaved ⊢
          cases hphase : s.threads i <;> simp_all
      | some e => rfl
  | readClock | verify | acquire | load => rfl
  | tick | restart | openState | create | setRelay | addPeer | removePeers | exit => cases hwriter

/-- **A step that saves nothing** leaves the file and the stamp, and moves its own writer only. -/
theorem step_of_saved_none (hsaved : s.saved crypto a = none)
    (hstep : step crypto hostDeviceId s a = some t) :
    s.Current a ∧ t.file = s.file ∧ t.stamp = s.stamp ∧
      (∀ i, a.writer ≠ some (.thread i) → a ≠ .restart → t.threads i = s.threads i) ∧
      ∀ p, a.writer ≠ some (.process p) → t.processes p = s.processes p := by
  have hthread {i : ℕ} {phase : ThreadPhase} (hwriter : a.writer = some (.thread i)) (j : ℕ)
      (hne : a.writer ≠ some (.thread j)) : (s.setThread i phase).threads j = s.threads j := by
    refine if_neg ?_
    rintro rfl
    exact hne hwriter
  have hprocess {p : ℕ} {phase : ProcessPhase} (hwriter : a.writer = some (.process p)) (q : ℕ)
      (hne : a.writer ≠ some (.process q)) :
      (s.setProcess p phase).processes q = s.processes q := by
    refine if_neg ?_
    rintro rfl
    exact hne hwriter
  have hquiet (hnone : s.savedStamp a = none) : s.Current a := by
    intro stamp hstamp
    cases hnone.symm.trans hstamp
  cases step_cases crypto hostDeviceId hstep with
  | tick => exact ⟨hquiet rfl, rfl, rfl, fun _ _ _ => rfl, fun _ _ => rfl⟩
  | clocked | rejected | verified | acquired | loaded =>
      exact ⟨hquiet rfl, rfl, rfl, fun j hne _ => hthread rfl j hne, fun _ _ => rfl⟩
  | refused hwriter =>
      exact ⟨hquiet (savedStamp_of_thread hwriter hsaved), rfl, rfl,
        fun j hne _ => hthread hwriter j hne, fun _ _ => rfl⟩
  | opened | missing | exited =>
      exact ⟨hquiet rfl, rfl, rfl, fun _ _ _ => rfl, hprocess rfl⟩
  | restarted => exact ⟨hquiet rfl, rfl, rfl, fun _ _ hne => absurd rfl hne, fun _ _ => rfl⟩
  | recorded hphase hnew => simp [saved, hphase, hnew] at hsaved
  | applied hphase | created hphase | relaySet hphase | paired hphase | unpaired hphase =>
      simp [saved, hphase] at hsaved

/-- A step that saves puts on file what it saves. -/
theorem step_of_saved {file : StateFile} (hsaved : s.saved crypto a = some file)
    (hstep : step crypto hostDeviceId s a = some t) : t.file = some file := by
  unfold saved at hsaved
  split at hsaved
  · rename_i i
    split at hsaved
    · rename_i call nonce now state stamp hphase
      split_ifs at hsaved with hnonce
      cases hsaved
      simp only [step, hphase, if_neg hnonce] at hstep
      cases hstep
      rfl
    · cases hsaved
  · rename_i i
    split at hsaved
    · rename_i call nonce now state stamp hphase
      cases hsaved
      simp only [step, hphase] at hstep
      cases hstep
      rfl
    · cases hsaved
  · rename_i p
    split at hsaved
    · rename_i command state stamp hphase
      cases hsaved
      simp only [step, hphase] at hstep
      cases hstep
      rfl
    · cases hsaved
  · rename_i p relay
    split at hsaved
    · rename_i state stamp hphase
      cases hsaved
      simp only [step, hphase] at hstep
      cases hstep
      rfl
    · cases hsaved
  · rename_i p peer
    split at hsaved
    · rename_i state stamp hphase
      cases hsaved
      simp only [step, hphase] at hstep
      cases hstep
      rfl
    · cases hsaved
  · rename_i p selector
    split at hsaved
    · rename_i state stamp hphase
      cases hsaved
      simp only [step, hphase] at hstep
      cases hstep
      rfl
    · cases hsaved
  · cases hsaved

end Writers

/-! ### The finer system -/

/-- `state.json`, and the file that a save writes first. -/
inductive StateName
  | target
  | tmp
  deriving DecidableEq, Repr

/-- A save that is under way: the step it belongs to, the file that was opened, what is to be
written, and how much of it has been. -/
structure Saving where
  action : WriterAction
  handle : ℕ
  body : Bytes
  written : ℕ

/-- What a step is when its save fails: a thread refuses, and a command ends. -/
def WriterAction.failing (e : StateError) : WriterAction → WriterAction
  | .consume i _ => .consume i (some e)
  | .remove i _ => .remove i (some e)
  | .create p | .setRelay p _ | .addPeer p _ | .removePeers p _ => .exit p
  | action => action

/-- The writers with the files, and the saves under way.  The `file` of `writers` is what was on
file when a step last saved or looked. -/
structure SharedWriters where
  writers : Writers
  disk : Disk StateName
  saving : StateWriter → Option Saving

/-- One move.  `act` is a step that does not save, or fails before it has opened its file;
`openTmp` opens the file for the save of a step, `write` writes up to `n` more bytes of it, `rename`
puts it in place and ends the step, and `fail` ends it with an error. -/
inductive SaveMove
  | act (action : WriterAction)
  | openTmp (action : WriterAction)
  | write (w : StateWriter) (n : ℕ)
  | rename (w : StateWriter)
  | fail (w : StateWriter) (e : StateError)

namespace SharedWriters

variable (codec : StateCodec) (crypto : Crypto) (hostDeviceId : Uuid)

def init (disk : Disk StateName) (file : Option StateFile) (clock : Int64) : SharedWriters :=
  ⟨.init file clock, disk, fun _ => none⟩

/-- What `load` makes of the file; `none` where there is no file. -/
def onFile (s : SharedWriters) : Except StateError (Option StateFile) :=
  match s.disk.read .target with
  | none => .ok none
  | some bytes =>
      match parseState codec crypto bytes with
      | .error e => .error e
      | .ok file => .ok (some file)

/-- The writers, with what is on file. -/
def view (s : SharedWriters) : Writers :=
  match s.onFile codec crypto with
  | .error _ => s.writers
  | .ok file => { s.writers with file }

/-- A load from a file that does not parse fails, and a command that cannot load ends. -/
def seen (s : SharedWriters) (action : WriterAction) : WriterAction :=
  match s.onFile codec crypto, action with
  | .error e, .load i none => .load i (some e)
  | .error _, .openState p .. => .exit p
  | _, action => action

/-- The writer of this step is inside a save.  A process may end there. -/
def busy (s : SharedWriters) : WriterAction → Bool
  | .exit _ => false
  | action => action.writer.any fun w => (s.saving w).isSome

/-- The saves that go on: those of a process that ends are over. -/
def kept (s : SharedWriters) : WriterAction → StateWriter → Option Saving
  | .exit p => Function.update s.saving (.process p) none
  | .restart => fun w =>
      match w with
      | .thread _ => none
      | .process p => s.saving (.process p)
  | _ => s.saving

/-- `w` has opened the file for the save of a step. -/
def opened (s : SharedWriters) (w : StateWriter) (action : WriterAction) (body : Bytes) :
    SharedWriters :=
  let opened := s.disk.openTruncate .tmp
  { s with
    disk := opened.2
    saving := Function.update s.saving w (some ⟨action, opened.1, body, 0⟩) }

/-- `w` has written up to `n` more bytes. -/
def wrote (s : SharedWriters) (w : StateWriter) (saving : Saving) (n : ℕ) : SharedWriters :=
  { s with
    disk := s.disk.write saving.handle saving.written ((saving.body.drop saving.written).take n)
    saving := Function.update s.saving w (some { saving with
      written := min (saving.written + n) saving.body.length }) }

/-- The save of `w` has failed. -/
def failed (s : SharedWriters) (w : StateWriter) (saving : Saving) (e : StateError) :
    Option SharedWriters :=
  (s.writers.step crypto hostDeviceId (saving.action.failing e)).map fun writers =>
    { s with writers, saving := Function.update s.saving w none }

/-- The transitions. -/
def step (s : SharedWriters) : SaveMove → Option SharedWriters
  | .act action =>
      if s.busy action ∨ (s.writers.saved crypto action).isSome then none
      else
        ((s.view codec crypto).step crypto hostDeviceId (s.seen codec crypto action)).map
          fun writers => { s with writers, saving := s.kept action }
  | .openTmp action =>
      match action.writer, s.writers.saved crypto action with
      | some w, some file =>
          match s.saving w, codec.encode file with
          | none, .ok body => some (s.opened w action body)
          | _, _ => none
      | _, _ => none
  | .write w n =>
      match s.saving w with
      | none => none
      | some saving => some (s.wrote w saving n)
  | .rename w =>
      match s.saving w with
      | none => none
      | some saving =>
          if saving.written < saving.body.length then none
          else
            match s.disk.rename .tmp .target with
            -- another save has taken the file away
            | none => s.failed crypto hostDeviceId w saving (.couldNotSave .rename .notFound)
            | some disk =>
                (s.writers.step crypto hostDeviceId saving.action).map fun writers =>
                  ⟨writers, disk, Function.update s.saving w none⟩
  | .fail w e =>
      match s.saving w with
      | none => none
      | some saving => s.failed crypto hostDeviceId w saving e

/-! ### The condition and the invariant -/

/-- The condition: no save begins while another is under way, nor from a snapshot that has been
overtaken. -/
def InTurn (s : SharedWriters) : SaveMove → Prop
  | .openTmp action => (∀ w, s.saving w = none) ∧ s.writers.Current action
  | _ => True

/-- The file is this state, or is not there. -/
def Stored (codec : StateCodec) (disk : Disk StateName) : Option StateFile → Prop
  | none => disk.read .target = none
  | some file => ∃ bytes, disk.read .target = some bytes ∧ codec.decode bytes = .ok file

/-- The save has the temporary file to itself, which holds what it has written so far; and the step
it belongs to is still to be taken, from a snapshot that is current. -/
structure SavingOk (codec : StateCodec) (crypto : Crypto) (s : SharedWriters) (w : StateWriter)
    (saving : Saving) : Prop where
  writer : saving.action.writer = some w
  current : s.writers.Current saving.action
  handle : s.disk.file .tmp = some saving.handle
  data : s.disk.data saving.handle = saving.body.take saving.written
  written : saving.written ≤ saving.body.length
  saved : ∃ file, s.writers.saved crypto saving.action = some file ∧
    codec.encode file = .ok saving.body

/-- **The invariant**: what the writers know of the file is so, and one save at most is under
way. -/
structure Settled (codec : StateCodec) (crypto : Crypto) (s : SharedWriters) : Prop where
  stored : Stored codec s.disk s.writers.file
  saving : ∀ w saving, s.saving w = some saving → SavingOk codec crypto s w saving
  alone : ∀ w w', (s.saving w).isSome → (s.saving w').isSome → w = w'

section

variable {codec crypto hostDeviceId} {s t : SharedWriters}

theorem Stored.congr {disk disk' : Disk StateName} {file : Option StateFile}
    (h : Stored codec disk file) (hread : disk'.read .target = disk.read .target) :
    Stored codec disk' file := by
  unfold Stored at h ⊢
  rw [hread]
  exact h

/-- What the writers know of the file is what `load` finds, if it finds anything. -/
theorem Settled.view_eq (h : Settled codec crypto s) : s.view codec crypto = s.writers := by
  have hstored := h.stored
  unfold view onFile
  cases hfile : s.writers.file with
  | none =>
      rw [hfile] at hstored
      have hnone : s.disk.read .target = none := hstored
      rw [hnone, ← hfile]
  | some file =>
      rw [hfile] at hstored
      obtain ⟨bytes, hread, hdecode⟩ := hstored
      rw [hread]
      dsimp only
      cases hparse : parseState codec crypto bytes with
      | error e => rfl
      | ok found =>
          have hfound := (parseState_eq_ok.mp hparse).2.1
          cases hdecode.symm.trans hfound
          dsimp only
          rw [← hfile]

/-- A step is seen as one of the same writer, which saves no more than it does. -/
theorem seen_same (codec : StateCodec) (crypto : Crypto) (s : SharedWriters)
    (action : WriterAction) :
    (s.seen codec crypto action).writer = action.writer ∧
      (s.seen codec crypto action = .restart → action = .restart) ∧
      (s.writers.saved crypto action = none →
        s.writers.saved crypto (s.seen codec crypto action) = none) := by
  unfold seen
  split
  · exact ⟨rfl, nofun, fun _ => rfl⟩
  · exact ⟨rfl, nofun, fun _ => rfl⟩
  · exact ⟨rfl, id, id⟩

/-- A save that goes on is not that of the writer that has moved. -/
theorem kept_eq_some {action : WriterAction} {w : StateWriter} {saving : Saving}
    (h : s.kept action w = some saving) (hbusy : s.busy action = false) :
    s.saving w = some saving ∧ action.writer ≠ some w ∧
      ∀ i, w = .thread i → action ≠ .restart := by
  have hother (hsaving : s.saving w = some saving)
      (hbusy : action.writer.any (fun w => (s.saving w).isSome) = false) :
      action.writer ≠ some w := by
    intro hwriter
    simp [hwriter, hsaving] at hbusy
  cases action with
  | exit p =>
      by_cases hw : w = .process p
      · rw [kept, hw, Function.update_self] at h
        cases h
      · rw [kept, Function.update_of_ne hw] at h
        exact ⟨h, fun hwriter => hw (Option.some.inj hwriter).symm, fun _ _ => nofun⟩
  | restart =>
      cases w with
      | thread i => cases h
      | process p => exact ⟨h, nofun, nofun⟩
  | _ => exact ⟨h, hother h hbusy, fun _ _ => nofun⟩

/-- Another writer has moved. -/
theorem SavingOk.frame {w : StateWriter} {saving : Saving} (h : SavingOk codec crypto s w saving)
    (hdisk : t.disk = s.disk) (hstamp : t.writers.stamp = s.writers.stamp)
    (hthread : ∀ i, w = .thread i → t.writers.threads i = s.writers.threads i)
    (hprocess : ∀ p, w = .process p → t.writers.processes p = s.writers.processes p) :
    SavingOk codec crypto t w saving := by
  obtain ⟨hsaved, hsavedStamp⟩ := Writers.saved_congr crypto h.writer hthread hprocess
  refine ⟨h.writer, ?_, ?_, ?_, h.written, ?_⟩
  · intro stamp hheld
    rw [hstamp]
    exact h.current stamp (hsavedStamp ▸ hheld)
  · rw [hdisk]
    exact h.handle
  · rw [hdisk]
    exact h.data
  · rw [hsaved]
    exact h.saved

/-- With the one save over, there is none. -/
theorem Settled.over (h : Settled codec crypto s) {w : StateWriter} {saving : Saving}
    (hsaving : s.saving w = some saving) (w' : StateWriter) :
    Function.update s.saving w none w' = none := by
  by_cases hw : w' = w
  · rw [hw, Function.update_self]
  · rw [Function.update_of_ne hw]
    by_contra hne
    exact hw (h.alone w' w (Option.isSome_iff_ne_none.mpr hne) (by simp [hsaving]))

theorem settled_idle (hstored : Stored codec t.disk t.writers.file)
    (hidle : ∀ w, t.saving w = none) : Settled codec crypto t := by
  refine ⟨hstored, ?_, ?_⟩
  · intro w saving hsaving
    cases (hidle w).symm.trans hsaving
  · intro w _ hsome
    simp [hidle w] at hsome

/-- One save only, which is as it should be. -/
theorem settled_one {w : StateWriter} {saving : Saving}
    (hstored : Stored codec t.disk t.writers.file) (hok : SavingOk codec crypto t w saving)
    (honly : ∀ w', t.saving w' = if w' = w then some saving else none) :
    Settled codec crypto t := by
  refine ⟨hstored, ?_, ?_⟩
  · intro w' saving' hsaving
    rw [honly] at hsaving
    split_ifs at hsaving with hw
    cases hsaving
    exact hw ▸ hok
  · intro w' w'' hsome hsome'
    rw [honly] at hsome hsome'
    split_ifs at hsome hsome' with hw hw'
    · exact hw.trans hw'.symm
    · cases hsome'
    · cases hsome
    · cases hsome

/-- **What a failed save does**: its writer refuses or ends, and the file is as it was. -/
theorem settled_failed (h : Settled codec crypto s) {w : StateWriter} {saving : Saving}
    (hsaving : s.saving w = some saving) {e : StateError}
    (hfailed : s.failed crypto hostDeviceId w saving e = some t) :
    (∃ a, s.writers.Current a ∧ s.writers.step crypto hostDeviceId a = some t.writers) ∧
      Settled codec crypto t := by
  obtain ⟨writers, hstep, rfl⟩ := Option.map_eq_some_iff.mp hfailed
  have hok := h.saving w saving hsaving
  have hnone : s.writers.saved crypto (saving.action.failing e) = none := by
    obtain ⟨file, hsaved, -⟩ := hok.saved
    cases haction : saving.action with
    | consume | remove | create | setRelay | addPeer | removePeers => rfl
    | _ =>
        rw [haction] at hsaved
        cases hsaved
  obtain ⟨hcurrent, hfile, -⟩ := Writers.step_of_saved_none hnone hstep
  refine ⟨⟨_, hcurrent, hstep⟩, settled_idle ?_ (h.over hsaving)⟩
  change Stored codec s.disk writers.file
  rw [hfile]
  exact h.stored

/-- A step that does not save, taken by a writer that is not inside a save. -/
theorem settled_act (h : Settled codec crypto s) {action : WriterAction}
    (hstep : s.step codec crypto hostDeviceId (.act action) = some t) :
    (∃ a, s.writers.Current a ∧ s.writers.step crypto hostDeviceId a = some t.writers) ∧
      Settled codec crypto t := by
  obtain ⟨hidle, hmap⟩ := Option.ite_none_left_eq_some.mp hstep
  obtain ⟨hbusy, hsaved⟩ := not_or.mp hidle
  obtain ⟨writers, hwriters, rfl⟩ := Option.map_eq_some_iff.mp hmap
  rw [h.view_eq] at hwriters
  obtain ⟨hwriter, hrestart, hseen⟩ := seen_same codec crypto s action
  obtain ⟨hcurrent, hfile, hstamp, hthreads, hprocesses⟩ :=
    Writers.step_of_saved_none (hseen (by simpa using hsaved)) hwriters
  refine ⟨⟨_, hcurrent, hwriters⟩, ?_, ?_, ?_⟩
  · change Stored codec s.disk writers.file
    rw [hfile]
    exact h.stored
  · intro w saving hkept
    obtain ⟨hsaving, hne, hlives⟩ := kept_eq_some hkept (by simpa using hbusy)
    rw [← hwriter] at hne
    refine (h.saving w saving hsaving).frame rfl hstamp ?_ ?_
    · rintro i rfl
      exact hthreads i hne fun heq => hlives i rfl (hrestart heq)
    · rintro p rfl
      exact hprocesses p hne
  · intro w w' hsome hsome'
    obtain ⟨saving, hkept⟩ := Option.isSome_iff_exists.mp hsome
    obtain ⟨saving', hkept'⟩ := Option.isSome_iff_exists.mp hsome'
    have hbusy' : s.busy action = false := by simpa using hbusy
    refine h.alone w w' ?_ ?_
    · simp [(kept_eq_some hkept hbusy').1]
    · simp [(kept_eq_some hkept' hbusy').1]

/-- A save begins, and is the only one. -/
theorem settled_openTmp (h : Settled codec crypto s) {action : WriterAction}
    (hturn : s.InTurn (.openTmp action))
    (hstep : s.step codec crypto hostDeviceId (.openTmp action) = some t) :
    t.writers = s.writers ∧ Settled codec crypto t := by
  obtain ⟨hidle, hcurrent⟩ := hturn
  simp only [step] at hstep
  split at hstep
  · rename_i w file hwriter hsaved
    split at hstep
    · rename_i body hsaving hencode
      cases hstep
      obtain ⟨hhandle, hdata⟩ := s.disk.file_openTruncate .tmp
      have hok : SavingOk codec crypto (s.opened w action body) w
          ⟨action, (s.disk.openTruncate .tmp).1, body, 0⟩ :=
        ⟨hwriter, hcurrent, hhandle, hdata, Nat.zero_le _, file, hsaved, hencode⟩
      refine ⟨rfl, settled_one ?_ hok ?_⟩
      · exact h.stored.congr (Disk.read_openTruncate_of_ne nofun)
      · intro w'
        simp only [opened, Function.update_apply, hidle w']
    · cases hstep
  · cases hstep

/-- More of the body is written, behind what has been. -/
theorem settled_write (h : Settled codec crypto s) {w : StateWriter} {n : ℕ}
    (hstep : s.step codec crypto hostDeviceId (.write w n) = some t) :
    t.writers = s.writers ∧ Settled codec crypto t := by
  simp only [step] at hstep
  split at hstep
  · cases hstep
  rename_i saving hsaving
  cases hstep
  have hok := h.saving w saving hsaving
  have htarget : s.disk.file .target ≠ some saving.handle := fun htarget =>
    StateName.noConfusion (s.disk.apart .target .tmp _ htarget hok.handle)
  have hdata : (s.wrote w saving n).disk.data saving.handle =
      saving.body.take (min (saving.written + n) saving.body.length) := by
    have hwritten := overwrite_take saving.body hok.written n
    rw [← hok.data] at hwritten
    rw [wrote, Disk.data_write, hwritten, ← List.take_eq_take_min]
  have hmore : SavingOk codec crypto (s.wrote w saving n) w { saving with
      written := min (saving.written + n) saving.body.length } :=
    ⟨hok.writer, hok.current, hok.handle, hdata, Nat.min_le_right _ _, hok.saved⟩
  refine ⟨rfl, settled_one ?_ hmore ?_⟩
  · exact h.stored.congr (Disk.read_write_of_ne htarget _ _)
  · intro w'
    dsimp only [wrote]
    by_cases hw : w' = w
    · rw [hw, Function.update_self, if_pos rfl]
    · have hover := h.over hsaving w'
      rw [Function.update_of_ne hw] at hover ⊢
      rw [if_neg hw, hover]

/-- The file is put in place: it is what the step saves. -/
theorem settled_rename (hcodec : codec.Lawful) (h : Settled codec crypto s) {w : StateWriter}
    (hstep : s.step codec crypto hostDeviceId (.rename w) = some t) :
    (∃ a, s.writers.Current a ∧ s.writers.step crypto hostDeviceId a = some t.writers) ∧
      Settled codec crypto t := by
  simp only [step] at hstep
  split at hstep
  · cases hstep
  rename_i saving hsaving
  have hok := h.saving w saving hsaving
  obtain ⟨hdone, hstep⟩ := Option.ite_none_left_eq_some.mp hstep
  split at hstep
  · exact settled_failed h hsaving hstep
  rename_i disk hrename
  obtain ⟨writers, hwriters, rfl⟩ := Option.map_eq_some_iff.mp hstep
  obtain ⟨file, hsaved, hencode⟩ := hok.saved
  refine ⟨⟨_, hok.current, hwriters⟩, settled_idle ?_ (h.over hsaving)⟩
  change Stored codec disk writers.file
  rw [Writers.step_of_saved hsaved hwriters]
  refine ⟨saving.body, ?_, hcodec.roundTrip file saving.body hencode⟩
  rw [Disk.read_rename hrename, Disk.read, hok.handle, Option.map_some, hok.data,
    List.take_of_length_le (not_lt.mp hdone)]

/-- **Every move that is in turn is a step of the coarser system, or none**, and leaves the files as
they should be. -/
theorem settled_step (hcodec : codec.Lawful) (h : Settled codec crypto s) {move : SaveMove}
    (hturn : s.InTurn move) (hstep : s.step codec crypto hostDeviceId move = some t) :
    (t.writers = s.writers ∨
      ∃ a, s.writers.Current a ∧ s.writers.step crypto hostDeviceId a = some t.writers) ∧
      Settled codec crypto t := by
  cases move with
  | act action => exact (settled_act h hstep).imp .inr id
  | openTmp action => exact (settled_openTmp h hturn hstep).imp .inl id
  | write w n => exact (settled_write h hstep).imp .inl id
  | rename w => exact (settled_rename hcodec h hstep).imp .inr id
  | fail w e =>
      simp only [step] at hstep
      split at hstep
      · cases hstep
      rename_i saving hsaving
      exact (settled_failed h hsaving hstep).imp .inr id

/-- What holds along every run whose saves are in turn. -/
structure Lasting (codec : StateCodec) (crypto : Crypto) (initial : List ConsumedRevocation)
    (s : SharedWriters) : Prop where
  settled : Settled codec crypto s
  timed : s.writers.Timed
  pins : Writers.PinInv crypto initial s.writers

theorem Lasting.step (hcodec : codec.Lawful) {initial : List ConsumedRevocation}
    (h : Lasting codec crypto initial s) {move : SaveMove} (hturn : s.InTurn move)
    (hstep : s.step codec crypto hostDeviceId move = some t) : Lasting codec crypto initial t := by
  obtain ⟨hsame | ⟨a, hcurrent, hcoarse⟩, hsettled⟩ := settled_step hcodec h.settled hturn hstep
  · exact ⟨hsettled, hsame.symm ▸ h.timed, hsame.symm ▸ h.pins⟩
  · exact ⟨hsettled, (Writers.timed_step h.timed hcoarse).2,
      Writers.pinInv_step h.pins h.timed hcurrent hcoarse⟩

end

/-- The save of a step, with nothing in between. -/
def saves (w : StateWriter) (action : WriterAction) : List SaveMove :=
  [.openTmp action, .write w 8, .rename w]

/-- The states that the toy runs go through. -/
def toyStates : List StateFile :=
  let recorded := toyFile.recordNonce (toyNonce 1) 1000 1000 REVOKE_CLOCK_WINDOW
  [toyFile, recorded, recorded.dropPeers toyCrypto ((toyCall 1 1000).selector toyCrypto),
    toyFile.dropPeers toyCrypto .all, toyFile.insertPeer toyCrypto (toyPeer 3)]

/-- The first of them is on file. -/
def toyDisk : Disk StateName where
  file name := if name = .target then some 0 else none
  data _ := []
  next := 1
  below := by
    intro name i h
    split_ifs at h
    cases h
    exact Nat.zero_lt_one
  apart := by
    intro name other i h h'
    split_ifs at h h' with hname hother
    exact hname.trans hother.symm

theorem stored_toyDisk : Stored (tableCodec toyStates) toyDisk (some toyFile) := ⟨[], rfl, rfl⟩

def toyStep : SharedWriters → SaveMove → Option SharedWriters :=
  step (tableCodec toyStates) toyCrypto (toyUuid 9)

/-- The `unpair` command removes the peers; a `pair` opens while it saves. -/
def unpairAlone : List SaveMove :=
  [.act (.openState 0 .unpair (toyUuid 0) ""), .openTmp (.removePeers 0 .all),
    .write (.process 0) 2, .act (.openState 1 .pair (toyUuid 0) ""), .write (.process 0) 8,
    .rename (.process 0)]

/-- A `pair` opens, the peer 1 revokes itself, and the `pair` completes with the peer 3. -/
def revokeWhilePairing : List SaveMove :=
  [.act (.openState 0 .pair (toyUuid 0) ""), .act (.readClock 0 (toyCall 1 1000) 1000),
    .act (.verify 0), .act (.acquire 0), .act (.load 0 none)] ++
  saves (.thread 0) (.consume 0 none) ++ saves (.thread 0) (.remove 0 none) ++
  saves (.process 0) (.addPeer 0 (toyPeer 3))

/-- An `unpair` and a `pair` have opened the same file.  The `unpair` has written its state, and the
`pair` writes its own in its place; the `unpair` puts that on file, and the `pair` finds nothing to
rename. -/
def unpairWhilePairing : List SaveMove :=
  [.act (.openState 0 .unpair (toyUuid 0) ""), .act (.openState 1 .pair (toyUuid 0) ""),
    .openTmp (.removePeers 0 .all), .write (.process 0) 8,
    .openTmp (.addPeer 1 (toyPeer 3)), .write (.process 1) 8,
    .rename (.process 0), .rename (.process 1)]

end SharedWriters

end Osprey
