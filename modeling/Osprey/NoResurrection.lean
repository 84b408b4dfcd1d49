/-
**A removed pin stays removed.**

Every writer saves the whole file from the snapshot it holds.  The session threads load theirs under
the lock, but a command holds its own from the moment it opens, and `pair` then waits for as long as
the pairing window is open.  When a removal lands in between, its save puts the removed peer back,
and takes the recorded nonce off the file again.  As long as no save is made from a snapshot that
has been overtaken in this way, removals and recordings last.  Here a save is one step;
`Osprey.SharedWriters` has its file operations.

Main definitions:

* `Osprey.Writers.Gone` — by the history, a fingerprint has been removed and not paired since;
* `Osprey.Writers.Current` — the step does not save from a snapshot overtaken by another writer's
  removal or recording;
* `Osprey.Writers.PinInv` — the invariant.

Main results:

* `Osprey.Writers.pinInv_step` — **what one step keeps**, when it is current.
-/

import Osprey.PinWriters

set_option relaxedAutoImplicit false
set_option autoImplicit false

namespace Osprey

namespace Writers

/-! ### The condition and the invariant -/

/-- A removal of the fingerprint has been reported as done, and no pairing with it has completed
since.  The history has the latest event first. -/
def Gone (crypto : Crypto) (fingerprint : Fingerprint) : List WriterEvent → Prop
  | [] => False
  | .paired peer :: events => peer.fingerprint crypto ≠ fingerprint ∧ Gone crypto fingerprint events
  | .unpaired removed :: events =>
      fingerprint ∈ StateFile.fingerprints crypto removed ∨ Gone crypto fingerprint events
  | .applied call :: events =>
      call.peer.fingerprint crypto = fingerprint ∨ Gone crypto fingerprint events
  | .refused .. :: events | .recorded _ :: events => Gone crypto fingerprint events

instance decidableGone (crypto : Crypto) (fingerprint : Fingerprint) :
    ∀ events, Decidable (Gone crypto fingerprint events)
  | [] => .isFalse id
  | .paired _ :: events =>
      have := decidableGone crypto fingerprint events
      inferInstanceAs (Decidable (_ ∧ _))
  | .unpaired _ :: events | .applied _ :: events =>
      have := decidableGone crypto fingerprint events
      inferInstanceAs (Decidable (_ ∨ _))
  | .refused .. :: events | .recorded _ :: events => decidableGone crypto fingerprint events

/-- The stamp of the snapshot that a step saves from, when it saves. -/
def savedStamp (s : Writers) : WriterAction → Option ℕ
  | .consume i none =>
      match s.threads i with
      | .loaded _ n _ state stamp => if state.hasNonce n then none else some stamp
      | _ => none
  | .remove i none =>
      match s.threads i with
      | .consumed _ _ _ _ stamp => some stamp
      | _ => none
  | .create p =>
      match s.processes p with
      | .creating _ _ stamp => some stamp
      | _ => none
  | .setRelay p _ | .addPeer p _ | .removePeers p _ =>
      match s.processes p with
      | .opened _ _ stamp => some stamp
      | _ => none
  | _ => none

/-- The step does not save, or saves from a snapshot that is current: since it was loaded, or last
saved, no other writer has applied a revocation, unpaired someone or recorded a nonce. -/
def Current (s : Writers) (a : WriterAction) : Prop :=
  ∀ stamp, s.savedStamp a = some stamp → stamp = s.stamp

/-- What the argument needs to know of a snapshot. -/
structure SnapshotOk (crypto : Crypto) (s : Writers) (state : StateFile) (stamp : ℕ) : Prop where
  distinct : (StateFile.fingerprints crypto state.peers).Nodup
  past : stamp ≤ s.stamp
  entries : stamp = s.stamp → state.consumedRevocations = s.entries
  gone : stamp = s.stamp → ∀ fingerprint, Gone crypto fingerprint s.history →
    fingerprint ∉ StateFile.fingerprints crypto state.peers

/-- **The invariant.**  What the history says is gone is not on file, and not in a current snapshot;
what it says is recorded is on file while the clock window lasts. -/
structure PinInv (crypto : Crypto) (initial : List ConsumedRevocation) (s : Writers) : Prop where
  distinct : (StateFile.fingerprints crypto s.pins).Nodup
  snapshots : ∀ state stamp, s.Holds state stamp → SnapshotOk crypto s state stamp
  gone : ∀ fingerprint, Gone crypto fingerprint s.history →
    fingerprint ∉ StateFile.fingerprints crypto s.pins
  recorded : ∀ entry, entry ∈ initial ∨ .recorded entry ∈ s.history →
    s.clock.toInt - entry.issuedAtMs.toInt ≤ REVOKE_CLOCK_WINDOW.toInt → entry ∈ s.entries

section

variable {crypto : Crypto} {hostDeviceId : Uuid} {initial : List ConsumedRevocation}
  {s s' : Writers}

/-- Steps that remove nothing and record nothing: the recorded nonces on file are the same, and the
only new snapshots are of the file as it is after the step. -/
theorem PinInv.share (h : PinInv crypto initial s) (hstamp : s'.stamp = s.stamp)
    (hclock : s.clock.toInt ≤ s'.clock.toInt) (hentries : s'.entries = s.entries)
    (hdistinct : (StateFile.fingerprints crypto s'.pins).Nodup)
    (hgone : ∀ fingerprint, Gone crypto fingerprint s'.history →
      Gone crypto fingerprint s.history ∧ fingerprint ∉ StateFile.fingerprints crypto s'.pins)
    (hrecorded : ∀ entry, .recorded entry ∈ s'.history → .recorded entry ∈ s.history)
    (hholds : ∀ state stamp, s'.Holds state stamp → s.Holds state stamp ∨
      (stamp = s.stamp ∧ state.peers = s'.pins ∧ state.consumedRevocations = s'.entries)) :
    PinInv crypto initial s' := by
  refine ⟨hdistinct, ?_, fun F hF => (hgone F hF).2, ?_⟩
  · intro state stamp hheld
    rcases hholds state stamp hheld with hheld | ⟨rfl, hpeers, hcons⟩
    · have hold := h.snapshots state stamp hheld
      exact {
        distinct := hold.distinct
        past := hstamp ▸ hold.past
        entries := fun hst => by rw [hentries]; exact hold.entries (hst.trans hstamp)
        gone := fun hst F hF => hold.gone (hst.trans hstamp) F (hgone F hF).1 }
    · exact {
        distinct := hpeers ▸ hdistinct
        past := hstamp.ge
        entries := fun _ => hcons
        gone := fun _ F hF => hpeers ▸ (hgone F hF).2 }
  · intro entry hentry hwindow
    rw [hentries]
    exact h.recorded entry (hentry.imp id (hrecorded entry)) (by omega)

/-- Moves that leave the file alone. -/
theorem PinInv.quiet (h : PinInv crypto initial s) (hfile : s'.file = s.file)
    (hstamp : s'.stamp = s.stamp) (hclock : s.clock.toInt ≤ s'.clock.toInt)
    (hgone : ∀ fingerprint, Gone crypto fingerprint s'.history → Gone crypto fingerprint s.history)
    (hrecorded : ∀ entry, .recorded entry ∈ s'.history → .recorded entry ∈ s.history)
    (hholds : ∀ state stamp, s'.Holds state stamp → s.Holds state stamp ∨
      (stamp = s.stamp ∧ state.peers = s.pins ∧ state.consumedRevocations = s.entries)) :
    PinInv crypto initial s' := by
  have hpins : s'.pins = s.pins := by rw [pins, pins, hfile]
  have hentries : s'.entries = s.entries := by rw [Writers.entries, Writers.entries, hfile]
  refine h.share hstamp hclock hentries (hpins ▸ h.distinct) ?_ hrecorded ?_
  · intro F hF
    exact ⟨hgone F hF, hpins ▸ h.gone F (hgone F hF)⟩
  · intro state stamp hheld
    rw [hpins, hentries]
    exact hholds state stamp hheld

/-- Steps that remove pins or record a nonce: every other snapshot is overtaken. -/
theorem PinInv.overtake (h : PinInv crypto initial s) (hstamp : s'.stamp = s.stamp + 1)
    (hdistinct : (StateFile.fingerprints crypto s'.pins).Nodup)
    (hgone : ∀ fingerprint, Gone crypto fingerprint s'.history →
      fingerprint ∉ StateFile.fingerprints crypto s'.pins)
    (hrecorded : ∀ entry, entry ∈ initial ∨ .recorded entry ∈ s'.history →
      s'.clock.toInt - entry.issuedAtMs.toInt ≤ REVOKE_CLOCK_WINDOW.toInt → entry ∈ s'.entries)
    (hholds : ∀ state stamp, s'.Holds state stamp → s.Holds state stamp ∨
      (stamp = s.stamp + 1 ∧ state.peers = s'.pins ∧ state.consumedRevocations = s'.entries)) :
    PinInv crypto initial s' := by
  refine ⟨hdistinct, ?_, hgone, hrecorded⟩
  intro state stamp hheld
  rcases hholds state stamp hheld with hheld | ⟨rfl, hpeers, hcons⟩
  · have hold := h.snapshots state stamp hheld
    have hpast := hold.past
    have hne : stamp ≠ s'.stamp := by omega
    exact ⟨hold.distinct, by omega, fun hst => absurd hst hne, fun hst => absurd hst hne⟩
  · exact ⟨hpeers ▸ hdistinct, hstamp.ge, fun _ => hcons, fun _ F hF => hpeers ▸ hgone F hF⟩

/-- What is known of the snapshot a thread or a process saves from, when the step is current. -/
theorem PinInv.saving (h : PinInv crypto initial s) {state : StateFile} {stamp : ℕ}
    {a : WriterAction} (hcurrent : s.Current a) (hsaved : s.savedStamp a = some stamp)
    (hheld : s.Holds state stamp) :
    (StateFile.fingerprints crypto state.peers).Nodup ∧ state.consumedRevocations = s.entries ∧
      ∀ fingerprint, Gone crypto fingerprint s.history →
        fingerprint ∉ StateFile.fingerprints crypto state.peers := by
  have hstamp := hcurrent stamp hsaved
  have hok := h.snapshots state stamp hheld
  exact ⟨hok.distinct, hok.entries hstamp, hok.gone hstamp⟩

/-- A removal that is saved from a current snapshot. -/
theorem PinInv.drop (h : PinInv crypto initial s) {state : StateFile} {stamp : ℕ}
    {a : WriterAction} (hcurrent : s.Current a) (hsaved : s.savedStamp a = some stamp)
    (hheld : s.Holds state stamp) (selector : PeerSelector)
    (hfile : s'.file = some (state.dropPeers crypto selector)) (hstamp : s'.stamp = s.stamp + 1)
    (hclock : s'.clock = s.clock)
    (hgone : (StateFile.fingerprints crypto state.peers).Nodup →
      ∀ fingerprint, Gone crypto fingerprint s'.history → Gone crypto fingerprint s.history ∨
        fingerprint ∉ StateFile.fingerprints crypto (state.dropPeers crypto selector).peers)
    (hrecorded : ∀ entry, .recorded entry ∈ s'.history → .recorded entry ∈ s.history)
    (hholds : ∀ state stamp, s'.Holds state stamp → s.Holds state stamp) :
    PinInv crypto initial s' := by
  obtain ⟨hdistinct, hentries, hold⟩ := h.saving hcurrent hsaved hheld
  have hpins : s'.pins = (state.dropPeers crypto selector).peers := by rw [pins, hfile]
  have hentries' : s'.entries = s.entries := by
    rw [← hentries, Writers.entries, hfile]
    rfl
  refine h.overtake hstamp ?_ ?_ ?_ fun state' stamp' hheld' => .inl (hholds state' stamp' hheld')
  · rw [hpins]
    exact StateFile.nodup_fingerprints_filter hdistinct _
  · intro F hF
    rw [hpins]
    rcases hgone hdistinct F hF with hF | hF
    · intro hmem
      exact hold F hF ((List.filter_sublist.map _).subset hmem)
    · exact hF
  · intro entry hentry hwindow
    rw [hentries']
    exact h.recorded entry (hentry.imp id (hrecorded entry)) (hclock ▸ hwindow)

/-- A current snapshot that is saved again with its pins and nonces as they were, and kept. -/
theorem PinInv.resave (h : PinInv crypto initial s) {state state' : StateFile} {stamp p : ℕ}
    {command : Command} {a : WriterAction} (hcurrent : s.Current a)
    (hsaved : s.savedStamp a = some stamp) (hheld : s.Holds state stamp)
    (hpeers : state'.peers = state.peers)
    (hnonces : state'.consumedRevocations = state.consumedRevocations) :
    PinInv crypto initial
      { s.setProcess p (.opened command state' stamp) with file := some state' } := by
  obtain ⟨hdistinct, hentries, hgone⟩ := h.saving hcurrent hsaved hheld
  refine h.share rfl le_rfl (hnonces.trans hentries) ?_ ?_ (fun _ he => he) ?_
  · change (StateFile.fingerprints crypto state'.peers).Nodup
    rw [hpeers]
    exact hdistinct
  · intro F hF
    refine ⟨hF, ?_⟩
    change F ∉ StateFile.fingerprints crypto state'.peers
    rw [hpeers]
    exact hgone F hF
  · intro _ _ hheld'
    refine (holds_setProcess s p _ hheld' rfl rfl).imp id fun hnew => ?_
    cases hnew
    exact ⟨hcurrent stamp hsaved, rfl, rfl⟩

/-- A fingerprint that is in a list after a pairing was paired, or was in it before. -/
theorem not_mem_insertPeer {state : StateFile} {peer : PairedPeer} {fingerprint : Fingerprint}
    (hne : peer.fingerprint crypto ≠ fingerprint)
    (hnot : fingerprint ∉ StateFile.fingerprints crypto state.peers) :
    fingerprint ∉ StateFile.fingerprints crypto (state.insertPeer crypto peer).peers := by
  intro hmem
  simp only [StateFile.fingerprints, StateFile.insertPeer, List.map_append, List.mem_append,
    List.map_cons, List.map_nil, List.mem_singleton, List.mem_map, List.mem_filter] at hmem
  rcases hmem with ⟨q, ⟨hq, -⟩, hfp⟩ | hfp
  · exact hnot (List.mem_map.mpr ⟨q, hq, hfp⟩)
  · exact hne hfp.symm

/-- **What one step keeps**, when it is current. -/
theorem pinInv_step (h : PinInv crypto initial s) (htimed : s.Timed) {a : WriterAction}
    (hcurrent : s.Current a) (hstep : step crypto hostDeviceId s a = some s') :
    PinInv crypto initial s' := by
  cases step_cases crypto hostDeviceId hstep with
  | tick hle =>
      rw [Int64.le_iff_toInt_le] at hle
      exact h.quiet rfl rfl hle (fun _ hF => hF) (fun _ he => he) fun _ _ hheld => .inl hheld
  | @clocked i _ _ hphase hle =>
      rw [Int64.le_iff_toInt_le] at hle
      exact h.quiet rfl rfl hle (fun _ hF => hF) (fun _ he => he) fun _ _ hheld =>
        .inl (holds_of_setThread s i _ hheld rfl rfl rfl)
  | @rejected i | @refused _ i =>
      refine h.quiet rfl rfl le_rfl (fun _ hF => hF) (fun _ he => ?_) fun _ _ hheld =>
        .inl (holds_of_setThread s i _ hheld rfl rfl rfl)
      exact (List.mem_cons.mp he).resolve_left (by simp)
  | @verified i | @acquired i =>
      exact h.quiet rfl rfl le_rfl (fun _ hF => hF) (fun _ he => he) fun _ _ hheld =>
        .inl (holds_of_setThread s i _ hheld rfl rfl rfl)
  | @loaded i call n now state hphase hfile =>
      refine h.quiet rfl rfl le_rfl (fun _ hF => hF) (fun _ he => he) fun state' stamp' hheld => ?_
      refine (holds_setThread s i _ hheld rfl rfl).imp id fun hnew => ?_
      cases hnew
      exact ⟨rfl, by rw [pins, hfile], by rw [Writers.entries, hfile]⟩
  | @recorded i call n now state stamp hphase hnew =>
      have hheld : s.Holds state stamp := .inl ⟨i, by rw [hphase]; rfl⟩
      obtain ⟨hdistinct, hentries, hgone⟩ :=
        h.saving hcurrent (by simp [savedStamp, hphase, hnew]) hheld
      have hnow := htimed i now (by rw [hphase]; rfl)
      refine h.overtake rfl hdistinct hgone ?_ fun state' stamp' hheld' => ?_
      · intro entry hentry hwindow
        change entry ∈
          (state.recordNonce n call.body.issuedAt now REVOKE_CLOCK_WINDOW).consumedRevocations
        rw [StateFile.mem_recordNonce (by decide)]
        -- an older entry is pruned only when the thread's own reading is past its window
        have hold : entry ∈ initial ∨ .recorded entry ∈ s.history →
            entry ∈ state.consumedRevocations ∧
              now.toInt - entry.issuedAtMs.toInt ≤ REVOKE_CLOCK_WINDOW.toInt := by
          intro hold
          have hwindow' : s.clock.toInt - entry.issuedAtMs.toInt ≤ REVOKE_CLOCK_WINDOW.toInt :=
            hwindow
          exact ⟨hentries ▸ h.recorded entry hold hwindow', by omega⟩
        rcases hentry with hentry | hentry
        · exact .inl (hold (.inl hentry))
        · rcases List.mem_cons.mp hentry with heq | hentry
          · cases heq
            exact .inr rfl
          · exact .inl (hold (.inr hentry))
      · refine (holds_setThread s i _ hheld' rfl rfl).imp id fun hnew => ?_
        cases hnew
        exact ⟨rfl, rfl, rfl⟩
  | @applied i call n now state stamp hphase =>
      have hheld : s.Holds state stamp := .inl ⟨i, by rw [hphase]; rfl⟩
      have hsaved : s.savedStamp (.remove i none) = some stamp := by simp [savedStamp, hphase]
      refine h.drop hcurrent hsaved hheld _ rfl rfl rfl ?_ ?_ fun _ _ hheld' =>
        holds_of_setThread s i _ hheld' rfl rfl rfl
      · intro hdistinct F hF
        rcases hF with rfl | hF
        · exact .inr (StateFile.not_mem_dropPeers_fingerprint crypto state _)
        · exact .inl hF
      · intro entry he
        exact (List.mem_cons.mp he).resolve_left (by simp)
  | @opened p command deviceId displayName state hfile =>
      refine h.quiet rfl rfl le_rfl (fun _ hF => hF) (fun _ he => he) fun state' stamp' hheld => ?_
      refine (holds_setProcess s p _ hheld rfl rfl).imp id fun hnew => ?_
      cases hnew
      exact ⟨rfl, by rw [pins, hfile], by rw [Writers.entries, hfile]⟩
  | @missing p command deviceId displayName hfile =>
      refine h.quiet rfl rfl le_rfl (fun _ hF => hF) (fun _ he => he) fun state' stamp' hheld => ?_
      refine (holds_setProcess s p _ hheld rfl rfl).imp id fun hnew => ?_
      cases hnew
      exact ⟨rfl, by rw [pins, hfile]; rfl, by rw [Writers.entries, hfile]; rfl⟩
  | @created p command state stamp hphase =>
      have hheld : s.Holds state stamp := .inr ⟨p, by rw [hphase]; rfl⟩
      exact h.resave hcurrent (by simp [savedStamp, hphase]) hheld rfl rfl
  | @relaySet p relay state stamp hphase =>
      have hheld : s.Holds state stamp := .inr ⟨p, by rw [hphase]; rfl⟩
      exact h.resave hcurrent (by simp [savedStamp, hphase]) hheld rfl rfl
  | @paired p peer state stamp hphase =>
      have hheld : s.Holds state stamp := .inr ⟨p, by rw [hphase]; rfl⟩
      obtain ⟨hdistinct, hentries, hgone⟩ :=
        h.saving hcurrent (by simp [savedStamp, hphase]) hheld
      refine h.share rfl le_rfl hentries (StateFile.nodup_insertPeer hdistinct peer) ?_ ?_
        fun _ _ hheld' => ?_
      · rintro F ⟨hne, hF⟩
        exact ⟨hF, not_mem_insertPeer hne (hgone F hF)⟩
      · intro entry he
        exact (List.mem_cons.mp he).resolve_left (by simp)
      · exact .inl (holds_of_setProcess_closed s p hheld' rfl rfl)
  | @unpaired p selector state stamp hphase =>
      have hheld : s.Holds state stamp := .inr ⟨p, by rw [hphase]; rfl⟩
      have hsaved : s.savedStamp (.removePeers p selector) = some stamp := by
        simp [savedStamp, hphase]
      have hrecorded (entry : ConsumedRevocation)
          (he : .recorded entry ∈ .unpaired (state.matching crypto selector) :: s.history) :
          .recorded entry ∈ s.history := (List.mem_cons.mp he).resolve_left (by simp)
      cases hmatching : state.matching crypto selector with
      | nil =>
          -- nobody has been removed, and no snapshot is overtaken
          rw [hmatching] at hrecorded
          obtain ⟨hdistinct, hentries, hgone⟩ := h.saving hcurrent hsaved hheld
          refine h.share rfl le_rfl hentries (StateFile.nodup_fingerprints_filter hdistinct _) ?_
            hrecorded fun _ _ hheld' => .inl (holds_of_setProcess_closed s p hheld' rfl rfl)
          intro F hF
          have hbefore : Gone crypto F s.history :=
            hF.resolve_left (by simp [StateFile.fingerprints])
          exact ⟨hbefore, fun hmem => hgone F hbefore ((List.filter_sublist.map _).subset hmem)⟩
      | cons removed others =>
          rw [hmatching] at hrecorded
          refine h.drop hcurrent hsaved hheld _ rfl rfl rfl ?_ hrecorded fun _ _ hheld' =>
            holds_of_setProcess_closed s p hheld' rfl rfl
          intro hdistinct F hF
          rcases hF with hF | hF
          · rw [← hmatching] at hF
            exact .inr (StateFile.not_mem_dropPeers_of_matching hdistinct hF)
          · exact .inl hF
  | @exited p =>
      refine h.quiet rfl rfl le_rfl (fun _ hF => hF) (fun _ he => he) fun _ _ hheld => ?_
      exact .inl (holds_of_setProcess_closed s p hheld rfl rfl)
  | restarted =>
      refine h.quiet rfl rfl le_rfl (fun _ hF => hF) (fun _ he => he) fun _ _ hheld => ?_
      rcases hheld with ⟨i, hi⟩ | hp
      · cases hi
      · exact .inl (.inr hp)

theorem pinInv_init (file : Option StateFile) (clock : Int64)
    (hdistinct : (StateFile.fingerprints crypto (init file clock).pins).Nodup) :
    PinInv crypto (init file clock).entries (init file clock) := by
  refine ⟨hdistinct, ?_, fun F hF => hF.elim, ?_⟩
  · rintro state stamp (⟨i, hi⟩ | ⟨p, hp⟩)
    · cases hi
    · cases hp
  · rintro entry (hentry | hentry) -
    · exact hentry
    · cases hentry

end

end Writers

end Osprey
