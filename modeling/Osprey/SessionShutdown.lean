/-
**Which sessions stay up.**

Three guarantees rest on the registry.  An unpaired controller is cut off: a session is registered
before its pin is checked again, and the watcher reads the file before it walks the registry, so
that between the two no session escapes.  A replaced pin admits nobody, though the session of an
identity that stays pinned is kept.  And the end of the accept loop hangs up on everybody, provided
that every connection has got as far as the registry by then.

Main definitions:

* `Osprey.Service.Covered` — what a shutdown pass has done so far, and what it has yet to visit;
* `Osprey.Service.Closed` — no session is served under one of the given pins on a socket that is up;
* `Osprey.Service.Sweeping` — a watcher iteration that will close all of them;
* `Osprey.Service.EndsClean` — the condition for the end of the accept loop.

Main results:

* `Osprey.Service.serving_of_step`, `Osprey.Service.live_of_step` — how a session comes to be
  served, and how it comes to be registered;
* `Osprey.Service.closed_of_sweep` — a finished watcher iteration has closed the sessions under pins
  that were off the file since, and whose identities were not in what the iteration read;
* `Osprey.Service.unpaired_not_served` — **unpairing has no blind spot**;
* `Osprey.Service.replaced_pin_not_served` — **only a pin on file admits, only its identity keeps**;
* `Osprey.Service.shutdown_closes_sessions` — **shutdown closes every session**, in every run that
  ends clean.
-/

import Osprey.Revocation
import Osprey.Service

set_option relaxedAutoImplicit false
set_option autoImplicit false

namespace Osprey

open Transition

namespace Service

variable {crypto : Crypto} {s s' : Service}

/-! ### What a step does to the sessions -/

/-- A session that is served after a step was served before, or has just found its whole pin on
file. -/
theorem serving_of_step {a : ServiceAction} (hstep : step crypto s a = some s') {j : ℕ}
    {peer : PinnedPeer} {id : ℕ} (h : s'.sessions j = .serving peer id) :
    s.sessions j = .serving peer id ∨ peer ∈ s.pins := by
  have hmove : ∀ (i : ℕ) (phase : SessionPhase),
      (if j = i then phase else s.sessions j) = .serving peer id →
      s.sessions j = .serving peer id ∨ phase = .serving peer id := by
    intro i phase hij
    split at hij
    · exact .inr hij
    · exact .inl hij
  cases step_cases crypto hstep with
  | written | stopped | waiting | ended | nothing | failed | accepted | identityRevoked | polling
  | watchStopped | pinsRead | readFailed | watchLocked | watchClosed | watchDone | revokeLocked
  | revokeClosed | revokeDone => exact .inl h
  | spawned | dropped | authenticated | aborted | registered | refused | left | deregistered =>
      exact .inl ((hmove _ _ h).resolve_right (by simp))
  | admitted hphase hpinned =>
      rcases hmove _ _ h with h | h
      · exact .inl h
      · cases h
        exact .inr hpinned

/-- A socket that is down stays down. -/
theorem shut_of_step {a : ServiceAction} (hstep : step crypto s a = some s') {j : ℕ}
    (h : s.shut j = true) : s'.shut j = true := by
  cases step_cases crypto hstep with
  | identityRevoked | watchClosed | revokeClosed => simp [shutdown, h]
  | _ => exact h

/-- A session that has an entry after a step had it before, or has just registered, with the lock
free. -/
theorem live_of_step {a : ServiceAction} (hstep : step crypto s a = some s') {j : ℕ}
    {peer : PinnedPeer} {id : ℕ} (h : (s'.sessions j).live? = some (peer, id)) :
    (s.sessions j).live? = some (peer, id) ∨ a = .register j ∧ s.lockFree = true := by
  have hmove : ∀ (i : ℕ) (phase : SessionPhase),
      (if j = i then phase else s.sessions j).live? = some (peer, id) →
      (s.sessions j).live? = some (peer, id) ∨ j = i ∧ phase.live? = some (peer, id) := by
    intro i phase hij
    split at hij
    · exact .inr ⟨‹_›, hij⟩
    · exact .inl hij
  cases step_cases crypto hstep with
  | written | stopped | waiting | ended | nothing | failed | accepted | identityRevoked | polling
  | watchStopped | pinsRead | readFailed | watchLocked | watchClosed | watchDone | revokeLocked
  | revokeClosed | revokeDone => exact .inl h
  | spawned | dropped | authenticated | aborted | refused | left | deregistered =>
      exact .inl ((hmove _ _ h).resolve_right (by simp [SessionPhase.live?]))
  | registered hphase hlock =>
      rcases hmove _ _ h with h | ⟨rfl, -⟩
      · exact .inl h
      · exact .inr ⟨rfl, hlock⟩
  | admitted hphase hpinned =>
      rcases hmove _ _ h with hlive | ⟨rfl, hlive⟩
      · exact .inl hlive
      · rw [hphase]
        exact .inl hlive

theorem lockFree_closing {pins : List PinnedPeer} {todo : List LiveSession}
    (h : s.watcher = .closing pins todo) : s.lockFree = false := by
  unfold lockFree
  rw [h]
  cases s.main <;> rfl

theorem lockFree_revoking {todo : List LiveSession} (h : s.main = .revoking todo) :
    s.lockFree = false := by
  unfold lockFree
  rw [h]

/-! ### A shutdown pass -/

/-- Every session under a pin in `Q` that has an entry is off its socket, or its entry is one that
the pass has yet to visit. -/
def Covered (crypto : Crypto) (Q : PinnedPeer → Prop) (s : Service) (todo : List LiveSession) :
    Prop :=
  ∀ j peer id, (s.sessions j).live? = some (peer, id) → Q peer →
    s.shut j = true ∨ ⟨id, peer.fingerprint crypto, j⟩ ∈ todo

variable {Q : PinnedPeer → Prop} {todo : List LiveSession}

/-- A pass starts out with everybody still to be visited. -/
theorem covered_registry (h : RegistryInv crypto s) : Covered crypto Q s s.registry := by
  intro j peer id hlive _
  exact .inr (h.listed j peer id hlive)

/-- While the pass holds the lock, nobody joins the registry behind its back. -/
theorem Covered.step (h : Covered crypto Q s todo) {a : ServiceAction}
    (hstep : Service.step crypto s a = some s')
    (hlock : ∀ j, a = .register j → s.lockFree = false) : Covered crypto Q s' todo := by
  intro j peer id hlive hpeer
  rcases live_of_step hstep hlive with hlive | ⟨ha, hfree⟩
  · rcases h j peer id hlive hpeer with hshut | hentry
    · exact .inl (shut_of_step hstep hshut)
    · exact .inr hentry
  · rw [hlock j ha] at hfree
    cases hfree

theorem mem_eraseIdx_of_ne {e x : LiveSession} {k : ℕ} (he : todo[k]? = some e) (hx : x ∈ todo)
    (hne : x ≠ e) : x ∈ todo.eraseIdx k := by
  obtain ⟨i, hi⟩ := List.mem_iff_getElem?.mp hx
  refine List.mem_eraseIdx_iff_getElem?.mpr ⟨i, ?_, hi⟩
  rintro rfl
  exact hne (Option.some.inj (hi.symm.trans he))

/-- Visiting an entry, and closing its socket if it is under a pin in `Q`. -/
theorem Covered.visit (h : Covered crypto Q s todo) {k : ℕ} {e : LiveSession}
    (he : todo[k]? = some e) {closed : List LiveSession}
    (hclose : ∀ peer, Q peer → e.peer = peer.fingerprint crypto → e ∈ closed) :
    Covered crypto Q (s.shutdown closed) (todo.eraseIdx k) := by
  intro j peer id hlive hpeer
  rcases h j peer id hlive hpeer with hshut | hentry
  · exact .inl (by simp [shutdown, hshut])
  · by_cases hne : (⟨id, peer.fingerprint crypto, j⟩ : LiveSession) = e
    · subst hne
      refine .inl ?_
      simp only [shutdown, Bool.or_eq_true, List.any_eq_true, decide_eq_true_eq]
      exact .inr ⟨_, hclose peer hpeer rfl, rfl⟩
    · exact .inr (mem_eraseIdx_of_ne he hentry hne)

/-! ### A watcher iteration -/

/-- No session is served under a pin in `Q` on a socket that is up. -/
def Closed (Q : PinnedPeer → Prop) (s : Service) : Prop :=
  ∀ j peer id, s.sessions j = .serving peer id → Q peer → s.shut j = true

/-- None of the pins on file is in `Q`. -/
def Off (Q : PinnedPeer → Prop) (s : Service) (_ : ServiceAction) : Prop :=
  ∀ peer ∈ s.pins, ¬Q peer

theorem mem_fingerprints_of_mem_pins {peer : PinnedPeer} (h : peer ∈ s.pins) :
    peer.fingerprint crypto ∈ StateFile.fingerprints crypto s.file := by
  obtain ⟨p, hp, rfl⟩ := List.mem_map.mp h
  exact List.mem_map.mpr ⟨p, hp, rfl⟩

/-- None of the given pins has the identity of a pin in `Q`. -/
def Foreign (crypto : Crypto) (Q : PinnedPeer → Prop) (pins : List PinnedPeer) : Prop :=
  ∀ peer ∈ pins, ∀ q, Q q → peer.fingerprint crypto ≠ q.fingerprint crypto

/-- The watcher is in an iteration that has read pins foreign to `Q`. -/
def Sweeping (crypto : Crypto) (Q : PinnedPeer → Prop) (s : Service) : Prop :=
  match s.watcher with
  | .holding pins => Foreign crypto Q pins
  | .closing pins todo => Foreign crypto Q pins ∧ Covered crypto Q s todo
  | _ => False

/-- Nobody is admitted under a pin that is off the file. -/
theorem closed_step (h : Closed Q s) {a : ServiceAction} (hoff : Off Q s a)
    (hstep : step crypto s a = some s') : Closed Q s' := by
  intro j peer id hserving hpeer
  rcases serving_of_step hstep hserving with hserving | hpinned
  · exact shut_of_step hstep (h j peer id hserving hpeer)
  · exact absurd hpeer (hoff peer hpinned)

theorem Covered.closed (h : Covered crypto Q s []) : Closed Q s := by
  intro j peer id hserving hpeer
  have hlive : (s.sessions j).live? = some (peer, id) := by
    rw [hserving]
    rfl
  rcases h j peer id hlive hpeer with hshut | hentry
  · exact hshut
  · cases hentry

theorem closedByRetain_of_foreign {pins : List PinnedPeer} (h : Foreign crypto Q pins)
    {peer : PinnedPeer} (hpeer : Q peer) {e : LiveSession} (he : e.peer = peer.fingerprint crypto) :
    closedByRetain crypto pins e = true := by
  simp only [closedByRetain, Bool.not_eq_true', List.any_eq_false, decide_eq_true_eq]
  intro p hp
  rw [he]
  exact h p hp peer hpeer

/-- The iteration goes on, or it has closed every session there was to close. -/
theorem sweeping_step (hinv : RegistryInv crypto s) (h : Sweeping crypto Q s) {a : ServiceAction}
    (hstep : step crypto s a = some s') : Sweeping crypto Q s' ∨ Closed Q s' := by
  -- A step of somebody else leaves the watcher where it is.
  have hother : s'.watcher = s.watcher → Sweeping crypto Q s' := by
    intro hwatcher
    unfold Sweeping at h ⊢
    rw [hwatcher]
    cases hphase : s.watcher with
    | head | polling | stopped =>
        rw [hphase] at h
        exact h
    | holding pins =>
        rw [hphase] at h
        exact h
    | closing pins todo =>
        rw [hphase] at h
        exact ⟨h.1, h.2.step hstep fun _ _ => lockFree_closing hphase⟩
  unfold Sweeping at h
  cases step_cases crypto hstep with
  | written | stopped | waiting | ended | nothing | failed | accepted | spawned | dropped
  | authenticated | aborted | registered | admitted | refused | left | deregistered
  | identityRevoked | revokeLocked | revokeClosed | revokeDone => exact .inl (hother rfl)
  | polling hwatcher | watchStopped hwatcher | pinsRead hwatcher | readFailed hwatcher =>
      rw [hwatcher] at h
      exact h.elim
  | watchLocked hwatcher hlock =>
      rw [hwatcher] at h
      exact .inl ⟨h, covered_registry (s := s) hinv⟩
  | @watchClosed k pins todo e hwatcher he =>
      rw [hwatcher] at h
      refine .inl ⟨h.1, h.2.visit he ?_⟩
      intro peer hpeer hfp
      rw [if_pos (closedByRetain_of_foreign h.1 hpeer hfp)]
      exact List.mem_singleton.mpr rfl
  | watchDone hwatcher =>
      rw [hwatcher] at h
      exact .inr h.2.closed

/-- The invariant of a run in which the pins in `Q` stay off the file. -/
theorem sweep_step {a : ServiceAction} {t : Service}
    (h : RegistryInv crypto s ∧ (Sweeping crypto Q s ∨ Closed Q s)) (hoff : Off Q s a)
    (hstep : step crypto s a = some t) :
    RegistryInv crypto t ∧ (Sweeping crypto Q t ∨ Closed Q t) := by
  refine ⟨registryInv_step h.1 hstep, ?_⟩
  rcases h.2 with hsweep | hclosed
  · exact sweeping_step h.1 hsweep hstep
  · exact .inr (closed_step hclosed hoff hstep)

/-- **A finished iteration has closed them all.**  The pins in `Q` are off the file from the
watcher's read on, and what it read has none of their identities; when it is through, and for as
long as they stay off, no session is served under one of them on a socket that is up. -/
theorem closed_of_sweep (hinv : RegistryInv crypto s) (hforeign : Foreign crypto Q s.pins)
    {bs cs : List ServiceAction}
    (hmeets : Meets (step crypto) (Off Q) s (.watchRead true :: (bs ++ .watchDone :: cs)))
    (hrun : run (step crypto) s (.watchRead true :: (bs ++ .watchDone :: cs)) = some s') :
    Closed Q s' := by
  obtain ⟨t, hread, hrun⟩ := run_cons_eq_some.mp hrun
  obtain ⟨u, hbs, hrun⟩ := run_append.mp hrun
  obtain ⟨v, hdone, hcs⟩ := run_cons_eq_some.mp hrun
  obtain ⟨hmeetsBs, hmeetsDone⟩ := meets_append hbs (hmeets.2 t hread)
  have ht : RegistryInv crypto t ∧ (Sweeping crypto Q t ∨ Closed Q t) := by
    refine ⟨registryInv_step hinv hread, .inl ?_⟩
    simp only [step] at hread
    split at hread
    · cases hread
      exact hforeign
    · cases hread
  have hu := run_invariant (fun s a t => sweep_step) ht hmeetsBs hbs
  have hv : Closed Q v := by
    rcases (sweep_step hu hmeetsDone.1 hdone).2 with hsweep | hclosed
    · -- Past `watchDone` the watcher is at the head of its loop.
      simp only [step] at hdone
      split at hdone
      · cases hdone
        exact hsweep.elim
      · cases hdone
    · exact hclosed
  exact run_invariant (fun s a t h => closed_step h) hv (hmeetsDone.2 v hdone) hcs

/-- The registry is in order in every state reached. -/
theorem registryInv_run {file : List PairedPeer} {as : List ServiceAction}
    (hrun : run (step crypto) (init file) as = some s) : RegistryInv crypto s :=
  run_keeps (I := RegistryInv crypto) (fun _ _ _ h => registryInv_step h)
    (registryInv_init crypto file)
    hrun

/-- **Unpairing has no blind spot.**  Connections, writes of the pin file and watcher iterations
interleave in any way.  Every session that is served is in the registry.  And if a fingerprint stays
off the file from some state on, then once an iteration of the watcher that read the file after that
is through, no session of that fingerprint is served on a socket that is up, whenever it was
accepted. -/
theorem unpaired_not_served (crypto : Crypto) (file : List PairedPeer) (as : List ServiceAction)
    (s : Service) (hrun : run (step crypto) (init file) as = some s) :
    (∀ j peer id, s.sessions j = .serving peer id →
      ⟨id, peer.fingerprint crypto, j⟩ ∈ s.registry) ∧
    ∀ (fingerprint : Fingerprint) (bs₁ bs₂ bs₃ : List ServiceAction) (t : Service),
      Meets (step crypto) (fun s _ => fingerprint ∉ StateFile.fingerprints crypto s.file) s
        (bs₁ ++ .watchRead true :: (bs₂ ++ .watchDone :: bs₃)) →
      run (step crypto) s (bs₁ ++ .watchRead true :: (bs₂ ++ .watchDone :: bs₃)) = some t →
      ∀ j peer id, t.sessions j = .serving peer id → peer.fingerprint crypto = fingerprint →
        t.shut j = true := by
  have hinv := registryInv_run hrun
  refine ⟨?_, ?_⟩
  · intro j peer id hserving
    refine hinv.listed j peer id ?_
    rw [hserving]
    rfl
  · intro fingerprint bs₁ bs₂ bs₃ t hmeets hrun' j peer id hserving hpeer
    obtain ⟨u, hbs₁, hrest⟩ := run_append.mp hrun'
    obtain ⟨-, hmeets⟩ := meets_append hbs₁ hmeets
    have hinv' := registryInv_run (run_append.mpr ⟨s, hrun, hbs₁⟩)
    have hforeign : Foreign crypto (fun peer => peer.fingerprint crypto = fingerprint) u.pins := by
      rintro p hp q rfl
      exact fun h => hmeets.1 (h ▸ mem_fingerprints_of_mem_pins hp)
    refine closed_of_sweep hinv' hforeign (hmeets.mono ?_) hrest j peer id hserving hpeer
    rintro s a hoff p hp rfl
    exact hoff (mem_fingerprints_of_mem_pins hp)

/-- The peer 1 comes to be served on connection 0. -/
def toyServing : List ServiceAction :=
  [.mainCheck, .accept 0, .readPins true, .handshake 0 (toyPeer 1).pinned.noiseStaticPub,
    .register 0, .recheck 0 true]

/-- The peer 1 is served on connection 0 and has been accepted on connection 1 when it is unpaired;
the second connection registers between the watcher's read and its pass. -/
theorem unpaired_not_served_two_connections :
    ∃ t, run (step toyCrypto) (init toyFile.peers)
        (toyServing ++ ([.mainCheck, .accept 1, .readPins true, .write [toyPeer 2], .watchCheck,
          .handshake 1 (toyPeer 1).pinned.noiseStaticPub, .watchRead true, .register 1, .watchLock,
          .watchClose 1, .watchClose 0, .watchDone, .recheck 1 true] : List ServiceAction)) =
          some t ∧
      t.sessions 0 = .serving (toyPeer 1).pinned 0 ∧ t.shut 0 = true ∧
      t.sessions 1 = .leaving 1 := by
  refine ⟨_, rfl, rfl, ?_, rfl⟩
  exact (unpaired_not_served toyCrypto toyFile.peers
    (toyServing ++
      ([.mainCheck, .accept 1, .readPins true, .write [toyPeer 2]] : List ServiceAction)) _ rfl).2
    ((toyPeer 1).fingerprint toyCrypto)
    [.watchCheck, .handshake 1 (toyPeer 1).pinned.noiseStaticPub]
    [.register 1, .watchLock, .watchClose 1, .watchClose 0] [.recheck 1 true] _
    (by decide) rfl 0 _ 0 rfl rfl

/-- **Only a pin on file admits, and only its identity keeps.**  A session that comes to be served
has just found its whole pin on file.  And if a Noise static is pinned for nobody from some state
on, then once an iteration of the watcher that read the file after that is through, every session
that is served under that static on a socket that is up is one whose identity was on file when the
watcher read it. -/
theorem replaced_pin_not_served (crypto : Crypto) (file : List PairedPeer) (as : List ServiceAction)
    (s : Service) (hrun : run (step crypto) (init file) as = some s) :
    (∀ (a : ServiceAction) (t : Service), step crypto s a = some t →
      ∀ j peer id, t.sessions j = .serving peer id →
        s.sessions j = .serving peer id ∨ peer ∈ s.pins) ∧
    ∀ (noiseStatic : Key32) (bs₁ bs₂ bs₃ : List ServiceAction) (u t : Service),
      Meets (step crypto) (fun s _ => ∀ peer ∈ s.pins, peer.noiseStaticPub ≠ noiseStatic) s
        (bs₁ ++ .watchRead true :: (bs₂ ++ .watchDone :: bs₃)) →
      run (step crypto) s bs₁ = some u →
      run (step crypto) u (.watchRead true :: (bs₂ ++ .watchDone :: bs₃)) = some t →
      ∀ j peer id, t.sessions j = .serving peer id → peer.noiseStaticPub = noiseStatic →
        t.shut j = true ∨ peer.fingerprint crypto ∈ StateFile.fingerprints crypto u.file := by
  refine ⟨fun a t hstep j peer id => serving_of_step hstep, ?_⟩
  intro noiseStatic bs₁ bs₂ bs₃ u t hmeets hbs₁ hrest j peer id hserving hpeer
  obtain ⟨-, hmeets⟩ := meets_append hbs₁ hmeets
  by_cases hidentity : peer.fingerprint crypto ∈ StateFile.fingerprints crypto u.file
  · exact .inr hidentity
  · have hinv := registryInv_run (run_append.mpr ⟨s, hrun, hbs₁⟩)
    have hforeign : Foreign crypto (fun q => q = peer) u.pins := by
      rintro p hp q rfl
      exact fun h => hidentity (h ▸ mem_fingerprints_of_mem_pins hp)
    refine .inl (closed_of_sweep hinv hforeign (hmeets.mono ?_) hrest j peer id hserving rfl)
    rintro s a hoff p hp rfl
    exact hoff p hp hpeer

/-- The peer 1 under a new Noise static. -/
def toyRepaired : PairedPeer :=
  { toyPeer 1 with pinned := { (toyPeer 1).pinned with noiseStaticPub := toyNonce 7 } }

/-- The peer 1 is unpaired while it is served, and its static is pinned for nobody. -/
theorem replaced_pin_not_served_unpaired :
    ∃ t, run (step toyCrypto) (init toyFile.peers)
        (toyServing ++ ([.write [toyPeer 2], .watchCheck, .watchRead true, .watchLock,
          .watchClose 0, .watchDone] : List ServiceAction)) = some t ∧
      t.sessions 0 = .serving (toyPeer 1).pinned 0 ∧ t.shut 0 = true := by
  refine ⟨_, rfl, rfl, ?_⟩
  exact ((replaced_pin_not_served toyCrypto toyFile.peers
    (toyServing ++ ([.write [toyPeer 2]] : List ServiceAction)) _ rfl).2
    (toyPeer 1).pinned.noiseStaticPub [.watchCheck] [.watchLock, .watchClose 0] [] _ _
    (by decide) rfl rfl 0 _ 0 rfl rfl).resolve_right (by decide)

/-- **A replaced static keeps its session.**  The peer 1 is paired again, under a new static, while
it is served under the old one.  The watcher reads the new file and finishes its pass; the old
session is served on, on a socket that is up, and its static is pinned for nobody. -/
theorem replaced_static_still_served :
    ∃ t, run (step toyCrypto) (init toyFile.peers)
        (toyServing ++ ([.write (toyFile.insertPeer toyCrypto toyRepaired).peers, .watchCheck,
          .watchRead true, .watchLock, .watchClose 0, .watchDone] : List ServiceAction)) = some t ∧
      t.sessions 0 = .serving (toyPeer 1).pinned 0 ∧ t.shut 0 = false ∧
      ∀ peer ∈ t.pins, peer.noiseStaticPub ≠ (toyPeer 1).pinned.noiseStaticPub := by
  refine ⟨_, rfl, rfl, rfl, ?_⟩
  decide

/-! ### The end of the accept loop -/

/-- The accept loop ends clean: no thread registers once the code after the loop has run, and a
failing `accept_timeout`, which skips `revoke_all`, finds no session with an entry on a socket that
is up. -/
def EndsClean (s : Service) : ServiceAction → Prop
  | .register _ => s.main ≠ .joining ∧ s.main ≠ .failed
  | .acceptError => ∀ j, (s.sessions j).live?.isSome → s.shut j = true
  | _ => True

/-- Every session with an entry is one that `revoke_all` has hung up on or has yet to visit, and
past the end of the loop it has been hung up on. -/
def HangingUp (crypto : Crypto) (s : Service) : Prop :=
  match s.main with
  | .revoking todo => Covered crypto (fun _ => True) s todo
  | .joining | .failed => Covered crypto (fun _ => True) s []
  | _ => True

theorem hangingUp_step (hinv : RegistryInv crypto s) (h : HangingUp crypto s) {a : ServiceAction}
    (hclean : EndsClean s a) (hstep : step crypto s a = some s') : HangingUp crypto s' := by
  -- A step of somebody else leaves the main thread where it is.
  have hother : s'.main = s.main → HangingUp crypto s' := by
    intro hmain
    unfold HangingUp at h ⊢
    rw [hmain]
    cases hphase : s.main with
    | head | accepting | accepted | ending => trivial
    | revoking todo =>
        rw [hphase] at h
        exact h.step hstep fun _ _ => lockFree_revoking hphase
    | joining =>
        rw [hphase] at h
        refine h.step hstep ?_
        rintro j rfl
        exact absurd hphase hclean.1
    | failed =>
        rw [hphase] at h
        refine h.step hstep ?_
        rintro j rfl
        exact absurd hphase hclean.2
  unfold HangingUp at h
  cases step_cases crypto hstep with
  | written | stopped | authenticated | aborted | registered | admitted | refused | left
  | deregistered | identityRevoked | polling | watchStopped | pinsRead | readFailed | watchLocked
  | watchClosed | watchDone => exact hother rfl
  | waiting | ended | nothing | accepted | spawned | dropped => trivial
  | failed hmain =>
      intro j peer id hlive _
      have hsome : (s.sessions j).live?.isSome := by
        change (s.sessions j).live? = some (peer, id) at hlive
        rw [hlive]
        rfl
      exact .inl (hclean j hsome)
  | revokeLocked hmain hlock => exact covered_registry (s := s) hinv
  | revokeClosed hmain he =>
      rw [hmain] at h
      exact h.visit he fun _ _ _ => List.mem_singleton.mpr rfl
  | revokeDone hmain =>
      rw [hmain] at h
      exact h

/-- **Shutdown closes every session, in every run that ends clean.**  Connection threads may be
anywhere when the loop ends.  Once it has, and the code after it has run, no session is served on a
socket that is up, and none comes to be. -/
theorem shutdown_closes_sessions (crypto : Crypto) (file : List PairedPeer)
    (as : List ServiceAction) (s : Service)
    (hmeets : Meets (step crypto) EndsClean (init file) as)
    (hrun : run (step crypto) (init file) as = some s)
    (hended : s.main = .joining ∨ s.main = .failed) :
    ∀ j peer id, s.sessions j = .serving peer id → s.shut j = true := by
  have hinv : RegistryInv crypto s ∧ HangingUp crypto s := by
    refine run_invariant (I := fun s => RegistryInv crypto s ∧ HangingUp crypto s) ?_
      ⟨registryInv_init crypto file, trivial⟩ hmeets hrun
    rintro s a t ⟨hinv, h⟩ hclean hstep
    exact ⟨registryInv_step hinv hstep, hangingUp_step hinv h hclean hstep⟩
  have hcovered : Covered crypto (fun _ => True) s [] := by
    have h := hinv.2
    unfold HangingUp at h
    rcases hended with hended | hended
    · rw [hended] at h
      exact h
    · rw [hended] at h
      exact h
  exact fun j peer id hserving => hcovered.closed j peer id hserving trivial

/-- One session is served and another is between its registration and its second look at the pins
when the loop ends; both are on sockets that are down. -/
theorem shutdown_closes_sessions_two_connections :
    ∃ s, run (step toyCrypto) (init toyFile.peers)
        (toyServing ++ ([.mainCheck, .accept 1, .readPins true,
          .handshake 1 (toyPeer 2).pinned.noiseStaticPub, .register 1, .stop, .mainCheck,
          .revokeLock, .revokeClose 0, .revokeClose 0, .revokeDone, .recheck 1 true] :
          List ServiceAction)) = some s ∧
      s.sessions 1 = .serving (toyPeer 2).pinned 1 ∧ s.shut 0 = true ∧ s.shut 1 = true := by
  have hmeets : Meets (step toyCrypto) EndsClean (init toyFile.peers)
      (toyServing ++ ([.mainCheck, .accept 1, .readPins true,
        .handshake 1 (toyPeer 2).pinned.noiseStaticPub, .register 1, .stop, .mainCheck, .revokeLock,
        .revokeClose 0, .revokeClose 0, .revokeDone, .recheck 1 true] : List ServiceAction)) := by
    refine Meets.mono (C := fun s a => a ≠ .acceptError ∧ s.main ≠ .failed ∧
      (a = .recheck 1 true ∨ s.main ≠ .joining)) ?_ (by decide)
    rintro s a ⟨hnone, hfailed, hjoining⟩
    cases a with
    | register j => exact ⟨hjoining.resolve_left nofun, hfailed⟩
    | acceptError => exact absurd rfl hnone
    | _ => trivial
  have hclosed := shutdown_closes_sessions toyCrypto toyFile.peers _ _ hmeets rfl (.inl rfl)
  exact ⟨_, rfl, rfl, hclosed 0 _ 0 rfl, hclosed 1 _ 1 rfl⟩

/-- **Two ways to go on serving after the end.**  A connection is in its handshake when `revoke_all`
runs: it registers after the pass, finds its pin on file and is served.  And an `accept_timeout`
that fails returns past `revoke_all`: the session there was is served on. -/
theorem served_after_shutdown :
    (∃ s, run (step toyCrypto) (init toyFile.peers)
        [.mainCheck, .accept 0, .readPins true, .stop, .mainCheck, .revokeLock, .revokeDone,
          .handshake 0 (toyPeer 1).pinned.noiseStaticPub, .register 0, .recheck 0 true] = some s ∧
      s.main = .joining ∧ s.sessions 0 = .serving (toyPeer 1).pinned 0 ∧ s.shut 0 = false) ∧
    ∃ s, run (step toyCrypto) (init toyFile.peers)
        (toyServing ++ ([.mainCheck, .acceptError] : List ServiceAction)) = some s ∧
      s.main = .failed ∧ s.sessions 0 = .serving (toyPeer 1).pinned 0 ∧ s.shut 0 = false :=
  ⟨⟨_, rfl, rfl, rfl, rfl⟩, ⟨_, rfl, rfl, rfl, rfl⟩⟩

end Service

end Osprey
