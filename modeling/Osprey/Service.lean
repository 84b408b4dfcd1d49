/-
**The running service: accept loop, session threads, registry and revocation watcher.**

`osprey-svc/src/commands/run.rs` and `registry.rs`.  The main thread accepts connections, reads the
pins and spawns a session thread for each; a session thread runs the handshake, registers its
socket, re-reads the pins, serves, and deregisters when it returns.  The watcher re-reads the pin
file and shuts down every registered socket whose peer is no longer pinned.  The registry is a table
behind a lock, and a shutdown pass over it holds the lock.  A socket is named by the number of its
connection; shutting one down succeeds or finds it disconnected, so that it is down afterwards in
either case.

Main definitions:

* `Osprey.LiveSession`, `Osprey.closedByRetain` — the registry;
* `Osprey.Service`, `Osprey.ServiceAction`, `Osprey.Service.step` — the system;
* `Osprey.Service.RegistryInv` — the invariant of the registry.

Main results:

* `Osprey.Service.step_cases` — what a step can do, branch by branch;
* `Osprey.Service.registryInv_step` — **every session that is served is in the registry**, under its
  own id and its peer's fingerprint.
-/

import Osprey.HostState
import Osprey.Transition

set_option relaxedAutoImplicit false
set_option autoImplicit false

namespace Osprey

/-! ### The system -/

/-- An entry of the registry: its id, the fingerprint of the peer, and the connection whose socket
it can shut down. -/
structure LiveSession where
  id : ℕ
  peer : Fingerprint
  socket : ℕ
  deriving DecidableEq, Repr

/-- Whether `retain_pinned` hangs up on a session. -/
def closedByRetain (crypto : Crypto) (allowed : List PinnedPeer) (session : LiveSession) : Bool :=
  !allowed.any fun peer => peer.fingerprint crypto = session.peer

/-- Where a connection's thread is inside `serve_one`.  `leaving` is the return, before the
session's handle has been dropped. -/
inductive SessionPhase
  | unborn
  | spawned (pins : List PinnedPeer)
  | authenticated (peer : PinnedPeer)
  | registered (peer : PinnedPeer) (id : ℕ)
  | serving (peer : PinnedPeer) (id : ℕ)
  | leaving (id : ℕ)
  | finished
  deriving DecidableEq, Repr

namespace SessionPhase

/-- The id of the session's entry in the registry. -/
def id? : SessionPhase → Option ℕ
  | registered _ id | serving _ id | leaving id => some id
  | _ => none

/-- The peer of a session that has an entry and has not been told to leave. -/
def live? : SessionPhase → Option (PinnedPeer × ℕ)
  | registered peer id | serving peer id => some (peer, id)
  | _ => none

/-- The thread has a connection and no entry yet. -/
def Unregistered : SessionPhase → Prop
  | spawned _ | authenticated _ => True
  | _ => False

theorem id?_of_live? {phase : SessionPhase} {peer : PinnedPeer} {id : ℕ}
    (h : phase.live? = some (peer, id)) : phase.id? = some id := by
  cases phase <;> simp_all [live?, id?]

end SessionPhase

/-- Where the main thread is: at the loop's test, waiting for a connection, holding one, past the
loop, in `revoke_all`, waiting for the session threads; or there by the early return of a failed
`accept_timeout`. -/
inductive MainPhase
  | head
  | accepting
  | accepted (j : ℕ)
  | ending
  | revoking (todo : List LiveSession)
  | joining
  | failed
  deriving DecidableEq, Repr

/-- Where the watcher is: at the loop's test, about to read, holding the pins it read, in the
shutdown pass, or past the loop. -/
inductive WatcherPhase
  | head
  | polling
  | holding (pins : List PinnedPeer)
  | closing (pins : List PinnedPeer) (todo : List LiveSession)
  | stopped
  deriving DecidableEq, Repr

structure Service where
  file : List PairedPeer
  running : Bool
  main : MainPhase
  watcher : WatcherPhase
  sessions : ℕ → SessionPhase
  registry : List LiveSession
  nextId : ℕ
  shut : ℕ → Bool

/-- One step.  `readable` says whether a read of the pin file succeeds; `k` is which of the entries
still to be visited a shutdown pass visits next. -/
inductive ServiceAction
  | write (peers : List PairedPeer)
  | stop
  | mainCheck
  | acceptNone
  | acceptError
  | accept (j : ℕ)
  | readPins (readable : Bool)
  | handshake (j : ℕ) (remoteStatic : Key32)
  | abort (j : ℕ)
  | register (j : ℕ)
  | recheck (j : ℕ) (readable : Bool)
  | endServe (j : ℕ)
  | deregister (j : ℕ)
  | revokeIdentity (peer : Fingerprint)
  | watchCheck
  | watchRead (readable : Bool)
  | watchLock
  | watchClose (k : ℕ)
  | watchDone
  | revokeLock
  | revokeClose (k : ℕ)
  | revokeDone
  deriving DecidableEq, Repr

namespace Service

def init (file : List PairedPeer) : Service :=
  ⟨file, true, .head, .head, fun _ => .unborn, [], 0, fun _ => false⟩

/-- The pins on file, as `accept` and the watcher use them. -/
def pins (s : Service) : List PinnedPeer := s.file.map PairedPeer.pinned

/-- Nobody is inside a shutdown pass. -/
def lockFree (s : Service) : Bool :=
  match s.main, s.watcher with
  | .revoking _, _ => false
  | _, .closing .. => false
  | _, _ => true

def setSession (s : Service) (j : ℕ) (phase : SessionPhase) : Service :=
  { s with sessions := fun i => if i = j then phase else s.sessions i }

/-- Shut down the sockets of these entries. -/
def shutdown (s : Service) (closed : List LiveSession) : Service :=
  { s with shut := fun j => s.shut j || closed.any fun e => e.socket = j }

variable (crypto : Crypto)

/-- The transitions.  A failing handshake, or a socket that cannot be duplicated, is `abort`; a pass
over the registry takes the lock, visits the entries in any order, and releases the lock. -/
def step (s : Service) : ServiceAction → Option Service
  | .write peers => some { s with file := peers }
  | .stop => some { s with running := false }
  | .mainCheck =>
      match s.main with
      | .head => some { s with main := if s.running then .accepting else .ending }
      | _ => none
  | .acceptNone =>
      match s.main with
      | .accepting => some { s with main := .head }
      | _ => none
  | .acceptError =>
      match s.main with
      -- the early return goes past `revoke_all`
      | .accepting => some { s with main := .failed }
      | _ => none
  | .accept j =>
      match s.main, s.sessions j with
      | .accepting, .unborn => some { s with main := .accepted j }
      | _, _ => none
  | .readPins readable =>
      match s.main with
      | .accepted j =>
          -- with the pin store unreadable the connection is dropped and the loop goes on
          if readable then some { s.setSession j (.spawned s.pins) with main := .head }
          else some { s.setSession j .finished with main := .head }
      | _ => none
  | .handshake j remoteStatic =>
      match s.sessions j with
      | .spawned pins =>
          match pins.find? fun p => p.matchesHandshakeStatic remoteStatic with
          | some peer => some (s.setSession j (.authenticated peer))
          | none => some (s.setSession j .finished)
      | _ => none
  | .abort j =>
      match s.sessions j with
      | .spawned _ | .authenticated _ => some (s.setSession j .finished)
      | _ => none
  | .register j =>
      match s.sessions j, s.lockFree with
      | .authenticated peer, true =>
          some { s.setSession j (.registered peer s.nextId) with
            registry := s.registry ++ [⟨s.nextId, peer.fingerprint crypto, j⟩]
            nextId := s.nextId + 1 }
      | _, _ => none
  | .recheck j readable =>
      match s.sessions j with
      | .registered peer id =>
          -- the whole pin is looked for, not only its identity
          if readable && s.file.any fun p => p.pinned = peer then
            some (s.setSession j (.serving peer id))
          else some (s.setSession j (.leaving id))
      | _ => none
  | .endServe j =>
      match s.sessions j with
      | .serving _ id => some (s.setSession j (.leaving id))
      | _ => none
  | .deregister j =>
      match s.sessions j, s.lockFree with
      | .leaving id, true =>
          some { s.setSession j .finished with
            registry := s.registry.filter fun e => e.id ≠ id }
      | _, _ => none
  | .revokeIdentity peer =>
      if s.lockFree then some (s.shutdown (s.registry.filter fun e => e.peer = peer)) else none
  | .watchCheck =>
      match s.watcher with
      | .head => some { s with watcher := if s.running then .polling else .stopped }
      | _ => none
  | .watchRead readable =>
      match s.watcher with
      | .polling => some { s with watcher := if readable then .holding s.pins else .head }
      | _ => none
  | .watchLock =>
      match s.watcher, s.lockFree with
      | .holding pins, true => some { s with watcher := .closing pins s.registry }
      | _, _ => none
  | .watchClose k =>
      match s.watcher with
      | .closing pins todo =>
          match todo[k]? with
          | some e =>
              some { s.shutdown (if closedByRetain crypto pins e then [e] else []) with
                watcher := .closing pins (todo.eraseIdx k) }
          | none => none
      | _ => none
  | .watchDone =>
      match s.watcher with
      | .closing _ [] => some { s with watcher := .head }
      | _ => none
  | .revokeLock =>
      match s.main, s.lockFree with
      | .ending, true => some { s with main := .revoking s.registry }
      | _, _ => none
  | .revokeClose k =>
      match s.main with
      | .revoking todo =>
          match todo[k]? with
          | some e => some { s.shutdown [e] with main := .revoking (todo.eraseIdx k) }
          | none => none
      | _ => none
  | .revokeDone =>
      match s.main with
      | .revoking [] => some { s with main := .joining }
      | _ => none

/-- What a step can do, branch by branch. -/
inductive Step (s : Service) : ServiceAction → Service → Prop
  | written {peers : List PairedPeer} : Step s (.write peers) { s with file := peers }
  | stopped : Step s .stop { s with running := false }
  | waiting (hmain : s.main = .head) : Step s .mainCheck { s with main := .accepting }
  | ended (hmain : s.main = .head) : Step s .mainCheck { s with main := .ending }
  | nothing (hmain : s.main = .accepting) : Step s .acceptNone { s with main := .head }
  | failed (hmain : s.main = .accepting) : Step s .acceptError { s with main := .failed }
  | accepted {j : ℕ} (hmain : s.main = .accepting) (hphase : s.sessions j = .unborn) :
      Step s (.accept j) { s with main := .accepted j }
  | spawned {j : ℕ} (hmain : s.main = .accepted j) :
      Step s (.readPins true) { s.setSession j (.spawned s.pins) with main := .head }
  | dropped {j : ℕ} (hmain : s.main = .accepted j) :
      Step s (.readPins false) { s.setSession j .finished with main := .head }
  | authenticated {j : ℕ} {remoteStatic : Key32} {pins : List PinnedPeer} {peer : PinnedPeer}
      (hphase : s.sessions j = .spawned pins)
      (hpeer : pins.find? (fun p => p.matchesHandshakeStatic remoteStatic) = some peer) :
      Step s (.handshake j remoteStatic) (s.setSession j (.authenticated peer))
  | aborted {a : ServiceAction} {j : ℕ} (hphase : (s.sessions j).Unregistered) :
      Step s a (s.setSession j .finished)
  | registered {j : ℕ} {peer : PinnedPeer} (hphase : s.sessions j = .authenticated peer)
      (hlock : s.lockFree = true) :
      Step s (.register j)
        { s.setSession j (.registered peer s.nextId) with
          registry := s.registry ++ [⟨s.nextId, peer.fingerprint crypto, j⟩]
          nextId := s.nextId + 1 }
  | admitted {j : ℕ} {peer : PinnedPeer} {id : ℕ} (hphase : s.sessions j = .registered peer id)
      (hpinned : peer ∈ s.pins) : Step s (.recheck j true) (s.setSession j (.serving peer id))
  | refused {j : ℕ} {readable : Bool} {peer : PinnedPeer} {id : ℕ}
      (hphase : s.sessions j = .registered peer id) :
      Step s (.recheck j readable) (s.setSession j (.leaving id))
  | left {j : ℕ} {peer : PinnedPeer} {id : ℕ} (hphase : s.sessions j = .serving peer id) :
      Step s (.endServe j) (s.setSession j (.leaving id))
  | deregistered {j id : ℕ} (hphase : s.sessions j = .leaving id) (hlock : s.lockFree = true) :
      Step s (.deregister j)
        { s.setSession j .finished with registry := s.registry.filter fun e => e.id ≠ id }
  | identityRevoked {peer : Fingerprint} :
      Step s (.revokeIdentity peer) (s.shutdown (s.registry.filter fun e => e.peer = peer))
  | polling (hwatcher : s.watcher = .head) : Step s .watchCheck { s with watcher := .polling }
  | watchStopped (hwatcher : s.watcher = .head) : Step s .watchCheck { s with watcher := .stopped }
  | pinsRead (hwatcher : s.watcher = .polling) :
      Step s (.watchRead true) { s with watcher := .holding s.pins }
  | readFailed (hwatcher : s.watcher = .polling) :
      Step s (.watchRead false) { s with watcher := .head }
  | watchLocked {pins : List PinnedPeer} (hwatcher : s.watcher = .holding pins)
      (hlock : s.lockFree = true) :
      Step s .watchLock { s with watcher := .closing pins s.registry }
  | watchClosed {k : ℕ} {pins : List PinnedPeer} {todo : List LiveSession} {e : LiveSession}
      (hwatcher : s.watcher = .closing pins todo) (he : todo[k]? = some e) :
      Step s (.watchClose k)
        { s.shutdown (if closedByRetain crypto pins e then [e] else []) with
          watcher := .closing pins (todo.eraseIdx k) }
  | watchDone {pins : List PinnedPeer} (hwatcher : s.watcher = .closing pins []) :
      Step s .watchDone { s with watcher := .head }
  | revokeLocked (hmain : s.main = .ending) (hlock : s.lockFree = true) :
      Step s .revokeLock { s with main := .revoking s.registry }
  | revokeClosed {k : ℕ} {todo : List LiveSession} {e : LiveSession}
      (hmain : s.main = .revoking todo) (he : todo[k]? = some e) :
      Step s (.revokeClose k) { s.shutdown [e] with main := .revoking (todo.eraseIdx k) }
  | revokeDone (hmain : s.main = .revoking []) : Step s .revokeDone { s with main := .joining }

/-- **The step function takes one of these branches.** -/
theorem step_cases {s s' : Service} {a : ServiceAction} (hstep : step crypto s a = some s') :
    Step crypto s a s' := by
  cases a with
  | write peers =>
      cases hstep
      exact .written
  | stop =>
      cases hstep
      exact .stopped
  | mainCheck =>
      simp only [step] at hstep
      split at hstep
      · cases hstep
        split
        · exact .waiting ‹_›
        · exact .ended ‹_›
      · cases hstep
  | acceptNone =>
      simp only [step] at hstep
      split at hstep
      · cases hstep
        exact .nothing ‹_›
      · cases hstep
  | acceptError =>
      simp only [step] at hstep
      split at hstep
      · cases hstep
        exact .failed ‹_›
      · cases hstep
  | accept j =>
      simp only [step] at hstep
      split at hstep
      · cases hstep
        exact .accepted ‹_› ‹_›
      · cases hstep
  | readPins readable =>
      simp only [step] at hstep
      split at hstep
      · rename_i j hmain
        cases readable with
        | true =>
            cases hstep
            exact .spawned hmain
        | false =>
            cases hstep
            exact .dropped hmain
      · cases hstep
  | handshake j remoteStatic =>
      simp only [step] at hstep
      split at hstep
      · rename_i pins hphase
        split at hstep
        · rename_i peer hpeer
          cases hstep
          exact .authenticated hphase hpeer
        · cases hstep
          exact .aborted (by rw [hphase]; trivial)
      · cases hstep
  | abort j =>
      simp only [step] at hstep
      split at hstep
      · rename_i pins hphase
        cases hstep
        exact .aborted (by rw [hphase]; trivial)
      · rename_i peer hphase
        cases hstep
        exact .aborted (by rw [hphase]; trivial)
      · cases hstep
  | register j =>
      simp only [step] at hstep
      split at hstep
      · rename_i peer hphase hlock
        cases hstep
        exact .registered hphase hlock
      · cases hstep
  | recheck j readable =>
      simp only [step] at hstep
      split at hstep
      · rename_i peer id hphase
        split at hstep
        · rename_i hpinned
          simp only [Bool.and_eq_true, List.any_eq_true, decide_eq_true_eq] at hpinned
          obtain ⟨rfl, p, hp, hpeer⟩ := hpinned
          cases hstep
          exact .admitted hphase (List.mem_map.mpr ⟨p, hp, hpeer⟩)
        · cases hstep
          exact .refused hphase
      · cases hstep
  | endServe j =>
      simp only [step] at hstep
      split at hstep
      · rename_i peer id hphase
        cases hstep
        exact .left hphase
      · cases hstep
  | deregister j =>
      simp only [step] at hstep
      split at hstep
      · rename_i id hphase hlock
        cases hstep
        exact .deregistered hphase hlock
      · cases hstep
  | revokeIdentity peer =>
      simp only [step] at hstep
      split at hstep
      · cases hstep
        exact .identityRevoked
      · cases hstep
  | watchCheck =>
      simp only [step] at hstep
      split at hstep
      · cases hstep
        split
        · exact .polling ‹_›
        · exact .watchStopped ‹_›
      · cases hstep
  | watchRead readable =>
      simp only [step] at hstep
      split at hstep
      · rename_i hwatcher
        cases readable with
        | true =>
            cases hstep
            exact .pinsRead hwatcher
        | false =>
            cases hstep
            exact .readFailed hwatcher
      · cases hstep
  | watchLock =>
      simp only [step] at hstep
      split at hstep
      · rename_i pins hwatcher hlock
        cases hstep
        exact .watchLocked hwatcher hlock
      · cases hstep
  | watchClose k =>
      simp only [step] at hstep
      split at hstep
      · rename_i pins todo hwatcher
        split at hstep
        · rename_i e he
          cases hstep
          exact .watchClosed hwatcher he
        · cases hstep
      · cases hstep
  | watchDone =>
      simp only [step] at hstep
      split at hstep
      · cases hstep
        exact .watchDone ‹_›
      · cases hstep
  | revokeLock =>
      simp only [step] at hstep
      split at hstep
      · rename_i hmain hlock
        cases hstep
        exact .revokeLocked hmain hlock
      · cases hstep
  | revokeClose k =>
      simp only [step] at hstep
      split at hstep
      · rename_i todo hmain
        split at hstep
        · rename_i e he
          cases hstep
          exact .revokeClosed hmain he
        · cases hstep
      · cases hstep
  | revokeDone =>
      simp only [step] at hstep
      split at hstep
      · cases hstep
        exact .revokeDone ‹_›
      · cases hstep

/-! ### The registry -/

/-- Every id in use is one that has been handed out, and to one session; every session between its
registration and its return is in the registry, with its peer's fingerprint and its own socket. -/
structure RegistryInv (s : Service) : Prop where
  below : ∀ j id, (s.sessions j).id? = some id → id < s.nextId
  unique : ∀ i j id, (s.sessions i).id? = some id → (s.sessions j).id? = some id → i = j
  listed : ∀ j peer id, (s.sessions j).live? = some (peer, id) →
    ⟨id, peer.fingerprint crypto, j⟩ ∈ s.registry

theorem registryInv_init (file : List PairedPeer) : RegistryInv crypto (init file) := by
  refine ⟨?_, ?_, ?_⟩
  · intro j id h
    cases h
  · intro i j id h
    cases h
  · intro j peer id h
    cases h

variable {crypto} {s s' : Service}

theorem RegistryInv.of_eq (h : RegistryInv crypto s) (hsessions : s'.sessions = s.sessions)
    (hregistry : s'.registry = s.registry) (hnext : s'.nextId = s.nextId) :
    RegistryInv crypto s' := by
  obtain ⟨hbelow, hunique, hlisted⟩ := h
  refine ⟨?_, ?_, ?_⟩
  · rw [hsessions, hnext]
    exact hbelow
  · rw [hsessions]
    exact hunique
  · rw [hsessions, hregistry]
    exact hlisted

/-- One session moves on with the entry it has, or without one. -/
theorem RegistryInv.move (h : RegistryInv crypto s) (j : ℕ) (phase : SessionPhase)
    (hsessions : s'.sessions = fun i => if i = j then phase else s.sessions i)
    (hregistry : s'.registry = s.registry) (hnext : s'.nextId = s.nextId)
    (hid : ∀ id, phase.id? = some id → (s.sessions j).id? = some id)
    (hlive : ∀ peer id, phase.live? = some (peer, id) → (s.sessions j).live? = some (peer, id)) :
    RegistryInv crypto s' := by
  have hids : ∀ i id, (s'.sessions i).id? = some id → (s.sessions i).id? = some id := by
    intro i id hi
    rw [hsessions] at hi
    dsimp only at hi
    split at hi
    · rename_i hij
      rw [hij]
      exact hid id hi
    · exact hi
  refine ⟨?_, ?_, ?_⟩
  · intro i id hi
    rw [hnext]
    exact h.below i id (hids i id hi)
  · intro i i' id hi hi'
    exact h.unique i i' id (hids i id hi) (hids i' id hi')
  · intro i peer id hi
    rw [hregistry]
    rw [hsessions] at hi
    dsimp only at hi
    split at hi
    · rename_i hij
      rw [hij]
      exact h.listed j peer id (hlive peer id hi)
    · exact h.listed i peer id hi

/-- One session moves on, and has no entry after it. -/
theorem RegistryInv.outside (h : RegistryInv crypto s) (j : ℕ) (phase : SessionPhase)
    (hsessions : s'.sessions = fun i => if i = j then phase else s.sessions i)
    (hregistry : s'.registry = s.registry) (hnext : s'.nextId = s.nextId)
    (hnone : phase.id? = none) : RegistryInv crypto s' := by
  refine h.move j phase hsessions hregistry hnext ?_ ?_
  · intro id hid
    cases hnone.symm.trans hid
  · intro peer id hlive
    cases hnone.symm.trans (SessionPhase.id?_of_live? hlive)

/-- A session registers, under an id that nobody has had. -/
theorem RegistryInv.registered (h : RegistryInv crypto s) (j : ℕ) (peer : PinnedPeer) :
    RegistryInv crypto { s.setSession j (.registered peer s.nextId) with
      registry := s.registry ++ [⟨s.nextId, peer.fingerprint crypto, j⟩]
      nextId := s.nextId + 1 } := by
  have hids : ∀ i id, ((s.setSession j (.registered peer s.nextId)).sessions i).id? = some id →
      (i = j ∧ id = s.nextId) ∨ (s.sessions i).id? = some id := by
    intro i id hi
    simp only [setSession] at hi
    split at hi
    · cases hi
      exact .inl ⟨‹_›, rfl⟩
    · exact .inr hi
  refine ⟨?_, ?_, ?_⟩
  · intro i id hi
    rcases hids i id hi with ⟨-, rfl⟩ | hi
    · exact Nat.lt_succ_self _
    · exact Nat.lt_succ_of_lt (h.below i id hi)
  · intro i i' id hi hi'
    rcases hids i id hi with ⟨hij, hid⟩ | hold
    · rcases hids i' id hi' with ⟨hij', -⟩ | hold'
      · rw [hij, hij']
      · exact absurd (h.below i' id hold') (by rw [hid]; exact lt_irrefl _)
    · rcases hids i' id hi' with ⟨-, hid⟩ | hold'
      · exact absurd (h.below i id hold) (by rw [hid]; exact lt_irrefl _)
      · exact h.unique i i' id hold hold'
  · intro i peer' id hi
    simp only [setSession] at hi
    refine List.mem_append.mpr ?_
    split at hi
    · rename_i hij
      cases hi
      exact .inr (by rw [hij]; exact List.mem_singleton.mpr rfl)
    · exact .inl (h.listed i peer' id hi)

/-- A session deregisters; ids are its own, so no other entry goes with it. -/
theorem RegistryInv.deregistered (h : RegistryInv crypto s) {j id : ℕ}
    (hphase : s.sessions j = .leaving id) :
    RegistryInv crypto
      { s.setSession j .finished with registry := s.registry.filter fun e => e.id ≠ id } := by
  have hids : ∀ i id', ((s.setSession j .finished).sessions i).id? = some id' →
      i ≠ j ∧ (s.sessions i).id? = some id' := by
    intro i id' hi
    simp only [setSession] at hi
    split at hi
    · cases hi
    · exact ⟨‹_›, hi⟩
  refine ⟨fun i id' hi => h.below i id' (hids i id' hi).2,
    fun i i' id' hi hi' => h.unique i i' id' (hids i id' hi).2 (hids i' id' hi').2, ?_⟩
  intro i peer id' hi
  have hid := hids i id' (SessionPhase.id?_of_live? hi)
  simp only [setSession, if_neg hid.1] at hi
  refine List.mem_filter.mpr ⟨h.listed i peer id' hi, ?_⟩
  -- the entry of another session has another id
  have hne : id' ≠ id := by
    rintro rfl
    exact hid.1 (h.unique i j id' hid.2 (by rw [hphase]; rfl))
  simpa using hne

/-- **Every session that is served is in the registry**: what one step keeps. -/
theorem registryInv_step (h : RegistryInv crypto s) {a : ServiceAction}
    (hstep : step crypto s a = some s') : RegistryInv crypto s' := by
  cases step_cases crypto hstep with
  | written | stopped | waiting | ended | nothing | failed | accepted | identityRevoked | polling
  | watchStopped | pinsRead | readFailed | watchLocked | watchClosed | watchDone | revokeLocked
  | revokeClosed | revokeDone => exact h.of_eq rfl rfl rfl
  | @spawned j => exact h.outside j _ rfl rfl rfl rfl
  | @dropped j => exact h.outside j _ rfl rfl rfl rfl
  | @authenticated j => exact h.outside j _ rfl rfl rfl rfl
  | @aborted _ j => exact h.outside j _ rfl rfl rfl rfl
  | @admitted j _ _ hphase =>
      refine h.move j _ rfl rfl rfl (fun _ hid => ?_) (fun _ _ hl => ?_)
      · rw [hphase]
        exact hid
      · rw [hphase]
        exact hl
  | @refused j _ _ _ hphase =>
      refine h.move j _ rfl rfl rfl (fun _ hid => ?_) (fun _ _ hl => by cases hl)
      rw [hphase]
      exact hid
  | @left j _ _ hphase =>
      refine h.move j _ rfl rfl rfl (fun _ hid => ?_) (fun _ _ hl => by cases hl)
      rw [hphase]
      exact hid
  | @registered j peer => exact h.registered j peer
  | @deregistered j id hphase => exact h.deregistered hphase

end Service

end Osprey
