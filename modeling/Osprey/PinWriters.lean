/-
**The writers of the state file, interleaved.**

Three programs write `state.json`: the session threads of the running service, which apply
`pair.revoke` under a lock of that one process (`osprey-svc/src/revoke.rs`), and the `pair` and
`unpair` commands, each a process of its own that loads the state when it opens
(`osprey-svc/src/host.rs`, `commands/pair.rs`, `commands/unpair.rs`).  Every one of them saves the
whole file from the snapshot it holds.  A step of the system is one of: a clock reading, a
verification, taking the lock, a load, a save; an interleaving is a list of steps.  A save is one
step here, and either replaces the file or leaves it, as it does while no other save is under way
(`Osprey.HostState.attempt_save`, and `Osprey.SharedWriters` for those that are).

Main definitions:

* `Osprey.RevokeCall`, `Osprey.ThreadPhase`, `Osprey.ProcessPhase` — the writers;
* `Osprey.Writers`, `Osprey.WriterAction`, `Osprey.Writers.step` — the system;
* `Osprey.Writers.Holds` — a writer holds a snapshot, current at a given stamp.

Main results:

* `Osprey.Writers.step_cases` — what a step can do, branch by branch;
* `Osprey.Writers.timed_step` — **the clock only moves forward**, and every reading in use was taken
  from it.
-/

import Osprey.Revocation
import Osprey.Transition

set_option relaxedAutoImplicit false
set_option autoImplicit false

namespace Osprey

/-! ### The system -/

/-- The arguments of one call of `RevocationHandler::apply`. -/
structure RevokeCall where
  body : PairRevokeBody
  peer : PinnedPeer
  peerDeviceId : Uuid
  deriving DecidableEq, Repr

/-- The selector by which `remove_pin` removes the peer. -/
def RevokeCall.selector (crypto : Crypto) (call : RevokeCall) : PeerSelector :=
  .fingerprintPrefix (call.peer.fingerprint crypto).toHex

/-- The call is about the revocation with this nonce and this time of issue. -/
def RevokeCall.Names (call : RevokeCall) (nonce : Bytes) (issuedAt : Int64) : Prop :=
  call.body.nonce = nonce ∧ call.body.issuedAt = issuedAt

instance (call : RevokeCall) (nonce : Bytes) (issuedAt : Int64) :
    Decidable (call.Names nonce issuedAt) :=
  inferInstanceAs (Decidable (_ ∧ _))

/-- The call of a toy peer that revokes itself. -/
def toyCall (b : UInt8) (issuedAt : Int64) : RevokeCall :=
  ⟨toyRevocation b issuedAt, (toyPeer b).pinned, toyUuid b⟩

/-- Where a session thread is inside `apply`.  A snapshot carries a stamp that says when it was
current. -/
inductive ThreadPhase
  | idle
  | clocked (call : RevokeCall) (now : Int64)
  | verified (call : RevokeCall) (nonce : Key32) (now : Int64)
  | locked (call : RevokeCall) (nonce : Key32) (now : Int64)
  | loaded (call : RevokeCall) (nonce : Key32) (now : Int64) (state : StateFile) (stamp : ℕ)
  | consumed (call : RevokeCall) (nonce : Key32) (now : Int64) (state : StateFile) (stamp : ℕ)
  deriving DecidableEq, Repr

namespace ThreadPhase

/-- The thread holds the lock. -/
def critical : ThreadPhase → Prop
  | locked .. | loaded .. | consumed .. => True
  | _ => False

/-- The clock reading the thread works with. -/
def reading : ThreadPhase → Option Int64
  | idle => none
  | clocked _ now | verified _ _ now | locked _ _ now | loaded _ _ now _ _
  | consumed _ _ now _ _ => some now

/-- The call in progress, once it has been verified, with its nonce and clock reading. -/
def verdict : ThreadPhase → Option (RevokeCall × Key32 × Int64)
  | verified call nonce now | locked call nonce now | loaded call nonce now _ _
  | consumed call nonce now _ _ => some (call, nonce, now)
  | _ => none

/-- The snapshot the thread will save from. -/
def snapshot : ThreadPhase → Option StateFile
  | loaded _ _ _ state _ | consumed _ _ _ state _ => some state
  | _ => none

/-- The snapshot with its stamp. -/
def held : ThreadPhase → Option (StateFile × ℕ)
  | loaded _ _ _ state stamp | consumed _ _ _ state stamp => some (state, stamp)
  | _ => none

theorem critical_of_snapshot {phase : ThreadPhase} {state : StateFile}
    (h : phase.snapshot = some state) : phase.critical := by
  cases phase <;> simp [snapshot, critical] at h ⊢

end ThreadPhase

/-- The commands that open the state file. -/
inductive Command
  | pair
  | unpair
  | run
  deriving DecidableEq, Repr

/-- Where a command is: `creating` is `load_or_create` after it found no file and before its save.
-/
inductive ProcessPhase
  | closed
  | creating (command : Command) (state : StateFile) (stamp : ℕ)
  | opened (command : Command) (state : StateFile) (stamp : ℕ)
  deriving DecidableEq, Repr

/-- The snapshot the process will save from. -/
def ProcessPhase.snapshot : ProcessPhase → Option StateFile
  | closed => none
  | creating _ state _ | opened _ state _ => some state

/-- The snapshot with its stamp. -/
def ProcessPhase.held : ProcessPhase → Option (StateFile × ℕ)
  | closed => none
  | creating _ state stamp | opened _ state stamp => some (state, stamp)

/-- What has happened: calls of `apply` that were answered, nonces that were recorded, and removals
and pairings that were saved and reported. -/
inductive WriterEvent
  | refused (call : RevokeCall) (refusal : RevocationRefusal)
  | recorded (entry : ConsumedRevocation)
  | applied (call : RevokeCall)
  | unpaired (removed : List PairedPeer)
  | paired (peer : PairedPeer)
  deriving DecidableEq, Repr

/-- The file, the latest reading of the host clock, the lock, the writers, and the history with the
latest event first.  `stamp` counts the saves by which a revocation was applied, someone was
unpaired or a nonce was recorded. -/
structure Writers where
  file : Option StateFile
  stamp : ℕ
  clock : Int64
  lock : Option ℕ
  threads : ℕ → ThreadPhase
  processes : ℕ → ProcessPhase
  history : List WriterEvent

/-- One step.  A `fault` is the error with which the load or the save fails. -/
inductive WriterAction
  | tick (now : Int64)
  | readClock (i : ℕ) (call : RevokeCall) (now : Int64)
  | verify (i : ℕ)
  | acquire (i : ℕ)
  | load (i : ℕ) (fault : Option StateError)
  | consume (i : ℕ) (fault : Option StateError)
  | remove (i : ℕ) (fault : Option StateError)
  | openState (p : ℕ) (command : Command) (deviceId : Uuid) (displayName : String)
  | create (p : ℕ)
  | setRelay (p : ℕ) (relay : RelayEnrolment)
  | addPeer (p : ℕ) (peer : PairedPeer)
  | removePeers (p : ℕ) (selector : PeerSelector)
  | exit (p : ℕ)
  | restart
  deriving DecidableEq, Repr

/-- Who takes a step: a thread of the service, or a command. -/
inductive StateWriter
  | thread (i : ℕ)
  | process (p : ℕ)
  deriving DecidableEq, Repr

def WriterAction.writer : WriterAction → Option StateWriter
  | .tick _ | .restart => none
  | .readClock i _ _ | .verify i | .acquire i | .load i _ | .consume i _ | .remove i _ =>
      some (.thread i)
  | .openState p _ _ _ | .create p | .setRelay p _ | .addPeer p _ | .removePeers p _ | .exit p =>
      some (.process p)

namespace Writers

def init (file : Option StateFile) (clock : Int64) : Writers :=
  ⟨file, 0, clock, none, fun _ => .idle, fun _ => .closed, []⟩

def setThread (s : Writers) (i : ℕ) (phase : ThreadPhase) : Writers :=
  { s with threads := fun j => if j = i then phase else s.threads j }

def setProcess (s : Writers) (p : ℕ) (phase : ProcessPhase) : Writers :=
  { s with processes := fun q => if q = p then phase else s.processes q }

/-- The thread that holds the lock answers with a refusal and releases it. -/
def refuse (s : Writers) (i : ℕ) (call : RevokeCall) (refusal : RevocationRefusal) : Writers :=
  { s.setThread i .idle with lock := none, history := .refused call refusal :: s.history }

variable (crypto : Crypto) (hostDeviceId : Uuid)

/-- The transitions.  A command that fails to load or to save ends without having written, which is
`exit`; the agent process that dies takes its threads and their lock with it, which is `restart`. -/
def step (s : Writers) : WriterAction → Option Writers
  | .tick now => if s.clock ≤ now then some { s with clock := now } else none
  | .readClock i call now =>
      match s.threads i with
      | .idle =>
          if s.clock ≤ now then some { s.setThread i (.clocked call now) with clock := now }
          else none
      | _ => none
  | .verify i =>
      match s.threads i with
      | .clocked call now =>
          match verifyRevocation crypto call.body
              ⟨call.peer, call.peerDeviceId, hostDeviceId, now⟩ with
          | .error reason => some { s.setThread i .idle with
              history := .refused call (.rejected reason) :: s.history }
          | .ok nonce => some (s.setThread i (.verified call nonce now))
      | _ => none
  | .acquire i =>
      match s.threads i, s.lock with
      | .verified call nonce now, none =>
          some { s.setThread i (.locked call nonce now) with lock := some i }
      | _, _ => none
  | .load i fault =>
      match s.threads i with
      | .locked call nonce now =>
          match fault, s.file with
          -- `load` does not create: the agent has been initialised, or there is nothing to revoke
          | some e, _ => some (s.refuse i call (.notApplied e))
          | none, none => some (s.refuse i call (.notApplied (.couldNotRead .notFound)))
          | none, some state => some (s.setThread i (.loaded call nonce now state s.stamp))
      | _ => none
  | .consume i fault =>
      match s.threads i with
      | .loaded call nonce now state _ =>
          if state.hasNonce nonce then some (s.refuse i call (.rejected .replayedNonce))
          else
            match fault with
            | some e => some (s.refuse i call (.notApplied e))
            | none =>
                let recorded := state.recordNonce nonce call.body.issuedAt now REVOKE_CLOCK_WINDOW
                some { s.setThread i (.consumed call nonce now recorded (s.stamp + 1)) with
                  file := some recorded
                  stamp := s.stamp + 1
                  history := .recorded ⟨hexEncode nonce, call.body.issuedAt⟩ :: s.history }
      | _ => none
  | .remove i fault =>
      match s.threads i with
      | .consumed call _ _ state _ =>
          match fault with
          | some e => some (s.refuse i call (.notApplied e))
          | none => some { s.setThread i .idle with
              file := some (state.dropPeers crypto (call.selector crypto))
              stamp := s.stamp + 1
              lock := none
              history := .applied call :: s.history }
      | _ => none
  | .openState p command deviceId displayName =>
      match s.processes p with
      | .closed =>
          match s.file with
          | some state => some (s.setProcess p (.opened command state s.stamp))
          | none => some (s.setProcess p
              (.creating command (StateFile.fresh deviceId displayName) s.stamp))
      | _ => none
  | .create p =>
      match s.processes p with
      | .creating command state stamp =>
          some { s.setProcess p (.opened command state stamp) with file := some state }
      | _ => none
  | .setRelay p relay =>
      match s.processes p with
      | .opened .pair state stamp =>
          some { s.setProcess p (.opened .pair (state.withRelay relay) stamp) with
            file := some (state.withRelay relay) }
      | _ => none
  | .addPeer p peer =>
      match s.processes p with
      | .opened .pair state _ =>
          -- what is saved is the snapshot the command opened with, however old it is by now
          some { s.setProcess p .closed with
            file := some (state.insertPeer crypto peer)
            history := .paired peer :: s.history }
      | _ => none
  | .removePeers p selector =>
      match s.processes p with
      | .opened .unpair state _ =>
          some { s.setProcess p .closed with
            file := some (state.dropPeers crypto selector)
            stamp := if (state.matching crypto selector).isEmpty then s.stamp else s.stamp + 1
            history := .unpaired (state.matching crypto selector) :: s.history }
      | _ => none
  | .exit p => some (s.setProcess p .closed)
  | .restart => some { s with lock := none, threads := fun _ => .idle }

/-- What a step can do, branch by branch. -/
inductive Step (s : Writers) : WriterAction → Writers → Prop
  | tick {now : Int64} (hle : s.clock ≤ now) : Step s (.tick now) { s with clock := now }
  | clocked {i : ℕ} {call : RevokeCall} {now : Int64} (hphase : s.threads i = .idle)
      (hle : s.clock ≤ now) :
      Step s (.readClock i call now) { s.setThread i (.clocked call now) with clock := now }
  | rejected {i : ℕ} {call : RevokeCall} {now : Int64} {reason : RevocationRejection}
      (hphase : s.threads i = .clocked call now) :
      Step s (.verify i) { s.setThread i .idle with
        history := .refused call (.rejected reason) :: s.history }
  | verified {i : ℕ} {call : RevokeCall} {n : Key32} {now : Int64}
      (hphase : s.threads i = .clocked call now)
      (hverify : verifyRevocation crypto call.body
        ⟨call.peer, call.peerDeviceId, hostDeviceId, now⟩ = .ok n) :
      Step s (.verify i) (s.setThread i (.verified call n now))
  | acquired {i : ℕ} {call : RevokeCall} {n : Key32} {now : Int64}
      (hphase : s.threads i = .verified call n now) (hlock : s.lock = none) :
      Step s (.acquire i) { s.setThread i (.locked call n now) with lock := some i }
  | refused {a : WriterAction} {i : ℕ} {call : RevokeCall} {refusal : RevocationRefusal}
      (hwriter : a.writer = some (.thread i)) (hcritical : (s.threads i).critical) :
      Step s a (s.refuse i call refusal)
  | loaded {i : ℕ} {call : RevokeCall} {n : Key32} {now : Int64} {state : StateFile}
      (hphase : s.threads i = .locked call n now) (hfile : s.file = some state) :
      Step s (.load i none) (s.setThread i (.loaded call n now state s.stamp))
  | recorded {i : ℕ} {call : RevokeCall} {n : Key32} {now : Int64} {state : StateFile} {stamp : ℕ}
      (hphase : s.threads i = .loaded call n now state stamp) (hnew : state.hasNonce n = false) :
      Step s (.consume i none)
        { s.setThread i (.consumed call n now
            (state.recordNonce n call.body.issuedAt now REVOKE_CLOCK_WINDOW) (s.stamp + 1)) with
          file := some (state.recordNonce n call.body.issuedAt now REVOKE_CLOCK_WINDOW)
          stamp := s.stamp + 1
          history := .recorded ⟨hexEncode n, call.body.issuedAt⟩ :: s.history }
  | applied {i : ℕ} {call : RevokeCall} {n : Key32} {now : Int64} {state : StateFile} {stamp : ℕ}
      (hphase : s.threads i = .consumed call n now state stamp) :
      Step s (.remove i none)
        { s.setThread i .idle with
          file := some (state.dropPeers crypto (call.selector crypto))
          stamp := s.stamp + 1
          lock := none
          history := .applied call :: s.history }
  | opened {p : ℕ} {command : Command} {deviceId : Uuid} {displayName : String} {state : StateFile}
      (hfile : s.file = some state) :
      Step s (.openState p command deviceId displayName)
        (s.setProcess p (.opened command state s.stamp))
  | missing {p : ℕ} {command : Command} {deviceId : Uuid} {displayName : String}
      (hfile : s.file = none) :
      Step s (.openState p command deviceId displayName)
        (s.setProcess p (.creating command (StateFile.fresh deviceId displayName) s.stamp))
  | created {p : ℕ} {command : Command} {state : StateFile} {stamp : ℕ}
      (hphase : s.processes p = .creating command state stamp) :
      Step s (.create p)
        { s.setProcess p (.opened command state stamp) with file := some state }
  | relaySet {p : ℕ} {relay : RelayEnrolment} {state : StateFile} {stamp : ℕ}
      (hphase : s.processes p = .opened .pair state stamp) :
      Step s (.setRelay p relay)
        { s.setProcess p (.opened .pair (state.withRelay relay) stamp) with
          file := some (state.withRelay relay) }
  | paired {p : ℕ} {peer : PairedPeer} {state : StateFile} {stamp : ℕ}
      (hphase : s.processes p = .opened .pair state stamp) :
      Step s (.addPeer p peer)
        { s.setProcess p .closed with
          file := some (state.insertPeer crypto peer)
          history := .paired peer :: s.history }
  | unpaired {p : ℕ} {selector : PeerSelector} {state : StateFile} {stamp : ℕ}
      (hphase : s.processes p = .opened .unpair state stamp) :
      Step s (.removePeers p selector)
        { s.setProcess p .closed with
          file := some (state.dropPeers crypto selector)
          stamp := if (state.matching crypto selector).isEmpty then s.stamp else s.stamp + 1
          history := .unpaired (state.matching crypto selector) :: s.history }
  | exited {p : ℕ} : Step s (.exit p) (s.setProcess p .closed)
  | restarted : Step s .restart { s with lock := none, threads := fun _ => .idle }

/-- **The step function takes one of these branches.** -/
theorem step_cases {s s' : Writers} {a : WriterAction}
    (hstep : step crypto hostDeviceId s a = some s') : Step crypto hostDeviceId s a s' := by
  cases a with
  | tick now =>
      simp only [step] at hstep
      split at hstep
      · cases hstep
        exact .tick ‹_›
      · cases hstep
  | readClock i call now =>
      simp only [step] at hstep
      split at hstep
      · rename_i hphase
        split at hstep
        · cases hstep
          exact .clocked hphase ‹_›
        · cases hstep
      · cases hstep
  | verify i =>
      simp only [step] at hstep
      split at hstep
      · rename_i call now hphase
        split at hstep
        · cases hstep
          exact .rejected hphase
        · cases hstep
          exact .verified hphase ‹_›
      · cases hstep
  | acquire i =>
      simp only [step] at hstep
      split at hstep
      · rename_i call n now hphase hlock
        cases hstep
        exact .acquired hphase hlock
      · cases hstep
  | load i fault =>
      simp only [step] at hstep
      split at hstep
      · rename_i call n now hphase
        have hcritical : (s.threads i).critical := by rw [hphase]; trivial
        split at hstep
        · cases hstep
          exact .refused rfl hcritical
        · cases hstep
          exact .refused rfl hcritical
        · rename_i state hfile
          cases hstep
          exact .loaded hphase hfile
      · cases hstep
  | consume i fault =>
      simp only [step] at hstep
      split at hstep
      · rename_i call n now state stamp hphase
        have hcritical : (s.threads i).critical := by rw [hphase]; trivial
        split at hstep
        · cases hstep
          exact .refused rfl hcritical
        · rename_i hnew
          split at hstep
          · cases hstep
            exact .refused rfl hcritical
          · cases hstep
            exact .recorded hphase (by simpa using hnew)
      · cases hstep
  | remove i fault =>
      simp only [step] at hstep
      split at hstep
      · rename_i call n now state stamp hphase
        have hcritical : (s.threads i).critical := by rw [hphase]; trivial
        split at hstep
        · cases hstep
          exact .refused rfl hcritical
        · cases hstep
          exact .applied hphase
      · cases hstep
  | openState p command deviceId displayName =>
      simp only [step] at hstep
      split at hstep
      · split at hstep
        · rename_i state hfile
          cases hstep
          exact .opened hfile
        · rename_i hfile
          cases hstep
          exact .missing hfile
      · cases hstep
  | create p =>
      simp only [step] at hstep
      split at hstep
      · rename_i command state stamp hphase
        cases hstep
        exact .created hphase
      · cases hstep
  | setRelay p relay =>
      simp only [step] at hstep
      split at hstep
      · rename_i state stamp hphase
        cases hstep
        exact .relaySet hphase
      · cases hstep
  | addPeer p peer =>
      simp only [step] at hstep
      split at hstep
      · rename_i state stamp hphase
        cases hstep
        exact .paired hphase
      · cases hstep
  | removePeers p selector =>
      simp only [step] at hstep
      split at hstep
      · rename_i state stamp hphase
        cases hstep
        exact .unpaired hphase
      · cases hstep
  | exit p =>
      cases hstep
      exact .exited
  | restart =>
      cases hstep
      exact .restarted

/-! ### The file, the snapshots and the clock -/

/-- The pins on file. -/
def pins (s : Writers) : List PairedPeer :=
  match s.file with
  | none => []
  | some state => state.peers

/-- The recorded revocations on file. -/
def entries (s : Writers) : List ConsumedRevocation :=
  match s.file with
  | none => []
  | some state => state.consumedRevocations

/-- Some writer holds this snapshot. -/
def Holds (s : Writers) (state : StateFile) (stamp : ℕ) : Prop :=
  (∃ i, (s.threads i).held = some (state, stamp)) ∨ ∃ p, (s.processes p).held = some (state, stamp)

section

variable {crypto hostDeviceId} {s s' : Writers} {state : StateFile} {stamp : ℕ}

theorem holds_setThread (s : Writers) (i : ℕ) (phase : ThreadPhase) (h : s'.Holds state stamp)
    (hthreads : s'.threads = fun j => if j = i then phase else s.threads j)
    (hprocesses : s'.processes = s.processes) :
    s.Holds state stamp ∨ phase.held = some (state, stamp) := by
  rcases h with ⟨j, hj⟩ | ⟨p, hp⟩
  · rw [hthreads] at hj
    dsimp only at hj
    split at hj
    · exact .inr hj
    · exact .inl (.inl ⟨j, hj⟩)
  · exact .inl (.inr ⟨p, hprocesses ▸ hp⟩)

theorem holds_setProcess (s : Writers) (p : ℕ) (phase : ProcessPhase) (h : s'.Holds state stamp)
    (hthreads : s'.threads = s.threads)
    (hprocesses : s'.processes = fun q => if q = p then phase else s.processes q) :
    s.Holds state stamp ∨ phase.held = some (state, stamp) := by
  rcases h with ⟨j, hj⟩ | ⟨q, hq⟩
  · exact .inl (.inl ⟨j, hthreads ▸ hj⟩)
  · rw [hprocesses] at hq
    dsimp only at hq
    split at hq
    · exact .inr hq
    · exact .inl (.inr ⟨q, hq⟩)

/-- A thread that ends up without a snapshot adds none. -/
theorem holds_of_setThread (s : Writers) (i : ℕ) (phase : ThreadPhase) (h : s'.Holds state stamp)
    (hphase : phase.held = none)
    (hthreads : s'.threads = fun j => if j = i then phase else s.threads j)
    (hprocesses : s'.processes = s.processes) : s.Holds state stamp :=
  (holds_setThread s i phase h hthreads hprocesses).resolve_right (by simp [hphase])

/-- A process that ends adds no snapshot. -/
theorem holds_of_setProcess_closed (s : Writers) (p : ℕ) (h : s'.Holds state stamp)
    (hthreads : s'.threads = s.threads)
    (hprocesses : s'.processes = fun q => if q = p then .closed else s.processes q) :
    s.Holds state stamp :=
  (holds_setProcess s p .closed h hthreads hprocesses).resolve_right (by simp [ProcessPhase.held])

/-- Every clock reading in use was taken no later than the clock stands. -/
def Timed (s : Writers) : Prop :=
  ∀ i now, (s.threads i).reading = some now → now.toInt ≤ s.clock.toInt

theorem timed_init (file : Option StateFile) (clock : Int64) : (init file clock).Timed :=
  fun _ _ hnow => by cases hnow

/-- One thread moves, with the reading it had or with none. -/
theorem Timed.setThread (h : s.Timed) {i : ℕ} {phase : ThreadPhase}
    (hphase : ∀ now, phase.reading = some now → (s.threads i).reading = some now)
    (hthreads : s'.threads = fun j => if j = i then phase else s.threads j)
    (hclock : s'.clock = s.clock) : s'.Timed := by
  intro j now hnow
  rw [hthreads] at hnow
  dsimp only at hnow
  rw [hclock]
  split at hnow
  · exact h i now (hphase now hnow)
  · exact h j now hnow

theorem Timed.of_threads (h : s.Timed) (hthreads : s'.threads = s.threads)
    (hclock : s'.clock = s.clock) : s'.Timed := by
  intro j now hnow
  rw [hthreads] at hnow
  rw [hclock]
  exact h j now hnow

/-- **The clock only moves forward, and every reading in use was taken from it.** -/
theorem timed_step (h : s.Timed) {a : WriterAction}
    (hstep : step crypto hostDeviceId s a = some s') :
    s.clock.toInt ≤ s'.clock.toInt ∧ s'.Timed := by
  cases step_cases crypto hostDeviceId hstep with
  | tick hle =>
      rw [Int64.le_iff_toInt_le] at hle
      exact ⟨hle, fun i now' hnow' => (h i now' hnow').trans hle⟩
  | @clocked i call now hphase hle =>
      rw [Int64.le_iff_toInt_le] at hle
      refine ⟨hle, fun j now' hnow' => ?_⟩
      simp only [Writers.setThread] at hnow'
      split at hnow'
      · cases hnow'
        exact le_rfl
      · exact (h j now' hnow').trans hle
  | rejected => exact ⟨le_rfl, h.setThread (fun _ hnow => by cases hnow) rfl rfl⟩
  | refused => exact ⟨le_rfl, h.setThread (fun _ hnow => by cases hnow) rfl rfl⟩
  | applied => exact ⟨le_rfl, h.setThread (fun _ hnow => by cases hnow) rfl rfl⟩
  | verified hphase =>
      exact ⟨le_rfl, h.setThread (fun _ hnow => by rw [hphase]; exact hnow) rfl rfl⟩
  | acquired hphase =>
      exact ⟨le_rfl, h.setThread (fun _ hnow => by rw [hphase]; exact hnow) rfl rfl⟩
  | loaded hphase =>
      exact ⟨le_rfl, h.setThread (fun _ hnow => by rw [hphase]; exact hnow) rfl rfl⟩
  | recorded hphase =>
      exact ⟨le_rfl, h.setThread (fun _ hnow => by rw [hphase]; exact hnow) rfl rfl⟩
  | opened | missing | created | relaySet | paired | unpaired | exited =>
      exact ⟨le_rfl, h.of_threads rfl rfl⟩
  | restarted => exact ⟨le_rfl, fun i now hnow => by cases hnow⟩

end

end Writers

end Osprey
