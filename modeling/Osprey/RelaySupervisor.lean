/-
**Staying attached to the relay.**

`relay/supervisor.rs`: one thread attaches, serves the link until it ends, and comes back after a
delay.  What cannot be mended by coming back is to end it.  A close frame that says so does; a url
that is rejected before anything is sent, and an upgrade that is answered with 401, are errors of
`attach` like any other, and are tried again for ever.

A step of the thread goes from one look at `running`, or from one call that may block, to the next;
the clock and whoever stops the agent step in between.  What the socket answers is carried by the
step.  To close a link that has ended is part of its end.

Main definitions:

* `Osprey.RelayTarget.attach` — what an attempt comes to;
* `Osprey.RelaySupervisor`, `Osprey.RelaySupervisor.step` — the thread, its status and the clock;
* `Osprey.RelayOutcome`, `Osprey.RelayOutcome.Refused` — how an attempt or a link ends, and that the
  credential or the configuration is what has been refused;
* `Osprey.RelayHistory`, `Osprey.RelaySupervisor.Retries` — the last outcome, and what is to follow
  from it;
* `Osprey.RelaySupervisor.RetriesRefused` — an attempt is refused, and the agent is running.

Main results:

* `Osprey.RelaySupervisor.retries_step_iff` — which steps retry what they should;
* `Osprey.RelaySupervisor.exists_attaching` — who is to come back does;
* `Osprey.relay_retries_iff` — **exactly which runs retry what a retry can fix, and nothing else**.
-/

import Osprey.RelayBackoff
import Osprey.RelayLink
import Osprey.Transition

set_option relaxedAutoImplicit false
set_option autoImplicit false

namespace Osprey

/-! ### Attempts -/

/-- What the supervisor needs to attach. -/
structure RelayTarget where
  baseUrl : String
  token : String
  deriving DecidableEq, Repr

/-- Why an attempt fails: the url is rejected; the upgrade is answered with another status; or
anything else on the way. -/
inductive AttachError
  | url (message : String)
  | http (status : UInt16)
  | other (message : String)
  deriving DecidableEq, Repr

/-- What the connection comes to once there is a request: an HTTP answer that is no upgrade, an
error of the transport, or a socket whose read deadline is set or cannot be. -/
inductive ConnectOutcome
  | http (status : UInt16)
  | failed (message : String)
  | connected (deadline : Except String Unit)
  deriving Repr

/-- Open the socket and bound its reads. -/
def RelayTarget.attach (parsesUri : List Char → Bool) (target : RelayTarget) (now : ℕ)
    (outcome : ConnectOutcome) : Except AttachError RelayLink :=
  match agentRequest parsesUri target.baseUrl target.token with
  | .error message => .error (.url message)
  | .ok _ =>
      match outcome with
      | .http status => .error (.http status)
      | .failed message => .error (.other message)
      | .connected (.error message) => .error (.other message)
      | .connected (.ok ()) => .ok (.new now)

/-! ### The supervisor -/

/-- Live view of the attachment. -/
structure RelayStatus where
  attached : Bool
  attachments : UInt64
  deriving DecidableEq, Repr

/-- Where the thread is. -/
inductive RelayPhase
  /-- At the head of its loop. -/
  | head
  | attaching
  /-- At the head of `pump`. -/
  | pump (started : ℕ) (link : RelayLink)
  | polling (started : ℕ) (link : RelayLink)
  /-- About to ask for the next delay. -/
  | failed
  | sleeping (deadline : ℕ)
  | returned
  deriving DecidableEq, Repr

/-- The thread, its status, and what it shares with others; times are in nanoseconds. -/
structure RelaySupervisor where
  running : Bool
  now : ℕ
  status : RelayStatus
  backoff : Backoff
  phase : RelayPhase
  deriving DecidableEq, Repr

/-- How long a link must survive before it counts as healthy: 30 s. -/
def HEALTHY_AFTER : ℕ := 30 * 10 ^ 9

/-- Ceiling on the retry delay, and the first one: 60 s and 1 s. -/
def BACKOFF_CAP : StdDuration := .fromSecs 60

def BACKOFF_BASE : StdDuration := .fromSecs 1

/-- What can happen next: time passes, the agent is stopped, or the thread goes on, with what it was
waiting for. -/
inductive RelayMove
  | elapse (time : ℕ)
  | stop
  /-- The thread looks at `running`. -/
  | check
  | attach (outcome : ConnectOutcome)
  | poll (failure : Option String) (read : SocketRead)
  /-- The delay is computed; `nanos` is the sub-second part of the clock. -/
  | backOff (nanos : UInt32)
  deriving Repr

namespace RelaySupervisor

/-- `supervise`, when the agent has just been started. -/
def initial (now : ℕ) : RelaySupervisor :=
  ⟨true, now, ⟨false, 0⟩, .new BACKOFF_BASE BACKOFF_CAP, .head⟩

/-- `attach` has returned. -/
def attached (s : RelaySupervisor) : Except AttachError RelayLink → RelaySupervisor
  | .ok link =>
      { s with
        status := ⟨true, s.status.attachments + 1⟩
        phase := .pump s.now link }
  | .error _ => { s with phase := .failed }

/-- `pump` has returned: the link is closed, a healthy one resets the backoff, and the thread comes
back unless it cannot or the agent stops. -/
def ended (s : RelaySupervisor) (started : ℕ) (outcome : Option Disconnect) : RelaySupervisor :=
  { s with
    status := { s.status with attached := false }
    backoff := if HEALTHY_AFTER ≤ s.now - started then s.backoff.reset else s.backoff
    phase :=
      match outcome with
      | some (.terminal _) => .returned
      | some (.retryable _) => .failed
      | none => .returned }

/-- The thread looks at `running`: in its loop, in `pump`, and in `sleep_unless_stopping`. -/
def check (s : RelaySupervisor) : Option RelaySupervisor :=
  match s.phase with
  | .head => some { s with phase := if s.running then .attaching else .returned }
  | .pump started link =>
      some (if s.running then { s with phase := .polling started link } else s.ended started none)
  | .sleeping deadline =>
      if s.running then
        some { s with phase := if s.now < deadline then .sleeping deadline else .head }
      else some { s with phase := .returned }
  | _ => none

/-- One step, of the thread or around it. -/
def step (parsesUri : List Char → Bool) (target : RelayTarget) (s : RelaySupervisor) :
    RelayMove → Option RelaySupervisor
  | .elapse time => some { s with now := s.now + time }
  | .stop => some { s with running := false }
  | .check => s.check
  | .attach outcome =>
      match s.phase with
      | .attaching => some (s.attached (target.attach parsesUri s.now outcome))
      | _ => none
  | .poll failure read =>
      match s.phase with
      | .polling started link =>
          match link.poll s.now failure read with
          | .ok answer => some { s with phase := .pump started answer.2 }
          | .error disconnect => some (s.ended started (some disconnect))
      | _ => none
  | .backOff nanos =>
      match s.phase with
      | .failed =>
          let delay := s.backoff.nextDelay nanos
          some { s with backoff := delay.2, phase := .sleeping (s.now + delay.1.nanos) }
      | _ => none

end RelaySupervisor

/-! ### What is to follow from an outcome -/

/-- How an attempt fails, or how a link ends. -/
inductive RelayOutcome
  | notAttached (error : AttachError)
  | linkEnded (reason : LinkEnd)
  deriving DecidableEq, Repr

/-- The outcome proves that the credential or the configuration is refused. -/
def RelayOutcome.Refused : RelayOutcome → Prop
  | .notAttached (.url _) => True
  | .notAttached (.http status) => status = 401
  | .notAttached (.other _) => False
  | .linkEnded reason => reason.Refused

instance : (outcome : RelayOutcome) → Decidable outcome.Refused
  | .notAttached (.url _) => .isTrue trivial
  | .notAttached (.http status) => inferInstanceAs (Decidable (status = 401))
  | .notAttached (.other _) => .isFalse not_false
  | .linkEnded (.closed _) => inferInstanceAs (Decidable (_ ∨ _))
  | .linkEnded .failed => .isFalse not_false

/-- The last outcome, unless a link is up or the first attempt is under way, and the end of the
delay that was chosen after it. -/
structure RelayHistory where
  last : Option RelayOutcome
  due : Option ℕ
  deriving DecidableEq, Repr

namespace RelaySupervisor

variable (parsesUri : List Char → Bool) (target : RelayTarget)

/-- The outcome that a move brings. -/
def outcome (s : RelaySupervisor) : RelayMove → Option RelayOutcome
  | .attach outcome =>
      match s.phase with
      | .attaching =>
          match target.attach parsesUri s.now outcome with
          | .error error => some (.notAttached error)
          | .ok _ => none
      | _ => none
  | .poll failure read =>
      match s.phase with
      | .polling _ link => (link.endsWith s.now failure read).map .linkEnded
      | _ => none
  | _ => none

/-- What a move adds to the history. -/
def noteOutcome (s : RelaySupervisor) (move : RelayMove) (history : RelayHistory) : RelayHistory :=
  match s.outcome parsesUri target move with
  | some outcome => ⟨some outcome, none⟩
  | none =>
      match move with
      | .attach _ => ⟨none, none⟩
      | .backOff nanos => { history with due := some (s.now + (s.backoff.nextDelay nanos).1.nanos) }
      | _ => history

end RelaySupervisor

/-- The thread is on its way to the next attempt, which it does not make before the delay is
over. -/
def RelayPhase.ComesBack (now : ℕ) (due : Option ℕ) : RelayPhase → Prop
  | .failed => True
  | .sleeping deadline => due = some deadline
  | .head | .attaching => ∃ deadline ∈ due, deadline ≤ now
  | .pump _ _ | .polling _ _ | .returned => False

theorem RelayPhase.ComesBack.later {now later : ℕ} {due : Option ℕ} {phase : RelayPhase}
    (h : phase.ComesBack now due) (hle : now ≤ later) : phase.ComesBack later due := by
  cases phase with
  | failed => trivial
  | sleeping deadline => exact h
  | head =>
      obtain ⟨deadline, hdue, hover⟩ := h
      exact ⟨deadline, hdue, hover.trans hle⟩
  | attaching =>
      obtain ⟨deadline, hdue, hover⟩ := h
      exact ⟨deadline, hdue, hover.trans hle⟩
  | pump started link => exact h
  | polling started link => exact h
  | returned => exact h

/-- A link is being served. -/
def RelayPhase.Serves : RelayPhase → Prop
  | .pump _ _ | .polling _ _ => True
  | _ => False

namespace RelaySupervisor

/-- **What is to follow**, while the agent is running: after a refusal the thread has returned,
after any other outcome it comes back; and whether it is attached is whether a link is
being served. -/
structure Retries (s : RelaySupervisor × RelayHistory) : Prop where
  refused : s.1.running = true → ∀ outcome, s.2.last = some outcome → outcome.Refused →
    s.1.phase = .returned
  retried : s.1.running = true → ∀ outcome, s.2.last = some outcome → ¬outcome.Refused →
    s.1.phase.ComesBack s.1.now s.2.due
  attached : s.1.status.attached = true ↔ s.1.phase.Serves

/-- An attempt is refused for good, and the agent is running. -/
def RetriesRefused (parsesUri : List Char → Bool) (target : RelayTarget) (s : RelaySupervisor)
    (move : RelayMove) : Prop :=
  s.running = true ∧ ∃ outcome ∈ s.outcome parsesUri target move,
    outcome.Refused ∧ ∀ reason, outcome ≠ .linkEnded reason

instance (parsesUri : List Char → Bool) (target : RelayTarget) (s : RelaySupervisor)
    (move : RelayMove) : Decidable (s.RetriesRefused parsesUri target move) :=
  match houtcome : s.outcome parsesUri target move with
  | some (.notAttached error) =>
      decidable_of_iff (s.running = true ∧ (RelayOutcome.notAttached error).Refused) (by
        simp [RetriesRefused, houtcome])
  | some (.linkEnded _) => .isFalse (by simp [RetriesRefused, houtcome])
  | none => .isFalse (by simp [RetriesRefused, houtcome])

variable {parsesUri : List Char → Bool} {target : RelayTarget}

theorem retries_initial (now : ℕ) : Retries (initial now, ⟨none, none⟩) where
  refused _ _ hlast := nomatch hlast
  retried _ _ hlast := nomatch hlast
  attached := iff_of_false Bool.false_ne_true not_false

/-- A move that brings no outcome is no refusal. -/
theorem not_retriesRefused {s : RelaySupervisor} {move : RelayMove}
    (h : s.outcome parsesUri target move = none) : ¬s.RetriesRefused parsesUri target move := by
  rintro ⟨-, outcome, houtcome, -⟩
  rw [h] at houtcome
  cases houtcome

/-- A thread that stops, because the agent does, is no more attached than before. -/
theorem retries_stopped {s : RelaySupervisor} {history : RelayHistory}
    (hrunning : s.running = false)
    (hattached : s.status.attached = true ↔ s.phase.Serves) : Retries (s, history) where
  refused h := absurd (h.symm.trans hrunning) (by decide)
  retried h := absurd (h.symm.trans hrunning) (by decide)
  attached := hattached

/-- A thread that has not returned goes on as it should if it goes on to come back. -/
theorem Retries.goesOn {s t : RelaySupervisor} {history history' : RelayHistory}
    (hs : Retries (s, history)) (hlast : history'.last = history.last)
    (hphase : s.phase ≠ .returned) (hrunning : t.running = s.running)
    (hback : s.phase.ComesBack s.now history.due → t.phase.ComesBack t.now history'.due)
    (hattached : t.status.attached = true ↔ t.phase.Serves) : Retries (t, history') where
  refused h outcome houtcome hrefused :=
    absurd (hs.refused (hrunning.symm.trans h) outcome (hlast.symm.trans houtcome) hrefused) hphase
  retried h outcome houtcome hspared :=
    hback (hs.retried (hrunning.symm.trans h) outcome (hlast.symm.trans houtcome) hspared)
  attached := hattached

/-- Where the thread looks at `running`, it goes on as it should. -/
theorem Retries.check {s t : RelaySupervisor} {history : RelayHistory} (hs : Retries (s, history))
    (h : s.check = some t) : Retries (t, history) := by
  obtain ⟨running, now, status, backoff, phase⟩ := s
  have hattached : status.attached = true ↔ phase.Serves := hs.attached
  cases phase with
  | head =>
      cases running with
      | false =>
          cases h
          exact retries_stopped rfl hattached
      | true =>
          cases h
          exact hs.goesOn rfl (by simp) rfl id hattached
  | pump started link =>
      cases running with
      | false =>
          cases h
          exact retries_stopped rfl (iff_of_false Bool.false_ne_true not_false)
      | true =>
          cases h
          exact hs.goesOn rfl (by simp) rfl id hattached
  | sleeping deadline =>
      cases running with
      | false =>
          cases h
          exact retries_stopped rfl hattached
      | true =>
          cases h
          dsimp only
          split
          · exact hs
          · -- the delay is over
            rename_i hover
            refine hs.goesOn rfl (by simp) rfl (fun hdue => ?_) hattached
            exact ⟨deadline, hdue, Nat.le_of_not_lt hover⟩
  | attaching => cases h
  | polling started link => cases h
  | failed => cases h
  | returned => cases h

/-- The end of a link is final exactly if the relay refused it. -/
theorem retries_ended {s : RelaySupervisor} {started : ℕ} {disconnect : Disconnect}
    {reason : LinkEnd} (h : disconnect.isTerminal = true ↔ reason.Refused) :
    Retries (s.ended started (some disconnect), ⟨some (.linkEnded reason), none⟩) := by
  cases disconnect with
  | terminal text =>
      refine ⟨fun _ _ _ _ => rfl, fun _ outcome hlast hspared => ?_,
        iff_of_false Bool.false_ne_true not_false⟩
      cases hlast
      exact absurd (h.mp rfl) hspared
  | retryable text =>
      refine ⟨fun _ outcome hlast hrefused => ?_, fun _ _ _ _ => trivial,
        iff_of_false Bool.false_ne_true not_false⟩
      cases hlast
      exact absurd (h.mpr hrefused) Bool.false_ne_true

/-- An attempt: a link is served, or the thread tries again, whatever the error. -/
theorem retries_attach_iff {s t : RelaySupervisor} {history : RelayHistory}
    {outcome : ConnectOutcome} (hs : Retries (s, history))
    (h : step parsesUri target s (.attach outcome) = some t) :
    Retries (t, noteOutcome parsesUri target s (.attach outcome) history) ↔
      ¬s.RetriesRefused parsesUri target (.attach outcome) := by
  obtain ⟨running, now, status, backoff, phase⟩ := s
  cases phase with
  | attaching =>
      have houtcome : RelaySupervisor.outcome parsesUri target
          ⟨running, now, status, backoff, .attaching⟩ (.attach outcome) =
          match target.attach parsesUri now outcome with
          | .error error => some (.notAttached error)
          | .ok _ => none := rfl
      cases hattach : target.attach parsesUri now outcome with
      | ok link =>
          rw [hattach] at houtcome
          simp only [step, hattach] at h
          cases h
          refine iff_of_true ?_ (not_retriesRefused houtcome)
          simp only [noteOutcome, houtcome]
          exact ⟨fun _ _ hlast => (nomatch hlast), fun _ _ hlast => (nomatch hlast),
            iff_of_true rfl trivial⟩
      | error error =>
          rw [hattach] at houtcome
          simp only [step, hattach] at h
          cases h
          simp only [noteOutcome, houtcome]
          constructor
          · rintro hretries ⟨hrunning, refusal, hrefusal, hrefused, -⟩
            cases houtcome.symm.trans hrefusal
            cases hretries.refused hrunning _ rfl hrefused
          · intro hspares
            refine ⟨fun hrunning outcome hlast hrefused => ?_, fun _ _ _ _ => trivial,
              hs.attached⟩
            cases hlast
            exact absurd ⟨hrunning, _, houtcome, hrefused, by simp⟩ hspares
  | head | pump | polling | failed | sleeping | returned => cases h

/-- A poll: the link goes on, or it has ended, for good if the relay closed it so. -/
theorem retries_poll {s t : RelaySupervisor} {history : RelayHistory} {failure : Option String}
    {read : SocketRead} (hs : Retries (s, history))
    (h : step parsesUri target s (.poll failure read) = some t) :
    Retries (t, noteOutcome parsesUri target s (.poll failure read) history) ∧
      ¬s.RetriesRefused parsesUri target (.poll failure read) := by
  obtain ⟨running, now, status, backoff, phase⟩ := s
  cases phase with
  | polling started link =>
      have houtcome : RelaySupervisor.outcome parsesUri target
          ⟨running, now, status, backoff, .polling started link⟩ (.poll failure read) =
          (link.endsWith now failure read).map .linkEnded := rfl
      cases hpoll : link.poll now failure read with
      | ok answer =>
          rw [RelayLink.endsWith_of_poll_ok hpoll, Option.map_none] at houtcome
          simp only [step, hpoll] at h
          cases h
          refine ⟨?_, not_retriesRefused houtcome⟩
          simp only [noteOutcome, houtcome]
          exact hs.goesOn rfl (by simp) rfl id hs.attached
      | error disconnect =>
          obtain ⟨reason, hends, hterminal⟩ := RelayLink.endsWith_of_poll_error hpoll
          rw [hends, Option.map_some] at houtcome
          simp only [step, hpoll] at h
          cases h
          simp only [noteOutcome, houtcome]
          refine ⟨retries_ended hterminal, ?_⟩
          rintro ⟨-, outcome, hrefusal, -, hlink⟩
          exact hlink reason (Option.some.inj (hrefusal.symm.trans houtcome))
  | head | pump | attaching | failed | sleeping | returned => cases h

/-- **When a step retries what it should.** -/
theorem retries_step_iff {s t : RelaySupervisor × RelayHistory} {move : RelayMove} (hs : Retries s)
    (h : Transition.tracked (step parsesUri target) (noteOutcome parsesUri target) s move
      = some t) :
    Retries t ↔ ¬s.1.RetriesRefused parsesUri target move := by
  obtain ⟨s, history⟩ := s
  obtain ⟨t, history'⟩ := t
  obtain ⟨hstep, hnote⟩ := Transition.tracked_eq_some.mp h
  dsimp only at hstep hnote
  subst hnote
  cases move with
  | elapse time =>
      cases hstep
      refine iff_of_true ⟨hs.refused, fun hrunning outcome hlast hspared => ?_, hs.attached⟩
        (not_retriesRefused rfl)
      exact (hs.retried hrunning outcome hlast hspared).later (Nat.le_add_right _ _)
  | stop =>
      cases hstep
      exact iff_of_true (retries_stopped rfl hs.attached) (not_retriesRefused rfl)
  | check => exact iff_of_true (hs.check hstep) (not_retriesRefused rfl)
  | attach outcome => exact retries_attach_iff hs hstep
  | poll failure read =>
      obtain ⟨hretries, hspares⟩ := retries_poll hs hstep
      exact iff_of_true hretries hspares
  | backOff nanos =>
      obtain ⟨running, now, status, backoff, phase⟩ := s
      cases phase with
      | failed =>
          cases hstep
          refine iff_of_true ?_ (not_retriesRefused rfl)
          exact hs.goesOn rfl (by simp) rfl (fun _ => rfl) hs.attached
      | head | pump | polling | attaching | sleeping | returned => cases hstep

/-- From its sleep the thread goes on to the next attempt when the delay is over. -/
theorem run_sleeping (now deadline : ℕ) (status : RelayStatus) (backoff : Backoff) :
    Transition.run (step parsesUri target) ⟨true, now, status, backoff, .sleeping deadline⟩
        [.elapse (deadline - now), .check, .check]
      = some ⟨true, now + (deadline - now), status, backoff, .attaching⟩ := by
  have hover : ¬now + (deadline - now) < deadline := by omega
  simp only [Transition.run, step, check, if_pos, if_neg hover]

/-- **Who is to come back does**: there is nothing that the thread waits for but the end of its
delay. -/
theorem exists_attaching {s : RelaySupervisor} {due : Option ℕ} (hrunning : s.running = true)
    (h : s.phase.ComesBack s.now due) (nanos : UInt32) : ∃ moves t,
      (∀ move ∈ moves, move = .check ∨ move = .backOff nanos ∨ ∃ time, move = .elapse time) ∧
        Transition.run (step parsesUri target) s moves = some t ∧ t.phase = .attaching := by
  obtain ⟨running, now, status, backoff, phase⟩ := s
  dsimp only at hrunning
  subst hrunning
  cases phase with
  | head => exact ⟨[.check], _, by simp, rfl, rfl⟩
  | attaching => exact ⟨[], _, by simp, rfl, rfl⟩
  | sleeping deadline => exact ⟨_, _, by simp, run_sleeping now deadline status backoff, rfl⟩
  | failed =>
      exact ⟨.backOff nanos :: _, _, by simp,
        Transition.run_cons_eq_some.mpr ⟨_, rfl, run_sleeping _ _ _ _⟩, rfl⟩
  | pump started link => exact h.elim
  | polling started link => exact h.elim
  | returned => exact h.elim

end RelaySupervisor

/-! ### Runs -/

open RelaySupervisor in
/-- **Which runs retry exactly what a retry can fix.**  The agent is started with a target.  In
every state that a run passes through, after a refusal no further attempt is made, after any other
outcome the thread comes back when the delay is over, and it is attached exactly while it serves a
link: if and only if no attempt fails, while the agent is running, because the url is rejected or
the upgrade is answered with 401. -/
theorem relay_retries_iff {parsesUri : List Char → Bool} {target : RelayTarget} {now : ℕ}
    {moves : List RelayMove} {s : RelaySupervisor × RelayHistory}
    (hrun : Transition.run
      (Transition.tracked (step parsesUri target) (noteOutcome parsesUri target))
      (initial now, ⟨none, none⟩) moves = some s) :
    ((∀ done, done <+: moves → ∀ t,
      Transition.run (Transition.tracked (step parsesUri target) (noteOutcome parsesUri target))
        (initial now, ⟨none, none⟩) done = some t → Retries t) ↔
      Transition.Meets (Transition.tracked (step parsesUri target) (noteOutcome parsesUri target))
        (fun s move => ¬s.1.RetriesRefused parsesUri target move) (initial now, ⟨none, none⟩)
        moves) ∧
    (Retries s → s.1.running = true → ∀ outcome, s.2.last = some outcome → ¬outcome.Refused →
      ∀ nanos, ∃ rest t, (∀ move ∈ rest, move = .check ∨ move = .backOff nanos ∨
        ∃ time, move = .elapse time) ∧
        Transition.run (step parsesUri target) s.1 rest = some t ∧ t.phase = .attaching) := by
  constructor
  · exact Transition.forall_states_iff_meets (fun _ _ _ _ _ => trivial)
      (fun _ _ _ _ hs h => retries_step_iff hs h) trivial (retries_initial now) hrun
  · intro hretries hrunning outcome hlast hspared nanos
    exact exists_attaching hrunning (hretries.retried hrunning outcome hlast hspared) nanos

/-- A relay on the local network. -/
def toyTarget : RelayTarget := ⟨"http://relay", "acct.secret"⟩

/-- An agent that was revoked while it was offline attaches, and a minute later again. -/
def attachRevoked : List RelayMove :=
  [.check, .attach (.http 401), .backOff 0, .elapse 60000000000, .check, .check]

/-- It is about to make another attempt. -/
theorem relay_retries_revoked : ∃ s history,
    Transition.run (Transition.tracked (RelaySupervisor.step (fun _ => true) toyTarget)
      (RelaySupervisor.noteOutcome (fun _ => true) toyTarget)) (.initial 0, ⟨none, none⟩)
        attachRevoked = some (s, history) ∧
      s.running = true ∧ history.last = some (.notAttached (.http 401)) ∧ s.phase = .attaching ∧
      ¬RelaySupervisor.Retries (s, history) := by
  have hrun : ((Transition.run (Transition.tracked (RelaySupervisor.step (fun _ => true) toyTarget)
      (RelaySupervisor.noteOutcome (fun _ => true) toyTarget)) (.initial 0, ⟨none, none⟩)
        attachRevoked).any fun s => decide (s.1.running = true ∧
          s.2.last = some (.notAttached (.http 401)) ∧ s.1.phase = .attaching)) = true := by
    decide +kernel
  obtain ⟨⟨s, history⟩, hs, hstate⟩ := (Option.any_eq_true _ _).mp hrun
  obtain ⟨hrunning, hlast, hphase⟩ := of_decide_eq_true hstate
  refine ⟨s, history, hs, hrunning, hlast, hphase, fun hretries => ?_⟩
  have hreturned := hretries.refused hrunning _ hlast rfl
  cases hphase.symm.trans hreturned

/-- A connection fails and is tried again; the relay then revokes the device, and that is all. -/
def revokedOnline : List RelayMove :=
  [.check, .attach (.failed "refused"), .backOff 0, .elapse 60000000000, .check, .check,
    .attach (.connected (.ok ())), .check, .poll none (.close (some (4001, "revoked")))]

theorem relay_retries_iff_online : ∃ s,
    Transition.run (Transition.tracked (RelaySupervisor.step (fun _ => true) toyTarget)
      (RelaySupervisor.noteOutcome (fun _ => true) toyTarget)) (.initial 0, ⟨none, none⟩)
        revokedOnline = some s ∧ RelaySupervisor.Retries s := by
  have hrun : (Transition.run (Transition.tracked (RelaySupervisor.step (fun _ => true) toyTarget)
      (RelaySupervisor.noteOutcome (fun _ => true) toyTarget)) (.initial 0, ⟨none, none⟩)
        revokedOnline).isSome = true := by
    decide +kernel
  obtain ⟨s, hs⟩ := Option.isSome_iff_exists.mp hrun
  exact ⟨s, hs, (relay_retries_iff hs).1.mpr (by decide +kernel) _ List.prefix_rfl _ hs⟩

end Osprey
