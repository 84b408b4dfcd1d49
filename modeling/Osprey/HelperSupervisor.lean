/-
**The helper in the session of whoever is signed in.**

`helper/supervisor.rs` and `helper/spawn.rs`: a service starts a helper in the console session,
looks four times a second whether it is still there and whether the console is, and starts another
where there should be one.  Three atomics say what it holds.  The branches that let go of a helper
store them anew; that of a poll that fails, and the end of the loop, leave the session.

A step goes from one call of the system to the next.  Around the thread the console moves, users
sign out, helpers exit, time passes and the service is stopped.  A process of a session ends when
its user signs out, and lives on when the console goes to another session.

Main definitions:

* `Osprey.HelperSupervisor` — the processes, the console, the locals of `supervise` and the status;
* `Osprey.HelperSupervisor.look`, `.poll`, `.start` — one iteration, cut at its calls;
* `Osprey.HelperMove`, `Osprey.HelperSupervisor.step` — what can happen;
* `Osprey.HelperSupervisor.Reports` — the status says what is held;
* `Osprey.HelperSupervisor.Misreports` — an iteration whose poll failed ends without a new helper,
  or the loop ends with one.

Main results:

* `Osprey.HelperSupervisor.truthful_step_iff` — which steps keep the status true;
* `Osprey.helper_status_iff` — **exactly which runs have a true status after every iteration and
  after the loop**.
-/

import Osprey.Transition

set_option relaxedAutoImplicit false
set_option autoImplicit false

namespace Osprey

/-! ### The model -/

/-- A helper that has been started: its session, and whether it is alive. -/
structure HelperProcess where
  session : UInt32
  alive : Bool
  deriving DecidableEq, Repr

/-- An owned handle to a child process, which is known by its place in the table. -/
structure ProcessHandle where
  process : ℕ
  session : UInt32
  deriving DecidableEq, Repr

/-- Live view of the helper. -/
structure HelperStatus where
  running : Bool
  starts : UInt64
  session : UInt32
  deriving DecidableEq, Repr

/-- Where the thread is; `looked` and `polled` carry the session that this iteration saw. -/
inductive HelperPhase
  | head
  | looked (session : Option UInt32)
  | polled (session : Option UInt32)
  | returned
  deriving DecidableEq, Repr

/-- The session that the iteration has seen. -/
def HelperPhase.session : HelperPhase → Option UInt32
  | .looked session | .polled session => session
  | .head | .returned => none

/-- The processes, the console session, the service and the clock; the locals of `supervise`; and
the status.  Times are in nanoseconds. -/
structure HelperSupervisor where
  processes : List HelperProcess
  console : Option UInt32
  running : Bool
  now : ℕ
  child : Option ProcessHandle
  delay : ℕ
  startedAt : Option ℕ
  retryAt : Option ℕ
  phase : HelperPhase
  status : HelperStatus
  deriving DecidableEq, Repr

namespace HelperSupervisor

/-- Delay before the first respawn: 250 ms. -/
def RESPAWN_BASE_DELAY : ℕ := 250 * 10 ^ 6

/-- Ceiling on the respawn delay: 30 s. -/
def RESPAWN_MAX_DELAY : ℕ := 30 * 10 ^ 9

/-- How long a helper must survive before it counts as healthy: 20 s. -/
def HEALTHY_AFTER : ℕ := 20 * 10 ^ 9

/-- `supervise`, when the service has just been started. -/
def initial (console : Option UInt32) (now : ℕ) : HelperSupervisor where
  processes := []
  console := console
  running := true
  now := now
  child := none
  delay := RESPAWN_BASE_DELAY
  startedAt := none
  retryAt := none
  phase := .head
  status := ⟨false, 0, 0⟩

/-- Has the session gone, or changed underneath the helper? -/
def follow (s : HelperSupervisor) (session : Option UInt32) : HelperSupervisor :=
  match s.child with
  | some live =>
      if session = some live.session then s
      else
        { s with
          child := none
          startedAt := none
          status := ⟨false, s.status.starts, 0⟩
          -- a session change is not a crash, so the next start is prompt
          delay := RESPAWN_BASE_DELAY
          retryAt := none }
  | none => s

/-- From the head of the loop to the poll, or out of it. -/
def look (s : HelperSupervisor) : HelperSupervisor :=
  if s.running then { s.follow s.console with phase := .looked s.console }
  else
    { s with
      child := none
      status := { s.status with running := false }
      phase := .returned }

/-- The process is there. -/
def isAlive (s : HelperSupervisor) (process : ℕ) : Bool :=
  match s.processes[process]? with
  | some process => process.alive
  | none => false

/-- Has it exited?  The poll itself may fail. -/
def poll (s : HelperSupervisor) (failed : Bool) : HelperSupervisor :=
  match s.child with
  | none => s
  | some live =>
      if failed then
        { s with
          child := none
          startedAt := none
          status := { s.status with running := false }
          retryAt := some (s.now + s.delay) }
      else if s.isAlive live.process then s
      else
        let lasted := (s.startedAt.map (s.now - ·)).getD 0
        let delay :=
          if HEALTHY_AFTER ≤ lasted then RESPAWN_BASE_DELAY else min (s.delay * 2) RESPAWN_MAX_DELAY
        { s with
          child := none
          startedAt := none
          status := ⟨false, s.status.starts, 0⟩
          delay := delay
          retryAt := some (s.now + delay) }

/-- The time for the next start has come. -/
def due (s : HelperSupervisor) : Bool :=
  match s.retryAt with
  | none => true
  | some time => time ≤ s.now

/-- `spawn_into_active_session`: the session of the new helper.  It asks for the console session
anew, and any call after that may be refused. -/
def spawnIntoActiveSession (s : HelperSupervisor) (refused : Bool) : Option UInt32 :=
  if refused then none else s.console

/-- Start one if there should be one and there is not. -/
def start (s : HelperSupervisor) (session : Option UInt32) (refused : Bool) : HelperSupervisor :=
  if s.child.isNone && session.isSome && s.due then
    match s.spawnIntoActiveSession refused with
    | some session =>
        { s with
          processes := s.processes ++ [⟨session, true⟩]
          child := some ⟨s.processes.length, session⟩
          startedAt := some s.now
          retryAt := none
          status := ⟨true, s.status.starts + 1, session⟩ }
    | none =>
        let delay := min (s.delay * 2) RESPAWN_MAX_DELAY
        { s with
          delay := delay
          retryAt := some (s.now + delay) }
  else s

end HelperSupervisor

/-- What can happen next. -/
inductive HelperMove
  | elapse (time : ℕ)
  | stop
  /-- The console goes to another session, or to none. -/
  | switch (console : Option UInt32)
  | signOut (session : UInt32)
  /-- A helper exits or is killed. -/
  | exit (process : ℕ)
  | look
  | poll (failed : Bool)
  | start (refused : Bool)
  deriving DecidableEq, Repr

namespace HelperSupervisor

/-- The processes of a session end with it. -/
def signOut (s : HelperSupervisor) (session : UInt32) : HelperSupervisor :=
  { s with
    processes := s.processes.map fun process =>
      if process.session = session then { process with alive := false } else process }

def exit (s : HelperSupervisor) (process : ℕ) : HelperSupervisor :=
  { s with processes := s.processes.modify process fun process => { process with alive := false } }

/-- One step, of the thread or around it. -/
def step (s : HelperSupervisor) : HelperMove → Option HelperSupervisor
  | .elapse time => some { s with now := s.now + time }
  | .stop => some { s with running := false }
  | .switch console => some { s with console }
  | .signOut session => some (s.signOut session)
  | .exit process => some (s.exit process)
  | .look =>
      match s.phase with
      | .head => some s.look
      | _ => none
  | .poll failed =>
      match s.phase with
      | .looked session => some { s.poll failed with phase := .polled session }
      | _ => none
  | .start refused =>
      match s.phase with
      | .polled session => some { s.start session refused with phase := .head }
      | _ => none

/-! ### The status -/

/-- The status says what the supervisor holds, and how many helpers it has started. -/
structure Reports (s : HelperSupervisor) : Prop where
  running : s.status.running = s.child.isSome
  session : s.status.session = (s.child.map ProcessHandle.session).getD 0
  starts : s.status.starts = UInt64.ofNat s.processes.length

/-- Between two iterations, and after the last one. -/
def Between (s : HelperSupervisor) : Prop := s.phase = .head ∨ s.phase = .returned

instance (s : HelperSupervisor) : Decidable s.Between := inferInstanceAs (Decidable (_ ∨ _))

theorem Between.not_polled {s : HelperSupervisor} (h : s.Between) (session : Option UInt32) :
    s.phase ≠ .polled session := by
  rintro hpolled
  rcases h with hhead | hreturned
  · cases hhead.symm.trans hpolled
  · cases hreturned.symm.trans hpolled

/-- A helper is started. -/
def Starts (s : HelperSupervisor) (refused : Bool) : Prop :=
  s.child = none ∧ s.phase.session.isSome ∧ s.due = true ∧ refused = false ∧ s.console.isSome

instance (s : HelperSupervisor) (refused : Bool) : Decidable (s.Starts refused) :=
  inferInstanceAs (Decidable (_ ∧ _))

/-- The session of the helper that the last poll has lost, by failing. -/
def noteLost (s : HelperSupervisor) (move : HelperMove) (lost : Option UInt32) : Option UInt32 :=
  match move with
  | .look => none
  | .poll failed => if failed then s.child.map ProcessHandle.session else none
  | _ => lost

/-- An iteration whose poll has failed ends without a new helper, or the loop ends with a helper
there; unless its session is 0. -/
def Misreports (s : HelperSupervisor × Option UInt32) : HelperMove → Prop
  | .look => s.1.running = false ∧ ∃ live ∈ s.1.child, live.session ≠ 0
  | .start refused => (∃ session ∈ s.2, session ≠ 0) ∧ ¬s.1.Starts refused
  | _ => False

instance (s : HelperSupervisor × Option UInt32) :
    (move : HelperMove) → Decidable (Misreports s move)
  | .look =>
      decidable_of_iff (s.1.running = false ∧ (s.1.child.any fun live => live.session != 0) = true)
        (by simp [Misreports, Option.any_eq_true])
  | .start refused =>
      decidable_of_iff ((s.2.any fun session => session != 0) = true ∧ ¬s.1.Starts refused)
        (by simp [Misreports, Option.any_eq_true])
  | .elapse _ | .stop | .switch _ | .signOut _ | .exit _ | .poll _ => .isFalse not_false

/-! ### One step -/

/-- The two hold the same helper, report the same and have started as many. -/
structure Holds (s t : HelperSupervisor) : Prop where
  child : t.child = s.child
  status : t.status = s.status
  count : t.processes.length = s.processes.length

theorem Reports.holds {s t : HelperSupervisor} (h : s.Reports) (hholds : s.Holds t) :
    t.Reports where
  running := by rw [hholds.status, hholds.child, h.running]
  session := by rw [hholds.status, hholds.child, h.session]
  starts := by rw [hholds.status, hholds.count, h.starts]

/-- The helper that is held is let go of, and the status says so. -/
theorem Reports.letGo {s t : HelperSupervisor} (h : s.Reports) (hchild : t.child = none)
    (hstatus : t.status = ⟨false, s.status.starts, 0⟩)
    (hcount : t.processes.length = s.processes.length) : t.Reports where
  running := by rw [hstatus, hchild]; rfl
  session := by rw [hstatus, hchild]; rfl
  starts := by rw [hstatus, hcount, ← h.starts]

theorem reports_follow {s : HelperSupervisor} (h : s.Reports) (session : Option UInt32) :
    (s.follow session).Reports := by
  unfold follow
  split
  · split
    · exact h
    · exact h.letGo rfl rfl rfl
  · exact h

/-- A poll that does not fail keeps the status true. -/
theorem reports_poll {s : HelperSupervisor} (h : s.Reports) : (s.poll false).Reports := by
  unfold poll
  split
  · exact h
  · rw [if_neg Bool.false_ne_true]
    split
    · exact h
    · exact h.letGo rfl rfl rfl

/-- Where a helper is started, it is in the session that the console has then. -/
theorem start_of_starts {s : HelperSupervisor} {refused : Bool} (h : s.Starts refused)
    {session : Option UInt32} (hphase : s.phase = .polled session) :
    ∃ console, s.console = some console ∧ s.start session refused =
      { s with
        processes := s.processes ++ [⟨console, true⟩]
        child := some ⟨s.processes.length, console⟩
        startedAt := some s.now
        retryAt := none
        status := ⟨true, s.status.starts + 1, console⟩ } := by
  obtain ⟨hchild, hseen, hdue, rfl, hconsole⟩ := h
  obtain ⟨console, hconsole⟩ := Option.isSome_iff_exists.mp hconsole
  rw [hphase] at hseen
  obtain ⟨seen, rfl⟩ := Option.isSome_iff_exists.mp hseen
  exact ⟨console, hconsole, by simp [start, spawnIntoActiveSession, hchild, hdue, hconsole]⟩

/-- Otherwise nothing changes but when the next one is due. -/
theorem start_of_not_starts {s : HelperSupervisor} {refused : Bool} (h : ¬s.Starts refused)
    {session : Option UInt32} (hphase : s.phase = .polled session) :
    (s.start session refused).processes = s.processes ∧
      (s.start session refused).child = s.child ∧ (s.start session refused).status = s.status := by
  unfold start
  split
  · rename_i hready
    simp only [Bool.and_eq_true, Option.isNone_iff_eq_none] at hready
    obtain ⟨⟨hchild, hseen⟩, hdue⟩ := hready
    split
    · rename_i console hspawned
      refine absurd ⟨hchild, by rw [hphase]; exact hseen, hdue, ?_⟩ h
      unfold spawnIntoActiveSession at hspawned
      split at hspawned
      · cases hspawned
      · rename_i hrefused
        exact ⟨Bool.eq_false_iff.mpr hrefused, by rw [hspawned]; rfl⟩
    · exact ⟨rfl, rfl, rfl⟩
  · exact ⟨rfl, rfl, rfl⟩

/-- A new helper is what is held, and what is reported. -/
theorem reports_start {s : HelperSupervisor}
    (hstarts : s.status.starts = UInt64.ofNat s.processes.length)
    {refused : Bool} (h : s.Starts refused) {session : Option UInt32}
    (hphase : s.phase = .polled session) : (s.start session refused).Reports := by
  obtain ⟨console, -, hstart⟩ := start_of_starts h hphase
  rw [hstart]
  refine ⟨rfl, rfl, ?_⟩
  dsimp only
  rw [hstarts, List.length_append, List.length_singleton, UInt64.ofNat_add]
  rfl

theorem holds_start {s : HelperSupervisor} {refused : Bool} (h : ¬s.Starts refused)
    {session : Option UInt32} (hphase : s.phase = .polled session) :
    s.Holds (s.start session refused) := by
  obtain ⟨hprocesses, hchild, hstatus⟩ := start_of_not_starts h hphase
  exact ⟨hchild, hstatus, by rw [hprocesses]⟩

/-- After a poll that failed: nothing is held, and the session of what was lost is still
reported. -/
structure Lost (s : HelperSupervisor) (session : UInt32) : Prop where
  child : s.child = none
  running : s.status.running = false
  session : s.status.session = session
  starts : s.status.starts = UInt64.ofNat s.processes.length

/-- **What holds of the status** where the iteration is. -/
structure Truthful (s : HelperSupervisor × Option UInt32) : Prop where
  reports : (∀ session, s.1.phase = .polled session → s.2 = none) → s.1.Reports
  lost : ∀ session old, s.1.phase = .polled session → s.2 = some old → s.1.Lost old

theorem truthful_of_reports {s : HelperSupervisor} {lost : Option UInt32} (h : s.Reports)
    (hphase : ∀ session, s.phase = .polled session → lost = none) : Truthful (s, lost) where
  reports _ := h
  lost session old hpolled hlost := by cases (hphase session hpolled).symm.trans hlost

/-- What happens around the thread changes nothing of this. -/
theorem Truthful.holds {s t : HelperSupervisor} {lost : Option UInt32} (h : Truthful (s, lost))
    (hholds : s.Holds t) (hphase : t.phase = s.phase) : Truthful (t, lost) where
  reports hnone := (h.reports fun session hpolled =>
    hnone session (hphase.trans hpolled)).holds hholds
  lost session old hpolled hlost := by
    have hlost := h.lost session old (hphase.symm.trans hpolled) hlost
    exact ⟨hholds.child.trans hlost.child, by rw [hholds.status, hlost.running],
      by rw [hholds.status, hlost.session], by rw [hholds.status, hholds.count, hlost.starts]⟩

theorem truthful_initial (console : Option UInt32) (now : ℕ) :
    Truthful (initial console now, none) :=
  truthful_of_reports ⟨rfl, rfl, rfl⟩ fun _ _ => rfl

theorem look_of_step {s t : HelperSupervisor} (h : s.step .look = some t) :
    s.phase = .head ∧ s.look = t := by
  simp only [step] at h
  split at h
  · rename_i hphase
    exact ⟨hphase, Option.some.inj h⟩
  · cases h

theorem poll_of_step {s t : HelperSupervisor} {failed : Bool} (h : s.step (.poll failed) = some t) :
    ∃ session, s.phase = .looked session ∧ { s.poll failed with phase := .polled session } = t := by
  simp only [step] at h
  split at h
  · rename_i session hphase
    exact ⟨session, hphase, Option.some.inj h⟩
  · cases h

theorem start_of_step {s t : HelperSupervisor} {refused : Bool}
    (h : s.step (.start refused) = some t) : ∃ session, s.phase = .polled session ∧
      { s.start session refused with phase := .head } = t := by
  simp only [step] at h
  split at h
  · rename_i session hphase
    exact ⟨session, hphase, Option.some.inj h⟩
  · cases h

/-- At the head nothing is lost, and the loop goes on or ends. -/
theorem truthful_look_iff {s t : HelperSupervisor} {lost : Option UInt32}
    (hs : Truthful (s, lost)) (h : s.step .look = some t) :
    Truthful (t, noteLost s .look lost) ↔ ¬Misreports (s, lost) .look := by
  obtain ⟨hphase, rfl⟩ := look_of_step h
  have hreports : s.Reports := hs.reports fun session hpolled => by
    cases hphase.symm.trans hpolled
  unfold look
  cases hrunning : s.running with
  | true =>
      refine iff_of_true ?_ fun hmis => absurd (hrunning.symm.trans hmis.1) (by decide)
      rw [if_pos rfl]
      refine truthful_of_reports ?_ fun _ hpolled => nomatch hpolled
      exact (reports_follow hreports s.console).holds ⟨rfl, rfl, rfl⟩
  | false =>
      -- the loop ends, and the session stays
      rw [if_neg Bool.false_ne_true]
      constructor
      · rintro htruthful ⟨-, live, hlive, hne⟩
        have hsession := (htruthful.reports fun _ hpolled => nomatch hpolled).session
        have hheld := hreports.session
        rw [Option.mem_def.mp hlive] at hheld
        exact hne (hheld.symm.trans hsession)
      · intro hspares
        refine truthful_of_reports ⟨rfl, ?_, hreports.starts⟩ fun _ hpolled => nomatch hpolled
        refine hreports.session.trans ?_
        cases hchild : s.child with
        | none => rfl
        | some live =>
            by_contra hne
            exact hspares ⟨hrunning, live, hchild, hne⟩

/-- A poll keeps the status true, or what it lets go of is noted. -/
theorem truthful_poll {s t : HelperSupervisor} {lost : Option UInt32} {failed : Bool}
    (hs : Truthful (s, lost)) (h : s.step (.poll failed) = some t) :
    Truthful (t, noteLost s (.poll failed) lost) := by
  obtain ⟨session, hphase, rfl⟩ := poll_of_step h
  have hreports : s.Reports := hs.reports fun session hpolled => by
    cases hphase.symm.trans hpolled
  cases failed with
  | false =>
      exact truthful_of_reports ((reports_poll hreports).holds ⟨rfl, rfl, rfl⟩) fun _ _ => rfl
  | true =>
      unfold poll noteLost
      cases hchild : s.child with
      | none => exact truthful_of_reports (hreports.holds ⟨rfl, rfl, rfl⟩) fun _ _ => rfl
      | some live =>
          refine ⟨fun hnone => (nomatch hnone session rfl), fun session old _ hlost => ?_⟩
          cases hlost
          have hheld := hreports.session
          rw [hchild] at hheld
          exact ⟨rfl, rfl, hheld, hreports.starts⟩

/-- An iteration ends: what was lost is reported until another helper is started. -/
theorem truthful_start_iff {s t : HelperSupervisor} {lost : Option UInt32} {refused : Bool}
    (hs : Truthful (s, lost)) (h : s.step (.start refused) = some t) :
    Truthful (t, noteLost s (.start refused) lost) ↔ ¬Misreports (s, lost) (.start refused) := by
  obtain ⟨session, hphase, rfl⟩ := start_of_step h
  cases lost with
  | none =>
      refine iff_of_true (truthful_of_reports ?_ fun _ hpolled => nomatch hpolled) (by
        simp [Misreports])
      have hreports : s.Reports := hs.reports fun _ _ => rfl
      by_cases hstarts : s.Starts refused
      · exact (reports_start hreports.starts hstarts hphase).holds ⟨rfl, rfl, rfl⟩
      · exact (hreports.holds (holds_start hstarts hphase)).holds ⟨rfl, rfl, rfl⟩
  | some old =>
      have hlost := hs.lost session old hphase rfl
      by_cases hstarts : s.Starts refused
      · refine iff_of_true (truthful_of_reports ?_ fun _ hpolled => nomatch hpolled)
          fun hmis => hmis.2 hstarts
        exact (reports_start hlost.starts hstarts hphase).holds ⟨rfl, rfl, rfl⟩
      · -- the session that was lost is still reported
        have hholds := holds_start hstarts hphase
        constructor
        · rintro htruthful ⟨⟨old', hold, hne⟩, -⟩
          cases hold
          have hsession := (htruthful.reports fun _ hpolled => nomatch hpolled).session
          dsimp only at hsession
          rw [hholds.status, hholds.child, hlost.session, hlost.child] at hsession
          exact hne hsession
        · intro hspares
          have hzero : old = 0 := by
            by_contra hne
            exact hspares ⟨⟨old, rfl, hne⟩, hstarts⟩
          have hreports : s.Reports :=
            ⟨by rw [hlost.running, hlost.child]; rfl,
              by rw [hlost.session, hlost.child, hzero]; rfl, hlost.starts⟩
          refine truthful_of_reports ?_ fun _ hpolled => nomatch hpolled
          exact (hreports.holds hholds).holds ⟨rfl, rfl, rfl⟩

/-- **When a step keeps the status true.** -/
theorem truthful_step_iff {s t : HelperSupervisor × Option UInt32} {move : HelperMove}
    (hs : Truthful s) (h : Transition.tracked step noteLost s move = some t) :
    Truthful t ↔ ¬Misreports s move := by
  obtain ⟨s, lost⟩ := s
  obtain ⟨t, lost'⟩ := t
  obtain ⟨hstep, hnote⟩ := Transition.tracked_eq_some.mp h
  dsimp only at hstep hnote
  subst hnote
  cases move with
  | elapse time =>
      cases hstep
      exact iff_of_true (hs.holds ⟨rfl, rfl, rfl⟩ rfl) not_false
  | stop =>
      cases hstep
      exact iff_of_true (hs.holds ⟨rfl, rfl, rfl⟩ rfl) not_false
  | switch console =>
      cases hstep
      exact iff_of_true (hs.holds ⟨rfl, rfl, rfl⟩ rfl) not_false
  | signOut session =>
      cases hstep
      exact iff_of_true (hs.holds ⟨rfl, rfl, List.length_map _⟩ rfl) not_false
  | exit process =>
      cases hstep
      exact iff_of_true (hs.holds ⟨rfl, rfl, List.length_modify _ _ _⟩ rfl) not_false
  | look => exact truthful_look_iff hs hstep
  | poll failed => exact iff_of_true (truthful_poll hs hstep) not_false
  | start refused => exact truthful_start_iff hs hstep

/-- Only where an iteration or the loop ends can the status be found wrong. -/
theorem not_misreports_of_not_between {s t : HelperSupervisor} {lost : Option UInt32}
    {move : HelperMove} (hstep : s.step move = some t) (hbetween : ¬t.Between) :
    ¬Misreports (s, lost) move := by
  intro hmis
  cases move with
  | look =>
      obtain ⟨-, rfl⟩ := look_of_step hstep
      refine hbetween (.inr ?_)
      rw [look, hmis.1]
      rfl
  | start refused =>
      obtain ⟨session, -, rfl⟩ := start_of_step hstep
      exact hbetween (.inl rfl)
  | elapse | stop | switch | signOut | exit | poll => exact hmis

end HelperSupervisor

/-! ### Runs -/

open HelperSupervisor in
/-- **Exactly which runs have a true status.**  After every iteration of the loop, and after the
loop, the status says whether a helper is held, its session or 0, and how many have been started: if
and only if no iteration that lost a helper to a poll that failed ends without a new one, and no
helper is held when the loop ends; those in session 0 apart. -/
theorem helper_status_iff {console : Option UInt32} {now : ℕ} {moves : List HelperMove}
    {s : HelperSupervisor × Option UInt32}
    (hrun : Transition.run (Transition.tracked step noteLost) (initial console now, none) moves
      = some s) :
    (∀ done, done <+: moves → ∀ t,
      Transition.run (Transition.tracked step noteLost) (initial console now, none) done = some t →
        t.1.Between → t.1.Reports) ↔
      Transition.Meets (Transition.tracked step noteLost) (fun s move => ¬Misreports s move)
        (initial console now, none) moves := by
  have hends : ∀ s, Truthful s → s.1.Between → s.1.Reports := fun s hs hbetween =>
    hs.reports fun session hpolled => absurd hpolled (hbetween.not_polled session)
  refine Transition.forall_states_iff_meets_at hends ?_
    (fun s move t hs h => truthful_step_iff hs h) (truthful_initial console now) hrun
  intro s move t hs hstep hreports
  by_cases hbetween : t.1.Between
  · exact truthful_of_reports (hreports hbetween) fun session hpolled =>
      absurd hpolled (hbetween.not_polled session)
  · refine (truthful_step_iff hs hstep).mpr ?_
    exact not_misreports_of_not_between (Transition.tracked_eq_some.mp hstep).1 hbetween

/-- One iteration in which nothing fails. -/
def iteration : List HelperMove := [.look, .poll false, .start false]

/-- A poll fails, and the session of the helper that was let go of is reported without it; the loop
ends, and the session of the helper that is left to itself is. -/
theorem helper_status_stale :
    (∃ s lost, Transition.run (Transition.tracked HelperSupervisor.step HelperSupervisor.noteLost)
      (.initial (some 1) 0, none) (iteration ++ [.look, .poll true, .start false])
        = some (s, lost) ∧
      s.phase = .head ∧ s.child = none ∧ s.status = ⟨false, 1, 1⟩ ∧ ¬s.Reports) ∧
    ∃ s lost, Transition.run (Transition.tracked HelperSupervisor.step HelperSupervisor.noteLost)
      (.initial (some 1) 0, none) (iteration ++ [.stop, .look]) = some (s, lost) ∧
      s.phase = .returned ∧ s.child = none ∧ s.status = ⟨false, 1, 1⟩ ∧ ¬s.Reports :=
  ⟨⟨_, _, rfl, rfl, rfl, rfl, fun hreports => absurd hreports.session (by decide)⟩,
    ⟨_, _, rfl, rfl, rfl, rfl, fun hreports => absurd hreports.session (by decide)⟩⟩

/-- The helper is killed, and another one started. -/
def respawned : List HelperMove :=
  iteration ++ [.exit 0] ++ iteration ++ [.elapse 500000000] ++ iteration

theorem helper_status_iff_respawned : ∃ s,
    Transition.run (Transition.tracked HelperSupervisor.step HelperSupervisor.noteLost)
      (.initial (some 1) 0, none) respawned = some s ∧ s.1.Between ∧ s.1.Reports := by
  have hmeets : Transition.Meets
      (Transition.tracked HelperSupervisor.step HelperSupervisor.noteLost)
      (fun s move => ¬HelperSupervisor.Misreports s move) (.initial (some 1) 0, none)
      respawned := by
    decide +kernel
  exact ⟨_, rfl, .inl rfl,
    (helper_status_iff rfl).mpr hmeets _ List.prefix_rfl _ rfl (.inl rfl)⟩

end Osprey
