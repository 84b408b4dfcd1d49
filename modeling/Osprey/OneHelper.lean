/-
**How many helpers there are in a session.**

The supervisor of `helper/supervisor.rs` lets go of its helper when the console has gone elsewhere,
and when it cannot poll it.  It ends neither: the helper of a user who is switched away lives on,
and so does one that could not be polled.  When the console comes back, or at once in the second
case, a second helper is started beside it.

Main definitions:

* `Osprey.HelperSupervisor.AtMostOne` — no two live helpers have one session;
* `Osprey.HelperSupervisor.noteLetGo` — the helpers that have been let go of;
* `Osprey.HelperSupervisor.Doubles` — a helper is started where one of these is alive.

Main results:

* `Osprey.HelperSupervisor.Accounted.step` — whoever is alive is held, or has been let go of;
* `Osprey.one_helper_iff` — **exactly which runs never have two helpers in a session**.
-/

import Osprey.HelperSupervisor

set_option relaxedAutoImplicit false
set_option autoImplicit false

namespace Osprey

namespace HelperSupervisor

/-- No two live helpers have one session. -/
def AtMostOne (processes : List HelperProcess) : Prop :=
  ∀ (i j : ℕ) (p q : HelperProcess), processes[i]? = some p → processes[j]? = some q →
    p.alive = true → q.alive = true → p.session = q.session → i = j

/-- The helpers that have been let go of: at a look that found the console elsewhere or the service
stopped, or by a poll that failed. -/
def noteLetGo (s : HelperSupervisor) : HelperMove → List ℕ → List ℕ
  | .look, letGo =>
      match s.child with
      | some live =>
          if s.running = true ∧ s.console = some live.session then letGo
          else live.process :: letGo
      | none => letGo
  | .poll failed, letGo =>
      match s.child with
      | some live => if failed then live.process :: letGo else letGo
      | none => letGo
  | _, letGo => letGo

/-- A helper is started in a session where one that was let go of is alive. -/
def Doubles (s : HelperSupervisor × List ℕ) : HelperMove → Prop
  | .start refused => s.1.Starts refused ∧ ∃ i ∈ s.2, s.1.isAlive i = true ∧
      (s.1.processes[i]?).map HelperProcess.session = s.1.console
  | _ => False

instance (s : HelperSupervisor × List ℕ) : (move : HelperMove) → Decidable (Doubles s move)
  | .start _ => inferInstanceAs (Decidable (_ ∧ _))
  | .elapse _ | .stop | .switch _ | .signOut _ | .exit _ | .look | .poll _ => .isFalse not_false

/-- **Whoever is alive is held, or has been let go of.** -/
def Accounted (s : HelperSupervisor × List ℕ) : Prop :=
  ∀ (i : ℕ) (p : HelperProcess), s.1.processes[i]? = some p → p.alive = true →
    (∃ live ∈ s.1.child, live.process = i) ∨ i ∈ s.2

theorem isAlive_of_getElem? {s : HelperSupervisor} {i : ℕ} {p : HelperProcess}
    (h : s.processes[i]? = some p) : s.isAlive i = p.alive := by
  rw [isAlive, h]

/-! ### Processes that end -/

/-- Where processes only end, those of the new table that are alive were so in the old one. -/
def Ends (before after : List HelperProcess) : Prop :=
  ∀ (i : ℕ) (p : HelperProcess), after[i]? = some p → p.alive = true →
    before[i]? = some p

theorem AtMostOne.ends {before after : List HelperProcess} (h : AtMostOne before)
    (hends : Ends before after) : AtMostOne after := by
  intro i j p q hp hq halive halive' hsession
  exact h i j p q (hends i p hp halive) (hends j q hq halive') halive halive' hsession

/-- A helper joins where nobody else is alive. -/
theorem AtMostOne.concat {processes : List HelperProcess} {new : HelperProcess}
    (h : AtMostOne processes) (halone : ∀ (i : ℕ) (p : HelperProcess), processes[i]? = some p →
      p.alive = true → p.session ≠ new.session) : AtMostOne (processes ++ [new]) := by
  have hcases : ∀ (i : ℕ) (p : HelperProcess), (processes ++ [new])[i]? = some p →
      processes[i]? = some p ∨ i = processes.length ∧ p = new := by
    intro i p hp
    rw [List.getElem?_append] at hp
    split at hp
    · exact .inl hp
    · obtain ⟨hlt, -⟩ := List.getElem?_eq_some_iff.mp hp
      rw [List.length_singleton] at hlt
      exact .inr ⟨by omega, List.mem_singleton.mp (List.mem_of_getElem? hp)⟩
  intro i j p q hp hq halive halive' hsession
  rcases hcases i p hp with hold | ⟨hi, rfl⟩
  · rcases hcases j q hq with hold' | ⟨-, rfl⟩
    · exact h i j p q hold hold' halive halive' hsession
    · exact absurd hsession (halone i p hold halive)
  · rcases hcases j q hq with hold' | ⟨hj, -⟩
    · exact absurd hsession.symm (halone j q hold' halive')
    · exact hi.trans hj.symm

theorem ends_signOut (s : HelperSupervisor) (session : UInt32) :
    Ends s.processes (s.signOut session).processes := by
  intro i p hp halive
  rw [signOut, List.getElem?_map] at hp
  obtain ⟨q, hq, rfl⟩ := Option.map_eq_some_iff.mp hp
  split at halive
  · cases halive
  · rename_i hsession
    rw [if_neg hsession]
    exact hq

theorem ends_exit (s : HelperSupervisor) (process : ℕ) :
    Ends s.processes (s.exit process).processes := by
  intro i p hp halive
  rcases Transition.getElem?_modify_cases hp with ⟨-, hold⟩ | ⟨-, before, -, rfl⟩
  · exact hold
  · cases halive

theorem processes_follow (s : HelperSupervisor) (session : Option UInt32) :
    (s.follow session).processes = s.processes := by
  unfold follow
  split
  · split <;> rfl
  · rfl

theorem processes_look (s : HelperSupervisor) : s.look.processes = s.processes := by
  unfold look
  split
  · exact s.processes_follow _
  · rfl

theorem processes_poll (s : HelperSupervisor) (failed : Bool) :
    (s.poll failed).processes = s.processes := by
  unfold poll
  split
  · rfl
  · split
    · rfl
    · split <;> rfl

/-! ### One step -/

theorem accounted_initial (console : Option UInt32) (now : ℕ) :
    Accounted (initial console now, []) := by
  intro i p hp
  cases hp

/-- What happens around the thread. -/
theorem Accounted.around {s t : HelperSupervisor} {letGo : List ℕ} (h : Accounted (s, letGo))
    (hchild : t.child = s.child) (hends : Ends s.processes t.processes) : Accounted (t, letGo) := by
  intro i p hp halive
  dsimp only
  rw [hchild]
  exact h i p (hends i p hp halive) halive

theorem ends_refl (processes : List HelperProcess) : Ends processes processes :=
  fun _ _ hp _ => hp

/-- The helper that is held is let go of. -/
theorem Accounted.release {s t : HelperSupervisor} {letGo letGo' : List ℕ}
    (h : Accounted (s, letGo)) (hprocesses : t.processes = s.processes)
    (hheld : ∀ live ∈ s.child, s.isAlive live.process = true → live.process ∈ letGo')
    (hkept : ∀ i ∈ letGo, i ∈ letGo') : Accounted (t, letGo') := by
  intro i p hp halive
  rw [hprocesses] at hp
  refine .inr ?_
  rcases h i p hp halive with ⟨live, hlive, rfl⟩ | hmem
  · exact hheld live hlive ((isAlive_of_getElem? hp).trans halive)
  · exact hkept i hmem

theorem Accounted.look {s : HelperSupervisor} {letGo : List ℕ} (h : Accounted (s, letGo)) :
    Accounted (s.look, noteLetGo s .look letGo) := by
  cases hchild : s.child with
  | none =>
      have hkept : noteLetGo s .look letGo = letGo := by simp only [noteLetGo, hchild]
      rw [hkept]
      refine h.release s.processes_look (fun live hlive => ?_) fun _ hi => hi
      rw [hchild] at hlive
      cases hlive
  | some live =>
      by_cases hfollowed : s.running = true ∧ s.console = some live.session
      · -- the console is where the helper is
        have hkept : noteLetGo s .look letGo = letGo := by
          simp only [noteLetGo, hchild, if_pos hfollowed]
        rw [hkept]
        refine h.around ?_ (by rw [processes_look]; exact ends_refl _)
        simp only [HelperSupervisor.look, hfollowed.1, if_true, follow, hchild, hfollowed.2]
      · have hadded : noteLetGo s .look letGo = live.process :: letGo := by
          simp only [noteLetGo, hchild, if_neg hfollowed]
        rw [hadded]
        refine h.release s.processes_look (fun held hheld _ => ?_)
          fun _ hi => List.mem_cons_of_mem _ hi
        cases hchild.symm.trans hheld
        exact List.mem_cons_self

theorem Accounted.poll {s : HelperSupervisor} {letGo : List ℕ} (h : Accounted (s, letGo))
    (failed : Bool) : Accounted (s.poll failed, noteLetGo s (.poll failed) letGo) := by
  cases hchild : s.child with
  | none =>
      have hsame : s.poll failed = s := by simp only [HelperSupervisor.poll, hchild]
      have hkept : noteLetGo s (.poll failed) letGo = letGo := by simp only [noteLetGo, hchild]
      rw [hsame, hkept]
      exact h
  | some live =>
      cases failed with
      | true =>
          have hadded : noteLetGo s (.poll true) letGo = live.process :: letGo := by
            simp only [noteLetGo, hchild, if_true]
          rw [hadded]
          refine h.release (s.processes_poll true) (fun held hheld _ => ?_)
            fun _ hi => List.mem_cons_of_mem _ hi
          cases hchild.symm.trans hheld
          exact List.mem_cons_self
      | false =>
          have hkept : noteLetGo s (.poll false) letGo = letGo := by
            simp only [noteLetGo, hchild, if_neg Bool.false_ne_true]
          rw [hkept]
          cases halive : s.isAlive live.process with
          | true =>
              have hsame : s.poll false = s := by
                simp only [HelperSupervisor.poll, hchild, halive, if_neg Bool.false_ne_true,
                  if_true]
              rw [hsame]
              exact h
          | false =>
              -- it has exited
              refine h.release (s.processes_poll false) (fun held hheld hthere => ?_) fun _ hi => hi
              cases hchild.symm.trans hheld
              cases halive.symm.trans hthere

theorem Accounted.start {s : HelperSupervisor} {letGo : List ℕ} (h : Accounted (s, letGo))
    {session : Option UInt32} (hphase : s.phase = .polled session) (refused : Bool) :
    Accounted (s.start session refused, letGo) := by
  by_cases hstarts : s.Starts refused
  · obtain ⟨console, -, hstart⟩ := start_of_starts hstarts hphase
    rw [hstart]
    intro i p hp halive
    dsimp only at hp ⊢
    rw [List.getElem?_append] at hp
    split at hp
    · rcases h i p hp halive with ⟨live, hlive, -⟩ | hmem
      · cases hstarts.1.symm.trans hlive
      · exact .inr hmem
    · rename_i hlength
      obtain ⟨hlt, -⟩ := List.getElem?_eq_some_iff.mp hp
      rw [List.length_singleton] at hlt
      exact .inl ⟨_, rfl, by dsimp only; omega⟩
  · obtain ⟨hprocesses, hchild, -⟩ := start_of_not_starts hstarts hphase
    exact h.around hchild (by rw [hprocesses]; exact ends_refl _)

/-- **Every step keeps the account.** -/
theorem Accounted.step {s t : HelperSupervisor × List ℕ} {move : HelperMove} (hs : Accounted s)
    (h : Transition.tracked step noteLetGo s move = some t) : Accounted t := by
  obtain ⟨s, letGo⟩ := s
  obtain ⟨t, letGo'⟩ := t
  obtain ⟨hstep, hnote⟩ := Transition.tracked_eq_some.mp h
  dsimp only at hstep hnote
  subst hnote
  cases move with
  | elapse time =>
      cases hstep
      exact hs.around rfl (ends_refl _)
  | stop =>
      cases hstep
      exact hs.around rfl (ends_refl _)
  | switch console =>
      cases hstep
      exact hs.around rfl (ends_refl _)
  | signOut session =>
      cases hstep
      exact hs.around rfl (ends_signOut s session)
  | exit process =>
      cases hstep
      exact hs.around rfl (ends_exit s process)
  | look =>
      obtain ⟨-, rfl⟩ := look_of_step hstep
      exact hs.look
  | poll failed =>
      obtain ⟨session, -, rfl⟩ := poll_of_step hstep
      exact (hs.poll failed).around rfl (ends_refl _)
  | start refused =>
      obtain ⟨session, hphase, rfl⟩ := start_of_step hstep
      exact (hs.start hphase refused).around rfl (ends_refl _)

/-- An iteration ends: a helper that is started is alone in its session, or it is not. -/
theorem atMostOne_start_iff {s t : HelperSupervisor} {letGo : List ℕ} {refused : Bool}
    (hs : Accounted (s, letGo)) (hone : AtMostOne s.processes)
    (h : s.step (.start refused) = some t) :
    AtMostOne t.processes ↔ ¬Doubles (s, letGo) (.start refused) := by
  obtain ⟨session, hphase, rfl⟩ := start_of_step h
  dsimp only
  by_cases hstarts : s.Starts refused
  · obtain ⟨console, hconsole, hstart⟩ := start_of_starts hstarts hphase
    rw [hstart]
    dsimp only
    have hnew : (s.processes ++ [(⟨console, true⟩ : HelperProcess)])[s.processes.length]?
        = some ⟨console, true⟩ := by
      rw [List.getElem?_append_right (Nat.le_refl _), Nat.sub_self]
      rfl
    constructor
    · rintro hboth ⟨-, i, hi, halive, hsession⟩
      rw [hconsole] at hsession
      obtain ⟨p, hp, rfl⟩ := Option.map_eq_some_iff.mp hsession
      have hlt := (List.getElem?_eq_some_iff.mp hp).1
      have hold : (s.processes ++ [(⟨p.session, true⟩ : HelperProcess)])[i]? = some p := by
        rw [List.getElem?_append_left hlt, hp]
      have hsame := hboth i s.processes.length p _ hold hnew
        ((isAlive_of_getElem? hp).symm.trans halive) rfl rfl
      dsimp only at hlt
      omega
    · -- nobody else is alive in the session of the console
      intro hspares
      have halone : ∀ (i : ℕ) (p : HelperProcess), s.processes[i]? = some p →
          p.alive = true → p.session ≠ console := by
        rintro i p hp halive rfl
        rcases hs i p hp halive with ⟨live, hlive, -⟩ | hmem
        · cases hstarts.1.symm.trans hlive
        · refine hspares ⟨hstarts, i, hmem, (isAlive_of_getElem? hp).trans halive, ?_⟩
          rw [hp, hconsole]
          rfl
      exact hone.concat halone
  · rw [(start_of_not_starts hstarts hphase).1]
    exact iff_of_true hone fun hdoubles => hstarts hdoubles.1

/-- **When a step leaves at most one helper to a session.** -/
theorem atMostOne_step_iff {s t : HelperSupervisor × List ℕ} {move : HelperMove} (hs : Accounted s)
    (hone : AtMostOne s.1.processes)
    (h : Transition.tracked step noteLetGo s move = some t) :
    AtMostOne t.1.processes ↔ ¬Doubles s move := by
  obtain ⟨s, letGo⟩ := s
  obtain ⟨t, letGo'⟩ := t
  obtain ⟨hstep, -⟩ := Transition.tracked_eq_some.mp h
  dsimp only at hstep hone ⊢
  cases move with
  | elapse time =>
      cases hstep
      exact iff_of_true hone not_false
  | stop =>
      cases hstep
      exact iff_of_true hone not_false
  | switch console =>
      cases hstep
      exact iff_of_true hone not_false
  | signOut session =>
      cases hstep
      exact iff_of_true (hone.ends (ends_signOut s session)) not_false
  | exit process =>
      cases hstep
      exact iff_of_true (hone.ends (ends_exit s process)) not_false
  | look =>
      obtain ⟨-, rfl⟩ := look_of_step hstep
      rw [processes_look]
      exact iff_of_true hone not_false
  | poll failed =>
      obtain ⟨session, -, rfl⟩ := poll_of_step hstep
      dsimp only
      rw [processes_poll]
      exact iff_of_true hone not_false
  | start refused => exact atMostOne_start_iff hs hone hstep

end HelperSupervisor

/-! ### Runs -/

open HelperSupervisor in
/-- **Exactly which runs never have two helpers in a session**: those in which no helper is started
where one that was let go of earlier is alive. -/
theorem one_helper_iff {console : Option UInt32} {now : ℕ} {moves : List HelperMove}
    {s : HelperSupervisor × List ℕ}
    (hrun : Transition.run (Transition.tracked step noteLetGo) (initial console now, []) moves
      = some s) :
    (∀ done, done <+: moves → ∀ t,
      Transition.run (Transition.tracked step noteLetGo) (initial console now, []) done = some t →
        AtMostOne t.1.processes) ↔
      Transition.Meets (Transition.tracked step noteLetGo) (fun s move => ¬Doubles s move)
        (initial console now, []) moves :=
  Transition.forall_states_iff_meets (I := fun s => AtMostOne s.1.processes)
    (fun _ _ _ hs h => Accounted.step hs h) (fun _ _ _ hs hone h => atMostOne_step_iff hs hone h)
    (accounted_initial console now) (fun _ _ _ _ hp => nomatch hp) hrun

/-- Another user is switched to, and the first one back. -/
def switchedBack : List HelperMove :=
  iteration ++ [.switch (some 2)] ++ iteration ++ [.switch (some 1)] ++ iteration

/-- The helper that was started first is still there. -/
theorem two_helpers : ∃ s letGo,
    Transition.run (Transition.tracked HelperSupervisor.step HelperSupervisor.noteLetGo)
      (.initial (some 1) 0, []) switchedBack = some (s, letGo) ∧
      s.processes = [⟨1, true⟩, ⟨2, true⟩, ⟨1, true⟩] ∧
      ¬HelperSupervisor.AtMostOne s.processes :=
  ⟨_, _, rfl, rfl, fun hone => absurd (hone 0 2 _ _ rfl rfl rfl rfl rfl) (by decide)⟩

/-- The first user signs out before the other is switched to, and signs in again. -/
def signedBack : List HelperMove :=
  iteration ++ [.signOut 1, .switch (some 2)] ++ iteration ++ [.switch (some 1)] ++ iteration

theorem one_helper_iff_signedBack : ∃ s,
    Transition.run (Transition.tracked HelperSupervisor.step HelperSupervisor.noteLetGo)
      (.initial (some 1) 0, []) signedBack = some s ∧
        HelperSupervisor.AtMostOne s.1.processes := by
  have hmeets : Transition.Meets
      (Transition.tracked HelperSupervisor.step HelperSupervisor.noteLetGo)
      (fun s move => ¬HelperSupervisor.Doubles s move) (.initial (some 1) 0, []) signedBack := by
    decide +kernel
  exact ⟨_, rfl, (one_helper_iff rfl).mpr hmeets _ List.prefix_rfl _ rfl⟩

end Osprey
