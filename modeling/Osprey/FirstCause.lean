/-
**Why the link is closed.**

`shutdown` stores its cause whether or not there is one already.  The reader that it cancels is
still suspended in `session.receive`; when that comes back, with the error that closing the stream
turned it into, the reader shuts the link down once more, and what was an ordinary close is reported
as a failure.  Otherwise nothing changes the closure, and whoever fails on a closed link throws what
it holds.

Main definitions:

* `Osprey.MuxMove.cause` — what a move shuts the link down with;
* `Osprey.MuxSystem.Overwrites` — another cause reaches a closed link;
* `Osprey.CauseHistory`, `Osprey.MuxSystem.KeepsCause` — the first cause of a run, and what is to
  follow from it.

Main results:

* `Osprey.MuxSystem.closure_of_step`, `Osprey.MuxSystem.failsWith_of_step` — where the closure and
  the errors of calls come from;
* `Osprey.first_cause_iff` — **exactly which runs keep the first cause**.
-/

import Osprey.Exchanges

set_option relaxedAutoImplicit false
set_option autoImplicit false

namespace Osprey

variable {F E : Type}

/-- What the move shuts the link down with. -/
def MuxMove.cause (decoder : JSONDecoder F E) : MuxMove E → Option (AnyError E)
  | .shutdown error => some (error.getD (.mux .closed))
  | .received _ (.error error) _ => some error
  | .received _ (.ok none) _ => some (.mux .hostClosed)
  | .received _ (.ok (some raw)) _ =>
      match OspreyProtocol.decode decoder raw with
      | .error error => some error
      | .ok _ => none
  | _ => none

/-- The call throws the error, or has been told to. -/
def MuxCall.FailsWith (call : MuxCall F E) (error : AnyError E) : Prop :=
  call.phase = .returned (.error error) ∨ .error error ∈ call.resumed

namespace MuxSystem

/-! ### Where errors come from -/

/-- From `s` to `t` the closure stays, and a call fails with what it failed with before, or with an
error of the source. -/
structure Blames (s t : MuxSystem F E) (source : ℕ → AnyError E → Prop) : Prop where
  closure : t.mux.closure = s.mux.closure
  calls : ∀ (i : ℕ) call error, t.calls[i]? = some call → call.FailsWith error →
    (∃ old, s.calls[i]? = some old ∧ old.FailsWith error) ∨ source i error

theorem Agrees.blames {s t : MuxSystem F E} (h : s.Agrees t) (source : ℕ → AnyError E → Prop) :
    s.Blames t source where
  closure := h.closure
  calls i call error hcall hfails := by
      rw [h.calls] at hcall
      exact .inl ⟨call, hcall, hfails⟩

/-- One call changes, and new errors of it have the source. -/
theorem blames_modify {s t : MuxSystem F E} {source : ℕ → AnyError E → Prop} {i : ℕ}
    {f : MuxCall F E → MuxCall F E} (hclosure : t.mux.closure = s.mux.closure)
    (hcalls : t.calls = s.calls.modify i f)
    (hf : ∀ call, s.calls[i]? = some call → ∀ error, (f call).FailsWith error →
      call.FailsWith error ∨ source i error) : s.Blames t source where
  closure := hclosure
  calls j call error hcall hfails := by
      rw [hcalls] at hcall
      rcases Transition.getElem?_modify_cases hcall with ⟨-, hold⟩ | ⟨rfl, before, hbefore, rfl⟩
      · exact .inl ⟨call, hold, hfails⟩
      · rcases hf before hbefore error hfails with hfails | hsource
        · exact .inl ⟨before, hbefore, hfails⟩
        · exact .inr hsource

theorem blames_enter {s t : MuxSystem F E} {source : ℕ → AnyError E → Prop} {i : ℕ}
    {phase : CallPhase F E} (hclosure : t.mux.closure = s.mux.closure) (hcalls : t.calls = s.calls)
    (h : ∀ call, s.calls[i]? = some call → ∀ error, phase = .returned (.error error) →
      call.FailsWith error ∨ source i error) : s.Blames (t.enter i phase) source := by
  refine blames_modify (i := i) (f := fun call => { call with phase }) hclosure ?_ ?_
  · simp only [enter, hcalls]
  · intro call hcall error hfails
    rcases hfails with hphase | hresumed
    · exact h call hcall error hphase
    · exact .inl (.inr hresumed)

theorem blames_resume {s t : MuxSystem F E} {source : ℕ → AnyError E → Prop} {i : ℕ}
    {result : Except (AnyError E) (DecodedEnvelope F)} (hclosure : t.mux.closure = s.mux.closure)
    (hcalls : t.calls = s.calls) (h : ∀ error, result = .error error → source i error) :
    s.Blames (t.resume i result) source := by
  refine blames_modify (i := i) (f := fun call => { call with resumed := call.resumed ++ [result] })
    hclosure ?_ ?_
  · simp only [resume, hcalls]
  · intro call hcall error hfails
    rcases hfails with hphase | hresumed
    · exact .inl (.inl hphase)
    · rcases List.mem_append.mp hresumed with hold | hnew
      · exact .inl (.inr hold)
      · exact .inr (h error (List.mem_singleton.mp hnew).symm)

theorem Blames.trans {s t u : MuxSystem F E} {source : ℕ → AnyError E → Prop}
    (h : s.Blames t source) (h' : t.Blames u source) : s.Blames u source where
  closure := h'.closure.trans h.closure
  calls i call error hcall hfails := by
      rcases h'.calls i call error hcall hfails with ⟨old, hold, hfails⟩ | hsource
      · exact h.calls i old error hold hfails
      · exact .inr hsource

/-- A turn makes a call fail with the closure only. -/
theorem blames_turn {s t : MuxSystem F E} {i : ℕ} (h : s.turn i = some t) :
    s.Blames t fun _ error => s.mux.closure = some error := by
  have hresumed : ∀ (u : MuxSystem F E) (result : Except (AnyError E) (DecodedEnvelope F)),
      u.mux.closure = s.mux.closure → u.calls = s.calls →
      (∀ error, result = .error error → s.mux.closure = some error) →
      s.Blames ((u.resume i result).enter i .waiting) fun _ error => s.mux.closure = some error :=
    fun u result hclosure hcalls hresult =>
      (blames_resume hclosure hcalls hresult).trans (blames_enter rfl rfl (by simp))
  -- a call that finds the link closed throws the closure
  have hthrown : ∀ closure, s.mux.closure = some closure →
      s.Blames (s.enter i (.returned (.error closure)))
        fun _ error => s.mux.closure = some error := by
    intro closure hclosure
    refine blames_enter rfl rfl fun _ _ error herror => .inr ?_
    cases herror
    exact hclosure
  unfold turn at h
  split at h
  · cases h
  · rename_i call hcall
    split at h
    · split at h
      · rename_i closure hclosure
        cases h
        exact hthrown closure hclosure
      · cases h
        exact blames_enter s.agrees_start.closure s.agrees_start.calls (by simp)
    · split at h
      · rename_i closure hclosure
        cases h
        exact hthrown closure hclosure
      · cases h
        exact blames_enter rfl rfl (by simp)
    · split at h
      · cases h
        exact blames_enter rfl rfl (by simp)
      · cases h
        exact blames_enter rfl rfl (by simp)
    · split at h
      · rename_i closure hclosure
        cases h
        exact hresumed s _ rfl rfl fun error herror => by cases herror; exact hclosure
      · split at h
        · cases h
          exact hresumed _ _ rfl rfl (by simp)
        · cases h
          exact blames_enter rfl rfl (by simp)
    · split at h
      · cases h
      · -- what the continuation was resumed with is thrown
        rename_i result rest hfirst
        cases h
        refine blames_enter rfl rfl fun call' hcall' error herror => .inl (.inr ?_)
        cases hcall.symm.trans hcall'
        cases result with
        | ok envelope => cases herror
        | error thrown =>
            cases herror
            rw [hfirst]
            exact List.mem_cons_self
    · cases h

/-- A call whose request cannot be sent throws why. -/
theorem blames_sent {s t : MuxSystem F E} {i : ℕ} {failure : Option (AnyError E)}
    (h : s.sent i failure = some t) : s.Blames t fun j error => j = i ∧ failure = some error := by
  unfold sent at h
  split at h
  · cases h
  · split at h
    · cases h
      exact blames_enter rfl rfl fun _ _ error herror => .inr (by cases herror; exact ⟨rfl, rfl⟩)
    · cases h
      exact blames_enter rfl rfl (by simp)
    · cases h
      exact blames_enter rfl rfl (by simp)
    · cases h

/-- What arrives makes no call fail. -/
theorem blames_dispatch {s t : MuxSystem F E} {envelope : DecodedEnvelope F} {first : Uuid}
    (h : s.dispatch envelope first = some t) : s.Blames t fun _ _ => False := by
  unfold dispatch at h
  split at h
  · cases h
    exact (s.agrees_yieldTick _).blames _
  · split at h
    · cases h
      exact blames_resume rfl rfl (by simp)
    · have hsame : ∀ u : MuxSystem F E, u.mux.closure = s.mux.closure → u.calls = s.calls →
          s.Blames (u.park envelope) fun _ _ => False :=
        fun u hclosure hcalls => ⟨hclosure, fun i call error hcall hfails =>
          .inl ⟨call, by rw [← hcalls]; exact hcall, hfails⟩⟩
      split at h
      · split at h
        · cases h
          exact hsame _ rfl rfl
        · cases h
      · cases h
        exact hsame s rfl rfl

theorem failsWith_resumeAll {result : Except (AnyError E) (DecodedEnvelope F)} (is : List ℕ)
    {calls : List (MuxCall F E)} {i : ℕ} {call : MuxCall F E} {error : AnyError E}
    (hcall : (resumeAll calls is result)[i]? = some call) (hfails : call.FailsWith error) :
    (∃ old, calls[i]? = some old ∧ old.FailsWith error) ∨ result = .error error := by
  induction is generalizing calls with
  | nil => exact .inl ⟨call, hcall, hfails⟩
  | cons k is ih =>
      rcases ih hcall with ⟨old, hold, hfails⟩ | hresult
      · rcases Transition.getElem?_modify_cases hold with ⟨-, hold⟩ | ⟨rfl, before, hbefore, rfl⟩
        · exact .inl ⟨old, hold, hfails⟩
        · rcases hfails with hphase | hresumed
          · exact .inl ⟨before, hbefore, .inl hphase⟩
          · rcases List.mem_append.mp hresumed with hmem | hnew
            · exact .inl ⟨before, hbefore, .inr hmem⟩
            · exact .inr (List.mem_singleton.mp hnew).symm
      · exact .inr hresult

/-! ### One step -/

variable {decoder : JSONDecoder F E}

theorem Blames.mono {s t : MuxSystem F E} {source source' : ℕ → AnyError E → Prop}
    (h : s.Blames t source) (hsource : ∀ i error, source i error → source' i error) :
    s.Blames t source' where
  closure := h.closure
  calls i call error hcall hfails := (h.calls i call error hcall hfails).imp_right (hsource i error)

/-- **What is not a shutdown** leaves the closure, and a call that begins to fail throws it; or its
request could not be sent. -/
theorem blames_of_step {s t : MuxSystem F E} {move : MuxMove E}
    (hcause : move.cause decoder = none) (h : s.step decoder move = some t) :
    s.Blames t fun i error => s.mux.closure = some error ∨ move = .sent i (some error) := by
  cases move with
  | call request =>
      cases h
      refine ⟨rfl, fun i call error hcall hfails => .inl ⟨call, ?_, hfails⟩⟩
      rw [List.getElem?_append] at hcall
      split at hcall
      · exact hcall
      · cases List.mem_singleton.mp (List.mem_of_getElem? hcall)
        rcases hfails with hphase | hresumed
        · cases hphase
        · cases hresumed
  | turn i => exact (blames_turn h).mono fun _ _ herror => .inl herror
  | sent i failure =>
      refine (blames_sent h).mono fun j error herror => .inr ?_
      rw [herror.1, herror.2]
  | metricsTicks =>
      cases h
      exact s.agrees_metricsTicks.blames _
  | next k =>
      simp only [step, next] at h
      split at h
      · cases h
        exact ⟨rfl, fun i call error hcall hfails => .inl ⟨call, hcall, hfails⟩⟩
      · cases h
  | shutdown error => cases hcause
  | begin k =>
      simp only [step, begin] at h
      split at h
      · cases h
        exact (s.agrees_loop k).blames _
      · cases h
  | received k outcome first =>
      simp only [step, received] at h
      split at h
      · cases outcome with
        | error error => cases hcause
        | ok message =>
            cases message with
            | none => cases hcause
            | some raw =>
                simp only [MuxMove.cause] at hcause
                cases hdecode : OspreyProtocol.decode decoder raw with
                | error error =>
                    rw [hdecode] at hcause
                    cases hcause
                | ok envelope =>
                    simp only [hdecode] at h
                    obtain ⟨v, hv, rfl⟩ := Option.map_eq_some_iff.mp h
                    exact ((blames_dispatch hv).mono fun _ _ hfalse => hfalse.elim).trans
                      ((v.agrees_loop k).blames _)
      · cases h

/-- A move with a cause is a shutdown with it. -/
theorem shutdown_of_step {s t : MuxSystem F E} {move : MuxMove E} {cause : AnyError E}
    (hcause : move.cause decoder = some cause) (h : s.step decoder move = some t) :
    (s.shutdown (some cause)).Agrees t := by
  cases move with
  | shutdown error =>
      cases hcause
      cases h
      exact .refl _
  | received k outcome first =>
      simp only [step, received] at h
      split at h
      · cases outcome with
        | error error =>
            cases hcause
            cases h
            exact agrees_read _ k _
        | ok message =>
            cases message with
            | none =>
                cases hcause
                cases h
                exact agrees_read _ k _
            | some raw =>
                simp only [MuxMove.cause] at hcause
                cases hdecode : OspreyProtocol.decode decoder raw with
                | error error =>
                    rw [hdecode] at hcause
                    cases hcause
                    simp only [hdecode] at h
                    cases h
                    exact agrees_read _ k _
                | ok envelope =>
                    rw [hdecode] at hcause
                    cases hcause
      · cases h
  | call request => cases hcause
  | turn i => cases hcause
  | sent i failure => cases hcause
  | metricsTicks => cases hcause
  | next k => cases hcause
  | begin k => cases hcause

/-! ### The first cause -/

/-- A link that is closed is shut down with another cause. -/
def Overwrites (decoder : JSONDecoder F E) (s : MuxSystem F E) (move : MuxMove E) : Prop :=
  (move.cause decoder).isSome ∧ s.mux.closure.isSome ∧ move.cause decoder ≠ s.mux.closure

instance [DecidableEq E] (s : MuxSystem F E) (move : MuxMove E) :
    Decidable (s.Overwrites decoder move) :=
  inferInstanceAs (Decidable (_ ∧ _))

end MuxSystem

/-- The cause of the first shutdown, and the calls whose request could not be sent. -/
structure CauseHistory (E : Type) where
  first : Option (AnyError E)
  unsent : List ℕ

namespace MuxSystem

/-- What the move adds to the history. -/
def noteCause (decoder : JSONDecoder F E) (_ : MuxSystem F E) (move : MuxMove E)
    (history : CauseHistory E) : CauseHistory E where
  first := history.first.or (move.cause decoder)
  unsent :=
    match move with
    | .sent i (some _) => i :: history.unsent
    | _ => history.unsent

/-- **The first cause is kept**: the closure is the first cause, and so is what calls fail with,
apart from those whose request could not be sent. -/
structure KeepsCause (s : MuxSystem F E × CauseHistory E) : Prop where
  closure : s.1.mux.closure = s.2.first
  calls : ∀ (i : ℕ) call error, s.1.calls[i]? = some call → call.FailsWith error →
    i ∈ s.2.unsent ∨ s.2.first = some error

theorem keepsCause_initial : KeepsCause ((initial : MuxSystem F E), ⟨none, []⟩) where
  closure := rfl
  calls i call error hcall := by simp [initial] at hcall

variable {decoder : JSONDecoder F E}

/-- **When a step keeps the first cause.** -/
theorem keepsCause_step_iff {s t : MuxSystem F E × CauseHistory E} {move : MuxMove E}
    (hs : KeepsCause s)
    (h : Transition.tracked (step decoder) (noteCause decoder) s move = some t) :
    KeepsCause t ↔ ¬s.1.Overwrites decoder move := by
  obtain ⟨hstep, hnote⟩ := Transition.tracked_eq_some.mp h
  have hnext : t.2.first = s.2.first.or (move.cause decoder) := congrArg CauseHistory.first hnote
  have hunsent : ∀ i, i ∈ s.2.unsent → i ∈ t.2.unsent := by
    intro i hi
    rw [hnote]
    simp only [noteCause]
    split
    · exact List.mem_cons_of_mem _ hi
    · exact hi
  cases hcause : move.cause decoder with
  | none =>
      have hfirst : t.2.first = s.2.first := by
        rw [hnext, hcause, Option.or_none]
      have hblames := blames_of_step hcause hstep
      refine iff_of_true ⟨?_, ?_⟩ ?_
      · rw [hblames.closure, hs.closure, hfirst]
      · intro i call error hcall hfails
        rw [hfirst]
        rcases hblames.calls i call error hcall hfails with ⟨old, hold, hfails⟩ | hclosed | rfl
        · exact (hs.calls i old error hold hfails).imp_left (hunsent i)
        · exact .inr (hs.closure.symm.trans hclosed)
        · rw [hnote]
          exact .inl List.mem_cons_self
      · rintro ⟨hsome, -⟩
        rw [hcause] at hsome
        cases hsome
  | some cause =>
      have hagrees := shutdown_of_step hcause hstep
      have hclosure : t.1.mux.closure = some cause := hagrees.closure
      have hfirst : t.2.first = s.1.mux.closure.or (some cause) := by
        rw [hnext, hcause, hs.closure]
      constructor
      · rintro hkeeps ⟨-, hclosed, hne⟩
        obtain ⟨closure, hclosed⟩ := Option.isSome_iff_exists.mp hclosed
        rw [hkeeps.closure, hfirst, hclosed] at hclosure
        exact hne (hcause.trans (hclosure.symm.trans hclosed.symm))
      · intro hspares
        have hsame : t.2.first = some cause := by
          rw [hfirst]
          cases hclosed : s.1.mux.closure with
          | none => rfl
          | some closure =>
              by_contra hne
              refine hspares ⟨by rw [hcause]; rfl, by rw [hclosed]; rfl, fun heq => hne ?_⟩
              rw [← hcause, heq, hclosed]
              rfl
        refine ⟨hclosure.trans hsame.symm, ?_⟩
        intro i call error hcall hfails
        rw [hagrees.calls] at hcall
        rcases failsWith_resumeAll _ hcall hfails with ⟨old, hold, hfails⟩ | hresult
        · rcases hs.calls i old error hold hfails with hmem | hold
          · exact .inl (hunsent i hmem)
          · right
            rw [hfirst, hs.closure, hold]
            rfl
        · cases hresult
          exact .inr hsame

end MuxSystem

/-! ### Runs -/

open MuxSystem in
/-- **Exactly which runs keep the first cause**: those in which no link that is closed is shut down
with another one. -/
theorem first_cause_iff {decoder : JSONDecoder F E} {moves : List (MuxMove E)}
    {s : MuxSystem F E × CauseHistory E}
    (hrun : Transition.run (Transition.tracked (step decoder) (noteCause decoder))
      (initial, ⟨none, []⟩) moves = some s) :
    (∀ done, done <+: moves → ∀ t,
      Transition.run (Transition.tracked (step decoder) (noteCause decoder)) (initial, ⟨none, []⟩)
        done = some t → KeepsCause t) ↔
      Transition.Meets (Transition.tracked (step decoder) (noteCause decoder))
        (fun s move => ¬s.1.Overwrites decoder move) (initial, ⟨none, []⟩) moves :=
  Transition.forall_states_iff_meets (fun _ _ _ _ _ => trivial)
    (fun _ _ _ _ hs h => keepsCause_step_iff hs h) trivial keepsCause_initial hrun

/-- The reader reads, the link is shut down, and the stream is closed under the reader. -/
def closedInOrder : List (MuxMove Unit) :=
  [.metricsTicks, .begin 0, .shutdown none, .received 0 (.error (.other ())) (toyUuid 0),
    .call (.exchange (toyUuid 1)), .turn 0]

/-- The error of the stream takes the place of `closed`, and the next exchange throws it. -/
theorem first_cause_lost : ∃ s history,
    Transition.run
        (Transition.tracked (MuxSystem.step pongDecoder) (MuxSystem.noteCause pongDecoder))
        (.initial, ⟨none, []⟩) closedInOrder = some (s, history) ∧
      s.calls = [⟨.exchange (toyUuid 1), .returned (.error (.other ())), []⟩] ∧
      history = ⟨some (.mux .closed), []⟩ ∧ ¬MuxSystem.KeepsCause (s, history) := by
  refine ⟨_, _, rfl, rfl, rfl, fun hkeeps => ?_⟩
  cases hkeeps.closure

/-- An exchange that waits when the link is shut down throws `closed`. -/
theorem first_cause_iff_shutDown : ∃ s,
    Transition.run
        (Transition.tracked (MuxSystem.step pongDecoder) (MuxSystem.noteCause pongDecoder))
        (.initial, ⟨none, []⟩) (shutDown ++ [.turn 0]) = some s ∧
      MuxSystem.KeepsCause s := by
  have hmeets : Transition.Meets
      (Transition.tracked (MuxSystem.step pongDecoder) (MuxSystem.noteCause pongDecoder))
      (fun s move => ¬s.1.Overwrites pongDecoder move) (.initial, ⟨none, []⟩)
      (shutDown ++ [.turn 0]) := by
    decide +kernel
  exact ⟨_, rfl, (first_cause_iff rfl).mpr hmeets _ List.prefix_rfl _ rfl⟩

end Osprey
