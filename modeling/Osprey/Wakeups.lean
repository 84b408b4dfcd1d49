/-
**No wake-up is lost, and how close two reads can come.**

A subscriber that comes while the sampler idles must not wait for thirty seconds, and one that comes
again and again must not have the platform read as often as it likes.  The first holds of every
interleaving: a sender that is listed during an idle wait has still to be announced.  The second
rests on a floor that the sampler puts under the instants it notes.  The platform is read some time
after its instant, and `Collector::new` reads it before the loop and without noting when: so the
reads are as far apart as the instants only where none is later behind its instant than the next.

Main definitions:

* `Osprey.EngineThreads.Announces` — what there is to say about idle waits and those who end them;
* `Osprey.SpacedBy` — two reads are far enough apart;
* `Osprey.Follows`, `Osprey.InTime` — a read is no less behind its instant than the one before, or
  its instant is far enough from that read.

Main results:

* `Osprey.EngineThreads.Awaited.step` — **a sender listed during an idle wait is still to be
  announced**;
* `Osprey.EngineThreads.Timed.step` — **the instants of the loop are spaced**;
* `Osprey.EngineThreads.wakeups_spaced` — no wake-up is lost, and the reads are spaced in every run
  whose reads are in time.
-/

import Osprey.EngineThreads

set_option relaxedAutoImplicit false
set_option autoImplicit false

namespace Osprey

variable {F : Type}

namespace EngineThreads

variable {s t : EngineThreads F}

/-! ### Idle waits -/

/-- The call that registers channel `c` has pushed its sender and not notified yet. -/
def ToAnnounce (calls : List Call) (c : ℕ) : Prop :=
  ∃ i : ℕ, calls[i]? = some (.pushed c) ∨ calls[i]? = some (.released c)

/-- Whoever is registered during an idle wait is still to be announced. -/
def Awaited (s : EngineThreads F) : Prop :=
  ∀ since, s.engine.sampler = .waiting IDLE_INTERVAL since →
    ∀ c ∈ s.engine.subscribers, ToAnnounce s.calls c

/-- **No wake-up is lost.** -/
structure Announces (s : EngineThreads F) : Prop where
  /-- An idle wait is entered only where no sender is registered. -/
  enters : ∀ u since, s.step .enterWait = some u →
    u.engine.sampler = .waiting IDLE_INTERVAL since → u.engine.subscribers = []
  /-- During an idle wait, the call of every registered sender has yet to notify. -/
  awaited : s.Awaited
  /-- Nothing keeps such a call from letting go of the lock, -/
  releases : ∀ i c, s.calls[i]? = some (.pushed c) → ∃ u, s.step (.release i) = some u ∧
    u.calls[i]? = some (.released c)
  /-- and then from notifying, which ends a wait that has not ended yet. -/
  notifies : ∀ i c, s.calls[i]? = some (.released c) → ∃ u, s.step (.notify i) = some u ∧
    u.calls[i]? = some (.returned c) ∧ ∀ interval since, u.engine.sampler ≠ .waiting interval since

/-- An idle wait is about to be entered only with no sender registered. -/
theorem Sound.empty_of_idle (h : s.Sound) (hentry : s.entry = .chosen IDLE_INTERVAL) :
    s.engine.subscribers = [] := by
  obtain ⟨-, hinterval⟩ := h.chosen _ hentry
  split at hinterval
  · rename_i hempty
    exact List.isEmpty_iff.mp hempty
  · exact absurd hinterval (by decide)

/-- Another call has moved. -/
theorem ToAnnounce.set {calls : List Call} {c i : ℕ} {old call : Call}
    (h : ToAnnounce calls c) (hold : calls[i]? = some old) (hpushed : old ≠ .pushed c)
    (hreleased : old ≠ .released c) : ToAnnounce (calls.set i call) c := by
  obtain ⟨j, hj⟩ := h
  have hij : i ≠ j := by
    rintro rfl
    rcases hj with hj | hj
    · exact hpushed (Option.some.inj (hold.symm.trans hj))
    · exact hreleased (Option.some.inj (hold.symm.trans hj))
  refine ⟨j, ?_⟩
  rw [List.getElem?_set_ne hij]
  exact hj

/-- **A sender listed during an idle wait is still to be announced**: the wait was entered where
none was, and it ends before the call that has pushed one returns. -/
theorem Awaited.step (hsound : s.Sound) (h : s.Awaited) {move : ThreadMove F}
    (hstep : s.step move = some t) : t.Awaited := by
  cases steps_of_step hstep with
  | baseline | read | acquire | choose | report | elapse => exact h
  | quit =>
      intro since hwaiting
      cases hwaiting
  | enterWait hentry =>
      intro since hwaiting c hc
      cases hwaiting
      have hc' : c ∈ s.engine.subscribers := hc
      rw [hsound.empty_of_idle hentry] at hc'
      cases hc'
  | sampler hentry hwait hfree hmove =>
      intro since hwaiting
      cases Engine.moves_of_move hmove with
      | wait | quit => exact absurd rfl hwait
      | _ => cases hwaiting
  | call =>
      intro since hwaiting c hc
      obtain ⟨i, hi⟩ := h since hwaiting c hc
      refine ⟨i, ?_⟩
      rcases hi with hi | hi
      · have hlt := (List.getElem?_eq_some_iff.mp hi).1
        exact .inl ((List.getElem?_append_left hlt).trans hi)
      · have hlt := (List.getElem?_eq_some_iff.mp hi).1
        exact .inr ((List.getElem?_append_left hlt).trans hi)
  | take hcall =>
      intro since hwaiting c hc
      exact (h since hwaiting c hc).set hcall Call.noConfusion Call.noConfusion
  | push hcall =>
      rename_i i
      intro since hwaiting c hc
      rcases List.mem_append.mp hc with hc | hc
      · exact (h since hwaiting c hc).set hcall Call.noConfusion Call.noConfusion
      · rw [List.mem_singleton.mp hc]
        exact ⟨i, .inl (List.getElem?_set_self (List.getElem?_eq_some_iff.mp hcall).1)⟩
  | release hcall =>
      rename_i i c
      intro since hwaiting c' hc'
      by_cases hc : c = c'
      · subst hc
        exact ⟨i, .inr (List.getElem?_set_self (List.getElem?_eq_some_iff.mp hcall).1)⟩
      · exact (h since hwaiting c' hc').set hcall (fun heq => hc (Call.pushed.inj heq))
          Call.noConfusion
  | notify => exact fun since hwaiting => absurd hwaiting (Engine.notifyAll_not_waiting _ _ _)
  | drain hact =>
      obtain ⟨feed, channel, rfl⟩ := Engine.setChannel_of_act (.inl hact)
      exact h
  | drop hact =>
      obtain ⟨feed, channel, rfl⟩ := Engine.setChannel_of_act (.inr hact)
      exact h
  | stop => exact fun since hwaiting => absurd hwaiting (Engine.notifyAll_not_waiting _ _ _)

theorem announces_of_awaited (hsound : s.Sound) (h : s.Awaited) : s.Announces := by
  refine ⟨?_, h, ?_, ?_⟩
  · intro u since hstep hwaiting
    cases steps_of_step hstep with
    | enterWait hentry =>
        cases hwaiting
        exact hsound.empty_of_idle hentry
  · intro i c hcall
    refine ⟨{ s with calls := s.calls.set i (.released c), holder := none }, ?_, ?_⟩
    · simp only [EngineThreads.step, hcall]
    · exact List.getElem?_set_self (List.getElem?_eq_some_iff.mp hcall).1
  · intro i c hcall
    refine ⟨{ s with engine := s.engine.notifyAll, calls := s.calls.set i (.returned c) }, ?_, ?_,
      s.engine.notifyAll_not_waiting⟩
    · simp only [EngineThreads.step, hcall]
    · exact List.getElem?_set_self (List.getElem?_eq_some_iff.mp hcall).1

end EngineThreads

/-! ### Reads of the platform -/

/-- The later of two reads comes no sooner than `MIN_SAMPLE_SPACING` after the other. -/
def SpacedBy (previous read : PlatformRead) : Prop :=
  previous.time + MIN_SAMPLE_SPACING ≤ read.time

/-- How long after its instant the read is. -/
def PlatformRead.lag (read : PlatformRead) : Option ℕ := read.noted.map (read.time - ·)

/-- The read is no less behind its instant than the one before, or the instant is no sooner than
`MIN_SAMPLE_SPACING` after the read before. -/
def Follows (previous read : PlatformRead) : Prop :=
  (∃ lag ∈ previous.lag, ∃ lag' ∈ read.lag, lag ≤ lag') ∨
    ∃ instant ∈ read.noted, previous.time + MIN_SAMPLE_SPACING ≤ instant

/-- Every read follows the one before it. -/
def InTime (s : EngineThreads F) : ThreadMove F → Prop
  | .read => ∀ previous ∈ s.reads.getLast?, Follows previous s.readNow
  | _ => True

namespace EngineThreads

variable {s t : EngineThreads F}

/-- The reads so far, the last of which the sampler knows by its instant, and the instant noted for
the next. -/
structure Timed (s : EngineThreads F) : Prop where
  baseline : s.entry = .starting → s.reads = []
  noted : (∀ fails, s.entry ≠ .reading fails) →
    s.engine.lastSampledAt = s.reads.getLast?.bind PlatformRead.noted
  reading : ∀ fails, s.entry = .reading fails → ∃ instant, s.engine.lastSampledAt = some instant ∧
    instant ≤ s.engine.now ∧ ∀ previous ∈ s.reads.getLast?, ∀ noted ∈ previous.noted,
      noted + MIN_SAMPLE_SPACING ≤ instant

theorem spaced_append_iff {reads : List PlatformRead} {read : PlatformRead} :
    (reads ++ [read]).IsChain SpacedBy ↔
      reads.IsChain SpacedBy ∧ ∀ last ∈ reads.getLast?, SpacedBy last read := by
  rw [List.isChain_append]
  simp

/-- A step that reads nothing and notes nothing. -/
theorem Timed.same (h : s.Timed) (hreads : t.reads = s.reads)
    (hlast : t.engine.lastSampledAt = s.engine.lastSampledAt)
    (hnow : s.engine.now ≤ t.engine.now) (hstarting : t.entry = .starting → s.entry = .starting)
    (hreading : ∀ fails, t.entry = .reading fails ↔ s.entry = .reading fails) : t.Timed := by
  refine ⟨?_, ?_, ?_⟩
  · intro hentry
    rw [hreads]
    exact h.baseline (hstarting hentry)
  · intro hnot
    rw [hlast, hreads]
    exact h.noted fun fails hentry => hnot fails ((hreading fails).mpr hentry)
  · intro fails hentry
    obtain ⟨instant, hinstant, hle, hfloor⟩ := h.reading fails ((hreading fails).mp hentry)
    rw [hlast, hreads]
    exact ⟨instant, hinstant, hle.trans hnow, hfloor⟩

/-- A read, after which the sampler knows its instant. -/
theorem timed_read (hlast : t.engine.lastSampledAt = s.engine.lastSampledAt)
    (hreads : t.reads = s.reads ++ [s.readNow])
    (hentry : t.entry = .looping ∨ t.entry = .failed) : t.Timed := by
  refine ⟨?_, ?_, ?_⟩
  · rintro heq
    rcases hentry with hentry | hentry <;> cases hentry.symm.trans heq
  · intro _
    rw [hlast, hreads, List.getLast?_concat]
    rfl
  · rintro fails heq
    rcases hentry with hentry | hentry <;> cases hentry.symm.trans heq

/-- The sampler notes an instant, no sooner than `MIN_SAMPLE_SPACING` after the one before. -/
theorem Timed.sample (h : s.Timed) (hlooping : s.entry = .looping)
    (hspaced : ∀ previous ∈ s.engine.lastSampledAt,
      previous + MIN_SAMPLE_SPACING ≤ s.engine.now) {fails : Bool}
    (hentry : t.entry = .reading fails) (hreads : t.reads = s.reads)
    (hnow : t.engine.now = s.engine.now)
    (hlast : t.engine.lastSampledAt = some s.engine.now) : t.Timed := by
  refine ⟨?_, ?_, ?_⟩
  · intro heq
    cases hentry.symm.trans heq
  · exact fun hnot => absurd hentry (hnot fails)
  · rintro _ -
    refine ⟨s.engine.now, hlast, hnow.ge, fun previous hprevious noted hnoted => ?_⟩
    rw [hreads] at hprevious
    have hknown := h.noted (by simp [hlooping])
    rw [hprevious] at hknown
    exact hspaced noted (hknown.trans hnoted)

/-- **The sampler keeps the floor under the instants of its loop.** -/
theorem Timed.step (h : s.Timed) {move : ThreadMove F} (hstep : s.step move = some t) :
    t.Timed := by
  cases steps_of_step hstep with
  | baseline hentry => exact timed_read (s := s) rfl rfl (.inl rfl)
  | read hentry =>
      rename_i fails
      cases fails with
      | true => exact timed_read (s := s) rfl rfl (.inr rfl)
      | false => exact timed_read (s := s) rfl rfl (.inl rfl)
  | acquire hentry | choose hentry | quit hentry | enterWait hentry | report hentry =>
      exact h.same rfl rfl le_rfl (by simp) (by simp [hentry])
  | sampler hentry hwait hfree hmove =>
      cases Engine.moves_of_move hmove with
      | sample hsampler hspaced sample => exact h.sample hentry hspaced rfl rfl rfl rfl
      | fail hsampler hspaced => exact h.sample hentry hspaced rfl rfl rfl rfl
      | wait | quit => exact absurd rfl hwait
      | _ => exact h.same rfl rfl le_rfl id fun _ => Iff.rfl
  | call | take | push | release => exact h.same rfl rfl le_rfl id fun _ => Iff.rfl
  | elapse d => exact h.same rfl rfl (Nat.le_add_right _ _) id fun _ => Iff.rfl
  | notify =>
      exact h.same rfl (Engine.notifyAll_same _).2.2 (Engine.now_notifyAll _).ge id fun _ => Iff.rfl
  | drain hact =>
      obtain ⟨feed, channel, rfl⟩ := Engine.setChannel_of_act (.inl hact)
      exact h.same rfl rfl le_rfl id fun _ => Iff.rfl
  | drop hact =>
      obtain ⟨feed, channel, rfl⟩ := Engine.setChannel_of_act (.inr hact)
      exact h.same rfl rfl le_rfl id fun _ => Iff.rfl
  | stop =>
      have hnow := Engine.now_notifyAll { s.engine with running := false }
      exact h.same rfl (Engine.notifyAll_same _).2.2 hnow.ge id fun _ => Iff.rfl

/-- **A read in time is far enough from the one before**: its instant is from that of the one
before, by the floor. -/
theorem Timed.spaced (h : s.Timed) {fails : Bool} (hentry : s.entry = .reading fails)
    {previous : PlatformRead} (hprevious : previous ∈ s.reads.getLast?)
    (hfollows : Follows previous s.readNow) : SpacedBy previous s.readNow := by
  obtain ⟨instant, hinstant, hle, hfloor⟩ := h.reading fails hentry
  unfold SpacedBy
  change previous.time + MIN_SAMPLE_SPACING ≤ s.engine.now
  rcases hfollows with ⟨lag, hlag, lag', hlag', hlags⟩ | ⟨instant', hnoted, hlate⟩
  · obtain ⟨noted, hnoted, rfl⟩ := Option.map_eq_some_iff.mp hlag
    obtain ⟨instant', hinstant', rfl⟩ := Option.map_eq_some_iff.mp hlag'
    cases hinstant.symm.trans hinstant'
    have hnow : s.readNow.time = s.engine.now := rfl
    have hspaced := hfloor previous hprevious noted hnoted
    omega
  · cases hinstant.symm.trans hnoted
    exact hlate.trans hle

/-- Where a read is not in time, and the sampler has noted its instant as soon as the floor let it
or reads at that instant, the read is too close to the one before. -/
theorem Timed.close (h : s.Timed) {fails : Bool} (hentry : s.entry = .reading fails)
    {previous : PlatformRead} (hlate : ¬Follows previous s.readNow)
    (hprompt : ∀ instant ∈ s.engine.lastSampledAt, instant = s.engine.now ∨
      ∃ noted ∈ previous.noted, instant = noted + MIN_SAMPLE_SPACING) :
    ¬SpacedBy previous s.readNow := by
  obtain ⟨instant, hinstant, hle, -⟩ := h.reading fails hentry
  intro hspaced
  change previous.time + MIN_SAMPLE_SPACING ≤ s.engine.now at hspaced
  refine hlate ?_
  rcases hprompt instant hinstant with rfl | ⟨noted, hnoted, rfl⟩
  · exact .inr ⟨s.engine.now, hinstant, hspaced⟩
  · refine .inl ⟨_, Option.mem_map_of_mem _ hnoted, _, Option.mem_map_of_mem _ hinstant, ?_⟩
    change previous.time - noted ≤ s.engine.now - (noted + MIN_SAMPLE_SPACING)
    omega

/-- What holds along every run. -/
structure Watched (s : EngineThreads F) : Prop where
  sound : s.Sound
  awaited : s.Awaited
  timed : s.Timed

theorem Watched.step (h : s.Watched) {move : ThreadMove F} (hstep : s.step move = some t) :
    t.Watched :=
  ⟨h.sound.step hstep, h.awaited.step h.sound hstep, h.timed.step hstep⟩

theorem watched_start : (start : EngineThreads F).Watched := by
  refine ⟨sound_start, ?_, ⟨fun _ => rfl, fun _ => rfl, fun _ hentry => by cases hentry⟩⟩
  intro since hwaiting
  cases hwaiting

theorem watched_of_run {moves : List (ThreadMove F)}
    (hrun : Transition.run EngineThreads.step .start moves = some s) : s.Watched :=
  Transition.run_keeps (fun _ _ _ h hstep => Watched.step h hstep) watched_start hrun

/-- Spaced reads stay spaced by a step in time. -/
theorem Timed.chain (h : s.Timed) (hchain : s.reads.IsChain SpacedBy) {move : ThreadMove F}
    (hintime : InTime s move) (hstep : s.step move = some t) : t.reads.IsChain SpacedBy := by
  cases steps_of_step hstep with
  | baseline hentry =>
      rw [h.baseline hentry]
      exact List.IsChain.singleton _
  | read hentry =>
      exact spaced_append_iff.mpr ⟨hchain, fun previous hprevious =>
        h.spaced hentry hprevious (hintime previous hprevious)⟩
  | sampler hentry hwait hfree hmove =>
      rename_i m engine
      cases m <;> exact hchain
  | _ => exact hchain

/-- **No wake-up is lost**, in any state of any run of the threads, **and in a run whose reads are
all in time any two consecutive reads are `MIN_SAMPLE_SPACING` apart**.  A read that is not in time
comes too soon wherever the sampler has not been slower than its floor. -/
theorem wakeups_spaced {moves : List (ThreadMove F)}
    (hrun : Transition.run EngineThreads.step .start moves = some s) :
    (∀ done, done <+: moves → ∀ t, Transition.run EngineThreads.step .start done = some t →
      t.Announces) ∧
    (Transition.Meets EngineThreads.step InTime .start moves →
      ∀ done, done <+: moves → ∀ t, Transition.run EngineThreads.step .start done = some t →
        t.reads.IsChain SpacedBy) ∧
    ∀ t, s.step .read = some t → ¬InTime s .read →
      (∀ previous ∈ s.reads.getLast?, ∀ instant ∈ s.engine.lastSampledAt,
        instant = s.engine.now ∨ ∃ noted ∈ previous.noted, instant = noted + MIN_SAMPLE_SPACING) →
      ¬t.reads.IsChain SpacedBy := by
  refine ⟨?_, ?_, ?_⟩
  · intro done _ t hdone
    have h := watched_of_run hdone
    exact announces_of_awaited h.sound h.awaited
  · rintro hmeets done ⟨rest, rfl⟩ t hdone
    have hkept : t.Watched ∧ t.reads.IsChain SpacedBy := by
      refine Transition.run_invariant (I := fun u : EngineThreads F =>
        u.Watched ∧ u.reads.IsChain SpacedBy) ?_ ⟨watched_start, List.IsChain.nil⟩
        (Transition.meets_append hdone hmeets).1 hdone
      rintro u move v ⟨hwatched, hchain⟩ hintime hstep
      exact ⟨hwatched.step hstep, hwatched.timed.chain hchain hintime hstep⟩
    exact hkept.2
  · intro t hstep hlate hprompt hchain
    have h := watched_of_run hrun
    cases steps_of_step hstep with
    | read hentry =>
        obtain ⟨-, hlast⟩ := spaced_append_iff.mp hchain
        refine hlate fun previous hprevious => ?_
        by_contra hnot
        exact h.timed.close hentry hnot (hprompt previous hprevious)
          (hlast previous hprevious)

/-! ### A subscriber at once -/

instance : DecidableRel SpacedBy := fun previous read =>
  inferInstanceAs (Decidable (previous.time + MIN_SAMPLE_SPACING ≤ read.time))

instance : DecidableRel Follows := fun previous read =>
  inferInstanceAs (Decidable ((∃ lag ∈ previous.lag, ∃ lag' ∈ read.lag, lag ≤ lag') ∨
    ∃ instant ∈ read.noted, previous.time + MIN_SAMPLE_SPACING ≤ instant))

instance (s : EngineThreads F) (move : ThreadMove F) : Decidable (InTime s move) :=
  match move with
  | .read => inferInstanceAs (Decidable (∀ previous ∈ s.reads.getLast?, Follows previous s.readNow))
  | .sampler _ | .baseline | .acquire | .choose | .quit | .enterWait | .report | .call | .take _
  | .push _ | .release _ | .notify _ | .drain _ | .drop _ | .elapse _ | .stop => .isTrue trivial

/-- The sampler starts and idles, and after a while a subscriber comes: the platform is read. -/
def subscribedAfter (d : ℕ) : List (ThreadMove ℕ) :=
  [.baseline, .acquire, .choose, .enterWait, .call, .elapse d, .take 0, .push 0, .release 0,
    .notify 0, .sampler .resume, .sampler (.sample (some (sampleAt 1000))), .read]

/-- A subscriber comes after a second; the read comes `d` after its instant, and the sampler is
woken by another subscriber 250 ms after that instant. -/
def subscribedAgain (d : ℕ) : List (ThreadMove ℕ) :=
  (subscribedAfter LIVE_INTERVAL).dropLast ++
  [.elapse d, .read, .sampler .lock, .sampler .trySend, .sampler .trySend, .sampler .store,
    .acquire, .choose, .enterWait, .call, .take 1, .push 1, .release 1, .notify 1,
    .sampler .resume, .elapse (MIN_SAMPLE_SPACING - d),
    .sampler (.sample (some (sampleAt 1250))), .read]

/-- The sampler reads the platform at once, each time. -/
theorem wakeups_spaced_again : ∃ s,
    Transition.run EngineThreads.step .start (subscribedAgain 0) = some s ∧
      (∀ done, done <+: subscribedAgain 0 → ∀ t,
        Transition.run EngineThreads.step .start done = some t → t.Announces) ∧
      ∀ done, done <+: subscribedAgain 0 → ∀ t,
        Transition.run EngineThreads.step .start done = some t → t.reads.IsChain SpacedBy := by
  have hsome : (Transition.run EngineThreads.step .start (subscribedAgain 0)).isSome = true := by
    decide +kernel
  obtain ⟨s, hs⟩ := Option.isSome_iff_exists.mp hsome
  obtain ⟨hannounces, hspaced, -⟩ := wakeups_spaced hs
  exact ⟨s, hs, hannounces, hspaced (by decide +kernel)⟩

/-- A subscriber that comes a millisecond after the start has the platform read a millisecond after
the baseline; and one that comes after a read which was 200 ms behind its instant has it read 50 ms
after that read. -/
theorem reads_at_once :
    (¬∀ (moves : List (ThreadMove ℕ)) (s : EngineThreads ℕ),
      Transition.run EngineThreads.step .start moves = some s →
      s.Announces ∧ s.reads.IsChain SpacedBy) ∧
    ((Transition.run EngineThreads.step .start (subscribedAfter 1000000)).any fun s =>
      decide (s.reads.map PlatformRead.time = [0, 1000000])) = true ∧
    ((Transition.run EngineThreads.step .start (subscribedAgain 200000000)).any fun s =>
      decide (s.reads.map PlatformRead.time = [0, 1200000000, 1250000000])) = true := by
  refine ⟨fun h => ?_, by decide +kernel, by decide +kernel⟩
  have hrun : ((Transition.run EngineThreads.step .start (subscribedAgain 200000000)).any fun s =>
      decide (¬s.reads.IsChain SpacedBy)) = true := by
    decide +kernel
  obtain ⟨s, hs, hclose⟩ := (Option.any_eq_true _ _).mp hrun
  exact of_decide_eq_true hclose (h _ s hs).2

end EngineThreads

end Osprey
