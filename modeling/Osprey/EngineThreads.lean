/-
**Threads of the engine, and the lock between them.**

A finer view of the engine than its acts: the sampler takes the lock, chooses its interval and
enters its wait in three steps, it notes the instant of a read and reads the platform in two, and a
call of `subscribe` takes the lock, pushes its sender, lets go of the lock and notifies in four.
Steps of any number of calls come between those of the sampler, and the lock alone keeps them apart.

Main definitions:

* `Osprey.EngineThreads` with `step` — the engine, who holds its lock, where each thread is, and
  when the platform has been read;
* `Osprey.EngineThreads.Sound` — the lock is held by the thread that is where it holds the lock.

Main results:

* `Osprey.EngineThreads.Sound.step` — every step keeps this;
* `Osprey.EngineThreads.Sound.exclusive` — **never two threads are where they hold the lock**;
* `Osprey.EngineThreads.act_of_step`, `Osprey.EngineThreads.acts_of_run` — **every step is one act
  of the engine, or none, and every run a run of the engine**.
-/

import Osprey.EngineRuns

set_option relaxedAutoImplicit false
set_option autoImplicit false

namespace Osprey

/-! ### The threads -/

inductive Holder
  | sampler
  | caller (i : ℕ)
  deriving DecidableEq

/-- Where the sampler is outside of what `Engine.move` says. -/
inductive Entry
  /-- In `Collector::new`, which reads the platform for a baseline. -/
  | starting
  /-- Where the engine says. -/
  | looping
  /-- Between noting the instant and the read, which will fail or not. -/
  | reading (fails : Bool)
  /-- After a read that failed, which is noted under the lock. -/
  | failed
  /-- At the top of the loop, with the lock. -/
  | locked
  /-- Still with the lock, about to enter the wait. -/
  | chosen (interval : ℕ)
  deriving DecidableEq

/-- A call of `subscribe`: its thread wants the lock, has it, has pushed its sender, has let go of
the lock, or has notified the sampler and returned. -/
inductive Call
  | locking
  | holding
  | pushed (c : ℕ)
  | released (c : ℕ)
  | returned (c : ℕ)
  deriving DecidableEq

/-- A read of the platform: what `last_sampled_at` was then, and when it was. -/
structure PlatformRead where
  noted : Option ℕ
  time : ℕ
  deriving DecidableEq

/-- The engine, its lock, its threads, and the reads of the platform. -/
structure EngineThreads (F : Type) where
  engine : Engine F
  holder : Option Holder
  entry : Entry
  calls : List Call
  reads : List PlatformRead

inductive ThreadMove (F : Type)
  | baseline
  /-- The platform is read, some time after `last_sampled_at` was noted. -/
  | read
  | acquire
  | choose
  | quit
  | enterWait
  | sampler (move : SamplerMove F)
  | report
  /-- Another thread calls `subscribe`. -/
  | call
  | take (i : ℕ)
  | push (i : ℕ)
  | release (i : ℕ)
  | notify (i : ℕ)
  | drain (c : ℕ)
  | drop (c : ℕ)
  | elapse (d : ℕ)
  | stop

variable {F : Type}

namespace EngineThreads

def start : EngineThreads F := ⟨.start, none, .starting, [], []⟩

/-- The read that would be made now. -/
def readNow (s : EngineThreads F) : PlatformRead := ⟨s.engine.lastSampledAt, s.engine.now⟩

/-- The lock and the place of the sampler after one of its moves.  The move `sample` notes the
instant; what it says the read will answer is not seen by anyone before the read. -/
def moved (s : EngineThreads F) (engine : Engine F) : SamplerMove F → EngineThreads F
  | .sample result => { s with engine, entry := .reading result.isNone }
  | .lock => { s with engine, holder := some .sampler }
  | .store => { s with engine, holder := none }
  | _ => { s with engine }

/-- One step of one thread; `none` where it is not there, or has to wait for the lock. -/
def step (s : EngineThreads F) : ThreadMove F → Option (EngineThreads F)
  | .baseline =>
      match s.entry with
      | .starting => some { s with entry := .looping, reads := s.reads ++ [s.readNow] }
      | _ => none
  | .read =>
      match s.entry with
      | .reading fails =>
          some { s with
            entry := if fails then .failed else .looping
            reads := s.reads ++ [s.readNow] }
      | _ => none
  | .acquire =>
      match s.entry, s.engine.sampler, s.holder with
      | .looping, .top, none => some { s with entry := .locked, holder := some .sampler }
      | _, _, _ => none
  | .choose =>
      match s.entry with
      | .locked =>
          if s.engine.running then
            some { s with
              entry := .chosen
                (if s.engine.subscribers.isEmpty then IDLE_INTERVAL else LIVE_INTERVAL) }
          else none
      | _ => none
  | .quit =>
      match s.entry with
      | .locked =>
          if s.engine.running then none
          else some { s with
            engine := { s.engine with sampler := .stopped }
            entry := .looping
            holder := none }
      | _ => none
  | .enterWait =>
      match s.entry with
      | .chosen interval =>
          -- entering the wait lets go of the lock
          some { s with
            engine := { s.engine with sampler := .waiting interval s.engine.now }
            entry := .looping
            holder := none }
      | _ => none
  | .sampler move =>
      match s.entry, move with
      | .looping, .wait => none
      | .looping, .resume | .looping, .lock =>
          if s.holder = none then (s.engine.move move).map fun engine => s.moved engine move
          else none
      | .looping, _ => (s.engine.move move).map fun engine => s.moved engine move
      | _, _ => none
  | .report =>
      match s.entry, s.holder with
      | .failed, none => some { s with entry := .looping }
      | _, _ => none
  | .call => some { s with calls := s.calls ++ [.locking] }
  | .take i =>
      match s.calls[i]?, s.holder with
      | some .locking, none =>
          some { s with calls := s.calls.set i .holding, holder := some (.caller i) }
      | _, _ => none
  | .push i =>
      match s.calls[i]? with
      | some .holding =>
          some { s with
            engine := s.engine.register, calls := s.calls.set i (.pushed s.engine.feeds.length) }
      | _ => none
  | .release i =>
      match s.calls[i]? with
      | some (.pushed c) => some { s with calls := s.calls.set i (.released c), holder := none }
      | _ => none
  | .notify i =>
      match s.calls[i]? with
      | some (.released c) =>
          some { s with engine := s.engine.notifyAll, calls := s.calls.set i (.returned c) }
      | _ => none
  | .drain c =>
      if .returned c ∈ s.calls then
        (s.engine.act (.drain c)).map fun engine => { s with engine }
      else none
  | .drop c =>
      if .returned c ∈ s.calls then
        (s.engine.act (.drop c)).map fun engine => { s with engine }
      else none
  | .elapse d => some { s with engine := s.engine.elapse d }
  | .stop =>
      match s.holder with
      | none => some { s with engine := { s.engine with running := false }.notifyAll }
      | some _ => none

end EngineThreads

/-- What a step of the threads does to the engine. -/
def ThreadMove.act? : ThreadMove F → Option (EngineAct F)
  | .quit | .enterWait => some (.move .wait)
  | .sampler move => some (.move move)
  | .push _ => some .subscribe
  | .notify _ => some .notify
  | .drain c => some (.drain c)
  | .drop c => some (.drop c)
  | .elapse d => some (.elapse d)
  | .stop => some .stop
  | .baseline | .read | .acquire | .choose | .report | .call | .take _ | .release _ => none

namespace EngineThreads

/-- **What a step can do.** -/
inductive Steps (s : EngineThreads F) : ThreadMove F → EngineThreads F → Prop
  | baseline (hentry : s.entry = .starting) :
      Steps s .baseline { s with entry := .looping, reads := s.reads ++ [s.readNow] }
  | read {fails : Bool} (hentry : s.entry = .reading fails) :
      Steps s .read { s with
        entry := if fails then .failed else .looping
        reads := s.reads ++ [s.readNow] }
  | acquire (hentry : s.entry = .looping) (hsampler : s.engine.sampler = .top)
      (hfree : s.holder = none) :
      Steps s .acquire { s with entry := .locked, holder := some .sampler }
  | choose (hentry : s.entry = .locked) (hrunning : s.engine.running = true) :
      Steps s .choose { s with
        entry := .chosen (if s.engine.subscribers.isEmpty then IDLE_INTERVAL else LIVE_INTERVAL) }
  | quit (hentry : s.entry = .locked) (hrunning : s.engine.running = false) :
      Steps s .quit { s with
        engine := { s.engine with sampler := .stopped }, entry := .looping, holder := none }
  | enterWait {interval : ℕ} (hentry : s.entry = .chosen interval) :
      Steps s .enterWait { s with
        engine := { s.engine with sampler := .waiting interval s.engine.now }
        entry := .looping
        holder := none }
  | sampler {move : SamplerMove F} {engine : Engine F} (hentry : s.entry = .looping)
      (hwait : move ≠ .wait) (hfree : move = .resume ∨ move = .lock → s.holder = none)
      (hmove : s.engine.move move = some engine) : Steps s (.sampler move) (s.moved engine move)
  | report (hentry : s.entry = .failed) (hfree : s.holder = none) :
      Steps s .report { s with entry := .looping }
  | call : Steps s .call { s with calls := s.calls ++ [.locking] }
  | take {i : ℕ} (hcall : s.calls[i]? = some .locking) (hfree : s.holder = none) :
      Steps s (.take i) { s with calls := s.calls.set i .holding, holder := some (.caller i) }
  | push {i : ℕ} (hcall : s.calls[i]? = some .holding) :
      Steps s (.push i) { s with
        engine := s.engine.register, calls := s.calls.set i (.pushed s.engine.feeds.length) }
  | release {i c : ℕ} (hcall : s.calls[i]? = some (.pushed c)) :
      Steps s (.release i) { s with calls := s.calls.set i (.released c), holder := none }
  | notify {i c : ℕ} (hcall : s.calls[i]? = some (.released c)) :
      Steps s (.notify i) { s with
        engine := s.engine.notifyAll, calls := s.calls.set i (.returned c) }
  | drain {c : ℕ} {engine : Engine F} (hact : s.engine.act (.drain c) = some engine) :
      Steps s (.drain c) { s with engine }
  | drop {c : ℕ} {engine : Engine F} (hact : s.engine.act (.drop c) = some engine) :
      Steps s (.drop c) { s with engine }
  | elapse (d : ℕ) : Steps s (.elapse d) { s with engine := s.engine.elapse d }
  | stop (hfree : s.holder = none) :
      Steps s .stop { s with engine := { s.engine with running := false }.notifyAll }

variable {s t : EngineThreads F}

/-- A step does one of these things. -/
theorem steps_of_step {move : ThreadMove F} (h : s.step move = some t) : Steps s move t := by
  cases move with
  | baseline =>
      simp only [step] at h
      split at h
      · rename_i hentry
        cases h
        exact .baseline hentry
      · cases h
  | read =>
      simp only [step] at h
      split at h
      · rename_i hentry
        cases h
        exact .read hentry
      · cases h
  | acquire =>
      simp only [step] at h
      split at h
      · rename_i hentry hsampler hfree
        cases h
        exact .acquire hentry hsampler hfree
      · cases h
  | choose =>
      simp only [step] at h
      split at h
      · rename_i hentry
        obtain ⟨hrunning, heq⟩ := Option.ite_none_right_eq_some.mp h
        cases heq
        exact .choose hentry hrunning
      · cases h
  | quit =>
      simp only [step] at h
      split at h
      · rename_i hentry
        obtain ⟨hrunning, heq⟩ := Option.ite_none_left_eq_some.mp h
        cases heq
        exact .quit hentry (Bool.eq_false_iff.mpr hrunning)
      · cases h
  | enterWait =>
      simp only [step] at h
      split at h
      · rename_i hentry
        cases h
        exact .enterWait hentry
      · cases h
  | sampler move =>
      simp only [step] at h
      split at h
      · cases h
      · rename_i hentry
        obtain ⟨hfree, hmap⟩ := Option.ite_none_right_eq_some.mp h
        obtain ⟨engine, hmove, rfl⟩ := Option.map_eq_some_iff.mp hmap
        exact .sampler hentry (by simp) (fun _ => hfree) hmove
      · rename_i hentry
        obtain ⟨hfree, hmap⟩ := Option.ite_none_right_eq_some.mp h
        obtain ⟨engine, hmove, rfl⟩ := Option.map_eq_some_iff.mp hmap
        exact .sampler hentry (by simp) (fun _ => hfree) hmove
      · rename_i hentry hwait hresume hlock
        obtain ⟨engine, hmove, rfl⟩ := Option.map_eq_some_iff.mp h
        refine .sampler hentry (fun heq => hwait heq) ?_ hmove
        rintro (heq | heq)
        · exact absurd heq hresume
        · exact absurd heq hlock
      · cases h
  | report =>
      simp only [step] at h
      split at h
      · rename_i hentry hfree
        cases h
        exact .report hentry hfree
      · cases h
  | call =>
      cases h
      exact .call
  | take i =>
      simp only [step] at h
      split at h
      · rename_i hcall hfree
        cases h
        exact .take hcall hfree
      · cases h
  | push i =>
      simp only [step] at h
      split at h
      · rename_i hcall
        cases h
        exact .push hcall
      · cases h
  | release i =>
      simp only [step] at h
      split at h
      · rename_i hcall
        cases h
        exact .release hcall
      · cases h
  | notify i =>
      simp only [step] at h
      split at h
      · rename_i hcall
        cases h
        exact .notify hcall
      · cases h
  | drain c =>
      obtain ⟨-, hmap⟩ := Option.ite_none_right_eq_some.mp h
      obtain ⟨engine, hact, rfl⟩ := Option.map_eq_some_iff.mp hmap
      exact .drain hact
  | drop c =>
      obtain ⟨-, hmap⟩ := Option.ite_none_right_eq_some.mp h
      obtain ⟨engine, hact, rfl⟩ := Option.map_eq_some_iff.mp hmap
      exact .drop hact
  | elapse d =>
      cases h
      exact .elapse d
  | stop =>
      simp only [step] at h
      split at h
      · rename_i hfree
        cases h
        exact .stop hfree
      · cases h

/-! ### Who holds the lock -/

/-- The sampler is where it holds the lock. -/
def samplerHolds (s : EngineThreads F) : Bool :=
  match s.entry with
  | .locked | .chosen _ => true
  | _ => s.engine.locked

end EngineThreads

/-- The call is where it holds the lock. -/
def Call.holds : Call → Bool
  | .holding | .pushed _ => true
  | _ => false

/-- Call `i` is. -/
def callerHolds (calls : List Call) (i : ℕ) : Bool := calls[i]?.any Call.holds

/-- Where the engine says that a sampler is which is outside of what it says. -/
def Entry.Places (sampler : Sampler F) : Entry → Prop
  | .looping => True
  | .reading fails => if fails then sampler = .top else ∃ sample, sampler = .sampled sample
  | .starting | .failed | .locked | .chosen _ => sampler = .top

theorem Entry.Places.top {sampler : Sampler F} {entry : Entry} (h : entry.Places sampler)
    (hlooping : entry ≠ .looping) (hreading : ∀ fails, entry ≠ .reading fails) :
    sampler = .top := by
  cases entry with
  | looping => exact absurd rfl hlooping
  | reading fails => exact absurd rfl (hreading fails)
  | starting | failed | locked | chosen => exact h

/-- A sampler that is outside of the loop does not wait. -/
theorem Entry.Places.not_waiting {sampler : Sampler F} {entry : Entry} (h : entry.Places sampler)
    (hlooping : entry ≠ .looping) (interval since : ℕ) : sampler ≠ .waiting interval since := by
  cases entry with
  | looping => exact absurd rfl hlooping
  | reading fails =>
      cases fails with
      | true =>
          have htop : sampler = .top := h
          simp [htop]
      | false =>
          obtain ⟨sample, rfl⟩ : ∃ sample, sampler = .sampled sample := h
          simp
  | starting | failed | locked | chosen =>
      have htop : sampler = .top := h
      simp [htop]

namespace EngineThreads

/-- **The lock is held by the thread that is where it holds the lock**, and the interval that the
sampler has chosen is still the right one. -/
structure Sound (s : EngineThreads F) : Prop where
  ordered : s.engine.Ordered
  place : s.entry.Places s.engine.sampler
  sampler : s.holder = some .sampler ↔ s.samplerHolds = true
  caller : ∀ i, s.holder = some (.caller i) ↔ callerHolds s.calls i = true
  chosen : ∀ interval, s.entry = .chosen interval → s.engine.running = true ∧
    interval = if s.engine.subscribers.isEmpty then IDLE_INTERVAL else LIVE_INTERVAL

variable {s t : EngineThreads F}

/-- **Never two threads are where they hold the lock.** -/
theorem Sound.exclusive (h : s.Sound) {i : ℕ} (hholds : callerHolds s.calls i = true) :
    s.samplerHolds = false ∧ ∀ j, callerHolds s.calls j = true → j = i := by
  have hholder := (h.caller i).mpr hholds
  constructor
  · rw [Bool.eq_false_iff]
    intro hsampler
    cases hholder.symm.trans (h.sampler.mpr hsampler)
  · intro j hholds'
    cases hholder.symm.trans ((h.caller j).mpr hholds')
    rfl

theorem Sound.samplerHolds_of_ne (h : s.Sound) (hholder : s.holder ≠ some .sampler) :
    s.samplerHolds = false :=
  Bool.eq_false_iff.mpr fun hsampler => hholder (h.sampler.mpr hsampler)

theorem locked_of_samplerHolds (h : s.samplerHolds = false) : s.engine.locked = false := by
  unfold samplerHolds at h
  split at h
  · cases h
  · cases h
  · exact h

theorem samplerHolds_looping (h : s.entry = .looping) : s.samplerHolds = s.engine.locked := by
  unfold samplerHolds
  rw [h]

theorem callerHolds_of_get {calls : List Call} {i : ℕ} {call : Call}
    (hcall : calls[i]? = some call) : callerHolds calls i = call.holds := by
  rw [callerHolds, hcall, Option.any_some]

/-- One call has moved. -/
theorem caller_set {calls : List Call} {holder holder' : Option Holder} {i : ℕ} {old call : Call}
    (h : ∀ j, holder = some (.caller j) ↔ callerHolds calls j = true)
    (hcall : calls[i]? = some old) (hself : holder' = some (.caller i) ↔ call.holds = true)
    (hothers : ∀ j, i ≠ j → (holder' = some (.caller j) ↔ holder = some (.caller j))) (j : ℕ) :
    holder' = some (.caller j) ↔ callerHolds (calls.set i call) j = true := by
  by_cases hij : i = j
  · subst hij
    have hlt := (List.getElem?_eq_some_iff.mp hcall).1
    rw [callerHolds_of_get (List.getElem?_set_self hlt)]
    exact hself
  · rw [callerHolds, List.getElem?_set_ne hij]
    exact (hothers j hij).trans (h j)

/-- A call has begun. -/
theorem callerHolds_append (calls : List Call) (i : ℕ) :
    callerHolds (calls ++ [.locking]) i = callerHolds calls i := by
  unfold callerHolds
  rcases Nat.lt_trichotomy i calls.length with hlt | rfl | hgt
  · rw [List.getElem?_append_left hlt]
  · rw [List.getElem?_concat_length, List.getElem?_eq_none (le_refl _)]
    rfl
  · rw [List.getElem?_eq_none hgt.le, List.getElem?_eq_none]
    rw [List.length_append, List.length_singleton]
    omega

/-- The sampler takes a free lock, or lets go of its own. -/
theorem caller_of_sampler {calls : List Call} {holder holder' : Option Holder}
    (h : ∀ j, holder = some (.caller j) ↔ callerHolds calls j = true)
    (hbefore : holder = none ∨ holder = some .sampler)
    (hafter : holder' = none ∨ holder' = some .sampler) (j : ℕ) :
    holder' = some (.caller j) ↔ callerHolds calls j = true := by
  rw [← h j]
  rcases hbefore with rfl | rfl
  · rcases hafter with rfl | rfl
    · exact Iff.rfl
    · simp
  · rcases hafter with rfl | rfl
    · simp
    · exact Iff.rfl

theorem sound_start : (start : EngineThreads F).Sound := by
  refine ⟨Engine.ordered_start, rfl, by simp [start, samplerHolds, Engine.locked,
    Engine.start], ?_, ?_⟩
  · intro i
    simp [start, callerHolds]
  · intro interval hentry
    cases hentry

/-- **Every step is one act of the engine, or none.**  Where the finer view does not look, the lock
sees to what the act asks for: nobody delivers while a sender is pushed, and nobody has subscribed
between the choice of the interval and the wait. -/
theorem act_of_step (h : s.Sound) {move : ThreadMove F} (hstep : s.step move = some t) :
    match move.act? with
    | none => t.engine = s.engine
    | some act => s.engine.act act = some t.engine := by
  cases steps_of_step hstep with
  | baseline | read | acquire | choose | report | call | take | release => rfl
  | quit hentry hrunning =>
      have htop := h.place.top (by simp [hentry]) (by simp [hentry])
      simp [ThreadMove.act?, Engine.act, Engine.move, htop, hrunning]
  | enterWait hentry =>
      have htop := h.place.top (by simp [hentry]) (by simp [hentry])
      obtain ⟨hrunning, hinterval⟩ := h.chosen _ hentry
      simp [ThreadMove.act?, Engine.act, Engine.move, htop, hrunning, hinterval]
  | sampler hentry hwait hfree hmove =>
      rename_i m engine
      have hengine : (s.moved engine m).engine = engine := by
        cases m <;> rfl
      rw [hengine]
      exact hmove
  | push hcall =>
      have hlocked := locked_of_samplerHolds (h.exclusive (callerHolds_of_get hcall)).1
      simp [ThreadMove.act?, Engine.act, Engine.subscribe, hlocked]
  | notify => rfl
  | drain hact => exact hact
  | drop hact => exact hact
  | elapse d => rfl
  | stop hfree =>
      have hlocked := locked_of_samplerHolds (h.samplerHolds_of_ne (by simp [hfree]))
      simp [ThreadMove.act?, Engine.act, Engine.stop, hlocked]

theorem ordered_step (h : s.Sound) {move : ThreadMove F} (hstep : s.step move = some t) :
    t.engine.Ordered := by
  have hact := act_of_step h hstep
  split at hact
  · rw [hact]
    exact h.ordered
  · exact h.ordered.act hact

/-- A channel is drained, or hung up. -/
theorem Sound.setChannel (h : s.Sound) {c : ℕ} {feed : Feed F}
    {channel : SyncChannel (ℕ × Sample F)}
    (hordered : (s.engine.setChannel c feed channel).Ordered) :
    Sound { s with engine := s.engine.setChannel c feed channel } :=
  ⟨hordered, h.place, h.sampler, h.caller, h.chosen⟩

/-- The sampler moves in its loop, and does with the lock what the engine says. -/
theorem sound_looping (hentry : s.entry = .looping) {engine : Engine F}
    {holder : Option Holder} (hordered : engine.Ordered)
    (hsampler : holder = some .sampler ↔ engine.locked = true)
    (hcaller : ∀ i, holder = some (.caller i) ↔ callerHolds s.calls i = true) :
    Sound { s with engine, holder } := by
  refine ⟨hordered, ?_, ?_, hcaller, ?_⟩
  · change s.entry.Places engine.sampler
    rw [hentry]
    trivial
  · rw [samplerHolds_looping (s := { s with engine, holder }) hentry]
    exact hsampler
  · intro interval heq
    cases hentry.symm.trans heq

/-- The sampler moves on outside of its loop, or enters it, and leaves the lock alone. -/
theorem Sound.enter (h : s.Sound) (entry : Entry) (reads : List PlatformRead)
    (hplace : entry.Places s.engine.sampler) (hbefore : s.samplerHolds = s.engine.locked)
    (hafter : samplerHolds { s with entry, reads } = s.engine.locked)
    (hchosen : ∀ interval, entry ≠ .chosen interval) : Sound { s with entry, reads } := by
  refine ⟨h.ordered, hplace, ?_, h.caller, fun interval heq => absurd heq (hchosen interval)⟩
  rw [hafter, ← hbefore]
  exact h.sampler

/-- The sampler lets go of the lock. -/
theorem Sound.letGo (h : s.Sound) (hholds : s.samplerHolds = true) {engine : Engine F}
    (hordered : engine.Ordered) (hlocked : engine.locked = false) :
    Sound { s with engine, entry := .looping, holder := none } := by
  refine ⟨hordered, trivial, ?_, ?_, fun _ heq => by cases heq⟩
  · rw [samplerHolds_looping (s := { s with engine, entry := .looping, holder := none }) rfl,
      hlocked]
    simp
  · exact caller_of_sampler h.caller (.inr (h.sampler.mpr hholds)) (.inl rfl)

/-- The sampler is notified, by a thread without the lock. -/
theorem Sound.notified (h : s.Sound) {engine : Engine F} {calls : List Call}
    (hordered : engine.notifyAll.Ordered) (hsampler : engine.sampler = s.engine.sampler)
    (hsubscribers : engine.subscribers = s.engine.subscribers)
    (hrunning : ∀ interval, s.entry = .chosen interval → engine.running = true)
    (hcaller : ∀ i, s.holder = some (.caller i) ↔ callerHolds calls i = true) :
    Sound { s with engine := engine.notifyAll, calls } := by
  obtain ⟨hrunning', hsubscribers', -⟩ := engine.notifyAll_same
  refine ⟨hordered, ?_, ?_, hcaller, fun interval hentry => ?_⟩
  · by_cases hlooping : s.entry = .looping
    · change s.entry.Places engine.notifyAll.sampler
      rw [hlooping]
      trivial
    · have hplace : s.entry.Places engine.sampler := hsampler ▸ h.place
      have hsame := Engine.notifyAll_of_not_waiting (hplace.not_waiting hlooping)
      exact hsame.symm ▸ hplace
  · have hlocked : engine.notifyAll.locked = s.engine.locked := by
      rw [Engine.locked_notifyAll, Engine.locked, Engine.locked, hsampler]
    have hholds : samplerHolds { s with engine := engine.notifyAll, calls } = s.samplerHolds := by
      simp only [samplerHolds, hlocked]
    rw [hholds]
    exact h.sampler
  · rw [hrunning', hsubscribers', hsubscribers]
    exact ⟨hrunning interval hentry, (h.chosen interval hentry).2⟩

/-- **Every step keeps the lock with the thread that holds it.** -/
theorem Sound.step (h : s.Sound) {move : ThreadMove F} (hstep : s.step move = some t) :
    t.Sound := by
  have hordered := ordered_step h hstep
  cases steps_of_step hstep with
  | baseline hentry =>
      exact h.enter .looping _ trivial (by simp [samplerHolds, hentry]) rfl (by simp)
  | read hentry =>
      rename_i fails
      have hplace := h.place
      rw [hentry] at hplace
      have hbefore : s.samplerHolds = s.engine.locked := by
        simp [samplerHolds, hentry]
      cases fails with
      | true => exact h.enter .failed _ hplace hbefore rfl (by simp)
      | false => exact h.enter .looping _ trivial hbefore rfl (by simp)
  | acquire hentry hsampler hfree =>
      refine ⟨hordered, hsampler, iff_of_true rfl rfl, ?_, fun _ heq => by cases heq⟩
      exact caller_of_sampler h.caller (.inl hfree) (.inr rfl)
  | choose hentry hrunning =>
      have htop := h.place.top (by simp [hentry]) (by simp [hentry])
      refine ⟨hordered, htop, iff_of_true ?_ rfl, h.caller, ?_⟩
      · exact h.sampler.mpr (by simp [samplerHolds, hentry])
      · intro interval heq
        cases heq
        exact ⟨hrunning, rfl⟩
  | quit hentry => exact h.letGo (by simp [samplerHolds, hentry]) hordered rfl
  | enterWait hentry => exact h.letGo (by simp [samplerHolds, hentry]) hordered rfl
  | sampler hentry hwait hfree hmove =>
      have hsampler := h.sampler
      rw [samplerHolds_looping hentry] at hsampler
      cases Engine.moves_of_move hmove with
      | wait | quit => exact absurd rfl hwait
      | timeout hsampler' | spurious hsampler' | resume hsampler' | leave hsampler'
      | trySend hsampler' | retained hsampler' =>
          rw [Engine.locked, hsampler'] at hsampler
          exact sound_looping hentry hordered hsampler h.caller
      | sample hsampler' =>
          rw [Engine.locked, hsampler'] at hsampler
          exact ⟨hordered, ⟨_, rfl⟩, hsampler, h.caller, fun _ heq => by cases heq⟩
      | fail hsampler' =>
          rw [Engine.locked, hsampler'] at hsampler
          exact ⟨hordered, rfl, hsampler, h.caller, fun _ heq => by cases heq⟩
      | lock hsampler' =>
          refine sound_looping hentry hordered (iff_of_true rfl rfl) ?_
          exact caller_of_sampler h.caller (.inl (hfree (.inr rfl))) (.inr rfl)
      | store hsampler' =>
          have hholder := hsampler.mpr (by simp [Engine.locked, hsampler'])
          refine sound_looping hentry hordered (iff_of_false (by simp) Bool.noConfusion) ?_
          exact caller_of_sampler h.caller (.inr hholder) (.inl rfl)
  | report hentry =>
      exact h.enter .looping _ trivial (by simp [samplerHolds, hentry]) rfl (by simp)
  | call =>
      refine ⟨hordered, h.place, h.sampler, fun i => ?_, h.chosen⟩
      rw [callerHolds_append]
      exact h.caller i
  | take hcall hfree =>
      have hsampler := h.samplerHolds_of_ne (by simp [hfree])
      have hunheld := Bool.eq_false_iff.mp hsampler
      refine ⟨hordered, h.place, iff_of_false (by simp) hunheld, ?_, h.chosen⟩
      refine caller_set h.caller hcall (iff_of_true rfl rfl) fun j hij => ?_
      simp [hfree, hij]
  | push hcall =>
      have hholds := callerHolds_of_get hcall
      obtain ⟨hsampler, -⟩ := h.exclusive hholds
      refine ⟨hordered, h.place, h.sampler, ?_, ?_⟩
      · exact caller_set h.caller hcall (iff_of_true ((h.caller _).mpr hholds) rfl) fun j _ =>
          Iff.rfl
      · intro interval hentry
        have hentry' : s.entry = .chosen interval := hentry
        simp [samplerHolds, hentry'] at hsampler
  | release hcall =>
      have hholds := callerHolds_of_get hcall
      have hholder := (h.caller _).mpr hholds
      obtain ⟨hsampler, -⟩ := h.exclusive hholds
      have hunheld := Bool.eq_false_iff.mp hsampler
      refine ⟨hordered, h.place, iff_of_false (by simp) hunheld, ?_, h.chosen⟩
      refine caller_set h.caller hcall (iff_of_false (by simp) Bool.noConfusion) fun j hij => ?_
      simp [hholder, hij]
  | notify hcall =>
      rename_i i c
      have hself := h.caller i
      rw [callerHolds_of_get hcall] at hself
      refine h.notified hordered rfl rfl (fun interval hentry => (h.chosen interval hentry).1) ?_
      exact caller_set h.caller hcall hself fun j _ => Iff.rfl
  | drain hact =>
      obtain ⟨feed, channel, rfl⟩ := Engine.setChannel_of_act (.inl hact)
      exact h.setChannel hordered
  | drop hact =>
      obtain ⟨feed, channel, rfl⟩ := Engine.setChannel_of_act (.inr hact)
      exact h.setChannel hordered
  | elapse d => exact ⟨hordered, h.place, h.sampler, h.caller, h.chosen⟩
  | stop hfree =>
      refine h.notified hordered rfl rfl (fun interval hentry => ?_) h.caller
      have hholder := h.sampler.mpr (by simp [samplerHolds, hentry])
      cases hfree.symm.trans hholder

theorem sound_of_run {moves : List (ThreadMove F)}
    (hrun : Transition.run EngineThreads.step .start moves = some s) : s.Sound :=
  Transition.run_keeps (fun _ _ _ h hstep => Sound.step h hstep) sound_start hrun

/-- **Every run of the threads is a run of the engine.** -/
theorem acts_of_run {moves : List (ThreadMove F)}
    (hrun : Transition.run EngineThreads.step s moves = some t) (h : s.Sound) :
    Transition.run Engine.act s.engine (moves.filterMap ThreadMove.act?) = some t.engine := by
  induction moves generalizing s with
  | nil =>
      cases hrun
      rfl
  | cons move moves ih =>
      obtain ⟨u, hstep, hrun⟩ := Transition.run_cons_eq_some.mp hrun
      have hact := act_of_step h hstep
      have hrest := ih hrun (h.step hstep)
      cases hmove : move.act? with
      | none =>
          rw [hmove] at hact
          rw [List.filterMap_cons_none hmove, ← hact]
          exact hrest
      | some act =>
          rw [hmove] at hact
          rw [List.filterMap_cons_some hmove]
          exact Transition.run_cons_eq_some.mpr ⟨u.engine, hact, hrest⟩

end EngineThreads

end Osprey
