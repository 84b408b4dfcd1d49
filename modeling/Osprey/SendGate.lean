/-
**One seal and one write at a time.**

`SendGate.swift`, and `send` of `NoiseSession.swift` with `seal` of `NoiseChannel.swift` under it.
A call that enters the gate makes two tasks and becomes the gate's tail: one that waits for the tail
it found and then seals and writes, and one that waits for the first and forgets its result.  The
gate, the channel and the stream are three isolation domains, so each of these steps is a move of
its own, and the calls' moves come in any order; so do the calls with which a receiver reads the
channel.

The tasks of a call have its number.  `seals`, `writes` and `ends` say what the channel answered to
`seal`, which buffers the stream was handed, and how its writes came back, in their order; no branch
of the code reads them.

Main definitions:

* `Osprey.SendSystem`, `Osprey.SendMove`, `Osprey.SendSystem.step` — gate, channel and tasks;
* `Osprey.SendSystem.Moves` — what a move can do;
* `Osprey.SendSystem.Ordered`, `Osprey.SendSystem.Logged` — what holds along every run.

Main results:

* `Osprey.SendSystem.Ordered.moves`, `Osprey.SendSystem.Logged.moves` — every move keeps them;
* `Osprey.sends_in_order` — **buffers reach the stream in the order in which they were sealed, and
  every call gets the result of its own operation**.
-/

import Osprey.PhoneSession
import Osprey.Transition

set_option relaxedAutoImplicit false
set_option autoImplicit false

namespace Osprey

/-! ### The gate and its tasks -/

/-- What `send` can throw: what the channel throws, or what the stream does. -/
inductive SendError (E : Type)
  | channel (error : NoiseChannelError)
  | stream (error : E)
  deriving DecidableEq

/-- Where the first task of a call is. -/
inductive SendPhase (E : Type)
  /-- `await predecessor?.value`. -/
  | waiting
  /-- About to seal. -/
  | sealing
  /-- About to write what it sealed. -/
  | sealed (buffer : Bytes)
  | writing (buffer : Bytes)
  | finished (result : Except (SendError E) Unit)
  deriving DecidableEq

/-- A call in the gate: the tail that it found, its first task, whether its second task has
completed, and what it has returned. -/
structure SendTask (E : Type) where
  payload : Bytes
  predecessor : Option ℕ
  phase : SendPhase E
  completed : Bool
  returned : Option (Except (SendError E) Unit)
  deriving DecidableEq

structure SendSystem (H T E : Type) where
  channel : NoiseChannel H T
  tail : Option ℕ
  tasks : List (SendTask E)
  seals : List (ℕ × Except NoiseChannelError Bytes)
  writes : List (ℕ × Bytes)
  ends : List (ℕ × Except E Unit)

variable {H T E : Type}

namespace SendSystem

def initial (channel : NoiseChannel H T) : SendSystem H T E := ⟨channel, none, [], [], [], []⟩

/-- `serialized`, up to the `await` of its own result. -/
def serialized (s : SendSystem H T E) (payload : Bytes) : SendSystem H T E :=
  { s with
    tail := some s.tasks.length
    tasks := s.tasks ++ [⟨payload, s.tail, .waiting, false, none⟩] }

/-- The tail that a call found has completed. -/
def hasCompleted (s : SendSystem H T E) : Option ℕ → Bool
  | none => true
  | some k => s.tasks[k]?.any (·.completed)

/-- The first task of a call moves on. -/
def enter (s : SendSystem H T E) (i : ℕ) (phase : SendPhase E) : SendSystem H T E :=
  { s with tasks := s.tasks.modify i fun task => { task with phase } }

/-- The predecessor has completed, and the operation begins. -/
def begin (s : SendSystem H T E) (i : ℕ) : Option (SendSystem H T E) :=
  match s.tasks[i]? with
  | some ⟨_, predecessor, .waiting, _, _⟩ =>
      if s.hasCompleted predecessor then some (s.enter i .sealing) else none
  | _ => none

/-- `channel.seal(payload)`. -/
def sealPayload (snow : SnowTransport T) (s : SendSystem H T E) (i : ℕ) :
    Option (SendSystem H T E) :=
  match s.tasks[i]? with
  | some ⟨payload, _, .sealing, _, _⟩ =>
      match s.channel.sealPayload snow payload with
      | (.ok buffer, channel) =>
          some { s.enter i (.sealed buffer) with
            channel
            seals := s.seals ++ [(i, .ok buffer)] }
      | (.error error, channel) =>
          some { s.enter i (.finished (.error (.channel error))) with
            channel
            seals := s.seals ++ [(i, .error error)] }
  | _ => none

/-- `stream.write` is handed what was sealed. -/
def write (s : SendSystem H T E) (i : ℕ) : Option (SendSystem H T E) :=
  match s.tasks[i]? with
  | some ⟨_, _, .sealed buffer, _, _⟩ =>
      some { s.enter i (.writing buffer) with writes := s.writes ++ [(i, buffer)] }
  | _ => none

/-- `stream.write` returns or throws, and with it the operation. -/
def written (s : SendSystem H T E) (i : ℕ) (outcome : Except E Unit) :
    Option (SendSystem H T E) :=
  match s.tasks[i]? with
  | some ⟨_, _, .writing _, _, _⟩ =>
      some { s.enter i (.finished (outcome.mapError .stream)) with
        ends := s.ends ++ [(i, outcome)] }
  | _ => none

/-- The second task of a call: `_ = await result.value`. -/
def complete (s : SendSystem H T E) (i : ℕ) : Option (SendSystem H T E) :=
  match s.tasks[i]? with
  | some ⟨_, _, .finished _, _, _⟩ =>
      some { s with tasks := s.tasks.modify i fun task => { task with completed := true } }
  | _ => none

/-- `try await result.value.get()`. -/
def get (s : SendSystem H T E) (i : ℕ) : Option (SendSystem H T E) :=
  match s.tasks[i]? with
  | some ⟨_, _, .finished result, _, none⟩ =>
      some { s with tasks := s.tasks.modify i fun task => { task with returned := some result } }
  | _ => none

end SendSystem

/-- What can happen next: a call enters the gate, one of its tasks or the stream moves, or a
receiver uses the channel. -/
inductive SendMove (E : Type)
  | serialized (payload : Bytes)
  | begin (i : ℕ)
  | sealPayload (i : ℕ)
  | write (i : ℕ)
  | written (i : ℕ) (outcome : Except E Unit)
  | complete (i : ℕ)
  | get (i : ℕ)
  | push (data : Bytes)
  | nextMessage

namespace SendSystem

def step (snow : SnowTransport T) (s : SendSystem H T E) : SendMove E → Option (SendSystem H T E)
  | .serialized payload => some (s.serialized payload)
  | .begin i => s.begin i
  | .sealPayload i => s.sealPayload snow i
  | .write i => s.write i
  | .written i outcome => s.written i outcome
  | .complete i => s.complete i
  | .get i => s.get i
  | .push data => some { s with channel := (s.channel.push data).2 }
  | .nextMessage => some { s with channel := (s.channel.nextMessage snow).2 }

/-! ### What a move does -/

inductive Moves (s : SendSystem H T E) : SendSystem H T E → Prop
  | serialized (payload : Bytes) : Moves s (s.serialized payload)
  | began (i : ℕ) (task : SendTask E) (htask : s.tasks[i]? = some task)
      (hphase : task.phase = .waiting) (hcompleted : s.hasCompleted task.predecessor) :
      Moves s (s.enter i .sealing)
  | sealed (i : ℕ) (task : SendTask E) (buffer : Bytes) (channel : NoiseChannel H T)
      (htask : s.tasks[i]? = some task) (hphase : task.phase = .sealing) :
      Moves s { s.enter i (.sealed buffer) with
        channel
        seals := s.seals ++ [(i, .ok buffer)] }
  | refused (i : ℕ) (task : SendTask E) (error : NoiseChannelError) (channel : NoiseChannel H T)
      (htask : s.tasks[i]? = some task) (hphase : task.phase = .sealing) :
      Moves s { s.enter i (.finished (.error (.channel error))) with
        channel
        seals := s.seals ++ [(i, .error error)] }
  | wrote (i : ℕ) (task : SendTask E) (buffer : Bytes) (htask : s.tasks[i]? = some task)
      (hphase : task.phase = .sealed buffer) :
      Moves s { s.enter i (.writing buffer) with writes := s.writes ++ [(i, buffer)] }
  | ended (i : ℕ) (task : SendTask E) (buffer : Bytes) (outcome : Except E Unit)
      (htask : s.tasks[i]? = some task) (hphase : task.phase = .writing buffer) :
      Moves s { s.enter i (.finished (outcome.mapError .stream)) with
        ends := s.ends ++ [(i, outcome)] }
  | completed (i : ℕ) (task : SendTask E) (result) (htask : s.tasks[i]? = some task)
      (hphase : task.phase = .finished result) :
      Moves s { s with tasks := s.tasks.modify i fun task => { task with completed := true } }
  | returned (i : ℕ) (task : SendTask E) (result) (htask : s.tasks[i]? = some task)
      (hphase : task.phase = .finished result) :
      Moves s { s with tasks := s.tasks.modify i fun task => { task with returned := some result } }
  | received (channel : NoiseChannel H T) : Moves s { s with channel }

theorem moves_of_step {snow : SnowTransport T} {s t : SendSystem H T E} {move : SendMove E}
    (h : s.step snow move = some t) : s.Moves t := by
  cases move with
  | serialized payload =>
      cases h
      exact .serialized payload
  | begin i =>
      simp only [step, begin] at h
      split at h
      · rename_i htask
        split at h
        · rename_i hcompleted
          cases h
          exact .began i _ htask rfl hcompleted
        · cases h
      · cases h
  | sealPayload i =>
      simp only [step, sealPayload] at h
      split at h
      · rename_i htask
        split at h
        · cases h
          exact .sealed i _ _ _ htask rfl
        · cases h
          exact .refused i _ _ _ htask rfl
      · cases h
  | write i =>
      simp only [step, write] at h
      split at h
      · rename_i htask
        cases h
        exact .wrote i _ _ htask rfl
      · cases h
  | written i outcome =>
      simp only [step, written] at h
      split at h
      · rename_i htask
        cases h
        exact .ended i _ _ outcome htask rfl
      · cases h
  | complete i =>
      simp only [step, complete] at h
      split at h
      · rename_i htask
        cases h
        exact .completed i _ _ htask rfl
      · cases h
  | get i =>
      simp only [step, get] at h
      split at h
      · rename_i htask
        cases h
        exact .returned i _ _ htask rfl
      · cases h
  | push data =>
      cases h
      exact .received _
  | nextMessage =>
      cases h
      exact .received _

/-! ### The chain -/

/-- The number before, which a call's predecessor has. -/
def before : ℕ → Option ℕ
  | 0 => none
  | n + 1 => some n

/-- What makes the gate a queue: every call waits for the one that entered before it, and has not
begun unless all earlier ones are over. -/
structure Ordered (s : SendSystem H T E) : Prop where
  tail : s.tail = before s.tasks.length
  predecessor : ∀ (i : ℕ) task, s.tasks[i]? = some task → task.predecessor = before i
  completed : ∀ (i : ℕ) task, s.tasks[i]? = some task → task.completed →
    ∃ result, task.phase = .finished result
  chain : ∀ (i j : ℕ) before task, i < j → s.tasks[i]? = some before → s.tasks[j]? = some task →
    task.phase ≠ .waiting → before.completed

theorem ordered_initial (channel : NoiseChannel H T) :
    (initial channel : SendSystem H T E).Ordered where
  tail := rfl
  predecessor i task h := by simp [initial] at h
  completed i task h := by simp [initial] at h
  chain i j _ task _ h := by simp [initial] at h

/-- A move of one call that is no longer waiting keeps the chain. -/
theorem Ordered.modify {s t : SendSystem H T E} (hs : s.Ordered) {i : ℕ} {task : SendTask E}
    {f : SendTask E → SendTask E} (htask : s.tasks[i]? = some task)
    (hphase : task.phase ≠ .waiting) (htail : t.tail = s.tail)
    (htasks : t.tasks = s.tasks.modify i f) (hpredecessor : (f task).predecessor = task.predecessor)
    (hmono : task.completed → (f task).completed)
    (hcompleted : (f task).completed → ∃ result, (f task).phase = .finished result) :
    t.Ordered := by
  refine ⟨?_, ?_, ?_, ?_⟩
  · rw [htail, htasks, List.length_modify]
    exact hs.tail
  · rw [htasks]
    refine Transition.forall_modify hs.predecessor ?_
    intro task' htask'
    cases htask.symm.trans htask'
    rw [hpredecessor]
    exact hs.predecessor i task htask
  · rw [htasks]
    refine Transition.forall_modify hs.completed ?_
    intro task' htask'
    cases htask.symm.trans htask'
    exact hcompleted
  · rw [htasks]
    intro j k first second hlt hfirst hsecond hstarted
    -- whichever of the two has moved, what its phase says about the chain was true before
    have hold : ∃ second', s.tasks[k]? = some second' ∧ second'.phase ≠ .waiting := by
      rcases Transition.getElem?_modify_cases hsecond with ⟨-, hsame⟩ | ⟨rfl, second', hsecond', -⟩
      · exact ⟨second, hsame, hstarted⟩
      · cases htask.symm.trans hsecond'
        exact ⟨task, htask, hphase⟩
    obtain ⟨second', hsecond', hstarted'⟩ := hold
    rcases Transition.getElem?_modify_cases hfirst with ⟨-, hsame⟩ | ⟨rfl, first', hfirst', rfl⟩
    · exact hs.chain j k first second' hlt hsame hsecond' hstarted'
    · cases htask.symm.trans hfirst'
      exact hmono (hs.chain i k task second' hlt htask hsecond' hstarted')

/-- A call that has been found completed is over, and so are all before it. -/
theorem Ordered.completed_before {s : SendSystem H T E} (hs : s.Ordered) {i j : ℕ}
    {first task : SendTask E} (hlt : i < j) (hfirst : s.tasks[i]? = some first)
    (htask : s.tasks[j]? = some task) (h : s.hasCompleted task.predecessor) : first.completed := by
  rw [hs.predecessor j task htask] at h
  cases j with
  | zero => exact absurd hlt (Nat.not_lt_zero i)
  | succ k =>
      obtain ⟨previous, hprevious, hcompleted⟩ := (Option.any_eq_true _ _).mp h
      rcases Nat.lt_succ_iff_lt_or_eq.mp hlt with hik | rfl
      · obtain ⟨result, hresult⟩ := hs.completed k previous hprevious hcompleted
        exact hs.chain i k first previous hik hfirst hprevious (by simp [hresult])
      · cases hfirst.symm.trans hprevious
        exact hcompleted

/-- A phase that is not the last, of a call that goes on, is that of a call that has not
completed. -/
theorem Ordered.not_completed {s : SendSystem H T E} (hs : s.Ordered) {i : ℕ} {task : SendTask E}
    (htask : s.tasks[i]? = some task) (h : ∀ result, task.phase ≠ .finished result) :
    ¬task.completed := by
  intro hcompleted
  obtain ⟨result, hresult⟩ := hs.completed i task htask hcompleted
  exact h result hresult

/-- **Every move keeps the chain.** -/
theorem Ordered.moves {s t : SendSystem H T E} (hs : s.Ordered) (h : s.Moves t) : t.Ordered := by
  cases h with
  | serialized payload =>
      have hlookup : ∀ {j : ℕ} {entry}, (s.tasks ++ [⟨payload, s.tail, .waiting, false, none⟩])[j]?
          = some entry → s.tasks[j]? = some entry ∨
            (j = s.tasks.length ∧ entry = ⟨payload, s.tail, .waiting, false, none⟩) := by
        intro j entry hentry
        rw [List.getElem?_append] at hentry
        split at hentry
        · exact Or.inl hentry
        · have hlt := (List.getElem?_eq_some_iff.mp hentry).1
          have hmem := List.mem_singleton.mp (List.mem_of_getElem? hentry)
          simp only [List.length_singleton] at hlt
          exact Or.inr ⟨by omega, hmem⟩
      refine ⟨?_, ?_, ?_, ?_⟩
      · simp [SendSystem.serialized, before]
      · intro j entry hentry
        rcases hlookup hentry with hold | ⟨rfl, rfl⟩
        · exact hs.predecessor j entry hold
        · exact hs.tail
      · intro j entry hentry hcompleted
        rcases hlookup hentry with hold | ⟨rfl, rfl⟩
        · exact hs.completed j entry hold hcompleted
        · cases hcompleted
      · intro j k first second hlt hfirst hsecond hstarted
        rcases hlookup hsecond with hold | ⟨rfl, rfl⟩
        · have hk := (List.getElem?_eq_some_iff.mp hold).1
          rcases hlookup hfirst with hold' | ⟨rfl, -⟩
          · exact hs.chain j k first second hlt hold' hold hstarted
          · omega
        · exact absurd rfl hstarted
  | began i task htask hphase hcompleted =>
      have hnot := hs.not_completed htask (by simp [hphase])
      refine ⟨?_, ?_, ?_, ?_⟩
      · simpa [enter] using hs.tail
      · refine Transition.forall_modify hs.predecessor ?_
        intro task' htask'
        exact hs.predecessor i task' htask'
      · refine Transition.forall_modify hs.completed ?_
        intro task' htask' hcompleted'
        cases htask.symm.trans htask'
        exact absurd hcompleted' hnot
      · intro j k first second hlt hfirst hsecond hstarted
        rcases Transition.getElem?_modify_cases hfirst with
          ⟨-, hfirst⟩ | ⟨rfl, first', hfirst', rfl⟩
        · rcases Transition.getElem?_modify_cases hsecond with ⟨-, hsecond⟩ | ⟨rfl, -⟩
          · exact hs.chain j k first second hlt hfirst hsecond hstarted
          · exact hs.completed_before hlt hfirst htask hcompleted
        · cases htask.symm.trans hfirst'
          rcases Transition.getElem?_modify_cases hsecond with ⟨-, hsecond⟩ | ⟨rfl, -⟩
          · exact absurd (hs.chain i k task second hlt htask hsecond hstarted) hnot
          · exact absurd hlt (Nat.lt_irrefl i)
  | sealed i task buffer channel htask hphase =>
      have hnot := hs.not_completed htask (by simp [hphase])
      exact hs.modify htask (by simp [hphase]) rfl rfl rfl id (fun h => absurd h hnot)
  | refused i task error channel htask hphase =>
      exact hs.modify htask (by simp [hphase]) rfl rfl rfl id (fun _ => ⟨_, rfl⟩)
  | wrote i task buffer htask hphase =>
      have hnot := hs.not_completed htask (by simp [hphase])
      exact hs.modify htask (by simp [hphase]) rfl rfl rfl id (fun h => absurd h hnot)
  | ended i task buffer outcome htask hphase =>
      exact hs.modify htask (by simp [hphase]) rfl rfl rfl id (fun _ => ⟨_, rfl⟩)
  | completed i task result htask hphase =>
      exact hs.modify htask (by simp [hphase]) rfl rfl rfl (fun _ => rfl)
        (fun _ => ⟨result, hphase⟩)
  | returned i task result htask hphase =>
      exact hs.modify htask (by simp [hphase]) rfl rfl rfl id (fun _ => ⟨result, hphase⟩)
  | received channel => exact ⟨hs.tail, hs.predecessor, hs.completed, hs.chain⟩

end SendSystem

/-- The operation has begun and is not over. -/
def SendPhase.Running : SendPhase E → Prop
  | .waiting | .finished _ => False
  | .sealing | .sealed _ | .writing _ => True

namespace SendSystem

/-- Whoever began later finds everyone before it over. -/
theorem Ordered.finished_before {s : SendSystem H T E} (hs : s.Ordered) {i j : ℕ}
    {first second : SendTask E} (hlt : i < j) (hfirst : s.tasks[i]? = some first)
    (hsecond : s.tasks[j]? = some second) (hstarted : second.phase ≠ .waiting) :
    ∃ result, first.phase = .finished result :=
  hs.completed i first hfirst (hs.chain i j first second hlt hfirst hsecond hstarted)

theorem running_ne {phase : SendPhase E} (h : phase.Running) :
    phase ≠ .waiting ∧ ∀ result, phase ≠ .finished result := by
  constructor
  · rintro rfl
    exact h
  · rintro result rfl
    exact h

/-- **One operation at a time.** -/
theorem Ordered.running_unique {s : SendSystem H T E} (hs : s.Ordered) {i j : ℕ}
    {first second : SendTask E} (hfirst : s.tasks[i]? = some first)
    (hsecond : s.tasks[j]? = some second) (hrunning : first.phase.Running)
    (hrunning' : second.phase.Running) : i = j := by
  rcases Nat.lt_trichotomy i j with hlt | heq | hgt
  · obtain ⟨result, hresult⟩ := hs.finished_before hlt hfirst hsecond (running_ne hrunning').1
    exact absurd hresult ((running_ne hrunning).2 result)
  · exact heq
  · obtain ⟨result, hresult⟩ := hs.finished_before hgt hsecond hfirst (running_ne hrunning).1
    exact absurd hresult ((running_ne hrunning').2 result)

end SendSystem

/-! ### What has been sealed, written and returned -/

/-- How far an operation has come. -/
def SendPhase.rank : SendPhase E → ℕ
  | .waiting => 0
  | .sealing => 1
  | .sealed _ => 2
  | .writing _ => 3
  | .finished _ => 4

namespace SendSystem

/-- The buffers that the channel produced, in the order in which it did, and whose they are. -/
def sealedBuffers (s : SendSystem H T E) : List (ℕ × Bytes) :=
  s.seals.filterMap fun entry => entry.2.toOption.map fun buffer => (entry.1, buffer)

/-- The result is that of call `i`'s own operation: what its seal threw, or what its own write of
what it sealed came to. -/
def OwnResult (s : SendSystem H T E) (i : ℕ) (result : Except (SendError E) Unit) : Prop :=
  (∃ error, (i, .error error) ∈ s.seals ∧ result = .error (.channel error)) ∨
    ∃ buffer outcome, (i, .ok buffer) ∈ s.seals ∧ (i, buffer) ∈ s.writes ∧ (i, outcome) ∈ s.ends ∧
      result = outcome.mapError .stream

/-- What call `i` holds is its own. -/
def Own (s : SendSystem H T E) (i : ℕ) : SendPhase E → Prop
  | .waiting | .sealing => True
  | .sealed buffer => (i, .ok buffer) ∈ s.seals
  | .writing buffer => (i, .ok buffer) ∈ s.seals ∧ (i, buffer) ∈ s.writes
  | .finished result => s.OwnResult i result

/-- What a call holds stays its own as the logs grow. -/
theorem Own.mono {s t : SendSystem H T E} {i : ℕ} {phase : SendPhase E} (h : s.Own i phase)
    (hseals : s.seals ⊆ t.seals) (hwrites : s.writes ⊆ t.writes) (hends : s.ends ⊆ t.ends) :
    t.Own i phase := by
  cases phase with
  | waiting => trivial
  | sealing => trivial
  | sealed buffer => exact hseals h
  | writing buffer => exact ⟨hseals h.1, hwrites h.2⟩
  | finished result =>
      rcases h with ⟨error, hsealed, hresult⟩ | ⟨buffer, outcome, hsealed, hwritten, hended,
        hresult⟩
      · exact Or.inl ⟨error, hseals hsealed, hresult⟩
      · exact Or.inr ⟨buffer, outcome, hseals hsealed, hwrites hwritten, hends hended, hresult⟩

/-- A move of call `i`: the logs grow, `i` comes further and holds what is its own. -/
structure Advances (s t : SendSystem H T E) (i : ℕ) (task : SendTask E)
    (f : SendTask E → SendTask E) : Prop where
  htask : s.tasks[i]? = some task
  tasks : t.tasks = s.tasks.modify i f
  rank : task.phase.rank ≤ (f task).phase.rank
  seals : s.seals ⊆ t.seals
  writes : s.writes ⊆ t.writes
  ends : s.ends ⊆ t.ends
  own : t.Own i (f task).phase
  returned : ∀ result, (f task).returned = some result → (f task).phase = .finished result

theorem Advances.past {s t : SendSystem H T E} {i : ℕ} {task : SendTask E} {f}
    (h : s.Advances t i task f) {j n : ℕ}
    (hpast : ∃ other : SendTask E, s.tasks[j]? = some other ∧ n ≤ other.phase.rank) :
    ∃ other : SendTask E, t.tasks[j]? = some other ∧ n ≤ other.phase.rank := by
  obtain ⟨other, hother, hle⟩ := hpast
  rw [h.tasks]
  by_cases hij : i = j
  · subst hij
    cases h.htask.symm.trans hother
    exact ⟨f task, by rw [List.getElem?_modify_eq, h.htask]; rfl, hle.trans h.rank⟩
  · exact ⟨other, by rw [List.getElem?_modify_ne _ _ hij, hother], hle⟩

theorem Advances.moved {s t : SendSystem H T E} {i : ℕ} {task : SendTask E} {f}
    (h : s.Advances t i task f) : t.tasks[i]? = some (f task) := by
  rw [h.tasks, List.getElem?_modify_eq, h.htask]
  rfl

/-- A call's entry is later than all others in a log of those that have come as far. -/
theorem Ordered.lt_of_past {s : SendSystem H T E} (hs : s.Ordered) {i j n : ℕ} {task : SendTask E}
    (htask : s.tasks[i]? = some task) (hn : n ≤ 4) (hrank : task.phase.rank < n)
    (hpast : ∃ other : SendTask E, s.tasks[j]? = some other ∧ n ≤ other.phase.rank) : j < i := by
  obtain ⟨other, hother, hle⟩ := hpast
  have hstarted : other.phase ≠ .waiting := by
    intro hwaiting
    rw [hwaiting] at hle
    simp only [SendPhase.rank] at hle
    omega
  rcases Nat.lt_trichotomy i j with hlt | rfl | hgt
  · obtain ⟨result, hresult⟩ := hs.finished_before hlt htask hother hstarted
    rw [hresult] at hrank
    simp only [SendPhase.rank] at hrank
    omega
  · cases htask.symm.trans hother
    omega
  · exact hgt

/-- A log that is sorted stays so when a later entry is appended. -/
theorem sorted_append {α : Type} {log : List (ℕ × α)} {entry : ℕ × α}
    (hlog : (log.map Prod.fst).Pairwise (· < ·)) (hlast : ∀ other ∈ log, other.1 < entry.1) :
    ((log ++ [entry]).map Prod.fst).Pairwise (· < ·) := by
  rw [List.map_append, List.pairwise_append]
  refine ⟨hlog, List.pairwise_singleton _ _, ?_⟩
  intro a ha b hb
  obtain ⟨other, hother, rfl⟩ := List.mem_map.mp ha
  rw [List.mem_singleton.mp hb]
  exact hlast other hother

/-- A log of the calls that have come as far as `n`: it is sorted, and they have. -/
def Log (s : SendSystem H T E) (n : ℕ) {α : Type} (log : List (ℕ × α)) : Prop :=
  (log.map Prod.fst).Pairwise (· < ·) ∧
    ∀ entry ∈ log, ∃ task : SendTask E, s.tasks[entry.1]? = some task ∧ n ≤ task.phase.rank

/-- Such a log stays one when a call that comes as far is appended. -/
theorem Log.append {s t : SendSystem H T E} (hordered : s.Ordered) {i n : ℕ} {task : SendTask E}
    {f} (h : s.Advances t i task f) {α : Type} {log : List (ℕ × α)} (hlog : s.Log n log)
    (hn : n ≤ 4) (hbefore : task.phase.rank < n) (hafter : n ≤ (f task).phase.rank) (x : α) :
    t.Log n (log ++ [(i, x)]) := by
  constructor
  · refine sorted_append hlog.1 ?_
    intro other hmem
    exact hordered.lt_of_past h.htask hn hbefore (hlog.2 other hmem)
  · intro entry hmem
    rcases List.mem_append.mp hmem with hold | hnew
    · exact h.past (hlog.2 entry hold)
    · rw [List.mem_singleton.mp hnew]
      exact ⟨f task, h.moved, hafter⟩

theorem Log.advance {s t : SendSystem H T E} {i n : ℕ} {task : SendTask E} {f}
    (h : s.Advances t i task f) {α : Type} {log : List (ℕ × α)} (hlog : s.Log n log) :
    t.Log n log :=
  ⟨hlog.1, fun entry hmem => h.past (hlog.2 entry hmem)⟩

/-- What has been sealed and not been written is the buffer of the one call that holds one. -/
def Handed (s : SendSystem H T E) : Prop :=
  ((∀ (i : ℕ) (task : SendTask E) buffer, s.tasks[i]? = some task → task.phase ≠ .sealed buffer) →
      s.sealedBuffers = s.writes) ∧
    ∀ (i : ℕ) (task : SendTask E) buffer, s.tasks[i]? = some task → task.phase = .sealed buffer →
      s.sealedBuffers = s.writes ++ [(i, buffer)]

/-- What the three logs say about the tasks. -/
structure Logged (s : SendSystem H T E) : Prop where
  seals : s.Log 2 s.seals
  ends : s.Log 4 s.ends
  own : ∀ (i : ℕ) (task : SendTask E), s.tasks[i]? = some task → s.Own i task.phase
  returned : ∀ (i : ℕ) (task : SendTask E), s.tasks[i]? = some task →
    ∀ result, task.returned = some result → task.phase = .finished result
  handed : s.Handed

theorem logged_initial (channel : NoiseChannel H T) :
    (initial channel : SendSystem H T E).Logged where
  seals := ⟨List.Pairwise.nil, nofun⟩
  ends := ⟨List.Pairwise.nil, nofun⟩
  own i task h := by simp [initial] at h
  returned i task h := by simp [initial] at h
  handed := ⟨fun _ => rfl, fun i task buffer h => by simp [initial] at h⟩

theorem Advances.logged {s t : SendSystem H T E} (hs : s.Logged) {i : ℕ} {task : SendTask E} {f}
    (h : s.Advances t i task f) (hseals : t.Log 2 t.seals) (hends : t.Log 4 t.ends)
    (hhanded : t.Handed) : t.Logged := by
  refine ⟨hseals, hends, ?_, ?_, hhanded⟩
  · rw [h.tasks]
    refine Transition.forall_modify (P := fun j (task : SendTask E) => t.Own j task.phase) ?_ ?_
    · intro j other hother
      exact (hs.own j other hother).mono h.seals h.writes h.ends
    · intro task' htask'
      cases h.htask.symm.trans htask'
      exact h.own
  · rw [h.tasks]
    refine Transition.forall_modify hs.returned ?_
    intro task' htask'
    cases h.htask.symm.trans htask'
    exact h.returned

/-- A call that neither takes nor gives a buffer changes nothing about what is in hand. -/
theorem Advances.handed {s t : SendSystem H T E} {i : ℕ} {task : SendTask E} {f}
    (h : s.Advances t i task f) (hs : s.Handed) (hbuffers : t.sealedBuffers = s.sealedBuffers)
    (hwrites : t.writes = s.writes) (hbefore : ∀ buffer, task.phase ≠ .sealed buffer)
    (hafter : ∀ buffer, (f task).phase ≠ .sealed buffer) : t.Handed := by
  unfold Handed
  rw [hbuffers, hwrites, h.tasks]
  constructor
  · intro hnone
    refine hs.1 ?_
    intro j other buffer hother
    by_cases hij : i = j
    · subst hij
      cases h.htask.symm.trans hother
      exact hbefore buffer
    · exact hnone j other buffer ((List.getElem?_modify_ne _ _ hij).trans hother)
  · intro j other buffer hother hphase
    rcases Transition.getElem?_modify_cases hother with ⟨-, hold⟩ | ⟨rfl, task', htask', rfl⟩
    · exact hs.2 j other buffer hold hphase
    · cases h.htask.symm.trans htask'
      exact absurd hphase (hafter buffer)

/-- While a call is about to seal or to write, no other holds a buffer. -/
theorem Ordered.not_sealed {s : SendSystem H T E} (hs : s.Ordered) {i j : ℕ}
    {task other : SendTask E} (htask : s.tasks[i]? = some task) (hrunning : task.phase.Running)
    (hne : i ≠ j) (hother : s.tasks[j]? = some other) (buffer : Bytes) :
    other.phase ≠ .sealed buffer := by
  intro hsealed
  exact hne (hs.running_unique htask hother hrunning (by simp [hsealed, SendPhase.Running]))

/-- Nothing is in hand while a call is about to seal. -/
theorem Logged.written_of_sealing {s : SendSystem H T E} (hs : s.Logged) (hordered : s.Ordered)
    {i : ℕ} {task : SendTask E} (htask : s.tasks[i]? = some task) (hphase : task.phase = .sealing) :
    s.sealedBuffers = s.writes := by
  refine hs.handed.1 ?_
  intro j other buffer hother
  by_cases hij : i = j
  · subst hij
    cases htask.symm.trans hother
    simp [hphase]
  · exact hordered.not_sealed htask (by simp [hphase, SendPhase.Running]) hij hother buffer

/-- A call that has entered the gate holds nothing yet. -/
theorem Logged.serialized {s : SendSystem H T E} (hs : s.Logged) (payload : Bytes) :
    (s.serialized payload).Logged := by
  have hold : ∀ {i : ℕ} {task}, s.tasks[i]? = some task →
      (s.serialized payload).tasks[i]? = some task := by
    intro i task htask
    simp only [SendSystem.serialized]
    rw [List.getElem?_append_left (List.getElem?_eq_some_iff.mp htask).1]
    exact htask
  have hcases : ∀ {i : ℕ} {task}, (s.serialized payload).tasks[i]? = some task →
      s.tasks[i]? = some task ∨ (task.phase = .waiting ∧ task.returned = none) := by
    intro i task htask
    simp only [SendSystem.serialized] at htask
    rw [List.getElem?_append] at htask
    split at htask
    · exact Or.inl htask
    · rw [List.mem_singleton.mp (List.mem_of_getElem? htask)]
      exact Or.inr ⟨rfl, rfl⟩
  have hlog : ∀ {α : Type} {n : ℕ} {log : List (ℕ × α)}, s.Log n log →
      (s.serialized payload).Log n log := by
    rintro α n log ⟨hsorted, hpast⟩
    refine ⟨hsorted, ?_⟩
    intro entry hmem
    obtain ⟨task, htask, hle⟩ := hpast entry hmem
    exact ⟨task, hold htask, hle⟩
  refine ⟨hlog hs.seals, hlog hs.ends, ?_, ?_, ?_, ?_⟩
  · intro i task htask
    rcases hcases htask with htask | ⟨hwaiting, -⟩
    · exact hs.own i task htask
    · rw [hwaiting]
      trivial
  · intro i task htask result hreturned
    rcases hcases htask with htask | ⟨-, hnone⟩
    · exact hs.returned i task htask result hreturned
    · rw [hnone] at hreturned
      cases hreturned
  · intro hnone
    exact hs.handed.1 fun i task buffer htask => hnone i task buffer (hold htask)
  · intro i task buffer htask hphase
    rcases hcases htask with htask | ⟨hwaiting, -⟩
    · exact hs.handed.2 i task buffer htask hphase
    · rw [hwaiting] at hphase
      cases hphase

/-- **Every move keeps what the logs say.** -/
theorem Logged.moves {s t : SendSystem H T E} (hs : s.Logged) (hordered : s.Ordered)
    (h : s.Moves t) : t.Logged := by
  have hnot : ∀ {i : ℕ} {task : SendTask E}, s.tasks[i]? = some task → task.phase.rank < 4 →
      ∀ result, task.returned ≠ some result := by
    intro i task htask hrank result hreturned
    rw [hs.returned i task htask result hreturned] at hrank
    exact Nat.lt_irrefl 4 hrank
  cases h with
  | serialized payload => exact hs.serialized payload
  | began i task htask hphase hcompleted =>
      have hrank : task.phase.rank = 0 := by rw [hphase]; rfl
      have h : s.Advances (s.enter i .sealing) i task fun task => { task with phase := .sealing } :=
        ⟨htask, rfl, by simp [hrank], fun _ => id, fun _ => id, fun _ => id, trivial,
          fun result hresult => absurd hresult (hnot htask (by omega) result)⟩
      exact h.logged hs (hs.seals.advance h) (hs.ends.advance h)
        (h.handed hs.handed rfl rfl (by simp [hphase]) (by simp))
  | sealed i task buffer channel htask hphase =>
      have hrank : task.phase.rank = 1 := by rw [hphase]; rfl
      have h : s.Advances { s.enter i (.sealed buffer) with
          channel
          seals := s.seals ++ [(i, .ok buffer)] } i task fun task =>
            { task with phase := .sealed buffer } :=
        ⟨htask, rfl, by simp [hphase, SendPhase.rank], List.subset_append_left _ _, fun _ => id,
          fun _ => id, List.mem_append_right _ (List.mem_singleton_self _),
          fun result hresult => absurd hresult (hnot htask (by omega) result)⟩
      refine h.logged hs (hs.seals.append hordered h (by omega) (by omega) (Nat.le_refl 2) _)
        (hs.ends.advance h) ⟨?_, ?_⟩
      · intro hnone
        exact absurd rfl (hnone i _ buffer h.moved)
      · intro j other buffer' hother hsealed
        rcases Transition.getElem?_modify_cases hother with ⟨hij, hold⟩ | ⟨rfl, task', -, rfl⟩
        · exact absurd hsealed (hordered.not_sealed htask (by simp [hphase, SendPhase.Running]) hij
            hold buffer')
        · cases hsealed
          have hwritten := hs.written_of_sealing hordered htask hphase
          unfold sealedBuffers at hwritten ⊢
          rw [List.filterMap_append, hwritten]
          rfl
  | refused i task error channel htask hphase =>
      have hrank : task.phase.rank = 1 := by rw [hphase]; rfl
      have h : s.Advances { s.enter i (.finished (.error (.channel error))) with
          channel
          seals := s.seals ++ [(i, .error error)] } i task fun task =>
            { task with phase := .finished (.error (.channel error)) } :=
        ⟨htask, rfl, by simp [hphase, SendPhase.rank], List.subset_append_left _ _, fun _ => id,
          fun _ => id, Or.inl ⟨error, List.mem_append_right _ (List.mem_singleton_self _), rfl⟩,
          fun result hresult => absurd hresult (hnot htask (by omega) result)⟩
      refine h.logged hs (hs.seals.append hordered h (by omega) (by omega)
        (by simp [SendPhase.rank]) _)
        (hs.ends.advance h) (h.handed hs.handed ?_ rfl (by simp [hphase]) (by simp))
      unfold sealedBuffers
      rw [List.filterMap_append]
      exact List.append_nil _
  | wrote i task buffer htask hphase =>
      have hrank : task.phase.rank = 2 := by rw [hphase]; rfl
      have hown : s.Own i task.phase := hs.own i task htask
      rw [hphase] at hown
      have h : s.Advances { s.enter i (.writing buffer) with writes := s.writes ++ [(i, buffer)] } i
          task fun task => { task with phase := .writing buffer } :=
        ⟨htask, rfl, by simp [hphase, SendPhase.rank], fun _ => id, List.subset_append_left _ _,
          fun _ => id, ⟨hown, List.mem_append_right _ (List.mem_singleton_self _)⟩,
          fun result hresult => absurd hresult (hnot htask (by omega) result)⟩
      refine h.logged hs (hs.seals.advance h) (hs.ends.advance h) ⟨?_, ?_⟩
      · intro _
        exact hs.handed.2 i task buffer htask hphase
      · intro j other buffer' hother hsealed
        rcases Transition.getElem?_modify_cases hother with ⟨hij, hold⟩ | ⟨rfl, task', -, rfl⟩
        · exact absurd hsealed (hordered.not_sealed htask (by simp [hphase, SendPhase.Running]) hij
            hold buffer')
        · cases hsealed
  | ended i task buffer outcome htask hphase =>
      have hrank : task.phase.rank = 3 := by rw [hphase]; rfl
      have hown : s.Own i task.phase := hs.own i task htask
      rw [hphase] at hown
      have h : s.Advances { s.enter i (.finished (outcome.mapError .stream)) with
          ends := s.ends ++ [(i, outcome)] } i task fun task =>
            { task with phase := .finished (outcome.mapError .stream) } :=
        ⟨htask, rfl, by simp [hphase, SendPhase.rank], fun _ => id, fun _ => id,
          List.subset_append_left _ _, Or.inr ⟨buffer, outcome, hown.1, hown.2,
            List.mem_append_right _ (List.mem_singleton_self _), rfl⟩,
          fun result hresult => absurd hresult (hnot htask (by omega) result)⟩
      exact h.logged hs (hs.seals.advance h)
        (hs.ends.append hordered h (Nat.le_refl 4) (by omega) (Nat.le_refl 4) _)
        (h.handed hs.handed rfl rfl (by simp [hphase]) (by simp))
  | completed i task result htask hphase =>
      have h : s.Advances { s with tasks := s.tasks.modify i fun task =>
          { task with completed := true } } i task fun task => { task with completed := true } :=
        ⟨htask, rfl, Nat.le_refl _, fun _ => id, fun _ => id, fun _ => id, hs.own i task htask,
          hs.returned i task htask⟩
      exact h.logged hs (hs.seals.advance h) (hs.ends.advance h)
        (h.handed hs.handed rfl rfl (by simp [hphase]) (by simp [hphase]))
  | returned i task result htask hphase =>
      have h : s.Advances { s with tasks := s.tasks.modify i fun task =>
          { task with returned := some result } } i task fun task =>
            { task with returned := some result } := by
        refine ⟨htask, rfl, Nat.le_refl _, fun _ => id, fun _ => id, fun _ => id,
          hs.own i task htask, ?_⟩
        intro result' hresult'
        cases hresult'
        exact hphase
      exact h.logged hs (hs.seals.advance h) (hs.ends.advance h)
        (h.handed hs.handed rfl rfl (by simp [hphase]) (by simp [hphase]))
  | received channel => exact ⟨hs.seals, hs.ends, hs.own, hs.returned, hs.handed⟩

/-! ### The chain goes on -/

/-- The first task of call `i`, its write or its second task can go on. -/
def CanMove (snow : SnowTransport T) (s : SendSystem H T E) (i : ℕ) : Prop :=
  (s.step snow (.begin i)).isSome ∨ (s.step snow (.sealPayload i)).isSome ∨
    (s.step snow (.write i)).isSome ∨ (∀ outcome, (s.step snow (.written i outcome)).isSome) ∨
      (s.step snow (.complete i)).isSome

/-- Once all before it have completed, nothing can keep a call from going on. -/
theorem Ordered.canMove {s : SendSystem H T E} (snow : SnowTransport T) (hs : s.Ordered) {i : ℕ}
    {task : SendTask E} (htask : s.tasks[i]? = some task)
    (hbefore : ∀ j < i, ∃ other, s.tasks[j]? = some other ∧ other.completed) :
    s.CanMove snow i := by
  have hpredecessor := hs.predecessor i task htask
  obtain ⟨payload, predecessor, phase, completed, returned⟩ := task
  cases phase with
  | waiting =>
      refine Or.inl ?_
      have hcompleted : s.hasCompleted predecessor = true := by
        simp only at hpredecessor
        subst hpredecessor
        cases i with
        | zero => rfl
        | succ j =>
            obtain ⟨other, hother, hdone⟩ := hbefore j (Nat.lt_succ_self j)
            simp [before, hasCompleted, hother, hdone]
      simp [step, begin, htask, hcompleted]
  | sealing =>
      refine Or.inr (Or.inl ?_)
      cases hseal : s.channel.sealPayload snow payload with
      | mk result channel =>
          cases result with
          | ok buffer => simp [step, SendSystem.sealPayload, htask, hseal]
          | error error => simp [step, SendSystem.sealPayload, htask, hseal]
  | sealed buffer =>
      refine Or.inr (Or.inr (Or.inl ?_))
      simp [step, write, htask]
  | writing buffer =>
      refine Or.inr (Or.inr (Or.inr (Or.inl ?_)))
      simp [step, written, htask]
  | finished result =>
      refine Or.inr (Or.inr (Or.inr (Or.inr ?_)))
      simp [step, complete, htask]

/-! ### Runs -/

theorem ordered_and_logged_of_run {snow : SnowTransport T} {channel : NoiseChannel H T}
    {moves : List (SendMove E)} {s : SendSystem H T E}
    (hrun : Transition.run (step snow) (initial channel) moves = some s) :
    s.Ordered ∧ s.Logged := by
  refine Transition.run_keeps (I := fun s => s.Ordered ∧ s.Logged) ?_
    ⟨ordered_initial channel, logged_initial channel⟩ hrun
  rintro s move t ⟨hordered, hlogged⟩ hstep
  have hmoves := moves_of_step hstep
  exact ⟨hordered.moves hmoves, hlogged.moves hordered hmoves⟩

/-- The stream has been handed what was sealed, in that order, up to one buffer at its end. -/
theorem Logged.sealedBuffers_eq {s : SendSystem H T E} (hs : s.Logged) :
    ∃ rest, s.sealedBuffers = s.writes ++ rest ∧ rest.length ≤ 1 := by
  by_cases hhand : ∃ (i : ℕ) (task : SendTask E) (buffer : Bytes),
      s.tasks[i]? = some task ∧ task.phase = .sealed buffer
  · obtain ⟨i, task, buffer, htask, hphase⟩ := hhand
    exact ⟨[(i, buffer)], hs.handed.2 i task buffer htask hphase, Nat.le_refl 1⟩
  · refine ⟨[], ?_, Nat.zero_le 1⟩
    rw [List.append_nil]
    exact hs.handed.1 fun i task buffer htask hphase => hhand ⟨i, task, buffer, htask, hphase⟩

end SendSystem

/-- Two calls are in the gate at once, and the first one's write fails. -/
def firstFails : List (SendMove Unit) :=
  [.serialized [1], .serialized [2], .begin 0, .sealPayload 0, .write 0, .written 0 (.error ()),
    .get 0, .complete 0, .begin 1, .sealPayload 1, .write 1, .written 1 (.ok ()), .get 1]

end Osprey
