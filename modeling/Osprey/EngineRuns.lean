/-
**Everything that is done to the engine, in any order.**

The sampling thread, the sessions that subscribe, drain and drop their subscriptions, and the clock:
a run of the engine is a list of what they do, one at a time.  Draining takes what is queued at one
moment.

Main definitions:

* `Osprey.EngineAct`, `Osprey.Engine.act` — one thing that is done.

Main results:

* `Osprey.Engine.Ordered.act` — every channel keeps holding deliveries since it was made, in their
  order;
* `Osprey.Engine.ordered_of_run` — in every run.
-/

import Osprey.MetricsEngine

set_option relaxedAutoImplicit false
set_option autoImplicit false

namespace Osprey

variable {F : Type}

inductive EngineAct (F : Type)
  | move (move : SamplerMove F)
  | subscribe
  | notify
  | drain (c : ℕ)
  /-- The subscription is dropped, and its receiver with it. -/
  | drop (c : ℕ)
  | elapse (d : ℕ)
  | stop

namespace Engine

/-- `Subscription::drain`: all that is queued, oldest first; `none` where there is no subscription
that has the receiver. -/
def drain (engine : Engine F) (c : ℕ) : Option (List (ℕ × Sample F) × Engine F) :=
  match engine.feeds[c]? with
  | none => none
  | some feed =>
      if feed.channel.receiving then
        let (samples, channel) := feed.channel.drain
        some (samples, engine.setChannel c feed channel)
      else none

/-- A subscription with the receiver of the channel is there to be dropped. -/
def alive (engine : Engine F) (c : ℕ) : Bool :=
  engine.feeds[c]?.any fun feed => feed.channel.receiving

/-- Do one thing to the engine; `none` where it cannot be done. -/
def act (engine : Engine F) : EngineAct F → Option (Engine F)
  | .move move => engine.move move
  | .subscribe => engine.subscribe.map Prod.snd
  | .notify => some engine.notifyAll
  | .drain c => (engine.drain c).map Prod.snd
  | .drop c => if engine.alive c then some (engine.hangUp c) else none
  | .elapse d => some (engine.elapse d)
  | .stop => engine.stop

variable {engine engine' : Engine F}

/-- What draining does: all that is queued is taken. -/
theorem drain_eq_some {c : ℕ} {samples : List (ℕ × Sample F)}
    (h : engine.drain c = some (samples, engine')) :
    ∃ feed channel, engine.feeds[c]? = some feed ∧ feed.channel.receiving = true ∧
      samples = feed.channel.queue ∧ channel.queue = [] ∧ channel.bound = feed.channel.bound ∧
      channel.receiving = true ∧ engine' = engine.setChannel c feed channel := by
  unfold Engine.drain at h
  split at h
  · cases h
  · rename_i feed hfeed
    split at h
    · rename_i hreceiving
      cases h
      obtain ⟨hsamples, hempty, hbound, hreceiving'⟩ := feed.channel.drain_eq
      exact ⟨feed, _, hfeed, hreceiving, hsamples, hempty, hbound, hreceiving'.trans hreceiving,
        rfl⟩
    · cases h

theorem alive_iff {c : ℕ} : engine.alive c = true ↔
    ∃ feed, engine.feeds[c]? = some feed ∧ feed.channel.receiving = true := by
  simp [Engine.alive, Option.any_eq_true]

/-- What hanging up does: the receiver is gone, and with it what is queued. -/
theorem hangUp_eq {c : ℕ} {feed : Feed F} (h : engine.feeds[c]? = some feed) :
    engine.hangUp c = engine.setChannel c feed feed.channel.hangUp := by
  unfold Engine.hangUp
  rw [h]

theorem notifyAll_of_not_waiting
    (hsampler : ∀ interval since, engine.sampler ≠ .waiting interval since) :
    engine.notifyAll = engine := by
  unfold notifyAll
  split
  · rename_i interval since hwaiting
    exact absurd hwaiting (hsampler interval since)
  · rfl

theorem locked_notifyAll (engine : Engine F) : engine.notifyAll.locked = engine.locked := by
  unfold notifyAll
  split
  · rename_i hsampler
    unfold locked
    rw [hsampler]
  · rfl

/-- Waking the sampler changes nothing but where it is. -/
theorem notifyAll_same (engine : Engine F) : engine.notifyAll.running = engine.running ∧
    engine.notifyAll.subscribers = engine.subscribers ∧
      engine.notifyAll.lastSampledAt = engine.lastSampledAt := by
  unfold notifyAll
  split
  · exact ⟨rfl, rfl, rfl⟩
  · exact ⟨rfl, rfl, rfl⟩

theorem now_notifyAll (engine : Engine F) : engine.notifyAll.now = engine.now := by
  unfold notifyAll
  split
  · rfl
  · rfl

theorem notifyAll_not_waiting (engine : Engine F) (interval since : ℕ) :
    engine.notifyAll.sampler ≠ .waiting interval since := by
  unfold notifyAll
  split
  · intro hwaiting
    cases hwaiting
  · rename_i hsampler
    exact hsampler interval since

/-- What draining or dropping a subscription does: one channel is changed. -/
theorem setChannel_of_act {c : ℕ} (h : engine.act (.drain c) = some engine' ∨
    engine.act (.drop c) = some engine') :
    ∃ feed channel, engine' = engine.setChannel c feed channel := by
  rcases h with h | h
  · obtain ⟨⟨samples, engine'⟩, hdrain, rfl⟩ := Option.map_eq_some_iff.mp h
    obtain ⟨feed, channel, -, -, -, -, -, -, rfl⟩ := drain_eq_some hdrain
    exact ⟨feed, channel, rfl⟩
  · obtain ⟨halive, heq⟩ := Option.ite_none_right_eq_some.mp h
    cases heq
    obtain ⟨feed, hfeed, -⟩ := alive_iff.mp halive
    exact ⟨feed, feed.channel.hangUp, hangUp_eq hfeed⟩

/-- **Whatever is done**, every channel holds deliveries since it was made, in their order. -/
theorem Ordered.act (h : engine.Ordered) {act : EngineAct F}
    (hact : engine.act act = some engine') : engine'.Ordered := by
  cases act with
  | move move => exact (h.move hact).1
  | subscribe =>
      obtain ⟨⟨c, engine'⟩, hsubscribe, rfl⟩ := Option.map_eq_some_iff.mp hact
      exact (h.subscribe hsubscribe).1
  | notify =>
      cases hact
      exact (unnoticed_notifyAll engine).ordered h
  | drain c =>
      obtain ⟨⟨samples, engine'⟩, hdrain, rfl⟩ := Option.map_eq_some_iff.mp hact
      obtain ⟨feed, channel, hfeed, -, -, hempty, -, -, rfl⟩ := drain_eq_some hdrain
      refine h.setChannel hfeed ?_
      rw [hempty]
      exact List.nil_sublist _
  | drop c =>
      obtain ⟨-, heq⟩ := Option.ite_none_right_eq_some.mp hact
      cases heq
      exact (h.hangUp c).1
  | elapse d =>
      cases hact
      exact (unnoticed_elapse engine d).ordered h
  | stop => exact (unnoticed_stop hact).ordered h

theorem ordered_of_run {acts : List (EngineAct F)}
    (hrun : Transition.run Engine.act .start acts = some engine) : engine.Ordered :=
  Transition.run_keeps (fun _ _ _ h hact => Ordered.act h hact) ordered_start hrun

end Engine

end Osprey
