/-
**The sampling thread, and the channels it feeds.**

`metrics/engine.rs`.  One thread samples for the whole machine; whoever subscribes gets a bounded
channel, and every sample is offered to all of them.  What the sampler does between two points where
another thread can come in between is one move: it holds the lock from the first `try_send` of a
sample to its storing, and nothing else keeps the lock for longer than one move.

Deliveries are numbered, and a sample travels with the number of its delivery.  No branch of the
code reads these numbers: they are there to say which sample came when.

Main definitions:

* `Osprey.Engine` with `subscribe`, `notifyAll`, `history`, `latestTotalMemory`, `tryRecv`,
  `hangUp`;
* `Osprey.SamplerMove`, `Osprey.Engine.move` — the loop of the sampler;
* `Osprey.Engine.Moves` — what a move can do;
* `Osprey.Engine.Ordered` — every channel holds deliveries since it was made, in their order;
* `Osprey.Engine.Advances` — what a step of the engine can do to a channel.

Main results:

* `Osprey.Engine.moves_of_move` — a move does one of these things;
* `Osprey.Engine.Ordered.move` — **a channel is only ever filled with deliveries later than all it
  has been offered before**.
-/

import Osprey.MetricsGrid
import Osprey.SyncChannel

set_option relaxedAutoImplicit false
set_option autoImplicit false

namespace Osprey

/-! ### The engine -/

/-- Cadence while at least one controller is subscribed, in nanoseconds. -/
def LIVE_INTERVAL : ℕ := 1 * 1000000000

/-- Cadence with nobody watching. -/
def IDLE_INTERVAL : ℕ := 30 * 1000000000

/-- How many ticks may queue for one subscriber. -/
def SUBSCRIBER_QUEUE_DEPTH : ℕ := 4

/-- Shortest interval between two platform reads. -/
def MIN_SAMPLE_SPACING : ℕ := 250 * 1000000

/-- The channel to one subscriber, and how many deliveries there were before it was registered. -/
structure Feed (F : Type) where
  channel : SyncChannel (ℕ × Sample F)
  since : ℕ

/-- Where the sampler is in its loop. -/
inductive Sampler (F : Type)
  /-- About to take the lock and choose its interval. -/
  | top
  /-- In the wait that it has entered at `since`. -/
  | waiting (interval since : ℕ)
  | woken
  /-- Before a platform read, which must not come too soon after the last. -/
  | spacing
  | sampled (sample : Sample F)
  /-- In `retain`: the senders still to be tried, and those that stay. -/
  | sending (n : ℕ) (sample : Sample F) (rest kept : List ℕ)
  | storing (sample : Sample F)
  | stopped

/-- The shared state, the locals of the sampler, and its clock in nanoseconds.  A sender is the
number of its channel. -/
structure Engine (F : Type) where
  feeds : List (Feed F)
  subscribers : List ℕ
  recorder : Recorder F
  running : Bool
  sampler : Sampler F
  lastSampledAt : Option ℕ
  now : ℕ
  delivered : List (Sample F)

variable {F : Type}

namespace Engine

def start : Engine F := ⟨[], [], .new, true, .top, none, 0, []⟩

/-- The sampler holds the lock. -/
def locked (engine : Engine F) : Bool :=
  match engine.sampler with
  | .sending .. | .storing _ => true
  | _ => false

/-- The engine with one more channel. -/
def register (engine : Engine F) : Engine F :=
  { engine with
    feeds := engine.feeds ++ [⟨.new SUBSCRIBER_QUEUE_DEPTH, engine.delivered.length⟩]
    subscribers := engine.subscribers ++ [engine.feeds.length] }

/-- Register a channel, under the lock; its number is returned. -/
def subscribe (engine : Engine F) : Option (ℕ × Engine F) :=
  if engine.locked then none else some (engine.feeds.length, engine.register)

/-- `Condvar::notify_all`: a wait ends. -/
def notifyAll (engine : Engine F) : Engine F :=
  match engine.sampler with
  | .waiting _ _ => { engine with sampler := .woken }
  | _ => engine

/-- The history, read under the lock. -/
def history (engine : Engine F) (backfillSeconds : UInt32) (nowMs : Int64) :
    Option (Option (History F)) :=
  if engine.locked then none
  else some (engine.recorder.ring.history backfillSeconds nowMs)

/-- Installed memory as of the newest stored sample, read under the lock. -/
def latestTotalMemory (engine : Engine F) : Option (Option UInt64) :=
  if engine.locked then none
  else some (engine.recorder.ring.latest.map Sample.memTotalBytes)

/-- Change one channel. -/
def setChannel (engine : Engine F) (c : ℕ) (feed : Feed F)
    (channel : SyncChannel (ℕ × Sample F)) : Engine F :=
  { engine with feeds := engine.feeds.set c { feed with channel } }

/-- Take the oldest sample that is queued on a channel. -/
def tryRecv (engine : Engine F) (c : ℕ) : Option ((ℕ × Sample F) × Engine F) :=
  match engine.feeds[c]? with
  | none => none
  | some feed =>
      match feed.channel.tryRecv with
      | none => none
      | some (item, channel) => some (item, engine.setChannel c feed channel)

/-- Drop the receiver of a channel. -/
def hangUp (engine : Engine F) (c : ℕ) : Engine F :=
  match engine.feeds[c]? with
  | none => engine
  | some feed => engine.setChannel c feed feed.channel.hangUp

def elapse (engine : Engine F) (d : ℕ) : Engine F := { engine with now := engine.now + d }

/-- `running` is cleared when the engine is dropped, and the sampler is woken. -/
def stop (engine : Engine F) : Option (Engine F) :=
  if engine.locked then none else some { engine with running := false }.notifyAll

end Engine

inductive SamplerMove (F : Type)
  | wait
  | timeout
  | spurious
  | resume
  /-- A platform read and what it answers. -/
  | sample (result : Option (Sample F))
  | lock
  | trySend
  | store

/-- One move of the sampler; `none` where it is not there, or has to wait. -/
def Engine.move (engine : Engine F) : SamplerMove F → Option (Engine F)
  | .wait =>
      match engine.sampler with
      | .top =>
          if engine.running then
            let interval := if engine.subscribers.isEmpty then IDLE_INTERVAL else LIVE_INTERVAL
            some { engine with sampler := .waiting interval engine.now }
          else some { engine with sampler := .stopped }
      | _ => none
  | .timeout =>
      match engine.sampler with
      | .waiting interval since =>
          if since + interval ≤ engine.now then some { engine with sampler := .woken } else none
      | _ => none
  | .spurious =>
      -- `wait_timeout` may return early, and the loop does not look
      match engine.sampler with
      | .waiting _ _ => some { engine with sampler := .woken }
      | _ => none
  | .resume =>
      match engine.sampler with
      | .woken => some { engine with sampler := if engine.running then .spacing else .stopped }
      | _ => none
  | .sample result =>
      match engine.sampler with
      | .spacing =>
          if engine.lastSampledAt.all fun previous =>
              previous + MIN_SAMPLE_SPACING ≤ engine.now then
            some { engine with
              sampler := match result with
                | none => .top
                | some sample => .sampled sample
              lastSampledAt := some engine.now }
          else none
      | _ => none
  | .lock =>
      match engine.sampler with
      | .sampled sample =>
          some { engine with
            sampler := .sending engine.delivered.length sample engine.subscribers []
            delivered := engine.delivered ++ [sample] }
      | _ => none
  | .trySend =>
      match engine.sampler with
      | .sending n sample (c :: rest) kept =>
          match engine.feeds[c]? with
          | none => none
          | some feed =>
              let (result, channel) := feed.channel.trySend (n, sample)
              some { engine.setChannel c feed channel with
                sampler := .sending n sample rest
                  (if result = .error .disconnected then kept else kept ++ [c]) }
      | .sending _ sample [] kept =>
          some { engine with subscribers := kept, sampler := .storing sample }
      | _ => none
  | .store =>
      match engine.sampler with
      | .storing sample =>
          match engine.recorder.store sample with
          | none => none
          | some recorder => some { engine with recorder, sampler := .top }
      | _ => none

namespace Engine

/-- **What a move can do.** -/
inductive Moves (engine : Engine F) : SamplerMove F → Engine F → Prop
  | wait (hsampler : engine.sampler = .top) (hrunning : engine.running = true) :
      Moves engine .wait { engine with
        sampler := .waiting (if engine.subscribers.isEmpty then IDLE_INTERVAL else LIVE_INTERVAL)
          engine.now }
  | quit (hsampler : engine.sampler = .top) (hrunning : engine.running = false) :
      Moves engine .wait { engine with sampler := .stopped }
  | timeout {interval since : ℕ} (hsampler : engine.sampler = .waiting interval since)
      (hpassed : since + interval ≤ engine.now) :
      Moves engine .timeout { engine with sampler := .woken }
  | spurious {interval since : ℕ} (hsampler : engine.sampler = .waiting interval since) :
      Moves engine .spurious { engine with sampler := .woken }
  | resume (hsampler : engine.sampler = .woken) (hrunning : engine.running = true) :
      Moves engine .resume { engine with sampler := .spacing }
  | leave (hsampler : engine.sampler = .woken) (hrunning : engine.running = false) :
      Moves engine .resume { engine with sampler := .stopped }
  | sample (hsampler : engine.sampler = .spacing)
      (hspaced : ∀ previous ∈ engine.lastSampledAt, previous + MIN_SAMPLE_SPACING ≤ engine.now)
      (sample : Sample F) :
      Moves engine (.sample (some sample)) { engine with
        sampler := .sampled sample, lastSampledAt := some engine.now }
  | fail (hsampler : engine.sampler = .spacing)
      (hspaced : ∀ previous ∈ engine.lastSampledAt, previous + MIN_SAMPLE_SPACING ≤ engine.now) :
      Moves engine (.sample none) { engine with
        sampler := .top, lastSampledAt := some engine.now }
  | lock {sample : Sample F} (hsampler : engine.sampler = .sampled sample) :
      Moves engine .lock { engine with
        sampler := .sending engine.delivered.length sample engine.subscribers []
        delivered := engine.delivered ++ [sample] }
  | trySend {n : ℕ} {sample : Sample F} {c : ℕ} {rest kept : List ℕ} {feed : Feed F}
      (hsampler : engine.sampler = .sending n sample (c :: rest) kept)
      (hfeed : engine.feeds[c]? = some feed) :
      Moves engine .trySend { engine.setChannel c feed (feed.channel.trySend (n, sample)).2 with
        sampler := .sending n sample rest
          (if (feed.channel.trySend (n, sample)).1 = .error .disconnected then kept
            else kept ++ [c]) }
  | retained {n : ℕ} {sample : Sample F} {kept : List ℕ}
      (hsampler : engine.sampler = .sending n sample [] kept) :
      Moves engine .trySend { engine with subscribers := kept, sampler := .storing sample }
  | store {sample : Sample F} {recorder : Recorder F}
      (hsampler : engine.sampler = .storing sample)
      (hstore : engine.recorder.store sample = some recorder) :
      Moves engine .store { engine with recorder, sampler := .top }

/-- A move does one of these things. -/
theorem moves_of_move {engine engine' : Engine F} {move : SamplerMove F}
    (h : engine.move move = some engine') : Moves engine move engine' := by
  cases move with
  | wait =>
      cases hsampler : engine.sampler with
      | top =>
          simp only [Engine.move, hsampler] at h
          split at h
          · rename_i hrunning
            cases h
            exact .wait hsampler hrunning
          · rename_i hrunning
            cases h
            exact .quit hsampler (Bool.eq_false_iff.mpr hrunning)
      | _ => simp [Engine.move, hsampler] at h
  | timeout =>
      cases hsampler : engine.sampler with
      | waiting interval since =>
          simp only [Engine.move, hsampler, Option.ite_none_right_eq_some, Option.some.injEq] at h
          obtain ⟨hpassed, rfl⟩ := h
          exact .timeout hsampler hpassed
      | _ => simp [Engine.move, hsampler] at h
  | spurious =>
      cases hsampler : engine.sampler with
      | waiting interval since =>
          simp only [Engine.move, hsampler, Option.some.injEq] at h
          subst h
          exact .spurious hsampler
      | _ => simp [Engine.move, hsampler] at h
  | resume =>
      cases hsampler : engine.sampler with
      | woken =>
          simp only [Engine.move, hsampler, Option.some.injEq] at h
          subst h
          split
          · rename_i hrunning
            exact .resume hsampler hrunning
          · rename_i hrunning
            exact .leave hsampler (Bool.eq_false_iff.mpr hrunning)
      | _ => simp [Engine.move, hsampler] at h
  | sample result =>
      cases hsampler : engine.sampler with
      | spacing =>
          simp only [Engine.move, hsampler, Option.ite_none_right_eq_some, Option.some.injEq,
            Option.all_eq_true, decide_eq_true_eq] at h
          obtain ⟨hspaced, rfl⟩ := h
          cases result with
          | some sample => exact .sample hsampler (fun previous h => hspaced previous h) sample
          | none => exact .fail hsampler fun previous h => hspaced previous h
      | _ => simp [Engine.move, hsampler] at h
  | lock =>
      cases hsampler : engine.sampler with
      | sampled sample =>
          simp only [Engine.move, hsampler, Option.some.injEq] at h
          subst h
          exact .lock hsampler
      | _ => simp [Engine.move, hsampler] at h
  | trySend =>
      cases hsampler : engine.sampler with
      | sending n sample rest kept =>
          cases rest with
          | nil =>
              simp only [Engine.move, hsampler, Option.some.injEq] at h
              subst h
              exact .retained hsampler
          | cons c rest =>
              cases hfeed : engine.feeds[c]? with
              | none => simp [Engine.move, hsampler, hfeed] at h
              | some feed =>
                  simp only [Engine.move, hsampler, hfeed, Option.some.injEq] at h
                  subst h
                  exact .trySend hsampler hfeed
      | _ => simp [Engine.move, hsampler] at h
  | store =>
      cases hsampler : engine.sampler with
      | storing sample =>
          cases hstore : engine.recorder.store sample with
          | none => simp [Engine.move, hsampler, hstore] at h
          | some recorder =>
              simp only [Engine.move, hsampler, hstore, Option.some.injEq] at h
              subst h
              exact .store hsampler hstore
      | _ => simp [Engine.move, hsampler] at h

/-! ### The order of deliveries -/

/-- The senders that the sample being delivered has still to be offered to. -/
def awaiting (engine : Engine F) : List ℕ :=
  match engine.sampler with
  | .sending _ _ rest _ => rest
  | _ => []

/-- The senders as `retain` leaves them so far. -/
def senders (engine : Engine F) : List ℕ :=
  match engine.sampler with
  | .sending _ _ rest kept => kept ++ rest
  | _ => engine.subscribers

/-- The delivery under way. -/
def current (engine : Engine F) : Option (ℕ × Sample F) :=
  match engine.sampler with
  | .sending n sample _ _ => some (n, sample)
  | _ => none

/-- How many deliveries a channel has been offered, or will never be. -/
def reached (engine : Engine F) (c : ℕ) : ℕ :=
  if c ∈ engine.awaiting then engine.delivered.length - 1 else engine.delivered.length

end Engine

/-- A channel holds deliveries since it was made, in their order. -/
structure Feed.Ordered (engine : Engine F) (c : ℕ) (feed : Feed F) : Prop where
  since_le : feed.since ≤ engine.reached c
  sorted : feed.channel.queue.Pairwise fun item next => item.1 < next.1
  queued : ∀ item ∈ feed.channel.queue, feed.since ≤ item.1 ∧ item.1 < engine.reached c ∧
    engine.delivered[item.1]? = some item.2

namespace Engine

/-- Every channel does, and the sample being delivered is the last delivery. -/
structure Ordered (engine : Engine F) : Prop where
  feeds : ∀ (c : ℕ) (feed : Feed F), engine.feeds[c]? = some feed → feed.Ordered engine c
  current : ∀ n sample, engine.current = some (n, sample) →
    engine.delivered.length = n + 1 ∧ engine.delivered[n]? = some sample
  nodup : engine.senders.Nodup
  registered : ∀ c ∈ engine.senders, c < engine.feeds.length

/-- **What a step can do to a channel**: nothing is queued on it but later deliveries than it was
offered before. -/
structure Advances (engine engine' : Engine F) : Prop where
  delivered : engine.delivered <+: engine'.delivered
  feeds : ∀ c feed, engine.feeds[c]? = some feed → ∃ feed', engine'.feeds[c]? = some feed' ∧
    feed'.since = feed.since ∧ engine.reached c ≤ engine'.reached c ∧
    ∀ item ∈ feed'.channel.queue, item ∈ feed.channel.queue ∨ engine.reached c ≤ item.1

/-- A step that no channel notices. -/
structure Unnoticed (engine engine' : Engine F) : Prop where
  feeds : engine'.feeds = engine.feeds
  delivered : engine'.delivered = engine.delivered
  awaiting : engine'.awaiting = engine.awaiting
  senders : engine'.senders = engine.senders
  current : engine'.current = none ∨ engine'.current = engine.current

variable {engine engine' : Engine F}

theorem Unnoticed.reached (h : Unnoticed engine engine') (c : ℕ) :
    engine'.reached c = engine.reached c := by
  simp only [Engine.reached, h.awaiting, h.delivered]

theorem Unnoticed.ordered (h : Unnoticed engine engine') (hordered : engine.Ordered) :
    engine'.Ordered := by
  constructor
  · intro c feed hfeed
    rw [h.feeds] at hfeed
    obtain ⟨hsince, hsorted, hqueued⟩ := hordered.feeds c feed hfeed
    refine ⟨?_, hsorted, ?_⟩
    · rw [h.reached]
      exact hsince
    · rw [h.reached, h.delivered]
      exact hqueued
  · intro n sample hcurrent
    rw [h.delivered]
    rcases h.current with hnone | hsame
    · rw [hnone] at hcurrent
      cases hcurrent
    · rw [hsame] at hcurrent
      exact hordered.current n sample hcurrent
  · rw [h.senders]
    exact hordered.nodup
  · rw [h.senders, h.feeds]
    exact hordered.registered

theorem Unnoticed.advances (h : Unnoticed engine engine') : Advances engine engine' := by
  refine ⟨h.delivered ▸ List.prefix_refl _, ?_⟩
  intro c feed hfeed
  refine ⟨feed, h.feeds ▸ hfeed, rfl, (h.reached c).ge, ?_⟩
  intro item hitem
  exact .inl hitem

/-- Where no delivery is under way, the senders are the subscribers and none is waited for. -/
theorem quiet_of_current (h : engine.current = none) :
    engine.awaiting = [] ∧ engine.senders = engine.subscribers := by
  unfold Engine.current at h
  unfold Engine.awaiting Engine.senders
  split at h
  · cases h
  · exact ⟨rfl, rfl⟩

theorem Unnoticed.of_current (hbefore : engine.current = none) (hafter : engine'.current = none)
    (hfeeds : engine'.feeds = engine.feeds) (hdelivered : engine'.delivered = engine.delivered)
    (hsubscribers : engine'.subscribers = engine.subscribers) : Unnoticed engine engine' := by
  obtain ⟨hawaiting, hsenders⟩ := quiet_of_current hbefore
  obtain ⟨hawaiting', hsenders'⟩ := quiet_of_current hafter
  refine ⟨hfeeds, hdelivered, ?_, ?_, .inl hafter⟩
  · rw [hawaiting, hawaiting']
  · rw [hsenders, hsenders', hsubscribers]

theorem current_of_not_locked (h : engine.locked = false) : engine.current = none := by
  unfold Engine.locked at h
  unfold Engine.current
  split
  · rename_i hsampler
    rw [hsampler] at h
    cases h
  · rfl

theorem reached_of_not_locked (h : engine.locked = false) (c : ℕ) :
    engine.reached c = engine.delivered.length := by
  simp [Engine.reached, (quiet_of_current (current_of_not_locked h)).1]

/-- Waking the sampler is noticed by no channel. -/
theorem unnoticed_notifyAll (engine : Engine F) : Unnoticed engine engine.notifyAll := by
  unfold notifyAll
  split
  · rename_i hsampler
    exact .of_current (by simp [Engine.current, hsampler]) rfl rfl rfl rfl
  · exact ⟨rfl, rfl, rfl, rfl, .inr rfl⟩

theorem unnoticed_elapse (engine : Engine F) (d : ℕ) : Unnoticed engine (engine.elapse d) :=
  ⟨rfl, rfl, rfl, rfl, .inr rfl⟩

theorem unnoticed_stop (h : engine.stop = some engine') : Unnoticed engine engine' := by
  unfold stop at h
  split at h
  · cases h
  · cases h
    obtain ⟨hfeeds, hdelivered, hawaiting, hsenders, hcurrent⟩ :=
      unnoticed_notifyAll { engine with running := false }
    exact ⟨hfeeds, hdelivered, hawaiting, hsenders, hcurrent⟩

theorem ordered_start : (start : Engine F).Ordered := by
  refine ⟨?_, ?_, List.nodup_nil, ?_⟩
  · intro c feed hfeed
    simp [start] at hfeed
  · intro n sample hcurrent
    cases hcurrent
  · intro c hc
    cases hc

/-- Taking samples out of a channel keeps the order of the others. -/
theorem Ordered.setChannel (h : engine.Ordered) {c : ℕ} {feed : Feed F}
    (hfeed : engine.feeds[c]? = some feed) {channel : SyncChannel (ℕ × Sample F)}
    (hsublist : channel.queue.Sublist feed.channel.queue) :
    (engine.setChannel c feed channel).Ordered := by
  refine ⟨?_, h.current, h.nodup, ?_⟩
  · intro c' feed' hfeed'
    simp only [Engine.setChannel, List.getElem?_set] at hfeed'
    split at hfeed'
    · rename_i hc
      subst hc
      split at hfeed'
      · cases hfeed'
        obtain ⟨hsince, hsorted, hqueued⟩ := h.feeds c feed hfeed
        exact ⟨hsince, hsorted.sublist hsublist,
          fun item hitem => hqueued item (hsublist.mem hitem)⟩
      · cases hfeed'
    · obtain ⟨hsince, hsorted, hqueued⟩ := h.feeds c' feed' hfeed'
      exact ⟨hsince, hsorted, hqueued⟩
  · intro c' hc'
    rw [Engine.setChannel, List.length_set]
    exact h.registered c' hc'

theorem advances_setChannel {c : ℕ} {feed : Feed F} (hfeed : engine.feeds[c]? = some feed)
    {channel : SyncChannel (ℕ × Sample F)}
    (hsublist : channel.queue.Sublist feed.channel.queue) :
    Advances engine (engine.setChannel c feed channel) := by
  refine ⟨List.prefix_refl _, ?_⟩
  intro c' feed' hfeed'
  by_cases hc : c = c'
  · subst hc
    cases hfeed.symm.trans hfeed'
    have hlt := (List.getElem?_eq_some_iff.mp hfeed).1
    refine ⟨_, List.getElem?_set_self hlt, rfl, le_refl _, ?_⟩
    intro item hitem
    exact .inl (hsublist.mem hitem)
  · refine ⟨feed', (List.getElem?_set_ne hc).trans hfeed', rfl, le_refl _, ?_⟩
    intro item hitem
    exact .inl hitem

/-- What receiving does: the oldest sample is taken from the channel. -/
theorem tryRecv_eq_some {c : ℕ} {item : ℕ × Sample F}
    (h : engine.tryRecv c = some (item, engine')) :
    ∃ feed channel, engine.feeds[c]? = some feed ∧ feed.channel.queue = item :: channel.queue ∧
      engine' = engine.setChannel c feed channel := by
  unfold Engine.tryRecv at h
  split at h
  · cases h
  · rename_i feed hfeed
    split at h
    · cases h
    · rename_i channel hrecv
      cases h
      exact ⟨feed, channel, hfeed, SyncChannel.tryRecv_eq_some hrecv, rfl⟩

theorem Ordered.tryRecv (h : engine.Ordered) {c : ℕ} {item : ℕ × Sample F}
    (hrecv : engine.tryRecv c = some (item, engine')) :
    engine'.Ordered ∧ Advances engine engine' := by
  obtain ⟨feed, channel, hfeed, hqueue, rfl⟩ := tryRecv_eq_some hrecv
  have hsublist : channel.queue.Sublist feed.channel.queue := by
    rw [hqueue]
    exact List.sublist_cons_self _ _
  exact ⟨h.setChannel hfeed hsublist, advances_setChannel hfeed hsublist⟩

theorem Ordered.hangUp (h : engine.Ordered) (c : ℕ) :
    (engine.hangUp c).Ordered ∧ Advances engine (engine.hangUp c) := by
  unfold Engine.hangUp
  split
  · exact ⟨h, Unnoticed.advances ⟨rfl, rfl, rfl, rfl, .inr rfl⟩⟩
  · rename_i feed hfeed
    exact ⟨h.setChannel hfeed (List.nil_sublist _), advances_setChannel hfeed (List.nil_sublist _)⟩

/-- What subscribing does: there is one more channel, with nothing in it. -/
theorem subscribe_eq_some {c : ℕ} (h : engine.subscribe = some (c, engine')) :
    engine.locked = false ∧ c = engine.feeds.length ∧ engine' = engine.register := by
  unfold Engine.subscribe at h
  split at h
  · cases h
  · rename_i hlocked
    cases h
    exact ⟨Bool.eq_false_iff.mpr hlocked, rfl, rfl⟩

/-- Subscribing notices no other channel, and makes one that has been offered nothing. -/
theorem Ordered.subscribe (h : engine.Ordered) {c : ℕ}
    (hsubscribe : engine.subscribe = some (c, engine')) :
    engine'.Ordered ∧ Advances engine engine' := by
  obtain ⟨hlocked, rfl, rfl⟩ := subscribe_eq_some hsubscribe
  have hreached := reached_of_not_locked hlocked
  have hsenders := (quiet_of_current (current_of_not_locked hlocked)).2
  have hnodup := h.nodup
  have hregistered := h.registered
  rw [hsenders] at hnodup hregistered
  -- the lock is free after the step as it was before
  have hlocked' : engine.register.locked = false := hlocked
  have hreached' (c : ℕ) : engine.register.reached c = engine.delivered.length :=
    reached_of_not_locked hlocked' c
  have hcurrent' := current_of_not_locked hlocked'
  have hsenders' := (quiet_of_current hcurrent').2
  refine ⟨⟨?_, ?_, ?_, ?_⟩, List.prefix_refl _, ?_⟩
  · intro c feed hfeed
    by_cases hlt : c < engine.feeds.length
    · rw [register, List.getElem?_append_left hlt] at hfeed
      obtain ⟨hsince, hsorted, hqueued⟩ := h.feeds c feed hfeed
      rw [hreached] at hsince
      rw [hreached] at hqueued
      refine ⟨?_, hsorted, ?_⟩
      · rw [hreached']
        exact hsince
      · rw [hreached']
        exact hqueued
    · rw [register, List.getElem?_append_right (Nat.le_of_not_lt hlt)] at hfeed
      obtain rfl := List.mem_singleton.mp (List.mem_of_getElem? hfeed)
      refine ⟨?_, List.Pairwise.nil, fun item hitem => absurd hitem List.not_mem_nil⟩
      rw [hreached']
  · intro n sample hcurrent
    rw [hcurrent'] at hcurrent
    cases hcurrent
  · rw [hsenders', register, List.nodup_append]
    refine ⟨hnodup, List.nodup_singleton _, ?_⟩
    rintro a ha b hb rfl
    rw [List.mem_singleton.mp hb] at ha
    exact Nat.lt_irrefl _ (hregistered _ ha)
  · intro c hc
    rw [hsenders'] at hc
    rw [register, List.length_append, List.length_singleton]
    rcases List.mem_append.mp hc with hc | hc
    · exact Nat.lt_succ_of_lt (hregistered c hc)
    · rw [List.mem_singleton.mp hc]
      exact Nat.lt_succ_self _
  · intro c feed hfeed
    have hlt := (List.getElem?_eq_some_iff.mp hfeed).1
    refine ⟨feed, (List.getElem?_append_left hlt).trans hfeed, rfl, ?_, fun item => .inl⟩
    rw [hreached, hreached']

/-- A sample is delivered: every subscriber is to be offered it. -/
theorem Ordered.lock (h : engine.Ordered) {sample : Sample F}
    (hsampler : engine.sampler = .sampled sample) :
    Ordered { engine with
      sampler := .sending engine.delivered.length sample engine.subscribers []
      delivered := engine.delivered ++ [sample] } ∧
    Advances engine { engine with
      sampler := .sending engine.delivered.length sample engine.subscribers []
      delivered := engine.delivered ++ [sample] } := by
  have hcurrent : engine.current = none := by simp [Engine.current, hsampler]
  obtain ⟨hawaiting, hsenders⟩ := quiet_of_current hcurrent
  have hnodup := h.nodup
  have hregistered := h.registered
  rw [hsenders] at hnodup hregistered
  have hreached (c : ℕ) : engine.reached c = engine.delivered.length := by
    simp [Engine.reached, hawaiting]
  -- a channel that waits for the sample has reached what it had, and any other one more
  have hgrows (c : ℕ) : engine.delivered.length ≤ Engine.reached { engine with
      sampler := .sending engine.delivered.length sample engine.subscribers []
      delivered := engine.delivered ++ [sample] } c := by
    unfold Engine.reached
    rw [List.length_append, List.length_singleton]
    split
    · exact le_refl _
    · exact Nat.le_succ _
  refine ⟨⟨?_, ?_, hnodup, hregistered⟩, List.prefix_append _ _, ?_⟩
  · intro c feed hfeed
    obtain ⟨hsince, hsorted, hqueued⟩ := h.feeds c feed hfeed
    rw [hreached] at hsince hqueued
    refine ⟨hsince.trans (hgrows c), hsorted, ?_⟩
    intro item hitem
    obtain ⟨hfrom, hbefore, hget⟩ := hqueued item hitem
    exact ⟨hfrom, hbefore.trans_le (hgrows c), (List.getElem?_append_left hbefore).trans hget⟩
  · rintro n sample' hcurrent'
    cases hcurrent'
    exact ⟨List.length_append, List.getElem?_concat_length⟩
  · intro c feed hfeed
    refine ⟨feed, hfeed, rfl, ?_, fun item => .inl⟩
    rw [hreached]
    exact hgrows c

/-- The sample is offered to one channel, which has reached it then. -/
theorem Ordered.trySend (h : engine.Ordered) {n : ℕ} {sample : Sample F} {c : ℕ}
    {rest kept kept' : List ℕ} (hsampler : engine.sampler = .sending n sample (c :: rest) kept)
    (hkept : kept'.Sublist (kept ++ [c])) {feed : Feed F} (hfeed : engine.feeds[c]? = some feed) :
    Ordered { engine.setChannel c feed (feed.channel.trySend (n, sample)).2 with
      sampler := .sending n sample rest kept' } ∧
    Advances engine { engine.setChannel c feed (feed.channel.trySend (n, sample)).2 with
      sampler := .sending n sample rest kept' } := by
  obtain ⟨hlength, hget⟩ := h.current n sample (by simp [Engine.current, hsampler])
  have hnodup := h.nodup
  have hregistered := h.registered
  simp only [Engine.senders, hsampler] at hnodup hregistered
  have hmiddle : kept ++ c :: rest = kept ++ [c] ++ rest := by simp
  rw [hmiddle] at hnodup hregistered
  have hsublist : (kept' ++ rest).Sublist (kept ++ [c] ++ rest) := hkept.append_right rest
  have hrest : c ∉ rest := by
    intro hc
    exact (List.nodup_append.mp hnodup).2.2 c (by simp) c hc rfl
  have hbefore : engine.reached c = n := by
    simp [Engine.reached, Engine.awaiting, hsampler, hlength]
  have hafter : Engine.reached { engine.setChannel c feed (feed.channel.trySend (n, sample)).2 with
      sampler := .sending n sample rest kept' } c = n + 1 := by
    simp [Engine.reached, Engine.awaiting, hrest, Engine.setChannel, hlength]
  have hother {c' : ℕ} (hc : c ≠ c') :
      Engine.reached { engine.setChannel c feed (feed.channel.trySend (n, sample)).2 with
        sampler := .sending n sample rest kept' } c' = engine.reached c' := by
    simp [Engine.reached, Engine.awaiting, hsampler, Engine.setChannel, Ne.symm hc]
  have hlt := (List.getElem?_eq_some_iff.mp hfeed).1
  refine ⟨⟨?_, ?_, hnodup.sublist hsublist, ?_⟩, List.prefix_refl _, ?_⟩
  · intro c' feed' hfeed'
    by_cases hc : c = c'
    · subst hc
      cases (List.getElem?_set_self hlt).symm.trans hfeed'
      obtain ⟨hsince, hsorted, hqueued⟩ := h.feeds c feed hfeed
      rw [hbefore] at hsince hqueued
      refine ⟨?_, ?_, ?_⟩
      · rw [hafter]
        exact Nat.le_succ_of_le hsince
      · exact SyncChannel.pairwise_trySend hsorted fun item hitem => (hqueued item hitem).2.1
      · intro item hitem
        rw [hafter]
        rcases SyncChannel.mem_trySend hitem with hitem | rfl
        · obtain ⟨hfrom, hlt, hitem⟩ := hqueued item hitem
          exact ⟨hfrom, Nat.lt_succ_of_lt hlt, hitem⟩
        · exact ⟨hsince, Nat.lt_succ_self n, hget⟩
    · obtain ⟨hsince, hsorted, hqueued⟩ :=
        h.feeds c' feed' ((List.getElem?_set_ne hc).symm.trans hfeed')
      refine ⟨?_, hsorted, ?_⟩
      · rw [hother hc]
        exact hsince
      · rw [hother hc]
        exact hqueued
  · intro n' sample' hcurrent
    cases hcurrent
    exact ⟨hlength, hget⟩
  · intro c' hc'
    rw [Engine.setChannel, List.length_set]
    exact hregistered c' (hsublist.mem hc')
  · intro c' feed' hfeed'
    by_cases hc : c = c'
    · subst hc
      cases hfeed.symm.trans hfeed'
      refine ⟨_, List.getElem?_set_self hlt, rfl, ?_, ?_⟩
      · rw [hbefore, hafter]
        exact Nat.le_succ n
      · intro item hitem
        rcases SyncChannel.mem_trySend hitem with hitem | rfl
        · exact .inl hitem
        · exact .inr hbefore.le
    · exact ⟨feed', (List.getElem?_set_ne hc).trans hfeed', rfl, (hother hc).ge, fun item => .inl⟩

/-- A delivery is over: the senders that stay are the subscribers. -/
theorem unnoticed_retained {n : ℕ} {sample : Sample F} {kept : List ℕ}
    (hsampler : engine.sampler = .sending n sample [] kept) :
    Unnoticed engine { engine with subscribers := kept, sampler := .storing sample } := by
  refine ⟨rfl, rfl, ?_, ?_, .inl rfl⟩
  · simp [Engine.awaiting, hsampler]
  · simp [Engine.senders, hsampler]

/-- **A channel is only ever filled with deliveries later than all it has been offered before.** -/
theorem Ordered.move (h : engine.Ordered) {move : SamplerMove F}
    (hmove : engine.move move = some engine') : engine'.Ordered ∧ Advances engine engine' := by
  have hunnoticed {engine' : Engine F} (hstep : Unnoticed engine engine') :
      engine'.Ordered ∧ Advances engine engine' := ⟨hstep.ordered h, hstep.advances⟩
  cases moves_of_move hmove with
  | wait hsampler | quit hsampler | timeout hsampler | spurious hsampler | resume hsampler
  | leave hsampler | sample hsampler | fail hsampler | store hsampler =>
      exact hunnoticed (.of_current (by simp [Engine.current, hsampler]) rfl rfl rfl rfl)
  | lock hsampler => exact h.lock hsampler
  | trySend hsampler hfeed =>
      refine h.trySend hsampler ?_ hfeed
      split
      · exact List.sublist_append_left _ _
      · exact List.Sublist.refl _
  | retained hsampler => exact hunnoticed (unnoticed_retained hsampler)

end Engine

end Osprey
