/-
**What a slow subscriber gets to see.**

A subscription queues four samples.  When a fifth comes before the subscriber has drained, one of
the five is lost: `SUBSCRIBER_QUEUE_DEPTH` says the oldest, and `try_send` on a full channel gives
up the newest.

Main definitions:

* `Osprey.Engine.deliveredSince` — the deliveries a subscription has been offered since a mark;
* `Osprey.lastDrain` — the mark that a drain leaves;
* `Osprey.DrainsNewest` — a drain returns the newest of the deliveries since the drain before.

Main results:

* `Osprey.Engine.Queues.act` — **the queue holds the oldest deliveries since the mark**, whatever is
  done;
* `Osprey.drainsNewest_iff` — every drain of a run returns the newest exactly where none comes after
  more than four deliveries.
-/

import Osprey.EngineRuns

set_option relaxedAutoImplicit false
set_option autoImplicit false

namespace Osprey

variable {F : Type}

/-! ### The oldest and the newest -/

/-- In a list without repetitions, the first and the last entries are the same only if there are no
others. -/
theorem take_eq_drop_iff {α : Type} {items : List α} (h : items.Nodup) {n : ℕ} (hn : 0 < n) :
    items.take n = items.drop (items.length - n) ↔ items.length ≤ n := by
  constructor
  · intro heq
    by_contra hlong
    -- the heads are entries at two places
    have hhead : items[0]? = items[items.length - n]? := by
      rw [← List.getElem?_take_of_lt hn, heq, List.getElem?_drop, Nat.add_zero]
    have hzero : 0 = items.length - n :=
      (List.getElem?_inj (by omega) h).mp hhead
    omega
  · intro hle
    rw [List.take_of_length_le hle, Nat.sub_eq_zero_of_le hle, List.drop_zero]

theorem take_take_append {α : Type} (items more : List α) (n : ℕ) :
    (items.take n ++ more).take n = (items ++ more).take n := by
  rw [List.take_append, List.take_append, List.take_take, Nat.min_self, List.length_take]
  congr 2
  omega

/-! ### The deliveries since a mark -/

namespace Engine

/-- The deliveries from number `mark` on that channel `c` has been offered, oldest first. -/
def deliveredSince (engine : Engine F) (c mark : ℕ) : List (ℕ × Sample F) :=
  ((engine.delivered.take (engine.reached c)).zipIdx.drop mark).map Prod.swap

variable {engine engine' : Engine F}

theorem deliveredSince_nodup (engine : Engine F) (c mark : ℕ) :
    (engine.deliveredSince c mark).Nodup := by
  have hnumbers : ((engine.deliveredSince c mark).map Prod.fst).Nodup := by
    rw [deliveredSince, List.map_map, List.map_drop]
    have hsnd : (Prod.fst ∘ Prod.swap : Sample F × ℕ → ℕ) = Prod.snd := rfl
    rw [hsnd, List.zipIdx_map_snd]
    exact List.Nodup.sublist (List.drop_sublist _ _) List.nodup_range'
  exact List.Nodup.of_map _ hnumbers

/-- A mark at what has been offered leaves nothing. -/
theorem deliveredSince_reached (engine : Engine F) (c : ℕ) :
    engine.deliveredSince c (engine.reached c) = [] := by
  rw [deliveredSince, List.drop_eq_nil_of_le, List.map_nil]
  rw [List.length_zipIdx, List.length_take]
  exact Nat.min_le_left _ _

theorem deliveredSince_congr {c : ℕ} (hreached : engine'.reached c = engine.reached c)
    (hdelivered : engine'.delivered.take (engine.reached c)
      = engine.delivered.take (engine.reached c)) (mark : ℕ) :
    engine'.deliveredSince c mark = engine.deliveredSince c mark := by
  rw [deliveredSince, deliveredSince, hreached, hdelivered]

/-! ### What is queued -/

/-- **The queue of channel `c`** while there is somebody to drain it: the oldest deliveries since
the mark, as many as fit. -/
structure Queues (engine : Engine F) (c : ℕ) (mark : Option ℕ) : Prop where
  unmarked : engine.feeds[c]? = none → mark = none
  bound : ∀ feed, engine.feeds[c]? = some feed → feed.channel.bound = SUBSCRIBER_QUEUE_DEPTH
  queue : ∀ feed, engine.feeds[c]? = some feed → feed.channel.receiving = true →
    c ∈ engine.senders ∧ mark.getD feed.since ≤ engine.reached c ∧
      feed.channel.queue
        = (engine.deliveredSince c (mark.getD feed.since)).take SUBSCRIBER_QUEUE_DEPTH

variable {c : ℕ} {mark : Option ℕ}

theorem reached_le (engine : Engine F) (c : ℕ) : engine.reached c ≤ engine.delivered.length := by
  unfold Engine.reached
  split
  · exact Nat.sub_le _ _
  · exact le_refl _

/-- A step that leaves the channel as it is, and offers it nothing. -/
theorem Queues.congr (h : engine.Queues c mark) (hfeed : engine'.feeds[c]? = engine.feeds[c]?)
    (hsenders : c ∈ engine.senders → c ∈ engine'.senders)
    (hreached : c ∈ engine.senders → engine'.reached c = engine.reached c)
    (hdelivered : engine.delivered <+: engine'.delivered) : engine'.Queues c mark := by
  refine ⟨?_, ?_, ?_⟩
  · rw [hfeed]
    exact h.unmarked
  · rw [hfeed]
    exact h.bound
  · intro feed hget hreceiving
    rw [hfeed] at hget
    obtain ⟨hmem, hmark, hqueue⟩ := h.queue feed hget hreceiving
    obtain ⟨more, hmore⟩ := hdelivered
    have htake : engine'.delivered.take (engine.reached c)
        = engine.delivered.take (engine.reached c) := by
      rw [← hmore, List.take_append_of_le_length (engine.reached_le c)]
    refine ⟨hsenders hmem, ?_, ?_⟩
    · rw [hreached hmem]
      exact hmark
    · rw [deliveredSince_congr (hreached hmem) htake]
      exact hqueue

theorem Unnoticed.queues (h : Unnoticed engine engine') (hqueues : engine.Queues c mark) :
    engine'.Queues c mark := by
  refine hqueues.congr (by rw [h.feeds]) ?_ (fun _ => h.reached c) ?_
  · rw [h.senders]
    exact id
  · rw [h.delivered]

/-- Another channel is changed. -/
theorem Queues.setChannel_ne (h : engine.Queues c mark) {c' : ℕ} (hc : c' ≠ c) (feed : Feed F)
    (channel : SyncChannel (ℕ × Sample F)) : (engine.setChannel c' feed channel).Queues c mark :=
  h.congr (List.getElem?_set_ne hc) id (fun _ => rfl) (List.prefix_refl _)

/-- One more sample is offered to the channel: it is queued if there is room. -/
theorem Queues.trySend (hordered : engine.Ordered) (h : engine.Queues c mark) {n : ℕ}
    {sample : Sample F} {c' : ℕ} {rest kept : List ℕ} {feed : Feed F}
    (hsampler : engine.sampler = .sending n sample (c' :: rest) kept)
    (hfeed : engine.feeds[c']? = some feed) :
    Queues { engine.setChannel c' feed (feed.channel.trySend (n, sample)).2 with
      sampler := .sending n sample rest
        (if (feed.channel.trySend (n, sample)).1 = .error .disconnected then kept
          else kept ++ [c']) } c mark := by
  by_cases hc : c' = c
  · subst hc
    have hlt := (List.getElem?_eq_some_iff.mp hfeed).1
    obtain ⟨hlength, hget⟩ := hordered.current n sample (by simp [Engine.current, hsampler])
    have hnodup := hordered.nodup
    simp only [Engine.senders, hsampler] at hnodup
    have hrest : c' ∉ rest := (List.nodup_cons.mp (List.nodup_append.mp hnodup).2.1).1
    obtain ⟨hbound, hreceiving⟩ := feed.channel.trySend_same (n, sample)
    have hnew {feed' : Feed F}
        (hfeed' : (engine.feeds.set c' { feed with
          channel := (feed.channel.trySend (n, sample)).2 })[c']? = some feed') :
        feed' = { feed with channel := (feed.channel.trySend (n, sample)).2 } :=
      (Option.some.inj ((List.getElem?_set_self hlt).symm.trans hfeed')).symm
    refine ⟨?_, ?_, ?_⟩
    · intro hnone
      rw [Engine.setChannel, List.getElem?_set_self hlt] at hnone
      cases hnone
    · intro feed' hfeed'
      rw [hnew hfeed']
      exact hbound.trans (h.bound feed hfeed)
    · intro feed' hfeed' hreceiving'
      rw [hnew hfeed'] at hreceiving' ⊢
      rw [hreceiving] at hreceiving'
      obtain ⟨-, hmark, hqueue⟩ := h.queue feed hfeed hreceiving'
      have hbefore : engine.reached c' = n := by
        simp [Engine.reached, Engine.awaiting, hsampler, hlength]
      have hkept : (feed.channel.trySend (n, sample)).1 ≠ .error .disconnected := by
        rw [Ne, SyncChannel.trySend_error_disconnected_iff, hreceiving']
        exact Bool.noConfusion
      rw [if_neg hkept]
      have hafter : Engine.reached { engine.setChannel c' feed
          (feed.channel.trySend (n, sample)).2 with
            sampler := .sending n sample rest (kept ++ [c']) } c' = n + 1 := by
        simp [Engine.reached, Engine.awaiting, hrest, Engine.setChannel, hlength]
      rw [hbefore] at hmark
      refine ⟨?_, ?_, ?_⟩
      · simp [Engine.senders]
      · rw [hafter]
        exact Nat.le_succ_of_le hmark
      · have hsince : Engine.deliveredSince { engine.setChannel c' feed
            (feed.channel.trySend (n, sample)).2 with
              sampler := .sending n sample rest (kept ++ [c']) } c' (mark.getD feed.since)
            = engine.deliveredSince c' (mark.getD feed.since) ++ [(n, sample)] := by
          have htake : engine.delivered.take (n + 1) = engine.delivered.take n ++ [sample] := by
            rw [List.take_add_one, hget]
            rfl
          have hlen : (engine.delivered.take n).length = n := by
            rw [List.length_take]
            omega
          rw [deliveredSince, deliveredSince, hafter, hbefore]
          show ((engine.delivered.take (n + 1)).zipIdx.drop _).map Prod.swap = _
          rw [htake, List.zipIdx_append, List.drop_append_of_le_length, List.map_append, hlen]
          · simp
          · rw [List.length_zipIdx, hlen]
            exact hmark
        rw [SyncChannel.queue_trySend_of_receiving hreceiving', h.bound feed hfeed, hqueue,
          take_take_append, hsince]
  · refine h.congr (List.getElem?_set_ne hc) ?_ (fun _ => ?_) (List.prefix_refl _)
    · simp only [Engine.senders, hsampler]
      intro hmem
      rcases List.mem_append.mp hmem with hmem | hmem
      · refine List.mem_append_left _ ?_
        split
        · exact hmem
        · exact List.mem_append_left _ hmem
      · rcases List.mem_cons.mp hmem with rfl | hmem
        · exact absurd rfl hc
        · exact List.mem_append_right _ hmem
    · simp [Engine.reached, Engine.awaiting, hsampler, Engine.setChannel, Ne.symm hc]

/-- A sample is about to be offered, and the channel is one of those that wait for it. -/
theorem Queues.lock (h : engine.Queues c mark) {sample : Sample F}
    (hsampler : engine.sampler = .sampled sample) :
    Queues { engine with
      sampler := .sending engine.delivered.length sample engine.subscribers []
      delivered := engine.delivered ++ [sample] } c mark := by
  have hcurrent : engine.current = none := by simp [Engine.current, hsampler]
  obtain ⟨hawaiting, hsenders⟩ := quiet_of_current hcurrent
  refine h.congr rfl ?_ (fun hmem => ?_) (List.prefix_append _ _)
  · rw [hsenders]
    exact id
  · rw [hsenders] at hmem
    simp [Engine.reached, Engine.awaiting, hsampler, hmem]

theorem Queues.move (hordered : engine.Ordered) (h : engine.Queues c mark) {move : SamplerMove F}
    (hmove : engine.move move = some engine') : engine'.Queues c mark := by
  cases moves_of_move hmove with
  | wait hsampler | quit hsampler | timeout hsampler | spurious hsampler | resume hsampler
  | leave hsampler | sample hsampler | fail hsampler | store hsampler =>
      refine Unnoticed.queues ?_ h
      exact .of_current (by simp [Engine.current, hsampler]) rfl rfl rfl rfl
  | lock hsampler => exact h.lock hsampler
  | trySend hsampler hfeed => exact h.trySend hordered hsampler hfeed
  | retained hsampler => exact (unnoticed_retained hsampler).queues h

/-- A channel is registered: the subscription has been offered nothing. -/
theorem Queues.register (h : engine.Queues c mark) (hlocked : engine.locked = false) :
    engine.register.Queues c mark := by
  have hlocked' : engine.register.locked = false := hlocked
  have hsenders := (quiet_of_current (current_of_not_locked hlocked)).2
  have hsenders' := (quiet_of_current (current_of_not_locked hlocked')).2
  have hreached : engine.register.reached c = engine.delivered.length :=
    reached_of_not_locked hlocked' c
  by_cases hc : c = engine.feeds.length
  · have hmark : mark = none := by
      refine h.unmarked (List.getElem?_eq_none ?_)
      exact hc.ge
    have hfeed : engine.register.feeds[c]?
        = some ⟨.new SUBSCRIBER_QUEUE_DEPTH, engine.delivered.length⟩ := by
      rw [Engine.register, hc]
      exact List.getElem?_concat_length
    refine ⟨fun _ => hmark, ?_, ?_⟩
    · intro feed hget
      cases hfeed.symm.trans hget
      rfl
    · intro feed hget hreceiving
      cases hfeed.symm.trans hget
      refine ⟨?_, ?_, ?_⟩
      · rw [hsenders', Engine.register, hc]
        exact List.mem_append_right _ (List.mem_singleton_self _)
      · rw [hmark, hreached]
        exact le_refl _
      · rw [hmark, Option.getD_none, ← hreached, deliveredSince_reached]
        rfl
  · refine h.congr ?_ ?_ (fun _ => ?_) (List.prefix_refl _)
    · rcases Nat.lt_or_gt_of_ne hc with hlt | hgt
      · exact List.getElem?_append_left hlt
      · rw [Engine.register, List.getElem?_append_right hgt.le, List.getElem?_eq_none hgt.le]
        refine List.getElem?_eq_none ?_
        rw [List.length_singleton]
        omega
    · rw [hsenders, hsenders']
      exact List.mem_append_left _
    · rw [hreached, reached_of_not_locked hlocked]

end Engine

/-- What a drain leaves: the mark is at all that has been offered. -/
def lastDrain (c : ℕ) (engine : Engine F) : EngineAct F → Option ℕ → Option ℕ
  | .drain c', mark => if c' = c then some (engine.reached c) else mark
  | _, mark => mark

namespace Engine

variable {engine engine' : Engine F} {c : ℕ} {mark : Option ℕ}

/-- **The queue holds the oldest deliveries since the mark**, whatever is done. -/
theorem Queues.act (hordered : engine.Ordered) (h : engine.Queues c mark) {act : EngineAct F}
    (hact : engine.act act = some engine') : engine'.Queues c (lastDrain c engine act mark) := by
  cases act with
  | move move => exact h.move hordered hact
  | subscribe =>
      obtain ⟨⟨c', engine'⟩, hsubscribe, rfl⟩ := Option.map_eq_some_iff.mp hact
      obtain ⟨hlocked, -, rfl⟩ := subscribe_eq_some hsubscribe
      exact h.register hlocked
  | notify =>
      cases hact
      exact (unnoticed_notifyAll engine).queues h
  | drain c' =>
      obtain ⟨⟨samples, engine'⟩, hdrain, rfl⟩ := Option.map_eq_some_iff.mp hact
      obtain ⟨feed, channel, hfeed, hreceiving, -, hempty, hbound, -, rfl⟩ := drain_eq_some hdrain
      by_cases hc : c' = c
      · subst hc
        have hlt := (List.getElem?_eq_some_iff.mp hfeed).1
        obtain ⟨hmem, -, -⟩ := h.queue feed hfeed hreceiving
        have hset : (engine.setChannel c' feed channel).feeds[c']? = some { feed with channel } :=
          List.getElem?_set_self hlt
        rw [lastDrain, if_pos rfl]
        refine ⟨?_, ?_, ?_⟩
        · intro hnone
          rw [hset] at hnone
          cases hnone
        · intro feed' hfeed'
          cases hset.symm.trans hfeed'
          exact hbound.trans (h.bound feed hfeed)
        · intro feed' hfeed' _
          cases hset.symm.trans hfeed'
          refine ⟨hmem, le_refl _, ?_⟩
          rw [hempty]
          have hnothing : (engine.setChannel c' feed channel).deliveredSince c' (engine.reached c')
              = [] := deliveredSince_reached (engine.setChannel c' feed channel) c'
          rw [Option.getD_some, hnothing, List.take_nil]
      · rw [lastDrain, if_neg hc]
        exact h.setChannel_ne hc feed channel
  | drop c' =>
      obtain ⟨halive, heq⟩ := Option.ite_none_right_eq_some.mp hact
      cases heq
      obtain ⟨feed, hfeed, -⟩ := alive_iff.mp halive
      rw [hangUp_eq hfeed]
      by_cases hc : c' = c
      · subst hc
        have hlt := (List.getElem?_eq_some_iff.mp hfeed).1
        have hset : (engine.setChannel c' feed feed.channel.hangUp).feeds[c']?
            = some { feed with channel := feed.channel.hangUp } := List.getElem?_set_self hlt
        refine ⟨?_, ?_, ?_⟩
        · intro hnone
          rw [hset] at hnone
          cases hnone
        · intro feed' hfeed'
          cases hset.symm.trans hfeed'
          exact h.bound feed hfeed
        · intro feed' hfeed' hreceiving
          cases hset.symm.trans hfeed'
          cases hreceiving
      · exact h.setChannel_ne hc feed _
  | elapse d =>
      cases hact
      exact (unnoticed_elapse engine d).queues h
  | stop => exact (unnoticed_stop hact).queues h

end Engine

/-! ### Every drain of a run -/

/-- The deliveries since the drain before, or since subscribing. -/
def undrained (c : ℕ) (s : Engine F × Option ℕ) : List (ℕ × Sample F) :=
  s.1.deliveredSince c (s.2.getD (s.1.feeds[c]?.elim 0 Feed.since))

/-- **A drain of channel `c` returns the newest**, oldest first, of the deliveries since the drain
before: as many as fit in the queue. -/
def DrainsNewest (c : ℕ) (s : Engine F × Option ℕ) (act : EngineAct F) : Prop :=
  act = .drain c → ∀ samples engine', s.1.drain c = some (samples, engine') →
    samples = (undrained c s).drop ((undrained c s).length - SUBSCRIBER_QUEUE_DEPTH)

/-- A drain comes before more has been delivered than fits in the queue. -/
def DrainsInTime (c : ℕ) (s : Engine F × Option ℕ) (act : EngineAct F) : Prop :=
  act = .drain c → (undrained c s).length ≤ SUBSCRIBER_QUEUE_DEPTH

instance (c : ℕ) (s : Engine F × Option ℕ) (act : EngineAct F) : Decidable (DrainsInTime c s act) :=
  match act with
  | .drain c' =>
      if hc : c' = c then
        decidable_of_iff ((undrained c s).length ≤ SUBSCRIBER_QUEUE_DEPTH)
          ⟨fun h _ => h, fun h => h (by rw [hc])⟩
      else .isTrue fun h => absurd (EngineAct.drain.inj h) hc
  | .move _ | .subscribe | .notify | .drop _ | .elapse _ | .stop => .isTrue fun h => by cases h

theorem drainsNewest_step {c : ℕ} {s t : Engine F × Option ℕ} {act : EngineAct F}
    (h : s.1.Queues c s.2) (hact : Transition.tracked Engine.act (lastDrain c) s act = some t) :
    DrainsNewest c s act ↔ DrainsInTime c s act := by
  by_cases hdrain : act = .drain c
  · subst hdrain
    obtain ⟨hact, -⟩ := Transition.tracked_eq_some.mp hact
    obtain ⟨⟨samples, engine'⟩, hsamples, -⟩ := Option.map_eq_some_iff.mp hact
    obtain ⟨feed, channel, hfeed, hreceiving, hall, -, -, -, -⟩ := Engine.drain_eq_some hsamples
    obtain ⟨-, -, hqueue⟩ := h.queue feed hfeed hreceiving
    -- what is returned are the oldest
    have hreturned : samples = (undrained c s).take SUBSCRIBER_QUEUE_DEPTH := by
      rw [hall, hqueue, undrained, hfeed]
      rfl
    have hiff := take_eq_drop_iff (s.1.deliveredSince_nodup c
      (s.2.getD (s.1.feeds[c]?.elim 0 Feed.since))) (n := SUBSCRIBER_QUEUE_DEPTH) (by decide)
    constructor
    · intro hnewest _
      exact hiff.mp (hreturned.symm.trans (hnewest rfl samples engine' hsamples))
    · intro hintime _ samples' engine'' hsamples'
      cases hsamples.symm.trans hsamples'
      exact hreturned.trans (hiff.mpr (hintime rfl))
  · exact iff_of_true (fun h => absurd h hdrain) (fun h => absurd h hdrain)

/-- **When a slow subscriber sees the newest samples.**  In a run of the engine, every drain of a
subscription returns the newest of what was delivered since the drain before exactly if no drain
comes after more than `SUBSCRIBER_QUEUE_DEPTH` deliveries. -/
theorem drainsNewest_iff (c : ℕ) {acts : List (EngineAct F)} {engine : Engine F}
    (hrun : Transition.run Engine.act .start acts = some engine) :
    (∀ done act, done ++ [act] <+: acts → ∀ t v,
      Transition.run (Transition.tracked Engine.act (lastDrain c)) (.start, none) done = some t →
      Transition.tracked Engine.act (lastDrain c) t act = some v → DrainsNewest c t act) ↔
      Transition.Meets (Transition.tracked Engine.act (lastDrain c)) (DrainsInTime c)
        (.start, none) acts := by
  obtain ⟨mark, hrun⟩ := Transition.exists_tracked (lastDrain c) none hrun
  refine Transition.forall_steps_iff_meets
    (A := fun s : Engine F × Option ℕ => s.1.Ordered ∧ s.1.Queues c s.2)
    (R := fun s act _ => DrainsNewest c s act) ?_ ?_ ⟨Engine.ordered_start, ?_⟩ hrun
  · rintro s act t ⟨hordered, hqueues⟩ hstep
    obtain ⟨hact, hmark⟩ := Transition.tracked_eq_some.mp hstep
    rw [hmark]
    exact ⟨hordered.act hact, hqueues.act hordered hact⟩
  · rintro s act t ⟨-, hqueues⟩ hstep
    exact drainsNewest_step hqueues hstep
  · refine ⟨fun _ => rfl, ?_, ?_⟩
    · intro feed hfeed
      simp [Engine.start] at hfeed
    · intro feed hfeed
      simp [Engine.start] at hfeed

/-- A wake-up of the sampler a second after the one before, with a sample for one subscriber. -/
def tickAt (tsMs : Int64) : List (EngineAct ℕ) :=
  [.move .wait, .elapse LIVE_INTERVAL, .move .timeout, .move .resume,
    .move (.sample (some (sampleAt tsMs))), .move .lock, .move .trySend, .move .trySend,
    .move .store]

/-- Four samples for one subscriber, and then it drains. -/
def fourTicks : List (EngineAct ℕ) :=
  .subscribe :: ([1000, 2000, 3000, 4000].flatMap tickAt ++ [.drain 0])

/-- Five samples for one subscriber. -/
def fiveTicks : List (EngineAct ℕ) :=
  .subscribe :: [1000, 2000, 3000, 4000, 5000].flatMap tickAt

/-- The drain after four samples returns all of them. -/
theorem drainsNewest_iff_four : ∃ engine,
    Transition.run Engine.act (.start : Engine ℕ) fourTicks = some engine ∧
      ∀ done act, done ++ [act] <+: fourTicks → ∀ t v,
        Transition.run (Transition.tracked Engine.act (lastDrain 0)) (.start, none) done = some t →
        Transition.tracked Engine.act (lastDrain 0) t act = some v → DrainsNewest 0 t act := by
  have hsome : (Transition.run Engine.act (.start : Engine ℕ) fourTicks).isSome = true := by
    decide +kernel
  obtain ⟨engine, hrun⟩ := Option.isSome_iff_exists.mp hsome
  exact ⟨engine, hrun, (drainsNewest_iff 0 hrun).mpr (by decide +kernel)⟩

/-- After five samples the subscriber drains the first four, and the newest is lost. -/
theorem drains_oldest : ¬∀ (c : ℕ) (acts : List (EngineAct ℕ)) (s t : Engine ℕ × Option ℕ),
    Transition.run (Transition.tracked Engine.act (lastDrain c)) (.start, none) acts = some s →
    Transition.tracked Engine.act (lastDrain c) s (.drain c) = some t →
    DrainsNewest c s (.drain c) := by
  intro h
  have hrun : ((Transition.run (Transition.tracked Engine.act (lastDrain 0))
      ((.start, none) : Engine ℕ × Option ℕ) fiveTicks).any fun s =>
        (s.1.drain 0).any fun drained =>
          decide (drained.1.map Prod.fst = [0, 1, 2, 3]) &&
            decide ((undrained 0 s).map Prod.fst = [0, 1, 2, 3, 4])) = true := by
    decide +kernel
  obtain ⟨s, hs, hdrain⟩ := (Option.any_eq_true _ _).mp hrun
  obtain ⟨⟨samples, engine'⟩, hdrain, hvalues⟩ := (Option.any_eq_true _ _).mp hdrain
  rw [Bool.and_eq_true, decide_eq_true_eq, decide_eq_true_eq] at hvalues
  have hnewest := h 0 fiveTicks s (engine', some (s.1.reached 0)) hs
    (by simp [Transition.tracked, Engine.act, hdrain, lastDrain]) rfl samples engine' hdrain
  have hlength : (undrained 0 s).length = 5 := by
    simpa using congrArg List.length hvalues.2
  have hnumbers := congrArg (List.map Prod.fst) hnewest
  rw [hvalues.1, List.map_drop, hvalues.2, hlength] at hnumbers
  exact absurd hnumbers (by decide)

end Osprey
