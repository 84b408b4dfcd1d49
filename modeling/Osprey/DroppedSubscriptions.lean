/-
**When a dropped subscription is forgotten.**

The engine finds out that a subscription is gone when it offers it a sample: `deliver` retains only
the senders that are not told so.  A wake-up whose platform read fails offers nothing, and the
senders of dropped subscriptions stay: the sampler keeps the live cadence for nobody.

Main definitions:

* `Osprey.Engine.gone` — the channels whose subscription has been dropped;
* `Osprey.goneAtWake` — the same as of the beginning of the latest wake-up;
* `Osprey.Forgotten` — no sender is kept for a subscription that was gone by then.

Main results:

* `Osprey.Prunes.act` — **a delivery keeps no sender that was gone when the wake-up began**;
* `Osprey.forgotten_iff` — dropped subscriptions are forgotten at every wake-up of a run exactly
  where no read fails while one is listed.
-/

import Osprey.EngineRuns

set_option relaxedAutoImplicit false
set_option autoImplicit false

namespace Osprey

variable {F : Type}

namespace Engine

/-- The channels whose subscription has been dropped. -/
def gone (engine : Engine F) : List ℕ :=
  (List.range engine.feeds.length).filter fun c => !engine.alive c

/-- The sampler is between two wake-ups. -/
def resting (engine : Engine F) : Bool :=
  match engine.sampler with
  | .top | .waiting _ _ => true
  | _ => false

end Engine

/-- A wait of the sampler does not survive this. -/
def EngineAct.endsWait : EngineAct F → Bool
  | .move .timeout | .move .spurious | .notify | .stop => true
  | _ => false

/-- The channels that were gone when the latest wake-up began. -/
def goneAtWake (engine : Engine F) (act : EngineAct F) (gone : List ℕ) : List ℕ :=
  match engine.sampler with
  | .waiting _ _ => if act.endsWait then engine.gone else gone
  | _ => gone

/-- **Dropped subscriptions are forgotten.** -/
structure Forgotten (engine : Engine F) (gone : List ℕ) : Prop where
  /-- Every sender belongs to a subscription that was alive after the wake-up began. -/
  kept : ∀ c ∈ engine.subscribers, c ∉ gone
  /-- With no such subscription, the next wait is an idle one. -/
  idle : (∀ c < engine.feeds.length, c ∈ gone) → ∀ engine' interval since,
    engine.move .wait = some engine' → engine'.sampler = .waiting interval since →
      interval = IDLE_INTERVAL
  /-- There are no more senders than such subscriptions. -/
  bounded : engine.subscribers.length + gone.length ≤ engine.feeds.length

/-! ### What a delivery prunes -/

/-- The channels in `gone` are gone, and `retain` has kept none of them so far. -/
structure Prunes (engine : Engine F) (gone : List ℕ) : Prop where
  nodup : gone.Nodup
  dead : ∀ c ∈ gone, ∃ feed, engine.feeds[c]? = some feed ∧ feed.channel.receiving = false
  sending : ∀ n sample rest kept, engine.sampler = .sending n sample rest kept →
    ∀ c ∈ kept, c ∉ gone
  storing : ∀ sample, engine.sampler = .storing sample → ∀ c ∈ engine.subscribers, c ∉ gone

variable {engine engine' : Engine F} {gone : List ℕ}

theorem Engine.nodup_gone (engine : Engine F) : engine.gone.Nodup :=
  List.nodup_range.filter _

theorem Engine.mem_gone {c : ℕ} (h : c ∈ engine.gone) :
    ∃ feed, engine.feeds[c]? = some feed ∧ feed.channel.receiving = false := by
  obtain ⟨hrange, halive⟩ := List.mem_filter.mp h
  have hlt := List.mem_range.mp hrange
  refine ⟨engine.feeds[c], List.getElem?_eq_getElem hlt, ?_⟩
  rw [Engine.alive, List.getElem?_eq_getElem hlt] at halive
  simpa using halive

/-- Between two wake-ups, the senders that are kept decide the rest. -/
theorem forgotten_of_kept (hordered : engine.Ordered) (h : Prunes engine gone)
    (hresting : engine.resting = true) (hkept : ∀ c ∈ engine.subscribers, c ∉ gone) :
    Forgotten engine gone := by
  have hcurrent : engine.current = none := by
    unfold Engine.resting at hresting
    unfold Engine.current
    split
    · rename_i hsampler
      rw [hsampler] at hresting
      cases hresting
    · rfl
  have hsenders := (Engine.quiet_of_current hcurrent).2
  have hnodup := hordered.nodup
  have hregistered := hordered.registered
  rw [hsenders] at hnodup hregistered
  refine ⟨hkept, ?_, ?_⟩
  · intro hall engine' interval since hwait hwaiting
    have hempty : engine.subscribers = [] := by
      refine List.eq_nil_iff_forall_not_mem.mpr fun c hc => ?_
      exact hkept c hc (hall c (hregistered c hc))
    cases Engine.moves_of_move hwait with
    | wait hsampler hrunning =>
        rw [hempty] at hwaiting
        cases hwaiting
        rfl
    | quit hsampler hrunning => cases hwaiting
  · -- senders and channels that are gone are different channels
    rw [← List.length_append, ← List.length_range (n := engine.feeds.length)]
    have hdisjoint : (engine.subscribers ++ gone).Nodup := by
      refine List.nodup_append.mpr ⟨hnodup, h.nodup, ?_⟩
      rintro c hc c' hc' rfl
      exact hkept c hc hc'
    refine (hdisjoint.subperm ?_).length_le
    intro c hc
    rw [List.mem_range]
    rcases List.mem_append.mp hc with hc | hc
    · exact hregistered c hc
    · obtain ⟨feed, hfeed, -⟩ := h.dead c hc
      exact (List.getElem?_eq_some_iff.mp hfeed).1

/-- The subscription of a channel has been dropped. -/
def Engine.Dead (engine : Engine F) (c : ℕ) : Prop :=
  ∃ feed, engine.feeds[c]? = some feed ∧ feed.channel.receiving = false

theorem Engine.Dead.setChannel {c c' : ℕ} (h : engine.Dead c) {feed : Feed F}
    (hfeed : engine.feeds[c']? = some feed) {channel : SyncChannel (ℕ × Sample F)}
    (hreceiving : feed.channel.receiving = false → channel.receiving = false) :
    (engine.setChannel c' feed channel).Dead c := by
  obtain ⟨feed', hfeed', hdead⟩ := h
  by_cases hc : c' = c
  · subst hc
    cases hfeed.symm.trans hfeed'
    exact ⟨_, List.getElem?_set_self (List.getElem?_eq_some_iff.mp hfeed).1, hreceiving hdead⟩
  · exact ⟨feed', (List.getElem?_set_ne hc).trans hfeed', hdead⟩

/-- A subscription that is gone stays so. -/
theorem Engine.Dead.act {c : ℕ} (h : engine.Dead c) {act : EngineAct F}
    (hact : engine.act act = some engine') : engine'.Dead c := by
  cases act with
  | move move =>
      cases Engine.moves_of_move hact with
      | trySend hsampler hfeed =>
          refine h.setChannel hfeed fun hreceiving => ?_
          rw [(SyncChannel.trySend_same _ _).2]
          exact hreceiving
      | _ => exact h
  | subscribe =>
      obtain ⟨⟨c', engine'⟩, hsubscribe, rfl⟩ := Option.map_eq_some_iff.mp hact
      obtain ⟨-, -, rfl⟩ := Engine.subscribe_eq_some hsubscribe
      obtain ⟨feed, hfeed, hdead⟩ := h
      have hlt := (List.getElem?_eq_some_iff.mp hfeed).1
      exact ⟨feed, (List.getElem?_append_left hlt).trans hfeed, hdead⟩
  | notify =>
      cases hact
      have hfeeds := (Engine.unnoticed_notifyAll engine).feeds
      unfold Engine.Dead
      rw [hfeeds]
      exact h
  | drain c' =>
      obtain ⟨⟨samples, engine'⟩, hdrain, rfl⟩ := Option.map_eq_some_iff.mp hact
      obtain ⟨feed, channel, hfeed, hreceiving, -, -, -, -, rfl⟩ := Engine.drain_eq_some hdrain
      refine h.setChannel hfeed fun hdead => ?_
      rw [hreceiving] at hdead
      cases hdead
  | drop c' =>
      obtain ⟨halive, heq⟩ := Option.ite_none_right_eq_some.mp hact
      cases heq
      obtain ⟨feed, hfeed, -⟩ := Engine.alive_iff.mp halive
      rw [Engine.hangUp_eq hfeed]
      exact h.setChannel hfeed fun _ => rfl
  | elapse d =>
      cases hact
      exact h
  | stop =>
      have hfeeds := (Engine.unnoticed_stop hact).feeds
      unfold Engine.Dead
      rw [hfeeds]
      exact h

/-- While no sample is being delivered, nothing is asked of the senders. -/
theorem prunes_of_not_locked (hnodup : gone.Nodup) (hdead : ∀ c ∈ gone, engine.Dead c)
    (hlocked : engine.locked = false) : Prunes engine gone := by
  unfold Engine.locked at hlocked
  refine ⟨hnodup, hdead, ?_, ?_⟩
  · intro n sample rest kept hsampler
    rw [hsampler] at hlocked
    cases hlocked
  · intro sample hsampler
    rw [hsampler] at hlocked
    cases hlocked

/-- Neither the sampler nor the senders change. -/
theorem Prunes.same (h : Prunes engine gone) (hdead : ∀ c ∈ gone, engine'.Dead c)
    (hsampler : engine'.sampler = engine.sampler)
    (hsubscribers : engine'.subscribers = engine.subscribers) : Prunes engine' gone := by
  refine ⟨h.nodup, hdead, ?_, ?_⟩
  · rw [hsampler]
    exact h.sending
  · rw [hsampler, hsubscribers]
    exact h.storing

/-- The channels that were gone at the wake-up are so afterwards. -/
theorem dead_of_mem_goneAtWake (h : Prunes engine gone) {act : EngineAct F}
    (hact : engine.act act = some engine') :
    (goneAtWake engine act gone).Nodup ∧ ∀ c ∈ goneAtWake engine act gone, engine'.Dead c := by
  have hnow : engine.gone.Nodup ∧ ∀ c ∈ engine.gone, engine'.Dead c :=
    ⟨engine.nodup_gone, fun c hc => Engine.Dead.act (Engine.mem_gone hc) hact⟩
  have hbefore : gone.Nodup ∧ ∀ c ∈ gone, engine'.Dead c :=
    ⟨h.nodup, fun c hc => Engine.Dead.act (h.dead c hc) hact⟩
  unfold goneAtWake
  split
  · split
    · exact hnow
    · exact hbefore
  · exact hbefore

/-- Outside of a wait nothing begins a wake-up. -/
theorem goneAtWake_of_not_waiting (hsampler : ∀ interval since,
    engine.sampler ≠ .waiting interval since) (act : EngineAct F) :
    goneAtWake engine act gone = gone := by
  unfold goneAtWake
  split
  · rename_i interval since hwaiting
    exact absurd hwaiting (hsampler interval since)
  · rfl

theorem goneAtWake_of_not_endsWait {act : EngineAct F} (h : act.endsWait = false) :
    goneAtWake engine act gone = gone := by
  unfold goneAtWake
  split
  · rw [h]
    rfl
  · rfl

/-- **A delivery keeps no sender that was gone when the wake-up began**: each is told so when it is
offered the sample. -/
theorem Prunes.act (h : Prunes engine gone) {act : EngineAct F}
    (hact : engine.act act = some engine') : Prunes engine' (goneAtWake engine act gone) := by
  obtain ⟨hnodup, hdead⟩ := dead_of_mem_goneAtWake h hact
  cases act with
  | move move =>
      cases Engine.moves_of_move hact with
      | wait hsampler | quit hsampler | timeout hsampler | spurious hsampler | resume hsampler
      | leave hsampler | sample hsampler | fail hsampler | store hsampler =>
          exact prunes_of_not_locked hnodup hdead rfl
      | lock hsampler =>
          refine ⟨hnodup, hdead, ?_, ?_⟩
          · intro n sample rest kept hsending
            cases hsending
            intro c hc
            cases hc
          · intro sample hstoring
            cases hstoring
      | trySend hsampler hfeed =>
          rename_i n sample c rest kept feed
          rw [goneAtWake_of_not_waiting (by simp [hsampler])] at hnodup hdead ⊢
          refine ⟨hnodup, hdead, ?_, ?_⟩
          · intro n' sample' rest' kept' hsending c' hc'
            cases hsending
            split at hc'
            · exact h.sending n sample (c :: rest) kept hsampler c' hc'
            · rename_i hconnected
              rcases List.mem_append.mp hc' with hc' | hc'
              · exact h.sending n sample (c :: rest) kept hsampler c' hc'
              · -- the sender that has just been tried
                obtain rfl := List.mem_singleton.mp hc'
                intro hgone
                obtain ⟨feed', hfeed', hreceiving⟩ := h.dead c' hgone
                cases hfeed.symm.trans hfeed'
                exact hconnected
                  ((SyncChannel.trySend_error_disconnected_iff _ _).mpr hreceiving)
          · intro sample' hstoring
            cases hstoring
      | retained hsampler =>
          rename_i n sample kept
          rw [goneAtWake_of_not_waiting (by simp [hsampler])] at hnodup hdead ⊢
          refine ⟨hnodup, hdead, ?_, ?_⟩
          · intro n' sample' rest' kept' hsending
            cases hsending
          · intro sample' _
            exact h.sending n sample [] kept hsampler
  | subscribe =>
      obtain ⟨⟨c, engine'⟩, hsubscribe, rfl⟩ := Option.map_eq_some_iff.mp hact
      obtain ⟨hlocked, -, rfl⟩ := Engine.subscribe_eq_some hsubscribe
      exact prunes_of_not_locked hnodup hdead hlocked
  | notify =>
      cases hact
      unfold Engine.notifyAll at hdead ⊢
      split at hdead
      · exact prunes_of_not_locked hnodup hdead rfl
      · rename_i hsampler
        rw [goneAtWake_of_not_waiting (fun i t h => hsampler i t h)] at hdead ⊢
        exact h.same hdead rfl rfl
  | drain c =>
      rw [goneAtWake_of_not_endsWait rfl] at hdead ⊢
      obtain ⟨⟨samples, engine'⟩, hdrain, rfl⟩ := Option.map_eq_some_iff.mp hact
      obtain ⟨feed, channel, -, -, -, -, -, -, rfl⟩ := Engine.drain_eq_some hdrain
      exact h.same hdead rfl rfl
  | drop c =>
      rw [goneAtWake_of_not_endsWait rfl] at hdead ⊢
      obtain ⟨halive, heq⟩ := Option.ite_none_right_eq_some.mp hact
      cases heq
      obtain ⟨feed, hfeed, -⟩ := Engine.alive_iff.mp halive
      rw [Engine.hangUp_eq hfeed] at hdead ⊢
      exact h.same hdead rfl rfl
  | elapse d =>
      rw [goneAtWake_of_not_endsWait rfl] at hdead ⊢
      cases hact
      exact h.same hdead rfl rfl
  | stop =>
      obtain ⟨hlocked, hstopped⟩ := Option.ite_none_left_eq_some.mp hact
      cases hstopped
      refine prunes_of_not_locked hnodup hdead ?_
      rw [Engine.locked_notifyAll]
      exact Bool.eq_false_iff.mpr hlocked

/-! ### Every wake-up of a run -/

/-- A read that fails finds no sender listed that was gone when the wake-up began. -/
def FailsPruned (s : Engine F × List ℕ) (act : EngineAct F) : Prop :=
  act = .move (.sample none) → ∀ c ∈ s.1.subscribers, c ∉ s.2

instance (s : Engine F × List ℕ) (act : EngineAct F) : Decidable (FailsPruned s act) :=
  match act with
  | .move (.sample none) =>
      decidable_of_iff (∀ c ∈ s.1.subscribers, c ∉ s.2) ⟨fun h _ => h, fun h => h rfl⟩
  | .move .wait | .move .timeout | .move .spurious | .move .resume | .move (.sample (some _))
  | .move .lock | .move .trySend | .move .store | .subscribe | .notify | .drain _ | .drop _
  | .elapse _ | .stop => .isTrue fun h => by cases h

/-- Waking the sampler leaves it resting only if it was not waiting, and then as it was. -/
theorem Engine.resting_notifyAll (h : engine.notifyAll.resting = true) :
    engine.resting = true ∧ ∀ interval since, engine.sampler ≠ .waiting interval since := by
  unfold Engine.notifyAll at h
  split at h
  · cases h
  · rename_i hsampler
    exact ⟨h, fun i t => hsampler i t⟩

/-- The senders between two wake-ups, after whatever is done: all but a failing read keeps them
pruned. -/
theorem kept_act {s : Engine F × List ℕ} (h : Prunes s.1 s.2)
    (hkept : s.1.resting = true → ∀ c ∈ s.1.subscribers, c ∉ s.2) {act : EngineAct F}
    (hact : s.1.act act = some engine') :
    (engine'.resting = true → ∀ c ∈ engine'.subscribers, c ∉ goneAtWake s.1 act s.2) ↔
      FailsPruned s act := by
  obtain ⟨engine, gone⟩ := s
  simp only at h hkept hact ⊢
  cases act with
  | move move =>
      cases Engine.moves_of_move hact with
      | fail hsampler =>
          rw [goneAtWake_of_not_waiting (by simp [hsampler])]
          exact ⟨fun hall _ => hall rfl, fun hfails _ => hfails rfl⟩
      | wait hsampler =>
          rw [goneAtWake_of_not_waiting (by simp [hsampler])]
          refine iff_of_true (fun _ => hkept ?_) (fun heq => by cases heq)
          simp [Engine.resting, hsampler]
      | store hsampler =>
          rw [goneAtWake_of_not_waiting (by simp [hsampler])]
          exact iff_of_true (fun _ => h.storing _ hsampler) (fun heq => by cases heq)
      | quit hsampler | timeout hsampler | spurious hsampler | resume hsampler
      | leave hsampler | sample hsampler | lock hsampler | trySend hsampler hfeed
      | retained hsampler =>
          refine iff_of_true (fun hresting => ?_) (fun heq => by cases heq)
          cases hresting
  | subscribe =>
      obtain ⟨⟨c, engine'⟩, hsubscribe, rfl⟩ := Option.map_eq_some_iff.mp hact
      obtain ⟨-, -, rfl⟩ := Engine.subscribe_eq_some hsubscribe
      rw [goneAtWake_of_not_endsWait rfl]
      refine iff_of_true (fun hresting c hc => ?_) (fun heq => by cases heq)
      rcases List.mem_append.mp hc with hc | hc
      · exact hkept hresting c hc
      · -- the channel is new, so it was not there to be gone
        rw [List.mem_singleton.mp hc]
        intro hgone
        obtain ⟨feed, hfeed, -⟩ := h.dead _ hgone
        exact Nat.lt_irrefl _ (List.getElem?_eq_some_iff.mp hfeed).1
  | notify =>
      cases hact
      refine iff_of_true (fun hresting => ?_) (fun heq => by cases heq)
      obtain ⟨hresting, hsampler⟩ := Engine.resting_notifyAll hresting
      rw [goneAtWake_of_not_waiting hsampler, (Engine.notifyAll_of_not_waiting hsampler)]
      exact hkept hresting
  | drain c =>
      obtain ⟨⟨samples, engine'⟩, hdrain, rfl⟩ := Option.map_eq_some_iff.mp hact
      obtain ⟨feed, channel, -, -, -, -, -, -, rfl⟩ := Engine.drain_eq_some hdrain
      rw [goneAtWake_of_not_endsWait rfl]
      exact iff_of_true hkept (fun heq => by cases heq)
  | drop c =>
      obtain ⟨halive, heq⟩ := Option.ite_none_right_eq_some.mp hact
      cases heq
      obtain ⟨feed, hfeed, -⟩ := Engine.alive_iff.mp halive
      rw [Engine.hangUp_eq hfeed, goneAtWake_of_not_endsWait rfl]
      exact iff_of_true hkept (fun heq => by cases heq)
  | elapse d =>
      cases hact
      rw [goneAtWake_of_not_endsWait rfl]
      exact iff_of_true hkept (fun heq => by cases heq)
  | stop =>
      obtain ⟨hlocked, hstopped⟩ := Option.ite_none_left_eq_some.mp hact
      cases hstopped
      refine iff_of_true (fun hresting => ?_) (fun heq => by cases heq)
      obtain ⟨hresting, hsampler⟩ := Engine.resting_notifyAll hresting
      have hsampler' : ∀ interval since, engine.sampler ≠ .waiting interval since := hsampler
      rw [goneAtWake_of_not_waiting hsampler', (Engine.notifyAll_of_not_waiting hsampler)]
      exact hkept hresting

/-- **When dropped subscriptions are forgotten.**  In a run of the engine they are so at every
moment between two wake-ups exactly if no platform read fails while a sender is listed whose
subscription was gone when the wake-up began. -/
theorem forgotten_iff {acts : List (EngineAct F)} {engine : Engine F}
    (hrun : Transition.run Engine.act .start acts = some engine) :
    (∀ done, done <+: acts → ∀ s,
      Transition.run (Transition.tracked Engine.act goneAtWake) (.start, []) done = some s →
      s.1.resting = true → Forgotten s.1 s.2) ↔
      Transition.Meets (Transition.tracked Engine.act goneAtWake) FailsPruned (.start, [])
        acts := by
  obtain ⟨gone, hrun⟩ := Transition.exists_tracked goneAtWake [] hrun
  refine Transition.forall_states_iff_meets
    (A := fun s : Engine F × List ℕ => s.1.Ordered ∧ Prunes s.1 s.2)
    (I := fun s => s.1.resting = true → Forgotten s.1 s.2) ?_ ?_ ?_ ?_ hrun
  · rintro s act t ⟨hordered, hprunes⟩ hstep
    obtain ⟨hact, hgone⟩ := Transition.tracked_eq_some.mp hstep
    rw [hgone]
    exact ⟨hordered.act hact, hprunes.act hact⟩
  · rintro s act t ⟨hordered, hprunes⟩ hforgotten hstep
    obtain ⟨hact, hgone⟩ := Transition.tracked_eq_some.mp hstep
    rw [← kept_act hprunes (fun hresting => (hforgotten hresting).kept) hact, hgone]
    constructor
    · intro h hresting
      exact (h hresting).kept
    · intro h hresting
      exact forgotten_of_kept (hordered.act hact) (hprunes.act hact) hresting (h hresting)
  · refine ⟨Engine.ordered_start, prunes_of_not_locked List.nodup_nil ?_ rfl⟩
    intro c hc
    cases hc
  · intro hresting
    refine forgotten_of_kept Engine.ordered_start ?_ hresting ?_
    · exact prunes_of_not_locked List.nodup_nil (fun c hc => by cases hc) rfl
    · intro c hc
      cases hc

/-- A subscription is made and dropped, and the sampler wakes up and reads the platform. -/
def droppedBefore (result : Option (Sample ℕ)) : List (EngineAct ℕ) :=
  [.subscribe, .notify, .drop 0, .move .wait, .elapse LIVE_INTERVAL, .move .timeout, .move .resume,
    .move (.sample result)]

/-- With a sample, the delivery finds out that the subscription is gone. -/
def prunedOnce : List (EngineAct ℕ) :=
  droppedBefore (some (sampleAt 1000)) ++
    [.move .lock, .move .trySend, .move .trySend, .move .store]

theorem forgotten_iff_pruned : ∃ engine,
    Transition.run Engine.act (.start : Engine ℕ) prunedOnce = some engine ∧
      ∀ done, done <+: prunedOnce → ∀ s,
        Transition.run (Transition.tracked Engine.act goneAtWake) (.start, []) done = some s →
        s.1.resting = true → Forgotten s.1 s.2 := by
  have hsome : (Transition.run Engine.act (.start : Engine ℕ) prunedOnce).isSome = true := by
    decide +kernel
  obtain ⟨engine, hrun⟩ := Option.isSome_iff_exists.mp hsome
  exact ⟨engine, hrun, (forgotten_iff hrun).mpr (by decide +kernel)⟩

/-- Without one, the sender of the dropped subscription stays, and the next wait is a live one. -/
theorem dropped_kept : ¬∀ (acts : List (EngineAct ℕ)) (s : Engine ℕ × List ℕ),
    Transition.run (Transition.tracked Engine.act goneAtWake) (.start, []) acts = some s →
    s.1.resting = true → Forgotten s.1 s.2 := by
  intro h
  have hrun : ((Transition.run (Transition.tracked Engine.act goneAtWake)
      ((.start, []) : Engine ℕ × List ℕ) (droppedBefore none)).any fun s =>
        s.1.resting && decide (s.1.subscribers = [0]) && decide (s.2 = [0])) = true := by
    decide +kernel
  obtain ⟨s, hs, hvalues⟩ := (Option.any_eq_true _ _).mp hrun
  rw [Bool.and_eq_true, Bool.and_eq_true, decide_eq_true_eq, decide_eq_true_eq] at hvalues
  obtain ⟨⟨hresting, hsubscribers⟩, hgone⟩ := hvalues
  refine (h (droppedBefore none) s hs hresting).kept 0 ?_ ?_
  · rw [hsubscribers]
    exact List.mem_singleton_self 0
  · rw [hgone]
    exact List.mem_singleton_self 0

end Osprey
