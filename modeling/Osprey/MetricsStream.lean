/-
**The metrics streams of the sessions.**

`push_ticks` and `handle_metrics_subscribe` of `session.rs`, for any number of sessions beside the
sampler.  A session does in one move what it does between two points where another thread can come
in between: one `try_recv`, one message on its wire, one hold of the engine's lock.

A session leaves a trace of what it did about metrics.  A tick is noted with the number of the
delivery that its sample comes from, and a registration with how many deliveries there had been.

Main definitions:

* `Osprey.StreamSession` with `step` — one session;
* `Osprey.MetricsSystem` with `step` — the sampler and the sessions;
* `Osprey.Identified` — every tick of a trace belongs to the last subscribe before it;
* `Osprey.StreamSession.Sound` — the invariant.

Main results:

* `Osprey.StreamSession.Sound.step` — a session keeps it;
* `Osprey.StreamSession.Sound.advances` — whatever the sampler and the other sessions do keeps it;
* `Osprey.ticks_identified` — **every tick carries the id of the subscribe it answers, a sample
  delivered since, and ticks come in the order of their deliveries**.
-/

import Osprey.Envelope
import Osprey.MetricsEngine
import Osprey.Transition

set_option relaxedAutoImplicit false
set_option autoImplicit false

namespace Osprey

/-! ### A session -/

/-- A `metrics.subscribe` that asked to keep streaming: its id, and the number of its channel. -/
structure ActiveStream where
  subId : Uuid
  subscription : ℕ
  deriving DecidableEq, Repr

/-- What a session does about metrics, as far as its peer is concerned. -/
inductive StreamEvent (F : Type)
  | requested (id : Uuid) (stream : Bool)
  | answered (id : Uuid) (stream : Bool) (body : MetricsHistoryBody F)
  /-- The subscription of the last request is registered, after so many deliveries. -/
  | registered (since : ℕ)
  /-- A tick is sent, with the sample of the `n`-th delivery. -/
  | tick (n : ℕ) (body : MetricsTickBody F)

/-- Where a session is in its loop. -/
inductive StreamControl (F : Type)
  | top
  /-- In `drain`, with the samples received so far. -/
  | draining (active : ActiveStream) (got : List (ℕ × Sample F))
  /-- In the loop of `push_ticks`, with the samples still to be sent. -/
  | pushing (subId : Uuid) (rest : List (ℕ × Sample F))
  | listening
  | asked (id : Uuid) (body : MetricsSubscribeBody)
  | backfilled (id : Uuid) (stream : Bool) (history : Option (History F))
  | answering (id : Uuid) (stream : Bool) (body : MetricsHistoryBody F)
  | subscribing (id : Uuid)
  /-- Between registering and waking the sampler. -/
  | notifying (id : Uuid) (c : ℕ)
  /-- The new stream is there, and the old one not yet dropped. -/
  | replacing (id : Uuid) (c : ℕ)
  | closing
  | ended

structure StreamSession (F : Type) where
  stream : Option ActiveStream
  control : StreamControl F
  trace : List (StreamEvent F)

variable {F : Type}

/-- A session after its `hello` was answered. -/
def StreamSession.opened : StreamSession F := ⟨none, .top, []⟩

inductive StreamMove
  | drain
  | recv
  | drained
  | push
  /-- Nothing arrives, or a message of another type is handled. -/
  | next
  /-- The session ends: the peer closes it, or a message cannot be read or written. -/
  | leave
  | request (id : Uuid) (body : MetricsSubscribeBody)
  | backfill (nowMs : Int64)
  | measure
  | answer
  | subscribe
  | notify
  | replace
  | close

/-- Dropping a stream drops its receiver. -/
def Engine.unsubscribe (engine : Engine F) : Option ActiveStream → Engine F
  | none => engine
  | some active => engine.hangUp active.subscription

namespace StreamSession

def note (session : StreamSession F) (event : StreamEvent F) (control : StreamControl F) :
    StreamSession F :=
  { session with control, trace := session.trace ++ [event] }

/-- One move of a session; `none` where it is not there, or has to wait. -/
def step (engine : Engine F) (session : StreamSession F) :
    StreamMove → Option (Engine F × StreamSession F)
  | .drain =>
      match session.control with
      | .top =>
          match session.stream with
          | none => some (engine, { session with control := .listening })
          | some active => some (engine, { session with control := .draining active [] })
      | _ => none
  | .recv =>
      match session.control with
      | .draining active got =>
          match engine.tryRecv active.subscription with
          | none => none
          | some (item, engine) =>
              some (engine, { session with control := .draining active (got ++ [item]) })
      | _ => none
  | .drained =>
      match session.control with
      | .draining active got =>
          if (engine.tryRecv active.subscription).isNone then
            if got.isEmpty then some (engine, { session with control := .listening })
            else some (engine, { session with control := .pushing active.subId got })
          else none
      | _ => none
  | .push =>
      match session.control with
      | .pushing subId (item :: rest) =>
          some (engine, session.note (.tick item.1 (.tickBody subId item.2)) (.pushing subId rest))
      | .pushing _ [] => some (engine, { session with control := .listening })
      | _ => none
  | .next =>
      match session.control with
      | .listening => some (engine, { session with control := .top })
      | _ => none
  | .leave =>
      match session.control with
      | .listening | .pushing _ _ | .answering _ _ _ =>
          some (engine.unsubscribe session.stream,
            { session with control := .ended, stream := none })
      | _ => none
  | .request id body =>
      match session.control with
      | .listening => some (engine, session.note (.requested id body.stream) (.asked id body))
      | _ => none
  | .backfill nowMs =>
      match session.control with
      | .asked id body =>
          match engine.history body.backfillSeconds nowMs with
          | none => none
          | some history =>
              some (engine, { session with control := .backfilled id body.stream history })
      | _ => none
  | .measure =>
      match session.control with
      | .backfilled id stream history =>
          match engine.latestTotalMemory with
          | none => none
          | some installed =>
              some (engine, { session with
                control := .answering id stream (.historyBody id history installed) })
      | _ => none
  | .answer =>
      match session.control with
      | .answering id stream body =>
          some (engine, session.note (.answered id stream body)
            (if stream then .subscribing id else .closing))
      | _ => none
  | .subscribe =>
      match session.control with
      | .subscribing id =>
          match engine.subscribe with
          | none => none
          | some (c, engine') =>
              some (engine', session.note (.registered engine.delivered.length) (.notifying id c))
      | _ => none
  | .notify =>
      match session.control with
      | .notifying id c => some (engine.notifyAll, { session with control := .replacing id c })
      | _ => none
  | .replace =>
      match session.control with
      | .replacing id c =>
          some (engine.unsubscribe session.stream,
            { session with control := .top, stream := some ⟨id, c⟩ })
      | _ => none
  | .close =>
      match session.control with
      | .closing =>
          some (engine.unsubscribe session.stream, { session with control := .top, stream := none })
      | _ => none

/-- **What a move can do.** -/
inductive Moves (engine : Engine F) (session : StreamSession F) :
    StreamMove → Engine F → StreamSession F → Prop
  | quiet (hcontrol : session.control = .top) (hstream : session.stream = none) :
      Moves engine session .drain engine { session with control := .listening }
  | drain (hcontrol : session.control = .top) {active : ActiveStream}
      (hstream : session.stream = some active) :
      Moves engine session .drain engine { session with control := .draining active [] }
  | recv {active : ActiveStream} {got : List (ℕ × Sample F)}
      (hcontrol : session.control = .draining active got) {item : ℕ × Sample F}
      {engine' : Engine F} (hrecv : engine.tryRecv active.subscription = some (item, engine')) :
      Moves engine session .recv engine'
        { session with control := .draining active (got ++ [item]) }
  | empty {active : ActiveStream} (hcontrol : session.control = .draining active [])
      (hempty : engine.tryRecv active.subscription = none) :
      Moves engine session .drained engine { session with control := .listening }
  | drained {active : ActiveStream} {got : List (ℕ × Sample F)}
      (hcontrol : session.control = .draining active got)
      (hempty : engine.tryRecv active.subscription = none) :
      Moves engine session .drained engine { session with control := .pushing active.subId got }
  | push {subId : Uuid} {item : ℕ × Sample F} {rest : List (ℕ × Sample F)}
      (hcontrol : session.control = .pushing subId (item :: rest)) :
      Moves engine session .push engine
        (session.note (.tick item.1 (.tickBody subId item.2)) (.pushing subId rest))
  | pushed {subId : Uuid} (hcontrol : session.control = .pushing subId []) :
      Moves engine session .push engine { session with control := .listening }
  | next (hcontrol : session.control = .listening) :
      Moves engine session .next engine { session with control := .top }
  | leave :
      Moves engine session .leave (engine.unsubscribe session.stream)
        { session with control := .ended, stream := none }
  | request (hcontrol : session.control = .listening) (id : Uuid) (body : MetricsSubscribeBody) :
      Moves engine session (.request id body) engine
        (session.note (.requested id body.stream) (.asked id body))
  | backfill {id : Uuid} {body : MetricsSubscribeBody} (hcontrol : session.control = .asked id body)
      {nowMs : Int64} {history : Option (History F)}
      (hhistory : engine.history body.backfillSeconds nowMs = some history) :
      Moves engine session (.backfill nowMs) engine
        { session with control := .backfilled id body.stream history }
  | measure {id : Uuid} {stream : Bool} {history : Option (History F)}
      (hcontrol : session.control = .backfilled id stream history) {installed : Option UInt64}
      (hinstalled : engine.latestTotalMemory = some installed) :
      Moves engine session .measure engine { session with
        control := .answering id stream (.historyBody id history installed) }
  | stream {id : Uuid} {body : MetricsHistoryBody F}
      (hcontrol : session.control = .answering id true body) :
      Moves engine session .answer engine
        (session.note (.answered id true body) (.subscribing id))
  | once {id : Uuid} {body : MetricsHistoryBody F}
      (hcontrol : session.control = .answering id false body) :
      Moves engine session .answer engine (session.note (.answered id false body) .closing)
  | subscribe {id : Uuid} (hcontrol : session.control = .subscribing id) {c : ℕ}
      {engine' : Engine F} (hsubscribe : engine.subscribe = some (c, engine')) :
      Moves engine session .subscribe engine'
        (session.note (.registered engine.delivered.length) (.notifying id c))
  | notify {id : Uuid} {c : ℕ} (hcontrol : session.control = .notifying id c) :
      Moves engine session .notify engine.notifyAll { session with control := .replacing id c }
  | replace {id : Uuid} {c : ℕ} (hcontrol : session.control = .replacing id c) :
      Moves engine session .replace (engine.unsubscribe session.stream)
        { session with control := .top, stream := some ⟨id, c⟩ }
  | close (hcontrol : session.control = .closing) :
      Moves engine session .close (engine.unsubscribe session.stream)
        { session with control := .top, stream := none }

variable {engine engine' : Engine F} {session session' : StreamSession F}

/-- A move does one of these things. -/
theorem moves_of_step {move : StreamMove}
    (h : session.step engine move = some (engine', session')) :
    Moves engine session move engine' session' := by
  cases move with
  | drain =>
      cases hcontrol : session.control with
      | top =>
          cases hstream : session.stream with
          | none =>
              simp only [step, hcontrol, hstream, Option.some.injEq, Prod.mk.injEq] at h
              obtain ⟨rfl, rfl⟩ := h
              simpa only [hstream] using Moves.quiet hcontrol hstream
          | some active =>
              simp only [step, hcontrol, hstream, Option.some.injEq, Prod.mk.injEq] at h
              obtain ⟨rfl, rfl⟩ := h
              simpa only [hstream] using Moves.drain hcontrol hstream
      | _ => simp [step, hcontrol] at h
  | recv =>
      cases hcontrol : session.control with
      | draining active got =>
          simp only [step, hcontrol] at h
          split at h
          · cases h
          · rename_i item engine'' hrecv
            cases h
            exact .recv hcontrol hrecv
      | _ => simp [step, hcontrol] at h
  | drained =>
      cases hcontrol : session.control with
      | draining active got =>
          simp only [step, hcontrol] at h
          split at h
          · rename_i hnone
            have hempty := Option.isNone_iff_eq_none.mp hnone
            split at h
            · rename_i hgot
              obtain rfl := List.isEmpty_iff.mp hgot
              cases h
              exact .empty hcontrol hempty
            · cases h
              exact .drained hcontrol hempty
          · cases h
      | _ => simp [step, hcontrol] at h
  | push =>
      cases hcontrol : session.control with
      | pushing subId rest =>
          cases rest with
          | nil =>
              simp only [step, hcontrol, Option.some.injEq, Prod.mk.injEq] at h
              obtain ⟨rfl, rfl⟩ := h
              exact .pushed hcontrol
          | cons item rest =>
              simp only [step, hcontrol, Option.some.injEq, Prod.mk.injEq] at h
              obtain ⟨rfl, rfl⟩ := h
              exact .push hcontrol
      | _ => simp [step, hcontrol] at h
  | next =>
      cases hcontrol : session.control with
      | listening =>
          simp only [step, hcontrol, Option.some.injEq, Prod.mk.injEq] at h
          obtain ⟨rfl, rfl⟩ := h
          exact .next hcontrol
      | _ => simp [step, hcontrol] at h
  | leave =>
      cases hcontrol : session.control with
      | listening | pushing | answering =>
          simp only [step, hcontrol, Option.some.injEq, Prod.mk.injEq] at h
          obtain ⟨rfl, rfl⟩ := h
          exact .leave
      | _ => simp [step, hcontrol] at h
  | request id body =>
      cases hcontrol : session.control with
      | listening =>
          simp only [step, hcontrol, Option.some.injEq, Prod.mk.injEq] at h
          obtain ⟨rfl, rfl⟩ := h
          exact .request hcontrol id body
      | _ => simp [step, hcontrol] at h
  | backfill nowMs =>
      cases hcontrol : session.control with
      | asked id body =>
          simp only [step, hcontrol] at h
          split at h
          · cases h
          · rename_i history hhistory
            cases h
            exact .backfill hcontrol hhistory
      | _ => simp [step, hcontrol] at h
  | measure =>
      cases hcontrol : session.control with
      | backfilled id stream history =>
          simp only [step, hcontrol] at h
          split at h
          · cases h
          · rename_i installed hinstalled
            cases h
            exact .measure hcontrol hinstalled
      | _ => simp [step, hcontrol] at h
  | answer =>
      cases hcontrol : session.control with
      | answering id stream body =>
          simp only [step, hcontrol, Option.some.injEq, Prod.mk.injEq] at h
          obtain ⟨rfl, rfl⟩ := h
          cases stream with
          | true => exact .stream hcontrol
          | false => exact .once hcontrol
      | _ => simp [step, hcontrol] at h
  | subscribe =>
      cases hcontrol : session.control with
      | subscribing id =>
          simp only [step, hcontrol] at h
          split at h
          · cases h
          · rename_i c engine'' hsubscribe
            cases h
            exact .subscribe hcontrol hsubscribe
      | _ => simp [step, hcontrol] at h
  | notify =>
      cases hcontrol : session.control with
      | notifying id c =>
          simp only [step, hcontrol, Option.some.injEq, Prod.mk.injEq] at h
          obtain ⟨rfl, rfl⟩ := h
          exact .notify hcontrol
      | _ => simp [step, hcontrol] at h
  | replace =>
      cases hcontrol : session.control with
      | replacing id c =>
          simp only [step, hcontrol, Option.some.injEq, Prod.mk.injEq] at h
          obtain ⟨rfl, rfl⟩ := h
          exact .replace hcontrol
      | _ => simp [step, hcontrol] at h
  | close =>
      cases hcontrol : session.control with
      | closing =>
          simp only [step, hcontrol, Option.some.injEq, Prod.mk.injEq] at h
          obtain ⟨rfl, rfl⟩ := h
          exact .close hcontrol
      | _ => simp [step, hcontrol] at h

end StreamSession

/-! ### What a trace says -/

def StreamEvent.number? : StreamEvent F → Option ℕ
  | .tick n _ => some n
  | _ => none

/-- The deliveries that the ticks of a trace come from. -/
def ticks (trace : List (StreamEvent F)) : List ℕ := trace.filterMap StreamEvent.number?

/-- A subscription as a trace shows it: requested, answered and registered, and then nothing but
ticks. -/
def Subscribed (id : Uuid) (since : ℕ) (trace : List (StreamEvent F)) : Prop :=
  ∃ earlier history later,
    trace =
      earlier ++ .requested id true :: .answered id true history :: .registered since :: later ∧
      ∀ event ∈ later, event.number?.isSome = true

/-- **Every tick of a trace belongs to the last subscribe before it**, and its sample is that of a
delivery since the subscription was registered. -/
def Identified (delivered : List (Sample F)) (trace : List (StreamEvent F)) : Prop :=
  ∀ before n body after, trace = before ++ .tick n body :: after →
    ∃ since sample, Subscribed body.sub since before ∧ since ≤ n ∧ delivered[n]? = some sample ∧
      body = .tickBody body.sub sample

theorem ticks_append (trace trace' : List (StreamEvent F)) :
    ticks (trace ++ trace') = ticks trace ++ ticks trace' := List.filterMap_append

/-- A tick belongs where a trace says that there is a subscription, and that is a matter of what
comes before it. -/
theorem Identified.append {delivered delivered' : List (Sample F)} {trace : List (StreamEvent F)}
    {event : StreamEvent F} (h : Identified delivered trace) (hdelivered : delivered <+: delivered')
    (htick : ∀ n body, event = .tick n body → ∃ since sample, Subscribed body.sub since trace ∧
      since ≤ n ∧ delivered'[n]? = some sample ∧ body = .tickBody body.sub sample) :
    Identified delivered' (trace ++ [event]) := by
  intro before n body after hsplit
  rcases List.eq_nil_or_concat after with rfl | ⟨after', last, rfl⟩
  · obtain ⟨rfl, hevent⟩ := List.append_inj' hsplit rfl
    exact htick n body (List.singleton_inj.mp hevent)
  · have hsplit' : trace ++ [event] = (before ++ .tick n body :: after') ++ [last] := by
      simpa using hsplit
    obtain ⟨htrace, -⟩ := List.append_inj' hsplit' rfl
    obtain ⟨since, sample, hsubscribed, hsince, hget, hbody⟩ := h before n body after' htrace
    refine ⟨since, sample, hsubscribed, hsince, ?_, hbody⟩
    obtain ⟨later, rfl⟩ := hdelivered
    exact (List.getElem?_append_left (List.getElem?_eq_some_iff.mp hget).1).trans hget

theorem Identified.mono {delivered delivered' : List (Sample F)} {trace : List (StreamEvent F)}
    (h : Identified delivered trace) (hdelivered : delivered <+: delivered') :
    Identified delivered' trace := by
  intro before n body after hsplit
  obtain ⟨since, sample, hsubscribed, hsince, hget, hbody⟩ := h before n body after hsplit
  refine ⟨since, sample, hsubscribed, hsince, ?_, hbody⟩
  obtain ⟨later, rfl⟩ := hdelivered
  exact (List.getElem?_append_left (List.getElem?_eq_some_iff.mp hget).1).trans hget

/-- One more tick belongs to the same subscription. -/
theorem Subscribed.tick {id : Uuid} {since : ℕ} {trace : List (StreamEvent F)}
    (h : Subscribed id since trace) (n : ℕ) (body : MetricsTickBody F) :
    Subscribed id since (trace ++ [.tick n body]) := by
  obtain ⟨earlier, history, later, rfl, hlater⟩ := h
  refine ⟨earlier, history, later ++ [.tick n body], by simp, ?_⟩
  intro event hevent
  rcases List.mem_append.mp hevent with hevent | hevent
  · exact hlater event hevent
  · rw [List.mem_singleton.mp hevent]
    rfl

/-! ### The invariant of a session -/

namespace StreamSession

variable {engine engine' : Engine F} {session session' : StreamSession F}

/-- The samples received and not yet sent. -/
def pending (session : StreamSession F) : List (ℕ × Sample F) :=
  match session.control with
  | .draining _ got => got
  | .pushing _ rest => rest
  | _ => []

/-- The deliveries that were sent and those that are about to be. -/
def numbers (session : StreamSession F) : List ℕ :=
  ticks session.trace ++ session.pending.map Prod.fst

/-- The channel `c` is that of the subscription `id`, which is the last in the trace; and all that
is still to come out of it is later than what did. -/
def Fed (engine : Engine F) (session : StreamSession F) (id : Uuid) (c : ℕ) : Prop :=
  ∃ feed, engine.feeds[c]? = some feed ∧ Subscribed id feed.since session.trace ∧
    (∀ item ∈ session.pending, feed.since ≤ item.1) ∧
    ∀ n ∈ session.numbers, n < engine.reached c ∧ ∀ item ∈ feed.channel.queue, n < item.1

/-- What is known of a session by where it is. -/
def Stage (engine : Engine F) (session : StreamSession F) : Prop :=
  match session.control with
  | .top | .listening =>
      ∀ active, session.stream = some active →
        session.Fed engine active.subId active.subscription
  | .draining active _ =>
      session.stream = some active ∧ session.Fed engine active.subId active.subscription
  | .pushing subId _ =>
      ∃ active, session.stream = some active ∧ active.subId = subId ∧
        session.Fed engine active.subId active.subscription
  | .asked id body => ∃ earlier, session.trace = earlier ++ [.requested id body.stream]
  | .backfilled id stream _ | .answering id stream _ =>
      ∃ earlier, session.trace = earlier ++ [.requested id stream]
  | .subscribing id =>
      ∃ earlier history, session.trace = earlier ++ [.requested id true, .answered id true history]
  | .notifying id c | .replacing id c => session.Fed engine id c
  | .closing | .ended => True

/-- The invariant: all ticks are identified, and all numbers in order. -/
structure Sound (engine : Engine F) (session : StreamSession F) : Prop where
  identified : Identified engine.delivered session.trace
  sorted : session.numbers.Pairwise (· < ·)
  before : ∀ n ∈ session.numbers, n < engine.delivered.length
  received : ∀ item ∈ session.pending, engine.delivered[item.1]? = some item.2
  stage : session.Stage engine

theorem sound_opened (engine : Engine F) : (opened : StreamSession F).Sound engine := by
  refine ⟨?_, List.Pairwise.nil, ?_, ?_, ?_⟩
  · intro before n body after hsplit
    simp [opened] at hsplit
  · intro n hn
    cases hn
  · intro item hitem
    cases hitem
  · intro active hactive
    cases hactive

/-- What a step does to a channel leaves it ahead of the numbers. -/
theorem Fed.advances {id : Uuid} {c : ℕ} (h : session.Fed engine id c)
    (hadvances : engine.Advances engine') : session.Fed engine' id c := by
  obtain ⟨feed, hfeed, hsubscribed, hsince, hahead⟩ := h
  obtain ⟨feed', hfeed', hsame, hreached, hqueued⟩ := hadvances.feeds c feed hfeed
  refine ⟨feed', hfeed', ?_, ?_, ?_⟩
  · rw [hsame]
    exact hsubscribed
  · rw [hsame]
    exact hsince
  · intro n hn
    obtain ⟨hbefore, hqueue⟩ := hahead n hn
    refine ⟨hbefore.trans_le hreached, ?_⟩
    intro item hitem
    rcases hqueued item hitem with hold | hnew
    · exact hqueue item hold
    · exact hbefore.trans_le hnew

/-- **Whatever the sampler and the other sessions do keeps the invariant.** -/
theorem Sound.advances (h : session.Sound engine) (hadvances : engine.Advances engine') :
    session.Sound engine' := by
  have hdelivered := hadvances.delivered
  refine ⟨h.identified.mono hdelivered, h.sorted, ?_, ?_, ?_⟩
  · intro n hn
    exact (h.before n hn).trans_le hdelivered.length_le
  · intro item hitem
    have hget := h.received item hitem
    obtain ⟨later, hlater⟩ := hdelivered
    rw [← hlater]
    exact (List.getElem?_append_left (List.getElem?_eq_some_iff.mp hget).1).trans hget
  · have hstage := h.stage
    unfold Stage at hstage ⊢
    cases hcontrol : session.control with
    | top | listening =>
        simp only [hcontrol] at hstage ⊢
        intro active hactive
        exact (hstage active hactive).advances hadvances
    | draining active got =>
        simp only [hcontrol] at hstage ⊢
        exact ⟨hstage.1, hstage.2.advances hadvances⟩
    | pushing subId rest =>
        simp only [hcontrol] at hstage ⊢
        obtain ⟨active, hactive, hid, hfed⟩ := hstage
        exact ⟨active, hactive, hid, hfed.advances hadvances⟩
    | notifying id c | replacing id c =>
        simp only [hcontrol] at hstage ⊢
        exact hstage.advances hadvances
    | asked | backfilled | answering | subscribing => simpa only [hcontrol] using hstage
    | closing | ended => trivial

/-- A step that neither sends nor receives keeps all but the stage. -/
theorem Sound.same (h : session.Sound engine) (htrace : session'.trace = session.trace)
    (hpending : session'.pending = session.pending) (hstage : session'.Stage engine) :
    session'.Sound engine := by
  have hnumbers : session'.numbers = session.numbers := by
    rw [numbers, numbers, htrace, hpending]
  refine ⟨?_, ?_, ?_, ?_, hstage⟩
  · rw [htrace]
    exact h.identified
  · rw [hnumbers]
    exact h.sorted
  · rw [hnumbers]
    exact h.before
  · rw [hpending]
    exact h.received

/-- So does one that notes anything but a tick. -/
theorem Sound.noted (h : session.Sound engine) {event : StreamEvent F} {control : StreamControl F}
    (hevent : event.number? = none) (hpending : session.pending = [])
    (hpending' : (session.note event control).pending = [])
    (hstage : (session.note event control).Stage engine) :
    (session.note event control).Sound engine := by
  have hticks : ticks (session.trace ++ [event]) = ticks session.trace := by
    rw [ticks_append]
    simp [ticks, hevent]
  have hnumbers : (session.note event control).numbers = session.numbers := by
    rw [numbers, numbers, hpending, hpending', note, hticks]
  refine ⟨?_, ?_, ?_, ?_, hstage⟩
  · refine h.identified.append (List.prefix_refl _) ?_
    rintro n body rfl
    cases hevent
  · rw [hnumbers]
    exact h.sorted
  · rw [hnumbers]
    exact h.before
  · rw [hpending']
    intro item hitem
    cases hitem

/-- The channel of a subscription stays ahead over steps that neither send nor receive. -/
theorem Fed.same {id : Uuid} {c : ℕ} (h : session.Fed engine id c)
    (htrace : session'.trace = session.trace) (hpending : session'.pending = session.pending) :
    session'.Fed engine id c := by
  have hnumbers : session'.numbers = session.numbers := by
    rw [numbers, numbers, htrace, hpending]
  unfold Fed
  rw [htrace, hpending, hnumbers]
  exact h

/-- A sample received is later than all before it, and earlier than what is still queued. -/
theorem Sound.recv (hordered : engine.Ordered) (h : session.Sound engine) {active : ActiveStream}
    {got : List (ℕ × Sample F)} (hcontrol : session.control = .draining active got)
    {item : ℕ × Sample F} (hrecv : engine.tryRecv active.subscription = some (item, engine')) :
    Sound engine' { session with control := .draining active (got ++ [item]) } := by
  have hadvances := (hordered.tryRecv hrecv).2
  have hstage := h.stage
  simp only [Stage, hcontrol] at hstage
  obtain ⟨hactive, feed, hfeed, hsubscribed, hsince, hahead⟩ := hstage
  obtain ⟨feed', channel, hfeed', hqueue, rfl⟩ := Engine.tryRecv_eq_some hrecv
  cases hfeed.symm.trans hfeed'
  obtain ⟨-, hsorted, hqueued⟩ := hordered.feeds _ feed hfeed
  rw [hqueue] at hsorted hqueued hahead
  obtain ⟨hlater, -⟩ := List.pairwise_cons.mp hsorted
  obtain ⟨hfrom, hreached, hget⟩ := hqueued item List.mem_cons_self
  have hpending : session.pending = got := by simp only [pending, hcontrol]
  have hnumbers : numbers { session with control := .draining active (got ++ [item]) }
      = session.numbers ++ [item.1] := by
    simp [numbers, pending, hcontrol]
  have hreceived := h.received
  rw [hpending] at hreceived hsince
  have hlt := (List.getElem?_eq_some_iff.mp hfeed).1
  refine ⟨h.identified, ?_, ?_, ?_, hactive, ?_⟩
  · rw [hnumbers, List.pairwise_append]
    refine ⟨h.sorted, List.pairwise_singleton _ _, ?_⟩
    intro n hn m hm
    rw [List.mem_singleton.mp hm]
    exact (hahead n hn).2 item List.mem_cons_self
  · rw [hnumbers]
    intro n hn
    rcases List.mem_append.mp hn with hn | hn
    · exact h.before n hn
    · rw [List.mem_singleton.mp hn]
      exact (List.getElem?_eq_some_iff.mp hget).1
  · intro other hother
    rcases List.mem_append.mp hother with hother | hother
    · exact hreceived other hother
    · rw [List.mem_singleton.mp hother]
      exact hget
  · refine ⟨_, List.getElem?_set_self hlt, hsubscribed, ?_, ?_⟩
    · intro other hother
      rcases List.mem_append.mp hother with hother | hother
      · exact hsince other hother
      · rw [List.mem_singleton.mp hother]
        exact hfrom
    · rw [hnumbers]
      intro n hn
      rcases List.mem_append.mp hn with hn | hn
      · obtain ⟨hbefore, hqueue⟩ := hahead n hn
        exact ⟨hbefore, fun other hother => hqueue other (List.mem_cons_of_mem _ hother)⟩
      · rw [List.mem_singleton.mp hn]
        exact ⟨hreached, hlater⟩

/-- A tick is sent. -/
theorem Sound.push (h : session.Sound engine) {subId : Uuid} {item : ℕ × Sample F}
    {rest : List (ℕ × Sample F)} (hcontrol : session.control = .pushing subId (item :: rest)) :
    (session.note (.tick item.1 (.tickBody subId item.2)) (.pushing subId rest)).Sound engine := by
  have hstage := h.stage
  simp only [Stage, hcontrol] at hstage
  obtain ⟨active, hactive, hid, feed, hfeed, hsubscribed, hsince, hahead⟩ := hstage
  have hpending : session.pending = item :: rest := by simp only [pending, hcontrol]
  have hnumbers : (session.note (.tick item.1 (.tickBody subId item.2))
      (.pushing subId rest)).numbers
      = session.numbers := by
    simp [numbers, pending, hcontrol, note, ticks, StreamEvent.number?]
  have hreceived := h.received
  rw [hpending] at hreceived hsince
  refine ⟨?_, ?_, ?_, ?_, active, hactive, hid, feed, hfeed, hsubscribed.tick _ _, ?_, ?_⟩
  · refine h.identified.append (List.prefix_refl _) ?_
    intro n body htick
    cases htick
    refine ⟨feed.since, item.2, ?_, hsince item List.mem_cons_self,
      hreceived item List.mem_cons_self, rfl⟩
    rw [← hid]
    exact hsubscribed
  · rw [hnumbers]
    exact h.sorted
  · rw [hnumbers]
    exact h.before
  · exact fun other hother => hreceived other (List.mem_cons_of_mem _ hother)
  · exact fun other hother => hsince other (List.mem_cons_of_mem _ hother)
  · rw [hnumbers]
    exact hahead

/-- A subscription is registered: its channel is empty, and all deliveries so far are behind it. -/
theorem Sound.subscribe (hordered : engine.Ordered) (h : session.Sound engine) {id : Uuid}
    (hcontrol : session.control = .subscribing id) {c : ℕ}
    (hsubscribe : engine.subscribe = some (c, engine')) :
    (session.note (.registered engine.delivered.length) (.notifying id c)).Sound engine' := by
  have hsound := h.advances (hordered.subscribe hsubscribe).2
  obtain ⟨hlocked, rfl, rfl⟩ := Engine.subscribe_eq_some hsubscribe
  have hstage := h.stage
  simp only [Stage, hcontrol] at hstage
  obtain ⟨earlier, history, htrace⟩ := hstage
  have hpending : session.pending = [] := by simp only [pending, hcontrol]
  refine hsound.noted rfl hpending rfl ⟨_, List.getElem?_concat_length, ?_, ?_, ?_⟩
  · refine ⟨earlier, history, [], ?_, fun event hevent => absurd hevent List.not_mem_nil⟩
    simp [note, htrace]
  · intro item hitem
    cases hitem
  · intro n hn
    have hlocked' : engine.register.locked = false := hlocked
    have hticks : n ∈ session.numbers := by
      simpa [numbers, pending, note, hcontrol, ticks, StreamEvent.number?] using hn
    rw [Engine.reached_of_not_locked hlocked']
    exact ⟨h.before n hticks, fun item hitem => absurd hitem List.not_mem_nil⟩

/-- A session that ends leaves what it has received unsent. -/
theorem Sound.leave (h : session.Sound engine) :
    Sound engine { session with control := .ended, stream := none } := by
  have hnumbers : numbers { session with control := .ended, stream := none } =
      ticks session.trace := by
    simp [numbers, pending]
  have hsublist : (ticks session.trace).Sublist session.numbers := List.sublist_append_left _ _
  refine ⟨h.identified, ?_, ?_, ?_, trivial⟩
  · rw [hnumbers]
    exact h.sorted.sublist hsublist
  · rw [hnumbers]
    exact fun n hn => h.before n (hsublist.mem hn)
  · intro item hitem
    cases hitem

/-- What a move of a session does to the channels. -/
theorem Moves.ordered (hordered : engine.Ordered) {move : StreamMove}
    (h : Moves engine session move engine' session') :
    engine'.Ordered ∧ engine.Advances engine' := by
  have hsame : engine.Ordered ∧ engine.Advances engine :=
    ⟨hordered, Engine.Unnoticed.advances ⟨rfl, rfl, rfl, rfl, .inr rfl⟩⟩
  have hunsubscribe : (engine.unsubscribe session.stream).Ordered ∧
      engine.Advances (engine.unsubscribe session.stream) := by
    cases session.stream with
    | none => exact hsame
    | some active => exact hordered.hangUp active.subscription
  cases h with
  | recv hcontrol hrecv => exact hordered.tryRecv hrecv
  | subscribe hcontrol hsubscribe => exact hordered.subscribe hsubscribe
  | notify =>
      have hnotify := engine.unnoticed_notifyAll
      exact ⟨hnotify.ordered hordered, hnotify.advances⟩
  | leave | replace | close => exact hunsubscribe
  | _ => exact hsame

/-- **A session keeps the invariant.** -/
theorem Sound.step (hordered : engine.Ordered) (h : session.Sound engine) {move : StreamMove}
    (hmoves : Moves engine session move engine' session') : session'.Sound engine' := by
  have hadvances := (hmoves.ordered hordered).2
  have hstage := h.stage
  have hmoved := h.advances hadvances
  have hstage' := hmoved.stage
  cases hmoves with
  | quiet hcontrol hstream =>
      refine h.same rfl (by simp only [pending, hcontrol]) ?_
      intro active hactive
      cases hstream.symm.trans hactive
  | drain hcontrol hstream =>
      simp only [Stage, hcontrol] at hstage
      refine h.same rfl (by simp only [pending, hcontrol]) ⟨hstream, ?_⟩
      exact (hstage _ hstream).same rfl (by simp only [pending, hcontrol])
  | recv hcontrol hrecv => exact h.recv hordered hcontrol hrecv
  | empty hcontrol =>
      simp only [Stage, hcontrol] at hstage
      refine h.same rfl (by simp only [pending, hcontrol]) ?_
      intro active hactive
      cases hstage.1.symm.trans hactive
      exact hstage.2.same rfl (by simp only [pending, hcontrol])
  | drained hcontrol =>
      simp only [Stage, hcontrol] at hstage
      refine h.same rfl (by simp only [pending, hcontrol]) ⟨_, hstage.1, rfl, ?_⟩
      exact hstage.2.same rfl (by simp only [pending, hcontrol])
  | push hcontrol => exact h.push hcontrol
  | pushed hcontrol =>
      simp only [Stage, hcontrol] at hstage
      obtain ⟨active, hactive, -, hfed⟩ := hstage
      refine h.same rfl (by simp only [pending, hcontrol]) ?_
      intro active' hactive'
      cases hactive.symm.trans hactive'
      exact hfed.same rfl (by simp only [pending, hcontrol])
  | next hcontrol =>
      simp only [Stage, hcontrol] at hstage
      refine h.same rfl (by simp only [pending, hcontrol]) ?_
      intro active hactive
      exact (hstage active hactive).same rfl (by simp only [pending, hcontrol])
  | leave => exact hmoved.leave
  | request hcontrol id body =>
      exact h.noted rfl (by simp only [pending, hcontrol]) rfl ⟨session.trace, rfl⟩
  | backfill hcontrol | measure hcontrol =>
      simp only [Stage, hcontrol] at hstage
      exact h.same rfl (by simp only [pending, hcontrol]) hstage
  | @stream id body hcontrol =>
      simp only [Stage, hcontrol] at hstage
      obtain ⟨earlier, htrace⟩ := hstage
      refine h.noted rfl (by simp only [pending, hcontrol]) rfl ⟨earlier, body, ?_⟩
      rw [note, htrace, List.append_assoc]
      rfl
  | once hcontrol => exact h.noted rfl (by simp only [pending, hcontrol]) rfl trivial
  | subscribe hcontrol hsubscribe => exact h.subscribe hordered hcontrol hsubscribe
  | notify hcontrol =>
      simp only [Stage, hcontrol] at hstage'
      refine hmoved.same rfl (by simp only [pending, hcontrol]) ?_
      exact Fed.same hstage' rfl (by simp only [pending, hcontrol])
  | replace hcontrol =>
      simp only [Stage, hcontrol] at hstage'
      refine hmoved.same rfl (by simp only [pending, hcontrol]) ?_
      intro active hactive
      cases hactive
      exact Fed.same hstage' rfl (by simp only [pending, hcontrol])
  | close hcontrol =>
      refine hmoved.same rfl (by simp only [pending, hcontrol]) ?_
      intro active hactive
      cases hactive

end StreamSession

/-! ### All of them -/

/-- The engine, and every session that was ever opened. -/
structure MetricsSystem (F : Type) where
  engine : Engine F
  sessions : List (StreamSession F)

inductive SystemMove (F : Type)
  | sampler (move : SamplerMove F)
  | elapse (d : ℕ)
  | stop
  | accept
  | session (i : ℕ) (move : StreamMove)

namespace MetricsSystem

/-- No session has been opened yet. -/
def start : MetricsSystem F := ⟨.start, []⟩

def step (s : MetricsSystem F) : SystemMove F → Option (MetricsSystem F)
  | .sampler move => (s.engine.move move).map fun engine => { s with engine }
  | .elapse d => some { s with engine := s.engine.elapse d }
  | .stop => s.engine.stop.map fun engine => { s with engine }
  | .accept => some { s with sessions := s.sessions ++ [.opened] }
  | .session i move =>
      match s.sessions[i]? with
      | none => none
      | some session =>
          (session.step s.engine move).map fun (engine, session) =>
            ⟨engine, s.sessions.set i session⟩

/-- The invariant of the engine and of all sessions. -/
structure Sound (s : MetricsSystem F) : Prop where
  engine : s.engine.Ordered
  sessions : ∀ session ∈ s.sessions, session.Sound s.engine

theorem Sound.step {s t : MetricsSystem F} {move : SystemMove F} (h : s.Sound)
    (hstep : s.step move = some t) : t.Sound := by
  -- a step of the engine alone leaves the sessions as they are
  have hengine {engine : Engine F} (hengine : engine.Ordered ∧ s.engine.Advances engine) :
      Sound { s with engine } :=
    ⟨hengine.1, fun session hsession => (h.sessions session hsession).advances hengine.2⟩
  cases move with
  | sampler move =>
      obtain ⟨engine, hmove, rfl⟩ := Option.map_eq_some_iff.mp hstep
      exact hengine (h.engine.move hmove)
  | elapse d =>
      cases hstep
      have helapse := s.engine.unnoticed_elapse d
      exact hengine ⟨helapse.ordered h.engine, helapse.advances⟩
  | stop =>
      obtain ⟨engine, hstop, rfl⟩ := Option.map_eq_some_iff.mp hstep
      have hunnoticed := Engine.unnoticed_stop hstop
      exact hengine ⟨hunnoticed.ordered h.engine, hunnoticed.advances⟩
  | accept =>
      cases hstep
      refine ⟨h.engine, ?_⟩
      intro session hsession
      rcases List.mem_append.mp hsession with hsession | hsession
      · exact h.sessions session hsession
      · rw [List.mem_singleton.mp hsession]
        exact StreamSession.sound_opened s.engine
  | session i move =>
      simp only [MetricsSystem.step] at hstep
      split at hstep
      · cases hstep
      · rename_i session hi
        obtain ⟨⟨engine, session'⟩, hmove, rfl⟩ := Option.map_eq_some_iff.mp hstep
        have hmoves := StreamSession.moves_of_step hmove
        obtain ⟨hordered, hadvances⟩ := hmoves.ordered h.engine
        refine ⟨hordered, ?_⟩
        intro other hother
        rcases List.mem_or_eq_of_mem_set hother with hother | rfl
        · exact (h.sessions other hother).advances hadvances
        · exact (h.sessions session (List.mem_of_getElem? hi)).step h.engine hmoves

theorem sound_of_run {moves : List (SystemMove F)} {s : MetricsSystem F}
    (hrun : Transition.run step start moves = some s) : s.Sound := by
  refine Transition.run_keeps (fun s _ t hs hstep => Sound.step hs hstep) ?_ hrun
  exact ⟨Engine.ordered_start, fun session hsession => absurd hsession List.not_mem_nil⟩

end MetricsSystem

/-- **Metrics streams are identified.**  In every run of the sampler and any number of sessions, and
in the trace of each session: a tick carries the id of the last subscribe before it, which asked to
stream and was answered and registered, and the sample of a delivery since then; the ticks come from
later and later deliveries; and between the answer to a subscribe that did not ask to stream and a
tick there is a new subscribe that did. -/
theorem ticks_identified {moves : List (SystemMove F)} {s : MetricsSystem F}
    (hrun : Transition.run MetricsSystem.step .start moves = some s) {session : StreamSession F}
    (hsession : session ∈ s.sessions) :
    Identified s.engine.delivered session.trace ∧ (ticks session.trace).Pairwise (· < ·) ∧
      ∀ earlier id history middle n body later,
        session.trace = earlier ++ .answered id false history :: middle ++ .tick n body :: later →
          ∃ id', .requested id' true ∈ middle := by
  obtain ⟨hidentified, hsorted, -, -, -⟩ :=
    (MetricsSystem.sound_of_run hrun).sessions session hsession
  refine ⟨hidentified, (List.pairwise_append.mp hsorted).1, ?_⟩
  intro earlier id history middle n body later hsplit
  obtain ⟨since, sample, ⟨earlier', history', later', hbefore, hlater⟩, -⟩ :=
    hidentified _ n body later hsplit
  -- the answer is neither a tick nor that to the last subscribe
  have hnot : .answered id false history ∉ .requested body.sub true ::
      .answered body.sub true history' :: .registered since :: later' := by
    intro hmem
    simp only [List.mem_cons, reduceCtorEq, StreamEvent.answered.injEq, Bool.false_eq_true,
      false_and, and_false, false_or] at hmem
    have htick := hlater _ hmem
    cases htick
  rcases List.append_eq_append_iff.mp hbefore with ⟨between, -, hrest⟩ | ⟨between, -, hrest⟩
  · cases between with
    | nil =>
        rw [List.nil_append] at hrest
        exact absurd (hrest ▸ List.mem_cons_self) hnot
    | cons event between =>
        obtain ⟨-, rfl⟩ := List.cons_eq_cons.mp hrest
        exact ⟨body.sub, by simp⟩
  · exact absurd (hrest ▸ List.mem_append_right _ List.mem_cons_self) hnot

/-! ### A run of one session -/

/-- What a session does to open a stream when it is listening. -/
def opening (i : ℕ) (id : Uuid) (nowMs : Int64) : List (SystemMove Unit) :=
  [.request id ⟨3600, true⟩, .backfill nowMs, .measure, .answer, .subscribe, .notify, .replace].map
    (.session i)

/-- A wait of the sampler is over, and it delivers a sample to so many senders. -/
def delivery (tsMs : Int64) (senders : ℕ) : List (SystemMove Unit) :=
  [.sampler .resume, .sampler (.sample (some ⟨tsMs, (), 1000, 2000, [], some 10, some 20⟩)),
    .sampler .lock] ++ List.replicate (senders + 1) (.sampler .trySend) ++ [.sampler .store]

/-- A session opens a stream, sends a tick, replaces the stream, and sends a tick of the new one. -/
def replaced : List (SystemMove Unit) :=
  [.accept, .session 0 .drain, .sampler .wait] ++ opening 0 (toyUuid 1) 0 ++ delivery 0 1 ++
    [.drain, .recv, .drained, .push, .push].map (.session 0) ++ [.sampler .wait] ++
    opening 0 (toyUuid 2) 0 ++ [.elapse MIN_SAMPLE_SPACING] ++ delivery 250 2 ++
    [.drain, .recv, .drained, .push].map (.session 0)

theorem ticks_identified_replaced : ∃ s session,
    Transition.run MetricsSystem.step .start replaced = some s ∧ session ∈ s.sessions ∧
      ticks session.trace = [0, 1] ∧ Identified s.engine.delivered session.trace := by
  have hrun : ((Transition.run MetricsSystem.step .start replaced).any fun s =>
      s.sessions.any fun session => ticks session.trace == [0, 1]) = true := by
    decide +kernel
  obtain ⟨s, hs, hticks⟩ := (Option.any_eq_true _ _).mp hrun
  obtain ⟨session, hsession, hnumbers⟩ := List.any_eq_true.mp hticks
  exact ⟨s, session, hs, hsession, eq_of_beq hnumbers, (ticks_identified hs hsession).1⟩

end Osprey
