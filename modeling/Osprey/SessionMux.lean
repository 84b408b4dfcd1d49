/-
**The reader of a session, and the callers that wait for it.**

`SessionMux.swift`: one task reads from the session and dispatches what arrives, and any number of
`exchange`, `send`, `metricsTicks` and `shutdown` calls run against it.  The actor is re-entrant, so
what a task does between two suspensions is one move, and a run is any order of moves.  The check of
`early` after the send and the registration of the continuation are kept apart: whatever the actor
may do between them is allowed to happen there.

What the socket, the bridge and `JSONDecoder` do is not modelled: a move that waits on them carries
what they return.  So does a move that asks a dictionary for its first key, which may be any of its
keys.  `parked` says which replies have been parked and neither claimed nor cleared since, and how
many with other ids have been parked after each; no branch of the code reads it.

Main definitions:

* `Osprey.OspreyProtocol.decode` — a message as an envelope with its body;
* `Osprey.SessionMux`, `Osprey.MuxSystem` — the actor, and the actor with all its tasks;
* `Osprey.MuxSystem.start`, `.turn`, `.metricsTicks`, `.shutdown`, `.dispatch`, `.received` — the
  source's functions, cut where they suspend;
* `Osprey.MuxMove`, `Osprey.MuxSystem.step` — the moves and their order;
* `Osprey.MuxSystem.evicted` — the early reply that a move discards;
* `Osprey.MuxSystem.Changes` — what a step can do to calls, dictionaries and closure.

Main results:

* `Osprey.MuxSystem.changes_of_step` — a step does one of these things.
-/

import Mathlib.Data.List.AList
import Osprey.Envelope
import Osprey.Transition

set_option relaxedAutoImplicit false
set_option autoImplicit false

namespace Osprey

/-! ### Envelopes, as the phone decodes them -/

inductive OspreyProtocolError
  | unsupportedVersion (found min max : UInt32)
  | bodyDeferred (t : MessageType)
  deriving DecidableEq, Repr

inductive SessionMuxError
  | closed
  | hostClosed
  deriving DecidableEq, Repr

/-- `any Error`; `E` is for the errors of code that is not modelled here. -/
inductive AnyError (E : Type)
  | mux (error : SessionMuxError)
  | proto (error : OspreyProtocolError)
  | other (error : E)
  deriving DecidableEq, Repr

/-- The envelope fields that can be read before the body schema is known. -/
structure EnvelopeHeader where
  v : UInt32
  id : Uuid
  t : MessageType
  ts : Int64
  deriving DecidableEq, Repr

/-- An envelope whose body has been resolved against its message type. -/
structure DecodedEnvelope (F : Type) where
  v : UInt32
  id : Uuid
  t : MessageType
  ts : Int64
  body : Body F
  deriving DecidableEq, Repr

/-- `JSONDecoder` on the header of an envelope, and on an envelope of each defined type. -/
structure JSONDecoder (F E : Type) where
  header : Bytes → Except E EnvelopeHeader
  error : Bytes → Except E ErrorBody
  hello : Bytes → Except E HelloBody
  helloOk : Bytes → Except E HelloOkBody
  ping : Bytes → Except E PingBody
  pong : Bytes → Except E PongBody
  bye : Bytes → Except E ByeBody
  pairRequest : Bytes → Except E Unit
  pairConfirm : Bytes → Except E Unit
  pairRevoke : Bytes → Except E PairRevokeBody
  metricsSubscribe : Bytes → Except E MetricsSubscribeBody
  metricsTick : Bytes → Except E (MetricsTickBody F)
  metricsHistory : Bytes → Except E (MetricsHistoryBody F)

variable {F E : Type}

namespace OspreyProtocol

/-- One call of the decoder, and the case of the body that its result goes into. -/
def decodeBody {α : Type} (schema : Bytes → Except E α) (wrap : α → Body F) (data : Bytes) :
    Except (AnyError E) (Body F) :=
  match schema data with
  | .error error => .error (.other error)
  | .ok body => .ok (wrap body)

/-- The body that the header's type selects. -/
def body (decoder : JSONDecoder F E) (t : MessageType) (data : Bytes) :
    Except (AnyError E) (Body F) :=
  match t with
  | .error => decodeBody decoder.error .error data
  | .hello => decodeBody decoder.hello .hello data
  | .helloOk => decodeBody decoder.helloOk .helloOk data
  | .ping => decodeBody decoder.ping .ping data
  | .pong => decodeBody decoder.pong .pong data
  | .bye => decodeBody decoder.bye .bye data
  | .pairRequest => decodeBody decoder.pairRequest (fun _ => .pairRequest) data
  | .pairConfirm => decodeBody decoder.pairConfirm (fun _ => .pairConfirm) data
  | .pairRevoke => decodeBody decoder.pairRevoke .pairRevoke data
  | .metricsSubscribe => decodeBody decoder.metricsSubscribe .metricsSubscribe data
  | .metricsTick => decodeBody decoder.metricsTick .metricsTick data
  | .metricsHistory => decodeBody decoder.metricsHistory .metricsHistory data
  | t => .error (.proto (.bodyDeferred t))

/-- Decodes a full envelope, resolving the body against `t`. -/
def decode (decoder : JSONDecoder F E) (data : Bytes) :
    Except (AnyError E) (DecodedEnvelope F) :=
  match decoder.header data with
  | .error error => .error (.other error)
  | .ok header =>
      if header.v < MIN_PROTOCOL_VERSION ∨ PROTOCOL_VERSION < header.v then
        .error (.proto (.unsupportedVersion header.v MIN_PROTOCOL_VERSION PROTOCOL_VERSION))
      else
        match body decoder header.t data with
        | .error error => .error error
        | .ok body => .ok ⟨header.v, header.id, header.t, header.ts, body⟩

end OspreyProtocol

/-! ### The actor and its tasks -/

/-- The stored properties of the actor.  A continuation is the number of the call that made it, and
streams and tasks have numbers too. -/
structure SessionMux (F E : Type) where
  pending : AList fun _ : Uuid => ℕ
  early : AList fun _ : Uuid => DecodedEnvelope F
  tickContinuation : Option ℕ
  reader : Option ℕ
  closure : Option (AnyError E)

def maxEarlyReplies : ℕ := 16

/-- What a caller asks for. -/
inductive MuxRequest
  | exchange (id : Uuid)
  | send
  deriving DecidableEq, Repr

/-- Where a call is. -/
inductive CallPhase (F E : Type)
  | entering
  /-- Suspended in `session.send`. -/
  | sending
  | sent
  /-- Nothing was early; the continuation is about to be made. -/
  | registering
  /-- Suspended on its continuation. -/
  | waiting
  | returned (result : Except (AnyError E) (Option (DecodedEnvelope F)))
  deriving DecidableEq

/-- A call, and what its continuation has been resumed with so far. -/
structure MuxCall (F E : Type) where
  request : MuxRequest
  phase : CallPhase F E
  resumed : List (Except (AnyError E) (DecodedEnvelope F))
  deriving DecidableEq

/-- Where a task that runs `readLoop` is. -/
inductive ReaderPhase
  | created
  /-- Suspended in `session.receive`. -/
  | receiving
  | finished
  deriving DecidableEq, Repr

structure ReaderTask where
  phase : ReaderPhase
  cancelled : Bool
  deriving DecidableEq, Repr

/-- A stream of ticks: what its consumer has not taken yet. -/
structure TickStream (F : Type) where
  buffer : List (MetricsTickBody F)
  finished : Bool
  deriving DecidableEq

/-- What `makeStream` is told to keep: `.bufferingNewest(8)`. -/
def tickBufferDepth : ℕ := 8

/-- `Continuation.yield`; a finished stream takes nothing. -/
def TickStream.yieldTick (stream : TickStream F) (tick : MetricsTickBody F) : TickStream F :=
  if stream.finished then stream
  else
    { stream with
      buffer := (stream.buffer ++ [tick]).drop (stream.buffer.length + 1 - tickBufferDepth) }

def TickStream.finish (stream : TickStream F) : TickStream F := { stream with finished := true }

/-- The actor, all calls, readers and streams there have been, and which replies are parked: with
each, how many replies to other ids have been parked after it. -/
structure MuxSystem (F E : Type) where
  mux : SessionMux F E
  calls : List (MuxCall F E)
  readers : List ReaderTask
  streams : List (TickStream F)
  parked : Uuid → Option (DecodedEnvelope F × ℕ)

namespace MuxSystem

def initial : MuxSystem F E := ⟨⟨∅, ∅, none, none, none⟩, [], [], [], fun _ => none⟩

/-- Begin reading. Idempotent. -/
def start (s : MuxSystem F E) : MuxSystem F E :=
  if s.mux.reader.isNone && s.mux.closure.isNone then
    { s with
      mux := { s.mux with reader := some s.readers.length }
      readers := s.readers ++ [⟨.created, false⟩] }
  else s

/-- The call moves on. -/
def enter (s : MuxSystem F E) (i : ℕ) (phase : CallPhase F E) : MuxSystem F E :=
  { s with calls := s.calls.modify i fun call => { call with phase } }

/-- `continuation.resume`. -/
def resume (s : MuxSystem F E) (i : ℕ) (result : Except (AnyError E) (DecodedEnvelope F)) :
    MuxSystem F E :=
  { s with calls := s.calls.modify i fun call => { call with resumed := call.resumed ++ [result] } }

/-- `early.removeValue(forKey: id)`, where there is a value. -/
def claim (s : MuxSystem F E) (id : Uuid) : MuxSystem F E :=
  { s with
    mux := { s.mux with early := s.mux.early.erase id }
    parked := fun j => if j = id then none else s.parked j }

/-- `pending[id] = continuation`. -/
def store (s : MuxSystem F E) (id : Uuid) (i : ℕ) : MuxSystem F E :=
  { s with mux := { s.mux with pending := s.mux.pending.insert id i } }

/-- `exchange` and `send`, from one suspension to the next. -/
def turn (s : MuxSystem F E) (i : ℕ) : Option (MuxSystem F E) :=
  match s.calls[i]? with
  | none => none
  | some call =>
      match call.request, call.phase with
      | .exchange _, .entering =>
          match s.mux.closure with
          | some closure => some (s.enter i (.returned (.error closure)))
          | none => some (s.start.enter i .sending)
      | .send, .entering =>
          match s.mux.closure with
          | some closure => some (s.enter i (.returned (.error closure)))
          | none => some (s.enter i .sending)
      | .exchange id, .sent =>
          match s.mux.early.lookup id with
          | some answered => some ((s.claim id).enter i (.returned (.ok (some answered))))
          | none => some (s.enter i .registering)
      | .exchange id, .registering =>
          match s.mux.closure with
          | some closure => some ((s.resume i (.error closure)).enter i .waiting)
          | none =>
              match s.mux.early.lookup id with
              | some answered => some (((s.claim id).resume i (.ok answered)).enter i .waiting)
              | none => some ((s.store id i).enter i .waiting)
      | .exchange _, .waiting =>
          match call.resumed with
          | [] => none
          | result :: _ => some (s.enter i (.returned (result.map some)))
      | _, _ => none

/-- `session.send` returns to its caller, or throws. -/
def sent (s : MuxSystem F E) (i : ℕ) (failure : Option (AnyError E)) : Option (MuxSystem F E) :=
  match s.calls[i]? with
  | none => none
  | some call =>
      match call.phase, failure, call.request with
      | .sending, some error, _ => some (s.enter i (.returned (.error error)))
      | .sending, none, .exchange _ => some (s.enter i .sent)
      | .sending, none, .send => some (s.enter i (.returned (.ok none)))
      | _, _, _ => none

/-- `tickContinuation?.finish()`. -/
def finishTicks (s : MuxSystem F E) : List (TickStream F) :=
  match s.mux.tickContinuation with
  | none => s.streams
  | some k => s.streams.modify k TickStream.finish

/-- The stream of pushed metric samples; an earlier one finishes. -/
def metricsTicks (s : MuxSystem F E) : MuxSystem F E :=
  start { s with
    mux := { s.mux with tickContinuation := some s.streams.length }
    streams := s.finishTicks ++ [⟨[], false⟩] }

/-- The consumer of a stream takes its next tick. -/
def next (s : MuxSystem F E) (k : ℕ) : Option (MuxSystem F E) :=
  match s.streams[k]? with
  | some ⟨_ :: buffer, finished⟩ => some { s with streams := s.streams.set k ⟨buffer, finished⟩ }
  | _ => none

/-- Every continuation in `pending` is resumed. -/
def resumeAll (calls : List (MuxCall F E)) (is : List ℕ)
    (result : Except (AnyError E) (DecodedEnvelope F)) : List (MuxCall F E) :=
  is.foldl
    (fun calls i => calls.modify i fun call => { call with resumed := call.resumed ++ [result] })
    calls

/-- Stop reading and fail everything still waiting. -/
def shutdown (s : MuxSystem F E) (error : Option (AnyError E)) : MuxSystem F E :=
  let cause := error.getD (.mux .closed)
  { mux := ⟨∅, ∅, none, none, some cause⟩
    calls := resumeAll s.calls (s.mux.pending.entries.map Sigma.snd) (.error cause)
    readers :=
      match s.mux.reader with
      | none => s.readers
      | some k => s.readers.modify k fun task => { task with cancelled := true }
    streams := s.finishTicks
    parked := fun _ => none }

/-- `tickContinuation?.yield(tick)`. -/
def yieldTick (s : MuxSystem F E) (tick : MetricsTickBody F) : MuxSystem F E :=
  match s.mux.tickContinuation with
  | none => s
  | some k => { s with streams := s.streams.modify k (·.yieldTick tick) }

/-- `pending.removeValue(forKey:)` and the resuming of what was removed. -/
def deliver (s : MuxSystem F E) (i : ℕ) (envelope : DecodedEnvelope F) : MuxSystem F E :=
  resume { s with mux := { s.mux with pending := s.mux.pending.erase envelope.id } } i
    (.ok envelope)

/-- `early.removeValue(forKey: oldest)`. -/
def evict (s : MuxSystem F E) (oldest : Uuid) : MuxSystem F E :=
  { s with mux := { s.mux with early := s.mux.early.erase oldest } }

/-- `early[envelope.id] = envelope`. -/
def park (s : MuxSystem F E) (envelope : DecodedEnvelope F) : MuxSystem F E :=
  { s with
    mux := { s.mux with early := s.mux.early.insert envelope.id envelope }
    parked := fun id =>
      if id = envelope.id then some (envelope, 0)
      else (s.parked id).map fun entry => (entry.1, entry.2 + 1) }

/-- Route one envelope; `first` is the key of `early` that comes first, if one is asked for. -/
def dispatch (s : MuxSystem F E) (envelope : DecodedEnvelope F) (first : Uuid) :
    Option (MuxSystem F E) :=
  match envelope.body with
  | .metricsTick tick => some (s.yieldTick tick)
  | _ =>
      match s.mux.pending.lookup envelope.id with
      | some i => some (s.deliver i envelope)
      | none =>
          if maxEarlyReplies ≤ s.mux.early.keys.length then
            if first ∈ s.mux.early then some ((s.evict first).park envelope) else none
          else some (s.park envelope)

/-- The reader goes to another place. -/
def read (s : MuxSystem F E) (k : ℕ) (phase : ReaderPhase) : MuxSystem F E :=
  { s with readers := s.readers.modify k fun task => { task with phase } }

/-- The head of the loop: `while !Task.isCancelled`. -/
def loop (s : MuxSystem F E) (k : ℕ) : MuxSystem F E :=
  match s.readers[k]? with
  | some task => s.read k (if task.cancelled then .finished else .receiving)
  | none => s

/-- The first turn of a reader. -/
def begin (s : MuxSystem F E) (k : ℕ) : Option (MuxSystem F E) :=
  match s.readers[k]? with
  | some ⟨.created, _⟩ => some (s.loop k)
  | _ => none

/-- `session.receive` comes back, and the reader runs to the head of its loop or to its end. -/
def received (decoder : JSONDecoder F E) (s : MuxSystem F E) (k : ℕ)
    (outcome : Except (AnyError E) (Option Bytes)) (first : Uuid) : Option (MuxSystem F E) :=
  match s.readers[k]? with
  | some ⟨.receiving, _⟩ =>
      match outcome with
      | .error error => some ((s.shutdown (some error)).read k .finished)
      | .ok none => some ((s.shutdown (some (.mux .hostClosed))).read k .finished)
      | .ok (some raw) =>
          match OspreyProtocol.decode decoder raw with
          | .error error => some ((s.shutdown (some error)).read k .finished)
          | .ok envelope => (s.dispatch envelope first).map (·.loop k)
  | _ => none

end MuxSystem

/-! ### Runs -/

/-- What can happen next: a caller comes, a task takes a turn, or what it awaits comes back. -/
inductive MuxMove (E : Type)
  | call (request : MuxRequest)
  | turn (i : ℕ)
  | sent (i : ℕ) (failure : Option (AnyError E))
  | metricsTicks
  | next (k : ℕ)
  | shutdown (error : Option (AnyError E))
  | begin (k : ℕ)
  | received (k : ℕ) (outcome : Except (AnyError E) (Option Bytes)) (first : Uuid)

namespace MuxSystem

def step (decoder : JSONDecoder F E) (s : MuxSystem F E) : MuxMove E → Option (MuxSystem F E)
  | .call request => some { s with calls := s.calls ++ [⟨request, .entering, []⟩] }
  | .turn i => s.turn i
  | .sent i failure => s.sent i failure
  | .metricsTicks => some s.metricsTicks
  | .next k => s.next k
  | .shutdown error => some (s.shutdown error)
  | .begin k => s.begin k
  | .received k outcome first => s.received decoder k outcome first

/-! ### What a step changes -/

/-- The two agree on everything but readers and streams. -/
structure Agrees (s t : MuxSystem F E) : Prop where
  calls : t.calls = s.calls
  pending : t.mux.pending = s.mux.pending
  early : t.mux.early = s.mux.early
  closure : t.mux.closure = s.mux.closure
  parked : t.parked = s.parked

theorem Agrees.refl (s : MuxSystem F E) : s.Agrees s := ⟨rfl, rfl, rfl, rfl, rfl⟩

theorem agrees_start (s : MuxSystem F E) : s.Agrees s.start := by
  unfold start
  split
  · exact ⟨rfl, rfl, rfl, rfl, rfl⟩
  · exact .refl s

theorem agrees_metricsTicks (s : MuxSystem F E) : s.Agrees s.metricsTicks := by
  unfold metricsTicks
  exact ⟨(agrees_start _).calls, (agrees_start _).pending, (agrees_start _).early,
    (agrees_start _).closure, (agrees_start _).parked⟩

theorem agrees_yieldTick (s : MuxSystem F E) (tick : MetricsTickBody F) :
    s.Agrees (s.yieldTick tick) := by
  unfold yieldTick
  split
  · exact .refl s
  · exact ⟨rfl, rfl, rfl, rfl, rfl⟩

theorem agrees_read (s : MuxSystem F E) (k : ℕ) (phase : ReaderPhase) :
    s.Agrees (s.read k phase) :=
  ⟨rfl, rfl, rfl, rfl, rfl⟩

theorem agrees_loop (s : MuxSystem F E) (k : ℕ) : s.Agrees (s.loop k) := by
  unfold loop
  split
  · exact s.agrees_read k _
  · exact .refl s

end MuxSystem

/-- The call has not made its continuation. -/
def CallPhase.Fresh : CallPhase F E → Prop
  | .entering | .sending | .sent | .registering => True
  | .waiting | .returned _ => False

/-- The call has not made its continuation and brings no envelope either. -/
def CallPhase.Plain : CallPhase F E → Prop
  | .entering | .sending | .sent | .registering => True
  | .waiting => False
  | .returned result => ∀ envelope, result ≠ .ok (some envelope)

/-- The envelope is a push, which no call waits for. -/
def DecodedEnvelope.IsTick (envelope : DecodedEnvelope F) : Prop :=
  ∃ tick, envelope.body = .metricsTick tick

namespace MuxSystem

/-- The reply that dispatching `envelope` discards to make room for it: the one to `first`. -/
def discards (s : MuxSystem F E) (envelope : DecodedEnvelope F) (first : Uuid) :
    Option (DecodedEnvelope F × Uuid) :=
  match envelope.body with
  | .metricsTick _ => none
  | _ =>
      if s.mux.pending.lookup envelope.id = none ∧ maxEarlyReplies ≤ s.mux.early.keys.length then
        some (envelope, first)
      else none

/-- The reply that a move discards. -/
def evicted (decoder : JSONDecoder F E) (s : MuxSystem F E) :
    MuxMove E → Option (DecodedEnvelope F × Uuid)
  | .received _ (.ok (some raw)) first =>
      match OspreyProtocol.decode decoder raw with
      | .error _ => none
      | .ok envelope => s.discards envelope first
  | _ => none

/-- What a step can do to the calls, the dictionaries and the closure, and whether it makes room for
an envelope by discarding the reply to an id. -/
inductive Changes (s : MuxSystem F E) : Option (DecodedEnvelope F × Uuid) → MuxSystem F E → Prop
  | nothing : Changes s none s
  | called (request : MuxRequest) :
      Changes s none { s with calls := s.calls ++ [⟨request, .entering, []⟩] }
  | entered (i : ℕ) (call : MuxCall F E) (phase : CallPhase F E) (hcall : s.calls[i]? = some call)
      (hfresh : call.phase.Fresh) (hplain : phase.Plain) : Changes s none (s.enter i phase)
  | claimed (i : ℕ) (id : Uuid) (resumed) (answered : DecodedEnvelope F)
      (hcall : s.calls[i]? = some ⟨.exchange id, .sent, resumed⟩)
      (hearly : s.mux.early.lookup id = some answered) :
      Changes s none ((s.claim id).enter i (.returned (.ok (some answered))))
  | refused (i : ℕ) (id : Uuid) (resumed) (closure : AnyError E)
      (hcall : s.calls[i]? = some ⟨.exchange id, .registering, resumed⟩)
      (hclosure : s.mux.closure = some closure) :
      Changes s none ((s.resume i (.error closure)).enter i .waiting)
  | answered (i : ℕ) (id : Uuid) (resumed) (answered : DecodedEnvelope F)
      (hcall : s.calls[i]? = some ⟨.exchange id, .registering, resumed⟩)
      (hclosure : s.mux.closure = none) (hearly : s.mux.early.lookup id = some answered) :
      Changes s none (((s.claim id).resume i (.ok answered)).enter i .waiting)
  | stored (i : ℕ) (id : Uuid) (resumed)
      (hcall : s.calls[i]? = some ⟨.exchange id, .registering, resumed⟩)
      (hclosure : s.mux.closure = none) (hearly : s.mux.early.lookup id = none) :
      Changes s none ((s.store id i).enter i .waiting)
  | woken (i : ℕ) (id : Uuid) (result : Except (AnyError E) (DecodedEnvelope F)) (rest)
      (hcall : s.calls[i]? = some ⟨.exchange id, .waiting, result :: rest⟩) :
      Changes s none (s.enter i (.returned (result.map some)))
  | shutdown (error : Option (AnyError E)) : Changes s none (s.shutdown error)
  | delivered (envelope : DecodedEnvelope F) (i : ℕ) (htick : ¬envelope.IsTick)
      (hpending : s.mux.pending.lookup envelope.id = some i) : Changes s none (s.deliver i envelope)
  | parked (envelope : DecodedEnvelope F) (htick : ¬envelope.IsTick)
      (hpending : s.mux.pending.lookup envelope.id = none)
      (hroom : s.mux.early.keys.length < maxEarlyReplies) : Changes s none (s.park envelope)
  | replaced (envelope : DecodedEnvelope F) (first : Uuid) (htick : ¬envelope.IsTick)
      (hpending : s.mux.pending.lookup envelope.id = none)
      (hfull : maxEarlyReplies ≤ s.mux.early.keys.length) (hfirst : first ∈ s.mux.early) :
      Changes s (some (envelope, first)) ((s.evict first).park envelope)

theorem changes_of_turn {s t : MuxSystem F E} {i : ℕ} (h : s.turn i = some t) :
    ∃ u, s.Changes none u ∧ u.Agrees t := by
  unfold turn at h
  split at h
  · cases h
  · rename_i call hcall
    obtain ⟨request, phase, resumed⟩ := call
    cases request with
    | send =>
        cases phase with
        | entering =>
            simp only at h
            split at h
            · cases h
              exact ⟨_, .entered i _ _ hcall trivial (by simp [CallPhase.Plain]), .refl _⟩
            · cases h
              exact ⟨_, .entered i _ .sending hcall trivial trivial, .refl _⟩
        | sending => cases h
        | sent => cases h
        | registering => cases h
        | waiting => cases h
        | returned result => cases h
    | exchange id =>
        cases phase with
        | entering =>
            simp only at h
            split at h
            · cases h
              exact ⟨_, .entered i _ _ hcall trivial (by simp [CallPhase.Plain]), .refl _⟩
            · cases h
              refine ⟨_, .entered i _ .sending hcall trivial trivial, ?_⟩
              have hstart := s.agrees_start
              exact ⟨by simp only [enter, hstart.calls], hstart.pending, hstart.early,
                hstart.closure, hstart.parked⟩
        | sending => cases h
        | sent =>
            simp only at h
            split at h
            · rename_i answered hearly
              cases h
              exact ⟨_, .claimed i id resumed answered hcall hearly, .refl _⟩
            · cases h
              exact ⟨_, .entered i _ .registering hcall trivial trivial, .refl _⟩
        | registering =>
            simp only at h
            split at h
            · rename_i closure hclosure
              cases h
              exact ⟨_, .refused i id resumed closure hcall hclosure, .refl _⟩
            · rename_i hclosure
              split at h
              · rename_i answered hearly
                cases h
                exact ⟨_, .answered i id resumed answered hcall hclosure hearly, .refl _⟩
              · rename_i hearly
                cases h
                exact ⟨_, .stored i id resumed hcall hclosure hearly, .refl _⟩
        | waiting =>
            cases resumed with
            | nil => cases h
            | cons result rest =>
                cases h
                exact ⟨_, .woken i id result rest hcall, .refl _⟩
        | returned result => cases h

theorem changes_of_sent {s t : MuxSystem F E} {i : ℕ} {failure : Option (AnyError E)}
    (h : s.sent i failure = some t) : s.Changes none t := by
  unfold sent at h
  split at h
  · cases h
  · rename_i call hcall
    have hfresh : call.phase = .sending → call.phase.Fresh := fun hphase => by
      rw [hphase]
      trivial
    split at h
    · rename_i hphase
      cases h
      exact .entered i call _ hcall (hfresh hphase) (by simp [CallPhase.Plain])
    · rename_i hphase _
      cases h
      exact .entered i call _ hcall (hfresh hphase) trivial
    · rename_i hphase _
      cases h
      exact .entered i call _ hcall (hfresh hphase) (by simp [CallPhase.Plain])
    · cases h

theorem changes_of_dispatch {s t : MuxSystem F E} {envelope : DecodedEnvelope F} {first : Uuid}
    (h : s.dispatch envelope first = some t) :
    ∃ u, s.Changes (s.discards envelope first) u ∧ u.Agrees t := by
  by_cases hbody : envelope.IsTick
  · obtain ⟨tick, htick⟩ := hbody
    simp only [dispatch, htick, Option.some.injEq] at h
    subst h
    simp only [discards, htick]
    exact ⟨s, .nothing, s.agrees_yieldTick _⟩
  · have hnot : ∀ tick, envelope.body ≠ .metricsTick tick := fun tick htick => hbody ⟨tick, htick⟩
    have hdiscards : s.discards envelope first =
        if s.mux.pending.lookup envelope.id = none ∧ maxEarlyReplies ≤ s.mux.early.keys.length then
          some (envelope, first)
        else none := by
      unfold discards
      split
      · rename_i tick htick
        exact absurd htick (hnot tick)
      · rfl
    rw [hdiscards]
    unfold dispatch at h
    split at h
    · rename_i tick htick
      exact absurd htick (hnot tick)
    · split at h
      · rename_i i hpending
        cases h
        rw [if_neg (by simp [hpending])]
        exact ⟨_, .delivered envelope i hbody hpending, .refl _⟩
      · rename_i hpending
        split at h
        · rename_i hfull
          split at h
          · rename_i hfirst
            cases h
            rw [if_pos ⟨hpending, hfull⟩]
            exact ⟨_, .replaced envelope first hbody hpending hfull hfirst, .refl _⟩
          · cases h
        · rename_i hroom
          cases h
          rw [if_neg (by simp [hroom])]
          exact ⟨_, .parked envelope hbody hpending (by omega), .refl _⟩

/-- **What a step does**, apart from readers and streams. -/
theorem changes_of_step {decoder : JSONDecoder F E} {s t : MuxSystem F E} {move : MuxMove E}
    (h : s.step decoder move = some t) :
    ∃ u, s.Changes (s.evicted decoder move) u ∧ u.Agrees t := by
  cases move with
  | call request =>
      cases h
      exact ⟨_, .called request, .refl _⟩
  | turn i => exact changes_of_turn h
  | sent i failure => exact ⟨t, changes_of_sent h, .refl t⟩
  | metricsTicks =>
      cases h
      exact ⟨s, .nothing, s.agrees_metricsTicks⟩
  | next k =>
      simp only [step, next] at h
      split at h
      · cases h
        exact ⟨s, .nothing, ⟨rfl, rfl, rfl, rfl, rfl⟩⟩
      · cases h
  | shutdown error =>
      cases h
      exact ⟨_, .shutdown error, .refl _⟩
  | begin k =>
      simp only [step, begin] at h
      split at h
      · cases h
        exact ⟨s, .nothing, s.agrees_loop k⟩
      · cases h
  | received k outcome first =>
      simp only [step, received] at h
      split at h
      · split at h
        · cases h
          exact ⟨_, .shutdown _, agrees_read _ k _⟩
        · cases h
          exact ⟨_, .shutdown _, agrees_read _ k _⟩
        · rename_i raw
          simp only [evicted]
          split at h
          · cases h
            exact ⟨_, .shutdown _, agrees_read _ k _⟩
          · obtain ⟨v, hv, rfl⟩ := Option.map_eq_some_iff.mp h
            obtain ⟨u, hchanges, hagrees⟩ := changes_of_dispatch hv
            have hloop := v.agrees_loop k
            exact ⟨u, hchanges, ⟨hloop.calls.trans hagrees.calls,
              hloop.pending.trans hagrees.pending, hloop.early.trans hagrees.early,
              hloop.closure.trans hagrees.closure, hloop.parked.trans hagrees.parked⟩⟩
      · cases h

end MuxSystem

end Osprey
