/-
**The session protocol, as the traces it allows.**

What a session may do in each round is said here without the session's own code: what it pushes,
from what the sampler has queued for the live stream; what it does when the wait fails, ends without
traffic, or finds something to read; how each envelope is handled; and where the session ends.  A
trace is read off the rounds and the deliveries of the session, one after the other, so that neither
can be passed over.

Main definitions:

* `Osprey.Envelope.Asks`, `Osprey.Handling` — what an envelope asks for, and how it is handled;
* `Osprey.Pushes` — the ticks of a round;
* `Osprey.Conforms` — what follows on an open session, round after round;
* `Osprey.Envelope.Opens`, `Osprey.SessionTrace` — the opening, and a whole session.

Main results:

* `Osprey.dispatch_ok` — one envelope, one answer;
* `Osprey.Conforms.arrivals`, `Osprey.Conforms.progress` — what arrives is what was delivered, in
  order, and all of it as long as there are rounds and the session goes on;
* `Osprey.serve_conforms` — **a session keeps the protocol**: nothing is dispatched before a `hello`
  that was answered, every envelope is answered once and in order, ticks come in between, and the
  session ends where it has to and nowhere else.
-/

import Osprey.AgentSession

set_option relaxedAutoImplicit false
set_option autoImplicit false

namespace Osprey

variable {F V : Type}

/-! ### The protocol -/

/-- The envelope is of a supported version, and its body is this one. -/
def Envelope.Asks (json : SerdeJson F V) (request : Envelope V) (body : Body F) : Prop :=
  request.Supported ∧ request.decodeBody json = .ok body

/-- How one envelope is handled in a round.  A subscribe is answered and decides which stream is
live from there on.  A revocation that the handler refuses is answered with an error; one that it
applies is answered with a `bye` and ends the session.  A `bye` of a supported version is not
answered and ends the session.  Anything else is answered, and the session goes on.  An answer is
one envelope under the id of the one it answers. -/
inductive Handling (env : SessionEnv F V) (peer : PinnedPeer) (peerDeviceId : Uuid)
    (round : Round F) (request : Envelope V) :
    Option Uuid → List (Event V) → Option Uuid → Option SessionEnd → Prop
  | subscribed {stream : Option Uuid} (body : MetricsSubscribeBody) (answer : Envelope V) :
      request.Asks env.json (.metricsSubscribe body) → answer.id = request.id →
      answer.t = .metricsHistory →
      Handling env peer peerDeviceId round request stream [.sent answer]
        (if body.stream then some request.id else none) none
  | refused {stream : Option Uuid} (body : PairRevokeBody) (refusal : RevocationRefusal)
      (answer : Envelope V) :
      request.Asks env.json (.pairRevoke body) →
      round.apply body peer peerDeviceId = .error refusal → answer.id = request.id →
      answer.t = .error →
      Handling env peer peerDeviceId round request stream
        [.revocationRefused refusal, .sent answer] stream none
  | revoked {stream : Option Uuid} (body : PairRevokeBody) (applied : AppliedRevocation)
      (answer : Envelope V) :
      request.Asks env.json (.pairRevoke body) →
      round.apply body peer peerDeviceId = .ok applied → answer.id = request.id →
      answer.t = .bye →
      Handling env peer peerDeviceId round request stream
        [.revocationApplied applied, .sent answer] stream (some .revoked)
  | bye {stream : Option Uuid} : request.t = .bye → request.Supported →
      Handling env peer peerDeviceId round request stream [] stream (some .peerSaidBye)
  | answered {stream : Option Uuid} (answer : Envelope V) :
      ¬(request.t = .bye ∧ request.Supported) →
      (∀ body, ¬request.Asks env.json (.metricsSubscribe body)) →
      (∀ body, ¬request.Asks env.json (.pairRevoke body)) → answer.id = request.id →
      Handling env peer peerDeviceId round request stream [.sent answer] stream none

/-- A tick for a stream carries a sample. -/
def TickOf (json : SerdeJson F V) (subId : Uuid) (sample : Sample F) (tick : Envelope V) : Prop :=
  tick.t = .metricsTick ∧ json.toValue (.metricsTick (.tickBody subId sample)) = .ok tick.body

/-- What a round sends before it waits: nothing where no stream is live or no sample is queued, and
otherwise a tick for each sample in turn, under the next ids that are drawn.  Then that was when the
session was last active. -/
inductive Pushes (env : SessionEnv F V) (round : Round F) :
    Option Uuid → Instant → ℕ → List (Event V) → Instant → ℕ → Prop
  | nothing {stream : Option Uuid} {last : Instant} {drawn : ℕ} :
      stream = none ∨ round.queued = [] → Pushes env round stream last drawn [] last drawn
  | ticks {subId : Uuid} {last : Instant} {drawn : ℕ} (ticks : List (Envelope V)) :
      round.queued ≠ [] → List.Forall₂ (TickOf env.json subId) round.queued ticks →
      ticks.map Envelope.id = (List.range' drawn ticks.length).map env.newV4 →
      Pushes env round (some subId) last drawn (ticks.map .sent ++ [.active round.pushedAt])
        round.pushedAt (drawn + ticks.length)

/-- What follows on an open session on which a stream may be live, that was last active at `last`
and has drawn `drawn` ids, with these deliveries and rounds to come.  Each round pushes and waits.
The wait fails, which ends the session; or it ends without traffic, and then the session ends if it
has not been active for `SESSION_IDLE_TIMEOUT`, and goes on otherwise; or there is something to
read, and the next delivery arrives: the end of the stream, a failure or a malformed envelope, each
of which ends the session, or an envelope, which is handled. -/
inductive Conforms (env : SessionEnv F V) (peer : PinnedPeer) (peerDeviceId : Uuid) :
    Option Uuid → Instant → ℕ → List Inbound → List (Round F) → List (Event V) →
      Option (Except SessionError SessionReport) → Prop
  | noMoreRounds {stream : Option Uuid} {last : Instant} {drawn : ℕ} {inbox : List Inbound} :
      Conforms env peer peerDeviceId stream last drawn inbox [] [] none
  | waitFailed {stream : Option Uuid} {last last' : Instant} {drawn drawn' : ℕ}
      {inbox : List Inbound} {round : Round F} {rounds : List (Round F)} {pushed : List (Event V)}
      (kind : ByteIO.ErrorKind) : Pushes env round stream last drawn pushed last' drawn' →
      round.ready = .error kind →
      Conforms env peer peerDeviceId stream last drawn inbox (round :: rounds)
        (pushed ++ [.waitFailed kind]) (some (.error (.wait kind)))
  | idle {stream : Option Uuid} {last last' : Instant} {drawn drawn' : ℕ} {inbox : List Inbound}
      {round : Round F} {rounds : List (Round F)} {pushed : List (Event V)} :
      Pushes env round stream last drawn pushed last' drawn' → round.ready = .ok false →
      SESSION_IDLE_TIMEOUT ≤ round.quietAt - last' →
      Conforms env peer peerDeviceId stream last drawn inbox (round :: rounds)
        (pushed ++ [.quiet round.quietAt])
        (some (.error (.noTraffic (SESSION_IDLE_TIMEOUT / 1000000000))))
  | quiet {stream : Option Uuid} {last last' : Instant} {drawn drawn' : ℕ} {inbox : List Inbound}
      {round : Round F} {rounds : List (Round F)} {pushed rest : List (Event V)}
      {result : Option (Except SessionError SessionReport)} :
      Pushes env round stream last drawn pushed last' drawn' → round.ready = .ok false →
      round.quietAt - last' < SESSION_IDLE_TIMEOUT →
      Conforms env peer peerDeviceId stream last' drawn' inbox rounds rest result →
      Conforms env peer peerDeviceId stream last drawn inbox (round :: rounds)
        (pushed ++ .quiet round.quietAt :: rest) result
  | noMoreDeliveries {stream : Option Uuid} {last last' : Instant} {drawn drawn' : ℕ}
      {round : Round F} {rounds : List (Round F)} {pushed : List (Event V)} :
      Pushes env round stream last drawn pushed last' drawn' → round.ready = .ok true →
      Conforms env peer peerDeviceId stream last drawn [] (round :: rounds) pushed none
  | closed {stream : Option Uuid} {last last' : Instant} {drawn drawn' : ℕ} {inbound : Inbound}
      {inbox : List Inbound} {round : Round F} {rounds : List (Round F)} {pushed : List (Event V)}
      {report : SessionReport} : Pushes env round stream last drawn pushed last' drawn' →
      round.ready = .ok true → env.json.arrival inbound = .closed →
      report.ended = .peerClosed → report.peerDeviceId = peerDeviceId →
      Conforms env peer peerDeviceId stream last drawn (inbound :: inbox) (round :: rounds)
        (pushed ++ [.arrived .closed]) (some (.ok report))
  | failed {stream : Option Uuid} {last last' : Instant} {drawn drawn' : ℕ} {inbound : Inbound}
      {inbox : List Inbound} {round : Round F} {rounds : List (Round F)} {pushed : List (Event V)}
      (e : Error) : Pushes env round stream last drawn pushed last' drawn' →
      round.ready = .ok true → env.json.arrival inbound = .failed e →
      Conforms env peer peerDeviceId stream last drawn (inbound :: inbox) (round :: rounds)
        (pushed ++ [.arrived (.failed e)]) (some (.error (.read e)))
  | malformed {stream : Option Uuid} {last last' : Instant} {drawn drawn' : ℕ} {inbound : Inbound}
      {inbox : List Inbound} {round : Round F} {rounds : List (Round F)} {pushed : List (Event V)}
      (e : JsonError) : Pushes env round stream last drawn pushed last' drawn' →
      round.ready = .ok true → env.json.arrival inbound = .malformed e →
      Conforms env peer peerDeviceId stream last drawn (inbound :: inbox) (round :: rounds)
        (pushed ++ [.arrived (.malformed e)]) (some (.error (.malformedEnvelope e)))
  | handled {stream stream' : Option Uuid} {last last' : Instant} {drawn drawn' : ℕ}
      {inbound : Inbound} {inbox : List Inbound} {round : Round F} {rounds : List (Round F)}
      {pushed events rest : List (Event V)} {request : Envelope V}
      {result : Option (Except SessionError SessionReport)} :
      Pushes env round stream last drawn pushed last' drawn' → round.ready = .ok true →
      env.json.arrival inbound = .envelope request →
      Handling env peer peerDeviceId round request stream events stream' none →
      Conforms env peer peerDeviceId stream' round.receivedAt drawn' inbox rounds rest result →
      Conforms env peer peerDeviceId stream last drawn (inbound :: inbox) (round :: rounds)
        (pushed ++ .arrived (.envelope request) :: .active round.receivedAt :: (events ++ rest))
        result
  | ended {stream stream' : Option Uuid} {last last' : Instant} {drawn drawn' : ℕ}
      {inbound : Inbound} {inbox : List Inbound} {round : Round F} {rounds : List (Round F)}
      {pushed events : List (Event V)} {request : Envelope V} {report : SessionReport} :
      Pushes env round stream last drawn pushed last' drawn' → round.ready = .ok true →
      env.json.arrival inbound = .envelope request →
      Handling env peer peerDeviceId round request stream events stream' (some report.ended) →
      report.peerDeviceId = peerDeviceId →
      Conforms env peer peerDeviceId stream last drawn (inbound :: inbox) (round :: rounds)
        (pushed ++ .arrived (.envelope request) :: .active round.receivedAt :: events)
        (some (.ok report))

/-- The message opens a session: it is a well-formed `hello` whose version range overlaps the
agent's. -/
def Envelope.Opens (json : SerdeJson F V) (request : Envelope V) (hello : HelloBody) : Prop :=
  request.t = .hello ∧ request.decodeBody json = .ok (.hello hello) ∧
    max MIN_PROTOCOL_VERSION hello.minProtocolVersion ≤
      min PROTOCOL_VERSION hello.protocolVersion

/-- What happens on a session from its beginning.  Nothing is dispatched before a message that
opens it was answered; anything else in its place is refused, if it is an envelope, and that was
it. -/
inductive SessionTrace (env : SessionEnv F V) (peer : PinnedPeer) (startedAt : Instant) :
    List Inbound → List (Round F) → List (Event V) →
      Option (Except SessionError SessionReport) → Prop
  | waiting {rounds : List (Round F)} : SessionTrace env peer startedAt [] rounds [] none
  | closed {inbound : Inbound} {inbox : List Inbound} {rounds : List (Round F)} :
      env.json.arrival inbound = .closed →
      SessionTrace env peer startedAt (inbound :: inbox) rounds [.arrived .closed]
        (some (.error .closedBeforeHello))
  | failed {inbound : Inbound} {inbox : List Inbound} {rounds : List (Round F)} (e : Error) :
      env.json.arrival inbound = .failed e →
      SessionTrace env peer startedAt (inbound :: inbox) rounds [.arrived (.failed e)]
        (some (.error (.read e)))
  | malformed {inbound : Inbound} {inbox : List Inbound} {rounds : List (Round F)} (e : JsonError) :
      env.json.arrival inbound = .malformed e →
      SessionTrace env peer startedAt (inbound :: inbox) rounds [.arrived (.malformed e)]
        (some (.error (.malformedEnvelope e)))
  | refused {inbound : Inbound} {inbox : List Inbound} {rounds : List (Round F)}
      {request : Envelope V} (answer : Envelope V) (failure : SessionError) :
      env.json.arrival inbound = .envelope request →
      (∀ hello, ¬request.Opens env.json hello) → answer.id = request.id → answer.t = .error →
      SessionTrace env peer startedAt (inbound :: inbox) rounds
        [.arrived (.envelope request), .sent answer] (some (.error failure))
  | opened {inbound : Inbound} {inbox : List Inbound} {rounds : List (Round F)}
      {request : Envelope V} {hello : HelloBody} {rest : List (Event V)}
      {result : Option (Except SessionError SessionReport)} (answer : Envelope V) :
      env.json.arrival inbound = .envelope request → request.Opens env.json hello →
      answer.id = request.id → answer.t = .helloOk →
      Conforms env peer hello.deviceId none startedAt 1 inbox rounds rest result →
      SessionTrace env peer startedAt (inbound :: inbox) rounds
        (.arrived (.envelope request) :: .sent answer :: rest) result

/-- The arrival that an event is, if it is one. -/
def Event.arrival? : Event V → Option (Arrival V)
  | .arrived arrival => some arrival
  | _ => none

/-- The round finds something to read. -/
def Round.isReady (round : Round F) : Bool :=
  match round.ready with
  | .ok true => true
  | _ => false

/-! ### What arrives -/

section

variable {env : SessionEnv F V} {peer : PinnedPeer} {peerDeviceId : Uuid}

/-- Nothing is read while an envelope is handled. -/
theorem Handling.arrivals {round : Round F} {request : Envelope V} {events : List (Event V)}
    {stream stream' : Option Uuid} {ended : Option SessionEnd}
    (h : Handling env peer peerDeviceId round request stream events stream' ended) :
    events.filterMap Event.arrival? = [] := by
  cases h <;> rfl

/-- Nor while ticks are pushed. -/
theorem Pushes.arrivals {round : Round F} {stream : Option Uuid} {last last' : Instant}
    {drawn drawn' : ℕ} {events : List (Event V)}
    (h : Pushes env round stream last drawn events last' drawn') :
    events.filterMap Event.arrival? = [] := by
  cases h with
  | nothing => rfl
  | ticks ticks =>
      rw [List.filterMap_append, List.filterMap_map]
      simp [Function.comp_def, Event.arrival?]

variable {stream : Option Uuid} {last : Instant} {drawn : ℕ} {inbox : List Inbound}
  {rounds : List (Round F)} {events : List (Event V)}
  {result : Option (Except SessionError SessionReport)}

/-- **What arrives is what was delivered, in order.** -/
theorem Conforms.arrivals
    (h : Conforms env peer peerDeviceId stream last drawn inbox rounds events result) :
    events.filterMap Event.arrival? <+: inbox.map env.json.arrival := by
  induction h with
  | noMoreRounds => exact List.nil_prefix
  | waitFailed _ hpushes | idle hpushes =>
      rw [List.filterMap_append, hpushes.arrivals]
      exact List.nil_prefix
  | quiet hpushes _ _ _ ih =>
      rw [List.filterMap_append, hpushes.arrivals]
      exact ih
  | noMoreDeliveries hpushes =>
      rw [hpushes.arrivals]
      exact List.nil_prefix
  | closed hpushes _ harrival | failed _ hpushes _ harrival | malformed _ hpushes _ harrival =>
      rw [List.filterMap_append, hpushes.arrivals, List.map_cons, harrival]
      exact ⟨_, rfl⟩
  | handled hpushes _ harrival hhandling _ ih =>
      rw [List.filterMap_append, hpushes.arrivals, List.map_cons, harrival]
      simp only [List.filterMap_cons, Event.arrival?, List.filterMap_append, hhandling.arrivals,
        List.nil_append]
      exact List.cons_prefix_cons.mpr ⟨rfl, ih⟩
  | ended hpushes _ harrival hhandling =>
      rw [List.filterMap_append, hpushes.arrivals, List.map_cons, harrival]
      simp only [List.filterMap_cons, Event.arrival?, hhandling.arrivals, List.nil_append]
      exact ⟨_, rfl⟩

/-- **A session that has not ended** has read all that was delivered, or one delivery for each round
that found something to read. -/
theorem Conforms.progress
    (h : Conforms env peer peerDeviceId stream last drawn inbox rounds events result)
    (hresult : result = none) :
    events.filterMap Event.arrival? = inbox.map env.json.arrival ∨
      (events.filterMap Event.arrival?).length = rounds.countP Round.isReady := by
  induction h with
  | noMoreRounds => exact .inr rfl
  | waitFailed | idle | closed | failed | malformed | ended => cases hresult
  | quiet hpushes hready _ _ ih =>
      rw [List.filterMap_append, hpushes.arrivals, List.nil_append,
        List.countP_cons_of_neg (by simp [Round.isReady, hready])]
      exact ih hresult
  | noMoreDeliveries hpushes =>
      exact .inl hpushes.arrivals
  | handled hpushes hready harrival hhandling _ ih =>
      rw [List.filterMap_append, hpushes.arrivals, List.nil_append, List.map_cons, harrival,
        List.countP_cons_of_pos (by simp [Round.isReady, hready])]
      simp only [List.filterMap_cons, Event.arrival?, List.filterMap_append, hhandling.arrivals,
        List.nil_append, List.length_cons]
      rcases ih hresult with hall | hcount
      · exact .inl (by rw [hall])
      · exact .inr (by rw [hcount])

/-- On a whole session too, what arrives is what was delivered. -/
theorem SessionTrace.arrivals {startedAt : Instant}
    (h : SessionTrace env peer startedAt inbox rounds events result) :
    events.filterMap Event.arrival? <+: inbox.map env.json.arrival := by
  cases h with
  | waiting => exact List.nil_prefix
  | closed harrival | failed _ harrival | malformed _ harrival | refused _ _ harrival =>
      rw [List.map_cons, harrival]
      exact ⟨_, rfl⟩
  | opened answer harrival _ _ _ hconforms =>
      rw [List.map_cons, harrival]
      exact List.cons_prefix_cons.mpr ⟨rfl, hconforms.arrivals⟩

/-- And the `hello` is one delivery more. -/
theorem SessionTrace.progress {startedAt : Instant}
    (h : SessionTrace env peer startedAt inbox rounds events result) (hresult : result = none) :
    events.filterMap Event.arrival? = inbox.map env.json.arrival ∨
      (events.filterMap Event.arrival?).length = 1 + rounds.countP Round.isReady := by
  cases h with
  | waiting => exact .inl rfl
  | closed | failed | malformed | refused => cases hresult
  | opened answer harrival _ _ _ hconforms =>
      rw [List.map_cons, harrival]
      simp only [List.filterMap_cons, Event.arrival?, List.length_cons]
      rcases hconforms.progress hresult with hall | hcount
      · exact .inl (by rw [hall])
      · exact .inr (by rw [hcount, Nat.add_comm])

end

/-! ### One step of a session -/

section

variable {env : SessionEnv F V}

/-- A write that succeeds sends one envelope, of the given id and the type of the body. -/
theorem send_ok (hjson : env.json.Encodes) (wire : Wire V) (hscript : wire.script = []) (id : Uuid)
    (body : Body F) :
    ∃ envelope : Envelope V, envelope.id = id ∧ envelope.t = body.messageType ∧
      env.json.toValue body = .ok envelope.body ∧
      send env wire id body =
        (.ok (), ⟨wire.trace ++ [.sent envelope], wire.drawn, wire.built + 1, []⟩) := by
  obtain ⟨value, hvalue⟩ := hjson.toValue body
  obtain ⟨bytes, hbytes⟩ := hjson.toVec
    ⟨PROTOCOL_VERSION, id, body.messageType, env.nowMs wire.built, value⟩
  refine ⟨⟨PROTOCOL_VERSION, id, body.messageType, env.nowMs wire.built, value⟩, rfl, rfl, hvalue,
    ?_⟩
  simp only [send, Envelope.new, hvalue, hbytes, hscript, Wire.note]

/-- The wire of a session whose writes succeed, after the events `events`. -/
structure Wire.Extends (wire wire' : Wire V) (events : List (Event V)) : Prop where
  trace : wire'.trace = wire.trace ++ events
  drawn : wire'.drawn = wire.drawn
  script : wire'.script = []

theorem answer_ok (hjson : env.json.Encodes) (wire : Wire V) (hscript : wire.script = [])
    (runtime answered : Runtime) (id : Uuid) (body : Body F) :
    ∃ reply : Envelope V, reply.id = id ∧ reply.t = body.messageType ∧
      (answer env runtime answered wire id body).result = .ok none ∧
      (answer env runtime answered wire id body).runtime = answered ∧
      wire.Extends (answer env runtime answered wire id body).wire [.sent reply] := by
  obtain ⟨reply, hid, ht, -, hsend⟩ := send_ok hjson wire hscript id body
  refine ⟨reply, hid, ht, ?_⟩
  rw [answer, hsend]
  exact ⟨rfl, rfl, rfl, rfl, rfl⟩

/-- A body belongs to the type of its envelope. -/
theorem Envelope.messageType_of_decodeBody {json : SerdeJson F V} {request : Envelope V}
    {body : Body F} (h : request.decodeBody json = .ok body) : body.messageType = request.t := by
  have hwrap {α : Type} {t : MessageType} {schema : V → Except JsonError α} {wrap : α → Body F}
      (hdecode : Envelope.decode t schema wrap request.body = .ok body) :
      ∃ inner, body = wrap inner := by
    unfold Envelope.decode at hdecode
    split at hdecode
    · cases hdecode
    · exact ⟨_, (Except.ok.inj hdecode).symm⟩
  unfold Envelope.decodeBody at h
  split at h
  case h_13 => cases h
  all_goals
    rename_i ht
    obtain ⟨inner, rfl⟩ := hwrap h
    exact ht.symm

/-- An envelope of another type does not ask for it. -/
theorem Envelope.not_asks_of_type {json : SerdeJson F V} {request : Envelope V} {body : Body F}
    (h : body.messageType ≠ request.t) : ¬request.Asks json body :=
  fun hasks => h (messageType_of_decodeBody hasks.2)

end

/-- What dispatching has done is a way to handle the envelope. -/
def Dispatched.Handles (out : Dispatched V) (env : SessionEnv F V) (peer : PinnedPeer)
    (peerDeviceId : Uuid) (round : Round F) (wire : Wire V) (runtime : Runtime)
    (request : Envelope V) : Prop :=
  ∃ events ended, wire.Extends out.wire events ∧ out.result = .ok ended ∧
    Handling env peer peerDeviceId round request runtime.stream events out.runtime.stream ended

section

variable {env : SessionEnv F V} {peer : PinnedPeer} {peerDeviceId : Uuid} {round : Round F}
  {wire : Wire V} {request : Envelope V} {runtime : Runtime}

/-- An answer to an envelope that asks neither for a stream nor for a revocation. -/
theorem handles_answer (hjson : env.json.Encodes) (hscript : wire.script = [])
    (hbye : ¬(request.t = .bye ∧ request.Supported))
    (hsubscribe : ∀ body, ¬request.Asks env.json (.metricsSubscribe body))
    (hrevoke : ∀ body, ¬request.Asks env.json (.pairRevoke body)) {answered : Runtime}
    (hstream : answered.stream = runtime.stream) (body : Body F) :
    (answer env runtime answered wire request.id body).Handles env peer peerDeviceId round wire
      runtime request := by
  obtain ⟨reply, hid, -, hresult, hruntime, hextends⟩ :=
    answer_ok hjson wire hscript runtime answered request.id body
  refine ⟨[.sent reply], none, hextends, hresult, ?_⟩
  rw [hruntime, hstream]
  exact .answered reply hbye hsubscribe hrevoke hid

/-- A subscribe that is understood. -/
theorem handles_subscribe (hjson : env.json.Encodes) (hscript : wire.script = [])
    {body : MetricsSubscribeBody} (hasks : request.Asks env.json (.metricsSubscribe body)) :
    (handleMetricsSubscribe env round runtime wire request.id body).Handles env peer peerDeviceId
      round wire runtime request := by
  unfold handleMetricsSubscribe
  obtain ⟨reply, hid, ht, hresult, hruntime, hextends⟩ := answer_ok hjson wire hscript runtime
    { runtime with stream := if body.stream then some request.id else none } request.id
    (.metricsHistory (.historyBody request.id (round.history body.backfillSeconds)
      round.latestTotalMemory))
  refine ⟨[.sent reply], none, hextends, hresult, ?_⟩
  rw [hruntime]
  exact .subscribed body reply hasks hid ht

/-- A revocation that is understood. -/
theorem handles_revoke (hjson : env.json.Encodes) (hscript : wire.script = [])
    {body : PairRevokeBody} (hasks : request.Asks env.json (.pairRevoke body)) :
    (handleRevoke env round peer peerDeviceId runtime wire request.id body).Handles env peer
      peerDeviceId round wire runtime request := by
  unfold handleRevoke
  cases happly : round.apply body peer peerDeviceId with
  | error refusal =>
      obtain ⟨reply, hid, ht, hresult, hruntime, hextends⟩ :=
        answer_ok hjson (wire.note (.revocationRefused refusal)) hscript runtime runtime request.id
          (.error ⟨refusal.code, refusal.wireMessage, false⟩)
      refine ⟨[.revocationRefused refusal, .sent reply], none,
        ⟨?_, hextends.drawn, hextends.script⟩, hresult, ?_⟩
      · dsimp only [refuse]
        rw [hextends.trace, Wire.note]
        exact List.append_assoc _ _ _
      · dsimp only [refuse]
        rw [hruntime]
        exact .refused body refusal reply hasks happly hid ht
  | ok applied =>
      obtain ⟨reply, hid, ht, -, hsend⟩ :=
        send_ok hjson (wire.note (.revocationApplied applied)) hscript request.id
          (.bye ⟨.unpaired, some "pair.revoke accepted; this device is no longer paired"⟩)
      refine ⟨[.revocationApplied applied, .sent reply], some .revoked, ?_, rfl,
        .revoked body applied reply hasks happly hid ht⟩
      dsimp only
      rw [hsend]
      exact ⟨List.append_assoc _ _ _, rfl, rfl⟩

/-- **One envelope, one answer.** -/
theorem dispatch_ok (hjson : env.json.Encodes) (peer : PinnedPeer) (peerDeviceId : Uuid)
    (round : Round F) (wire : Wire V) (hscript : wire.script = []) (runtime : Runtime)
    (request : Envelope V) :
    (dispatch env round peer peerDeviceId runtime wire request).Handles env peer peerDeviceId round
      wire runtime request := by
  unfold dispatch
  cases hversion : request.checkVersion with
  | error e =>
      have hunsupported : ¬request.Supported := by
        rw [← Envelope.checkVersion_eq_ok, hversion]
        simp
      exact handles_answer hjson hscript (fun h => hunsupported h.2) (fun _ h => hunsupported h.1)
        (fun _ h => hunsupported h.1) rfl _
  | ok u =>
      have hsupported : request.Supported := (Envelope.checkVersion_eq_ok request).mp hversion
      -- an answer to an envelope that is not understood, or asks for something else
      have hother {answered : Runtime} (hstream : answered.stream = runtime.stream) (body : Body F)
          (hbye : request.t ≠ .bye)
          (hsubscribe : ∀ body, ¬request.Asks env.json (.metricsSubscribe body))
          (hrevoke : ∀ body, ¬request.Asks env.json (.pairRevoke body)) :
          (answer env runtime answered wire request.id body).Handles env peer peerDeviceId round
            wire runtime request :=
        handles_answer hjson hscript (fun h => hbye h.1) hsubscribe hrevoke hstream body
      have hnotSubscribe (ht : request.t ≠ .metricsSubscribe) (body : MetricsSubscribeBody) :
          ¬request.Asks env.json (.metricsSubscribe body) := Envelope.not_asks_of_type ht.symm
      have hnotRevoke (ht : request.t ≠ .pairRevoke) (body : PairRevokeBody) :
          ¬request.Asks env.json (.pairRevoke body) := Envelope.not_asks_of_type ht.symm
      dsimp only
      split
      · rename_i ht
        have hsubscribe := hnotSubscribe (by simp [ht])
        have hrevoke := hnotRevoke (by simp [ht])
        split
        · refine hother ?_ _ (by simp [ht]) hsubscribe hrevoke
          rfl
        · exact hother rfl _ (by simp [ht]) hsubscribe hrevoke
      · rename_i ht
        have hrevoke := hnotRevoke (by simp [ht])
        split
        · rename_i body hdecode
          exact handles_subscribe hjson hscript ⟨hsupported, hdecode⟩
        · rename_i hdecode
          exact hother rfl _ (by simp [ht]) (fun body hasks => hdecode body hasks.2) hrevoke
      · rename_i ht
        have hsubscribe := hnotSubscribe (by simp [ht])
        split
        · rename_i body hdecode
          exact handles_revoke hjson hscript ⟨hsupported, hdecode⟩
        · rename_i hdecode
          exact hother rfl _ (by simp [ht]) hsubscribe (fun body hasks => hdecode body hasks.2)
      · rename_i ht
        exact ⟨[], some .peerSaidBye, ⟨(List.append_nil _).symm, rfl, hscript⟩, rfl,
          .bye ht hsupported⟩
      · rename_i hping hsubscribe hrevoke hbye
        exact hother rfl _ hbye (hnotSubscribe hsubscribe) (hnotRevoke hrevoke)

/-- The ticks of a round go out one after the other, each under the next id that is drawn. -/
theorem sendTicks_ok (hjson : env.json.Encodes) (subId : Uuid) (samples : List (Sample F))
    (wire : Wire V) (hscript : wire.script = []) :
    ∃ ticks : List (Envelope V), List.Forall₂ (TickOf env.json subId) samples ticks ∧
      ticks.map Envelope.id = (List.range' wire.drawn ticks.length).map env.newV4 ∧
      sendTicks env subId wire samples =
        (.ok (), ⟨wire.trace ++ ticks.map .sent, wire.drawn + ticks.length,
          wire.built + ticks.length, []⟩) := by
  induction samples generalizing wire with
  | nil =>
      refine ⟨[], .nil, rfl, ?_⟩
      obtain ⟨trace, drawn, built, script⟩ := wire
      cases hscript
      simp [sendTicks]
  | cons sample samples ih =>
      obtain ⟨tick, hid, ht, hbody, hsend⟩ := send_ok hjson { wire with drawn := wire.drawn + 1 }
        hscript (env.newV4 wire.drawn) (.metricsTick (.tickBody subId sample))
      obtain ⟨ticks, hticks, hids, hrest⟩ :=
        ih ⟨wire.trace ++ [.sent tick], wire.drawn + 1, wire.built + 1, []⟩ rfl
      refine ⟨tick :: ticks, .cons ⟨ht, hbody⟩ hticks, ?_, ?_⟩
      · rw [List.length_cons, List.range'_succ, List.map_cons, List.map_cons, hid, hids]
      · rw [sendTicks, hsend]
        dsimp only
        rw [hrest]
        simp [Nat.add_assoc, Nat.add_comm 1]

/-- **What a round pushes**, and when the session was last active then. -/
theorem pushTicks_ok (hjson : env.json.Encodes) (round : Round F) (runtime : Runtime)
    (last : Instant) (hscript : wire.script = []) :
    ∃ pushed wire' events last', pushTicks env runtime wire round.queued = (.ok pushed, wire') ∧
      (if pushed then round.pushedAt else last) = last' ∧
      (if pushed then wire'.note (.active round.pushedAt) else wire').trace = wire.trace ++ events ∧
      (if pushed then wire'.note (.active round.pushedAt) else wire').script = [] ∧
      Pushes env round runtime.stream last wire.drawn events last' wire'.drawn := by
  unfold pushTicks
  cases hstream : runtime.stream with
  | none => exact ⟨false, wire, [], last, rfl, rfl, (List.append_nil _).symm, hscript,
      .nothing (.inl rfl)⟩
  | some subId =>
      dsimp only
      by_cases hqueued : round.queued = []
      · rw [hqueued]
        exact ⟨false, wire, [], last, rfl, rfl, (List.append_nil _).symm, hscript,
          .nothing (.inr hqueued)⟩
      · rw [if_neg (by simpa using hqueued)]
        obtain ⟨ticks, hticks, hids, hsend⟩ := sendTicks_ok hjson subId round.queued wire hscript
        rw [hsend]
        refine ⟨true, _, _, _, rfl, rfl, ?_, rfl, .ticks ticks hqueued hticks hids⟩
        exact List.append_assoc _ _ _

end

/-! ### A whole session -/

section

variable {env : SessionEnv F V} {peer : PinnedPeer} {peerDeviceId : Uuid}

/-- **The rest of a round keeps the protocol** when the rounds after it do. -/
theorem roundTail_conforms (hjson : env.json.Encodes) {runtime : Runtime} {last last' : Instant}
    {drawn : ℕ} {wire : Wire V} (hscript : wire.script = []) {round : Round F}
    {pushed : List (Event V)}
    (hpushes : Pushes env round runtime.stream last drawn pushed last' wire.drawn)
    (inbox : List Inbound) (rounds : List (Round F))
    (ih : ∀ (runtime : Runtime) (last : Instant) (wire : Wire V) (inbox : List Inbound),
      wire.script = [] →
      ∃ events, (serveLoop env peer peerDeviceId runtime last wire inbox rounds).trace =
          wire.trace ++ events ∧
        Conforms env peer peerDeviceId runtime.stream last wire.drawn inbox rounds events
          (serveLoop env peer peerDeviceId runtime last wire inbox rounds).result) :
    ∃ events, (roundTail env peer peerDeviceId runtime last' wire inbox round rounds).trace =
        wire.trace ++ events ∧
      Conforms env peer peerDeviceId runtime.stream last drawn inbox (round :: rounds)
        (pushed ++ events)
        (roundTail env peer peerDeviceId runtime last' wire inbox round rounds).result := by
  unfold roundTail
  rcases hready : round.ready with kind | _ | _
  · exact ⟨[.waitFailed kind], rfl, .waitFailed kind hpushes hready⟩
  · dsimp only
    by_cases hidle : SESSION_IDLE_TIMEOUT ≤ round.quietAt - last'
    · rw [if_pos hidle]
      exact ⟨[.quiet round.quietAt], rfl, .idle hpushes hready hidle⟩
    · rw [if_neg hidle]
      obtain ⟨events, htrace, hconforms⟩ :=
        ih runtime last' (wire.note (.quiet round.quietAt)) inbox hscript
      refine ⟨.quiet round.quietAt :: events, ?_,
        .quiet hpushes hready (Nat.lt_of_not_le hidle) hconforms⟩
      rw [htrace, Wire.note, List.append_assoc]
      rfl
  · rcases inbox with _ | ⟨inbound, inbox⟩
    · refine ⟨[], (List.append_nil _).symm, ?_⟩
      rw [List.append_nil]
      exact .noMoreDeliveries hpushes hready
    dsimp only [recvEnvelope]
    rcases harrival : env.json.arrival inbound with request | e | _ | e
    · dsimp only
      obtain ⟨events, ended, hextends, hresult, hhandling⟩ := dispatch_ok hjson peer peerDeviceId
        round ((wire.note (.arrived (.envelope request))).note (.active round.receivedAt)) hscript
        runtime request
      generalize dispatch env round peer peerDeviceId runtime
        ((wire.note (.arrived (.envelope request))).note (.active round.receivedAt)) request = out
        at hextends hresult hhandling ⊢
      have htrace : out.wire.trace = wire.trace ++
          (.arrived (.envelope request) :: .active round.receivedAt :: events) := by
        rw [hextends.trace]
        simp [Wire.note]
      rw [hresult]
      cases ended with
      | none =>
          dsimp only
          obtain ⟨rest, hrest, hconforms⟩ :=
            ih out.runtime round.receivedAt out.wire inbox hextends.script
          rw [hextends.drawn] at hconforms
          refine ⟨.arrived (.envelope request) :: .active round.receivedAt :: (events ++ rest), ?_,
            .handled hpushes hready harrival hhandling hconforms⟩
          rw [hrest, htrace]
          simp
      | some ended =>
          exact ⟨.arrived (.envelope request) :: .active round.receivedAt :: events, htrace,
            .ended hpushes hready harrival hhandling rfl⟩
    · exact ⟨[.arrived (.malformed e)], rfl, .malformed e hpushes hready harrival⟩
    · exact ⟨[.arrived .closed], rfl, .closed hpushes hready harrival rfl rfl⟩
    · exact ⟨[.arrived (.failed e)], rfl, .failed e hpushes hready harrival⟩

/-- **The loop keeps the protocol**, round after round. -/
theorem serveLoop_conforms (hjson : env.json.Encodes) (peer : PinnedPeer) (peerDeviceId : Uuid)
    (rounds : List (Round F)) (runtime : Runtime) (last : Instant) (wire : Wire V)
    (inbox : List Inbound) (hscript : wire.script = []) :
    ∃ events, (serveLoop env peer peerDeviceId runtime last wire inbox rounds).trace =
        wire.trace ++ events ∧
      Conforms env peer peerDeviceId runtime.stream last wire.drawn inbox rounds events
        (serveLoop env peer peerDeviceId runtime last wire inbox rounds).result := by
  induction rounds generalizing runtime last wire inbox with
  | nil =>
      refine ⟨[], ?_, ?_⟩
      · rw [serveLoop, List.append_nil]
      · rw [serveLoop]
        exact .noMoreRounds
  | cons round rounds ih =>
      rw [serveLoop_cons]
      obtain ⟨pushed, wire', events, last', hpush, hlast, htrace, hscript', hpushes⟩ :=
        pushTicks_ok hjson round runtime last hscript
      rw [hpush]
      dsimp only
      have hdrawn : (if pushed then wire'.note (.active round.pushedAt) else wire').drawn
          = wire'.drawn := by
        split <;> rfl
      rw [hlast]
      rw [← hdrawn] at hpushes
      obtain ⟨rest, hrest, hconforms⟩ :=
        roundTail_conforms hjson hscript' hpushes inbox rounds ih
      refine ⟨events ++ rest, ?_, hconforms⟩
      rw [hrest, htrace, List.append_assoc]

/-- A refused `hello` is answered with one error. -/
theorem refuseHello_ok (hjson : env.json.Encodes) (wire : Wire V) (hscript : wire.script = [])
    (id : Uuid) (code : ErrorCode) (message : String) (failure : SessionError) :
    ∃ reply : Envelope V, reply.id = id ∧ reply.t = .error ∧
      (refuseHello env wire id code message failure).1 = .error failure ∧
      (refuseHello env wire id code message failure).2.trace = wire.trace ++ [.sent reply] := by
  obtain ⟨reply, hid, ht, -, hsend⟩ :=
    send_ok hjson wire hscript id (.error ⟨code, message, false⟩)
  refine ⟨reply, hid, ht, ?_⟩
  rw [refuseHello, sendError, hsend]
  exact ⟨rfl, rfl⟩

/-- **The opening**: the first delivery opens the session, and nothing was sent yet; or it is
answered with an error, if it is an envelope at all, and the session is over. -/
theorem readHello_ok (hjson : env.json.Encodes) (script : List (Option Error))
    (hscript : script = []) (inbound : Inbound) :
    (∃ (request : Envelope V) (hello : HelloBody), request.Opens env.json hello ∧
      env.json.arrival inbound = .envelope request ∧
      readHello env ⟨[], 0, 0, script⟩ inbound =
        (.ok (hello.deviceId, request.id), ⟨[.arrived (.envelope request)], 0, 0, script⟩)) ∨
    ∃ (failure : SessionError) (wire : Wire V),
      readHello env ⟨[], 0, 0, script⟩ inbound = (.error failure, wire) ∧
      ∀ peer startedAt inbox rounds, SessionTrace env peer startedAt (inbound :: inbox) rounds
        wire.trace (some (.error failure)) := by
  unfold readHello
  dsimp only [recvEnvelope, Wire.note]
  rcases harrival : env.json.arrival inbound with request | e | _ | e
  · dsimp only [List.nil_append]
    -- a refusal of an envelope that does not open the session
    have hrefused (code : ErrorCode) (message : String) (failure : SessionError)
        (hopens : ∀ hello, ¬request.Opens env.json hello) :
        ∃ (wire : Wire V),
          refuseHello env ⟨[.arrived (.envelope request)], 0, 0, script⟩ request.id code message
            failure = (.error failure, wire) ∧
          ∀ peer startedAt inbox rounds, SessionTrace env peer startedAt (inbound :: inbox) rounds
            wire.trace (some (.error failure)) := by
      obtain ⟨reply, hid, ht, hresult, htrace⟩ := refuseHello_ok hjson
        ⟨[.arrived (.envelope request)], 0, 0, script⟩ hscript request.id code message failure
      refine ⟨_, Prod.ext hresult rfl, ?_⟩
      intro peer startedAt inbox rounds
      rw [htrace]
      exact .refused reply failure harrival hopens hid ht
    by_cases ht : request.t ≠ .hello
    · rw [if_pos ht]
      exact .inr ⟨_, hrefused .badRequest "the first message on a session must be `hello`"
        (.openedWith request.t) fun _ hopens => ht hopens.1⟩
    rw [if_neg ht]
    have ht : request.t = .hello := not_not.mp ht
    split
    · rename_i hello hdecode
      by_cases hversion : min PROTOCOL_VERSION hello.protocolVersion <
          max MIN_PROTOCOL_VERSION hello.minProtocolVersion
      · rw [if_pos hversion]
        refine .inr ⟨_, hrefused .versionMismatch _ .noCommonVersion ?_⟩
        rintro hello' ⟨-, hdecode', hoverlap⟩
        cases hdecode.symm.trans hdecode'
        exact absurd hversion (UInt32.not_lt.mpr hoverlap)
      · rw [if_neg hversion]
        exact .inl ⟨request, hello, ⟨ht, hdecode, UInt32.not_lt.mp hversion⟩, rfl, rfl⟩
    · rename_i hdecode
      refine .inr ⟨_, hrefused .badRequest "hello body did not match the schema" .malformedHello ?_⟩
      rintro hello ⟨-, hdecode', -⟩
      exact hdecode hello hdecode'
  · exact .inr ⟨_, _, rfl, fun _ _ _ _ => .malformed e harrival⟩
  · exact .inr ⟨_, _, rfl, fun _ _ _ _ => .closed harrival⟩
  · exact .inr ⟨_, _, rfl, fun _ _ _ _ => .failed e harrival⟩

end

/-- What a session does is what the protocol allows. -/
theorem sessionTrace_serve {env : SessionEnv F V} (hjson : env.json.Encodes)
    (config : SessionConfig) (peer : PinnedPeer) (startedAt : Instant) (inbox : List Inbound)
    (rounds : List (Round F)) :
    SessionTrace env peer startedAt inbox rounds
      (serve env config peer startedAt [] inbox rounds).trace
      (serve env config peer startedAt [] inbox rounds).result := by
  cases inbox with
  | nil => exact .waiting
  | cons inbound inbox =>
      rw [serve]
      rcases readHello_ok hjson [] rfl inbound with
        ⟨request, hello, hopens, harrival, hread⟩ | ⟨failure, wire, hread, hsession⟩
      · rw [hread]
        dsimp only
        obtain ⟨reply, hid, ht, -, hsend⟩ := send_ok hjson
          ⟨[.arrived (.envelope request)], 0 + 1, 0, []⟩ rfl request.id (.helloOk
            ⟨PROTOCOL_VERSION, capabilities, config.deviceId, config.softwareVersion,
              env.newV4 0, config.displayName⟩)
        rw [hsend]
        dsimp only
        obtain ⟨events, htrace, hconforms⟩ := serveLoop_conforms hjson peer hello.deviceId rounds
          ⟨0, none⟩ startedAt ⟨[.arrived (.envelope request)] ++ [.sent reply], 0 + 1, 0 + 1, []⟩
          inbox rfl
        rw [htrace]
        exact .opened reply harrival hopens hid ht hconforms
      · rw [hread]
        exact hsession peer startedAt inbox rounds

/-- **A session keeps the protocol.**  For every sequence of deliveries, well formed or not, of any
types, versions and bodies, and every sequence of rounds, in which the sampler, the transport, the
clocks and the revocation handler do whatever they do, as long as writes succeed: what the session
does is what the protocol allows with these deliveries and rounds.  So what arrives is what was
delivered, in order, and a session that has not ended has read all of it, or one delivery for the
`hello` and for each round that found something to read. -/
theorem serve_conforms {env : SessionEnv F V} (hjson : env.json.Encodes) (config : SessionConfig)
    (peer : PinnedPeer) (startedAt : Instant) (inbox : List Inbound) (rounds : List (Round F)) :
    SessionTrace env peer startedAt inbox rounds
        (serve env config peer startedAt [] inbox rounds).trace
        (serve env config peer startedAt [] inbox rounds).result ∧
      (serve env config peer startedAt [] inbox rounds).trace.filterMap Event.arrival? <+:
        inbox.map env.json.arrival ∧
      ((serve env config peer startedAt [] inbox rounds).result = none →
        (serve env config peer startedAt [] inbox rounds).trace.filterMap Event.arrival? =
          inbox.map env.json.arrival ∨
        ((serve env config peer startedAt [] inbox rounds).trace.filterMap
          Event.arrival?).length = 1 + rounds.countP Round.isReady) := by
  have htrace : SessionTrace env peer startedAt inbox rounds
      (serve env config peer startedAt [] inbox rounds).trace
      (serve env config peer startedAt [] inbox rounds).result :=
    sessionTrace_serve hjson config peer startedAt inbox rounds
  exact ⟨htrace, htrace.arrivals, htrace.progress⟩

/-- A codec whose JSON values are the bodies themselves, and that knows three messages. -/
def toyJson : SerdeJson Unit (Body Unit) where
  fromSlice bytes :=
    match bytes with
    | [0] => .ok ⟨1, toyUuid 10, .hello, 0, .hello ⟨1, 1, [], toyUuid 1, "1.0"⟩⟩
    | [1] => .ok ⟨1, toyUuid 11, .ping, 5, .ping ⟨7⟩⟩
    | [2] => .ok ⟨1, toyUuid 12, .bye, 6, .bye ⟨.normal, none⟩⟩
    | _ => .error ⟨"expected value"⟩
  toVec _ := .ok []
  toValue body := .ok body
  error value := match value with | .error body => .ok body | _ => .error ⟨"invalid type"⟩
  hello value := match value with | .hello body => .ok body | _ => .error ⟨"invalid type"⟩
  helloOk value := match value with | .helloOk body => .ok body | _ => .error ⟨"invalid type"⟩
  ping value := match value with | .ping body => .ok body | _ => .error ⟨"invalid type"⟩
  pong value := match value with | .pong body => .ok body | _ => .error ⟨"invalid type"⟩
  bye value := match value with | .bye body => .ok body | _ => .error ⟨"invalid type"⟩
  pairRequest _ := .ok ()
  pairConfirm _ := .ok ()
  pairRevoke value :=
    match value with | .pairRevoke body => .ok body | _ => .error ⟨"invalid type"⟩
  metricsSubscribe value :=
    match value with | .metricsSubscribe body => .ok body | _ => .error ⟨"invalid type"⟩
  metricsTick value :=
    match value with | .metricsTick body => .ok body | _ => .error ⟨"invalid type"⟩
  metricsHistory value :=
    match value with | .metricsHistory body => .ok body | _ => .error ⟨"invalid type"⟩

theorem toyJson_encodes : toyJson.Encodes := ⟨fun body => ⟨body, rfl⟩, fun _ => ⟨[], rfl⟩⟩

def toyEnv : SessionEnv Unit (Body Unit) := ⟨toyJson, fun n => toyUuid (UInt8.ofNat n), fun _ => 0⟩

/-- A round in which a message is there. -/
def toyReady : Round Unit :=
  ⟨[], 0, .ok true, 0, 0, fun _ => none, none, fun _ _ _ => .error (.rejected .badSignature)⟩

/-- A session of a hello, a ping and a bye. -/
def toyServe : ServeOut (Body Unit) :=
  serve toyEnv ⟨toyUuid 9, "1.0", none⟩ (toyPeer 1).pinned 0 []
    [.message [0], .message [1], .message [2]] [toyReady, toyReady]

/-- It is over with the bye, and was one that the protocol allows. -/
theorem serve_conforms_ping :
    toyServe.result = some (.ok ⟨.peerSaidBye, toyUuid 1, 1⟩) ∧
    SessionTrace toyEnv (toyPeer 1).pinned 0 [.message [0], .message [1], .message [2]]
      [toyReady, toyReady] toyServe.trace toyServe.result :=
  ⟨rfl, (serve_conforms toyJson_encodes ⟨toyUuid 9, "1.0", none⟩ (toyPeer 1).pinned 0
    [.message [0], .message [1], .message [2]] [toyReady, toyReady]).1⟩

end Osprey
