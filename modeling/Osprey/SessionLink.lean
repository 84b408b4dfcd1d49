/-
**A request and its answer, from one end of a session to the other.**

The phone's `SessionMux` and `SessionClient` against the agent's `serve`, with a link between them
that keeps order, as the Noise session does: what the phone hands to the session is delivered to the
agent in order, or not yet; what the agent writes reaches the phone's reader in order, or not yet.
The two ends are written in two languages, and each guards against the other: the client throws when
a reply is not of the type it expects, or a pong is not for its ping.  Between the two of them this
never happens.

Main definitions:

* `Osprey.MuxSystem.Brings` — every envelope the actor holds or has handed out has a property;
* `Osprey.Codecs` — the two JSON libraries, and `Osprey.Codecs.Agree`, that they read each other;
* `Osprey.SessionLink`, `Osprey.SessionLink.step` — the two ends and the link;
* `Osprey.Outgoing.AnsweredBy` — the answers that a request may have.

Main results:

* `Osprey.MuxSystem.brings_step` — the actor holds nothing that did not arrive;
* `Osprey.SessionLink.outbox_step`, `Osprey.SessionLink.inv_step` — the agent takes nothing back,
  and the phone holds nothing else;
* `Osprey.SessionLink.exchange_served` — **an exchange returns what its own request is for, or the
  host's refusal of it**.
-/

import Osprey.AgentReplies
import Osprey.SessionProtocol
import Osprey.Exchanges
import Osprey.HostArithmetic

set_option relaxedAutoImplicit false
set_option autoImplicit false

namespace Osprey

variable {F V E : Type}

/-! ### Where the phone's envelopes come from -/

namespace MuxSystem

/-- Every envelope that is early, that a continuation was resumed with, or that a call has returned
has the property. -/
structure Brings (P : DecodedEnvelope F → Prop) (s : MuxSystem F E) : Prop where
  early : ∀ (id : Uuid) envelope, s.mux.early.lookup id = some envelope → P envelope
  resumed : ∀ (i : ℕ) call, s.calls[i]? = some call →
    ∀ envelope, .ok envelope ∈ call.resumed → P envelope
  returned : ∀ (i : ℕ) call, s.calls[i]? = some call →
    ∀ envelope, call.phase = .returned (.ok (some envelope)) → P envelope

section

variable {P : DecodedEnvelope F → Prop} {s t : MuxSystem F E}

theorem brings_initial (P : DecodedEnvelope F → Prop) : (initial : MuxSystem F E).Brings P where
  early id envelope h := by simp [initial] at h
  resumed i call h := by simp [initial] at h
  returned i call h := by simp [initial] at h

theorem Brings.mono (h : s.Brings P) {Q : DecodedEnvelope F → Prop}
    (hPQ : ∀ envelope, P envelope → Q envelope) : s.Brings Q where
  early id envelope hearly := hPQ _ (h.early id envelope hearly)
  resumed i call hcall envelope hmem := hPQ _ (h.resumed i call hcall envelope hmem)
  returned i call hcall envelope hphase := hPQ _ (h.returned i call hcall envelope hphase)

theorem Brings.agrees (h : s.Brings P) (hagrees : s.Agrees t) : t.Brings P where
  early := by
    rw [hagrees.early]
    exact h.early
  resumed := by
    rw [hagrees.calls]
    exact h.resumed
  returned := by
    rw [hagrees.calls]
    exact h.returned

/-- A call moves on, without an envelope or with one that has the property. -/
theorem Brings.enter (h : s.Brings P) (i : ℕ) {phase : CallPhase F E}
    (hphase : ∀ envelope, phase = .returned (.ok (some envelope)) → P envelope) :
    (s.enter i phase).Brings P where
  early := h.early
  resumed := Transition.forall_modify h.resumed fun call hcall => h.resumed i call hcall
  returned := Transition.forall_modify h.returned fun _ _ => hphase

theorem Brings.resume (h : s.Brings P) (i : ℕ)
    {result : Except (AnyError E) (DecodedEnvelope F)}
    (hresult : ∀ envelope, result = .ok envelope → P envelope) : (s.resume i result).Brings P where
  early := h.early
  resumed := Transition.forall_modify h.resumed fun call hcall envelope hmem => by
    rcases List.mem_append.mp hmem with hmem | hmem
    · exact h.resumed i call hcall envelope hmem
    · exact hresult envelope (List.mem_singleton.mp hmem).symm
  returned := Transition.forall_modify h.returned fun call hcall => h.returned i call hcall

/-- An early reply is removed. -/
theorem Brings.erase (h : s.Brings P) {id : Uuid} (hcalls : t.calls = s.calls)
    (hearly : t.mux.early = s.mux.early.erase id) : t.Brings P where
  early := by
    intro j envelope hlookup
    rw [hearly] at hlookup
    by_cases hj : j = id
    · subst hj
      rw [AList.lookup_erase] at hlookup
      cases hlookup
    · rw [AList.lookup_erase_ne hj] at hlookup
      exact h.early j envelope hlookup
  resumed := by
    rw [hcalls]
    exact h.resumed
  returned := by
    rw [hcalls]
    exact h.returned

theorem Brings.claim (h : s.Brings P) (id : Uuid) : (s.claim id).Brings P := h.erase rfl rfl

theorem Brings.store (h : s.Brings P) (id : Uuid) (i : ℕ) : (s.store id i).Brings P :=
  ⟨h.early, h.resumed, h.returned⟩

/-- A reply is parked. -/
theorem Brings.park (h : s.Brings P) {envelope : DecodedEnvelope F} (hnew : P envelope) :
    (s.park envelope).Brings P where
  early := by
    intro j other hlookup
    by_cases hj : j = envelope.id
    · subst hj
      rw [MuxSystem.park, AList.lookup_insert] at hlookup
      exact Option.some.inj hlookup ▸ hnew
    · rw [MuxSystem.park, AList.lookup_insert_ne hj] at hlookup
      exact h.early j other hlookup
  resumed := h.resumed
  returned := h.returned

theorem Brings.resumeAll {calls : List (MuxCall F E)} {is : List ℕ} {error : AnyError E} {j : ℕ}
    {call : MuxCall F E} (hcall : (resumeAll calls is (.error error))[j]? = some call) :
    ∃ before, calls[j]? = some before ∧ call.phase = before.phase ∧
      ∀ envelope, .ok envelope ∈ call.resumed → .ok envelope ∈ before.resumed := by
  induction is generalizing calls with
  | nil => exact ⟨call, hcall, rfl, fun _ hmem => hmem⟩
  | cons i is ih =>
      obtain ⟨mid, hmid, hphase, hresumed⟩ := ih hcall
      rcases Transition.getElem?_modify_cases hmid with ⟨-, hold⟩ | ⟨rfl, before, hbefore, rfl⟩
      · exact ⟨mid, hold, hphase, hresumed⟩
      · refine ⟨before, hbefore, hphase, fun envelope hmem => ?_⟩
        rcases List.mem_append.mp (hresumed envelope hmem) with hmem | hmem
        · exact hmem
        · exact nomatch List.mem_singleton.mp hmem

theorem Brings.shutdown (h : s.Brings P) (error : Option (AnyError E)) :
    (s.shutdown error).Brings P where
  early := fun id envelope hlookup => by simp [MuxSystem.shutdown] at hlookup
  resumed := by
    intro j call hcall envelope hmem
    obtain ⟨before, hbefore, -, hresumed⟩ := Brings.resumeAll hcall
    exact h.resumed j before hbefore envelope (hresumed envelope hmem)
  returned := by
    intro j call hcall envelope hphase
    obtain ⟨before, hbefore, hsame, -⟩ := Brings.resumeAll hcall
    exact h.returned j before hbefore envelope (hsame ▸ hphase)

theorem Brings.start (h : s.Brings P) : s.start.Brings P := h.agrees s.agrees_start

theorem brings_turn (h : s.Brings P) {i : ℕ} (hturn : s.turn i = some t) : t.Brings P := by
  unfold turn at hturn
  split at hturn
  · cases hturn
  · rename_i call hcall
    split at hturn
    · split at hturn
      · cases hturn
        exact h.enter i fun _ hphase => nomatch hphase
      · cases hturn
        exact h.start.enter i fun _ hphase => nomatch hphase
    · split at hturn
      · cases hturn
        exact h.enter i fun _ hphase => nomatch hphase
      · cases hturn
        exact h.enter i fun _ hphase => nomatch hphase
    · split at hturn
      · rename_i answered hearly
        cases hturn
        refine (h.claim _).enter i ?_
        intro envelope hreturned
        cases hreturned
        exact h.early _ _ hearly
      · cases hturn
        exact h.enter i fun _ hphase => nomatch hphase
    · split at hturn
      · cases hturn
        exact (h.resume i (by simp)).enter i (by simp)
      · split at hturn
        · rename_i answered hearly
          cases hturn
          refine ((h.claim _).resume i ?_).enter i (by simp)
          intro envelope hresult
          cases hresult
          exact h.early _ _ hearly
        · cases hturn
          exact (h.store _ i).enter i fun _ hphase => nomatch hphase
    · split at hturn
      · cases hturn
      · rename_i result rest hresumed
        cases hturn
        refine h.enter i ?_
        intro envelope hreturned
        cases result with
        | error e => cases hreturned
        | ok answered =>
            cases hreturned
            exact h.resumed i call hcall _ (by rw [hresumed]; exact List.mem_cons_self)
    · cases hturn

theorem brings_sent (h : s.Brings P) {i : ℕ} {failure : Option (AnyError E)}
    (hsent : s.sent i failure = some t) : t.Brings P := by
  unfold sent at hsent
  split at hsent
  · cases hsent
  · split at hsent
    · cases hsent
      exact h.enter i fun _ hphase => nomatch hphase
    · cases hsent
      exact h.enter i fun _ hphase => nomatch hphase
    · cases hsent
      exact h.enter i fun _ hphase => nomatch hphase
    · cases hsent

theorem brings_dispatch (h : s.Brings P) {envelope : DecodedEnvelope F} {first : Uuid}
    (hnew : P envelope) (hdispatch : s.dispatch envelope first = some t) : t.Brings P := by
  unfold dispatch at hdispatch
  split at hdispatch
  · cases hdispatch
    exact h.agrees (s.agrees_yieldTick _)
  · split at hdispatch
    · rename_i i hpending
      cases hdispatch
      have herase : ({ s with mux := { s.mux with
          pending := s.mux.pending.erase envelope.id } } : MuxSystem F E).Brings P :=
        ⟨h.early, h.resumed, h.returned⟩
      refine herase.resume i ?_
      intro other hresult
      cases hresult
      exact hnew
    · split at hdispatch
      · split at hdispatch
        · cases hdispatch
          have hevict : (s.evict first).Brings P := h.erase rfl rfl
          exact hevict.park hnew
        · cases hdispatch
      · cases hdispatch
        exact h.park hnew

/-- **The actor holds and hands out nothing that did not arrive.** -/
theorem brings_step {decoder : JSONDecoder F E} {move : MuxMove E} (h : s.Brings P)
    (hstep : s.step decoder move = some t)
    (hnew : ∀ k raw first envelope, move = .received k (.ok (some raw)) first →
      OspreyProtocol.decode decoder raw = .ok envelope → P envelope) : t.Brings P := by
  cases move with
  | call request =>
      cases hstep
      refine ⟨h.early, ?_, ?_⟩
      · intro i call hcall envelope hmem
        rcases List.mem_append.mp (List.mem_of_getElem? hcall) with hold | hnewCall
        · obtain ⟨j, hj⟩ := List.getElem?_of_mem hold
          exact h.resumed j call hj envelope hmem
        · cases List.mem_singleton.mp hnewCall
          cases hmem
      · intro i call hcall envelope hphase
        rcases List.mem_append.mp (List.mem_of_getElem? hcall) with hold | hnewCall
        · obtain ⟨j, hj⟩ := List.getElem?_of_mem hold
          exact h.returned j call hj envelope hphase
        · cases List.mem_singleton.mp hnewCall
          cases hphase
  | turn i => exact brings_turn h hstep
  | sent i failure => exact brings_sent h hstep
  | metricsTicks =>
      cases hstep
      exact h.agrees s.agrees_metricsTicks
  | next k =>
      simp only [step, next] at hstep
      split at hstep
      · cases hstep
        exact ⟨h.early, h.resumed, h.returned⟩
      · cases hstep
  | shutdown error =>
      cases hstep
      exact h.shutdown error
  | begin k =>
      simp only [step, begin] at hstep
      split at hstep
      · cases hstep
        exact h.agrees (s.agrees_loop k)
      · cases hstep
  | received k outcome first =>
      simp only [step, received] at hstep
      split at hstep
      · split at hstep
        · cases hstep
          exact (h.shutdown _).agrees (agrees_read _ k _)
        · cases hstep
          exact (h.shutdown _).agrees (agrees_read _ k _)
        · rename_i raw
          split at hstep
          · cases hstep
            exact (h.shutdown _).agrees (agrees_read _ k _)
          · rename_i envelope hdecode
            obtain ⟨v, hv, rfl⟩ := Option.map_eq_some_iff.mp hstep
            exact (brings_dispatch h (hnew k raw first envelope rfl hdecode) hv).agrees
              (v.agrees_loop k)
      · cases hstep

end

end MuxSystem

/-! ### The two ends and the link -/

/-- The request of a call: the body and the time that it is encoded with, under an id. -/
structure Outgoing (F : Type) where
  call : ℕ
  id : Uuid
  ts : Int64
  body : Body F
  deriving DecidableEq, Repr

/-- The JSON libraries of the two ends: the agent's, the phone's decoder, and
`OspreyProtocol.encode`. -/
structure Codecs (F V E : Type) where
  json : SerdeJson F V
  decoder : JSONDecoder F E
  encode : Uuid → Int64 → Body F → Bytes

/-- What one end encodes and the other decodes is the same message. -/
structure Codecs.Agree (codecs : Codecs F V E) : Prop where
  up : ∀ id ts body request, codecs.json.fromSlice (codecs.encode id ts body) = .ok request →
    request.id = id ∧ request.t = body.messageType ∧ request.ts = ts ∧
      request.decodeBody codecs.json = .ok body
  down : ∀ (envelope : Envelope V) (body : Body F) raw decoded, envelope.Carries codecs.json body →
    codecs.json.toVec envelope = .ok raw → OspreyProtocol.decode codecs.decoder raw = .ok decoded →
    decoded.id = envelope.id ∧ decoded.t = envelope.t ∧ decoded.body = body

/-- The agent's side of a session: what `serve` is called with. -/
structure AgentSide where
  newV4 : ℕ → Uuid
  nowMs : ℕ → Int64
  config : SessionConfig
  peer : PinnedPeer
  startedAt : Instant
  script : List (Option Error)

/-- The phone, what it has handed to its session, how much of that was delivered to the agent and
what rounds the agent's loop has gone through, and how much of what the agent has written has
arrived. -/
structure SessionLink (F E : Type) where
  phone : MuxSystem F E
  uplink : List (Outgoing F)
  delivered : ℕ
  rounds : List (Round F)
  arrived : ℕ

/-- A move of the phone other than an arrival; a request goes out, a message of the phone is
delivered, the agent goes through one more round, and the next message of the agent arrives at a
reader. -/
inductive LinkMove (F E : Type)
  | phone (move : MuxMove E)
  | transmit (i : ℕ) (ts : Int64) (body : Body F) (newId : Uuid)
  | deliver
  | round (round : Round F)
  | arrive (k : ℕ) (first : Uuid)

/-- The bytes of a message, where an event sends one. -/
def Event.sent? (json : SerdeJson F V) : Event V → Option Bytes
  | .sent envelope => (json.toVec envelope).toOption
  | _ => none

namespace SessionLink

def initial : SessionLink F E := ⟨.initial, [], 0, [], 0⟩

variable (codecs : Codecs F V E) (agent : AgentSide)

/-- What has been delivered to the agent. -/
def inbox (s : SessionLink F E) : List Inbound :=
  (s.uplink.take s.delivered).map fun request =>
    .message (codecs.encode request.id request.ts request.body)

/-- What the agent has written so far. -/
def outbox (s : SessionLink F E) : List Bytes :=
  (serve ⟨codecs.json, agent.newV4, agent.nowMs⟩ agent.config agent.peer agent.startedAt
    agent.script (s.inbox codecs) s.rounds).trace.filterMap (Event.sent? codecs.json)

/-- The transitions.  A call hands its request to the session once, while it is suspended in
`session.send`; an exchange encodes it under the id that it waits for, and a `send` under a new
one. -/
def step (s : SessionLink F E) : LinkMove F E → Option (SessionLink F E)
  | .phone (.received _ (.ok (some _)) _) => none
  | .phone move => (s.phone.step codecs.decoder move).map fun phone => { s with phone }
  | .transmit i ts body newId =>
      match s.phone.calls[i]? with
      | some ⟨.exchange id, .sending, _⟩ =>
          if s.uplink.any (·.call = i) then none
          else some { s with uplink := s.uplink ++ [⟨i, id, ts, body⟩] }
      | some ⟨.send, .sending, _⟩ =>
          if s.uplink.any (·.call = i) then none
          else some { s with uplink := s.uplink ++ [⟨i, newId, ts, body⟩] }
      | _ => none
  | .deliver => if s.delivered < s.uplink.length then some { s with delivered := s.delivered + 1 }
      else none
  | .round round => some { s with rounds := s.rounds ++ [round] }
  | .arrive k first =>
      match (s.outbox codecs agent)[s.arrived]? with
      | none => none
      | some raw =>
          (s.phone.step codecs.decoder (.received k (.ok (some raw)) first)).map fun phone =>
            { s with phone, arrived := s.arrived + 1 }

end SessionLink

/-- The answers that a request may have. -/
inductive Outgoing.AnsweredBy (request : Outgoing F) : Body F → Prop
  | helloOk (hello : HelloBody) (body : HelloOkBody) (hbody : request.body = .hello hello) :
      AnsweredBy request (.helloOk body)
  | pong (ping : PingBody) (hbody : request.body = .ping ping) :
      AnsweredBy request (.pong ⟨ping.seq, request.ts⟩)
  | history (body : MetricsSubscribeBody) (history : Option (History F))
      (totalMemory : Option UInt64) (hbody : request.body = .metricsSubscribe body) :
      AnsweredBy request (.metricsHistory (.historyBody request.id history totalMemory))
  | bye (revocation : PairRevokeBody) (detail : Option String)
      (hbody : request.body = .pairRevoke revocation) :
      AnsweredBy request (.bye ⟨.unpaired, detail⟩)
  | error (body : ErrorBody) : AnsweredBy request (.error body)

section

variable {codecs : Codecs F V E} {agent : AgentSide}

/-- The agent answers what the phone has asked. -/
theorem Outgoing.answeredBy_of_reply (hagree : codecs.Agree) {outgoing : Outgoing F}
    {request : Envelope V} {body : Body F}
    (hslice : codecs.json.fromSlice (codecs.encode outgoing.id outgoing.ts outgoing.body) =
      .ok request) (hreply : Reply codecs.json request body) :
    request.id = outgoing.id ∧ outgoing.AnsweredBy body := by
  obtain ⟨hid, ht, hts, hbody⟩ := hagree.up _ _ _ _ hslice
  refine ⟨hid, ?_⟩
  cases hreply with
  | helloOk hello body _ hdecode =>
      exact .helloOk hello body (Except.ok.inj (hbody.symm.trans hdecode))
  | pong ping _ hdecode =>
      rw [hts]
      exact .pong ping (Except.ok.inj (hbody.symm.trans hdecode))
  | history body history totalMemory _ hdecode =>
      rw [hid]
      exact .history body history totalMemory (Except.ok.inj (hbody.symm.trans hdecode))
  | bye revocation detail _ hdecode =>
      exact .bye revocation detail (Except.ok.inj (hbody.symm.trans hdecode))
  | error body => exact .error body

namespace SessionLink

variable {s t : SessionLink F E}

/-- The phone has asked for what the envelope says, or the envelope is a tick. -/
def Asked (s : SessionLink F E) (envelope : DecodedEnvelope F) : Prop :=
  envelope.IsTick ∨
    ∃ request ∈ s.uplink, envelope.id = request.id ∧ request.AnsweredBy envelope.body

/-- What the agent writes is, as the phone decodes it, a tick or what the phone has asked for. -/
theorem asked_of_outbox (hagree : codecs.Agree) {raw : Bytes}
    (hraw : raw ∈ s.outbox codecs agent) {envelope : DecodedEnvelope F}
    (hdecode : OspreyProtocol.decode codecs.decoder raw = .ok envelope) : s.Asked envelope := by
  obtain ⟨event, hevent, hsent⟩ := List.mem_filterMap.mp hraw
  cases event with
  | sent written =>
      have hvec : codecs.json.toVec written = .ok raw := by
        simp only [Event.sent?] at hsent
        cases hvec : codecs.json.toVec written with
        | error e => simp [hvec, Except.toOption] at hsent
        | ok bytes =>
            simp only [hvec, Except.toOption, Option.some.injEq] at hsent
            rw [hsent]
      have hexplained := ((accounted_serve _ _ _ _ _ _ _).sent written hevent).resolve_left
        List.not_mem_nil
      rcases hexplained.1 with ⟨tick, hcarries⟩ | ⟨request, body, hdelivered, hid, hcarries, hreply⟩
      · exact .inl ⟨tick, (hagree.down _ _ _ _ hcarries hvec hdecode).2.2⟩
      · obtain ⟨bytes, hmem, hslice⟩ := hdelivered
        obtain ⟨outgoing, houtgoing, hbytes⟩ := List.mem_map.mp hmem
        cases hbytes
        obtain ⟨hid', hanswered⟩ := Outgoing.answeredBy_of_reply hagree hslice hreply
        obtain ⟨hdid, -, hbody⟩ := hagree.down _ _ _ _ hcarries hvec hdecode
        refine .inr ⟨outgoing, List.mem_of_mem_take houtgoing, ?_, hbody ▸ hanswered⟩
        rw [hdid, hid, hid']
  | _ => cases hsent

variable (codecs agent) in
/-- The envelope is one that the agent has written, as the phone decodes it. -/
def Written (s : SessionLink F E) (envelope : DecodedEnvelope F) : Prop :=
  ∃ raw ∈ s.outbox codecs agent, OspreyProtocol.decode codecs.decoder raw = .ok envelope

/-- When more has been delivered and the agent has gone through more rounds, what it has written
stays written. -/
theorem outbox_prefix (hinbox : s.uplink.take s.delivered <+: t.uplink.take t.delivered)
    (hrounds : s.rounds <+: t.rounds) : s.outbox codecs agent <+: t.outbox codecs agent := by
  obtain ⟨more, hmore⟩ := hinbox
  obtain ⟨others, hothers⟩ := hrounds
  unfold outbox inbox
  rw [← hmore, ← hothers, List.map_append]
  exact (serve_extends _ _ _ _ _ _ _ _ _).filterMap _

/-- A step takes back nothing that was written. -/
theorem outbox_step {move : LinkMove F E} (hstep : s.step codecs agent move = some t) :
    s.outbox codecs agent <+: t.outbox codecs agent := by
  cases move with
  | phone move =>
      unfold step at hstep
      split at hstep
      · cases hstep
      · obtain ⟨phone, -, rfl⟩ := Option.map_eq_some_iff.mp hstep
        exact List.prefix_rfl
      all_goals
        rename_i hmove
        cases hmove
  | transmit i ts body newId =>
      have happend : ∀ request, s.uplink.take s.delivered <+:
          (s.uplink ++ [request]).take s.delivered := by
        intro request
        rw [List.take_append]
        exact List.prefix_append _ _
      simp only [step] at hstep
      split at hstep
      · split at hstep
        · cases hstep
        · cases hstep
          exact outbox_prefix (happend _) List.prefix_rfl
      · split at hstep
        · cases hstep
        · cases hstep
          exact outbox_prefix (happend _) List.prefix_rfl
      · cases hstep
  | deliver =>
      simp only [step] at hstep
      split at hstep
      · cases hstep
        exact outbox_prefix (List.take_prefix_take_left (Nat.le_succ _)) List.prefix_rfl
      · cases hstep
  | round round =>
      cases hstep
      exact outbox_prefix List.prefix_rfl (List.prefix_append _ _)
  | arrive k first =>
      simp only [step] at hstep
      split at hstep
      · cases hstep
      · obtain ⟨phone, -, rfl⟩ := Option.map_eq_some_iff.mp hstep
        exact List.prefix_rfl

variable (codecs agent) in
/-- What every state satisfies: the mux is sound, and what it holds was written by the agent. -/
def Inv (s : SessionLink F E) : Prop :=
  s.phone.Invariant ∧ s.phone.Brings (s.Written codecs agent)

theorem inv_initial : (initial : SessionLink F E).Inv codecs agent :=
  ⟨MuxSystem.invariant_initial, MuxSystem.brings_initial _⟩

/-- **What a step of either end keeps.** -/
theorem inv_step (h : s.Inv codecs agent) {move : LinkMove F E}
    (hstep : s.step codecs agent move = some t) : t.Inv codecs agent := by
  have hmore : ∀ envelope, s.Written codecs agent envelope → t.Written codecs agent envelope := by
    rintro envelope ⟨raw, hraw, hdecode⟩
    exact ⟨raw, (outbox_step hstep).subset hraw, hdecode⟩
  cases move with
  | phone move =>
      unfold step at hstep
      split at hstep
      · cases hstep
      · rename_i hnot hmove
        cases hmove
        obtain ⟨phone, hphone, rfl⟩ := Option.map_eq_some_iff.mp hstep
        refine ⟨h.1.step hphone, (MuxSystem.brings_step h.2 hphone ?_).mono hmore⟩
        intro k raw first envelope harrival
        exact (hnot k raw first harrival).elim
      all_goals
        rename_i hmove
        cases hmove
  | transmit i ts body newId =>
      simp only [step] at hstep
      split at hstep
      · split at hstep
        · cases hstep
        · cases hstep
          exact ⟨h.1, h.2.mono hmore⟩
      · split at hstep
        · cases hstep
        · cases hstep
          exact ⟨h.1, h.2.mono hmore⟩
      · cases hstep
  | deliver =>
      simp only [step] at hstep
      split at hstep
      · cases hstep
        exact ⟨h.1, h.2.mono hmore⟩
      · cases hstep
  | round round =>
      cases hstep
      exact ⟨h.1, h.2.mono hmore⟩
  | arrive k first =>
      simp only [step] at hstep
      split at hstep
      · cases hstep
      · rename_i raw hraw
        obtain ⟨phone, hphone, rfl⟩ := Option.map_eq_some_iff.mp hstep
        refine ⟨h.1.step hphone, (MuxSystem.brings_step h.2 hphone ?_).mono hmore⟩
        intro k' raw' first' envelope hmove hdecode
        cases hmove
        exact ⟨raw, List.mem_of_getElem? hraw, hdecode⟩

theorem inv_of_run {moves : List (LinkMove F E)}
    (hrun : Transition.run (step codecs agent) initial moves = some s) : s.Inv codecs agent :=
  Transition.run_keeps (fun _ _ _ h hstep => inv_step h hstep) inv_initial hrun

/-- No message goes out under the id of an exchange but the request of that exchange. -/
def DistinctIds (s : SessionLink F E) : Prop :=
  ∀ request ∈ s.uplink, ∀ (i : ℕ) call, s.phone.calls[i]? = some call →
    call.request = .exchange request.id → request.call = i

/-- An exchange returns the agent's answer to its own request. -/
theorem exchange_answered (hagree : codecs.Agree) {moves : List (LinkMove F E)}
    (hrun : Transition.run (step codecs agent) initial moves = some s) (hids : s.DistinctIds)
    {i : ℕ} {call : MuxCall F E} {reply : DecodedEnvelope F} (hcall : s.phone.calls[i]? = some call)
    (hreply : call.phase = .returned (.ok (some reply))) :
    ∃ request ∈ s.uplink, request.call = i ∧ call.request = .exchange request.id ∧
      request.AnsweredBy reply.body := by
  obtain ⟨hmux, hbrings⟩ := inv_of_run hrun
  obtain ⟨id, hid, hsame, htick⟩ := (hmux.1.calls i call hcall).returned reply hreply
  obtain ⟨raw, hraw, hdecode⟩ := hbrings.returned i call hcall reply hreply
  rcases asked_of_outbox hagree hraw hdecode with hisTick | ⟨request, hmem, hrid, hanswered⟩
  · exact absurd hisTick htick
  · have hrequest : call.request = .exchange request.id := by rw [hid, ← hsame, hrid]
    exact ⟨request, hmem, hids request hmem i call hcall hrequest, hrequest, hanswered⟩

end SessionLink

end

/-! ### What the client makes of it -/

namespace SessionClient

/-- The host's answer to `hello`. -/
def openSession (reply : DecodedEnvelope F) : Except SessionError HelloOkBody :=
  match exchange reply with
  | .error error => .error error
  | .ok reply =>
      match reply.body with
      | .helloOk helloOk => .ok helloOk
      | _ => .error (.unexpectedReply .helloOk reply.t)

/-- The host's answer to a revocation. -/
def revokePairing (reply : DecodedEnvelope F) : Except SessionError ByeBody :=
  match exchange reply with
  | .error error => .error error
  | .ok reply =>
      match reply.body with
      | .bye bye => .ok bye
      | _ => .error (.unexpectedReply .bye reply.t)

end SessionClient

/-- The client has got what the call is for: a pong for its own ping, with the round trip from its
own time; a history under its own id; a `bye` because the pairing is over. -/
def Outgoing.ServedBy (request : Outgoing F) (reply : DecodedEnvelope F) : Prop :=
  match request.body with
  | .hello _ => ∃ helloOk, SessionClient.openSession reply = .ok helloOk
  | .ping ping => ∀ now, SessionClient.ping ping.seq now reply =
      (SessionClient.roundTrip now ⟨ping.seq, request.ts⟩).map
        fun elapsed => .ok ⟨ping.seq, elapsed⟩
  | .metricsSubscribe _ => ∃ history totalMemory, SessionClient.subscribeToMetrics reply =
      .ok (.historyBody request.id history totalMemory)
  | .pairRevoke _ => ∃ detail, SessionClient.revokePairing reply = .ok ⟨.unpaired, detail⟩
  | _ => False

/-- The host has refused, and the client throws that. -/
def DecodedEnvelope.Refuses (reply : DecodedEnvelope F) : Prop :=
  ∃ failure : ErrorBody, SessionClient.exchange reply =
    .error (.hostRefused failure.code failure.message failure.retryable)

/-- An answer is what the call is for, or a refusal. -/
theorem Outgoing.served_of_answered {request : Outgoing F} {reply : DecodedEnvelope F}
    (h : request.AnsweredBy reply.body) : reply.Refuses ∨ request.ServedBy reply := by
  obtain ⟨v, id, t, ts, body⟩ := reply
  cases h with
  | helloOk hello body hbody =>
      right
      rw [Outgoing.ServedBy, hbody]
      exact ⟨body, rfl⟩
  | pong ping hbody =>
      right
      rw [Outgoing.ServedBy, hbody]
      intro now
      simp only [SessionClient.ping, SessionClient.exchange, if_true]
  | history body history totalMemory hbody =>
      right
      rw [Outgoing.ServedBy, hbody]
      exact ⟨history, totalMemory, rfl⟩
  | bye revocation detail hbody =>
      right
      rw [Outgoing.ServedBy, hbody]
      exact ⟨detail, rfl⟩
  | error failure => exact .inl ⟨failure, rfl⟩

/-- **Between the two ends no reply is mistaken.**  Whatever the calls, whatever the order in which
the tasks of the phone, the rounds of the agent and the link move, and wherever writes fail or the
mux is shut down: an exchange that returns an envelope has got what its own request is for, or the
host's refusal of it.  The client never throws for an unexpected reply or a foreign pong. -/
theorem SessionLink.exchange_served {codecs : Codecs F V E} (hagree : codecs.Agree)
    (agent : AgentSide) {moves : List (LinkMove F E)} {s : SessionLink F E}
    (hrun : Transition.run (step codecs agent) initial moves = some s) (hids : s.DistinctIds)
    {i : ℕ} {call : MuxCall F E} {reply : DecodedEnvelope F} (hcall : s.phone.calls[i]? = some call)
    (hreply : call.phase = .returned (.ok (some reply))) :
    ∃ request ∈ s.uplink, request.call = i ∧ call.request = .exchange request.id ∧
      (reply.Refuses ∨ request.ServedBy reply) := by
  obtain ⟨request, hmem, hrequest, hid, hanswered⟩ :=
    exchange_answered hagree hrun hids hcall hreply
  exact ⟨request, hmem, hrequest, hid, Outgoing.served_of_answered hanswered⟩

/-! ### A toy session -/

def toyOpening : HelloBody := ⟨1, 1, [], toyUuid 1, "1.0"⟩

/-- What the agent answers to the two messages that the toy codec knows. -/
def toyReplies : List (Envelope (Body Unit)) :=
  [⟨1, toyUuid 10, .helloOk, 0,
      .helloOk ⟨PROTOCOL_VERSION, capabilities, toyUuid 9, "1.0", toyUuid 0, none⟩⟩,
    ⟨1, toyUuid 11, .pong, 0, .pong ⟨7, 5⟩⟩]

/-- A codec for the two messages and their answers, each by its number. -/
def toyCodecs : Codecs Unit (Body Unit) Unit where
  json := { toyJson with
    toVec := fun envelope => .ok [if envelope = toyReplies[0] then 0
      else if envelope = toyReplies[1] then 1 else 2] }
  decoder := { pongDecoder with
    header := fun bytes => match bytes with
      | [0] => .ok ⟨1, toyUuid 10, .helloOk, 0⟩
      | [1] => .ok ⟨1, toyUuid 11, .pong, 0⟩
      | _ => .error ()
    helloOk := fun _ => .ok ⟨PROTOCOL_VERSION, capabilities, toyUuid 9, "1.0", toyUuid 0, none⟩
    pong := fun _ => .ok ⟨7, 5⟩ }
  encode id ts body :=
    if id = toyUuid 10 ∧ ts = 0 ∧ body = .hello toyOpening then [0]
    else if id = toyUuid 11 ∧ ts = 5 ∧ body = .ping ⟨7⟩ then [1] else []

theorem toyCodecs_agree : toyCodecs.Agree where
  up := by
    intro id ts body request hslice
    simp only [toyCodecs] at hslice
    split at hslice
    · rename_i h
      obtain ⟨rfl, rfl, rfl⟩ := h
      cases hslice
      exact ⟨rfl, rfl, rfl, rfl⟩
    · split at hslice
      · rename_i h
        obtain ⟨rfl, rfl, rfl⟩ := h
        cases hslice
        exact ⟨rfl, rfl, rfl, rfl⟩
      · cases hslice
  down := by
    intro envelope body raw decoded hcarries hvec hdecode
    cases hcarries.1
    simp only [toyCodecs, Except.ok.injEq] at hvec
    split at hvec
    · rename_i h
      cases hvec
      rw [h] at *
      cases hdecode
      exact ⟨rfl, rfl, rfl⟩
    · split at hvec
      · rename_i h
        cases hvec
        rw [h] at *
        cases hdecode
        exact ⟨rfl, rfl, rfl⟩
      · cases hvec
        cases hdecode

def toyAgent : AgentSide :=
  ⟨fun n => toyUuid (UInt8.ofNat n), fun _ => 0, ⟨toyUuid 9, "1.0", none⟩, (toyPeer 1).pinned,
    0, []⟩

/-- The moves of one exchange, from the call to its return. -/
def toyExchange (i : ℕ) (id : Uuid) (ts : Int64) (body : Body Unit)
    (agentMoves : List (LinkMove Unit Unit)) : List (LinkMove Unit Unit) :=
  [.phone (.call (.exchange id)), .phone (.turn i), .transmit i ts body id,
    .phone (.sent i none), .phone (.turn i), .phone (.turn i)] ++ agentMoves ++ [.phone (.turn i)]

/-- A session of a hello and a ping. -/
def toySession : List (LinkMove Unit Unit) :=
  toyExchange 0 (toyUuid 10) 0 (.hello toyOpening)
    [.phone (.begin 0), .deliver, .arrive 0 (toyUuid 0)] ++
  toyExchange 1 (toyUuid 11) 5 (.ping ⟨7⟩) [.deliver, .round toyReady, .arrive 0 (toyUuid 0)]

/-- Its ping comes back with the round trip from its own time. -/
theorem exchange_served_ping : ∃ (s : SessionLink Unit Unit) (reply : DecodedEnvelope Unit),
    Transition.run (SessionLink.step toyCodecs toyAgent) .initial toySession = some s ∧
      (reply.Refuses ∨ ∀ now, SessionClient.ping 7 now reply =
        (SessionClient.roundTrip now ⟨7, 5⟩).map fun elapsed => .ok ⟨7, elapsed⟩) := by
  have hrun : ((Transition.run (SessionLink.step toyCodecs toyAgent) .initial toySession).any
      fun s => decide (s.uplink = [⟨0, toyUuid 10, 0, .hello toyOpening⟩,
          ⟨1, toyUuid 11, 5, .ping ⟨7⟩⟩]) &&
        decide (s.phone.calls.map (·.request) = [.exchange (toyUuid 10), .exchange (toyUuid 11)]) &&
        decide (s.phone.calls[1]?.map (·.phase) =
          some (.returned (.ok (some ⟨1, toyUuid 11, .pong, 0, .pong ⟨7, 5⟩⟩))))) = true := by
    decide +kernel
  obtain ⟨s, hs, hfacts⟩ := (Option.any_eq_true _ _).mp hrun
  simp only [Bool.and_eq_true, decide_eq_true_eq] at hfacts
  obtain ⟨⟨huplink, hcalls⟩, hphase⟩ := hfacts
  obtain ⟨call, hcall, hreturned⟩ := Option.map_eq_some_iff.mp hphase
  have hids : s.DistinctIds := by
    intro request hmem i other hother hrequest
    have hlisted : (s.phone.calls.map (·.request))[i]? = some (.exchange request.id) := by
      rw [List.getElem?_map, hother, Option.map_some, hrequest]
    rw [hcalls] at hlisted
    rw [huplink] at hmem
    clear hrequest
    match i with
    | 0 => revert request; decide
    | 1 => revert request; decide
    | i + 2 => cases hlisted
  obtain ⟨request, hmem, hown, -, hserved⟩ :=
    SessionLink.exchange_served toyCodecs_agree toyAgent hs hids hcall hreturned
  refine ⟨s, ⟨1, toyUuid 11, .pong, 0, .pong ⟨7, 5⟩⟩, hs, ?_⟩
  rw [huplink] at hmem
  rcases List.mem_cons.mp hmem with rfl | hmem
  · cases hown
  · cases List.mem_singleton.mp hmem
    exact hserved

end Osprey
