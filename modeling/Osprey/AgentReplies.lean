/-
**What the agent says, and why.**

Every envelope that a session of `osprey-svc/src/session.rs` writes is a tick, or answers one that
was delivered: under its id, and with the body that its type calls for, or an error.  That is so
whatever is delivered, however the writes end, and whenever the session does.

Main definitions:

* `Osprey.Envelope.Carries` — an envelope as the encoding of a body;
* `Osprey.Reply` — the bodies that answer a request;
* `Osprey.Explained`, `Osprey.Accounted` — why an envelope was sent, and a trace in which all were
  for a reason.

Main results:

* `Osprey.accounted_dispatch` — handling an envelope that was delivered is accounted for;
* `Osprey.accounted_serve` — **nothing is sent for any other reason**;
* `Osprey.serve_extends` — what a session has written stays written.
-/

import Osprey.AgentSession

set_option relaxedAutoImplicit false
set_option autoImplicit false

namespace Osprey

variable {F V : Type}

/-- The envelope is one around this body. -/
def Envelope.Carries (json : SerdeJson F V) (envelope : Envelope V) (body : Body F) : Prop :=
  json.toValue body = .ok envelope.body ∧ envelope.t = body.messageType

/-- What a request is answered with. -/
inductive Reply (json : SerdeJson F V) (request : Envelope V) : Body F → Prop
  | helloOk (hello : HelloBody) (body : HelloOkBody) (ht : request.t = .hello)
      (hdecode : request.decodeBody json = .ok (.hello hello)) : Reply json request (.helloOk body)
  | pong (ping : PingBody) (ht : request.t = .ping)
      (hdecode : request.decodeBody json = .ok (.ping ping)) :
      Reply json request (.pong ⟨ping.seq, request.ts⟩)
  | history (body : MetricsSubscribeBody) (history : Option (History F))
      (totalMemory : Option UInt64) (ht : request.t = .metricsSubscribe)
      (hdecode : request.decodeBody json = .ok (.metricsSubscribe body)) :
      Reply json request (.metricsHistory (.historyBody request.id history totalMemory))
  | bye (revocation : PairRevokeBody) (detail : Option String) (ht : request.t = .pairRevoke)
      (hdecode : request.decodeBody json = .ok (.pairRevoke revocation)) :
      Reply json request (.bye ⟨.unpaired, detail⟩)
  | error (body : ErrorBody) : Reply json request (.error body)

/-- The envelope was delivered to the session. -/
def Delivered (json : SerdeJson F V) (inbox : List Inbound) (request : Envelope V) : Prop :=
  ∃ bytes, .message bytes ∈ inbox ∧ json.fromSlice bytes = .ok request

/-- Why an envelope is sent: it is a tick, or it answers one that was delivered. -/
def Explained (json : SerdeJson F V) (inbox : List Inbound) (envelope : Envelope V) : Prop :=
  (∃ tick : MetricsTickBody F, envelope.Carries json (.metricsTick tick)) ∨
    ∃ request body, Delivered json inbox request ∧ envelope.id = request.id ∧
      envelope.Carries json body ∧ Reply json request body

/-- A trace that goes on from `base`: what was sent since was sent for a reason, and is on the wire
as `json` encodes it. -/
structure Accounted (json : SerdeJson F V) (inbox : List Inbound) (base trace : List (Event V)) :
    Prop where
  goesOn : base <+: trace
  sent : ∀ envelope, .sent envelope ∈ trace → .sent envelope ∈ base ∨
    (Explained json inbox envelope ∧ ∃ bytes, json.toVec envelope = .ok bytes)

theorem Accounted.refl (json : SerdeJson F V) (inbox : List Inbound) (base : List (Event V)) :
    Accounted json inbox base base :=
  ⟨List.prefix_rfl, fun _ h => .inl h⟩

section

variable {env : SessionEnv F V} {inbox : List Inbound} {base : List (Event V)} {wire : Wire V}

/-- An event that sends nothing needs no reason. -/
theorem Accounted.note (h : Accounted env.json inbox base wire.trace) (event : Event V)
    (hevent : ∀ envelope, event ≠ .sent envelope) :
    Accounted env.json inbox base (wire.note event).trace := by
  refine ⟨h.goesOn.trans (List.prefix_append _ _), ?_⟩
  intro envelope hmem
  rcases List.mem_append.mp hmem with hmem | hmem
  · exact h.sent envelope hmem
  · exact absurd (List.mem_singleton.mp hmem).symm (hevent envelope)

/-- A send writes one envelope around the body, or nothing. -/
theorem send_trace (env : SessionEnv F V) (wire : Wire V) (id : Uuid) (body : Body F) :
    (send env wire id body).2.trace = wire.trace ∨
      ∃ envelope : Envelope V, envelope.id = id ∧ envelope.Carries env.json body ∧
        (∃ bytes, env.json.toVec envelope = .ok bytes) ∧
        (send env wire id body).2.trace = wire.trace ++ [.sent envelope] := by
  unfold send Envelope.new
  cases hvalue : env.json.toValue body with
  | error e => exact .inl rfl
  | ok value =>
      dsimp only
      cases hbytes : env.json.toVec ⟨PROTOCOL_VERSION, id, body.messageType,
          env.nowMs wire.built, value⟩ with
      | error e => exact .inl rfl
      | ok bytes =>
          have hsent : ∃ envelope : Envelope V, envelope.id = id ∧
              envelope.Carries env.json body ∧ (∃ bytes, env.json.toVec envelope = .ok bytes) ∧
              (wire.note (.sent envelope)).trace = (wire.note (.sent ⟨PROTOCOL_VERSION, id,
                body.messageType, env.nowMs wire.built, value⟩)).trace :=
            ⟨_, rfl, ⟨hvalue, rfl⟩, ⟨bytes, hbytes⟩, rfl⟩
          rcases hscript : wire.script with _ | ⟨_ | e, script⟩
          · obtain ⟨envelope, hid, hcarries, hvec, htrace⟩ := hsent
            exact .inr ⟨envelope, hid, hcarries, hvec, htrace.symm⟩
          · obtain ⟨envelope, hid, hcarries, hvec, htrace⟩ := hsent
            exact .inr ⟨envelope, hid, hcarries, hvec, htrace.symm⟩
          · exact .inl rfl

/-- To send is accounted for if there is a reason to. -/
theorem Accounted.send (h : Accounted env.json inbox base wire.trace) (id : Uuid) (body : Body F)
    (hreason : ∀ envelope : Envelope V, envelope.id = id → envelope.Carries env.json body →
      Explained env.json inbox envelope) :
    Accounted env.json inbox base (Osprey.send env wire id body).2.trace := by
  rcases send_trace env wire id body with htrace | ⟨sent, hid, hcarries, hbytes, htrace⟩
  · rw [htrace]
    exact h
  · rw [htrace]
    refine ⟨h.goesOn.trans (List.prefix_append _ _), ?_⟩
    intro envelope hmem
    rcases List.mem_append.mp hmem with hmem | hmem
    · exact h.sent envelope hmem
    · cases List.mem_singleton.mp hmem
      exact .inr ⟨hreason sent hid hcarries, hbytes⟩

/-- So it is to answer what was delivered. -/
theorem Accounted.reply (h : Accounted env.json inbox base wire.trace) {request : Envelope V}
    (hrequest : Delivered env.json inbox request) {body : Body F}
    (hreply : Reply env.json request body) :
    Accounted env.json inbox base (Osprey.send env wire request.id body).2.trace :=
  h.send _ _ fun _ hid hcarries => .inr ⟨request, body, hrequest, hid, hcarries, hreply⟩

theorem Accounted.answer (h : Accounted env.json inbox base wire.trace) {request : Envelope V}
    (hrequest : Delivered env.json inbox request) {body : Body F}
    (hreply : Reply env.json request body) (runtime answered : Runtime) :
    Accounted env.json inbox base
      (Osprey.answer env runtime answered wire request.id body).wire.trace := by
  have hsend := h.reply hrequest hreply
  unfold Osprey.answer
  split
  · rename_i heq
    rw [heq] at hsend
    exact hsend
  · rename_i heq
    rw [heq] at hsend
    exact hsend

theorem Accounted.refuse (h : Accounted env.json inbox base wire.trace) {request : Envelope V}
    (hrequest : Delivered env.json inbox request) (runtime : Runtime) (code : ErrorCode)
    (message : String) :
    Accounted env.json inbox base
      (Osprey.refuse env runtime wire request.id code message).wire.trace :=
  h.answer hrequest (.error _) runtime runtime

/-- **Handling an envelope that was delivered is accounted for.** -/
theorem accounted_dispatch (h : Accounted env.json inbox base wire.trace) {request : Envelope V}
    (hrequest : Delivered env.json inbox request) (round : Round F) (peer : PinnedPeer)
    (peerDeviceId : Uuid) (runtime : Runtime) :
    Accounted env.json inbox base
      (dispatch env round peer peerDeviceId runtime wire request).wire.trace := by
  unfold dispatch
  split
  · exact h.refuse hrequest runtime _ _
  · split
    · rename_i ht
      split
      · rename_i ping hdecode
        exact h.answer hrequest (.pong ping ht hdecode) runtime _
      · exact h.refuse hrequest runtime _ _
    · rename_i ht
      split
      · rename_i body hdecode
        exact h.answer hrequest (.history body _ _ ht hdecode) runtime _
      · exact h.refuse hrequest runtime _ _
    · rename_i ht
      split
      · rename_i body hdecode
        unfold handleRevoke
        split
        · exact Accounted.refuse (h.note _ (by simp)) hrequest runtime _ _
        · exact Accounted.reply (h.note _ (by simp)) hrequest
            (.bye body _ ht hdecode)
      · exact h.refuse hrequest runtime _ _
    · exact h
    · exact h.refuse hrequest runtime _ _

/-- So is pushing ticks. -/
theorem accounted_sendTicks (subId : Uuid) (samples : List (Sample F))
    (h : Accounted env.json inbox base wire.trace) :
    Accounted env.json inbox base (sendTicks env subId wire samples).2.trace := by
  induction samples generalizing wire with
  | nil => exact h
  | cons sample samples ih =>
      have hdrawn : Accounted env.json inbox base { wire with drawn := wire.drawn + 1 }.trace := h
      have hsend := hdrawn.send (env.newV4 wire.drawn) (.metricsTick (.tickBody subId sample))
        fun _ _ hcarries => .inl ⟨_, hcarries⟩
      rw [sendTicks]
      split
      · rename_i heq
        rw [heq] at hsend
        exact hsend
      · rename_i wire' heq
        rw [heq] at hsend
        exact ih hsend

theorem accounted_pushTicks (runtime : Runtime) (queued : List (Sample F))
    (h : Accounted env.json inbox base wire.trace) :
    Accounted env.json inbox base (pushTicks env runtime wire queued).2.trace := by
  unfold pushTicks
  split
  · exact h
  · rename_i subId hstream
    split
    · exact h
    · have hticks := accounted_sendTicks subId queued h
      split
      · rename_i heq
        rw [heq] at hticks
        exact hticks
      · rename_i heq
        rw [heq] at hticks
        exact hticks

/-- What a delivery is read as was delivered. -/
theorem delivered_of_arrival {json : SerdeJson F V} {inbound : Inbound} {request : Envelope V}
    (hmem : inbound ∈ inbox) (h : json.arrival inbound = .envelope request) :
    Delivered json inbox request := by
  unfold SerdeJson.arrival at h
  split at h
  · cases h
  · cases h
  · rename_i bytes
    split at h
    · cases h
    · rename_i envelope hslice
      cases h
      exact ⟨bytes, hmem, hslice⟩

/-- Reading is accounted for: it sends nothing. -/
theorem accounted_recvEnvelope (h : Accounted env.json inbox base wire.trace) (inbound : Inbound) :
    Accounted env.json inbox base (recvEnvelope env wire inbound).2.trace := by
  have hnote := h.note (.arrived (env.json.arrival inbound)) (by simp)
  unfold recvEnvelope
  split
  · exact hnote
  · exact hnote
  · exact hnote
  · exact hnote

/-- What is read was delivered. -/
theorem delivered_of_recvEnvelope {inbound : Inbound} (hmem : inbound ∈ inbox)
    {request : Envelope V} {wire' : Wire V}
    (h : recvEnvelope env wire inbound = (.ok (some request), wire')) :
    Delivered env.json inbox request := by
  unfold recvEnvelope at h
  split at h
  · cases h
  · cases h
  · cases h
  · rename_i harrival
    cases h
    exact delivered_of_arrival hmem harrival

/-- The rest of a round is accounted for when the rounds after it are. -/
theorem accounted_roundTail (peer : PinnedPeer) (peerDeviceId : Uuid) (round : Round F)
    (rounds : List (Round F)) (runtime : Runtime) (last : Instant) (wire : Wire V)
    (rest : List Inbound) (hrest : ∀ inbound ∈ rest, inbound ∈ inbox)
    (h : Accounted env.json inbox base wire.trace)
    (ih : ∀ (runtime : Runtime) (last : Instant) (wire : Wire V) (rest : List Inbound),
      (∀ inbound ∈ rest, inbound ∈ inbox) → Accounted env.json inbox base wire.trace →
      Accounted env.json inbox base
        (serveLoop env peer peerDeviceId runtime last wire rest rounds).trace) :
    Accounted env.json inbox base
      (roundTail env peer peerDeviceId runtime last wire rest round rounds).trace := by
  unfold roundTail
  split
  · exact h.note _ (by simp)
  · dsimp only
    split
    · exact h.note _ (by simp)
    · exact ih _ _ _ _ hrest (h.note _ (by simp))
  · split
    · exact h
    · rename_i inbound rest
      have hread := accounted_recvEnvelope h inbound
      have hmem := hrest inbound List.mem_cons_self
      split
      · rename_i heq
        rw [heq] at hread
        exact hread
      · rename_i heq
        rw [heq] at hread
        exact hread
      · rename_i request wire₁ heq
        rw [heq] at hread
        have hout := accounted_dispatch
          (Accounted.note hread (.active round.receivedAt) (by simp))
          (delivered_of_recvEnvelope hmem heq) round peer peerDeviceId runtime
        dsimp only
        split
        · exact hout
        · exact hout
        · exact ih _ _ _ _ (fun i hi => hrest i (List.mem_cons_of_mem _ hi)) hout

/-- Round after round, all is accounted for. -/
theorem accounted_serveLoop (peer : PinnedPeer) (peerDeviceId : Uuid) (rounds : List (Round F))
    (runtime : Runtime) (last : Instant) (wire : Wire V) (rest : List Inbound)
    (hrest : ∀ inbound ∈ rest, inbound ∈ inbox) (h : Accounted env.json inbox base wire.trace) :
    Accounted env.json inbox base
      (serveLoop env peer peerDeviceId runtime last wire rest rounds).trace := by
  induction rounds generalizing runtime last wire rest with
  | nil =>
      rw [serveLoop]
      exact h
  | cons round rounds ih =>
      have hpush := accounted_pushTicks runtime round.queued h
      rw [serveLoop_cons]
      split
      · rename_i heq
        rw [heq] at hpush
        exact hpush
      · rename_i pushed wire' heq
        rw [heq] at hpush
        refine accounted_roundTail peer peerDeviceId round rounds _ _ _ rest hrest ?_ ih
        split
        · exact hpush.note _ (by simp)
        · exact hpush

theorem accounted_refuseHello (h : Accounted env.json inbox base wire.trace) {request : Envelope V}
    (hrequest : Delivered env.json inbox request) (code : ErrorCode) (message : String)
    (failure : SessionError) :
    Accounted env.json inbox base
      (refuseHello env wire request.id code message failure).2.trace := by
  have hsend := h.reply hrequest (.error ⟨code, message, false⟩)
  unfold refuseHello sendError
  split
  · rename_i heq
    rw [heq] at hsend
    exact hsend
  · rename_i heq
    rw [heq] at hsend
    exact hsend

/-- The opening is accounted for, and what opens the session is a `hello` that was delivered. -/
theorem accounted_readHello (h : Accounted env.json inbox base wire.trace) {inbound : Inbound}
    (hmem : inbound ∈ inbox) :
    Accounted env.json inbox base (readHello env wire inbound).2.trace ∧
      ∀ ids, (readHello env wire inbound).1 = .ok ids → ∃ request hello,
        Delivered env.json inbox request ∧ ids.2 = request.id ∧ request.t = .hello ∧
          request.decodeBody env.json = .ok (.hello hello) := by
  have hread := accounted_recvEnvelope h inbound
  unfold readHello
  split
  · rename_i heq
    rw [heq] at hread
    exact ⟨hread, fun _ hids => nomatch hids⟩
  · rename_i heq
    rw [heq] at hread
    exact ⟨hread, fun _ hids => nomatch hids⟩
  · rename_i request wire' heq
    rw [heq] at hread
    have hrequest := delivered_of_recvEnvelope hmem heq
    have hrefused : ∀ code message failure,
        Accounted env.json inbox base
            (refuseHello env wire' request.id code message failure).2.trace ∧
          ∀ ids, (refuseHello env wire' request.id code message failure).1 ≠ .ok ids := by
      intro code message failure
      refine ⟨accounted_refuseHello hread hrequest code message failure, ?_⟩
      intro ids
      unfold refuseHello
      split
      · exact fun hids => nomatch hids
      · exact fun hids => nomatch hids
    split
    · exact ⟨(hrefused _ _ _).1, fun ids hids => absurd hids ((hrefused _ _ _).2 ids)⟩
    · rename_i ht
      split
      · rename_i hello hdecode
        dsimp only
        split
        · exact ⟨(hrefused _ _ _).1, fun ids hids => absurd hids ((hrefused _ _ _).2 ids)⟩
        · refine ⟨hread, ?_⟩
          intro ids hids
          cases hids
          exact ⟨request, hello, hrequest, rfl, not_not.mp ht, hdecode⟩
      · exact ⟨(hrefused _ _ _).1, fun ids hids => absurd hids ((hrefused _ _ _).2 ids)⟩

end

/-- **Nothing is sent for any other reason**: whatever is delivered, however the writes end and
whatever the rounds bring, every envelope of a session is a tick, or answers one that was
delivered. -/
theorem accounted_serve (env : SessionEnv F V) (config : SessionConfig) (peer : PinnedPeer)
    (startedAt : Instant) (script : List (Option Error)) (inbox : List Inbound)
    (rounds : List (Round F)) :
    Accounted env.json inbox [] (serve env config peer startedAt script inbox rounds).trace := by
  cases inbox with
  | nil => exact .refl _ _ _
  | cons inbound rest =>
      have hstart : Accounted env.json (inbound :: rest) [] (⟨[], 0, 0, script⟩ : Wire V).trace :=
        .refl _ _ _
      obtain ⟨hread, hopened⟩ := accounted_readHello hstart (List.mem_cons_self (a := inbound))
      unfold serve
      dsimp only
      split
      · rename_i heq
        rw [heq] at hread
        exact hread
      · rename_i peerDeviceId helloId wire heq
        rw [heq] at hread hopened
        obtain ⟨request, hello, hrequest, rfl, ht, hdecode⟩ := hopened _ rfl
        have hdrawn : Accounted env.json (inbound :: rest) []
            { wire with drawn := wire.drawn + 1 }.trace := hread
        have hsend := hdrawn.reply hrequest (.helloOk hello ⟨PROTOCOL_VERSION, capabilities,
          config.deviceId, config.softwareVersion, env.newV4 wire.drawn, config.displayName⟩ ht
          hdecode)
        split
        · rename_i heq'
          rw [heq'] at hsend
          exact hsend
        · rename_i heq'
          rw [heq'] at hsend
          exact accounted_serveLoop peer peerDeviceId rounds _ _ _ rest
            (fun i hi => List.mem_cons_of_mem _ hi) hsend

/-! ### A session that goes on -/

section

variable {env : SessionEnv F V}

/-- A loop only adds to the trace. -/
theorem serveLoop_goesOn (peer : PinnedPeer) (peerDeviceId : Uuid) (runtime : Runtime)
    (last : Instant) (wire : Wire V) (inbox : List Inbound) (rounds : List (Round F)) :
    wire.trace <+: (serveLoop env peer peerDeviceId runtime last wire inbox rounds).trace :=
  (accounted_serveLoop peer peerDeviceId rounds runtime last wire inbox (fun _ h => h)
    (.refl _ _ _)).goesOn

/-- With more to read and more rounds to go through, the loop has done what it did and may go on. -/
theorem serveLoop_extends (peer : PinnedPeer) (peerDeviceId : Uuid) (rounds : List (Round F))
    (runtime : Runtime) (last : Instant) (wire : Wire V) (inbox more : List Inbound)
    (others : List (Round F)) :
    (serveLoop env peer peerDeviceId runtime last wire inbox rounds).trace <+:
      (serveLoop env peer peerDeviceId runtime last wire (inbox ++ more)
        (rounds ++ others)).trace := by
  induction rounds generalizing runtime last wire inbox with
  | nil =>
      rw [serveLoop]
      exact serveLoop_goesOn _ _ _ _ _ _ _
  | cons round rounds ih =>
      rw [List.cons_append, serveLoop_cons, serveLoop_cons]
      split
      · exact List.prefix_rfl
      · rename_i pushed wire' hpush
        generalize (if pushed then wire'.note (.active round.pushedAt) else wire') = wire''
        generalize (if pushed then round.pushedAt else last) = last'
        have hblocked : wire''.trace <+: (roundTail env peer peerDeviceId runtime last' wire''
            (inbox ++ more) round (rounds ++ others)).trace :=
          (accounted_roundTail peer peerDeviceId round _ _ _ _ _ (fun _ h => h) (.refl _ _ _)
            fun _ _ _ _ hrest h => accounted_serveLoop _ _ _ _ _ _ _ hrest h).goesOn
        cases hready : round.ready with
        | error kind =>
            simp only [roundTail, hready]
            exact List.prefix_rfl
        | ok ready =>
            cases ready with
            | false =>
                simp only [roundTail, hready]
                split
                · exact List.prefix_rfl
                · exact ih _ _ _ _
            | true =>
                cases inbox with
                | nil =>
                    -- the read that blocked may find something now
                    have hstopped : roundTail env peer peerDeviceId runtime last' wire'' [] round
                        rounds = ⟨wire''.trace, none⟩ := by simp only [roundTail, hready]
                    rw [hstopped]
                    exact hblocked
                | cons inbound inbox =>
                    simp only [roundTail, hready, List.cons_append]
                    split
                    · exact List.prefix_rfl
                    · exact List.prefix_rfl
                    · split
                      · exact List.prefix_rfl
                      · exact List.prefix_rfl
                      · exact ih _ _ _ _

/-- So has a session: what it has written stays written. -/
theorem serve_extends (env : SessionEnv F V) (config : SessionConfig) (peer : PinnedPeer)
    (startedAt : Instant) (script : List (Option Error)) (inbox more : List Inbound)
    (rounds others : List (Round F)) :
    (serve env config peer startedAt script inbox rounds).trace <+:
      (serve env config peer startedAt script (inbox ++ more) (rounds ++ others)).trace := by
  cases inbox with
  | nil => exact List.nil_prefix
  | cons inbound inbox =>
      rw [List.cons_append]
      unfold serve
      dsimp only
      split
      · exact List.prefix_rfl
      · split
        · exact List.prefix_rfl
        · exact serveLoop_extends _ _ _ _ _ _ _ _ _

end

end Osprey
