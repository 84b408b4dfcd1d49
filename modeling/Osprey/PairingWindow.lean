/-
**The pairing window: how it is used up, and how long it lasts.**

`commands/pair.rs` keeps one offer open and answers one phone after the other until one of them is
paired.  A failed attempt is meant to leave the window open, and the lifetime of the offer is meant
to bound it.  Both depend on the middle of an attempt: the offer is used up when the confirmation
has been read, before the acceptance is sent and before the success is recorded, and its age is
looked at once, before the first byte of the peer is.

An attempt is cut there.  `Osprey.confirmation` is everything up to the confirmation, and
`Osprey.Completes` says of a call that what follows a confirmation succeeds.

Main definitions:

* `Osprey.confirmation` — the first part of `Osprey.respondInner`;
* `Osprey.Completes` — a confirmed peer is told so, and recorded;
* `Osprey.acceptOne` — the accept loop of `osprey-svc pair`;
* `Osprey.PeerTiming`, `Osprey.acceptedAt` — the clock while the peer makes the host wait;
* `Osprey.Exchange` — a peer that goes through the whole exchange, on an offer of whatever age.

Main results:

* `Osprey.respondInner_eq` — an attempt is the confirmation, and then the acceptance;
* `Osprey.window_open_iff` — **the window is used up by successes alone exactly when every
  confirmed call completes**, and then no phone of the accept loop is refused as a replay;
* `Osprey.accepted_in_time_iff` — **a pairing is accepted inside the window exactly when the waits
  of a peer that goes through the exchange, begun inside the window, fit into what is left of it**.
-/

import Osprey.PairingFlow
import Osprey.Transition

set_option relaxedAutoImplicit false
set_option autoImplicit false

namespace Osprey

open ByteIO

variable {H T : Type}

/-! ### The two parts of an attempt -/

/-- An attempt up to the confirmation: the peer that has confirmed, and the session with it. -/
def confirmation (snow : Snow H T) (codec : IdentityCodec) (crypto : Crypto)
    (offer : PairingOffer) (call : RespondCall) :
    PairingAttempt (PinnedPeer × NoiseSession T) × Stream :=
  if offer.isConsumed then
    (.error (.replayed, .handshakeConfig "pairing offer already used"), call.stream)
  else if offer.isExpired call.now then
    (.error (.expired, .handshakeConfig "pairing offer expired"), call.stream)
  else
    match Handshake.new snow
        ⟨.pairing, .responder, call.identity.noiseStaticSecret, none, some offer.secret⟩
        call.rng with
    | .error e => (.error (.handshakeRejected, e), call.stream)
    | .ok handshake =>
        match encodeIdentity codec call.identity with
        | .error refusal => (.error refusal, call.stream)
        | .ok reply =>
            match Handshake.runResponder snow handshake call.stream reply with
            | (.error e, stream) => (.error (classifyHandshake e), stream)
            | (.ok (session, request), stream) =>
                match pinFromHandshake codec crypto request session with
                | .error refusal => (.error refusal, stream)
                | .ok peer =>
                    match recvRequired snow.toSnowTransport .pskMismatch session stream with
                    | (.error refusal, _, stream) => (.error refusal, stream)
                    | (.ok confirm, session, stream) =>
                        if confirm ≠ CONFIRM_TAG then
                          (.error (.malformedPayload, .handshakeConfig
                            "peer sent an unexpected pairing confirmation"), stream)
                        else (.ok (peer, session), stream)

/-- **An attempt is a confirmation and an acceptance.**  The offer is used up between the two. -/
theorem respondInner_eq (snow : Snow H T) (codec : IdentityCodec) (crypto : Crypto)
    (offer : PairingOffer) (call : RespondCall) :
    respondInner snow codec crypto call.stream call.identity offer call.now call.rng =
      match confirmation snow codec crypto offer call with
      | (.error refusal, stream) => (.error refusal, offer, stream)
      | (.ok (peer, session), stream) =>
          match session.send snow.toSnowTransport ACCEPT_TAG stream.writer with
          | (.error e, _, writer) =>
              (.error (.transport, e), offer.consume, { stream with writer })
          | (.ok (), session, writer) =>
              (.ok ⟨peer, session⟩, offer.consume, { stream with writer }) := by
  unfold respondInner confirmation
  by_cases hconsumed : offer.isConsumed = true
  · rw [if_pos hconsumed, if_pos hconsumed]
  rw [if_neg hconsumed, if_neg hconsumed]
  by_cases hexpired : offer.isExpired call.now = true
  · rw [if_pos hexpired, if_pos hexpired]
  rw [if_neg hexpired, if_neg hexpired]
  rcases Handshake.new snow
      ⟨.pairing, .responder, call.identity.noiseStaticSecret, none, some offer.secret⟩ call.rng with
    e | handshake
  · rfl
  rcases encodeIdentity codec call.identity with refusal | reply
  · rfl
  dsimp only
  rcases Handshake.runResponder snow handshake call.stream reply with
    ⟨e | ⟨session, request⟩, stream₁⟩
  · rfl
  dsimp only
  rcases pinFromHandshake codec crypto request session with refusal | peer
  · rfl
  dsimp only
  rcases recvRequired snow.toSnowTransport .pskMismatch session stream₁ with
    ⟨refusal | confirm, session₁, stream₂⟩
  · rfl
  dsimp only
  by_cases htag : confirm ≠ CONFIRM_TAG
  · rw [if_pos htag, if_pos htag]
  · rewrite [if_neg htag, if_neg htag]
    rfl

/-- The reason a call was refused for, as the audit log has it. -/
def RespondOut.refusal (out : RespondOut T) : Option PairingFailureReason :=
  match out.attempt with
  | .ok _ => none
  | .error (reason, _) => some reason

/-- What follows a confirmation: the acceptance goes out, and the success is recorded. -/
def Completes (snow : Snow H T) (codec : IdentityCodec) (crypto : Crypto) (offer : PairingOffer)
    (audit : AuditLog) (call : RespondCall) : Prop :=
  ∀ (peer : PinnedPeer) (session : NoiseSession T) (stream : Stream),
    confirmation snow codec crypto offer call = (.ok (peer, session), stream) →
    (session.send snow.toSnowTransport ACCEPT_TAG stream.writer).1 = .ok () ∧
    (audit.record (.pairingSucceeded call.context.accountId call.context.deviceId
      (peer.fingerprint crypto) peer.noiseStaticPub)).1 = .ok ()

section

variable {snow : Snow H T} {codec : IdentityCodec} {crypto : Crypto} {offer : PairingOffer}
  {audit : AuditLog} {call : RespondCall}

/-- A call whose peer does not confirm is refused for that reason, and leaves the offer alone. -/
theorem respond_of_refused (audit : AuditLog) {refusal : PairingFailureReason × Error}
    {stream : Stream}
    (h : confirmation snow codec crypto offer call = (.error refusal, stream)) :
    (respond snow codec crypto offer audit call).attempt = .error refusal ∧
    (respond snow codec crypto offer audit call).result = .error refusal.2 ∧
    (respond snow codec crypto offer audit call).offer = offer ∧
    (respond snow codec crypto offer audit call).stream = stream := by
  have hinner := respondInner_eq snow codec crypto offer call
  rw [h] at hinner
  rw [respond, hinner]
  exact ⟨rfl, rfl, rfl, rfl⟩

/-- A call whose peer confirms uses up the offer; it reads nothing further, and it succeeds exactly
when it completes. -/
theorem respond_of_confirmed (audit : AuditLog) {peer : PinnedPeer} {session : NoiseSession T}
    {stream : Stream}
    (h : confirmation snow codec crypto offer call = (.ok (peer, session), stream)) :
    (respond snow codec crypto offer audit call).offer = offer.consume ∧
    (respond snow codec crypto offer audit call).stream.reader = stream.reader ∧
    ((respond snow codec crypto offer audit call).result.isOk = true ↔
      Completes snow codec crypto offer audit call) ∧
    (∀ outcome, (respond snow codec crypto offer audit call).result = .ok outcome →
      outcome.peer = peer) := by
  have hinner := respondInner_eq snow codec crypto offer call
  rw [h] at hinner
  have hcompletes : Completes snow codec crypto offer audit call ↔
      (session.send snow.toSnowTransport ACCEPT_TAG stream.writer).1 = .ok () ∧
      (audit.record (.pairingSucceeded call.context.accountId call.context.deviceId
        (peer.fingerprint crypto) peer.noiseStaticPub)).1 = .ok () := by
    constructor
    · intro hall
      exact hall peer session stream h
    · rintro hthis peer' session' stream' h'
      cases h.symm.trans h'
      exact hthis
  rw [hcompletes]
  dsimp only at hinner
  rcases hsend : session.send snow.toSnowTransport ACCEPT_TAG stream.writer with
    ⟨e | u, session', writer⟩
  · rw [hsend] at hinner
    rw [respond, hinner]
    exact ⟨rfl, rfl, by simp [finish, Except.isOk, Except.toBool], by simp [finish]⟩
  · rw [hsend] at hinner
    rw [respond, hinner]
    dsimp only [finish]
    rcases audit.record (.pairingSucceeded call.context.accountId call.context.deviceId
        (peer.fingerprint crypto) peer.noiseStaticPub) with ⟨e | u', audit'⟩
    · exact ⟨rfl, rfl, by simp [Except.isOk, Except.toBool], by simp⟩
    · refine ⟨rfl, rfl, by simp [Except.isOk, Except.toBool], ?_⟩
      intro outcome houtcome
      cases houtcome
      rfl

/-- Nobody confirms on an offer that is used up: the call is refused as a replay. -/
theorem confirmation_consumed (h : offer.consumed = true) :
    confirmation snow codec crypto offer call =
      (.error (.replayed, .handshakeConfig "pairing offer already used"), call.stream) :=
  if_pos h

/-- On a used offer there is nothing to complete. -/
theorem completes_of_consumed (h : offer.consumed = true) :
    Completes snow codec crypto offer audit call := by
  intro peer session stream hconfirmed
  rw [confirmation_consumed h] at hconfirmed
  cases hconfirmed

theorem classifyHandshake_ne_replayed (e : Error) : (classifyHandshake e).1 ≠ .replayed := by
  unfold classifyHandshake
  split <;> simp

theorem encodeIdentity_ne_replayed {identity : DeviceIdentity}
    {refusal : PairingFailureReason × Error}
    (h : encodeIdentity codec identity = .error refusal) : refusal.1 ≠ .replayed := by
  unfold encodeIdentity at h
  split at h
  · cases h
    simp
  · cases h

theorem pinFromHandshake_ne_replayed {message : Bytes} {session : NoiseSession T}
    {refusal : PairingFailureReason × Error}
    (h : pinFromHandshake codec crypto message session = .error refusal) :
    refusal.1 ≠ .replayed := by
  unfold pinFromHandshake at h
  split at h
  · cases h
    simp
  split at h
  · cases h
    simp
  split_ifs at h
  · cases h
    simp

theorem recvRequired_reason {transport : SnowTransport T} {reason : PairingFailureReason}
    {session session' : NoiseSession T} {stream stream' : Stream}
    {refusal : PairingFailureReason × Error}
    (h : recvRequired transport reason session stream = (.error refusal, session', stream')) :
    refusal.1 = reason := by
  unfold recvRequired at h
  split at h
  · cases h
    rfl
  · cases h
    rfl
  · cases h

/-- On an open offer, no call is refused as a replay: each later refusal has its own reason. -/
theorem confirmation_not_replayed (hopen : offer.consumed = false)
    {refusal : PairingFailureReason × Error} {stream : Stream}
    (h : confirmation snow codec crypto offer call = (.error refusal, stream)) :
    refusal.1 ≠ .replayed := by
  have hconsumed : ¬ offer.isConsumed = true := by simp [PairingOffer.isConsumed, hopen]
  unfold confirmation at h
  rw [if_neg hconsumed] at h
  split_ifs at h with hexpired
  · cases h
    simp
  split at h
  · cases h
    simp
  split at h
  · rename_i hreply
    cases h
    exact encodeIdentity_ne_replayed hreply
  split at h
  · cases h
    exact classifyHandshake_ne_replayed _
  split at h
  · rename_i hpin
    cases h
    exact pinFromHandshake_ne_replayed hpin
  split at h
  · rename_i hrecv
    cases h
    simp [recvRequired_reason hrecv]
  · split_ifs at h
    · cases h
      simp
    · cases h

/-- **Which calls are refused as a replay**: those on a used offer. -/
theorem respond_replayed_iff :
    (respond snow codec crypto offer audit call).refusal = some .replayed ↔
      offer.consumed = true := by
  constructor
  · intro hreplayed
    by_contra hopen
    have hopen : offer.consumed = false := eq_false_of_ne_true hopen
    rcases hconfirmation : confirmation snow codec crypto offer call with
      ⟨refusal | ⟨peer, session⟩, stream⟩
    · rw [RespondOut.refusal, (respond_of_refused audit hconfirmation).1] at hreplayed
      exact confirmation_not_replayed hopen hconfirmation (Option.some.inj hreplayed)
    · have hinner := respondInner_eq snow codec crypto offer call
      rw [hconfirmation] at hinner
      rw [respond, hinner] at hreplayed
      dsimp only at hreplayed
      split at hreplayed
      · cases hreplayed
      · cases hreplayed
  · intro hused
    rw [RespondOut.refusal, (respond_of_refused audit (confirmation_consumed hused)).1]

/-- **One call on an open offer**: it uses up the offer by nothing but its own success exactly when
it completes. -/
theorem respond_completes_iff (hopen : offer.consumed = false) :
    ((respond snow codec crypto offer audit call).offer.consumed = true ↔
      (respond snow codec crypto offer audit call).result.isOk = true) ↔
    Completes snow codec crypto offer audit call := by
  rcases hconfirmation : confirmation snow codec crypto offer call with
    ⟨refusal | ⟨peer, session⟩, stream⟩
  · obtain ⟨-, hresult, hoffer, -⟩ := respond_of_refused audit hconfirmation
    rw [hresult, hoffer, hopen]
    have hcompletes : Completes snow codec crypto offer audit call := by
      intro peer session stream' hconfirmed
      cases hconfirmation.symm.trans hconfirmed
    exact iff_of_true (by simp [Except.isOk, Except.toBool]) hcompletes
  · obtain ⟨hoffer, -, hresult, -⟩ := respond_of_confirmed audit hconfirmation
    rw [hoffer, hresult, PairingOffer.consumed_consume]
    simp

end

/-! ### The attempts of a window -/

/-- One more call on the offer and the log. -/
def respondStep (snow : Snow H T) (codec : IdentityCodec) (crypto : Crypto)
    (window : PairingOffer × AuditLog) (call : RespondCall) : Option (PairingOffer × AuditLog) :=
  let out := respond snow codec crypto window.1 window.2 call
  some (out.offer, out.audit)

/-- Every call of a window completes, in the state that the calls before it left. -/
def AllComplete (snow : Snow H T) (codec : IdentityCodec) (crypto : Crypto) (offer : PairingOffer)
    (audit : AuditLog) (calls : List RespondCall) : Prop :=
  Transition.Meets (respondStep snow codec crypto)
    (fun window call => Completes snow codec crypto window.1 window.2 call) (offer, audit) calls

/-- After each call, the offer is used up exactly when this or an earlier call has succeeded. -/
def UsedUpBySuccess (outs : List (RespondOut T)) : Prop :=
  ∀ (i : ℕ) (out : RespondOut T), outs[i]? = some out →
    (out.offer.consumed = true ↔ ∃ earlier ∈ outs.take (i + 1), earlier.result.isOk = true)

section

variable (snow : Snow H T) (codec : IdentityCodec) (crypto : Crypto)

theorem respondAll_consumed_offer (calls : List RespondCall) {offer : PairingOffer}
    (h : offer.consumed = true) (audit : AuditLog) :
    ∀ out ∈ (respondAll snow codec crypto offer audit calls).1, out.offer.consumed = true := by
  induction calls generalizing offer audit with
  | nil => simp [respondAll]
  | cons call calls ih =>
      have hnext := respond_consumed snow codec crypto h audit call
      intro out hout
      rw [respondAll] at hout
      rcases List.mem_cons.mp hout with rfl | hout
      · exact hnext
      · exact ih hnext _ out hout

/-- On a used offer every call completes. -/
theorem allComplete_of_consumed (calls : List RespondCall) {offer : PairingOffer}
    (h : offer.consumed = true) (audit : AuditLog) :
    AllComplete snow codec crypto offer audit calls := by
  induction calls generalizing offer audit with
  | nil => trivial
  | cons call calls ih =>
      refine Transition.meets_cons (completes_of_consumed h) rfl ?_
      exact ih (respond_consumed snow codec crypto h audit call) _

end

/-- A success uses the offer up for good. -/
theorem usedUpBySuccess_cons_ok {out : RespondOut T} {outs : List (RespondOut T)}
    (hok : out.result.isOk = true) (hout : out.offer.consumed = true)
    (houts : ∀ later ∈ outs, later.offer.consumed = true) : UsedUpBySuccess (out :: outs) := by
  intro i later hlater
  refine iff_of_true ?_ ⟨out, by simp, hok⟩
  rcases List.mem_cons.mp (List.mem_of_getElem? hlater) with rfl | hmem
  · exact hout
  · exact houts later hmem

/-- A failure that leaves the offer open counts for nothing. -/
theorem usedUpBySuccess_cons_error {out : RespondOut T} {outs : List (RespondOut T)}
    (hresult : out.result.isOk = false) (hopen : out.offer.consumed = false) :
    UsedUpBySuccess (out :: outs) ↔ UsedUpBySuccess outs := by
  constructor
  · intro h i later hlater
    rw [h (i + 1) later hlater, List.take_succ_cons]
    simp [hresult]
  · intro h i later hlater
    cases i with
    | zero =>
        cases hlater
        simp [hresult, hopen]
    | succ i =>
        rw [h i later hlater, List.take_succ_cons]
        simp [hresult]

section

variable (snow : Snow H T) (codec : IdentityCodec) (crypto : Crypto)

/-- **A window is used up by successes alone exactly when all its calls complete.**  At the first
call that does not, the offer is gone and nobody is paired; after it, nothing can go wrong any
more. -/
theorem usedUpBySuccess_iff (calls : List RespondCall) {offer : PairingOffer}
    (hopen : offer.consumed = false) (audit : AuditLog) :
    UsedUpBySuccess (respondAll snow codec crypto offer audit calls).1 ↔
      AllComplete snow codec crypto offer audit calls := by
  induction calls generalizing offer audit with
  | nil => simp [respondAll, UsedUpBySuccess, AllComplete, Transition.Meets]
  | cons call calls ih =>
      have hone : _ ↔ Completes snow codec crypto offer audit call := respond_completes_iff hopen
      have hall : AllComplete snow codec crypto offer audit (call :: calls) ↔
          Completes snow codec crypto offer audit call ∧
          AllComplete snow codec crypto (respond snow codec crypto offer audit call).offer
            (respond snow codec crypto offer audit call).audit calls := by
        simp [AllComplete, Transition.Meets, respondStep]
      rw [hall, ← hone, respondAll]
      by_cases hused : (respond snow codec crypto offer audit call).offer.consumed = true
      · by_cases hok : (respond snow codec crypto offer audit call).result.isOk = true
        · refine iff_of_true ?_ ⟨iff_of_true hused hok, ?_⟩
          · exact usedUpBySuccess_cons_ok hok hused
              (respondAll_consumed_offer snow codec crypto calls hused _)
          · exact allComplete_of_consumed snow codec crypto calls hused _
        · refine iff_of_false ?_ ?_
          · intro h
            have hfirst := (h 0 _ rfl).mp hused
            simp [hok] at hfirst
          · rintro ⟨hiff, -⟩
            exact hok (hiff.mp hused)
      · have hused := eq_false_of_ne_true hused
        have hresult : (respond snow codec crypto offer audit call).result.isOk = false := by
          by_contra hok
          cases hresult : (respond snow codec crypto offer audit call).result with
          | error e => simp [hresult, Except.isOk, Except.toBool] at hok
          | ok outcome => simp [(respond_ok snow codec crypto hresult).2.1] at hused
        rw [usedUpBySuccess_cons_error hresult hused, ih hused]
        simp [hused, hresult]

end

/-! ### The accept loop -/

/-- One round of the accept loop: what the two clocks show at its head, what the listener answers,
whether the read timeout of the accepted socket could be set, and what the clock and the random
source are when the attempt begins. -/
structure AcceptRound where
  instant : ℕ
  systemNow : SystemTime
  accepted : Except ErrorKind (Option Stream)
  readTimeout : Except ErrorKind Unit
  respondNow : SystemTime
  rng : ℕ

inductive AcceptError
  /-- "pairing window closed after {} seconds with no controller paired" -/
  | windowClosed (seconds : ℕ)
  | accept (kind : ErrorKind)
  /-- "could not set a handshake read timeout" -/
  | readTimeout (kind : ErrorKind)
  deriving DecidableEq, Repr

/-- What the loop has done by the end of its rounds: its attempts, in order, and its answer unless
it is still waiting. -/
structure AcceptOut (T : Type) where
  attempts : List (RespondCall × RespondOut T)
  result : Option (Except AcceptError PinnedPeer)

/-- Accept pairing attempts until one succeeds or the offer's window closes. -/
def acceptOne (snow : Snow H T) (codec : IdentityCodec) (crypto : Crypto)
    (identity : DeviceIdentity) (context : PairingContext) (deadline : ℕ) (ttl : Duration) :
    PairingOffer → AuditLog → List AcceptRound → AcceptOut T
  | _, _, [] => ⟨[], none⟩
  | offer, audit, round :: rounds =>
      if deadline ≤ round.instant ∨ offer.isExpired round.systemNow = true then
        ⟨[], some (.error (.windowClosed (ttl / 1000000000)))⟩
      else
        match round.accepted with
        | .error kind => ⟨[], some (.error (.accept kind))⟩
        | .ok none => acceptOne snow codec crypto identity context deadline ttl offer audit rounds
        | .ok (some stream) =>
            match round.readTimeout with
            | .error kind => ⟨[], some (.error (.readTimeout kind))⟩
            | .ok () =>
                let call := ⟨stream, identity, context, round.respondNow, round.rng⟩
                let out := respond snow codec crypto offer audit call
                match out.result with
                | .ok outcome => ⟨[(call, out)], some (.ok outcome.peer)⟩
                | .error _ =>
                    let rest := acceptOne snow codec crypto identity context deadline ttl
                      out.offer out.audit rounds
                    ⟨(call, out) :: rest.attempts, rest.result⟩

section

variable (snow : Snow H T) (codec : IdentityCodec) (crypto : Crypto) (identity : DeviceIdentity)
  (context : PairingContext) (deadline : ℕ) (ttl : Duration)

/-- An attempt of the loop that fails goes on with what it left of the offer. -/
theorem acceptOne_cases (offer : PairingOffer) (audit : AuditLog) (round : AcceptRound)
    (rounds : List AcceptRound) :
    (acceptOne snow codec crypto identity context deadline ttl offer audit
        (round :: rounds)).attempts = [] ∨
    (acceptOne snow codec crypto identity context deadline ttl offer audit
        (round :: rounds)).attempts =
      (acceptOne snow codec crypto identity context deadline ttl offer audit rounds).attempts ∨
    ∃ call, ((acceptOne snow codec crypto identity context deadline ttl offer audit
        (round :: rounds)).attempts = [(call, respond snow codec crypto offer audit call)] ∨
      (respond snow codec crypto offer audit call).result.isOk = false ∧
      (acceptOne snow codec crypto identity context deadline ttl offer audit
          (round :: rounds)).attempts = (call, respond snow codec crypto offer audit call) ::
        (acceptOne snow codec crypto identity context deadline ttl
          (respond snow codec crypto offer audit call).offer
          (respond snow codec crypto offer audit call).audit rounds).attempts) := by
  rw [acceptOne]
  by_cases hclosed : deadline ≤ round.instant ∨ offer.isExpired round.systemNow = true
  · rw [if_pos hclosed]
    exact .inl rfl
  rw [if_neg hclosed]
  rcases round.accepted with kind | _ | stream
  · exact .inl rfl
  · exact .inr (.inl rfl)
  rcases round.readTimeout with kind | u
  · exact .inl rfl
  refine .inr (.inr ⟨⟨stream, identity, context, round.respondNow, round.rng⟩, ?_⟩)
  dsimp only
  cases hresult : (respond snow codec crypto offer audit
      ⟨stream, identity, context, round.respondNow, round.rng⟩).result with
  | ok outcome => exact .inl rfl
  | error e => exact .inr ⟨rfl, rfl⟩

/-- Once the offer is gone, every attempt of the loop is refused as a replay. -/
theorem acceptOne_replayed (rounds : List AcceptRound) {offer : PairingOffer}
    (h : offer.consumed = true) (audit : AuditLog) :
    ∀ attempt ∈ (acceptOne snow codec crypto identity context deadline ttl offer audit
      rounds).attempts, attempt.2.refusal = some .replayed := by
  induction rounds generalizing offer audit with
  | nil => simp [acceptOne]
  | cons round rounds ih =>
      intro attempt hmem
      rcases acceptOne_cases snow codec crypto identity context deadline ttl offer audit round
          rounds with heq | heq | ⟨call, heq | ⟨-, heq⟩⟩
      · simp [heq] at hmem
      · rw [heq] at hmem
        exact ih h audit attempt hmem
      · rw [heq] at hmem
        obtain rfl := List.mem_singleton.mp hmem
        exact respond_replayed_iff.mpr h
      · rw [heq] at hmem
        rcases List.mem_cons.mp hmem with rfl | hmem
        · exact respond_replayed_iff.mpr h
        · exact ih (respond_consumed snow codec crypto h audit call) _ attempt hmem

/-- **No phone is turned away as a replay**, exactly when every attempt but the last completes. -/
theorem acceptOne_not_replayed_iff (rounds : List AcceptRound) {offer : PairingOffer}
    (hopen : offer.consumed = false) (audit : AuditLog) :
    (∀ attempt ∈ (acceptOne snow codec crypto identity context deadline ttl offer audit
        rounds).attempts, attempt.2.refusal ≠ some .replayed) ↔
      AllComplete snow codec crypto offer audit ((acceptOne snow codec crypto identity context
        deadline ttl offer audit rounds).attempts.dropLast.map Prod.fst) := by
  induction rounds generalizing offer audit with
  | nil => simp [acceptOne, AllComplete, Transition.Meets]
  | cons round rounds ih =>
      have hfirst : ∀ call,
          (respond snow codec crypto offer audit call).refusal ≠ some .replayed := by
        intro call hreplayed
        simp [respond_replayed_iff.mp hreplayed] at hopen
      rcases acceptOne_cases snow codec crypto identity context deadline ttl offer audit round
          rounds with heq | heq | ⟨call, heq | ⟨hfailed, heq⟩⟩
      · simp [heq, AllComplete, Transition.Meets]
      · rw [heq]
        exact ih hopen audit
      · simp [heq, hfirst, AllComplete, Transition.Meets]
      · have hone : _ ↔ Completes snow codec crypto offer audit call := respond_completes_iff hopen
        rw [heq]
        cases hrest : (acceptOne snow codec crypto identity context deadline ttl
            (respond snow codec crypto offer audit call).offer
            (respond snow codec crypto offer audit call).audit rounds).attempts with
        | nil => simp [hfirst, AllComplete, Transition.Meets]
        | cons next later =>
            have hall : AllComplete snow codec crypto offer audit
                (((call, respond snow codec crypto offer audit call) :: next :: later).dropLast.map
                  Prod.fst) ↔
                Completes snow codec crypto offer audit call ∧
                AllComplete snow codec crypto (respond snow codec crypto offer audit call).offer
                  (respond snow codec crypto offer audit call).audit
                  ((next :: later).dropLast.map Prod.fst) := by
              simp [AllComplete, Transition.Meets, respondStep]
            rw [hall, ← hone]
            by_cases hused : (respond snow codec crypto offer audit call).offer.consumed = true
            · -- a failed attempt has used up the offer, and the next phone is turned away
              have hnext := acceptOne_replayed snow codec crypto identity context deadline ttl
                rounds hused (respond snow codec crypto offer audit call).audit next
                (by simp [hrest])
              refine iff_of_false ?_ ?_
              · intro h
                exact h next (by simp) hnext
              · rintro ⟨hiff, -⟩
                simp [hiff.mp hused] at hfailed
            · have hused := eq_false_of_ne_true hused
              rw [← hrest, ← ih hused, hrest]
              simp [hfirst, hused, hfailed]

/-- **The window survives failures, exactly when confirmed calls complete.**  For every sequence
of calls on one offer, whatever the peers and whichever reads, writes and records fail: the offer is
used up by successes alone exactly when each call whose peer confirms also sends the acceptance and
records the success.  And in the accept loop no phone is refused as a replay, exactly when this
holds of every attempt but the last. -/
theorem window_open_iff (secret : PairingSecret) (created : SystemTime) (audit : AuditLog)
    (calls : List RespondCall) (rounds : List AcceptRound) :
    (UsedUpBySuccess
        (respondAll snow codec crypto (PairingOffer.new secret ttl created) audit calls).1 ↔
      AllComplete snow codec crypto (PairingOffer.new secret ttl created) audit calls) ∧
    ((∀ attempt ∈ (acceptOne snow codec crypto identity context deadline ttl
        (PairingOffer.new secret ttl created) audit rounds).attempts,
        attempt.2.refusal ≠ some .replayed) ↔
      AllComplete snow codec crypto (PairingOffer.new secret ttl created) audit
        ((acceptOne snow codec crypto identity context deadline ttl
          (PairingOffer.new secret ttl created) audit rounds).attempts.dropLast.map Prod.fst)) :=
  ⟨usedUpBySuccess_iff snow codec crypto calls rfl audit,
    acceptOne_not_replayed_iff snow codec crypto identity context deadline ttl rounds rfl audit⟩

end

/-- The peer 1 pairs with the right secret, on a connection whose writes go as `script` says. -/
def toyConfirm (script : List WriteStep) : RespondCall :=
  { toyRespond (toyNonce 5) with
    stream := { (toyRespond (toyNonce 5)).stream with writer := ⟨[], script⟩ } }

/-- A connection that breaks when the peer is to be told that it was accepted. -/
def brokenAcceptance : List WriteStep := [.ok, .ok, .ok, .err .other 0]

/-- The accept loop meets the right phone twice. -/
def toyAccept (script : List WriteStep) (log : List (Option ErrorKind)) : AcceptOut PairingSecret :=
  acceptOne pskNoise toyIdentityCodec toyCrypto ⟨toyNonce 9, toyBundle 9⟩ ⟨"lan-only", "host"⟩ 120
    120 (PairingOffer.new (toyNonce 5) 120 0) ⟨[], log⟩
    [⟨1, 1, .ok (some (toyConfirm script).stream), .ok (), 1, 0⟩,
      ⟨2, 2, .ok (some (toyConfirm []).stream), .ok (), 2, 0⟩]

/-- The acceptance of the first phone is lost, or its record is.  Nothing has paired and the window
is open, but the offer is used up, and the second phone is refused as a replay. -/
theorem window_closed_by_failure :
    ¬ UsedUpBySuccess (respondAll pskNoise toyIdentityCodec toyCrypto
      (PairingOffer.new (toyNonce 5) 120 0) ⟨[], []⟩ [toyConfirm brokenAcceptance]).1 ∧
    (toyAccept brokenAcceptance []).attempts.map (fun attempt => attempt.2.refusal) =
      [some .transport, some .replayed] ∧
    (toyAccept [] [some .other]).attempts.map (fun attempt => attempt.2.refusal) =
      [none, some .replayed] ∧
    (toyAccept brokenAcceptance []).result = none ∧ (toyAccept [] [some .other]).result = none := by
  refine ⟨?_, by decide +kernel, by decide +kernel, by decide +kernel, by decide +kernel⟩
  intro h
  obtain ⟨earlier, hmem, hok⟩ := (h 0 _ rfl).mp (by decide +kernel)
  obtain rfl := List.mem_singleton.mp hmem
  have hfailed : (respond pskNoise toyIdentityCodec toyCrypto (PairingOffer.new (toyNonce 5) 120 0)
      ⟨[], []⟩ (toyConfirm brokenAcceptance)).result.isOk = false := by
    decide +kernel
  exact Bool.false_ne_true (hfailed.symm.trans hok)

/-! ### The clock while the peer makes the host wait -/

/-- The read timeout of an accepted socket, which bounds each wait and not their sum. -/
def HANDSHAKE_TIMEOUT : Duration := 60 * 1000000000

/-- How the bytes of a peer arrive: before the host has read byte `n` of the connection it waits
`waits n`, while its clock may be set forwards or back by `steps n`. -/
structure PeerTiming where
  waits : ℕ → Duration
  steps : ℕ → ℤ

/-- By how much the clock of the host moves while it reads `n` bytes. -/
def PeerTiming.waited (timing : PeerTiming) (n : ℕ) : ℤ :=
  ∑ i ∈ Finset.range n, (timing.waits i + timing.steps i)

/-- What the clock of the host shows when it has read the confirmation and uses up the offer: the
exchange reads nothing after that. -/
def acceptedAt (timing : PeerTiming) (call : RespondCall) (out : RespondOut T) : SystemTime :=
  call.now + timing.waited (call.stream.reader.input.length - out.stream.reader.input.length)

theorem isExpired_eq_false_iff (offer : PairingOffer) (now : SystemTime) :
    offer.isExpired now = false ↔
      0 ≤ now - offer.createdAt ∧ now - offer.createdAt ≤ offer.ttl := by
  unfold PairingOffer.isExpired durationSince
  by_cases h : offer.createdAt ≤ now
  · rw [if_pos h]
    simp only [decide_eq_false_iff_not, Nat.not_lt, Int.toNat_le]
    exact ⟨fun hle => ⟨sub_nonneg.mpr h, hle⟩, fun hle => hle.2⟩
  · rw [if_neg h]
    simp only [Bool.true_eq_false, false_iff, sub_nonneg, not_and]
    intro hle
    exact absurd hle h

/-- A peer that goes through the whole exchange of a call, on an offer of the secret: it makes the
handshake, sends a bundle that can be pinned, and confirms; then it is told so, and recorded.
Whether the offer is used up or has expired is not looked at. -/
structure Exchange (snow : Snow H T) (codec : IdentityCodec) (crypto : Crypto)
    (secret : PairingSecret) (audit : AuditLog) (call : RespondCall) where
  handshake : H
  reply : Bytes
  session : NoiseSession T
  request : Bytes
  afterHandshake : Stream
  peer : PinnedPeer
  confirmed : NoiseSession T
  stream : Stream
  begins : Handshake.new snow
    ⟨.pairing, .responder, call.identity.noiseStaticSecret, none, some secret⟩ call.rng
      = .ok handshake
  encodes : encodeIdentity codec call.identity = .ok reply
  responds : Handshake.runResponder snow handshake call.stream reply
    = (.ok (session, request), afterHandshake)
  pins : pinFromHandshake codec crypto request session = .ok peer
  confirms : recvRequired snow.toSnowTransport .pskMismatch session afterHandshake
    = (.ok CONFIRM_TAG, confirmed, stream)
  accepts : (confirmed.send snow.toSnowTransport ACCEPT_TAG stream.writer).1 = .ok ()
  records : (audit.record (.pairingSucceeded call.context.accountId call.context.deviceId
    (peer.fingerprint crypto) peer.noiseStaticPub)).1 = .ok ()

section

variable {snow : Snow H T} {codec : IdentityCodec} {crypto : Crypto} {offer : PairingOffer}
  {audit : AuditLog} {call : RespondCall}

/-- How many bytes the host reads in the exchange. -/
def Exchange.read {secret : PairingSecret}
    (exchange : Exchange snow codec crypto secret audit call) : ℕ :=
  call.stream.reader.input.length - exchange.stream.reader.input.length

/-- Begun on an open offer inside the window, the exchange is a confirmation that completes. -/
theorem Exchange.completes (exchange : Exchange snow codec crypto offer.secret audit call)
    (hopen : offer.consumed = false) (hvalid : offer.isExpired call.now = false) :
    confirmation snow codec crypto offer call
        = (.ok (exchange.peer, exchange.confirmed), exchange.stream) ∧
      Completes snow codec crypto offer audit call := by
  have hconfirmation : confirmation snow codec crypto offer call
      = (.ok (exchange.peer, exchange.confirmed), exchange.stream) := by
    unfold confirmation
    rw [if_neg (by simp [PairingOffer.isConsumed, hopen]), if_neg (by simp [hvalid])]
    simp only [exchange.begins, exchange.encodes, exchange.responds, exchange.pins,
      exchange.confirms, ne_eq, not_true_eq_false, if_false]
  refine ⟨hconfirmation, fun peer session stream h => ?_⟩
  cases hconfirmation.symm.trans h
  exact ⟨exchange.accepts, exchange.records⟩

/-- A confirmation that completes is such an exchange; the offer was open, and valid when the call
began. -/
theorem exchange_of_confirmation {peer : PinnedPeer} {session : NoiseSession T} {stream : Stream}
    (h : confirmation snow codec crypto offer call = (.ok (peer, session), stream))
    (hcompletes : Completes snow codec crypto offer audit call) :
    offer.consumed = false ∧ offer.isExpired call.now = false ∧
      ∃ exchange : Exchange snow codec crypto offer.secret audit call,
        exchange.stream = stream := by
  obtain ⟨haccepts, hrecords⟩ := hcompletes peer session stream h
  have hopen : offer.consumed = false := by
    by_contra hused
    rw [confirmation_consumed (eq_true_of_ne_false hused)] at h
    cases h
  unfold confirmation at h
  rw [if_neg (by simp [PairingOffer.isConsumed, hopen])] at h
  split at h
  · cases h
  rename_i hexpired
  refine ⟨hopen, eq_false_of_ne_true hexpired, ?_⟩
  split at h
  · cases h
  · rename_i handshake hbegins
    split at h
    · cases h
    · rename_i reply hencodes
      split at h
      · cases h
      · rename_i session' request afterHandshake hresponds
        split at h
        · cases h
        · rename_i peer' hpins
          split at h
          · cases h
          · rename_i confirm confirmed stream' hconfirms
            by_cases htag : confirm ≠ CONFIRM_TAG
            · rw [if_pos htag] at h
              cases h
            · rw [if_neg htag] at h
              cases h
              rw [not_not] at htag
              subst htag
              exact ⟨⟨handshake, reply, session', request, afterHandshake, peer, session, stream,
                hbegins, hencodes, hresponds, hpins, hconfirms, haccepts, hrecords⟩, rfl⟩

/-- **When a pairing is accepted inside the window.**  The clock is looked at when the attempt
begins, and not again.  So for every peer, every timing of its bytes and every clock: a success
means an offer that was still valid when the confirmation was accepted, exactly when the waits for
the bytes of a peer that goes through the exchange, on an open offer and begun inside the window,
fit into what was left of it. -/
theorem accepted_in_time_iff (snow : Snow H T) (codec : IdentityCodec) (crypto : Crypto)
    (offer : PairingOffer) (audit : AuditLog) (call : RespondCall) (timing : PeerTiming) :
    ((respond snow codec crypto offer audit call).result.isOk = true →
      offer.isExpired (acceptedAt timing call (respond snow codec crypto offer audit call)) =
        false) ↔
    (offer.consumed = false → offer.isExpired call.now = false →
      ∀ exchange : Exchange snow codec crypto offer.secret audit call,
        offer.createdAt - call.now ≤ timing.waited exchange.read ∧
          timing.waited exchange.read ≤ offer.ttl - (call.now - offer.createdAt)) := by
  rw [isExpired_eq_false_iff, acceptedAt]
  constructor
  · intro h hopen hvalid exchange
    obtain ⟨hconfirmation, hcompletes⟩ := exchange.completes hopen hvalid
    obtain ⟨-, hreader, hresult, -⟩ := respond_of_confirmed audit hconfirmation
    have hread := h (hresult.mpr hcompletes)
    rw [hreader] at hread
    obtain ⟨hcreated, hage⟩ := hread
    exact ⟨by rw [Exchange.read]; linarith, by rw [Exchange.read]; linarith⟩
  · intro h hok
    rcases hconfirmation : confirmation snow codec crypto offer call with
      ⟨refusal | ⟨peer, session⟩, stream⟩
    · rw [(respond_of_refused audit hconfirmation).2.1] at hok
      simp [Except.isOk, Except.toBool] at hok
    · obtain ⟨-, hreader, hresult, -⟩ := respond_of_confirmed audit hconfirmation
      obtain ⟨hopen, hvalid, exchange, rfl⟩ :=
        exchange_of_confirmation hconfirmation (hresult.mp hok)
      obtain ⟨hcreated, hage⟩ := h hopen hvalid exchange
      rw [Exchange.read] at hcreated hage
      rw [hreader]
      exact ⟨by linarith, by linarith⟩

end

/-- A phone that lets the host wait a minute for its first byte, and a minute for the first byte of
its confirmation. -/
def toyTiming : PeerTiming :=
  ⟨fun n => if n = 0 ∨ n = 35 then HANDSHAKE_TIMEOUT else 0, fun _ => 0⟩

/-- An attempt that begins a second into a window of two minutes is accepted a second after the
window has closed, though no wait exceeds the read timeout. -/
theorem accepted_after_expiry :
    (∀ n, toyTiming.waits n ≤ HANDSHAKE_TIMEOUT) ∧
    (respond pskNoise toyIdentityCodec toyCrypto
      (PairingOffer.new (toyNonce 5) (2 * HANDSHAKE_TIMEOUT) 0) ⟨[], []⟩
      { toyConfirm [] with now := 1000000000 }).result.isOk = true ∧
    (PairingOffer.new (toyNonce 5) (2 * HANDSHAKE_TIMEOUT) 0).isExpired (acceptedAt toyTiming
      { toyConfirm [] with now := 1000000000 }
      (respond pskNoise toyIdentityCodec toyCrypto
        (PairingOffer.new (toyNonce 5) (2 * HANDSHAKE_TIMEOUT) 0) ⟨[], []⟩
        { toyConfirm [] with now := 1000000000 })) = true := by
  refine ⟨?_, by decide +kernel, by decide +kernel⟩
  intro n
  simp only [toyTiming]
  split_ifs
  · exact le_rfl
  · exact Nat.zero_le _

end Osprey
