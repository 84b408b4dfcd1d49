/-
**The pairing exchange, with auditing welded to the control flow.**

`osprey-core/src/pairing/flow.rs`, host side, and the offer of `pairing/secret.rs`.  An offer is a
secret with a window, and is used up by the first peer that confirms.  An attempt runs the handshake
under that secret, checks the bundle the peer sent, and waits for a confirmation in transport mode,
because only there a wrong secret shows.  Whatever comes of it is recorded once.

The peer is the stream: the bytes it sends, where it stops, and which reads and writes fail.  JSON
is `serde_json`'s and a parameter.

Main definitions:

* `Osprey.PairingOffer` — the offer, with its expiry and its single use;
* `Osprey.finish`, `Osprey.pinFromHandshake`, `Osprey.respondInner`, `Osprey.respond` — one attempt;
* `Osprey.respondAll` — the attempts on one offer, one after the other;
* `Osprey.Confirmed` — what a peer has to do to be paired.

Main results:

* `Osprey.respondInner_cases` — the three ways an attempt ends: refused with the offer as it was,
  confirmed but not told so, or paired;
* `Osprey.respond_safe` — **pairing is safe**: at most one attempt succeeds, only with a confirmed
  peer, and each attempt is recorded once, for what it was.
-/

import Osprey.Audit
import Osprey.Handshake
import Osprey.Revocation

set_option relaxedAutoImplicit false
set_option autoImplicit false

namespace Osprey

open ByteIO

/-! ### The offer -/

/-- `std::time::SystemTime`, in nanoseconds since the epoch. -/
abbrev SystemTime := ℤ

/-- `std::time::Duration`, in nanoseconds. -/
abbrev Duration := ℕ

/-- `SystemTime::duration_since`, which fails when the clock has gone backwards. -/
def durationSince (now earlier : SystemTime) : Option Duration :=
  if earlier ≤ now then some (now - earlier).toNat else none

/-- A pairing the host has opened and is waiting on. -/
structure PairingOffer where
  secret : PairingSecret
  createdAt : SystemTime
  ttl : Duration
  consumed : Bool
  deriving DecidableEq, Repr

namespace PairingOffer

def new (secret : PairingSecret) (ttl : Duration) (now : SystemTime) : PairingOffer :=
  ⟨secret, now, ttl, false⟩

def isConsumed (offer : PairingOffer) : Bool := offer.consumed

/-- A clock that has gone backwards is treated as expiry. -/
def isExpired (offer : PairingOffer) (now : SystemTime) : Bool :=
  match durationSince now offer.createdAt with
  | some elapsed => offer.ttl < elapsed
  | none => true

def consume (offer : PairingOffer) : PairingOffer := { offer with consumed := true }

@[simp] theorem secret_consume (offer : PairingOffer) : offer.consume.secret = offer.secret := rfl

@[simp] theorem consumed_consume (offer : PairingOffer) : offer.consume.consumed = true := rfl

end PairingOffer

/-! ### One attempt -/

def CONFIRM_TAG : Bytes := ascii "osprey/pair/confirm/v1"

def ACCEPT_TAG : Bytes := ascii "osprey/pair/accept/v1"

/-- Identity bundle exchanged inside the encrypted handshake payloads. -/
structure IdentityMessage where
  identity : PublicIdentity
  deriving DecidableEq, Repr

/-- `serde_json` on identity messages. -/
structure IdentityCodec where
  toVec : IdentityMessage → Except JsonError Bytes
  fromSlice : Bytes → Except JsonError IdentityMessage

/-- A device's long-term keys.  Its signing key is left out: no modelled function signs. -/
structure DeviceIdentity where
  noiseStaticSecret : Key32
  publicIdentity : PublicIdentity
  deriving DecidableEq, Repr

/-- A completed pairing: the peer to pin, and the live channel to it. -/
structure PairingOutcome (T : Type) where
  peer : PinnedPeer
  session : NoiseSession T

/-- `Attempt<T>`: a refusal carries the reason for the audit log next to the error. -/
abbrev PairingAttempt (α : Type) := Except (PairingFailureReason × Error) α

variable {H T : Type}

/-- The single point both drivers return through.  A pairing that cannot be recorded is refused; a
refusal that cannot be recorded is still answered with its own error. -/
def finish (crypto : Crypto) (audit : AuditLog) (context : PairingContext) :
    PairingAttempt (PairingOutcome T) → Except Error (PairingOutcome T) × AuditLog
  | .ok outcome =>
      match audit.record (.pairingSucceeded context.accountId context.deviceId
          (outcome.peer.fingerprint crypto) outcome.peer.noiseStaticPub) with
      | (.error e, audit) => (.error e, audit)
      | (.ok (), audit) => (.ok outcome, audit)
  | .error (reason, err) =>
      (.error err,
        (audit.record (.pairingFailed context.accountId context.deviceId reason err)).2)

/-- Check that the bundle a peer sent is internally sound and describes the static the handshake
actually authenticated. -/
def pinFromHandshake (codec : IdentityCodec) (crypto : Crypto) (message : Bytes)
    (session : NoiseSession T) : PairingAttempt PinnedPeer :=
  match codec.fromSlice message with
  | .error e => .error (.malformedPayload, .pairingDecode e)
  | .ok parsed =>
      match PinnedPeer.pin crypto parsed.identity with
      | .error e => .error (.badSignature, e)
      | .ok peer =>
          if peer.matchesHandshakeStatic session.remoteStatic then .ok peer
          else .error (.staticMismatch, .unpinnedPeer)

def encodeIdentity (codec : IdentityCodec) (identity : DeviceIdentity) : PairingAttempt Bytes :=
  match codec.toVec ⟨identity.publicIdentity⟩ with
  | .error e => .error (.malformedPayload, .pairingEncode e)
  | .ok bytes => .ok bytes

/-- A handshake failure is a forged or tampered message; anything else on that path is a transport
problem. -/
def classifyHandshake (err : Error) : PairingFailureReason × Error :=
  match err with
  | .handshake .. | .transportAuth _ => (.handshakeRejected, err)
  | _ => (.transport, err)

/-- Receive one message that has to be there: a failure and a close in its place are both refused
for `reason`. -/
def recvRequired (snow : SnowTransport T) (reason : PairingFailureReason) (session : NoiseSession T)
    (stream : Stream) : PairingAttempt Bytes × NoiseSession T × Stream :=
  match session.recv snow stream.reader with
  | ⟨.error e, state, reader⟩ =>
      (.error (reason, e), { session with state }, { stream with reader })
  | ⟨.ok none, state, reader⟩ =>
      (.error (reason, .truncatedFrame 0 2), { session with state }, { stream with reader })
  | ⟨.ok (some message), state, reader⟩ =>
      (.ok message, { session with state }, { stream with reader })

/-- Host side, without the record.  Answers with the attempt, the offer and the stream. -/
def respondInner (snow : Snow H T) (codec : IdentityCodec) (crypto : Crypto) (stream : Stream)
    (identity : DeviceIdentity) (offer : PairingOffer) (now : SystemTime) (rng : ℕ) :
    PairingAttempt (PairingOutcome T) × PairingOffer × Stream :=
  if offer.isConsumed then
    (.error (.replayed, .handshakeConfig "pairing offer already used"), offer, stream)
  else if offer.isExpired now then
    (.error (.expired, .handshakeConfig "pairing offer expired"), offer, stream)
  else
    match Handshake.new snow
        ⟨.pairing, .responder, identity.noiseStaticSecret, none, some offer.secret⟩ rng with
    | .error e => (.error (.handshakeRejected, e), offer, stream)
    | .ok handshake =>
        match encodeIdentity codec identity with
        | .error refusal => (.error refusal, offer, stream)
        | .ok reply =>
            match Handshake.runResponder snow handshake stream reply with
            | (.error e, stream) => (.error (classifyHandshake e), offer, stream)
            | (.ok (session, request), stream) =>
                match pinFromHandshake codec crypto request session with
                | .error refusal => (.error refusal, offer, stream)
                | .ok peer =>
                    -- Only here a peer that does not hold the secret fails.
                    match recvRequired snow.toSnowTransport .pskMismatch session stream with
                    | (.error refusal, _, stream) => (.error refusal, offer, stream)
                    | (.ok confirm, session, stream) =>
                        if confirm ≠ CONFIRM_TAG then
                          (.error (.malformedPayload, .handshakeConfig
                            "peer sent an unexpected pairing confirmation"), offer, stream)
                        else
                          match session.send snow.toSnowTransport ACCEPT_TAG stream.writer with
                          | (.error e, _, writer) =>
                              (.error (.transport, e), offer.consume, { stream with writer })
                          | (.ok (), session, writer) =>
                              (.ok ⟨peer, session⟩, offer.consume, { stream with writer })

/-! ### How an attempt ends -/

/-- What a peer has to do to be paired on an offer with this secret: a handshake keyed with the
secret, which authenticates the static in the bundle; a bundle whose cross-signature verifies; and
the confirmation, under the session that came out of the handshake. -/
def Confirmed (snow : Snow H T) (codec : IdentityCodec) (crypto : Crypto) (stream : Stream)
    (identity : DeviceIdentity) (secret : PairingSecret) (rng : ℕ) (peer : PinnedPeer) : Prop :=
  ∃ (handshake : H) (request reply : Bytes) (transport : T) (rest : Reader)
    (message : IdentityMessage),
    snow.build ⟨.pairing, .responder, identity.noiseStaticSecret, none, some secret⟩ rng =
      .ok handshake ∧
    Handshake.Answered snow handshake stream.reader request reply peer.noiseStaticPub transport
      rest ∧
    codec.fromSlice request = .ok message ∧
    PinnedPeer.pin crypto message.identity = .ok peer ∧
    peer.verify crypto = .ok () ∧
    ((NoiseSession.new transport peer.noiseStaticPub).recv snow.toSnowTransport rest).result =
      .ok (some CONFIRM_TAG)

theorem pinFromHandshake_ok {codec : IdentityCodec} {crypto : Crypto} {message : Bytes}
    {session : NoiseSession T} {peer : PinnedPeer}
    (h : pinFromHandshake codec crypto message session = .ok peer) :
    ∃ parsed, codec.fromSlice message = .ok parsed ∧
      PinnedPeer.pin crypto parsed.identity = .ok peer ∧
      session.remoteStatic = peer.noiseStaticPub := by
  unfold pinFromHandshake at h
  cases hparsed : codec.fromSlice message with
  | error e =>
      rw [hparsed] at h
      cases h
  | ok parsed =>
      rw [hparsed] at h
      dsimp only at h
      cases hpin : PinnedPeer.pin crypto parsed.identity with
      | error e =>
          rw [hpin] at h
          cases h
      | ok pinned =>
          rw [hpin] at h
          dsimp only at h
          split_ifs at h with hstatic
          cases h
          exact ⟨parsed, rfl, hpin, by simpa [PinnedPeer.matchesHandshakeStatic] using hstatic⟩

theorem recvRequired_ok {snow : SnowTransport T} {reason : PairingFailureReason}
    {session session' : NoiseSession T} {stream stream' : Stream} {message : Bytes}
    (h : recvRequired snow reason session stream = (.ok message, session', stream')) :
    (session.recv snow stream.reader).result = .ok (some message) := by
  unfold recvRequired at h
  split at h
  · cases h
  · cases h
  · rename_i hrecv
    cases h
    rw [hrecv]

/-- **The three ways an attempt ends**: it is refused with the offer as it was; or the peer has
confirmed, the offer is used up, and telling the peer so fails; or it succeeds. -/
theorem respondInner_cases (snow : Snow H T) (codec : IdentityCodec) (crypto : Crypto)
    (stream : Stream) (identity : DeviceIdentity) (offer : PairingOffer) (now : SystemTime)
    (rng : ℕ) :
    (∃ refusal stream', respondInner snow codec crypto stream identity offer now rng =
      (.error refusal, offer, stream')) ∨
    offer.consumed = false ∧ offer.isExpired now = false ∧
      ∃ peer, Confirmed snow codec crypto stream identity offer.secret rng peer ∧
        ((∃ e stream', respondInner snow codec crypto stream identity offer now rng =
            (.error (.transport, e), offer.consume, stream')) ∨
          ∃ session stream', respondInner snow codec crypto stream identity offer now rng =
            (.ok ⟨peer, session⟩, offer.consume, stream')) := by
  unfold respondInner
  by_cases hconsumed : offer.isConsumed = true
  · exact .inl ⟨_, _, if_pos hconsumed⟩
  rw [if_neg hconsumed]
  by_cases hexpired : offer.isExpired now = true
  · exact .inl ⟨_, _, if_pos hexpired⟩
  rw [if_neg hexpired]
  rcases hnew : Handshake.new snow
      ⟨.pairing, .responder, identity.noiseStaticSecret, none, some offer.secret⟩ rng with
    e | handshake
  · exact .inl ⟨_, _, rfl⟩
  rcases hreply : encodeIdentity codec identity with refusal | reply
  · exact .inl ⟨_, _, rfl⟩
  dsimp only
  rcases hrun : Handshake.runResponder snow handshake stream reply with
    ⟨e | ⟨session, request⟩, stream₁⟩
  · exact .inl ⟨_, _, rfl⟩
  obtain ⟨transport, hsession, hanswered⟩ := Handshake.answered_of_runResponder hrun
  dsimp only
  rcases hpin : pinFromHandshake codec crypto request session with refusal | peer
  · exact .inl ⟨_, _, rfl⟩
  obtain ⟨parsed, hparsed, hpinned, hstatic⟩ := pinFromHandshake_ok hpin
  dsimp only
  rcases hrecv : recvRequired snow.toSnowTransport .pskMismatch session stream₁ with
    ⟨refusal | confirm, session₁, stream₂⟩
  · exact .inl ⟨_, _, rfl⟩
  dsimp only
  by_cases htag : confirm = CONFIRM_TAG
  · rw [if_neg (not_not.mpr htag)]
    -- From here on the offer is used up, whether or not the acceptance goes out.
    have hconfirmed : Confirmed snow codec crypto stream identity offer.secret rng peer := by
      have hconfirm := recvRequired_ok hrecv
      rw [hsession, hstatic, htag] at hconfirm
      rw [hstatic] at hanswered
      exact ⟨handshake, request, reply, transport, stream₁.reader, parsed,
        Handshake.build_of_new hnew, hanswered, hparsed, hpinned,
        (PinnedPeer.pin_eq_ok.mp hpinned).1, hconfirm⟩
    refine .inr ⟨eq_false_of_ne_true hconsumed, eq_false_of_ne_true hexpired, peer, hconfirmed, ?_⟩
    rcases session₁.send snow.toSnowTransport ACCEPT_TAG stream₂.writer with
      ⟨e | u, session₂, writer⟩
    · exact .inl ⟨_, _, rfl⟩
    · exact .inr ⟨_, _, rfl⟩
  · exact .inl ⟨_, _, if_pos htag⟩

/-! ### Attempts on one offer -/

/-- One call of `respond`: the connection, the arguments, the clock and the random source. -/
structure RespondCall where
  stream : Stream
  identity : DeviceIdentity
  context : PairingContext
  now : SystemTime
  rng : ℕ

/-- What a call of `respond` leaves behind.  `attempt` is the exchange itself, before the record. -/
structure RespondOut (T : Type) where
  attempt : PairingAttempt (PairingOutcome T)
  result : Except Error (PairingOutcome T)
  offer : PairingOffer
  stream : Stream
  audit : AuditLog

/-- Host side.  Accepts one pairing attempt, consuming the offer. -/
def respond (snow : Snow H T) (codec : IdentityCodec) (crypto : Crypto) (offer : PairingOffer)
    (audit : AuditLog) (call : RespondCall) : RespondOut T :=
  let inner := respondInner snow codec crypto call.stream call.identity offer call.now call.rng
  let recorded := finish crypto audit call.context inner.1
  ⟨inner.1, recorded.1, inner.2.1, inner.2.2, recorded.2⟩

/-- One call after the other, on one offer and one log. -/
def respondAll (snow : Snow H T) (codec : IdentityCodec) (crypto : Crypto) (offer : PairingOffer)
    (audit : AuditLog) : List RespondCall → List (RespondOut T) × PairingOffer × AuditLog
  | [] => ([], offer, audit)
  | call :: calls =>
      let out := respond snow codec crypto offer audit call
      let rest := respondAll snow codec crypto out.offer out.audit calls
      (out :: rest.1, rest.2)

/-- The record that an exchange calls for. -/
def recordOf (crypto : Crypto) (context : PairingContext) :
    PairingAttempt (PairingOutcome T) → AuditEvent
  | .ok outcome => .pairingSucceeded context.accountId context.deviceId
      (outcome.peer.fingerprint crypto) outcome.peer.noiseStaticPub
  | .error (reason, err) => .pairingFailed context.accountId context.deviceId reason err

theorem finish_attempts (crypto : Crypto) (audit : AuditLog) (context : PairingContext)
    (attempt : PairingAttempt (PairingOutcome T)) :
    (finish crypto audit context attempt).2.attempts =
      audit.attempts ++ [recordOf crypto context attempt] := by
  cases attempt with
  | error refusal => exact AuditLog.record_attempts audit _
  | ok outcome =>
      have hrecord := AuditLog.record_attempts audit (recordOf crypto context (.ok outcome))
      simp only [finish]
      split
      · rename_i heq
        rw [recordOf, heq] at hrecord
        exact hrecord
      · rename_i heq
        rw [recordOf, heq] at hrecord
        exact hrecord

/-- Only a success is answered with success. -/
theorem finish_ok {crypto : Crypto} {audit : AuditLog} {context : PairingContext}
    {attempt : PairingAttempt (PairingOutcome T)} {outcome : PairingOutcome T}
    (h : (finish crypto audit context attempt).1 = .ok outcome) : attempt = .ok outcome := by
  cases attempt with
  | error refusal => cases h
  | ok outcome' =>
      simp only [finish] at h
      split at h
      · cases h
      · cases h
        rfl

section

variable (snow : Snow H T) (codec : IdentityCodec) (crypto : Crypto)

/-- An attempt that succeeds had an open offer, leaves it used up, and was confirmed. -/
theorem respond_ok {offer : PairingOffer} {audit : AuditLog} {call : RespondCall}
    {outcome : PairingOutcome T}
    (h : (respond snow codec crypto offer audit call).result = .ok outcome) :
    offer.consumed = false ∧ (respond snow codec crypto offer audit call).offer.consumed = true ∧
      Confirmed snow codec crypto call.stream call.identity offer.secret call.rng outcome.peer := by
  have hattempt : (respondInner snow codec crypto call.stream call.identity offer call.now
      call.rng).1 = .ok outcome := finish_ok h
  rcases respondInner_cases snow codec crypto call.stream call.identity offer call.now call.rng with
    ⟨refusal, stream', heq⟩ |
      ⟨hopen, -, peer, hconfirmed, ⟨e, stream', heq⟩ | ⟨session, stream', heq⟩⟩
  · rw [heq] at hattempt
    cases hattempt
  · rw [heq] at hattempt
    cases hattempt
  · rw [heq] at hattempt
    cases hattempt
    refine ⟨hopen, ?_, hconfirmed⟩
    rw [respond, heq]
    rfl

/-- An attempt changes nothing about the offer but that it may use it up. -/
theorem respond_offer (offer : PairingOffer) (audit : AuditLog) (call : RespondCall) :
    (respond snow codec crypto offer audit call).offer = offer ∨
      (respond snow codec crypto offer audit call).offer = offer.consume := by
  rcases respondInner_cases snow codec crypto call.stream call.identity offer call.now call.rng with
    ⟨refusal, stream', heq⟩ | ⟨-, -, peer, -, ⟨e, stream', heq⟩ | ⟨session, stream', heq⟩⟩
  · rw [respond, heq]
    exact .inl rfl
  · rw [respond, heq]
    exact .inr rfl
  · rw [respond, heq]
    exact .inr rfl

theorem respond_secret (offer : PairingOffer) (audit : AuditLog) (call : RespondCall) :
    (respond snow codec crypto offer audit call).offer.secret = offer.secret := by
  rcases respond_offer snow codec crypto offer audit call with h | h
  · rw [h]
  · rw [h, PairingOffer.secret_consume]

theorem respond_consumed {offer : PairingOffer} (h : offer.consumed = true) (audit : AuditLog)
    (call : RespondCall) : (respond snow codec crypto offer audit call).offer.consumed = true := by
  rcases respond_offer snow codec crypto offer audit call with hoffer | hoffer
  · rw [hoffer]
    exact h
  · rw [hoffer, PairingOffer.consumed_consume]

/-- Nobody is paired on an offer that is used up. -/
theorem respondAll_consumed (calls : List RespondCall) {offer : PairingOffer}
    (h : offer.consumed = true) (audit : AuditLog) :
    (respondAll snow codec crypto offer audit calls).1.countP (fun out => out.result.isOk) = 0 := by
  induction calls generalizing offer audit with
  | nil => rfl
  | cons call calls ih =>
      have hrefused : (respond snow codec crypto offer audit call).result.isOk = false := by
        cases hresult : (respond snow codec crypto offer audit call).result with
        | error e => rfl
        | ok outcome => simp [(respond_ok snow codec crypto hresult).1] at h
      rw [respondAll, List.countP_cons_of_neg (by simp [hrefused])]
      exact ih (respond_consumed snow codec crypto h audit call) _

/-- At most one attempt succeeds. -/
theorem respondAll_once (calls : List RespondCall) (offer : PairingOffer) (audit : AuditLog) :
    (respondAll snow codec crypto offer audit calls).1.countP (fun out => out.result.isOk) ≤ 1 := by
  induction calls generalizing offer audit with
  | nil => exact Nat.zero_le 1
  | cons call calls ih =>
      rw [respondAll]
      cases hresult : (respond snow codec crypto offer audit call).result with
      | error e =>
          rw [List.countP_cons_of_neg (by simp [hresult, Except.isOk, Except.toBool])]
          exact ih _ _
      | ok outcome =>
          rw [List.countP_cons_of_pos (by simp [hresult, Except.isOk, Except.toBool]),
            respondAll_consumed snow codec crypto calls (respond_ok snow codec crypto hresult).2.1]

/-- A call that succeeds was confirmed, under the secret of the offer. -/
theorem respondAll_confirmed {calls : List RespondCall} {offer : PairingOffer} {audit : AuditLog}
    {i : ℕ} {call : RespondCall} {out : RespondOut T} {outcome : PairingOutcome T}
    (hcall : calls[i]? = some call)
    (hout : (respondAll snow codec crypto offer audit calls).1[i]? = some out)
    (hresult : out.result = .ok outcome) :
    Confirmed snow codec crypto call.stream call.identity offer.secret call.rng outcome.peer := by
  induction calls generalizing offer audit i with
  | nil => cases hcall
  | cons first calls ih =>
      cases i with
      | zero =>
          cases hcall
          cases hout
          exact (respond_ok snow codec crypto hresult).2.2
      | succ i =>
          have hconfirmed := ih hcall hout
          rw [respond_secret] at hconfirmed
          exact hconfirmed

/-- Every call is one record, of what its exchange came to. -/
theorem respondAll_attempts (calls : List RespondCall) (offer : PairingOffer) (audit : AuditLog) :
    (respondAll snow codec crypto offer audit calls).1.length = calls.length ∧
    (respondAll snow codec crypto offer audit calls).2.2.attempts = audit.attempts ++
      List.zipWith (fun call out => recordOf crypto call.context out.attempt) calls
        (respondAll snow codec crypto offer audit calls).1 := by
  induction calls generalizing offer audit with
  | nil => exact ⟨rfl, (List.append_nil _).symm⟩
  | cons call calls ih =>
      obtain ⟨hlength, hattempts⟩ := ih (respond snow codec crypto offer audit call).offer
        (respond snow codec crypto offer audit call).audit
      refine ⟨by rw [respondAll, List.length_cons, hlength, List.length_cons], ?_⟩
      have hfirst : (respond snow codec crypto offer audit call).audit.attempts = audit.attempts ++
          [recordOf crypto call.context (respond snow codec crypto offer audit call).attempt] :=
        finish_attempts crypto audit call.context _
      rw [respondAll, List.zipWith_cons_cons]
      dsimp only
      rw [hattempts, hfirst, List.append_assoc, List.singleton_append]

/-- **Pairing is safe.**  For all the calls of `respond` on one offer, whatever the peers send,
wherever they stop, and whichever reads, writes and records fail: at most one call succeeds; a call
succeeds only with a peer that has confirmed under the secret of the offer, with a bundle that
verifies and the static that its handshake authenticated; and every call is one record, a success
exactly when the exchange itself succeeded. -/
theorem respond_safe (offer : PairingOffer) (audit : AuditLog) (calls : List RespondCall) :
    (respondAll snow codec crypto offer audit calls).1.countP (fun out => out.result.isOk) ≤ 1 ∧
    (∀ (i : ℕ) (call : RespondCall) (out : RespondOut T) (outcome : PairingOutcome T),
      calls[i]? = some call →
      (respondAll snow codec crypto offer audit calls).1[i]? = some out →
      out.result = .ok outcome →
      Confirmed snow codec crypto call.stream call.identity offer.secret call.rng outcome.peer) ∧
    (respondAll snow codec crypto offer audit calls).1.length = calls.length ∧
    (respondAll snow codec crypto offer audit calls).2.2.attempts = audit.attempts ++
      List.zipWith (fun call out => recordOf crypto call.context out.attempt) calls
        (respondAll snow codec crypto offer audit calls).1 := by
  refine ⟨respondAll_once snow codec crypto calls offer audit, ?_,
    respondAll_attempts snow codec crypto calls offer audit⟩
  intro i call out outcome hcall hout hresult
  exact respondAll_confirmed snow codec crypto hcall hout hresult

end

/-- A toy `snow` under which the peer's static is the first 32 bytes of its handshake message, and
the tag of a transport message is the first half of the pre-shared key. -/
def pskNoise : Snow (PairingSecret × Bytes) PairingSecret where
  writeMessage psk plain := .ok (plain ++ psk.val.take NOISE_TAG_LEN, psk)
  readMessage psk cipher :=
    if cipher.drop (cipher.length - NOISE_TAG_LEN) = psk.val.take NOISE_TAG_LEN then
      .ok (cipher.take (cipher.length - NOISE_TAG_LEN), psk)
    else .error ⟨"decrypt error"⟩
  build config _ :=
    match config.psk with
    | some psk => .ok (psk, [])
    | none => .error ⟨"missing psk"⟩
  hsWriteMessage state payload := .ok (payload, state)
  hsReadMessage state message := .ok (message.drop 32, (state.1, message.take 32))
  getRemoteStatic state := some state.2
  intoTransportMode state := .ok state.1

def toyBundle (b : UInt8) : PublicIdentity :=
  ⟨.ed25519, List.replicate 32 b, toyNonce b, List.replicate 64 b⟩

/-- A codec that knows the bundle of the peer 1. -/
def toyIdentityCodec : IdentityCodec where
  toVec _ := .ok [0]
  fromSlice bytes := if bytes = [1] then .ok ⟨toyBundle 1⟩ else .error ⟨"expected value"⟩

/-- The peer 1 pairs, with a secret that need not be the one of the offer. -/
def toyRespond (secret : PairingSecret) : RespondCall :=
  ⟨⟨Reader.ofBytes (wire [(toyBundle 1).noiseStaticPub.val ++ [1],
      FLAG_FINAL :: CONFIRM_TAG ++ secret.val.take NOISE_TAG_LEN]), ⟨[], []⟩⟩,
    ⟨toyNonce 9, toyBundle 9⟩, ⟨"lan-only", "host"⟩, 0, 0⟩

/-- What comes of a peer with a wrong secret, one with the right one, and another with the right
one. -/
def toyOuts : List (RespondOut PairingSecret) :=
  (respondAll pskNoise toyIdentityCodec toyCrypto (PairingOffer.new (toyNonce 5) 120 0) ⟨[], []⟩
    [toyRespond (toyNonce 6), toyRespond (toyNonce 5), toyRespond (toyNonce 5)]).1

/-- The second of them is paired, and was confirmed. -/
theorem respond_safe_three_calls :
    toyOuts.map (fun out => out.result.isOk) = [false, true, false] ∧
    ∃ out outcome, toyOuts[1]? = some out ∧ out.result = .ok outcome ∧
      Confirmed pskNoise toyIdentityCodec toyCrypto (toyRespond (toyNonce 5)).stream
        (toyRespond (toyNonce 5)).identity (toyNonce 5) 0 outcome.peer := by
  have hresults : toyOuts.map (fun out => out.result.isOk) = [false, true, false] := by
    decide +kernel
  refine ⟨hresults, ?_⟩
  have hsecond : toyOuts[1]?.map (fun out => out.result.isOk) = some true := by
    rw [← List.getElem?_map, hresults]
    rfl
  cases hout : toyOuts[1]? with
  | none =>
      rw [hout] at hsecond
      cases hsecond
  | some out =>
      rw [hout] at hsecond
      cases hresult : out.result with
      | error e => simp [hresult, Except.isOk, Except.toBool] at hsecond
      | ok outcome =>
          exact ⟨out, outcome, rfl, hresult, (respond_safe pskNoise toyIdentityCodec toyCrypto
            (PairingOffer.new (toyNonce 5) 120 0) ⟨[], []⟩ [toyRespond (toyNonce 6),
              toyRespond (toyNonce 5), toyRespond (toyNonce 5)]).2.1 1 _ out outcome rfl hout
              hresult⟩

end Osprey
