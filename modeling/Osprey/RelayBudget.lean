/-
**The failure budget of anonymous redemptions.**

`POST /v1/pairing/redeem` of `relay/src/routes/pairing.ts`, over the repository's transactions.  The
handler asks the limiter of the account whether there is budget left, waits for the database, and
charges the limiter only then, if the redemption has failed.  The limiter's key is the account id as
the request spells it.  So requests that overlap are all let through on one unit of budget, every
spelling of an account has a budget of its own, and a redemption that throws is charged nowhere.

Main definitions:

* `Osprey.Relay.RedeemRoute` with `post` and `resume` — the handler up to its `await`, and from it
  on;
* `Osprey.Relay.WithinBudget` — no window that the limiter has had holds more failures of its
  account than the limit, whenever they are answered;
* `Osprey.Relay.Steady` — the condition on the steps of a run.

Main results:

* `Osprey.Relay.budgeted_of_run` — the invariant of steady runs;
* `Osprey.Relay.spends_of_step` — once a window is over, what spends its budget grows no more;
* `Osprey.Relay.withinBudget_of_steady` — **the budget bounds failures along every steady run**, and
  a redemption that succeeds never spends it;
* `Osprey.Relay.budget_overrun_by_overlap` — a run that is not steady.
-/

import Osprey.RateLimit
import Osprey.RelayServer

set_option relaxedAutoImplicit false
set_option autoImplicit false

namespace Osprey.Relay

open Transactions ReadCommitted

/-! ### The request -/

/-- `BASE64` of the request schemas. -/
def base64 (text : Text) : Bool :=
  16 ≤ text.length && text.length ≤ 512 &&
    text.all fun c => c.isAlphanum || c ∈ ['+', '/', '=', '_', '-']

/-- `HEX_SHA256`. -/
def hexSha256 (text : Text) : Bool :=
  text.length = 64 && text.all fun c => c ∈ HEX_DIGITS.take 16

/-- `DISPLAY_NAME`. -/
def displayName (text : Text) : Bool := 1 ≤ text.length && text.length ≤ 128

structure RedeemBody where
  accountId : Text
  routingId : Text
  displayName : Text
  identityPublicKey : Text
  identityAlgorithm : IdentityAlgorithm
  noiseStaticPublicKey : Text
  noiseStaticSignature : Text
  deriving DecidableEq

def redeemBodySchema (body : RedeemBody) : Bool :=
  uuidFormat body.accountId && hexSha256 body.routingId && displayName body.displayName &&
    base64 body.identityPublicKey && base64 body.noiseStaticPublicKey &&
    base64 body.noiseStaticSignature

def RedeemBody.input (body : RedeemBody) (remoteIp : Text) : RedeemInput where
  routingId := body.routingId
  displayName := body.displayName
  identityPublicKey := body.identityPublicKey
  identityAlgorithm := body.identityAlgorithm
  noiseStaticPublicKey := body.noiseStaticPublicKey
  noiseStaticSignature := body.noiseStaticSignature
  remoteIp := some remoteIp

/-- How far a request has come, with the time at which it was let through to the database and the
time at which it was answered. -/
inductive RedeemPhase
  /-- the schema or a limiter has turned it away -/
  | refused (code : ErrorCode)
  /-- waits for the transaction; `none` for an account id that PostgreSQL does not take -/
  | redeeming (t : Option ℕ) (since : Date)
  | failed (code : ErrorCode) (since ended : Date)
  | created (pairingId clientDeviceId agentDeviceId : PgUuid) (deviceToken : Text)
  deriving DecidableEq

structure RedeemRequest where
  remoteIp : Text
  body : RedeemBody
  phase : RedeemPhase
  deriving DecidableEq

/-! ### The route -/

/-- The database, the two limiters of the route, its requests, and the last reading of the clock. -/
structure RedeemRoute where
  store : RelayStore
  redeemIpLimiter : RateLimiter
  redeemAccountLimiter : RateLimiter
  requests : List RedeemRequest
  clock : Date

inductive RedeemEvent
  /-- a step of the database; with `start`, a repository call made by any other route -/
  | db (event : ReadCommitted.Event Call)
  | post (remoteIp : Text) (body : RedeemBody) (now later : Date) (draws : Draws)
  | resume (j : ℕ) (now : Date)

namespace RedeemRoute

/-- The route when the relay starts. -/
def init (rows : List Row) (redeemRateLimitPerMinute : ℤ) (clock : Date) : RedeemRoute where
  store := .init rows
  redeemIpLimiter := createFixedWindowLimiter redeemRateLimitPerMinute 60000
  redeemAccountLimiter := createFixedWindowLimiter redeemRateLimitPerMinute 60000
  requests := []
  clock

def answer (s : RedeemRoute) (remoteIp : Text) (body : RedeemBody) (phase : RedeemPhase) :
    RedeemRoute :=
  { s with requests := s.requests ++ [⟨remoteIp, body, phase⟩] }

/-- The limiter of the source address has turned the request away. -/
def ipExhausted (s : RedeemRoute) (remoteIp : Text) (now : Date) : Bool :=
  !(s.redeemIpLimiter.consume remoteIp now).1

/-- The request has passed both limiters: `pairingTokens.redeem` is called. -/
def callRedeem (sha256Hex : Text → Text) (s : RedeemRoute) (remoteIp : Text) (body : RedeemBody)
    (since : Date) (draws : Draws) : RedeemRoute :=
  if hid : isUuid body.accountId = true then
    let call := Call.redeem draws ⟨body.accountId, hid⟩ (body.input remoteIp)
    { s.answer remoteIp body (.redeeming (some s.store.txns.length) since) with
      store :=
        { s.store with
          txns := s.store.txns ++ [⟨call, program sha256Hex call, none, [], none⟩] } }
  else s.answer remoteIp body (.redeeming none since)

/-- The handler up to its `await`. -/
def post (sha256Hex : Text → Text) (s : RedeemRoute) (remoteIp : Text) (body : RedeemBody)
    (now later : Date) (draws : Draws) : RedeemRoute :=
  if redeemBodySchema body then
    let exhausted := s.ipExhausted remoteIp now
    let s := { s with redeemIpLimiter := (s.redeemIpLimiter.consume remoteIp now).2, clock := now }
    if exhausted then s.answer remoteIp body (.refused .rate_limited)
    else
      let s := { s with clock := later }
      if s.redeemAccountLimiter.check body.accountId later then
        s.callRedeem sha256Hex remoteIp body later draws
      else s.answer remoteIp body (.refused .rate_limited)
  else s.answer remoteIp body (.refused .bad_request)

/-- The answer to a request that waited. -/
def settle (s : RedeemRoute) (j : ℕ) (request : RedeemRequest) (phase : RedeemPhase) (now : Date) :
    RedeemRoute :=
  { s with requests := s.requests.set j { request with phase }, clock := now }

/-- The failure of a redemption is charged to the account. -/
def fail (s : RedeemRoute) (j : ℕ) (request : RedeemRequest) (since now : Date)
    (result : RedeemResult) : RedeemRoute :=
  let code := if result = .quotaExceeded then ErrorCode.rate_limited else .not_found
  { s.settle j request (.failed code since now) now with
    redeemAccountLimiter := (s.redeemAccountLimiter.consume request.body.accountId now).2 }

/-- How a transaction has ended. -/
def outcome (s : RedeemRoute) (t : ℕ) : Option (Except (DbError UniqueIndex) Answer) :=
  s.store.txns[t]?.bind Txn.outcome

/-- The handler from its `await` on; an error that comes out of it is answered with 500. -/
def resume (s : RedeemRoute) (j : ℕ) (now : Date) : Option RedeemRoute :=
  match s.requests[j]? with
  | none => none
  | some request =>
      match request.phase with
      | .redeeming none since => some (s.settle j request (.failed .internal since now) now)
      | .redeeming (some t) since =>
          match s.outcome t with
          | some (.error _) => some (s.settle j request (.failed .internal since now) now)
          | some (.ok (.redeem (.ok pairingId clientDeviceId agentDeviceId deviceToken))) =>
              some (s.settle j request
                (.created pairingId clientDeviceId agentDeviceId deviceToken) now)
          | some (.ok (.redeem result)) => some (s.fail j request since now result)
          | _ => none
      | _ => none

/-- One event; `none` when it cannot happen. -/
def step (sha256Hex : Text → Text) (s : RedeemRoute) : RedeemEvent → Option RedeemRoute
  | .db event =>
      (ReadCommitted.step (program sha256Hex) s.store event).map fun store => { s with store }
  | .post remoteIp body now later draws => some (s.post sha256Hex remoteIp body now later draws)
  | .resume j now => s.resume j now

end RedeemRoute

/-! ### The property and the condition -/

/-- The account that a spelling the schema accepts names. -/
def accountNamed (id : Text) : Option PgUuid :=
  if hid : isUuid id = true then some (UuidText.value ⟨id, hid⟩)
  else if hid : (id.take 9).map Char.toLower = "urn:uuid:".toList ∧ isUuid (id.drop 9) = true then
    some (UuidText.value ⟨id.drop 9, hid.2⟩)
  else none

namespace RedeemRequest

/-- The request was let through to the database. -/
def letThrough (request : RedeemRequest) : Bool :=
  match request.phase with
  | .refused _ => false
  | _ => true

/-- The request names the account, was let through and has failed, and one or the other happened in
the window from `start` to `stop`. -/
def failedIn (account : PgUuid) (start stop : Date) (request : RedeemRequest) : Bool :=
  match request.phase with
  | .failed _ since ended => accountNamed request.body.accountId = some account &&
      (start ≤ since && since < stop || start ≤ ended && ended < stop)
  | _ => false

/-- The request was let through under the key and is not answered yet. -/
def inFlight (key : Text) (request : RedeemRequest) : Bool :=
  match request.phase with
  | .redeeming _ _ => request.body.accountId = key
  | _ => false

end RedeemRequest

/-- In every window that the account limiter had in the state `u`, at most `limit` requests that
name its account, by whatever spelling, have failed by the later state `s`. -/
def WithinBudget (u s : RedeemRoute) : Prop :=
  ∀ key window account, u.redeemAccountLimiter.windows.lookup key = some window →
    accountNamed key = some account →
    (s.requests.countP (RedeemRequest.failedIn account
      (window.expiresAt - u.redeemAccountLimiter.windowMs) window.expiresAt) : ℤ)
        ≤ u.redeemAccountLimiter.limit

/-- The request that is posted will be let through. -/
def RedeemRoute.Admits (s : RedeemRoute) (remoteIp : Text) (body : RedeemBody) (now later : Date) :
    Prop :=
  redeemBodySchema body = true ∧ s.ipExhausted remoteIp now = false ∧
    s.redeemAccountLimiter.check body.accountId later = true

/-- The clock does not go back.  A request that is let through spells its account in a way
PostgreSQL takes, and as the requests for it before did; and there is budget left for it besides the
failures that are charged and the requests that are still in flight.  No redemption throws. -/
def Steady (s : RedeemRoute) : RedeemEvent → Prop
  | .db _ => True
  | .post remoteIp body now later _ =>
      s.clock ≤ now ∧ now ≤ later ∧ (s.Admits remoteIp body now later →
        isUuid body.accountId = true ∧
        (∀ request ∈ s.requests, request.letThrough = true →
          accountNamed request.body.accountId = accountNamed body.accountId →
          request.body.accountId = body.accountId) ∧
        s.redeemAccountLimiter.live body.accountId later
          + s.requests.countP (RedeemRequest.inFlight body.accountId)
            < s.redeemAccountLimiter.limit)
  | .resume j now =>
      s.clock ≤ now ∧ ∀ request t since, s.requests[j]? = some request →
        request.phase = .redeeming (some t) since → ∀ error, s.outcome t ≠ some (.error error)

/-! ### The invariant -/

/-- The request was let through under the key and has failed since `start`. -/
def RedeemRequest.failedSince (key : Text) (start : Date) (request : RedeemRequest) : Bool :=
  match request.phase with
  | .failed _ _ ended => request.body.accountId = key && start ≤ ended
  | _ => false

/-- The failures of a key since its window opened are counted in the window, and the limit bounds
them together with the requests in flight. -/
structure Budgeted (s : RedeemRoute) : Prop where
  windowMs : 0 < s.redeemAccountLimiter.windowMs
  taken : ∀ request ∈ s.requests, ∀ since, request.phase ≠ .redeeming none since
  spelled : ∀ request ∈ s.requests, ∀ other ∈ s.requests, request.letThrough = true →
    other.letThrough = true →
    accountNamed request.body.accountId = accountNamed other.body.accountId →
    request.body.accountId = other.body.accountId
  keyed : ∀ key window, s.redeemAccountLimiter.windows.lookup key = some window →
    ∃ request ∈ s.requests, request.letThrough = true ∧ request.body.accountId = key
  times : ∀ request ∈ s.requests, ∀ since, (∀ t, request.phase = .redeeming t since →
    since ≤ s.clock) ∧ ∀ code ended, request.phase = .failed code since ended →
      since ≤ ended ∧ ended ≤ s.clock
  counted : ∀ key window, s.redeemAccountLimiter.windows.lookup key = some window →
    (s.requests.countP (RedeemRequest.failedSince key
      (window.expiresAt - s.redeemAccountLimiter.windowMs)) : ℤ) ≤ window.count ∧
      window.count ≤ s.redeemAccountLimiter.limit
  covered : ∀ request ∈ s.requests, ∀ code since ended, request.phase = .failed code since ended →
    ended < s.clock ∨ ∃ window,
      s.redeemAccountLimiter.windows.lookup request.body.accountId = some window ∧
        ended < window.expiresAt
  room : ∀ key, s.requests.countP (RedeemRequest.inFlight key) = 0 ∨
    s.redeemAccountLimiter.live key s.clock + s.requests.countP (RedeemRequest.inFlight key)
      ≤ s.redeemAccountLimiter.limit

theorem budgeted_init (rows : List Row) (limit : ℤ) (clock : Date) :
    Budgeted (.init rows limit clock) := by
  have hempty (key : Text) :
      (createFixedWindowLimiter limit 60000).windows.lookup key = none := rfl
  constructor
  · exact Int.sign_eq_one_iff_pos.mp rfl
  · simp [RedeemRoute.init]
  · simp [RedeemRoute.init]
  · intro key window h
    cases (hempty key).symm.trans h
  · simp [RedeemRoute.init]
  · intro key window h
    cases (hempty key).symm.trans h
  · simp [RedeemRoute.init]
  · exact fun key => .inl rfl

/-- As time goes on, what has been consumed in the window under way only falls away. -/
theorem RateLimiter.live_antitone {limiter : RateLimiter} {key : Text}
    (hcount : ∀ window, limiter.windows.lookup key = some window → 0 ≤ window.count)
    {now later : Date} (h : now ≤ later) : limiter.live key later ≤ limiter.live key now := by
  simp only [live, current]
  cases hlookup : limiter.windows.lookup key with
  | none => simp
  | some window =>
      have hnonneg := hcount window hlookup
      by_cases hlater : later < window.expiresAt
      · simp [Option.filter_some, hlater, h.trans_lt hlater]
      · by_cases hnow : now < window.expiresAt
        · simpa [Option.filter_some, hlater, hnow] using hnonneg
        · simp [Option.filter_some, hlater, hnow]

theorem Budgeted.count_nonneg {s : RedeemRoute} (hs : Budgeted s) (key : Text) (window : Window)
    (h : s.redeemAccountLimiter.windows.lookup key = some window) : 0 ≤ window.count :=
  (Int.natCast_nonneg _).trans (hs.counted key window h).1

theorem countP_or_le {α : Type} (l : List α) (p q : α → Bool) :
    l.countP (fun a => p a || q a) ≤ l.countP p + l.countP q := by
  induction l with
  | nil => simp
  | cons a l ih =>
      simp only [List.countP_cons]
      cases p a <;> cases q a <;> simp <;> omega

/-- The request names the account and was let through, and has failed in the window from `start` to
`stop` or may still fail although it was let through in it. -/
def RedeemRequest.spends (account : PgUuid) (start stop : Date) (request : RedeemRequest) : Bool :=
  match request.phase with
  | .redeeming _ since =>
      accountNamed request.body.accountId = some account && (start ≤ since && since < stop)
  | _ => request.failedIn account start stop

theorem RedeemRequest.spends_of_failedIn {account : PgUuid} {start stop : Date}
    {request : RedeemRequest} (h : request.failedIn account start stop = true) :
    request.spends account start stop = true := by
  unfold RedeemRequest.spends
  split
  · rename_i heq
    simp only [RedeemRequest.failedIn, heq] at h
    cases h
  · exact h

/-- **The invariant bounds what spends the budget of a window under way**: the failures are counted
in it, and there is room for the requests in flight. -/
theorem Budgeted.spends_le {s : RedeemRoute} (hs : Budgeted s) {key : Text} {window : Window}
    {account : PgUuid} (hwindow : s.redeemAccountLimiter.windows.lookup key = some window)
    (hlive : s.clock < window.expiresAt) (hnamed : accountNamed key = some account) :
    (s.requests.countP (RedeemRequest.spends account
      (window.expiresAt - s.redeemAccountLimiter.windowMs) window.expiresAt) : ℤ)
        ≤ s.redeemAccountLimiter.limit := by
  obtain ⟨hcounted, hlimit⟩ := hs.counted key window hwindow
  obtain ⟨first, hfirst, hlet, hkey⟩ := hs.keyed key window hwindow
  -- every request for the account has the key of the window
  have hsame {request : RedeemRequest} (hrequest : request ∈ s.requests)
      (hthrough : request.letThrough = true)
      (hname : accountNamed request.body.accountId = some account) :
      request.body.accountId = key := by
    rw [← hkey]
    refine hs.spelled request hrequest first hfirst hthrough hlet ?_
    rw [hname, hkey, hnamed]
  have hsplit : s.requests.countP (RedeemRequest.spends account
      (window.expiresAt - s.redeemAccountLimiter.windowMs) window.expiresAt)
      ≤ s.requests.countP (RedeemRequest.failedSince key
          (window.expiresAt - s.redeemAccountLimiter.windowMs))
        + s.requests.countP (RedeemRequest.inFlight key) := by
    refine le_trans (List.countP_mono_left fun request hrequest hspends => ?_)
      (countP_or_le s.requests _ _)
    unfold RedeemRequest.spends at hspends
    split at hspends
    · rename_i t since hphase
      simp only [Bool.and_eq_true, decide_eq_true_eq] at hspends
      have hlet : request.letThrough = true := by simp [RedeemRequest.letThrough, hphase]
      simp [RedeemRequest.inFlight, hphase, hsame hrequest hlet hspends.1]
    · unfold RedeemRequest.failedIn at hspends
      split at hspends
      · rename_i code since ended hphase
        simp only [Bool.and_eq_true, Bool.or_eq_true, decide_eq_true_eq] at hspends
        obtain ⟨hname, htime⟩ := hspends
        have hlet : request.letThrough = true := by simp [RedeemRequest.letThrough, hphase]
        have hended := ((hs.times request hrequest since).2 code ended hphase).1
        have hstart : window.expiresAt - s.redeemAccountLimiter.windowMs ≤ ended := by
          rcases htime with ⟨hsince, -⟩ | ⟨hsince, -⟩
          · exact hsince.trans hended
          · exact hsince
        simp only [RedeemRequest.failedSince, hphase, hsame hrequest hlet hname, hstart,
          decide_true, Bool.and_self, Bool.true_or]
      · cases hspends
  have hcurrent : s.redeemAccountLimiter.live key s.clock = window.count := by
    rw [RateLimiter.live, RateLimiter.current_eq_some.mpr ⟨hwindow, hlive⟩]
    rfl
  have hbound : (s.requests.countP (RedeemRequest.failedSince key
      (window.expiresAt - s.redeemAccountLimiter.windowMs)) : ℤ)
      + s.requests.countP (RedeemRequest.inFlight key) ≤ s.redeemAccountLimiter.limit := by
    rcases hs.room key with hzero | hroom
    · rw [hzero]
      simpa using hcounted.trans hlimit
    · rw [hcurrent] at hroom
      linarith
  exact (Int.ofNat_le.mpr hsplit).trans hbound

/-! ### What keeps the invariant -/

/-- Time goes on; neither the database nor the limiter of the source addresses matters. -/
theorem Budgeted.wait {s : RedeemRoute} (hs : Budgeted s) {now : Date} (hnow : s.clock ≤ now)
    (store : RelayStore) (redeemIpLimiter : RateLimiter) :
    Budgeted { s with store, redeemIpLimiter, clock := now } := by
  refine ⟨hs.windowMs, hs.taken, hs.spelled, hs.keyed, fun request hrequest since => ⟨?_, ?_⟩,
    hs.counted, fun request hrequest code since ended hphase => ?_, fun key => ?_⟩
  · exact fun t hphase => ((hs.times request hrequest since).1 t hphase).trans hnow
  · intro code ended hphase
    obtain ⟨hsince, hended⟩ := (hs.times request hrequest since).2 code ended hphase
    exact ⟨hsince, hended.trans hnow⟩
  · exact (hs.covered request hrequest code since ended hphase).imp_left fun h => h.trans_le hnow
  · refine (hs.room key).imp_right fun h => le_trans ?_ h
    exact Int.add_le_add_right (RateLimiter.live_antitone (hs.count_nonneg key) hnow) _

/-- A request comes in: it is turned away, or let through where the condition holds. -/
theorem Budgeted.answer {s : RedeemRoute} (hs : Budgeted s) (remoteIp : Text) {body : RedeemBody}
    {phase : RedeemPhase}
    (hphase : (∃ code, phase = .refused code) ∨ ∃ t, phase = .redeeming (some t) s.clock)
    (hlet : RedeemRequest.letThrough ⟨remoteIp, body, phase⟩ = true →
      (∀ request ∈ s.requests, request.letThrough = true →
        accountNamed request.body.accountId = accountNamed body.accountId →
        request.body.accountId = body.accountId) ∧
      s.redeemAccountLimiter.live body.accountId s.clock
        + s.requests.countP (RedeemRequest.inFlight body.accountId) <
          s.redeemAccountLimiter.limit) :
    Budgeted (s.answer remoteIp body phase) := by
  have hcases {request : RedeemRequest} (h : request ∈ (s.answer remoteIp body phase).requests) :
      request ∈ s.requests ∨ request = ⟨remoteIp, body, phase⟩ := by
    simpa [RedeemRoute.answer] using h
  have hcount (p : RedeemRequest → Bool) (hp : p ⟨remoteIp, body, phase⟩ = false) :
      (s.answer remoteIp body phase).requests.countP p = s.requests.countP p := by
    simp [RedeemRoute.answer, List.countP_append, hp]
  have hnotfailed (code : ErrorCode) (since ended : Date) : phase ≠ .failed code since ended := by
    rintro rfl
    rcases hphase with ⟨_, heq⟩ | ⟨_, heq⟩ <;> cases heq
  have hwaits (t : Option ℕ) (since : Date) (h : phase = .redeeming t since) :
      t ≠ none ∧ since = s.clock := by
    subst h
    rcases hphase with ⟨_, heq⟩ | ⟨_, heq⟩
    · cases heq
    · cases heq
      exact ⟨Option.some_ne_none _, rfl⟩
  constructor
  · exact hs.windowMs
  · intro request hrequest since
    rcases hcases hrequest with hrequest | rfl
    · exact hs.taken request hrequest since
    · exact fun h => (hwaits none since h).1 rfl
  · intro request hrequest other hother hrequestLet hotherLet hnamed
    rcases hcases hrequest with hrequest | rfl
    · rcases hcases hother with hother | rfl
      · exact hs.spelled request hrequest other hother hrequestLet hotherLet hnamed
      · exact (hlet hotherLet).1 request hrequest hrequestLet hnamed
    · rcases hcases hother with hother | rfl
      · exact ((hlet hrequestLet).1 other hother hotherLet hnamed.symm).symm
      · rfl
  · intro key window hwindow
    obtain ⟨request, hrequest, hkey⟩ := hs.keyed key window hwindow
    exact ⟨request, List.mem_append_left _ hrequest, hkey⟩
  · intro request hrequest since
    rcases hcases hrequest with hrequest | rfl
    · exact hs.times request hrequest since
    · exact ⟨fun t h => (hwaits t since h).2.le, fun code ended h => absurd h (hnotfailed _ _ _)⟩
  · intro key window hwindow
    rw [hcount]
    · exact hs.counted key window hwindow
    · simp only [RedeemRequest.failedSince]
  · intro request hrequest code since ended h
    rcases hcases hrequest with hrequest | rfl
    · exact hs.covered request hrequest code since ended h
    · exact absurd h (hnotfailed _ _ _)
  · intro key
    by_cases hflight : RedeemRequest.inFlight key ⟨remoteIp, body, phase⟩ = true
    · obtain ⟨t, rfl⟩ : ∃ t, phase = .redeeming (some t) s.clock := by
        refine hphase.resolve_left ?_
        rintro ⟨code, rfl⟩
        cases hflight
      obtain rfl : body.accountId = key := of_decide_eq_true hflight
      refine .inr ?_
      have hone : (s.answer remoteIp body (.redeeming (some t) s.clock)).requests.countP
          (RedeemRequest.inFlight body.accountId)
            = s.requests.countP (RedeemRequest.inFlight body.accountId) + 1 := by
        simp [RedeemRoute.answer, List.countP_append, hflight]
      rw [hone, Nat.cast_succ, ← add_assoc]
      exact Int.add_one_le_of_lt (hlet rfl).2
    · rw [hcount _ (Bool.eq_false_iff.mpr hflight)]
      exact hs.room key

section Settled

variable {s : RedeemRoute} {j : ℕ} {request : RedeemRequest} {t : Option ℕ} {since : Date}

/-- The requests where one has been answered. -/
theorem mem_set_cases {phase : RedeemPhase} {other : RedeemRequest}
    (h : other ∈ s.requests.set j { request with phase }) :
    other ∈ s.requests ∨ other = { request with phase } := List.mem_or_eq_of_mem_set h

/-- What is counted where one request has been answered. -/
theorem countP_settle (hj : s.requests[j]? = some request) (phase : RedeemPhase)
    (p : RedeemRequest → Bool) :
    (s.requests.set j { request with phase }).countP p + (if p request then 1 else 0)
      = s.requests.countP p + if p { request with phase } then 1 else 0 := by
  obtain ⟨hlt, hget⟩ := List.getElem?_eq_some_iff.mp hj
  rw [List.countP_set hlt, hget]
  have hpos : p request = true → 0 < s.requests.countP p := fun hp =>
    List.countP_pos_iff.mpr ⟨request, List.mem_of_getElem? hj, hp⟩
  split
  · rename_i hp
    have := hpos hp
    omega
  · omega

/-- What is counted where the request that waited and the answered one count alike. -/
theorem countP_settle_of_eq (hj : s.requests[j]? = some request) {phase : RedeemPhase}
    {p : RedeemRequest → Bool} (hp : p request = p { request with phase }) :
    (s.requests.set j { request with phase }).countP p = s.requests.countP p := by
  have hcount := countP_settle hj phase p
  rw [hp] at hcount
  exact Nat.add_right_cancel hcount

/-- A request that was let through stays so when one of them is answered. -/
theorem exists_settle (hj : s.requests[j]? = some request) {phase : RedeemPhase}
    (hphase : RedeemRequest.letThrough { request with phase } = true) {other : RedeemRequest}
    (hother : other ∈ s.requests) (hlet : other.letThrough = true) :
    ∃ other' ∈ s.requests.set j { request with phase }, other'.letThrough = true ∧
      other'.body.accountId = other.body.accountId := by
  obtain ⟨i, hi⟩ := List.getElem?_of_mem hother
  by_cases heq : j = i
  · subst heq
    cases hj.symm.trans hi
    exact ⟨_, List.mem_set (List.getElem?_eq_some_iff.mp hj).1 _, hphase, rfl⟩
  · refine ⟨other, List.mem_of_getElem? (i := i) ?_, hlet, rfl⟩
    rw [List.getElem?_set_ne heq, hi]

/-- A request that is answered is no longer in flight. -/
theorem inFlight_settle (hj : s.requests[j]? = some request)
    (hwaits : request.phase = .redeeming t since) (phase : RedeemPhase)
    (hphase : ∀ t since, phase ≠ .redeeming t since) (key : Text) :
    (s.requests.set j { request with phase }).countP (RedeemRequest.inFlight key)
      + (if request.body.accountId = key then 1 else 0)
        = s.requests.countP (RedeemRequest.inFlight key) := by
  have hafter : RedeemRequest.inFlight key { request with phase } = false := by
    cases phase with
    | redeeming t since => exact absurd rfl (hphase t since)
    | refused | failed | created => rfl
  have hcount := countP_settle hj phase (RedeemRequest.inFlight key)
  simpa [hafter, RedeemRequest.inFlight, hwaits] using hcount

/-- No failure of a key is as late as the last reading of the clock, where no window of it is under
way then. -/
theorem Budgeted.failedSince_clock (hs : Budgeted s) {key : Text}
    (hnone : s.redeemAccountLimiter.current key s.clock = none) :
    s.requests.countP (RedeemRequest.failedSince key s.clock) = 0 := by
  rw [List.countP_eq_zero]
  intro other hother hfailed
  simp only [RedeemRequest.failedSince] at hfailed
  split at hfailed
  · rename_i code since' ended hphase
    simp only [Bool.and_eq_true, decide_eq_true_eq] at hfailed
    rcases hs.covered other hother code since' ended hphase with hlt | ⟨window, hwindow, hlt⟩
    · exact absurd hfailed.2 (not_le.mpr hlt)
    · rw [hfailed.1] at hwindow
      have hcurrent : s.redeemAccountLimiter.current key s.clock = some window :=
        RateLimiter.current_eq_some.mpr ⟨hwindow, hfailed.2.trans_lt hlt⟩
      cases hnone.symm.trans hcurrent
  · cases hfailed

/-- The failures of a key before one more is charged are counted in what the charge leaves. -/
theorem Budgeted.counted_charged (hs : Budgeted s) (key : Text) :
    (s.requests.countP (RedeemRequest.failedSince key
      ((s.redeemAccountLimiter.charged key s.clock).expiresAt -
        s.redeemAccountLimiter.windowMs)) : ℤ)
        + 1 ≤ (s.redeemAccountLimiter.charged key s.clock).count := by
  unfold RateLimiter.charged
  split
  · rename_i hnone
    simp [hs.failedSince_clock hnone]
  · rename_i window hsome
    have hcounted := (hs.counted key window (RateLimiter.current_eq_some.mp hsome).1).1
    exact Int.add_le_add_right hcounted 1

/-- What is charged covers the failures that were covered. -/
theorem Budgeted.covered_charged (hs : Budgeted s) (key : Text) {other : RedeemRequest}
    (hother : other ∈ s.requests) {code : ErrorCode} {since ended : Date}
    (hphase : other.phase = .failed code since ended) :
    ended < s.clock ∨ ∃ window,
      (s.redeemAccountLimiter.consume key s.clock).2.windows.lookup other.body.accountId
        = some window ∧ ended < window.expiresAt := by
  rcases hs.covered other hother code since ended hphase with hlt | ⟨window, hwindow, hlt⟩
  · exact .inl hlt
  · by_cases hlive : s.clock < window.expiresAt
    · right
      have hcurrent : s.redeemAccountLimiter.current other.body.accountId s.clock = some window :=
        RateLimiter.current_eq_some.mpr ⟨hwindow, hlive⟩
      rw [RateLimiter.lookup_consume]
      split
      · rename_i hkey
        refine ⟨_, rfl, ?_⟩
        rw [hkey] at hcurrent
        simpa only [RateLimiter.charged, hcurrent] using hlt
      · exact ⟨window, hcurrent, hlt⟩
    · exact .inl (hlt.trans_le (not_lt.mp hlive))

variable (hs : Budgeted s) (hj : s.requests[j]? = some request)
  (hwaits : request.phase = .redeeming t since)
include hs hj hwaits

/-- An answer changes no spelling. -/
theorem Budgeted.spelled_settle (phase : RedeemPhase) (first : RedeemRequest)
    (hfirst : first ∈ s.requests.set j { request with phase }) (second : RedeemRequest)
    (hsecond : second ∈ s.requests.set j { request with phase })
    (hfirstLet : first.letThrough = true) (hsecondLet : second.letThrough = true)
    (hnamed : accountNamed first.body.accountId = accountNamed second.body.accountId) :
    first.body.accountId = second.body.accountId := by
  have hlet : request.letThrough = true := by simp [RedeemRequest.letThrough, hwaits]
  have hbefore {other : RedeemRequest} (h : other ∈ s.requests.set j { request with phase })
      (hother : other.letThrough = true) :
      ∃ other' ∈ s.requests, other'.letThrough = true ∧ other'.body = other.body := by
    rcases mem_set_cases h with h | rfl
    · exact ⟨other, h, hother, rfl⟩
    · exact ⟨request, List.mem_of_getElem? hj, hlet, rfl⟩
  obtain ⟨first', hfirst', hfirstLet', hfirstBody⟩ := hbefore hfirst hfirstLet
  obtain ⟨second', hsecond', hsecondLet', hsecondBody⟩ := hbefore hsecond hsecondLet
  rw [← hfirstBody, ← hsecondBody] at hnamed ⊢
  exact hs.spelled first' hfirst' second' hsecond' hfirstLet' hsecondLet' hnamed

/-- A redemption succeeds. -/
theorem Budgeted.created (pairingId clientDeviceId agentDeviceId : PgUuid) (deviceToken : Text) :
    Budgeted { s with
      requests := s.requests.set j
        { request with
          phase := .created pairingId clientDeviceId agentDeviceId deviceToken } } := by
  constructor
  · exact hs.windowMs
  · intro other hother since'
    rcases mem_set_cases hother with hother | rfl
    · exact hs.taken other hother since'
    · simp
  · exact hs.spelled_settle hj hwaits _
  · intro key window hwindow
    obtain ⟨other, hother, hlet, rfl⟩ := hs.keyed key window hwindow
    exact exists_settle hj rfl hother hlet
  · intro other hother since'
    rcases mem_set_cases hother with hother | rfl
    · exact hs.times other hother since'
    · simp
  · intro key window hwindow
    rw [countP_settle_of_eq hj (by simp [RedeemRequest.failedSince, hwaits])]
    exact hs.counted key window hwindow
  · intro other hother code since' ended hphase
    rcases mem_set_cases hother with hother | rfl
    · exact hs.covered other hother code since' ended hphase
    · cases hphase
  · intro key
    have hflight := inFlight_settle hj hwaits
      (.created pairingId clientDeviceId agentDeviceId deviceToken) (by simp) key
    refine (hs.room key).imp (fun hzero => ?_) fun hroom => le_trans ?_ hroom
    · rw [hzero] at hflight
      exact (Nat.add_eq_zero_iff.mp hflight).1
    · exact Int.add_le_add_left (Int.ofNat_le.mpr (hflight ▸ Nat.le_add_right _ _)) _

/-- **A failure is charged**: the window of the key takes it, and there was room. -/
theorem Budgeted.failed (code : ErrorCode) (hsince : since ≤ s.clock) :
    Budgeted { s with
      requests := s.requests.set j { request with phase := .failed code since s.clock }
      redeemAccountLimiter :=
        (s.redeemAccountLimiter.consume request.body.accountId s.clock).2 } := by
  have hcharged := RateLimiter.charged_count s.redeemAccountLimiter hs.windowMs
    request.body.accountId s.clock
  have hflight := inFlight_settle hj hwaits (.failed code since s.clock) (by simp)
  have hroom : s.redeemAccountLimiter.live request.body.accountId s.clock
      + s.requests.countP (RedeemRequest.inFlight request.body.accountId)
        ≤ s.redeemAccountLimiter.limit := by
    refine (hs.room request.body.accountId).resolve_left ?_
    rw [← hflight, if_pos rfl]
    omega
  constructor
  · simpa using hs.windowMs
  · intro other hother since'
    rcases mem_set_cases hother with hother | rfl
    · exact hs.taken other hother since'
    · simp
  · exact hs.spelled_settle hj hwaits _
  · intro key window hwindow
    simp only [RateLimiter.lookup_consume] at hwindow
    split at hwindow
    · rename_i hkey
      exact ⟨_, List.mem_set (List.getElem?_eq_some_iff.mp hj).1 _, rfl, hkey.symm⟩
    · obtain ⟨other, hother, hlet, rfl⟩ :=
        hs.keyed key window (RateLimiter.current_eq_some.mp hwindow).1
      exact exists_settle hj rfl hother hlet
  · intro other hother since'
    rcases mem_set_cases hother with hother | rfl
    · exact hs.times other hother since'
    · refine ⟨fun t' hphase => (by cases hphase), fun code' ended hphase => ?_⟩
      cases hphase
      exact ⟨hsince, le_rfl⟩
  · intro key window hwindow
    simp only [RateLimiter.lookup_consume] at hwindow
    simp only [RateLimiter.consume_windowMs, RateLimiter.consume_limit]
    split at hwindow
    · rename_i hkey
      subst hkey
      cases hwindow
      refine ⟨?_, ?_⟩
      · refine le_trans ?_ (hs.counted_charged request.body.accountId)
        have hcount := countP_settle hj (.failed code since s.clock)
          (RedeemRequest.failedSince request.body.accountId
            ((s.redeemAccountLimiter.charged request.body.accountId s.clock).expiresAt
              - s.redeemAccountLimiter.windowMs))
        refine Int.ofNat_le.mpr (le_trans (Nat.le_add_right _ _) (hcount.le.trans ?_))
        refine Nat.add_le_add_left ?_ _
        split
        · exact le_rfl
        · exact Nat.zero_le 1
      · rw [hcharged.1]
        refine le_trans (Int.add_le_add_left ?_ _) hroom
        rw [← hflight, if_pos rfl]
        exact Int.ofNat_le.mpr (Nat.le_add_left 1 _)
    · rename_i hkey
      rw [countP_settle_of_eq hj]
      · exact hs.counted key window (RateLimiter.current_eq_some.mp hwindow).1
      · simp [RedeemRequest.failedSince, hwaits, Ne.symm hkey]
  · intro other hother code' since' ended hphase
    rcases mem_set_cases hother with hother | rfl
    · exact hs.covered_charged request.body.accountId hother hphase
    · cases hphase
      refine .inr ⟨_, ?_, hcharged.2⟩
      rw [RateLimiter.lookup_consume, if_pos rfl]
  · intro key
    have hlive : (s.redeemAccountLimiter.consume request.body.accountId s.clock).2.live key s.clock
        = s.redeemAccountLimiter.live key s.clock
          + if request.body.accountId = key then 1 else 0 := by
      rw [RateLimiter.live, RateLimiter.current_consume _ hs.windowMs]
      by_cases hkey : key = request.body.accountId
      · subst hkey
        simpa using hcharged.1
      · simp [hkey, Ne.symm hkey, RateLimiter.live]
    simp only [hlive, RateLimiter.consume_limit]
    refine (hs.room key).imp (fun hzero => ?_) fun hroom => ?_
    · have hsum := hflight key
      rw [hzero] at hsum
      exact (Nat.add_eq_zero_iff.mp hsum).1
    · refine le_trans (le_of_eq ?_) hroom
      rw [← hflight key]
      push_cast
      ring

end Settled

/-! ### Runs -/

/-- A steady request keeps the invariant. -/
theorem budgeted_post {sha256Hex : Text → Text} {s : RedeemRoute} (hs : Budgeted s)
    {remoteIp : Text} {body : RedeemBody} {now later : Date} {draws : Draws}
    (hsteady : Steady s (.post remoteIp body now later draws)) :
    Budgeted (s.post sha256Hex remoteIp body now later draws) := by
  obtain ⟨hnow, hlater, hadmits⟩ := hsteady
  unfold RedeemRoute.post
  split
  · rename_i hschema
    dsimp only
    split
    · exact (hs.wait hnow _ _).answer remoteIp (.inl ⟨_, rfl⟩) fun h => (by cases h)
    · rename_i hip
      have hwait := hs.wait (hnow.trans hlater) s.store
        (s.redeemIpLimiter.consume remoteIp now).2
      split
      · rename_i hcheck
        obtain ⟨hid, hspelled, hroom⟩ := hadmits ⟨hschema, Bool.eq_false_iff.mpr hip, hcheck⟩
        rw [RedeemRoute.callRedeem, dif_pos hid]
        exact (hwait.answer remoteIp (.inr ⟨_, rfl⟩) fun _ => ⟨hspelled, hroom⟩).wait le_rfl _ _
      · exact hwait.answer remoteIp (.inl ⟨_, rfl⟩) fun h => (by cases h)
  · exact hs.answer remoteIp (.inl ⟨_, rfl⟩) fun h => (by cases h)

/-- A steady answer keeps the invariant. -/
theorem budgeted_resume {s s' : RedeemRoute} (hs : Budgeted s) {j : ℕ} {now : Date}
    (hsteady : Steady s (.resume j now)) (h : s.resume j now = some s') : Budgeted s' := by
  obtain ⟨hnow, hthrows⟩ := hsteady
  have hwait := hs.wait hnow s.store s.redeemIpLimiter
  unfold RedeemRoute.resume at h
  split at h
  · cases h
  · rename_i request hj
    split at h
    · rename_i since hphase
      exact absurd hphase (hs.taken request (List.mem_of_getElem? hj) since)
    · rename_i t since hphase
      split at h
      · rename_i error houtcome
        exact absurd houtcome (hthrows request t since hj hphase error)
      · cases h
        exact hwait.created hj hphase _ _ _ _
      · cases h
        exact hwait.failed hj hphase _
          (((hs.times request (List.mem_of_getElem? hj) since).1 _ hphase).trans hnow)
      · cases h
    · cases h

theorem budgeted_step {sha256Hex : Text → Text} {s s' : RedeemRoute} {event : RedeemEvent}
    (hs : Budgeted s) (hsteady : Steady s event)
    (h : RedeemRoute.step sha256Hex s event = some s') : Budgeted s' := by
  cases event with
  | db event =>
      obtain ⟨store, -, rfl⟩ := Option.map_eq_some_iff.mp h
      exact hs.wait le_rfl store s.redeemIpLimiter
  | post remoteIp body now later draws =>
      cases h
      exact budgeted_post hs hsteady
  | resume j now => exact budgeted_resume hs hsteady h

theorem budgeted_of_run {sha256Hex : Text → Text} {rows : List Row} {limit : ℤ} {clock : Date}
    {events : List RedeemEvent} {s : RedeemRoute}
    (hsteady : Transition.Meets (RedeemRoute.step sha256Hex) Steady (.init rows limit clock) events)
    (hrun : Transition.run (RedeemRoute.step sha256Hex) (.init rows limit clock) events = some s) :
    Budgeted s :=
  Transition.run_invariant (fun _ _ _ hs hsteady hstep => budgeted_step hs hsteady hstep)
    (budgeted_init rows limit clock) hsteady hrun

/-- A step at which a redemption is answered with success leaves the budgets as they are. -/
theorem limiter_of_created {s s' : RedeemRoute} {j : ℕ} {now : Date} (h : s.resume j now = some s')
    {request : RedeemRequest} {pairingId clientDeviceId agentDeviceId : PgUuid} {deviceToken : Text}
    (hj : s'.requests[j]? = some request)
    (hcreated : request.phase = .created pairingId clientDeviceId agentDeviceId deviceToken) :
    s'.redeemAccountLimiter = s.redeemAccountLimiter := by
  unfold RedeemRoute.resume at h
  split at h
  · cases h
  · rename_i before hbefore
    split at h
    · cases h
      rfl
    · split at h
      · cases h
        rfl
      · cases h
        rfl
      · -- the answer is a failure
        cases h
        rw [RedeemRoute.fail, RedeemRoute.settle,
          List.getElem?_set_self (List.getElem?_eq_some_iff.mp hbefore).1] at hj
        cases hj
        cases hcreated
      · cases h
    · cases h

/-! ### Windows that are over -/

/-- A new request spends nothing of a window that is over. -/
theorem spends_answer {s : RedeemRoute} {account : PgUuid} {start stop : Date} {remoteIp : Text}
    {body : RedeemBody} {phase : RedeemPhase}
    (hphase : (∃ code, phase = .refused code) ∨ ∃ t since, phase = .redeeming t since ∧
      stop ≤ since) :
    (s.answer remoteIp body phase).requests.countP (RedeemRequest.spends account start stop)
      = s.requests.countP (RedeemRequest.spends account start stop) := by
  have hnone : RedeemRequest.spends account start stop ⟨remoteIp, body, phase⟩ = false := by
    rcases hphase with ⟨code, rfl⟩ | ⟨t, since, rfl, hstop⟩
    · rfl
    · simp [RedeemRequest.spends, not_lt.mpr hstop]
  simp [RedeemRoute.answer, List.countP_append, hnone]

/-- An answer after a window is over spends no more of it than the request in flight did. -/
theorem spends_settle {s : RedeemRoute} {j : ℕ} {request : RedeemRequest} {t : Option ℕ}
    {since now : Date} (hj : s.requests[j]? = some request)
    (hwaits : request.phase = .redeeming t since) {account : PgUuid} {start stop : Date}
    (hstop : stop ≤ now) {phase : RedeemPhase}
    (hphase : (∃ code, phase = .failed code since now) ∨
      ∃ pairingId clientDeviceId agentDeviceId deviceToken,
        phase = .created pairingId clientDeviceId agentDeviceId deviceToken) :
    (s.settle j request phase now).requests.countP (RedeemRequest.spends account start stop)
      ≤ s.requests.countP (RedeemRequest.spends account start stop) := by
  have hcount := countP_settle hj phase (RedeemRequest.spends account start stop)
  have hless : RedeemRequest.spends account start stop { request with phase } = true →
      RedeemRequest.spends account start stop request = true := by
    rcases hphase with ⟨code, rfl⟩ | ⟨_, _, _, _, rfl⟩
    · simp [RedeemRequest.spends, RedeemRequest.failedIn, hwaits, not_lt.mpr hstop]
    · intro h
      cases h
  rw [RedeemRoute.settle]
  by_cases hnew : RedeemRequest.spends account start stop { request with phase } = true
  · rw [if_pos hnew, if_pos (hless hnew)] at hcount
    exact (Nat.add_right_cancel hcount).le
  · rw [if_neg hnew, Nat.add_zero] at hcount
    exact hcount ▸ Nat.le_add_right _ _

/-- **Once a window is over, what spends its budget grows no more.** -/
theorem spends_of_step {sha256Hex : Text → Text} {s s' : RedeemRoute} {event : RedeemEvent}
    (h : RedeemRoute.step sha256Hex s event = some s') {account : PgUuid} {start stop : Date}
    (hstop : stop ≤ s'.clock) :
    s'.requests.countP (RedeemRequest.spends account start stop)
      ≤ s.requests.countP (RedeemRequest.spends account start stop) := by
  cases event with
  | db event =>
      obtain ⟨store, -, rfl⟩ := Option.map_eq_some_iff.mp h
      exact le_rfl
  | post remoteIp body now later draws =>
      obtain rfl := Option.some.inj h
      unfold RedeemRoute.post at hstop ⊢
      split
      · rename_i hschema
        rw [if_pos hschema] at hstop
        dsimp only at hstop ⊢
        split
        · exact (spends_answer (.inl ⟨_, rfl⟩)).le
        · rename_i hip
          rw [if_neg hip] at hstop
          split
          · rename_i hcheck
            rw [if_pos hcheck] at hstop
            unfold RedeemRoute.callRedeem at hstop ⊢
            split
            · rename_i hid
              rw [dif_pos hid] at hstop
              exact (spends_answer (.inr ⟨_, _, rfl, hstop⟩)).le
            · rename_i hid
              rw [dif_neg hid] at hstop
              exact (spends_answer (.inr ⟨_, _, rfl, hstop⟩)).le
          · exact (spends_answer (.inl ⟨_, rfl⟩)).le
      · exact (spends_answer (.inl ⟨_, rfl⟩)).le
  | resume j now =>
      have h : s.resume j now = some s' := h
      unfold RedeemRoute.resume at h
      split at h
      · cases h
      · rename_i request hj
        split at h
        · rename_i since hphase
          cases h
          exact spends_settle hj hphase hstop (.inl ⟨_, rfl⟩)
        · rename_i t since hphase
          split at h
          · cases h
            exact spends_settle hj hphase hstop (.inl ⟨_, rfl⟩)
          · cases h
            exact spends_settle hj hphase hstop (.inr ⟨_, _, _, _, rfl⟩)
          · cases h
            exact spends_settle hj hphase hstop (.inl ⟨_, rfl⟩)
          · cases h
        · cases h

/-- The account limiter stays as it is, or one unit is consumed at the time of the step. -/
theorem limiter_of_step {sha256Hex : Text → Text} {s s' : RedeemRoute} {event : RedeemEvent}
    (h : RedeemRoute.step sha256Hex s event = some s') :
    s'.redeemAccountLimiter = s.redeemAccountLimiter ∨
      ∃ key, s'.redeemAccountLimiter = (s.redeemAccountLimiter.consume key s'.clock).2 := by
  cases event with
  | db event =>
      obtain ⟨store, -, rfl⟩ := Option.map_eq_some_iff.mp h
      exact .inl rfl
  | post remoteIp body now later draws =>
      obtain rfl := Option.some.inj h
      refine .inl ?_
      unfold RedeemRoute.post
      split
      · dsimp only
        split
        · rfl
        · split
          · unfold RedeemRoute.callRedeem
            split
            · rfl
            · rfl
          · rfl
      · rfl
  | resume j now =>
      have h : s.resume j now = some s' := h
      unfold RedeemRoute.resume at h
      split at h
      · cases h
      · rename_i request hj
        split at h
        · cases h
          exact .inl rfl
        · split at h
          · cases h
            exact .inl rfl
          · cases h
            exact .inl rfl
          · cases h
            exact .inr ⟨request.body.accountId, rfl⟩
          · cases h
        · cases h

theorem clock_of_steady {sha256Hex : Text → Text} {s s' : RedeemRoute} {event : RedeemEvent}
    (hsteady : Steady s event) (h : RedeemRoute.step sha256Hex s event = some s') :
    s.clock ≤ s'.clock := by
  cases event with
  | db event =>
      obtain ⟨store, -, rfl⟩ := Option.map_eq_some_iff.mp h
      exact le_rfl
  | post remoteIp body now later draws =>
      obtain ⟨hnow, hlater, -⟩ := hsteady
      obtain rfl := Option.some.inj h
      unfold RedeemRoute.post
      split
      · dsimp only
        split
        · exact hnow
        · split
          · unfold RedeemRoute.callRedeem
            split
            · exact hnow.trans hlater
            · exact hnow.trans hlater
          · exact hnow.trans hlater
      · exact le_rfl
  | resume j now =>
      have h : s.resume j now = some s' := h
      unfold RedeemRoute.resume at h
      split at h
      · cases h
      · split at h
        · cases h
          exact hsteady.1
        · split at h
          · cases h
            exact hsteady.1
          · cases h
            exact hsteady.1
          · cases h
            exact hsteady.1
          · cases h
        · cases h

/-- A window of the limiter, under way or over, with what spends its budget: it is in the map until
it is over. -/
structure Held (limiter : RateLimiter) (key : Text) (stop : Date) (account : PgUuid)
    (s : RedeemRoute) : Prop where
  limit : s.redeemAccountLimiter.limit = limiter.limit
  windowMs : s.redeemAccountLimiter.windowMs = limiter.windowMs
  there : stop ≤ s.clock ∨ ∃ window, s.redeemAccountLimiter.windows.lookup key = some window ∧
    window.expiresAt = stop
  bound : (s.requests.countP (RedeemRequest.spends account (stop - limiter.windowMs) stop) : ℤ)
    ≤ limiter.limit

theorem Held.step {sha256Hex : Text → Text} {limiter : RateLimiter} {key : Text} {stop : Date}
    {account : PgUuid} {s s' : RedeemRoute} {event : RedeemEvent}
    (hnamed : accountNamed key = some account) (hheld : Held limiter key stop account s)
    (hs' : Budgeted s') (hsteady : Steady s event)
    (h : RedeemRoute.step sha256Hex s event = some s') : Held limiter key stop account s' := by
  have hlimiter := limiter_of_step h
  have hlimit : s'.redeemAccountLimiter.limit = limiter.limit := by
    rw [← hheld.limit]
    rcases hlimiter with heq | ⟨key', heq⟩
    · rw [heq]
    · rw [heq, RateLimiter.consume_limit]
  have hwindowMs : s'.redeemAccountLimiter.windowMs = limiter.windowMs := by
    rw [← hheld.windowMs]
    rcases hlimiter with heq | ⟨key', heq⟩
    · rw [heq]
    · rw [heq, RateLimiter.consume_windowMs]
  rcases le_or_gt stop s'.clock with hover | hlive
  · exact ⟨hlimit, hwindowMs, .inl hover,
      (Int.ofNat_le.mpr (spends_of_step h hover)).trans hheld.bound⟩
  · -- the window is still under way, so it is still in the map
    have hbefore : s.clock < stop := (clock_of_steady hsteady h).trans_lt hlive
    obtain ⟨window, hwindow, rfl⟩ := hheld.there.resolve_left (not_le.mpr hbefore)
    have hthere : ∃ window', s'.redeemAccountLimiter.windows.lookup key = some window' ∧
        window'.expiresAt = window.expiresAt := by
      rcases hlimiter with heq | ⟨key', heq⟩
      · exact ⟨window, heq ▸ hwindow, rfl⟩
      · have hcurrent : s.redeemAccountLimiter.current key s'.clock = some window :=
          RateLimiter.current_eq_some.mpr ⟨hwindow, hlive⟩
        rw [heq, RateLimiter.lookup_consume]
        split
        · rename_i hkey
          subst hkey
          refine ⟨_, rfl, ?_⟩
          simp only [RateLimiter.charged, hcurrent]
        · exact ⟨window, hcurrent, rfl⟩
    obtain ⟨window', hwindow', hstop⟩ := hthere
    refine ⟨hlimit, hwindowMs, .inr ⟨window', hwindow', hstop⟩, ?_⟩
    have hbound := hs'.spends_le hwindow' (hstop ▸ hlive) hnamed
    rwa [hstop, hlimit, hwindowMs] at hbound

/-- Every window that is in the map of a steady run is within its budget. -/
theorem held_of_run {sha256Hex : Text → Text} {rows : List Row} {limit : ℤ} {clock : Date}
    {events : List RedeemEvent} {s : RedeemRoute}
    (hsteady : Transition.Meets (RedeemRoute.step sha256Hex) Steady (.init rows limit clock) events)
    (hrun : Transition.run (RedeemRoute.step sha256Hex) (.init rows limit clock) events = some s)
    {key : Text} {window : Window} {account : PgUuid}
    (hwindow : s.redeemAccountLimiter.windows.lookup key = some window)
    (hnamed : accountNamed key = some account) :
    Held s.redeemAccountLimiter key window.expiresAt account s := by
  have hbound : Budgeted s ∧ ∀ window, s.redeemAccountLimiter.windows.lookup key = some window →
      (s.requests.countP (RedeemRequest.spends account
        (window.expiresAt - s.redeemAccountLimiter.windowMs) window.expiresAt) : ℤ)
          ≤ s.redeemAccountLimiter.limit := by
    refine Transition.run_invariant (I := fun s => Budgeted s ∧ ∀ window,
        s.redeemAccountLimiter.windows.lookup key = some window →
        (s.requests.countP (RedeemRequest.spends account
          (window.expiresAt - s.redeemAccountLimiter.windowMs) window.expiresAt) : ℤ)
            ≤ s.redeemAccountLimiter.limit) ?_ ⟨budgeted_init rows limit clock, ?_⟩ hsteady hrun
    · rintro u event v ⟨hu, hbounds⟩ hsteady hstep
      have hv := budgeted_step hu hsteady hstep
      refine ⟨hv, fun window hwindow => ?_⟩
      rcases lt_or_ge v.clock window.expiresAt with hlive | hover
      · exact hv.spends_le hwindow hlive hnamed
      · -- a window that is over was there before the step, and was not charged by it
        have hbefore : u.redeemAccountLimiter.windows.lookup key = some window ∧
            v.redeemAccountLimiter.limit = u.redeemAccountLimiter.limit ∧
            v.redeemAccountLimiter.windowMs = u.redeemAccountLimiter.windowMs := by
          rcases limiter_of_step hstep with heq | ⟨key', heq⟩
          · exact ⟨heq ▸ hwindow, by rw [heq], by rw [heq]⟩
          · rw [heq, RateLimiter.lookup_consume] at hwindow
            refine ⟨?_, by rw [heq, RateLimiter.consume_limit],
              by rw [heq, RateLimiter.consume_windowMs]⟩
            split at hwindow
            · cases hwindow
              have hcharged := RateLimiter.charged_count u.redeemAccountLimiter hu.windowMs key'
                v.clock
              exact absurd hcharged.2 (not_lt.mpr hover)
            · exact (RateLimiter.current_eq_some.mp hwindow).1
        rw [hbefore.2.1, hbefore.2.2]
        exact (Int.ofNat_le.mpr (spends_of_step hstep hover)).trans (hbounds window hbefore.1)
    · intro window h
      cases h
  exact ⟨rfl, rfl, .inr ⟨window, hwindow, rfl⟩, hbound.2 window hwindow⟩

/-- **When the failure budget bounds anonymous redemptions.**  Along every run whose steps are all
steady, whatever the database does in between, every window that the account limiter has had in any
state of the run has at most `limit` failures of its account, under any spelling and whenever they
are answered; and no redemption that succeeds spends any of it. -/
theorem withinBudget_of_steady (sha256Hex : Text → Text) (rows : List Row) (limit : ℤ)
    (clock : Date) {events : List RedeemEvent} {s : RedeemRoute}
    (hsteady : Transition.Meets (RedeemRoute.step sha256Hex) Steady (.init rows limit clock) events)
    (hrun : Transition.run (RedeemRoute.step sha256Hex) (.init rows limit clock) events = some s) :
    (∀ done, done <+: events → ∀ u,
      Transition.run (RedeemRoute.step sha256Hex) (.init rows limit clock) done = some u →
      WithinBudget u s) ∧
    ∀ j now s' request pairingId clientDeviceId agentDeviceId deviceToken,
      RedeemRoute.step sha256Hex s (.resume j now) = some s' → s'.requests[j]? = some request →
      request.phase = .created pairingId clientDeviceId agentDeviceId deviceToken →
      s'.redeemAccountLimiter = s.redeemAccountLimiter := by
  constructor
  · rintro done ⟨rest, rfl⟩ u hu key window account hwindow hnamed
    obtain ⟨hdone, hrest⟩ := Transition.meets_append hu hsteady
    obtain ⟨u', hu', hlast⟩ := Transition.run_append.mp hrun
    cases hu.symm.trans hu'
    have hheld : Budgeted s ∧
        Held u.redeemAccountLimiter key window.expiresAt account s := by
      refine Transition.run_invariant
        (I := fun s => Budgeted s ∧ Held u.redeemAccountLimiter key window.expiresAt account s) ?_
        ⟨budgeted_of_run hdone hu, held_of_run hdone hu hwindow hnamed⟩ hrest hlast
      rintro v event w ⟨hv, hheld⟩ hsteady hstep
      have hw := budgeted_step hv hsteady hstep
      exact ⟨hw, hheld.step hnamed hw hsteady hstep⟩
    refine le_trans (Int.ofNat_le.mpr ?_) hheld.2.bound
    exact List.countP_mono_left fun request _ => RedeemRequest.spends_of_failedIn
  · intro j now s' request pairingId clientDeviceId agentDeviceId deviceToken hstep hj hcreated
    exact limiter_of_created hstep hj hcreated

/-! ### On one unit of budget -/

/-- Whether a redemption that a request waits for has thrown. -/
def RedeemRoute.thrown (s : RedeemRoute) (j : ℕ) : Bool :=
  match s.requests[j]?.map RedeemRequest.phase with
  | some (.redeeming (some t) _) =>
      match s.outcome t with
      | some (.error _) => true
      | _ => false
  | _ => false

/-- Whether a step is steady is found out by going through the requests. -/
instance Steady.decidable (s : RedeemRoute) : (event : RedeemEvent) → Decidable (Steady s event)
  | .db _ => .isTrue trivial
  | .post remoteIp body now later _ =>
      inferInstanceAs (Decidable (s.clock ≤ now ∧ now ≤ later ∧
        (redeemBodySchema body = true ∧ s.ipExhausted remoteIp now = false ∧
          s.redeemAccountLimiter.check body.accountId later = true →
        isUuid body.accountId = true ∧
        (∀ request ∈ s.requests, request.letThrough = true →
          accountNamed request.body.accountId = accountNamed body.accountId →
          request.body.accountId = body.accountId) ∧
        s.redeemAccountLimiter.live body.accountId later
          + s.requests.countP (RedeemRequest.inFlight body.accountId)
            < s.redeemAccountLimiter.limit)))
  | .resume j now =>
      decidable_of_iff (s.clock ≤ now ∧ s.thrown j = false) <| by
        refine and_congr_right fun _ => ⟨fun h => ?_, fun h => ?_⟩
        · intro request t since hj hphase error houtcome
          simp [RedeemRoute.thrown, hj, hphase, houtcome] at h
        · unfold RedeemRoute.thrown
          split
          · rename_i t since hphase
            obtain ⟨request, hj, hphase⟩ := Option.map_eq_some_iff.mp hphase
            split
            · rename_i error houtcome
              exact absurd houtcome (h request t since hj hphase error)
            · rfl
          · rfl

/-- A request with a routing id that no token has. -/
def guess : RedeemBody where
  accountId := uuid0.chars
  routingId := List.replicate 64 '0'
  displayName := ['c']
  identityPublicKey := List.replicate 16 'A'
  identityAlgorithm := .p256
  noiseStaticPublicKey := List.replicate 16 'A'
  noiseStaticSignature := List.replicate 16 'A'

/-- A request comes in at `time`. -/
def posts (remoteIp : Text) (time : Date) : RedeemEvent :=
  .post remoteIp guess time time ⟨uuid2, uuid2, uuid2, uuid2, [], time, time, time⟩

/-- The database runs the redemption, and request `j` is answered at `time`. -/
def answers (j : ℕ) (time : Date) : List RedeemEvent :=
  List.replicate 4 (.db (.exec j)) ++ [.resume j time]

/-- One request fails; then three are let through before any of them is answered. -/
def burstEvents : List RedeemEvent :=
  posts ['a'] 0 :: answers 0 1 ++ [posts ['b'] 2, posts ['c'] 2, posts ['d'] 2] ++
    answers 1 3 ++ answers 2 3 ++ answers 3 3

/-- Two failures are allowed a minute.  Three requests were let through in the window that the first
failure opened, and all of them failed in it. -/
theorem budget_overrun_by_overlap : ∃ s : RedeemRoute,
    Transition.run (RedeemRoute.step id) (.init smallRelay 2 0) burstEvents = some s ∧
      s.redeemAccountLimiter.windows.lookup uuid0.chars = some ⟨4, 60001⟩ ∧
      s.requests.map RedeemRequest.phase =
        [.failed .not_found 0 1, .failed .not_found 2 3, .failed .not_found 2 3,
          .failed .not_found 2 3] ∧
      ¬WithinBudget s s := by
  have hrun : ((Transition.run (RedeemRoute.step id) (.init smallRelay 2 0) burstEvents).any
      fun s => decide (s.redeemAccountLimiter.windows.lookup uuid0.chars = some ⟨4, 60001⟩ ∧
        s.requests.map RedeemRequest.phase =
          [.failed .not_found 0 1, .failed .not_found 2 3, .failed .not_found 2 3,
            .failed .not_found 2 3] ∧
        s.redeemAccountLimiter.windowMs = 60000 ∧ s.redeemAccountLimiter.limit = 2 ∧
        s.requests.countP (RedeemRequest.failedIn uuid0 1 60001) = 4)) = true := by
    decide +kernel
  obtain ⟨s, hs, hend⟩ := (Option.any_eq_true _ _).mp hrun
  obtain ⟨hwindow, hphases, hms, hlimit, hcount⟩ := of_decide_eq_true hend
  refine ⟨s, hs, hwindow, hphases, fun h => ?_⟩
  have hbound := h uuid0.chars ⟨4, 60001⟩ uuid0 hwindow (by decide +kernel)
  rw [hms, hlimit] at hbound
  exact absurd (hcount ▸ hbound) (by decide)

/-- Two requests fail, one after the other, and a third is turned away. -/
def sequenceEvents : List RedeemEvent :=
  posts ['a'] 0 :: answers 0 1 ++ posts ['b'] 2 :: answers 1 3 ++ [posts ['c'] 4]

/-- One at a time they stay within the budget. -/
theorem withinBudget_of_steady_sequence : ∃ s : RedeemRoute,
    Transition.run (RedeemRoute.step id) (.init smallRelay 2 0) sequenceEvents = some s ∧
      s.requests.map RedeemRequest.phase =
        [.failed .not_found 0 1, .failed .not_found 2 3, .refused .rate_limited] ∧
      WithinBudget s s := by
  have hrun : ((Transition.run (RedeemRoute.step id) (.init smallRelay 2 0) sequenceEvents).any
      fun s => decide (s.requests.map RedeemRequest.phase =
        [.failed .not_found 0 1, .failed .not_found 2 3, .refused .rate_limited])) = true := by
    decide +kernel
  have hsteady : Transition.Meets (RedeemRoute.step id) Steady (.init smallRelay 2 0)
      sequenceEvents := by
    decide +kernel
  obtain ⟨s, hs, hend⟩ := (Option.any_eq_true _ _).mp hrun
  exact ⟨s, hs, of_decide_eq_true hend,
    (withinBudget_of_steady id smallRelay 2 0 hsteady hs).1 _ List.prefix_rfl s hs⟩

end Osprey.Relay
