/-
**The relay's repository.**

`relay/src/repo/`: the operations of `devices.ts`, `pairings.ts`, `pairingTokens.ts` and
`audit.ts`, statement by statement, each inside one transaction (`withTenant` in
`relay/src/db/client.ts`).  The ids and secrets an operation generates and the clock readings it
makes are an argument of it, and so is the hash function.

Main definitions:

* `Osprey.Relay.Draws` — what an operation draws from outside;
* `Osprey.Relay.issueWithinTenant`, `Osprey.Relay.redeem` — pairing tokens;
* `Osprey.Relay.authenticate`, `Osprey.Relay.touchLastSeen`, `Osprey.Relay.list`,
  `Osprey.Relay.revokeDevice` — devices;
* `Osprey.Relay.peerIsPaired`, `Osprey.Relay.revokePairing` — pairings;
* `Osprey.Relay.Call`, `Osprey.Relay.program` — the transactions of the relay.

Main results:

* `Osprey.Relay.redeem_ensures` — **what a redemption has done when it ends**, for each of its
  answers;
* `Osprey.Relay.program_ensures` — what each transaction writes.
-/

import Osprey.RelayDb

set_option relaxedAutoImplicit false
set_option autoImplicit false

namespace Osprey.Relay

open Transactions

/-! ### Inputs and results -/

/-- What an operation draws from outside: the ids and the secret it generates, its first and its
second reading of the clock, and PostgreSQL's `now()`. -/
structure Draws where
  auditId : PgUuid
  tokenId : PgUuid
  clientDeviceId : PgUuid
  pairingId : PgUuid
  secret : Text
  now : Date
  later : Date
  txNow : Date
  deriving DecidableEq

structure IssueTokenInput where
  agentDeviceId : UuidText
  routingId : Text
  ttlSeconds : ℤ
  remoteIp : Option Text
  deriving DecidableEq

inductive IssueTokenResult
  | issued (tokenId : PgUuid) (expiresAt : Date)
  | rateLimited
  | routingIdTaken
  deriving DecidableEq

structure RedeemInput where
  routingId : Text
  displayName : Text
  identityPublicKey : Text
  identityAlgorithm : IdentityAlgorithm
  noiseStaticPublicKey : Text
  noiseStaticSignature : Text
  remoteIp : Option Text
  deriving DecidableEq

inductive RedeemResult
  | ok (pairingId clientDeviceId agentDeviceId : PgUuid) (deviceToken : Text)
  | unknownToken
  | agentRevoked
  | quotaExceeded
  deriving DecidableEq

structure AuthenticatedDevice where
  accountId : UuidText
  deviceId : PgUuid
  kind : DeviceKind
  deriving DecidableEq

structure DeviceSummary where
  id : PgUuid
  kind : DeviceKind
  displayName : Text
  identityPublicKey : Text
  identityAlgorithm : IdentityAlgorithm
  noiseStaticPublicKey : Text
  createdAt : Date
  lastSeenAt : Option Date
  deriving DecidableEq

/-- Who asks for a revocation. -/
structure Actor where
  deviceId : UuidText
  kind : DeviceKind
  remoteIp : Option Text
  deriving DecidableEq

/-! ### Predicates and assignments of the statements -/

/-- An unused, unexpired token of the account with the routing id. -/
def claimable (accountId : PgUuid) (routingId : Text) (now : Date) : Row → Bool :=
  Row.among Row.token? fun token =>
    token.accountId = accountId ∧ token.routingId = routingId ∧ token.used = false ∧
      now < token.expiresAt

def tokenOf (accountId : PgUuid) (routingId : Text) : Row → Bool :=
  Row.among Row.token? fun token => token.accountId = accountId ∧ token.routingId = routingId

/-- A token of the account created since. -/
def tokenSince (accountId : PgUuid) (since : Date) : Row → Bool :=
  Row.among Row.token? fun token => token.accountId = accountId ∧ since ≤ token.createdAt

def quotaOf (accountId : PgUuid) : Row → Bool :=
  Row.among Row.quota? fun quota => quota.accountId = accountId

def activeDevices (accountId : PgUuid) : Row → Bool :=
  Row.among Row.device? fun device => device.accountId = accountId ∧ device.revokedAt = none

def activeDevice (accountId id : PgUuid) : Row → Bool :=
  Row.among Row.device? fun device =>
    device.accountId = accountId ∧ device.id = id ∧ device.revokedAt = none

def deviceOf (accountId id : PgUuid) : Row → Bool :=
  Row.among Row.device? fun device => device.accountId = accountId ∧ device.id = id

/-- An unrevoked pairing of the account that the device is part of. -/
def livePairingOf (accountId deviceId : PgUuid) : Row → Bool :=
  Row.among Row.pairing? fun pairing =>
    pairing.accountId = accountId ∧
      (pairing.agentDeviceId = deviceId ∨ pairing.clientDeviceId = deviceId) ∧
      pairing.revokedAt = none

/-- An unrevoked pairing of the account that joins the two devices, either way round. -/
def livePairingBetween (accountId deviceId peerDeviceId : PgUuid) : Row → Bool :=
  Row.among Row.pairing? fun pairing =>
    pairing.accountId = accountId ∧ pairing.revokedAt = none ∧
      (pairing.agentDeviceId = deviceId ∧ pairing.clientDeviceId = peerDeviceId ∨
        pairing.clientDeviceId = deviceId ∧ pairing.agentDeviceId = peerDeviceId)

def livePairing (accountId id actorId : PgUuid) : Row → Bool :=
  Row.among Row.pairing? fun pairing =>
    pairing.accountId = accountId ∧ pairing.id = id ∧ pairing.revokedAt = none ∧
      (pairing.agentDeviceId = actorId ∨ pairing.clientDeviceId = actorId)

def setUsed (now : Date) : Assignment schema where
  apply
    | .token token => .token { token with used := true, usedAt := some now }
    | row => row
  columns_apply row := by
    cases row <;> exact columns_eq rfl (fun index => by cases index <;> rfl) rfl

def setLastSeen (now : Date) : Assignment schema where
  apply
    | .device device => .device { device with lastSeenAt := some now }
    | row => row
  columns_apply row := by
    cases row <;> exact columns_eq rfl (fun index => by cases index <;> rfl) rfl

def setDeviceRevoked (now : Date) : Assignment schema where
  apply
    | .device device => .device { device with revokedAt := some now }
    | row => row
  columns_apply row := by
    cases row <;> exact columns_eq rfl (fun index => by cases index <;> rfl) rfl

def setPairingRevoked (now : Date) (revokedBy : DeviceKind) : Assignment schema where
  apply
    | .pairing pairing =>
        .pairing { pairing with revokedAt := some now, revokedBy := some revokedBy }
    | row => row
  columns_apply row := by
    cases row <;> exact columns_eq rfl (fun index => by cases index <;> rfl) rfl

/-- The first row of a result. -/
def first {α : Type} (table : Row → Option α) (rows : List Row) : Option α :=
  (rows.filterMap table).head?

/-! ### Audit -/

def auditRow (draws : Draws) (accountId : UuidText) (event : AuditEvent)
    (deviceId : Option PgUuid) (remoteIp : Option Text) : AuditRow where
  id := draws.auditId
  accountId := accountId.value
  deviceId := deviceId
  event := event
  remoteIp := remoteIp
  createdAt := draws.txNow

def insertAudit (draws : Draws) (accountId : UuidText) (event : AuditEvent)
    (deviceId : Option PgUuid) (remoteIp : Option Text) : Tx schema Unit :=
  Tx.add (.audit (auditRow draws accountId event deviceId remoteIp))

/-! ### Pairing tokens -/

def issueWithinTenant (draws : Draws) (accountId : UuidText) (input : IssueTokenInput) :
    Tx schema IssueTokenResult := do
  let quota ← Tx.query (quotaOf accountId.value)
  let perHour := ((first Row.quota? quota).map QuotaRow.maxPairingAttemptsPerHour).getD 0
  let recent ← Tx.query (tokenSince accountId.value (draws.now - 3600000))
  if (recent.length : ℤ) ≥ perHour then
    insertAudit draws accountId (.rateLimited recent.length perHour)
      (some input.agentDeviceId.value) input.remoteIp
    return .rateLimited
  let expiresAt := draws.later + input.ttlSeconds * 1000
  Tx.add (.token
    { id := draws.tokenId
      accountId := accountId.value
      agentDeviceId := input.agentDeviceId.value
      routingId := input.routingId
      createdAt := draws.txNow
      expiresAt
      used := false
      usedAt := none })
  insertAudit draws accountId (.tokenIssued draws.tokenId input.ttlSeconds)
    (some input.agentDeviceId.value) input.remoteIp
  return .issued draws.tokenId expiresAt

/-- The claim has missed: a routing id that is there all the same is audited. -/
def redeemMiss (draws : Draws) (accountId : UuidText) (input : RedeemInput) :
    Tx schema RedeemResult := do
  let existing ← Tx.query (tokenOf accountId.value input.routingId)
  match first Row.token? existing with
  | none => return .unknownToken
  | some existing =>
      insertAudit draws accountId
        (if existing.used then .tokenAlreadyUsed existing.id else .tokenExpired existing.id)
        none input.remoteIp
      return .unknownToken

/-- The client device a redemption registers. -/
def clientDevice (sha256Hex : Text → Text) (draws : Draws) (accountId : UuidText)
    (input : RedeemInput) : DeviceRow where
  id := draws.clientDeviceId
  accountId := accountId.value
  kind := .client
  displayName := input.displayName
  identityPublicKey := input.identityPublicKey
  identityAlgorithm := input.identityAlgorithm
  noiseStaticPublicKey := input.noiseStaticPublicKey
  noiseStaticSignature := input.noiseStaticSignature
  authTokenHash := (mintDeviceToken sha256Hex accountId draws.secret).2
  createdAt := draws.txNow
  lastSeenAt := none
  revokedAt := none

/-- The pairing a redemption makes between the agent and the new client. -/
def newPairing (draws : Draws) (accountId : UuidText) (input : RedeemInput) (agent : DeviceRow) :
    PairingRow where
  id := draws.pairingId
  accountId := accountId.value
  agentDeviceId := agent.id
  clientDeviceId := draws.clientDeviceId
  agentNoiseStaticPublicKey := agent.noiseStaticPublicKey
  agentNoiseStaticSignature := agent.noiseStaticSignature
  clientNoiseStaticPublicKey := input.noiseStaticPublicKey
  clientNoiseStaticSignature := input.noiseStaticSignature
  createdAt := draws.txNow
  revokedAt := none
  revokedBy := none

/-- The claim has taken `token`. -/
def redeemClaimed (sha256Hex : Text → Text) (draws : Draws) (accountId : UuidText)
    (input : RedeemInput) (token : PairingTokenRow) : Tx schema RedeemResult := do
  let agents ← Tx.query (activeDevice accountId.value token.agentDeviceId)
  match first Row.device? agents with
  | none =>
      insertAudit draws accountId (.agentDeviceRevoked token.id) none input.remoteIp
      return .agentRevoked
  | some agent =>
      let quota ← Tx.query (quotaOf accountId.value)
      let maxDevices := ((first Row.quota? quota).map QuotaRow.maxDevices).getD 0
      let active ← Tx.query (activeDevices accountId.value)
      if (active.length : ℤ) ≥ maxDevices then
        insertAudit draws accountId (.deviceQuotaExceeded maxDevices) none input.remoteIp
        return .quotaExceeded
      Tx.add (.device (clientDevice sha256Hex draws accountId input))
      Tx.add (.pairing (newPairing draws accountId input agent))
      insertAudit draws accountId (.pairingSucceeded draws.pairingId agent.id token.id)
        (some draws.clientDeviceId) input.remoteIp
      return .ok draws.pairingId draws.clientDeviceId agent.id
        (mintDeviceToken sha256Hex accountId draws.secret).1

def redeem (sha256Hex : Text → Text) (draws : Draws) (accountId : UuidText) (input : RedeemInput) :
    Tx schema RedeemResult := do
  let claimed ← Tx.modify (claimable accountId.value input.routingId draws.now)
    (setUsed draws.now)
  match first Row.token? claimed with
  | none => redeemMiss draws accountId input
  | some token => redeemClaimed sha256Hex draws accountId input token

/-! ### Devices -/

def hexValue (c : Char) : Option ℕ :=
  (HEX_DIGITS.idxOf? c).map fun i => if i < 16 then i else i - 6

/-- `Buffer.from(text, 'hex')`: pairs of digits, up to the first that is not one. -/
def bufferFromHex : Text → List ℕ
  | high :: low :: rest =>
      match hexValue high, hexValue low with
      | some x, some y => (16 * x + y) :: bufferFromHex rest
      | _, _ => []
  | _ => []

def digestsEqual (a b : Text) : Bool :=
  a.length = b.length && bufferFromHex a = bufferFromHex b

/-- The device of the account that the presented hash belongs to, under the account id as it was
spelled. -/
def authenticate (accountId : UuidText) (secretHash : Text) :
    Tx schema (Option AuthenticatedDevice) := do
  let rows ← Tx.query (activeDevices accountId.value)
  return ((rows.filterMap Row.device?).find? fun device =>
    digestsEqual device.authTokenHash secretHash).map fun device =>
      ⟨accountId, device.id, device.kind⟩

def touchLastSeen (draws : Draws) (accountId deviceId : UuidText) : Tx schema Unit := do
  let _ ← Tx.modify (deviceOf accountId.value deviceId.value) (setLastSeen draws.now)

def DeviceRow.summary (device : DeviceRow) : DeviceSummary where
  id := device.id
  kind := device.kind
  displayName := device.displayName
  identityPublicKey := device.identityPublicKey
  identityAlgorithm := device.identityAlgorithm
  noiseStaticPublicKey := device.noiseStaticPublicKey
  createdAt := device.createdAt
  lastSeenAt := device.lastSeenAt

def list (accountId : UuidText) : Tx schema (List DeviceSummary) := do
  let rows ← Tx.query (activeDevices accountId.value)
  return ((rows.filterMap Row.device?).mergeSort fun a b => a.createdAt ≤ b.createdAt).map
    DeviceRow.summary

/-- `devices.revoke`. -/
def revokeDevice (draws : Draws) (accountId deviceId : UuidText) (actor : Actor) :
    Tx schema Bool := do
  let revoked ← Tx.modify (activeDevice accountId.value deviceId.value)
    (setDeviceRevoked draws.now)
  if revoked.isEmpty then return false
  let _ ← Tx.modify (livePairingOf accountId.value deviceId.value)
    (setPairingRevoked draws.now .agent)
  insertAudit draws accountId
    (.deviceRevoked actor.deviceId ((first Row.device? revoked).map DeviceRow.kind))
    (some deviceId.value) actor.remoteIp
  return true

/-! ### Pairings -/

def peerIsPaired (accountId deviceId peerDeviceId : UuidText) : Tx schema Bool := do
  let rows ← Tx.query (livePairingBetween accountId.value deviceId.value peerDeviceId.value)
  return (rows.take 1).length > 0

/-- `pairings.revoke`. -/
def revokePairing (draws : Draws) (accountId pairingId : UuidText) (actor : Actor) :
    Tx schema Bool := do
  let revoked ← Tx.modify (livePairing accountId.value pairingId.value actor.deviceId.value)
    (setPairingRevoked draws.now actor.kind)
  match first Row.pairing? revoked with
  | none => return false
  | some row =>
      insertAudit draws accountId
        (.pairingRevoked pairingId actor.kind row.agentDeviceId row.clientDeviceId)
        (some actor.deviceId.value) actor.remoteIp
      return true

/-! ### The transactions of the relay -/

/-- A call of the repository, with what it draws. -/
inductive Call
  | issue (draws : Draws) (accountId : UuidText) (input : IssueTokenInput)
  | redeem (draws : Draws) (accountId : UuidText) (input : RedeemInput)
  | authenticate (accountId : UuidText) (secretHash : Text)
  | touchLastSeen (draws : Draws) (accountId deviceId : UuidText)
  | list (accountId : UuidText)
  | revokeDevice (draws : Draws) (accountId deviceId : UuidText) (actor : Actor)
  | peerIsPaired (accountId deviceId peerDeviceId : UuidText)
  | revokePairing (draws : Draws) (accountId pairingId : UuidText) (actor : Actor)
  | record (draws : Draws) (accountId : UuidText) (event : AuditEvent)
      (deviceId : Option PgUuid) (remoteIp : Option Text)

/-- What a call's transaction answers. -/
inductive Answer
  | issue (result : IssueTokenResult)
  | redeem (result : RedeemResult)
  | authenticate (device : Option AuthenticatedDevice)
  | list (devices : List DeviceSummary)
  | revoke (revoked : Bool)
  | peerIsPaired (paired : Bool)
  | done
  deriving DecidableEq

/-- The transaction of a call. -/
def program (sha256Hex : Text → Text) : Call → Tx schema Answer
  | .issue draws accountId input => do
      return .issue (← issueWithinTenant draws accountId input)
  | .redeem draws accountId input => do
      return .redeem (← redeem sha256Hex draws accountId input)
  | .authenticate accountId secretHash => do
      return .authenticate (← authenticate accountId secretHash)
  | .touchLastSeen draws accountId deviceId => do
      touchLastSeen draws accountId deviceId
      return .done
  | .list accountId => do
      return .list (← list accountId)
  | .revokeDevice draws accountId deviceId actor => do
      return .revoke (← revokeDevice draws accountId deviceId actor)
  | .peerIsPaired accountId deviceId peerDeviceId => do
      return .peerIsPaired (← peerIsPaired accountId deviceId peerDeviceId)
  | .revokePairing draws accountId pairingId actor => do
      return .revoke (← revokePairing draws accountId pairingId actor)
  | .record draws accountId event deviceId remoteIp => do
      insertAudit draws accountId event deviceId remoteIp
      return .done

/-! ### What a transaction leaves alone -/

/-- The columns of a row that no statement changes. -/
def Row.frozen : Row → Row
  | .token row => .token { row with used := false, usedAt := none }
  | .device row => .device { row with lastSeenAt := none, revokedAt := none }
  | .pairing row => .pairing { row with revokedAt := none, revokedBy := none }
  | row => row

/-- A used token, a revoked device or a revoked pairing. -/
def Row.ended : Row → Bool
  | .token row => row.used
  | .device row => row.revokedAt.isSome
  | .pairing row => row.revokedAt.isSome
  | _ => false

/-- What every update keeps: the frozen columns, and that a row has ended. -/
def RowKept (old new : Row) : Prop :=
  new.frozen = old.frozen ∧ (old.ended = true → new.ended = true)

theorem RowKept.refl (row : Row) : RowKept row row := ⟨rfl, id⟩

theorem RowKept.trans (a b c : Row) (hab : RowKept a b) (hbc : RowKept b c) : RowKept a c :=
  ⟨hbc.1.trans hab.1, hbc.2 ∘ hab.2⟩

theorem setUsed_kept (now : Date) (row : Row) : RowKept row ((setUsed now).apply row) := by
  cases row <;> simp [RowKept, setUsed, Row.frozen, Row.ended]

theorem setLastSeen_kept (now : Date) (row : Row) : RowKept row ((setLastSeen now).apply row) := by
  cases row <;> simp [RowKept, setLastSeen, Row.frozen, Row.ended]

theorem setDeviceRevoked_kept (now : Date) (row : Row) :
    RowKept row ((setDeviceRevoked now).apply row) := by
  cases row <;> simp [RowKept, setDeviceRevoked, Row.frozen, Row.ended]

theorem setPairingRevoked_kept (now : Date) (revokedBy : DeviceKind) (row : Row) :
    RowKept row ((setPairingRevoked now revokedBy).apply row) := by
  cases row <;> simp [RowKept, setPairingRevoked, Row.frozen, Row.ended]

/-- A row that goes on from a token is that token, but for its use. -/
theorem frozen_token {row : Row} {token : PairingTokenRow}
    (h : row.frozen = (Row.token token).frozen) :
    ∃ token', row = .token token' ∧ token'.id = token.id ∧
      token'.accountId = token.accountId ∧ token'.agentDeviceId = token.agentDeviceId ∧
      token'.routingId = token.routingId ∧ token'.expiresAt = token.expiresAt := by
  cases row with
  | token token' =>
      simp only [Row.frozen, Row.token.injEq, PairingTokenRow.mk.injEq] at h
      exact ⟨token', rfl, h.1, h.2.1, h.2.2.1, h.2.2.2.1, h.2.2.2.2.2.1⟩
  | account | device | pairing | quota | audit => simp [Row.frozen] at h

/-- A row that goes on from a device is that device, but for when it was seen and revoked. -/
theorem frozen_device {row : Row} {device : DeviceRow}
    (h : row.frozen = (Row.device device).frozen) :
    ∃ device', row = .device device' ∧ device'.id = device.id ∧
      device'.accountId = device.accountId := by
  cases row with
  | device device' =>
      simp only [Row.frozen, Row.device.injEq, DeviceRow.mk.injEq] at h
      exact ⟨device', rfl, h.1, h.2.1⟩
  | account | token | pairing | quota | audit => simp [Row.frozen] at h

/-! ### What a transaction has done when it ends -/

/-- A token that an issue inserts is the one it answers with, for the account and the agent it was
called with. -/
theorem issueWithinTenant_ensures (draws : Draws) (accountId : UuidText)
    (input : IssueTokenInput) :
    (issueWithinTenant draws accountId input).Ensures (fun log result =>
      ∀ token, .token token ∈ added log → result = .issued token.id token.expiresAt ∧
        token.accountId = accountId.value ∧ token.agentDeviceId = input.agentDeviceId.value ∧
        token.routingId = input.routingId) [] := by
  simp only [issueWithinTenant, Tx.ensures_bind, Tx.ensures_query]
  intro quota _ recent _
  split
  · simp [insertAudit]
  · simp only [insertAudit, Tx.ensures_bind, Tx.ensures_add, Tx.ensures_pure]
    intro token htoken
    obtain rfl : token = _ := by simpa using htoken
    exact ⟨rfl, rfl, rfl, rfl⟩

theorem claimable_eq_true {accountId : PgUuid} {routingId : Text} {now : Date} {row : Row} :
    claimable accountId routingId now row = true ↔ ∃ token, row = .token token ∧
      token.accountId = accountId ∧ token.routingId = routingId ∧ token.used = false ∧
      now < token.expiresAt := by
  simp only [claimable, Row.among_eq_true, Row.token?_eq_some, decide_eq_true_eq]

theorem activeDevice_eq_true {accountId id : PgUuid} {row : Row} :
    activeDevice accountId id row = true ↔ ∃ device, row = .device device ∧
      device.accountId = accountId ∧ device.id = id ∧ device.revokedAt = none := by
  simp only [activeDevice, Row.among_eq_true, Row.device?_eq_some, decide_eq_true_eq]

theorem deviceOf_eq_true {accountId id : PgUuid} {row : Row} :
    deviceOf accountId id row = true ↔ ∃ device, row = .device device ∧
      device.accountId = accountId ∧ device.id = id := by
  simp only [deviceOf, Row.among_eq_true, Row.device?_eq_some, decide_eq_true_eq]

theorem livePairingOf_eq_true {accountId deviceId : PgUuid} {row : Row} :
    livePairingOf accountId deviceId row = true ↔ ∃ pairing, row = .pairing pairing ∧
      pairing.accountId = accountId ∧
      (pairing.agentDeviceId = deviceId ∨ pairing.clientDeviceId = deviceId) ∧
      pairing.revokedAt = none := by
  simp only [livePairingOf, Row.among_eq_true, Row.pairing?_eq_some, decide_eq_true_eq]

theorem livePairing_eq_true {accountId id actorId : PgUuid} {row : Row} :
    livePairing accountId id actorId row = true ↔ ∃ pairing, row = .pairing pairing ∧
      pairing.accountId = accountId ∧ pairing.id = id ∧ pairing.revokedAt = none ∧
      (pairing.agentDeviceId = actorId ∨ pairing.clientDeviceId = actorId) := by
  simp only [livePairing, Row.among_eq_true, Row.pairing?_eq_some, decide_eq_true_eq]

/-- The first row of a result is one of its rows. -/
theorem mem_of_first {α : Type} {table : Row → Option α} {rows : List Row} {value : α}
    (h : first table rows = some value) : ∃ row ∈ rows, table row = some value :=
  List.mem_filterMap.mp (List.mem_of_head? h)

/-- What a redemption that answered `ok` has done: it took an unused, unexpired token of the account
with the routing id as its first access, read the unrevoked agent of the token next, and inserted
the client device and its pairing with that agent. -/
def Redeemed (sha256Hex : Text → Text) (draws : Draws) (accountId : UuidText)
    (input : RedeemInput) (log : List (Access Row)) (agentDeviceId : PgUuid) : Prop :=
  ∃ (token : PairingTokenRow) (claimed agents : List Row) (agent : DeviceRow)
    (after : List (Access Row)) (audit : AuditRow),
    log = ((.token token :: claimed).map fun row => .updated row ((setUsed draws.now).apply row)) ++
      .selected (activeDevice accountId.value token.agentDeviceId) agents :: after ∧
    (∀ row ∈ .token token :: claimed,
      claimable accountId.value input.routingId draws.now row = true) ∧
    .device agent ∈ agents ∧ agent.id = token.agentDeviceId ∧ agentDeviceId = agent.id ∧
    (∀ old new, .updated old new ∉ after) ∧
    added log = [.device (clientDevice sha256Hex draws accountId input),
      .pairing (newPairing draws accountId input agent), .audit audit]

/-- The first row a claim has taken, before and after. -/
theorem first_claimed {accountId : PgUuid} {routingId : Text} {now : Date} {claimed : List Row}
    (hclaimed : ∀ row ∈ claimed, claimable accountId routingId now row = true)
    {token' : PairingTokenRow}
    (h : first Row.token? (claimed.map (setUsed now).apply) = some token') :
    ∃ token rest, claimed = .token token :: rest ∧
      token' = { token with used := true, usedAt := some now } := by
  cases claimed with
  | nil => simp [first] at h
  | cons row rest =>
      obtain ⟨token, rfl, -⟩ := claimable_eq_true.mp (hclaimed row (List.mem_cons_self ..))
      refine ⟨token, rest, rfl, ?_⟩
      simpa [first, setUsed, Row.token?, eq_comm] using h

/-- A redemption that has not answered `ok` has inserted audit rows only. -/
def OnlyAudits (log : List (Access Row)) : Prop := ∀ row ∈ added log, ∃ audit, row = .audit audit

theorem redeemMiss_ensures (draws : Draws) (accountId : UuidText) (input : RedeemInput)
    {log : List (Access Row)} (hlog : added log = []) :
    (redeemMiss draws accountId input).Ensures
      (fun log result => result = .unknownToken ∧ OnlyAudits log) log := by
  simp only [redeemMiss, Tx.ensures_bind, Tx.ensures_query]
  intro existing _
  split
  · simp [OnlyAudits, hlog]
  · simp [insertAudit, OnlyAudits, hlog]

/-- What a redemption has done, by its answer. -/
def RedeemDone (sha256Hex : Text → Text) (draws : Draws) (accountId : UuidText)
    (input : RedeemInput) (log : List (Access Row)) : RedeemResult → Prop
  | .ok pairingId clientDeviceId agentDeviceId _ =>
      pairingId = draws.pairingId ∧ clientDeviceId = draws.clientDeviceId ∧
        Redeemed sha256Hex draws accountId input log agentDeviceId
  | _ => OnlyAudits log

theorem redeemClaimed_ensures (sha256Hex : Text → Text) (draws : Draws) (accountId : UuidText)
    (input : RedeemInput) {token : PairingTokenRow} {claimed : List Row}
    (hclaimed : ∀ row ∈ .token token :: claimed,
      claimable accountId.value input.routingId draws.now row = true) {token' : PairingTokenRow}
    (htoken' : token'.agentDeviceId = token.agentDeviceId) :
    (redeemClaimed sha256Hex draws accountId input token').Ensures
      (RedeemDone sha256Hex draws accountId input)
      ((.token token :: claimed).map fun row => .updated row ((setUsed draws.now).apply row)) := by
  simp only [redeemClaimed, Tx.ensures_bind, Tx.ensures_query]
  intro agents hagents
  split
  · simp [insertAudit, RedeemDone, OnlyAudits]
  · rename_i agent hagent
    obtain ⟨row, hrow, hdevice⟩ := mem_of_first hagent
    rw [Row.device?_eq_some] at hdevice
    subst hdevice
    obtain ⟨device, heq, -, hid, -⟩ := activeDevice_eq_true.mp (hagents _ hrow)
    cases heq
    simp only [Tx.ensures_bind, Tx.ensures_query]
    intro quota _ active _
    split
    · simp [insertAudit, RedeemDone, OnlyAudits]
    · simp only [insertAudit, Tx.ensures_bind, Tx.ensures_add, Tx.ensures_pure, RedeemDone]
      let audit := auditRow draws accountId (.pairingSucceeded draws.pairingId agent.id token'.id)
        (some draws.clientDeviceId) input.remoteIp
      refine ⟨trivial, trivial, token, claimed, agents, agent,
        [.selected (quotaOf accountId.value) quota,
          .selected (activeDevices accountId.value) active,
          .inserted (.device (clientDevice sha256Hex draws accountId input)),
          .inserted (.pairing (newPairing draws accountId input agent)),
          .inserted (.audit audit)], audit, ?_, hclaimed, hrow, hid.trans htoken', rfl, ?_, ?_⟩
      · simp only [htoken', List.append_assoc, List.cons_append, List.nil_append]
        rfl
      · simp
      · simp [audit]

/-- **What a redemption has done when it ends**, for each of its answers. -/
theorem redeem_ensures (sha256Hex : Text → Text) (draws : Draws) (accountId : UuidText)
    (input : RedeemInput) :
    (redeem sha256Hex draws accountId input).Ensures
      (RedeemDone sha256Hex draws accountId input) [] := by
  simp only [redeem, Tx.ensures_bind, Tx.ensures_modify, List.nil_append]
  intro claimed hclaimed
  split
  · refine (redeemMiss_ensures draws accountId input (by simp)).mono ?_
    rintro log result ⟨rfl, hlog⟩
    exact hlog
  · rename_i token' htoken'
    obtain ⟨token, rest, rfl, rfl⟩ := first_claimed hclaimed htoken'
    exact redeemClaimed_ensures sha256Hex draws accountId input hclaimed rfl

/-- What a device revocation has done, by its answer: nothing, or it has revoked the device
first. -/
def RevokeDone (draws : Draws) (accountId deviceId : UuidText) (log : List (Access Row)) :
    Bool → Prop
  | false => log = []
  | true => ∃ (device : Row) (after : List (Access Row)),
      log = .updated device ((setDeviceRevoked draws.now).apply device) :: after ∧
      activeDevice accountId.value deviceId.value device = true

theorem revokeDevice_ensures (draws : Draws) (accountId deviceId : UuidText) (actor : Actor) :
    (revokeDevice draws accountId deviceId actor).Ensures
      (RevokeDone draws accountId deviceId) [] := by
  simp only [revokeDevice, Tx.ensures_bind, Tx.ensures_modify]
  intro devices hdevices
  cases devices with
  | nil => simp [RevokeDone]
  | cons device devices =>
      simp only [List.map_cons, List.isEmpty_cons, Bool.false_eq_true, if_false, Tx.ensures_bind,
        Tx.ensures_modify, insertAudit, Tx.ensures_add, Tx.ensures_pure]
      intro pairings _
      exact ⟨device, _, rfl, hdevices device (List.mem_cons_self ..)⟩

/-- A transaction inserts rows of the tables it is there for. -/
def Call.Inserts : Call → Row → Prop
  | .issue .., .token _ => True
  | .redeem .., .device _ => True
  | .redeem .., .pairing _ => True
  | _, .audit _ => True
  | _, _ => False

/-- The updates a transaction can make. -/
def Call.Updates : Call → Row → Row → Prop
  | .redeem draws accountId input, old, new =>
      claimable accountId.value input.routingId draws.now old = true ∧
        new = (setUsed draws.now).apply old
  | .touchLastSeen draws accountId deviceId, old, new =>
      deviceOf accountId.value deviceId.value old = true ∧ new = (setLastSeen draws.now).apply old
  | .revokeDevice draws accountId deviceId _, old, new =>
      activeDevice accountId.value deviceId.value old = true ∧
        new = (setDeviceRevoked draws.now).apply old ∨
      livePairingOf accountId.value deviceId.value old = true ∧
        new = (setPairingRevoked draws.now .agent).apply old
  | .revokePairing draws accountId pairingId actor, old, new =>
      livePairing accountId.value pairingId.value actor.deviceId.value old = true ∧
        new = (setPairingRevoked draws.now actor.kind).apply old
  | _, _, _ => False

/-- An access that a transaction of the call can make. -/
def Call.Makes (call : Call) : Access Row → Prop
  | .selected _ _ => True
  | .updated old new => call.Updates old new
  | .inserted new => call.Inserts new

theorem Call.Makes.updates {call : Call} {old new : Row} (h : call.Makes (.updated old new)) :
    call.Updates old new := h

/-- Every update keeps what updates keep. -/
theorem Call.Updates.kept {call : Call} {old new : Row} (h : call.Updates old new) :
    RowKept old new := by
  cases call with
  | redeem draws accountId input =>
      obtain ⟨-, rfl⟩ := h
      exact setUsed_kept draws.now old
  | touchLastSeen draws accountId deviceId =>
      obtain ⟨-, rfl⟩ := h
      exact setLastSeen_kept draws.now old
  | revokeDevice draws accountId deviceId actor =>
      rcases h with ⟨-, rfl⟩ | ⟨-, rfl⟩
      · exact setDeviceRevoked_kept draws.now old
      · exact setPairingRevoked_kept draws.now .agent old
  | revokePairing draws accountId pairingId actor =>
      obtain ⟨-, rfl⟩ := h
      exact setPairingRevoked_kept draws.now actor.kind old
  | issue | authenticate | list | peerIsPaired | record => exact h.elim

theorem redeem_accesses (sha256Hex : Text → Text) (draws : Draws) (accountId : UuidText)
    (input : RedeemInput) : (redeem sha256Hex draws accountId input).Accesses
      (Call.redeem draws accountId input).Makes := by
  refine Tx.accesses_bind (Tx.accesses_modify fun row hrow => ⟨hrow, rfl⟩) ?_
  intro claimed
  split
  · refine Tx.accesses_bind (Tx.accesses_query fun _ => trivial) fun existing => ?_
    split
    · exact Tx.accesses_pure _
    · exact Tx.accesses_bind (Tx.accesses_add trivial) fun _ => Tx.accesses_pure _
  · refine Tx.accesses_bind (Tx.accesses_query fun _ => trivial) fun agents => ?_
    split
    · exact Tx.accesses_bind (Tx.accesses_add trivial) fun _ => Tx.accesses_pure _
    · refine Tx.accesses_bind (Tx.accesses_query fun _ => trivial) fun quota => ?_
      refine Tx.accesses_bind (Tx.accesses_query fun _ => trivial) fun active => ?_
      split
      · exact Tx.accesses_bind (Tx.accesses_add trivial) fun _ => Tx.accesses_pure _
      · refine Tx.accesses_bind (Tx.accesses_add trivial) fun _ => ?_
        refine Tx.accesses_bind (Tx.accesses_add trivial) fun _ => ?_
        exact Tx.accesses_bind (Tx.accesses_add trivial) fun _ => Tx.accesses_pure _

theorem issueWithinTenant_accesses (draws : Draws) (accountId : UuidText)
    (input : IssueTokenInput) : (issueWithinTenant draws accountId input).Accesses
      (Call.issue draws accountId input).Makes := by
  refine Tx.accesses_bind (Tx.accesses_query fun _ => trivial) fun quota => ?_
  refine Tx.accesses_bind (Tx.accesses_query fun _ => trivial) fun recent => ?_
  split
  · exact Tx.accesses_bind (Tx.accesses_add trivial) fun _ => Tx.accesses_pure _
  · refine Tx.accesses_bind (Tx.accesses_add trivial) fun _ => ?_
    exact Tx.accesses_bind (Tx.accesses_add trivial) fun _ => Tx.accesses_pure _

theorem revokeDevice_accesses (draws : Draws) (accountId deviceId : UuidText) (actor : Actor) :
    (revokeDevice draws accountId deviceId actor).Accesses
      (Call.revokeDevice draws accountId deviceId actor).Makes := by
  refine Tx.accesses_bind (Tx.accesses_modify fun row hrow => .inl ⟨hrow, rfl⟩) ?_
  intro revoked
  split
  · exact Tx.accesses_pure _
  · refine Tx.accesses_bind (Tx.accesses_modify fun row hrow => .inr ⟨hrow, rfl⟩) fun _ => ?_
    exact Tx.accesses_bind (Tx.accesses_add trivial) fun _ => Tx.accesses_pure _

theorem revokePairing_accesses (draws : Draws) (accountId pairingId : UuidText) (actor : Actor) :
    (revokePairing draws accountId pairingId actor).Accesses
      (Call.revokePairing draws accountId pairingId actor).Makes := by
  refine Tx.accesses_bind (Tx.accesses_modify fun row hrow => ⟨hrow, rfl⟩) ?_
  intro revoked
  split
  · exact Tx.accesses_pure _
  · exact Tx.accesses_bind (Tx.accesses_add trivial) fun _ => Tx.accesses_pure _

/-- **What each transaction writes.** -/
theorem program_accesses (sha256Hex : Text → Text) (call : Call) :
    (program sha256Hex call).Accesses call.Makes := by
  cases call with
  | issue draws accountId input =>
      exact Tx.accesses_bind (issueWithinTenant_accesses draws accountId input) fun _ =>
        Tx.accesses_pure _
  | redeem draws accountId input =>
      exact Tx.accesses_bind (redeem_accesses sha256Hex draws accountId input) fun _ =>
        Tx.accesses_pure _
  | authenticate accountId secretHash =>
      refine Tx.accesses_bind ?_ fun _ => Tx.accesses_pure _
      exact Tx.accesses_bind (Tx.accesses_query fun _ => trivial) fun _ => Tx.accesses_pure _
  | touchLastSeen draws accountId deviceId =>
      refine Tx.accesses_bind ?_ fun _ => Tx.accesses_pure _
      exact Tx.accesses_bind (Tx.accesses_modify fun row hrow => ⟨hrow, rfl⟩) fun _ =>
        Tx.accesses_pure _
  | list accountId =>
      refine Tx.accesses_bind ?_ fun _ => Tx.accesses_pure _
      exact Tx.accesses_bind (Tx.accesses_query fun _ => trivial) fun _ => Tx.accesses_pure _
  | revokeDevice draws accountId deviceId actor =>
      exact Tx.accesses_bind (revokeDevice_accesses draws accountId deviceId actor) fun _ =>
        Tx.accesses_pure _
  | peerIsPaired accountId deviceId peerDeviceId =>
      refine Tx.accesses_bind ?_ fun _ => Tx.accesses_pure _
      exact Tx.accesses_bind (Tx.accesses_query fun _ => trivial) fun _ => Tx.accesses_pure _
  | revokePairing draws accountId pairingId actor =>
      exact Tx.accesses_bind (revokePairing_accesses draws accountId pairingId actor) fun _ =>
        Tx.accesses_pure _
  | record draws accountId event deviceId remoteIp =>
      exact Tx.accesses_bind (Tx.accesses_add trivial) fun _ => Tx.accesses_pure _

end Osprey.Relay
