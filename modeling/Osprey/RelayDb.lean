/-
**The relay's tables.**

`relay/src/db/schema.ts` and the uuids of `relay/src/repo/tokens.ts`.  A string is the list of its
characters.  The relay passes uuids around as strings in whatever spelling they came in, and
PostgreSQL compares them as values; a value is the lower-case text PostgreSQL prints it as.  The
row-level security policies are left out: every statement of the repository names its account
itself, so a policy on top of it has nothing left to filter.

Main definitions:

* `Osprey.Relay.isUuid`, `Osprey.Relay.UuidText`, `Osprey.Relay.PgUuid` — the spellings of a uuid,
  and the uuids of the database;
* `Osprey.Relay.Row`, `Osprey.Relay.schema` — the tables with their primary keys, unique indexes and
  foreign keys;
* `Osprey.Relay.mintDeviceToken`, `Osprey.Relay.parseDeviceToken` — the bearer token.

Main results:

* `Osprey.Relay.PgUuid.value_text` — a value's own text is one of its spellings;
* `Osprey.Relay.parseDeviceToken_mint` — a minted token is read back.
-/

import Osprey.Transactions

set_option relaxedAutoImplicit false
set_option autoImplicit false

namespace Osprey.Relay

open Transactions

/-! ### Uuids -/

/-- A string, as its characters. -/
abbrev Text := List Char

/-- Milliseconds since the epoch. -/
abbrev Date := ℤ

/-- `[0-9a-f]`, with the `i` flag. -/
def HEX_DIGITS : List Char :=
  ['0', '1', '2', '3', '4', '5', '6', '7', '8', '9', 'a', 'b', 'c', 'd', 'e', 'f',
    'A', 'B', 'C', 'D', 'E', 'F']

def hexDigit (c : Char) : Bool := c ∈ HEX_DIGITS

def dash (c : Char) : Bool := c = '-'

/-- `UUID_RE`: 8, 4, 4, 4 and 12 hex digits, with dashes between them. -/
def UUID_RE : List (Char → Bool) :=
  List.replicate 8 hexDigit ++ dash :: List.replicate 4 hexDigit ++ dash ::
    List.replicate 4 hexDigit ++ dash :: List.replicate 4 hexDigit ++ dash ::
    List.replicate 12 hexDigit

/-- The whole text matches the pattern, character by character. -/
def matchesAll : List (Char → Bool) → Text → Bool
  | [], [] => true
  | accepts :: pattern, c :: text => accepts c && matchesAll pattern text
  | _, _ => false

def isUuid (value : Text) : Bool := matchesAll UUID_RE value

/-- A uuid as it was spelled. -/
structure UuidText where
  chars : Text
  valid : isUuid chars = true
  deriving DecidableEq

/-- A uuid of the database: the text PostgreSQL prints it as. -/
structure PgUuid where
  chars : Text
  valid : isUuid chars = true
  lower : chars.map Char.toLower = chars
  deriving DecidableEq

theorem hexDigit_toLower {c : Char} (h : hexDigit c = true) : hexDigit c.toLower = true := by
  have hall : (HEX_DIGITS.all fun c => hexDigit c.toLower) = true := by decide
  exact List.all_eq_true.mp hall c (by simpa [hexDigit] using h)

theorem hexDigit_toLower_toLower {c : Char} (h : hexDigit c = true) :
    c.toLower.toLower = c.toLower := by
  have hall : (HEX_DIGITS.all fun c => c.toLower.toLower = c.toLower) = true := by decide
  exact of_decide_eq_true (List.all_eq_true.mp hall c (by simpa [hexDigit] using h))

theorem dash_toLower {c : Char} (h : dash c = true) : c.toLower = c := by
  have hc : c = '-' := by simpa [dash] using h
  rw [hc]
  decide

/-- What every character class of a pattern keeps, every text that matches it keeps. -/
theorem matchesAll_map {f : Char → Char} {pattern : List (Char → Bool)}
    (h : ∀ accepts ∈ pattern, ∀ c, accepts c = true → accepts (f c) = true) {text : Text}
    (htext : matchesAll pattern text = true) : matchesAll pattern (text.map f) = true := by
  induction pattern generalizing text with
  | nil =>
      cases text with
      | nil => rfl
      | cons c text => cases htext
  | cons accepts pattern ih =>
      cases text with
      | nil => cases htext
      | cons c text =>
          simp only [matchesAll, Bool.and_eq_true, List.map_cons] at htext ⊢
          refine ⟨h accepts (List.mem_cons_self ..) c htext.1, ih ?_ htext.2⟩
          exact fun accepts' hmem => h accepts' (List.mem_cons_of_mem _ hmem)

/-- What every character class of a pattern implies, every character of a match satisfies. -/
theorem matchesAll_forall {pattern : List (Char → Bool)} {P : Char → Prop}
    (h : ∀ accepts ∈ pattern, ∀ c, accepts c = true → P c) {text : Text}
    (htext : matchesAll pattern text = true) : ∀ c ∈ text, P c := by
  induction pattern generalizing text with
  | nil =>
      cases text with
      | nil => simp
      | cons c text => cases htext
  | cons accepts pattern ih =>
      cases text with
      | nil => cases htext
      | cons c text =>
          simp only [matchesAll, Bool.and_eq_true] at htext
          intro c' hc'
          rcases List.mem_cons.mp hc' with rfl | hc'
          · exact h accepts (List.mem_cons_self ..) c' htext.1
          · exact ih (fun accepts' hmem => h accepts' (List.mem_cons_of_mem _ hmem)) htext.2 c' hc'

/-- A pattern fixes the length of its matches. -/
theorem matchesAll_length {pattern : List (Char → Bool)} {text : Text}
    (h : matchesAll pattern text = true) : text.length = pattern.length := by
  induction pattern generalizing text with
  | nil =>
      cases text with
      | nil => rfl
      | cons c text => cases h
  | cons accepts pattern ih =>
      cases text with
      | nil => cases h
      | cons c text =>
          simp only [matchesAll, Bool.and_eq_true] at h
          rw [List.length_cons, List.length_cons, ih h.2]

/-- The pattern of a uuid is made of hex digits and dashes. -/
theorem mem_UUID_RE {accepts : Char → Bool} (h : accepts ∈ UUID_RE) :
    accepts = hexDigit ∨ accepts = dash := by
  simp only [UUID_RE, List.mem_append, List.mem_cons, List.mem_replicate] at h
  tauto

/-- The uuid a spelling stands for. -/
def UuidText.value (uuid : UuidText) : PgUuid where
  chars := uuid.chars.map Char.toLower
  valid := by
    refine matchesAll_map ?_ uuid.valid
    intro accepts hmem c hc
    rcases mem_UUID_RE hmem with rfl | rfl
    · exact hexDigit_toLower hc
    · rw [dash_toLower hc]
      exact hc
  lower := by
    rw [List.map_map]
    refine List.map_congr_left (matchesAll_forall ?_ uuid.valid)
    intro accepts hmem c hc
    rcases mem_UUID_RE hmem with rfl | rfl
    · exact hexDigit_toLower_toLower hc
    · rw [Function.comp, dash_toLower hc, dash_toLower hc]

theorem UuidText.ext_chars {uuid other : UuidText} (h : uuid.chars = other.chars) :
    uuid = other := by
  cases uuid with
  | mk chars valid =>
      cases other with
      | mk chars' valid' =>
          cases h
          rfl

/-- The text the driver hands back for a uuid column. -/
def PgUuid.text (uuid : PgUuid) : UuidText := ⟨uuid.chars, uuid.valid⟩

/-- A value's own text is one of its spellings. -/
@[simp] theorem PgUuid.value_text (uuid : PgUuid) : uuid.text.value = uuid := by
  cases uuid with
  | mk chars valid lower => simp [PgUuid.text, UuidText.value, lower]

/-! ### Bearer tokens -/

/-- `${accountId}.${secret}`, with the hash of the secret that is stored. -/
def mintDeviceToken (sha256Hex : Text → Text) (accountId : UuidText) (secret : Text) :
    Text × Text :=
  (accountId.chars ++ '.' :: secret, sha256Hex secret)

structure ParsedDeviceToken where
  accountId : UuidText
  secretHash : Text
  deriving DecidableEq

/-- The account id is the token's text up to the first dot, in the spelling the token has. -/
def parseDeviceToken (sha256Hex : Text → Text) (token : Text) : Option ParsedDeviceToken :=
  let accountId := token.takeWhile (· ≠ '.')
  match token.drop accountId.length with
  | [] => none
  | _ :: secret =>
      if h : isUuid accountId = true then
        if secret.isEmpty then none else some ⟨⟨accountId, h⟩, sha256Hex secret⟩
      else none

/-- A uuid has no dot in it. -/
theorem UuidText.ne_dot (uuid : UuidText) : ∀ c ∈ uuid.chars, c ≠ '.' := by
  refine matchesAll_forall ?_ uuid.valid
  intro accepts hmem c hc heq
  rcases mem_UUID_RE hmem with rfl | rfl
  · rw [heq] at hc
    exact absurd hc (by decide)
  · rw [heq] at hc
    exact absurd hc (by decide)

/-- A minted token is read back, in the spelling of the account it was minted with. -/
theorem parseDeviceToken_mint (sha256Hex : Text → Text) (accountId : UuidText) {secret : Text}
    (hsecret : secret ≠ []) :
    parseDeviceToken sha256Hex (mintDeviceToken sha256Hex accountId secret).1
      = some ⟨accountId, (mintDeviceToken sha256Hex accountId secret).2⟩ := by
  have htake : (accountId.chars ++ '.' :: secret).takeWhile (· ≠ '.') = accountId.chars := by
    rw [List.takeWhile_append_of_pos (by simpa using accountId.ne_dot)]
    simp
  simp only [parseDeviceToken, mintDeviceToken, htake, List.drop_left, accountId.valid]
  simp [hsecret]

/-! ### Tables -/

inductive DeviceKind
  | agent
  | client
  deriving DecidableEq, Repr

inductive IdentityAlgorithm
  | ed25519
  | p256
  deriving DecidableEq, Repr

structure AccountRow where
  id : PgUuid
  createdAt : Date
  displayName : Option Text
  deriving DecidableEq

structure DeviceRow where
  id : PgUuid
  accountId : PgUuid
  kind : DeviceKind
  displayName : Text
  identityPublicKey : Text
  identityAlgorithm : IdentityAlgorithm
  noiseStaticPublicKey : Text
  noiseStaticSignature : Text
  authTokenHash : Text
  createdAt : Date
  lastSeenAt : Option Date
  revokedAt : Option Date
  deriving DecidableEq

structure PairingRow where
  id : PgUuid
  accountId : PgUuid
  agentDeviceId : PgUuid
  clientDeviceId : PgUuid
  agentNoiseStaticPublicKey : Text
  agentNoiseStaticSignature : Text
  clientNoiseStaticPublicKey : Text
  clientNoiseStaticSignature : Text
  createdAt : Date
  revokedAt : Option Date
  revokedBy : Option DeviceKind
  deriving DecidableEq

structure PairingTokenRow where
  id : PgUuid
  accountId : PgUuid
  agentDeviceId : PgUuid
  routingId : Text
  createdAt : Date
  expiresAt : Date
  used : Bool
  usedAt : Option Date
  deriving DecidableEq

structure QuotaRow where
  accountId : PgUuid
  maxDevices : ℤ
  maxPairingAttemptsPerHour : ℤ
  deriving DecidableEq

/-- The event of an audit row, with the `detail` the code records for it. -/
inductive AuditEvent
  | deviceRevoked (revokedBy : UuidText) (kind : Option DeviceKind)
  | tokenIssued (tokenId : PgUuid) (ttlSeconds : ℤ)
  | rateLimited (windowCount limit : ℤ)
  | tokenAlreadyUsed (tokenId : PgUuid)
  | tokenExpired (tokenId : PgUuid)
  | agentDeviceRevoked (tokenId : PgUuid)
  | deviceQuotaExceeded (limit : ℤ)
  | pairingSucceeded (pairingId agentDeviceId tokenId : PgUuid)
  | pairingRevoked (pairingId : UuidText) (revokedBy : DeviceKind)
      (agentDeviceId clientDeviceId : PgUuid)
  | wsAttached (kind : DeviceKind)
  | relayRejected (peer : UuidText)
  deriving DecidableEq

structure AuditRow where
  id : PgUuid
  accountId : PgUuid
  deviceId : Option PgUuid
  event : AuditEvent
  remoteIp : Option Text
  createdAt : Date
  deriving DecidableEq

/-- A row of one of the tables. -/
inductive Row
  | account (row : AccountRow)
  | device (row : DeviceRow)
  | pairing (row : PairingRow)
  | token (row : PairingTokenRow)
  | quota (row : QuotaRow)
  | audit (row : AuditRow)
  deriving DecidableEq

/-- A table and a primary key of it. -/
inductive RowKey
  | account (id : PgUuid)
  | device (id : PgUuid)
  | pairing (id : PgUuid)
  | token (id : PgUuid)
  | quota (accountId : PgUuid)
  | audit (id : PgUuid)
  deriving DecidableEq

/-- The unique indexes besides the primary keys. -/
inductive UniqueIndex
  | authTokenHash
  | routingId
  deriving DecidableEq, Repr

def Row.key : Row → RowKey
  | .account row => .account row.id
  | .device row => .device row.id
  | .pairing row => .pairing row.id
  | .token row => .token row.id
  | .quota row => .quota row.accountId
  | .audit row => .audit row.id

def Row.entry : UniqueIndex → Row → Option Text
  | .authTokenHash, .device row => some row.authTokenHash
  | .routingId, .token row => some row.routingId
  | _, _ => none

/-- The foreign keys. -/
def Row.references : Row → List RowKey
  | .account _ => []
  | .device row => [.account row.accountId]
  | .pairing row =>
      [.account row.accountId, .device row.agentDeviceId, .device row.clientDeviceId]
  | .token row => [.account row.accountId, .device row.agentDeviceId]
  | .quota row => [.account row.accountId]
  | .audit row => .account row.accountId :: (row.deviceId.map RowKey.device).toList

/-- The account a row belongs to. -/
def Row.accountId : Row → PgUuid
  | .account row => row.id
  | .device row => row.accountId
  | .pairing row => row.accountId
  | .token row => row.accountId
  | .quota row => row.accountId
  | .audit row => row.accountId

def schema : Schema Row RowKey UniqueIndex Text where
  key := Row.key
  indexes := [.authTokenHash, .routingId]
  entry := Row.entry
  references := Row.references

theorem columns_eq {row other : Row} (hkey : row.key = other.key)
    (hentry : ∀ index, Row.entry index row = Row.entry index other)
    (hreferences : row.references = other.references) :
    schema.columns row = schema.columns other := by
  simp only [Schema.columns, schema, hkey, hentry, hreferences]

/-! ### Statements on one table -/

def Row.token? : Row → Option PairingTokenRow
  | .token row => some row
  | _ => none

def Row.device? : Row → Option DeviceRow
  | .device row => some row
  | _ => none

def Row.pairing? : Row → Option PairingRow
  | .pairing row => some row
  | _ => none

def Row.quota? : Row → Option QuotaRow
  | .quota row => some row
  | _ => none

/-- A predicate on the rows of one table. -/
def Row.among {α : Type} (table : Row → Option α) (p : α → Bool) (row : Row) : Bool :=
  (table row).any p

theorem Row.among_eq_true {α : Type} {table : Row → Option α} {p : α → Bool} {row : Row} :
    Row.among table p row = true ↔ ∃ value, table row = some value ∧ p value = true := by
  simp [Row.among, Option.any_eq_true]

theorem Row.token?_eq_some {row : Row} {token : PairingTokenRow} :
    row.token? = some token ↔ row = .token token := by
  cases row <;> simp [Row.token?]

theorem Row.device?_eq_some {row : Row} {device : DeviceRow} :
    row.device? = some device ↔ row = .device device := by
  cases row <;> simp [Row.device?]

theorem Row.pairing?_eq_some {row : Row} {pairing : PairingRow} :
    row.pairing? = some pairing ↔ row = .pairing pairing := by
  cases row <;> simp [Row.pairing?]

theorem Row.quota?_eq_some {row : Row} {quota : QuotaRow} :
    row.quota? = some quota ↔ row = .quota quota := by
  cases row <;> simp [Row.quota?]

/-- No two tokens of a database have one routing id. -/
theorem clash_token {token other : PairingTokenRow} (h : token.routingId = other.routingId) :
    schema.Clash (.token token) (.token other) :=
  ⟨some .routingId, by simp [Schema.checked, schema], by
    simp [Schema.shares, schema, Row.entry, h]⟩

/-- No two devices of a database have one id. -/
theorem clash_device {device other : DeviceRow} (h : device.id = other.id) :
    schema.Clash (.device device) (.device other) :=
  Schema.clash_of_key_eq (by simp [schema, Row.key, h])

end Osprey.Relay
