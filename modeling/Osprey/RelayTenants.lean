/-
**One tenant's operations and the rows of the others.**

Every statement of `relay/src/repo/` names its account, so an operation should do the same whatever
rows other accounts have.  What is left is what the database checks across accounts: primary keys
and the hashes of device tokens, which are drawn at random; the routing ids, which are unique over
the whole relay; and foreign keys, which do not look at the account.  The last is why the one id of
a device that an operation takes from its caller without looking it up, the agent of `issue`, has to
be the caller's own; the routes pass the device that `requireDevice` authenticated.

Main definitions:

* `Osprey.Relay.Twins` — two databases that agree on an account's rows and on the routing ids;
* `Osprey.Relay.Call.DeviceAgrees` — the agent an `issue` names is there in both, or in neither.

Main results:

* `Osprey.Relay.program_isolated` — every operation keeps to the rows of its account;
* `Osprey.Relay.tenant_noninterference` — **an operation does the same over both databases and
  writes rows of its account only**; `authenticate` returns devices of the account only, and a
  redemption without a token of the account writes nothing and answers as for an account that is not
  there;
* `Osprey.Relay.foreign_agent_shows` — an `issue` that names a device of another account ends
  otherwise where that account is not there.
-/

import Osprey.RelayFrames

set_option relaxedAutoImplicit false
set_option autoImplicit false

namespace Osprey.Relay

open Transactions

/-! ### Two databases -/

def ownedBy (accountId : PgUuid) (row : Row) : Bool := row.accountId = accountId

/-- The ids and the secret an operation draws are new to the database. -/
def Draws.Fresh (sha256Hex : Text → Text) (draws : Draws) (rows : List Row) : Prop :=
  ∀ row ∈ rows,
    row.key ∉ [.audit draws.auditId, .token draws.tokenId, .device draws.clientDeviceId,
      .pairing draws.pairingId] ∧
    row.entry .authTokenHash ≠ some (sha256Hex draws.secret)

/-- Two databases that agree on the rows of the account and on the routing ids there are. -/
structure Twins (accountId : PgUuid) (rows rows' : List Row) : Prop where
  consistent : schema.Consistent rows
  consistent' : schema.Consistent rows'
  agree : AgreeOn (ownedBy accountId) rows rows'
  routing : ∀ routingId, (∃ token, .token token ∈ rows ∧ token.routingId = routingId) ↔
    ∃ token, .token token ∈ rows' ∧ token.routingId = routingId

def Call.accountId : Call → UuidText
  | .issue _ accountId _ => accountId
  | .redeem _ accountId _ => accountId
  | .authenticate accountId _ => accountId
  | .touchLastSeen _ accountId _ => accountId
  | .list accountId => accountId
  | .revokeDevice _ accountId _ _ => accountId
  | .peerIsPaired accountId _ _ => accountId
  | .revokePairing _ accountId _ _ => accountId
  | .record _ accountId _ _ _ => accountId

def Call.draws? : Call → Option Draws
  | .issue draws _ _ => some draws
  | .redeem draws _ _ => some draws
  | .authenticate _ _ => none
  | .touchLastSeen draws _ _ => some draws
  | .list _ => none
  | .revokeDevice draws _ _ _ => some draws
  | .peerIsPaired _ _ _ => none
  | .revokePairing draws _ _ _ => some draws
  | .record draws _ _ _ _ => some draws

def HasDeviceId (id : PgUuid) (rows : List Row) : Prop :=
  ∃ row ∈ rows, schema.key row = .device id

/-- The device a call names without looking it up, the agent of an `issue` or the device of an audit
record, is there in both databases or in neither, whichever account has it. -/
def Call.DeviceAgrees (rows rows' : List Row) : Call → Prop
  | .issue _ _ input =>
      HasDeviceId input.agentDeviceId.value rows ↔ HasDeviceId input.agentDeviceId.value rows'
  | .record _ _ _ deviceId _ => ∀ id ∈ deviceId, HasDeviceId id rows ↔ HasDeviceId id rows'
  | _ => True

/-! ### Statements of one account -/

/-- A predicate on the rows of one table that asks for the account. -/
theorem among_owned {α : Type} {table : Row → Option α} {account : α → PgUuid}
    (htable : ∀ row value, table row = some value → row.accountId = account value)
    {accountId : PgUuid} {p : α → Bool} (hp : ∀ value, p value = true → account value = accountId)
    (row : Row) (h : Row.among table p row = true) : ownedBy accountId row = true := by
  obtain ⟨value, hvalue, hpvalue⟩ := Row.among_eq_true.mp h
  rw [ownedBy, decide_eq_true_eq, htable row value hvalue, hp value hpvalue]

theorem token_owned {accountId : PgUuid} {p : PairingTokenRow → Bool}
    (hp : ∀ token, p token = true → token.accountId = accountId) (row : Row)
    (h : Row.among Row.token? p row = true) : ownedBy accountId row = true :=
  among_owned (fun row token htoken => by rw [Row.token?_eq_some.mp htoken, Row.accountId]) hp row h

theorem device_owned {accountId : PgUuid} {p : DeviceRow → Bool}
    (hp : ∀ device, p device = true → device.accountId = accountId) (row : Row)
    (h : Row.among Row.device? p row = true) : ownedBy accountId row = true :=
  among_owned
    (fun row device hdevice => by rw [Row.device?_eq_some.mp hdevice, Row.accountId]) hp row
    h

theorem pairing_owned {accountId : PgUuid} {p : PairingRow → Bool}
    (hp : ∀ pairing, p pairing = true → pairing.accountId = accountId) (row : Row)
    (h : Row.among Row.pairing? p row = true) : ownedBy accountId row = true :=
  among_owned
    (fun row pairing hpairing => by rw [Row.pairing?_eq_some.mp hpairing, Row.accountId]) hp row h

theorem quota_owned {accountId : PgUuid} {p : QuotaRow → Bool}
    (hp : ∀ quota, p quota = true → quota.accountId = accountId) (row : Row)
    (h : Row.among Row.quota? p row = true) : ownedBy accountId row = true :=
  among_owned (fun row quota hquota => by rw [Row.quota?_eq_some.mp hquota, Row.accountId]) hp row h

/-- No update moves a row to another account. -/
theorem accountId_of_kept {old new : Row} (h : RowKept old new) :
    new.accountId = old.accountId := by
  have hfrozen (row : Row) : row.frozen.accountId = row.accountId := by
    cases row with
    | account | device | pairing | token | quota | audit => rfl
  rw [← hfrozen new, h.1, hfrozen old]

/-- An update of rows of the account leaves rows of the account. -/
theorem update_owned {accountId : PgUuid} {p : Row → Bool} {assign : Assignment schema}
    (hp : ∀ row, p row = true → ownedBy accountId row = true)
    (hassign : ∀ row, RowKept row (assign.apply row)) (row : Row) (h : p row = true) :
    ownedBy accountId row = true ∧ ownedBy accountId (assign.apply row) = true := by
  refine ⟨hp row h, ?_⟩
  rw [ownedBy, accountId_of_kept (hassign row)]
  exact hp row h

/-! ### Insertions -/

section Insertions

variable {sha256Hex : Text → Text} {accountId : PgUuid} {draws : Draws} {rows rows' : List Row}

/-- Drawn values meet nothing in either database, and routing ids meet the same in both. -/
theorem Twins.shared (h : Twins accountId rows rows') (hfresh : draws.Fresh sha256Hex rows)
    (hfresh' : draws.Fresh sha256Hex rows') {row : Row}
    (hkey : row.key ∈ [.audit draws.auditId, .token draws.tokenId, .device draws.clientDeviceId,
      .pairing draws.pairingId])
    (hhash : ∀ hash, row.entry .authTokenHash = some hash → hash = sha256Hex draws.secret) :
    ∀ index ∈ schema.checked,
      rows.any (schema.shares index row) = rows'.any (schema.shares index row) := by
  -- what no row of either database shares
  have hnone {index : Option UniqueIndex}
      (h : ∀ other ∈ rows ++ rows', schema.shares index row other = false) :
      rows.any (schema.shares index row) = rows'.any (schema.shares index row) := by
    have hrows : rows.any (schema.shares index row) = false :=
      List.any_eq_false.mpr fun other hother => by simp [h other (List.mem_append_left _ hother)]
    have hrows' : rows'.any (schema.shares index row) = false :=
      List.any_eq_false.mpr fun other hother => by simp [h other (List.mem_append_right _ hother)]
    rw [hrows, hrows']
  have hboth : ∀ other ∈ rows ++ rows', other.key ∉ [.audit draws.auditId, .token draws.tokenId,
      .device draws.clientDeviceId, .pairing draws.pairingId] ∧
      other.entry .authTokenHash ≠ some (sha256Hex draws.secret) := by
    intro other hother
    rcases List.mem_append.mp hother with hother | hother
    · exact hfresh other hother
    · exact hfresh' other hother
  intro index _
  cases index with
  | none =>
      refine hnone fun other hother => decide_eq_false fun heq => ?_
      have heq : row.key = other.key := heq
      exact (hboth other hother).1 (heq ▸ hkey)
  | some index =>
      cases index with
      | authTokenHash =>
          refine hnone fun other hother => ?_
          cases hentry : row.entry .authTokenHash with
          | none => simp [Schema.shares, schema, hentry]
          | some hash =>
              have hne := (hboth other hother).2
              rw [← hhash hash hentry, ← hentry] at hne
              simp [Schema.shares, schema, Ne.symm hne]
      | routingId =>
          cases hentry : row.entry .routingId with
          | none =>
              refine hnone fun other _ => ?_
              simp [Schema.shares, schema, hentry]
          | some routingId =>
              have hiff (l : List Row) : l.any (schema.shares (some .routingId) row) = true ↔
                  ∃ token, .token token ∈ l ∧ token.routingId = routingId := by
                rw [List.any_eq_true]
                constructor
                · rintro ⟨other, hother, hshares⟩
                  have hshares : some routingId = other.entry .routingId := by
                    simpa [Schema.shares, schema, hentry] using hshares
                  cases other with
                  | token token => exact ⟨token, hother, (Option.some.inj hshares).symm⟩
                  | account | device | pairing | quota | audit => cases hshares
                · rintro ⟨token, htoken, heq⟩
                  have hother : Row.entry .routingId (.token token) = some routingId := by
                    rw [Row.entry, heq]
                  exact ⟨.token token, htoken, by simp [Schema.shares, schema, hentry, hother]⟩
              rw [Bool.eq_iff_iff, hiff rows, hiff rows', h.routing routingId]

/-- The account is there in both databases or in neither. -/
theorem Twins.account (h : Twins accountId rows rows') :
    (∃ other ∈ rows, schema.key other = .account accountId) ↔
      ∃ other ∈ rows', schema.key other = .account accountId := by
  have hown {other : Row} (hkey : schema.key other = .account accountId) :
      ownedBy accountId other = true := by
    cases other with
    | account row =>
        have hkey : row.id = accountId := RowKey.account.inj hkey
        rw [ownedBy, Row.accountId, hkey, decide_eq_true rfl]
    | device | pairing | token | quota | audit => cases hkey
  constructor
  · rintro ⟨other, hother, hkey⟩
    exact ⟨other, h.agree.mem hother (hown hkey), hkey⟩
  · rintro ⟨other, hother, hkey⟩
    exact ⟨other, h.agree.symm.mem hother (hown hkey), hkey⟩

/-- A device of the account is there in both databases. -/
theorem Twins.device (h : Twins accountId rows rows') {device : DeviceRow}
    (hdevice : .device device ∈ rows) (haccount : device.accountId = accountId) :
    (∃ other ∈ rows, schema.key other = .device device.id) ↔
      ∃ other ∈ rows', schema.key other = .device device.id :=
  ⟨fun _ => ⟨.device device, h.agree.mem hdevice (by simp [ownedBy, Row.accountId, haccount]), rfl⟩,
    fun _ => ⟨.device device, hdevice, rfl⟩⟩

/-- An audit row of the account, about no device or about one that both databases have. -/
theorem Twins.audit (h : Twins accountId rows rows') (hfresh : draws.Fresh sha256Hex rows)
    (hfresh' : draws.Fresh sha256Hex rows') {extra : List Row} {audit : AuditRow}
    (hid : audit.id = draws.auditId) (haccount : audit.accountId = accountId)
    (hdevice : ∀ id ∈ audit.deviceId, (∃ other ∈ extra, schema.key other = .device id) ∨
      ((∃ other ∈ rows, schema.key other = .device id) ↔
        ∃ other ∈ rows', schema.key other = .device id)) :
    schema.refuse (rows ++ extra) (.audit audit) = schema.refuse (rows' ++ extra)
      (.audit audit) := by
  refine Schema.refuse_append_congr
    (h.shared hfresh hfresh' (by simp [Row.key, hid]) (fun hash hhash => by cases hhash)) ?_
  intro key hkey
  have hkey : key = .account audit.accountId ∨ ∃ id ∈ audit.deviceId, key = .device id := by
    simpa [schema, Row.references, Option.mem_toList, eq_comm] using hkey
  rcases hkey with rfl | ⟨id, hid, rfl⟩
  · rw [haccount]
    exact .inr h.account
  · exact hdevice id hid

/-- Recording an audit row ends an operation. -/
theorem isolated_audit {accountId : UuidText} (h : Twins accountId.value rows rows')
    (hfresh : draws.Fresh sha256Hex rows) (hfresh' : draws.Fresh sha256Hex rows')
    {log : List (Access Row)}
    (hkept : ∀ old new, .updated old new ∈ log → schema.columns new = schema.columns old)
    {event : AuditEvent} {deviceId : Option PgUuid} {remoteIp : Option Text}
    (hdevice : ∀ id ∈ deviceId, (∃ other ∈ added log, schema.key other = .device id) ∨
      ((∃ other ∈ rows, schema.key other = .device id) ↔
        ∃ other ∈ rows', schema.key other = .device id)) {α : Type} (result : α) :
    (insertAudit draws accountId event deviceId remoteIp >>= fun _ => pure result).Isolated
      (ownedBy accountId.value) rows rows' log :=
  Tx.isolated_add hkept (by simp [ownedBy, Row.accountId, auditRow])
    (h.audit hfresh hfresh' rfl rfl hdevice) trivial

end Insertions

/-! ### The operations -/

section Operations

variable {sha256Hex : Text → Text} {accountId : UuidText} {draws : Draws} {rows rows' : List Row}

/-- The updates of one statement keep the constrained columns. -/
theorem columns_of_updates {assign : Assignment schema} {found : List Row} {old new : Row}
    (h : Access.updated old new ∈ found.map fun row => Access.updated row (assign.apply row)) :
    schema.columns new = schema.columns old := by
  obtain ⟨row, -, heq⟩ := List.mem_map.mp h
  cases heq
  exact assign.columns_apply _

/-- A key that is seen over updates alone is the key of a committed row. -/
theorem key_of_visible {log : List (Access Row)} (hadded : added log = [])
    (hkept : ∀ old new, .updated old new ∈ log → schema.columns new = schema.columns old)
    {committed : List Row} {row : Row} (hrow : row ∈ visible committed log) :
    ∃ other ∈ committed, schema.key other = schema.key row := by
  have hmem := List.mem_map_of_mem (f := schema.columns) hrow
  rw [columns_visible hkept committed, hadded, List.append_nil] at hmem
  obtain ⟨other, hother, hsame⟩ := List.mem_map.mp hmem
  exact ⟨other, hother, Schema.key_eq_of_columns hsame⟩

/-- A device of the account that is seen over updates alone is there in both databases. -/
theorem Twins.device_visible {accountId : PgUuid} (h : Twins accountId rows rows')
    {log : List (Access Row)} (hlog : Owned (ownedBy accountId) log) (hadded : added log = [])
    (hkept : ∀ old new, .updated old new ∈ log → schema.columns new = schema.columns old)
    {device : DeviceRow} (hdevice : .device device ∈ visible rows log)
    (haccount : device.accountId = accountId) :
    (∃ other ∈ rows, schema.key other = .device device.id) ↔
      ∃ other ∈ rows', schema.key other = .device device.id := by
  have hdevice' : .device device ∈ visible rows' log :=
    (h.agree.visible hlog).mem hdevice (by simp [ownedBy, Row.accountId, haccount])
  exact ⟨fun _ => key_of_visible hadded hkept hdevice',
    fun _ => key_of_visible hadded hkept hdevice⟩

theorem issueWithinTenant_isolated {input : IssueTokenInput}
    (h : Twins accountId.value rows rows') (hfresh : draws.Fresh sha256Hex rows)
    (hfresh' : draws.Fresh sha256Hex rows')
    (hagent : HasDeviceId input.agentDeviceId.value rows ↔
      HasDeviceId input.agentDeviceId.value rows') :
    (issueWithinTenant draws accountId input).Isolated (ownedBy accountId.value) rows rows' [] := by
  refine Tx.isolated_query.mpr ⟨quota_owned fun quota => by simp, ?_⟩
  refine Tx.isolated_query.mpr ⟨token_owned fun token => by simp; tauto, ?_⟩
  split
  · refine isolated_audit h hfresh hfresh' (by simp) ?_ _
    intro id hid
    cases hid
    exact .inr hagent
  · refine Tx.isolated_add (by simp) (by simp [ownedBy, Row.accountId]) ?_ ?_
    · refine Schema.refuse_append_congr
        (h.shared hfresh hfresh' (by simp [Row.key]) (fun hash hhash => by cases hhash)) ?_
      intro key hkey
      have hkey : key = .account accountId.value ∨ key = .device input.agentDeviceId.value := by
        simpa [schema, Row.references] using hkey
      rcases hkey with rfl | rfl
      · exact .inr h.account
      · exact .inr hagent
    · refine isolated_audit h hfresh hfresh' (by simp) ?_ _
      intro id hid
      cases hid
      exact .inr hagent

theorem redeemMiss_isolated {input : RedeemInput} (h : Twins accountId.value rows rows')
    (hfresh : draws.Fresh sha256Hex rows) (hfresh' : draws.Fresh sha256Hex rows')
    {log : List (Access Row)}
    (hkept : ∀ old new, .updated old new ∈ log → schema.columns new = schema.columns old) :
    (redeemMiss draws accountId input).Isolated (ownedBy accountId.value) rows rows' log := by
  refine Tx.isolated_query.mpr ⟨token_owned fun token => by simp; tauto, ?_⟩
  split
  · trivial
  · exact isolated_audit h hfresh hfresh' (by simpa using hkept) (by simp) _

theorem redeemClaimed_isolated {input : RedeemInput} (h : Twins accountId.value rows rows')
    (hfresh : draws.Fresh sha256Hex rows) (hfresh' : draws.Fresh sha256Hex rows')
    {log : List (Access Row)} (hlog : Owned (ownedBy accountId.value) log) (hadded : added log = [])
    (hkept : ∀ old new, .updated old new ∈ log → schema.columns new = schema.columns old)
    (token : PairingTokenRow) :
    (redeemClaimed sha256Hex draws accountId input token).Isolated (ownedBy accountId.value) rows
      rows' log := by
  refine Tx.isolated_query.mpr ⟨device_owned fun device => by simp; tauto, ?_⟩
  split
  · exact isolated_audit h hfresh hfresh' (by simpa using hkept) (by simp) _
  · rename_i agent hagent
    obtain ⟨row, hrow, hdevice⟩ := mem_of_first hagent
    rw [Row.device?_eq_some] at hdevice
    subst hdevice
    obtain ⟨hvisible, hactive⟩ := List.mem_filter.mp hrow
    obtain ⟨device, heq, haccount, -⟩ := activeDevice_eq_true.mp hactive
    cases heq
    have hboth := h.device_visible hlog hadded hkept hvisible haccount
    refine Tx.isolated_query.mpr ⟨quota_owned fun quota => by simp, ?_⟩
    refine Tx.isolated_query.mpr ⟨device_owned fun device => by simp; tauto, ?_⟩
    split
    · exact isolated_audit h hfresh hfresh' (by simpa using hkept) (by simp) _
    · refine Tx.isolated_add (by simpa using hkept)
        (by simp [ownedBy, Row.accountId, clientDevice]) ?_ ?_
      · -- the new client: its id and the hash of its token are drawn
        refine Schema.refuse_append_congr (h.shared hfresh hfresh' (by simp [Row.key, clientDevice])
          (fun hash hhash => (Option.some.inj hhash).symm)) ?_
        intro key hkey
        have hkey : key = .account accountId.value := by
          simpa [schema, Row.references, clientDevice] using hkey
        rw [hkey]
        exact .inr h.account
      refine Tx.isolated_add (by simpa using hkept)
        (by simp [ownedBy, Row.accountId, newPairing]) ?_ ?_
      · -- the pairing refers to the agent that was found and to the client just inserted
        refine Schema.refuse_append_congr (h.shared hfresh hfresh' (by simp [Row.key, newPairing])
          (fun hash hhash => by cases hhash)) ?_
        intro key hkey
        have hkey : key = .account accountId.value ∨ key = .device agent.id ∨
            key = .device draws.clientDeviceId := by
          simpa [schema, Row.references, newPairing] using hkey
        rcases hkey with rfl | rfl | rfl
        · exact .inr h.account
        · exact .inr hboth
        · exact .inl ⟨.device (clientDevice sha256Hex draws accountId input), by simp [hadded], rfl⟩
      refine isolated_audit h hfresh hfresh' (by simpa using hkept) ?_ _
      intro id hid
      cases hid
      exact .inl ⟨.device (clientDevice sha256Hex draws accountId input), by simp [hadded], rfl⟩

theorem redeem_isolated {input : RedeemInput} (h : Twins accountId.value rows rows')
    (hfresh : draws.Fresh sha256Hex rows) (hfresh' : draws.Fresh sha256Hex rows') :
    (redeem sha256Hex draws accountId input).Isolated (ownedBy accountId.value) rows rows' [] := by
  have hclaimable : ∀ row, claimable accountId.value input.routingId draws.now row = true →
      ownedBy accountId.value row = true := token_owned fun token => by simp; tauto
  have hupdate := update_owned hclaimable (setUsed_kept draws.now)
  refine Tx.isolated_modify.mpr ⟨hupdate, ?_⟩
  split
  · exact redeemMiss_isolated h hfresh hfresh' fun old new hmem => columns_of_updates hmem
  · refine redeemClaimed_isolated h hfresh hfresh' (owned_updated ?_) (added_updates ..)
      (fun old new hmem => columns_of_updates hmem) _
    intro row hrow
    exact hupdate row (List.mem_filter.mp hrow).2

theorem revokeDevice_isolated {deviceId : UuidText} {actor : Actor}
    (h : Twins accountId.value rows rows') (hfresh : draws.Fresh sha256Hex rows)
    (hfresh' : draws.Fresh sha256Hex rows') :
    (revokeDevice draws accountId deviceId actor).Isolated (ownedBy accountId.value) rows rows'
      [] := by
  have hdevices : ∀ row, activeDevice accountId.value deviceId.value row = true →
      ownedBy accountId.value row = true := device_owned fun device => by simp; tauto
  have hpairings : ∀ row, livePairingOf accountId.value deviceId.value row = true →
      ownedBy accountId.value row = true := pairing_owned fun pairing => by simp; tauto
  refine Tx.isolated_modify.mpr ⟨update_owned hdevices (setDeviceRevoked_kept draws.now), ?_⟩
  split
  · trivial
  · rename_i hsome
    -- the device that was revoked is there in both databases
    obtain ⟨row, hvisible, hactive⟩ : ∃ row ∈ rows,
        activeDevice accountId.value deviceId.value row = true := by simpa using hsome
    obtain ⟨device, rfl, haccount, hid, -⟩ := activeDevice_eq_true.mp hactive
    have hboth := h.device hvisible haccount
    rw [hid] at hboth
    refine Tx.isolated_modify.mpr
      ⟨update_owned hpairings (setPairingRevoked_kept draws.now .agent), ?_⟩
    refine isolated_audit h hfresh hfresh' ?_ ?_ _
    · intro old new hmem
      rcases List.mem_append.mp hmem with hmem | hmem
      · exact columns_of_updates hmem
      · exact columns_of_updates hmem
    · intro id hid
      cases hid
      exact .inr hboth

/-- The pairing that is revoked refers to its actor, in either database. -/
theorem revokePairing_isolated {pairingId : UuidText} {actor : Actor}
    (h : Twins accountId.value rows rows') (hfresh : draws.Fresh sha256Hex rows)
    (hfresh' : draws.Fresh sha256Hex rows') :
    (revokePairing draws accountId pairingId actor).Isolated (ownedBy accountId.value) rows rows'
      [] := by
  have hpairings : ∀ row,
      livePairing accountId.value pairingId.value actor.deviceId.value row = true →
      ownedBy accountId.value row = true := pairing_owned fun pairing => by simp; tauto
  refine Tx.isolated_modify.mpr
    ⟨update_owned hpairings (setPairingRevoked_kept draws.now actor.kind), ?_⟩
  split
  · trivial
  · rename_i revoked hrevoked
    obtain ⟨new, hnew, -⟩ := mem_of_first hrevoked
    obtain ⟨row, hrow, -⟩ := List.mem_map.mp hnew
    obtain ⟨hrow, hlive⟩ := List.mem_filter.mp hrow
    have hrow' : row ∈ rows' := h.agree.mem hrow (hpairings row hlive)
    obtain ⟨pairing, rfl, -, -, -, hactor⟩ := livePairing_eq_true.mp hlive
    have hreference : RowKey.device actor.deviceId.value ∈ schema.references
        (.pairing pairing) := by
      rcases hactor with heq | heq
      · simp [schema, Row.references, heq]
      · simp [schema, Row.references, heq]
    refine isolated_audit h hfresh hfresh' (fun old new hmem => columns_of_updates hmem) ?_ _
    intro id hid
    cases hid
    exact .inr ⟨fun _ => h.consistent'.referenced _ hrow' _ hreference,
      fun _ => h.consistent.referenced _ hrow _ hreference⟩

/-- **Every operation keeps to the rows of its account.** -/
theorem program_isolated {call : Call} (h : Twins call.accountId.value rows rows')
    (hcall : call.DeviceAgrees rows rows')
    (hfresh : ∀ draws ∈ call.draws?, draws.Fresh sha256Hex rows)
    (hfresh' : ∀ draws ∈ call.draws?, draws.Fresh sha256Hex rows') :
    (program sha256Hex call).Isolated (ownedBy call.accountId.value) rows rows' [] := by
  cases call with
  | issue draws accountId input =>
      exact (issueWithinTenant_isolated h (hfresh draws rfl) (hfresh' draws rfl) hcall).map _
  | redeem draws accountId input =>
      exact (redeem_isolated h (hfresh draws rfl) (hfresh' draws rfl)).map _
  | authenticate accountId secretHash =>
      refine Tx.Isolated.map ?_ _
      exact Tx.isolated_query.mpr ⟨device_owned fun device => by simp; tauto, trivial⟩
  | touchLastSeen draws accountId deviceId =>
      refine Tx.Isolated.map ?_ _
      refine Tx.isolated_modify.mpr ⟨update_owned ?_ (setLastSeen_kept draws.now), trivial⟩
      exact device_owned fun device => by simp; tauto
  | list accountId =>
      refine Tx.Isolated.map ?_ _
      exact Tx.isolated_query.mpr ⟨device_owned fun device => by simp; tauto, trivial⟩
  | revokeDevice draws accountId deviceId actor =>
      exact (revokeDevice_isolated h (hfresh draws rfl) (hfresh' draws rfl)).map _
  | peerIsPaired accountId deviceId peerDeviceId =>
      refine Tx.Isolated.map ?_ _
      exact Tx.isolated_query.mpr ⟨pairing_owned fun pairing => by simp; tauto, trivial⟩
  | revokePairing draws accountId pairingId actor =>
      exact (revokePairing_isolated h (hfresh draws rfl) (hfresh' draws rfl)).map _
  | record draws accountId event deviceId remoteIp =>
      refine isolated_audit h (hfresh draws rfl) (hfresh' draws rfl) (by simp) ?_ _
      exact fun id hid => .inr (hcall id hid)

end Operations

/-! ### Tenants do not interfere -/

/-- A redemption that finds no token of the account has written nothing. -/
theorem redeem_unknown (sha256Hex : Text → Text) (draws : Draws) {accountId : UuidText}
    {input : RedeemInput} {rows : List Row}
    (h : ∀ token, .token token ∈ rows → token.accountId = accountId.value →
      token.routingId ≠ input.routingId) :
    ∃ log, (redeem sha256Hex draws accountId input).exec rows [] = .ok (.unknownToken, log) ∧
      written log = [] := by
  have hclaimed : rows.filter (claimable accountId.value input.routingId draws.now) = [] := by
    refine List.filter_eq_nil_iff.mpr fun row hrow hclaimable => ?_
    obtain ⟨token, rfl, haccount, hrouting, -⟩ := claimable_eq_true.mp hclaimable
    exact h token hrow haccount hrouting
  have hexisting : rows.filter (tokenOf accountId.value input.routingId) = [] := by
    refine List.filter_eq_nil_iff.mpr fun row hrow htoken => ?_
    obtain ⟨token, htable, hof⟩ := Row.among_eq_true.mp htoken
    rw [Row.token?_eq_some] at htable
    subst htable
    obtain ⟨haccount, hrouting⟩ := of_decide_eq_true hof
    exact h token hrow haccount hrouting
  refine ⟨[.selected (tokenOf accountId.value input.routingId) []], ?_, rfl⟩
  rw [redeem, Tx.exec_modify, visible_nil, hclaimed]
  change (redeemMiss draws accountId input).exec rows [] = _
  rw [redeemMiss, Tx.exec_query, visible_nil, hexisting]
  rfl

/-- **Tenants do not interfere.**  Over two databases that agree on the rows of its account, on the
routing ids and on whether there is a device such as an `issue` names, an operation ends the same
way, with the same result and the same accesses, and every row it writes is of the account.
`authenticate` returns a device of the account it was called
with.  A redemption whose routing id no token of the account has writes no row, and its answer is
the one an account gets that has no rows at all. -/
theorem tenant_noninterference (sha256Hex : Text → Text) :
    (∀ (call : Call) (rows rows' : List Row), Twins call.accountId.value rows rows' →
      call.DeviceAgrees rows rows' → (∀ draws ∈ call.draws?, draws.Fresh sha256Hex rows) →
      (∀ draws ∈ call.draws?, draws.Fresh sha256Hex rows') →
      (program sha256Hex call).exec rows [] = (program sha256Hex call).exec rows' [] ∧
      ∀ answer log, (program sha256Hex call).exec rows [] = .ok (answer, log) →
        ∀ row ∈ written log, row.accountId = call.accountId.value) ∧
    (∀ (accountId : UuidText) (secretHash : Text) (rows : List Row) (device : AuthenticatedDevice)
      (log : List (Access Row)),
      (authenticate accountId secretHash).exec rows [] = .ok (some device, log) →
      device.accountId = accountId ∧ ∃ row, .device row ∈ rows ∧ row.id = device.deviceId ∧
        row.accountId = accountId.value) ∧
    (∀ (draws : Draws) (accountId : UuidText) (input : RedeemInput) (rows : List Row),
      (∀ token, .token token ∈ rows → token.accountId = accountId.value →
        token.routingId ≠ input.routingId) →
      ∃ log, (redeem sha256Hex draws accountId input).exec rows [] = .ok (.unknownToken, log) ∧
        written log = [] ∧
        ∀ (absent : UuidText) (rows' : List Row), (∀ row ∈ rows', row.accountId ≠ absent.value) →
          ∃ log', (redeem sha256Hex draws absent input).exec rows' [] = .ok (.unknownToken, log') ∧
            written log' = []) := by
  refine ⟨?_, ?_, ?_⟩
  · intro call rows rows' htwins hcall hfresh hfresh'
    have hisolated := program_isolated htwins hcall hfresh hfresh'
    refine ⟨Tx.exec_congr htwins.agree (owned_nil _) hisolated, fun answer log hexec row hrow => ?_⟩
    have howned := (Tx.owned_exec (owned_nil _) hisolated hexec).new row hrow
    exact of_decide_eq_true howned
  · intro accountId secretHash rows device log hexec
    simp only [authenticate] at hexec
    have hfound := congrArg (fun outcome => outcome.map Prod.fst) hexec
    have hfound : (((rows.filter (activeDevices accountId.value)).filterMap Row.device?).find?
        fun device => digestsEqual device.authTokenHash secretHash).map
          (fun device => (⟨accountId, device.id, device.kind⟩ : AuthenticatedDevice)) =
            some device :=
      Except.ok.inj hfound
    obtain ⟨row, hrow, rfl⟩ := Option.map_eq_some_iff.mp hfound
    obtain ⟨found, hactive, hdevice⟩ := List.mem_filterMap.mp (List.mem_of_find?_eq_some hrow)
    rw [Row.device?_eq_some] at hdevice
    subst hdevice
    obtain ⟨hmem, hactive⟩ := List.mem_filter.mp hactive
    refine ⟨rfl, row, hmem, rfl, ?_⟩
    obtain ⟨row', htable, hof⟩ := Row.among_eq_true.mp hactive
    cases htable
    exact (of_decide_eq_true hof).1
  · intro draws accountId input rows hnone
    obtain ⟨log, hlog, hwritten⟩ := redeem_unknown sha256Hex draws hnone
    refine ⟨log, hlog, hwritten, fun absent rows' habsent => ?_⟩
    refine redeem_unknown sha256Hex draws fun token htoken haccount => ?_
    exact absurd haccount (habsent _ htoken)

/-- A relay with one more account beside the small one's. -/
def sharedRelay : List Row :=
  pairedRelay ++ [.account ⟨uuid4, 0, none⟩,
    .device ⟨uuid2, uuid4, .agent, [], [], .ed25519, [], [], ['h'], 0, none, none⟩]

/-- Deleting the client does the same whether the other account is there or not. -/
theorem tenant_noninterference_small :
    let call : Call := .revokeDevice (drawsOf uuid4) uuid0.text uuidA.text
        ⟨uuid1.text, .agent, none⟩
    (program smallPlatform.sha256Hex call).exec pairedRelay []
      = (program smallPlatform.sha256Hex call).exec sharedRelay [] := by
  have htwins : Twins uuid0 pairedRelay sharedRelay :=
    ⟨⟨by decide +kernel, by decide +kernel⟩, ⟨by decide +kernel, by decide +kernel⟩, by
      unfold AgreeOn; decide +kernel, by simp [sharedRelay, pairedRelay]⟩
  intro call
  have hcall : call.DeviceAgrees pairedRelay sharedRelay := trivial
  refine ((tenant_noninterference smallPlatform.sha256Hex).1 call _ _ ?_ hcall ?_ ?_).1
  · exact htwins
  · intro draws hdraws
    cases hdraws
    unfold Draws.Fresh
    decide +kernel
  · intro draws hdraws
    cases hdraws
    unfold Draws.Fresh
    decide +kernel

/-- Room for a pairing token. -/
def issueQuota : Row := .quota ⟨uuid0, 2, 1⟩

/-- An `issue` for an agent of another account.  Where that account is not there, a foreign key is
violated; where it is, the token is issued. -/
theorem foreign_agent_shows :
    let call : Call := .issue (drawsOf uuid4) uuid0.text ⟨uuid2.text, ['r'], 60, none⟩
    let rows := issueQuota :: pairedRelay
    let rows' := issueQuota :: sharedRelay
    Twins call.accountId.value rows rows' ∧
      (∀ draws ∈ call.draws?, draws.Fresh smallPlatform.sha256Hex rows ∧
        draws.Fresh smallPlatform.sha256Hex rows') ∧
      ((program smallPlatform.sha256Hex call).exec rows []).map Prod.fst
        = .error .foreignKeyViolation ∧
      ((program smallPlatform.sha256Hex call).exec rows' []).map Prod.fst
        = .ok (.issue (.issued uuid4 60010)) := by
  intro call rows rows'
  have htwins : Twins call.accountId.value rows rows' :=
    ⟨⟨by decide +kernel, by decide +kernel⟩, ⟨by decide +kernel, by decide +kernel⟩, by
      unfold AgreeOn; decide +kernel, by simp [rows, rows', issueQuota, sharedRelay, pairedRelay]⟩
  refine ⟨htwins, ?_, by decide +kernel, by decide +kernel⟩
  intro draws hdraws
  cases hdraws
  unfold Draws.Fresh
  decide +kernel

end Osprey.Relay
