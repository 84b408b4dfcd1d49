/-
**Quotas of an account under concurrent pairing.**

`pairingTokens.redeem` counts the unrevoked devices of the account and registers one more if there
is room; `pairingTokens.issue` counts the tokens of the last hour and inserts one more if there is
room.  Neither takes a lock that the other transactions of the account wait for, so two of them can
count the same rows and both go on.

Main definitions:

* `Osprey.Relay.WithinQuota` — an account is within `max_devices` and
  `max_pairing_attempts_per_hour`;
* `Osprey.Relay.OneByOne` — between a count and the commit that relies on it no other transaction
  commits a row of the kind that was counted, and the hour of an issue, which its own clock reading
  begins, leaves out no token of the hour before its transaction.

Main results:

* `Osprey.Relay.withinQuota_commit_iff` — which commits keep an account within its quota;
* `Osprey.Relay.room_of_counted` — what a transaction has counted and nothing has added to since
  leaves room at its commit;
* `Osprey.Relay.withinQuota_of_oneByOne` — **an account is within its quota in every committed state
  of a run whose counts stay true up to their commits**;
* `Osprey.Relay.quota_exceeded_by_overlap` — a run in which two redemptions, and two issues, count
  before either commits.
-/

import Osprey.RelayRedeem
import Osprey.Schedule

set_option relaxedAutoImplicit false
set_option autoImplicit false

namespace Osprey.Relay

open Transactions ReadCommitted

/-! ### The property and the condition -/

/-- `max_devices` of the account, as the redemption reads it. -/
def maxDevices (accountId : PgUuid) (rows : List Row) : ℤ :=
  ((first Row.quota? (rows.filter (quotaOf accountId))).map QuotaRow.maxDevices).getD 0

/-- `max_pairing_attempts_per_hour` of the account, as the issue reads it. -/
def maxPairingAttemptsPerHour (accountId : PgUuid) (rows : List Row) : ℤ :=
  ((first Row.quota? (rows.filter (quotaOf accountId))).map
    QuotaRow.maxPairingAttemptsPerHour).getD 0

/-- A token of the account created in the hour that ends at `time`. -/
def createdInHour (accountId : PgUuid) (time : Date) : Row → Bool :=
  Row.among Row.token? fun token =>
    token.accountId = accountId ∧ time - 3600000 ≤ token.createdAt ∧ token.createdAt ≤ time

/-- A token of the account created at `time`. -/
def createdAtTime (accountId : PgUuid) (time : Date) : Row → Bool :=
  Row.among Row.token? fun token => token.accountId = accountId ∧ token.createdAt = time

/-- The account issued a token at `time`. -/
def IssuedAt (accountId : PgUuid) (rows : List Row) (time : Date) : Prop :=
  0 < rows.countP (createdAtTime accountId time)

instance (accountId : PgUuid) (rows : List Row) (time : Date) :
    Decidable (IssuedAt accountId rows time) := inferInstanceAs (Decidable (0 < _))

/-- The account has at most `max_devices` unrevoked devices, and at most
`max_pairing_attempts_per_hour` tokens created in any hour that ends at an issue. -/
structure WithinQuota (accountId : PgUuid) (rows : List Row) : Prop where
  devices : (rows.countP (activeDevices accountId) : ℤ) ≤ maxDevices accountId rows
  tokens : ∀ time, IssuedAt accountId rows time →
    (rows.countP (createdInHour accountId time) : ℤ) ≤ maxPairingAttemptsPerHour accountId rows

/-- The call is a redemption of the account that answers `ok`. -/
def Registers (accountId : PgUuid) (call : Call) (answer : Answer) : Prop :=
  ∃ draws account input pairingId clientDeviceId agentDeviceId deviceToken,
    call = .redeem draws account input ∧ account.value = accountId ∧
      answer = .redeem (.ok pairingId clientDeviceId agentDeviceId deviceToken)

/-- The call is an issue of the account, in a transaction begun at `time`, that answers with a
token. -/
def Issues (accountId : PgUuid) (call : Call) (answer : Answer) (time : Date) : Prop :=
  ∃ draws account input tokenId expiresAt,
    call = .issue draws account input ∧ account.value = accountId ∧ draws.txNow = time ∧
      answer = .issue (.issued tokenId expiresAt)

/-- There is room, in the rows committed before it, for what the transaction commits: for the device
of a redemption one more unrevoked device, and for the token of an issue one more token in every
hour that holds it and ends at an issue, itself or a committed one. -/
def CommitsInQuota (accountId : PgUuid) (committed : List Row) (x : RelayTxn) (answer : Answer) :
    Prop :=
  (Registers accountId x.call answer →
    (committed.countP (activeDevices accountId) : ℤ) < maxDevices accountId committed) ∧
  ∀ created, Issues accountId x.call answer created →
    ∀ time, time = created ∨ IssuedAt accountId committed time →
      time - 3600000 ≤ created → created ≤ time →
      (committed.countP (createdInHour accountId time) : ℤ)
        < maxPairingAttemptsPerHour accountId committed

/-! ### What updates do to what is counted -/

theorem activeDevices_eq (accountId : PgUuid) (row : Row) :
    activeDevices accountId row = (Row.among Row.device? (fun device =>
      device.accountId = accountId) row.frozen && !row.ended) := by
  cases row with
  | device device =>
      cases hrevoked : device.revokedAt <;>
        simp [activeDevices, Row.among, Row.device?, Row.frozen, Row.ended, hrevoked]
  | account | token | pairing | quota | audit => rfl

/-- No update makes an unrevoked device of a row that was none. -/
theorem RowKept.activeDevices {old new : Row} (h : RowKept old new) (accountId : PgUuid)
    (hnew : activeDevices accountId new = true) : activeDevices accountId old = true := by
  rw [activeDevices_eq, Bool.and_eq_true, Bool.not_eq_true'] at hnew ⊢
  refine ⟨h.1 ▸ hnew.1, ?_⟩
  cases hold : old.ended with
  | false => rfl
  | true =>
      rw [h.2 hold] at hnew
      exact absurd hnew.2 (by simp)

/-- No update changes when and for whom a token was created. -/
theorem RowKept.created {old new : Row} (h : RowKept old new) (accountId : PgUuid) (time : Date) :
    createdInHour accountId time old = createdInHour accountId time new ∧
      createdAtTime accountId time old = createdAtTime accountId time new := by
  have hhour (row : Row) : createdInHour accountId time row
      = createdInHour accountId time row.frozen := by cases row <;> rfl
  have htime (row : Row) : createdAtTime accountId time row
      = createdAtTime accountId time row.frozen := by cases row <;> rfl
  rw [hhour old, hhour new, htime old, htime new, h.1]
  exact ⟨rfl, rfl⟩

theorem quotaOf_eq_true {accountId : PgUuid} {row : Row} :
    quotaOf accountId row = true ↔ ∃ quota, row = .quota quota ∧ quota.accountId = accountId := by
  simp only [quotaOf, Row.among_eq_true, Row.quota?_eq_some, decide_eq_true_eq]

/-- An update leaves quotas alone. -/
theorem RowKept.quotaOf {old new : Row} (h : RowKept old new) (accountId : PgUuid) :
    old = new ∨ quotaOf accountId old = false ∧ quotaOf accountId new = false := by
  have hfrozen (row : Row) (quota : QuotaRow) : row.frozen = .quota quota ↔ row = .quota quota := by
    cases row <;> simp [Row.frozen]
  by_cases hquota : ∃ quota, old = .quota quota
  · obtain ⟨quota, rfl⟩ := hquota
    exact .inl ((hfrozen new quota).mp h.1).symm
  · refine .inr ⟨?_, ?_⟩
    · rw [Bool.eq_false_iff]
      intro hold
      obtain ⟨quota, rfl, -⟩ := quotaOf_eq_true.mp hold
      exact hquota ⟨quota, rfl⟩
    · rw [Bool.eq_false_iff]
      intro hnew
      obtain ⟨quota, rfl, -⟩ := quotaOf_eq_true.mp hnew
      exact hquota ⟨quota, (hfrozen old quota).mp h.1.symm⟩

/-! ### What a transaction has inserted -/

/-- What an issue has inserted, by its answer. -/
def IssueDone (draws : Draws) (accountId : UuidText) (log : List (Access Row)) :
    IssueTokenResult → Prop
  | .issued _ _ => ∃ token audit, added log = [.token token, .audit audit] ∧
      token.accountId = accountId.value ∧ token.createdAt = draws.txNow
  | _ => OnlyAudits log

theorem issueWithinTenant_issueDone (draws : Draws) (accountId : UuidText)
    (input : IssueTokenInput) :
    (issueWithinTenant draws accountId input).Ensures (IssueDone draws accountId) [] := by
  simp only [issueWithinTenant, Tx.ensures_bind, Tx.ensures_query]
  intro quota _ recent _
  split
  · simp [insertAudit, IssueDone, OnlyAudits]
  · simp [insertAudit, IssueDone, auditRow]

/-- The transaction has read the quota of the account, then counted the rows that `p` holds of, and
found fewer of them than the quota allows.  It had inserted nothing before, and updated nothing that
changes the count. -/
def Counted (max : QuotaRow → ℤ) (accountId : PgUuid) (p : Row → Bool) (log : List (Access Row)) :
    Prop :=
  ∃ before quota found after,
    log = before ++ .selected (quotaOf accountId) quota :: .selected p found :: after ∧
    added before = [] ∧ (∀ old new, .updated old new ∈ before → p old = p new) ∧
    (found.length : ℤ) < ((first Row.quota? quota).map max).getD 0

theorem redeem_counted (sha256Hex : Text → Text) (draws : Draws) (accountId : UuidText)
    (input : RedeemInput) :
    (redeem sha256Hex draws accountId input).Ensures (fun log result =>
      ∀ pairingId clientDeviceId agentDeviceId deviceToken,
        result = .ok pairingId clientDeviceId agentDeviceId deviceToken →
        Counted QuotaRow.maxDevices accountId.value (activeDevices accountId.value) log) [] := by
  simp only [redeem, Tx.ensures_bind, Tx.ensures_modify, List.nil_append]
  intro claimed hclaimed
  split
  · refine (redeemMiss_ensures draws accountId input (by simp)).mono ?_
    rintro log result ⟨rfl, -⟩ _ _ _ _ heq
    cases heq
  · rename_i token _
    simp only [redeemClaimed, Tx.ensures_bind, Tx.ensures_query]
    intro agents _
    split
    · simp [insertAudit]
    · simp only [Tx.ensures_bind, Tx.ensures_query]
      intro quota _ active _
      split
      · simp [insertAudit]
      · rename_i hroom
        simp only [insertAudit, Tx.ensures_bind, Tx.ensures_add, Tx.ensures_pure]
        intro _ _ _ _ _
        let before : List (Access Row) :=
          (claimed.map fun row => .updated row ((setUsed draws.now).apply row)) ++
            [.selected (activeDevice accountId.value token.agentDeviceId) agents]
        refine ⟨before, quota, active, ?after, ?_, ?_, ?_, not_le.mp hroom⟩
        rotate_left
        · simp only [before, List.append_assoc, List.cons_append, List.nil_append]
          rfl
        · simp [before]
        · -- the claim updates tokens only
          intro old new hmem
          obtain ⟨row, hrow, heq⟩ : ∃ row ∈ claimed, row = old ∧ (setUsed draws.now).apply row = new
            := by simpa [before] using hmem
          obtain ⟨token, rfl, -⟩ := claimable_eq_true.mp (hclaimed row hrow)
          obtain ⟨rfl, rfl⟩ := heq
          rfl

theorem issueWithinTenant_counted (draws : Draws) (accountId : UuidText)
    (input : IssueTokenInput) :
    (issueWithinTenant draws accountId input).Ensures (fun log result =>
      ∀ tokenId expiresAt, result = .issued tokenId expiresAt →
        Counted QuotaRow.maxPairingAttemptsPerHour accountId.value
          (tokenSince accountId.value (draws.now - 3600000)) log) [] := by
  simp only [issueWithinTenant, Tx.ensures_bind, Tx.ensures_query]
  intro quota _ recent _
  split
  · simp [insertAudit]
  · rename_i hroom
    simp only [insertAudit, Tx.ensures_bind, Tx.ensures_add, Tx.ensures_pure]
    intro _ _ _
    exact ⟨[], quota, recent, _, rfl, rfl, by simp, not_le.mp hroom⟩

/-- What a call's transaction has done, what an issue has inserted, and what has been counted. -/
structure QuotaDone (sha256Hex : Text → Text) (call : Call) (log : List (Access Row))
    (answer : Answer) : Prop where
  done : Done sha256Hex call log answer
  issued : ∀ draws accountId input, call = .issue draws accountId input →
    ∃ result, answer = .issue result ∧ IssueDone draws accountId log result ∧
      ∀ tokenId expiresAt, result = .issued tokenId expiresAt →
        Counted QuotaRow.maxPairingAttemptsPerHour accountId.value
          (tokenSince accountId.value (draws.now - 3600000)) log
  registered : ∀ draws accountId input, call = .redeem draws accountId input →
    ∀ pairingId clientDeviceId agentDeviceId deviceToken,
      answer = .redeem (.ok pairingId clientDeviceId agentDeviceId deviceToken) →
        Counted QuotaRow.maxDevices accountId.value (activeDevices accountId.value) log

theorem program_quotaDone (sha256Hex : Text → Text) (call : Call) :
    (program sha256Hex call).Ensures (QuotaDone sha256Hex call) [] := by
  have hdone := program_done sha256Hex call
  cases call with
  | issue draws accountId input =>
      have hissue : (program sha256Hex (.issue draws accountId input)).Ensures (fun log answer =>
          ∃ result, answer = .issue result ∧ IssueDone draws accountId log result ∧
            ∀ tokenId expiresAt, result = .issued tokenId expiresAt →
              Counted QuotaRow.maxPairingAttemptsPerHour accountId.value
                (tokenSince accountId.value (draws.now - 3600000)) log) [] := by
        simp only [program, Tx.ensures_bind, Tx.ensures_pure]
        exact ((issueWithinTenant_issueDone draws accountId input).and
          (issueWithinTenant_counted draws accountId input)).mono
          fun log result h => ⟨result, rfl, h⟩
      refine (hdone.and hissue).mono ?_
      rintro log answer ⟨hdone, hissue⟩
      refine ⟨hdone, fun draws' accountId' input' heq => ?_, fun _ _ _ heq => (by cases heq)⟩
      cases heq
      exact hissue
  | redeem draws accountId input =>
      have hredeem : (program sha256Hex (.redeem draws accountId input)).Ensures (fun log answer =>
          ∀ pairingId clientDeviceId agentDeviceId deviceToken,
            answer = .redeem (.ok pairingId clientDeviceId agentDeviceId deviceToken) →
            Counted QuotaRow.maxDevices accountId.value (activeDevices accountId.value) log)
          [] := by
        simp only [program, Tx.ensures_bind, Tx.ensures_pure]
        refine (redeem_counted sha256Hex draws accountId input).mono ?_
        intro log result h pairingId client agent deviceToken heq
        exact h pairingId client agent deviceToken (Answer.redeem.inj heq)
      refine (hdone.and hredeem).mono ?_
      rintro log answer ⟨hdone, hredeem⟩
      refine ⟨hdone, fun _ _ _ heq => (by cases heq), fun draws' accountId' input' heq => ?_⟩
      cases heq
      exact hredeem
  | authenticate | touchLastSeen | list | revokeDevice | peerIsPaired | revokePairing | record =>
      exact hdone.mono fun log answer hdone =>
        ⟨hdone, fun _ _ _ heq => (by cases heq), fun _ _ _ heq => (by cases heq)⟩

section Commits

variable {sha256Hex : Text → Text} {accountId : PgUuid} {rows : List Row} {x : RelayTxn}
  {answer : Answer}

/-- Only a redemption that answers `ok` inserts an unrevoked device. -/
theorem countP_activeDevices_added (hdone : Done sha256Hex x.call x.log answer)
    (h : ¬Registers accountId x.call answer) :
    (added x.log).countP (activeDevices accountId) = 0 := by
  rw [List.countP_eq_zero]
  intro row hrow hactive
  obtain ⟨device, hdevice, haccount⟩ : ∃ device, row = .device device ∧
      device.accountId = accountId := by
    obtain ⟨device, hdevice, hp⟩ := Row.among_eq_true.mp hactive
    exact ⟨device, Row.device?_eq_some.mp hdevice, (of_decide_eq_true hp).1⟩
  subst hdevice
  cases hcall : x.call with
  | redeem draws account input =>
      obtain ⟨result, hanswer, hresult⟩ := hdone.redeemed draws account input hcall
      cases result with
      | ok pairingId client agent deviceToken =>
          obtain ⟨-, -, token, claimed, agents, agentRow, after, audit, -, -, -, -, -, -, hadded⟩ :=
            hresult
          obtain rfl : device = _ := by simpa [hadded] using hrow
          exact h ⟨draws, account, input, pairingId, client, agent, deviceToken, hcall, haccount,
            hanswer⟩
      | unknownToken | agentRevoked | quotaExceeded =>
          obtain ⟨audit, heq⟩ := hresult _ hrow
          cases heq
  | issue | authenticate | touchLastSeen | list | revokeDevice | peerIsPaired | revokePairing
  | record =>
      have hinserts := inserts_of_added hdone.accesses hrow
      rw [hcall] at hinserts
      exact hinserts.elim

/-- A redemption that answers `ok` adds one unrevoked device to the account. -/
theorem countP_activeDevices_of_registers (hdone : Done sha256Hex x.call x.log answer)
    (h : Registers accountId x.call answer) (rows : List Row) :
    (visible rows x.log).countP (activeDevices accountId)
      = rows.countP (activeDevices accountId) + 1 := by
  obtain ⟨draws, account, input, pairingId, client, agent, deviceToken, hcall, rfl, hanswer⟩ := h
  obtain ⟨-, token, claimed, agents, agentRow, after, audit, -, -, -, -, -, -, hadded⟩ :=
    redeemed_of_done hdone hcall hanswer
  rw [countP_visible, hadded]
  · simp [activeDevices, Row.among, Row.device?, clientDevice]
  · -- a redemption updates tokens only
    intro old new hmem
    have hupdates := (hdone.accesses _ hmem).updates
    rw [hcall] at hupdates
    obtain ⟨hold, rfl⟩ := hupdates
    obtain ⟨token', rfl, -⟩ := claimable_eq_true.mp hold
    rfl

theorem quotas_visible (hdone : Done sha256Hex x.call x.log answer) (rows : List Row) :
    (visible rows x.log).filter (quotaOf accountId) = rows.filter (quotaOf accountId) := by
  rw [filter_visible fun old new hmem => (hdone.updates old new hmem).quotaOf accountId]
  refine List.append_right_eq_self.mpr (List.filter_eq_nil_iff.mpr fun row hrow hquota => ?_)
  obtain ⟨quota, rfl, -⟩ := quotaOf_eq_true.mp hquota
  have hinserts := inserts_of_added hdone.accesses hrow
  cases hcall : x.call <;> simp [hcall, Call.Inserts] at hinserts

/-- Which commits keep the account within `max_devices`. -/
theorem devices_commit_iff (hdone : Done sha256Hex x.call x.log answer)
    (hrows : (rows.countP (activeDevices accountId) : ℤ) ≤ maxDevices accountId rows) :
    ((visible rows x.log).countP (activeDevices accountId) : ℤ)
        ≤ maxDevices accountId (visible rows x.log) ↔
      (Registers accountId x.call answer →
        (rows.countP (activeDevices accountId) : ℤ) < maxDevices accountId rows) := by
  have hmax : maxDevices accountId (visible rows x.log) = maxDevices accountId rows := by
    rw [maxDevices, quotas_visible hdone, maxDevices]
  rw [hmax]
  by_cases hregisters : Registers accountId x.call answer
  · rw [countP_activeDevices_of_registers hdone hregisters, Nat.cast_succ, Int.add_one_le_iff]
    exact ⟨fun h _ => h, fun h => h hregisters⟩
  · refine iff_of_true ?_ fun h => absurd h hregisters
    have hle := countP_visible_le
      (fun old new hmem => (hdone.updates old new hmem).activeDevices accountId) rows
    rw [countP_activeDevices_added hdone hregisters, Nat.add_zero] at hle
    exact (Int.ofNat_le.mpr hle).trans hrows

/-- Only an issue that answers with a token inserts one. -/
theorem countP_tokens_added (hdone : QuotaDone sha256Hex x.call x.log answer)
    (h : ∀ created, ¬Issues accountId x.call answer created) {p : Row → Bool}
    (hp : ∀ row, p row = true → ∃ token, row = .token token ∧ token.accountId = accountId) :
    (added x.log).countP p = 0 := by
  rw [List.countP_eq_zero]
  intro row hrow hcounted
  obtain ⟨token, rfl, haccount⟩ := hp row hcounted
  obtain ⟨draws, account, input, hcall, hanswer, haccount', -⟩ := hdone.done.issued token hrow
  exact h draws.txNow ⟨draws, account, input, token.id, token.expiresAt, hcall,
    haccount'.symm.trans haccount, rfl, hanswer⟩

/-- What an issue that answers with a token has inserted. -/
theorem added_of_issues (hdone : QuotaDone sha256Hex x.call x.log answer) {created : Date}
    (h : Issues accountId x.call answer created) :
    ∃ token audit, added x.log = [.token token, .audit audit] ∧ token.accountId = accountId ∧
      token.createdAt = created := by
  obtain ⟨draws, account, input, tokenId, expiresAt, hcall, rfl, rfl, hanswer⟩ := h
  obtain ⟨result, hresult, hissue, -⟩ := hdone.issued draws account input hcall
  rw [hanswer] at hresult
  cases hresult
  exact hissue

theorem createdInHour_eq_true {time : Date} {row : Row} :
    createdInHour accountId time row = true ↔ ∃ token, row = .token token ∧
      token.accountId = accountId ∧ time - 3600000 ≤ token.createdAt ∧ token.createdAt ≤ time := by
  simp only [createdInHour, Row.among_eq_true, Row.token?_eq_some, decide_eq_true_eq]

theorem createdAtTime_eq_true {time : Date} {row : Row} :
    createdAtTime accountId time row = true ↔ ∃ token, row = .token token ∧
      token.accountId = accountId ∧ token.createdAt = time := by
  simp only [createdAtTime, Row.among_eq_true, Row.token?_eq_some, decide_eq_true_eq]

/-- Which commits keep the account within `max_pairing_attempts_per_hour`. -/
theorem tokens_commit_iff (hdone : QuotaDone sha256Hex x.call x.log answer)
    (hrows : ∀ time, IssuedAt accountId rows time →
      (rows.countP (createdInHour accountId time) : ℤ) ≤ maxPairingAttemptsPerHour accountId rows) :
    (∀ time, IssuedAt accountId (visible rows x.log) time →
      ((visible rows x.log).countP (createdInHour accountId time) : ℤ)
        ≤ maxPairingAttemptsPerHour accountId (visible rows x.log)) ↔
      ∀ created, Issues accountId x.call answer created →
        ∀ time, time = created ∨ IssuedAt accountId rows time →
          time - 3600000 ≤ created → created ≤ time →
          (rows.countP (createdInHour accountId time) : ℤ)
            < maxPairingAttemptsPerHour accountId rows := by
  have hmax : maxPairingAttemptsPerHour accountId (visible rows x.log)
      = maxPairingAttemptsPerHour accountId rows := by
    rw [maxPairingAttemptsPerHour, quotas_visible hdone.done, maxPairingAttemptsPerHour]
  have hhour (time : Date) := countP_visible (p := createdInHour accountId time)
    (fun old new hmem => ((hdone.done.updates old new hmem).created accountId time).1) rows
  have htime (time : Date) := countP_visible (p := createdAtTime accountId time)
    (fun old new hmem => ((hdone.done.updates old new hmem).created accountId time).2) rows
  simp only [hmax, hhour, IssuedAt, htime]
  by_cases hissues : ∃ created, Issues accountId x.call answer created
  · obtain ⟨created, hissues⟩ := hissues
    obtain ⟨token, audit, hadded, haccount, hcreated⟩ := added_of_issues hdone hissues
    have hone : ∀ created', Issues accountId x.call answer created' ↔ created' = created := by
      intro created'
      refine ⟨fun h => ?_, fun h => h ▸ hissues⟩
      obtain ⟨token', audit', hadded', -, hcreated'⟩ := added_of_issues hdone h
      rw [hadded] at hadded'
      cases hadded'
      exact hcreated'.symm.trans hcreated
    have hcount (time : Date) : (added x.log).countP (createdInHour accountId time)
        = if time - 3600000 ≤ created ∧ created ≤ time then 1 else 0 := by
      simp [hadded, List.countP_cons, createdInHour, Row.among, Row.token?, haccount, hcreated]
    have hpos (time : Date) : 0 < (added x.log).countP (createdAtTime accountId time)
        ↔ time = created := by
      rw [List.countP_pos_iff, eq_comm]
      simp [hadded, createdAtTime, Row.among, Row.token?, haccount, hcreated]
    simp only [hone, forall_eq, hcount, Nat.add_pos_iff_pos_or_pos, hpos]
    refine forall_congr' fun time => ?_
    rw [or_comm]
    refine forall_congr' fun hat => ?_
    by_cases hin : time - 3600000 ≤ created ∧ created ≤ time
    · rw [if_pos hin, Nat.cast_succ, Int.add_one_le_iff]
      exact ⟨fun h _ _ => h, fun h => h hin.1 hin.2⟩
    · rw [if_neg hin, Nat.add_zero]
      refine iff_of_true (hrows time (hat.resolve_left ?_)) fun h h' => absurd ⟨h, h'⟩ hin
      rintro rfl
      exact hin ⟨by simp, le_rfl⟩
  · rw [not_exists] at hissues
    have hzero {p : Row → Bool} (hp : ∀ row, p row = true → ∃ token, row = .token token ∧
        token.accountId = accountId) : (added x.log).countP p = 0 :=
      countP_tokens_added hdone hissues hp
    refine iff_of_true (fun time hat => ?_) fun created h => absurd h (hissues created)
    rw [hzero fun row h => ?_, Nat.add_zero] at hat
    · rw [hzero fun row h => ?_, Nat.add_zero]
      · exact hrows time hat
      · obtain ⟨token, heq, haccount, -⟩ := createdInHour_eq_true.mp h
        exact ⟨token, heq, haccount⟩
    · obtain ⟨token, heq, haccount, -⟩ := createdAtTime_eq_true.mp h
      exact ⟨token, heq, haccount⟩

/-- **Which commits keep an account within its quota.** -/
theorem withinQuota_commit_iff (hrows : WithinQuota accountId rows)
    (hdone : QuotaDone sha256Hex x.call x.log answer) :
    WithinQuota accountId (visible rows x.log) ↔ CommitsInQuota accountId rows x answer := by
  constructor
  · intro h
    exact ⟨(devices_commit_iff hdone.done hrows.devices).mp h.devices,
      (tokens_commit_iff hdone hrows.tokens).mp h.tokens⟩
  · intro h
    exact ⟨(devices_commit_iff hdone.done hrows.devices).mpr h.1,
      (tokens_commit_iff hdone hrows.tokens).mpr h.2⟩

end Commits

/-! ### Counts that stay true -/

/-- The transaction is about to count the unrevoked devices of the account. -/
def CountsDevices (accountId : PgUuid) (x : RelayTxn) : Prop :=
  ∃ next, x.body = .select (activeDevices accountId) next

/-- The transaction is about to count the tokens the account issued since some time. -/
def CountsTokens (accountId : PgUuid) (x : RelayTxn) : Prop :=
  ∃ since next, x.body = .select (tokenSince accountId since) next

/-- The transaction has inserted a device of the account. -/
def InsertsDevice (accountId : PgUuid) (x : RelayTxn) : Prop :=
  ∃ device, .device device ∈ added x.log ∧ device.accountId = accountId

/-- The transaction has inserted a token of the account. -/
def InsertsToken (accountId : PgUuid) (x : RelayTxn) : Prop :=
  ∃ token, .token token ∈ added x.log ∧ token.accountId = accountId

/-- An issue counts the tokens of the hour before its own reading of the clock, and stamps its token
with PostgreSQL's `now()`.  No committed token of the account is of the hour before `now()` and was
not counted. -/
def HoursAgree (accountId : PgUuid) (committed : List Row) (x : RelayTxn) (_ : Answer) : Prop :=
  ∀ draws account input, x.call = .issue draws account input → account.value = accountId →
    ∀ token, .token token ∈ committed → token.accountId = accountId →
      draws.txNow - 3600000 ≤ token.createdAt → draws.now - 3600000 ≤ token.createdAt

/-- Counts stay true up to the commits that rely on them.  No other transaction of the account
commits a device between a redemption's count of the devices and its commit, none commits a token
between an issue's count of the tokens and its commit, and the clocks agree on the hour. -/
structure OneByOne (sha256Hex : Text → Text) (accountId : PgUuid) (rows : List Row)
    (events : List (ReadCommitted.Event Call)) : Prop where
  redeem : Undisturbed (program sha256Hex) rows events (CountsDevices accountId)
    (InsertsDevice accountId) (InsertsDevice accountId)
  issue : Undisturbed (program sha256Hex) rows events (CountsTokens accountId)
    (InsertsToken accountId) (InsertsToken accountId)
  clock : Transition.Meets (step (program sha256Hex)) (AtCommits (HoursAgree accountId))
    (.init rows) events

section Counts

variable {sha256Hex : Text → Text} {accountId : PgUuid} {rows : List Row}
  {events : List (ReadCommitted.Event Call)}

/-- No transaction changes a quota. -/
theorem quotas_of_run (hrows : schema.Consistent rows) {s : RelayStore}
    (hs : Transition.run (step (program sha256Hex)) (.init rows) events = some s) :
    s.committed.filter (quotaOf accountId) = rows.filter (quotaOf accountId) :=
  committed_of_commits (program_quotaDone sha256Hex) hrows
    (J := fun committed => committed.filter (quotaOf accountId) = rows.filter (quotaOf accountId))
    rfl (fun _ _ _ _ _ h hJ => (quotas_visible h.kept.done _).trans hJ) (List.prefix_refl _) hs

/-- **What a transaction has counted, and nothing has added to since, leaves room at its
commit.** -/
theorem room_of_counted {done : List (ReadCommitted.Event Call)} {t : ℕ} {s : RelayStore}
    {x : RelayTxn} {answer : Answer} (hrows : schema.Consistent rows)
    (hat : CommitAt (QuotaDone sha256Hex) (program sha256Hex) rows events done t s x answer)
    {max : QuotaRow → ℤ} {p : Row → Bool} (hcounted : Counted max accountId p x.log)
    (hback : ∀ old new, RowKept old new → p new = true → p old = true)
    {acts inserts : RelayTxn → Prop} (hacts : acts x)
    (hundisturbed : Undisturbed (program sha256Hex) rows events
      (fun y => ∃ next, y.body = .select p next) acts inserts)
    (hinserts : ∀ (z : RelayTxn), ¬inserts z → (added z.log).countP p = 0) :
    (s.committed.countP p : ℤ)
      < ((first Row.quota? (s.committed.filter (quotaOf accountId))).map max).getD 0 := by
  obtain ⟨before, quota, found, after, hlog, hadded, hsame, hroom⟩ := hcounted
  have hupdates : ∀ old new, .updated old new ∈ before → RowKept old new := fun old new hmem =>
    hat.kept.done.updates old new (hlog ▸ List.mem_append_left _ hmem)
  -- the quota that was read is the committed one
  obtain ⟨w, _, _, hread, -, hfound⟩ := stretch_of_selected hat hlog
  obtain ⟨_, -, hw⟩ := hread.within
  have hmax : quota = s.committed.filter (quotaOf accountId) := by
    rw [hfound, filter_visible fun old new hmem => (hupdates old new hmem).quotaOf accountId,
      hadded, List.filter_nil, List.append_nil, quotas_of_run hrows hw,
      quotas_of_run hrows hat.reached]
  -- and no more rows are there now than were counted
  have hlog' : x.log
      = (before ++ [.selected (quotaOf accountId) quota]) ++ .selected p found :: after := by
    simpa using hlog
  obtain ⟨u, y, mid, hstretch, hreads, hfound'⟩ := stretch_of_selected hat hlog'
  have hcount : found.length = u.committed.countP p := by
    rw [hfound', ← List.countP_eq_length_filter, visible_append, countP_visible (by simp),
      countP_visible hsame, hadded]
    simp
  obtain ⟨_, -, hu⟩ := hstretch.within
  have hle : s.committed.countP p ≤ u.committed.countP p := by
    refine committed_along (program_quotaDone sha256Hex)
      (J := fun committed => committed.countP p ≤ u.committed.countP p) ?_
      (kept_of_run (program_quotaDone sha256Hex) hrows hu) le_rfl
      (hundisturbed t u y mid s x answer hstretch hreads hacts) hstretch.between
    intro committed z result hJ _ _ hz hno
    have hmore := countP_visible_le
      (fun old new hmem => hback old new (hz.done.updates old new hmem)) committed
    rw [hinserts z hno, Nat.add_zero] at hmore
    exact hmore.trans hJ
  rw [← hmax]
  refine lt_of_le_of_lt ?_ hroom
  rw [hcount]
  exact Int.ofNat_le.mpr hle

/-- **One by one, every commit finds room.** -/
theorem commitsInQuota_of_oneByOne {done : List (ReadCommitted.Event Call)} {t : ℕ}
    {s : RelayStore} {x : RelayTxn} {answer : Answer} (hrows : schema.Consistent rows)
    (hone : OneByOne sha256Hex accountId rows events)
    (hat : CommitAt (QuotaDone sha256Hex) (program sha256Hex) rows events done t s x answer) :
    CommitsInQuota accountId s.committed x answer := by
  constructor
  · rintro ⟨draws, account, input, pairingId, client, agent, deviceToken, hcall, rfl, hanswer⟩
    have hinserted : InsertsDevice account.value x := by
      obtain ⟨-, token, claimed, agents, agentRow, after, audit, -, -, -, -, -, -, hadded⟩ :=
        redeemed_of_done hat.kept.done hcall hanswer
      exact ⟨clientDevice sha256Hex draws account input, by simp [hadded], rfl⟩
    refine room_of_counted hrows hat
      (hat.kept.registered draws account input hcall _ _ _ _ hanswer)
      (fun old new hkept => hkept.activeDevices account.value) hinserted hone.redeem ?_
    intro z hno
    rw [List.countP_eq_zero]
    intro row hrow hactive
    obtain ⟨device, hdevice, hp⟩ := Row.among_eq_true.mp hactive
    rw [Row.device?_eq_some.mp hdevice] at hrow
    exact hno ⟨device, hrow, (of_decide_eq_true hp).1⟩
  · rintro created ⟨draws, account, input, tokenId, expiresAt, hcall, rfl, rfl, hanswer⟩ time -
      hfrom hto
    obtain ⟨result, hresult, -, hcounted⟩ := hat.kept.issued draws account input hcall
    rw [hanswer] at hresult
    cases hresult
    have hinserted : InsertsToken account.value x := by
      obtain ⟨token, audit, hadded, haccount, -⟩ := added_of_issues hat.kept
        ⟨draws, account, input, tokenId, expiresAt, hcall, rfl, rfl, hanswer⟩
      exact ⟨token, by simp [hadded], haccount⟩
    have hroom := room_of_counted hrows hat (hcounted tokenId expiresAt rfl) ?_ hinserted
      (fun t u y mid v z result hstretch hreads => hone.issue t u y mid v z result hstretch
        ⟨_, hreads⟩) ?_
    · -- the hours that hold the new token have been counted
      refine lt_of_le_of_lt (Int.ofNat_le.mpr (List.countP_mono_left fun row hrow hin => ?_)) hroom
      obtain ⟨token, rfl, haccount, hsince, -⟩ := createdInHour_eq_true.mp hin
      have hhour : draws.txNow - 3600000 ≤ token.createdAt :=
        (Int.sub_le_sub_right hto 3600000).trans hsince
      have := hone.clock.at hat.within hat.reached t x _ rfl hat.txn hat.commits.1 hat.commits.2
        draws account input hcall rfl token hrow haccount hhour
      exact Row.among_eq_true.mpr ⟨token, rfl, decide_eq_true ⟨haccount, this⟩⟩
    · intro old new hkept hnew
      have hfrozen (row : Row) : tokenSince account.value (draws.now - 3600000) row
          = tokenSince account.value (draws.now - 3600000) row.frozen := by cases row <;> rfl
      rw [hfrozen, ← hkept.1, ← hfrozen]
      exact hnew
    · intro z hno
      rw [List.countP_eq_zero]
      intro row hrow hsince
      obtain ⟨token, htoken, hp⟩ := Row.among_eq_true.mp hsince
      rw [Row.token?_eq_some.mp htoken] at hrow
      exact hno ⟨token, hrow, (of_decide_eq_true hp).1⟩

end Counts

/-- **Quotas hold under concurrency where counts stay true up to the commits that rely on them.**
Along any run from a database in which the account is within its quota, it is so in every committed
state. -/
theorem withinQuota_of_oneByOne (sha256Hex : Text → Text) (accountId : PgUuid)
    {rows : List Row} (hrows : schema.Consistent rows) (hinit : WithinQuota accountId rows)
    {events : List (ReadCommitted.Event Call)} (hone : OneByOne sha256Hex accountId rows events) :
    ∀ done, done <+: events → ∀ u : RelayStore,
      Transition.run (step (program sha256Hex)) (.init rows) done = some u →
        WithinQuota accountId u.committed := by
  intro done hdone u hu
  refine committed_of_commits (program_quotaDone sha256Hex) hrows (J := WithinQuota accountId)
    hinit ?_ hdone hu
  intro done t s x answer hat hJ
  exact (withinQuota_commit_iff hJ hat.kept).mpr (commitsInQuota_of_oneByOne hrows hone hat)

/-! ### Two of a kind at once -/

/-- Whether an account is within its quota is found out by going through its tokens. -/
instance WithinQuota.decidable (accountId : PgUuid) (rows : List Row) :
    Decidable (WithinQuota accountId rows) :=
  decidable_of_iff ((rows.countP (activeDevices accountId) : ℤ) ≤ maxDevices accountId rows ∧
      ∀ token ∈ rows.filterMap Row.token?, token.accountId = accountId →
        (rows.countP (createdInHour accountId token.createdAt) : ℤ)
          ≤ maxPairingAttemptsPerHour accountId rows) <| by
    constructor
    · rintro ⟨hdevices, htokens⟩
      refine ⟨hdevices, fun time hat => ?_⟩
      obtain ⟨row, hrow, hcreated⟩ := List.countP_pos_iff.mp hat
      obtain ⟨token, rfl, haccount, rfl⟩ := createdAtTime_eq_true.mp hcreated
      exact htokens token (List.mem_filterMap.mpr ⟨_, hrow, rfl⟩) haccount
    · intro h
      refine ⟨h.devices, fun token htoken haccount => h.tokens token.createdAt ?_⟩
      obtain ⟨row, hrow, heq⟩ := List.mem_filterMap.mp htoken
      refine List.countP_pos_iff.mpr ⟨row, hrow, createdAtTime_eq_true.mpr ?_⟩
      exact ⟨token, Row.token?_eq_some.mp heq, haccount, rfl⟩

def uuid5 : PgUuid := ⟨uuidChars '5', by decide, by decide⟩

/-- One account with room for two devices and one token an hour, and its agent. -/
def tightRelay : List Row :=
  [.account ⟨uuid0, 0, none⟩, .quota ⟨uuid0, 2, 1⟩,
    .device ⟨uuid1, uuid0, .agent, [], [], .ed25519, [], [], ['h'], 0, none, none⟩]

theorem tightRelay_consistent : schema.Consistent tightRelay :=
  ⟨by decide +kernel, by decide +kernel⟩

/-- Two issues count before either commits, and then two redemptions of their tokens do. -/
def crowdEvents : List (ReadCommitted.Event Call) :=
  [.start (.issue ⟨uuid2, uuid2, uuid2, uuid2, [], 10, 10, 10⟩ uuid0.text
      ⟨uuid1.text, ['r'], 60, none⟩),
    .start (.issue ⟨uuid3, uuid3, uuid3, uuid3, [], 10, 10, 10⟩ uuid0.text
      ⟨uuid1.text, ['q'], 60, none⟩)] ++
    List.replicate 2 (.exec 0) ++ List.replicate 5 (.exec 1) ++ List.replicate 3 (.exec 0) ++
    [.start (.redeem ⟨uuid4, uuid4, uuid4, uuid4, ['s'], 20, 20, 20⟩ uuid0.text
        ⟨['r'], ['c'], [], .p256, [], [], none⟩),
      .start (.redeem ⟨uuid5, uuid5, uuid5, uuid5, ['t'], 20, 20, 20⟩ uuid0.text
        ⟨['q'], ['c'], [], .p256, [], [], none⟩)] ++
    List.replicate 6 (.exec 2) ++ List.replicate 10 (.exec 3) ++ List.replicate 4 (.exec 2)

/-- The account ends with three unrevoked devices where two are allowed, and with two tokens of one
hour where one is. -/
theorem quota_exceeded_by_overlap : WithinQuota uuid0 tightRelay ∧ ∃ s : RelayStore,
    Transition.run (step (program id)) (.init tightRelay) crowdEvents = some s ∧
      s.committed.countP (activeDevices uuid0) = 3 ∧ maxDevices uuid0 s.committed = 2 ∧
      IssuedAt uuid0 s.committed 10 ∧ s.committed.countP (createdInHour uuid0 10) = 2 ∧
      maxPairingAttemptsPerHour uuid0 s.committed = 1 := by
  have hrun : ((Transition.run (step (program id)) (Store.init tightRelay : RelayStore)
      crowdEvents).any fun s => decide (s.committed.countP (activeDevices uuid0) = 3 ∧
        maxDevices uuid0 s.committed = 2 ∧ IssuedAt uuid0 s.committed 10 ∧
        s.committed.countP (createdInHour uuid0 10) = 2 ∧
        maxPairingAttemptsPerHour uuid0 s.committed = 1)) = true := by
    decide +kernel
  obtain ⟨s, hs, hend⟩ := (Option.any_eq_true _ _).mp hrun
  exact ⟨by decide +kernel, s, hs, of_decide_eq_true hend⟩

/-- An issue and, when it has committed, a redemption. -/
def pairEvents : List (ReadCommitted.Event Call) :=
  [.start (.issue ⟨uuid2, uuid2, uuid2, uuid2, [], 10, 10, 10⟩ uuid0.text
      ⟨uuid1.text, ['r'], 60, none⟩)] ++ List.replicate 5 (.exec 0) ++
    [.start (.redeem ⟨uuid3, uuid3, uuid3, uuid3, ['s'], 20, 20, 20⟩ uuid0.text
      ⟨['r'], ['c'], [], .p256, [], [], none⟩)] ++ List.replicate 10 (.exec 1)

/-- The transaction's readings of the clock are not ahead of its `now()`. -/
def Call.inStep : Call → Bool
  | .issue draws _ _ => draws.now ≤ draws.txNow
  | _ => true

/-- Where no clock reading is ahead of `now()`, the hours agree. -/
theorem hoursAgree_of_inStep {accountId : PgUuid} {events : List (ReadCommitted.Event Call)}
    {s : RelayStore} (h : Transition.Meets (step (program id))
      (fun s _ => (s.txns.all fun x => x.call.inStep) = true) s events) :
    Transition.Meets (step (program id)) (AtCommits (HoursAgree accountId)) s events := by
  refine h.mono fun s event hall t x answer _ hx _ _ draws account input hcall _ token _ _ hsince =>
    ?_
  have hstep := List.all_eq_true.mp hall x (List.mem_of_getElem? hx)
  rw [hcall] at hstep
  exact (Int.sub_le_sub_right (of_decide_eq_true hstep) 3600000).trans hsince

/-- One after the other they find room, though there is no more left than they take. -/
theorem withinQuota_of_oneByOne_pair : OneByOne id uuid0 tightRelay pairEvents ∧ ∃ s : RelayStore,
    Transition.run (step (program id)) (.init tightRelay) pairEvents = some s ∧
      s.committed.countP (activeDevices uuid0) = 2 ∧ WithinQuota uuid0 s.committed := by
  have hrun : ((Transition.run (step (program id)) (Store.init tightRelay : RelayStore)
      pairEvents).any fun s => decide (s.committed.countP (activeDevices uuid0) = 2)) = true := by
    decide +kernel
  obtain ⟨s, hs, hend⟩ := (Option.any_eq_true _ _).mp hrun
  have halone : Transition.Meets (step (program id)) Alone (Store.init tightRelay : RelayStore)
      pairEvents := by
    decide +kernel
  have hone : OneByOne id uuid0 tightRelay pairEvents :=
    ⟨undisturbed_of_alone halone _ _ _, undisturbed_of_alone halone _ _ _,
      hoursAgree_of_inStep (by decide +kernel)⟩
  exact ⟨hone, s, hs, of_decide_eq_true hend, withinQuota_of_oneByOne id uuid0
    tightRelay_consistent (by decide +kernel) hone _ (List.prefix_refl _) s hs⟩

end Osprey.Relay
