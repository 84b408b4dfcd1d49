/-
**Revoking a device while a client pairs with it.**

`devices.revoke` and `pairingTokens.redeem` of the relay, among any other transactions of the
repository, interleaved under READ COMMITTED.  A revocation revokes the device and then the pairings
its `UPDATE` sees; a redemption reads the agent's row and inserts the pairing later.  Nothing makes
one wait for the other: the insertion takes no lock that the revocation's update of the device
conflicts with.  So a pairing can be committed after the revocation has looked for it.

Main definitions:

* `Osprey.Relay.NoLiveRevoked` — no unrevoked pairing refers to a revoked device;
* `Osprey.Relay.Apart` — no revocation of the agent commits between a redemption's reading it and
  the commit of its pairing, and no pairing of the device is committed between a revocation's
  looking for them and its commit.

Main results:

* `Osprey.Relay.noLiveRevoked_commit_iff` — which commits keep the property;
* `Osprey.Relay.commitsInTime_of_apart` — kept apart, all do: the agent is still unrevoked, and the
  `UPDATE` of the revocation has reached every live pairing;
* `Osprey.Relay.noLiveRevoked_of_apart` — **the property holds in every committed state of a run in
  which they are kept apart**;
* `Osprey.Relay.live_pairing_of_revoked_agent` — a run in which they are not.
-/

import Osprey.RelayRedeem
import Osprey.Schedule

set_option relaxedAutoImplicit false
set_option autoImplicit false

namespace Osprey.Relay

open Transactions ReadCommitted

/-! ### The property and the condition -/

/-- The pairing is between this device and another. -/
def PairingRow.Joins (pairing : PairingRow) (deviceId : PgUuid) : Prop :=
  pairing.agentDeviceId = deviceId ∨ pairing.clientDeviceId = deviceId

instance (pairing : PairingRow) (deviceId : PgUuid) : Decidable (pairing.Joins deviceId) :=
  inferInstanceAs (Decidable (_ ∨ _))

/-- No unrevoked pairing refers to a revoked device. -/
def NoLiveRevoked (rows : List Row) : Prop :=
  ∀ pairing device, .pairing pairing ∈ rows → .device device ∈ rows → pairing.revokedAt = none →
    pairing.Joins device.id → device.revokedAt = none

/-- The commit of the transaction comes in time.  The agent of a pairing it has inserted is
unrevoked in the committed rows; and if it is a revocation of a device, every live pairing of the
device in the committed rows is one that its own `UPDATE` has reached. -/
def CommitsInTime (committed : List Row) (x : RelayTxn) (answer : Answer) : Prop :=
  (∀ pairing, .pairing pairing ∈ added x.log → ∀ device, .device device ∈ committed →
    device.id = pairing.agentDeviceId → device.revokedAt = none) ∧
  ∀ draws accountId deviceId actor, x.call = .revokeDevice draws accountId deviceId actor →
    answer = .revoke true → ∀ pairing, .pairing pairing ∈ committed → pairing.revokedAt = none →
    pairing.Joins deviceId.value → ∃ new, .updated (.pairing pairing) new ∈ x.log

/-! ### What a transaction does to pairings and devices -/

/-- What an update makes of a pairing is revoked. -/
theorem Call.Updates.pairing_revoked {call : Call} {old : Row} {pairing : PairingRow}
    (h : call.Updates old (.pairing pairing)) : pairing.revokedAt ≠ none := by
  cases call with
  | redeem draws accountId input =>
      obtain ⟨hold, hnew⟩ := h
      obtain ⟨token, rfl, -⟩ := claimable_eq_true.mp hold
      cases hnew
  | touchLastSeen draws accountId deviceId =>
      obtain ⟨hold, hnew⟩ := h
      obtain ⟨device, rfl, -⟩ := deviceOf_eq_true.mp hold
      cases hnew
  | revokeDevice draws accountId deviceId actor =>
      rcases h with ⟨hold, hnew⟩ | ⟨hold, hnew⟩
      · obtain ⟨device, rfl, -⟩ := activeDevice_eq_true.mp hold
        cases hnew
      · obtain ⟨old, rfl, -⟩ := livePairingOf_eq_true.mp hold
        cases hnew
        simp
  | revokePairing draws accountId pairingId actor =>
      obtain ⟨hold, hnew⟩ := h
      obtain ⟨old, rfl, -⟩ := livePairing_eq_true.mp hold
      cases hnew
      simp
  | issue | authenticate | list | peerIsPaired | record => exact h.elim

/-- The id of a device and whether it is revoked; nothing of the other tables. -/
def Row.standing (row : Row) : Option (PgUuid × Option Date) :=
  row.device?.map fun device => (device.id, device.revokedAt)

/-- Only a device revocation changes the standing of a device. -/
theorem Call.Updates.standing {call : Call} {old new : Row} (h : call.Updates old new)
    (hcall : ∀ draws accountId deviceId actor,
      call ≠ .revokeDevice draws accountId deviceId actor) : old.standing = new.standing := by
  cases call with
  | redeem draws accountId input =>
      obtain ⟨hold, rfl⟩ := h
      obtain ⟨token, rfl, -⟩ := claimable_eq_true.mp hold
      rfl
  | touchLastSeen draws accountId deviceId =>
      obtain ⟨hold, rfl⟩ := h
      obtain ⟨device, rfl, -⟩ := deviceOf_eq_true.mp hold
      rfl
  | revokeDevice draws accountId deviceId actor =>
      exact absurd rfl (hcall draws accountId deviceId actor)
  | revokePairing draws accountId pairingId actor =>
      obtain ⟨hold, rfl⟩ := h
      obtain ⟨old, rfl, -⟩ := livePairing_eq_true.mp hold
      rfl
  | issue | authenticate | list | peerIsPaired | record => exact h.elim

section Commits

variable {call : Call} {rows : List Row} {log : List (Access Row)}

/-- A live pairing after a commit was live and committed before it, or the commit has inserted
it. -/
theorem live_pairing_origin (hlog : ∀ access ∈ log, call.Makes access) {pairing : PairingRow}
    (h : .pairing pairing ∈ visible rows log) (hlive : pairing.revokedAt = none) :
    .pairing pairing ∈ rows ∨ .pairing pairing ∈ added log := by
  rcases visible_cases h with hrow | hadded | ⟨old, hupdate⟩
  · exact .inl hrow
  · exact .inr hadded
  · exact absurd hlive (hlog _ hupdate).updates.pairing_revoked

/-- Where devices are not revoked, a device after a commit has the standing it had before it, or the
commit has inserted it. -/
theorem device_origin (hlog : ∀ access ∈ log, call.Makes access)
    (hcall : ∀ draws accountId deviceId actor,
      call ≠ .revokeDevice draws accountId deviceId actor) {device : DeviceRow}
    (h : .device device ∈ visible rows log) :
    ∃ device', (.device device' ∈ rows ∨ .device device' ∈ added log) ∧
      device'.id = device.id ∧ device'.revokedAt = device.revokedAt := by
  obtain ⟨origin, horigin, hsame⟩ := visible_origin
    (R := fun old new => old.standing = new.standing) (fun _ => rfl) (fun _ _ _ => Eq.trans)
    (fun old new hmem => (hlog _ hmem).updates.standing hcall) h
  cases origin with
  | device device' =>
      simp only [Row.standing, Row.device?, Option.map_some, Option.some.injEq,
        Prod.mk.injEq] at hsame
      exact ⟨device', List.mem_append.mp horigin, hsame⟩
  | account | token | pairing | quota | audit => simp [Row.standing, Row.device?] at hsame

/-- What a transaction inserts into devices and pairings: an unrevoked client, and an unrevoked
pairing with that client, which it does not touch again. -/
structure NewPairings (log : List (Access Row)) : Prop where
  device : ∀ device, .device device ∈ added log → device.revokedAt = none
  client : ∀ pairing, .pairing pairing ∈ added log → pairing.revokedAt = none ∧
    ∃ device, .device device ∈ added log ∧ device.id = pairing.clientDeviceId
  untouched : ∀ pairing, .pairing pairing ∈ added log → ∀ new, .updated (.pairing pairing) new ∉ log

theorem newPairings_of_done {sha256Hex : Text → Text} {answer : Answer}
    (h : Done sha256Hex call log answer) : NewPairings log := by
  -- devices and pairings are inserted by redemptions only
  have hnone (hdevice : ∀ device, ¬call.Inserts (.device device))
      (hpairing : ∀ pairing, ¬call.Inserts (.pairing pairing)) : NewPairings log :=
    ⟨fun device hmem => absurd (inserts_of_added h.accesses hmem) (hdevice device),
      fun pairing hmem => absurd (inserts_of_added h.accesses hmem) (hpairing pairing),
      fun pairing hmem => absurd (inserts_of_added h.accesses hmem) (hpairing pairing)⟩
  cases call with
  | redeem draws accountId input =>
      have huntouched : ∀ pairing new, .updated (.pairing pairing) new ∉ log := by
        intro pairing new hmem
        obtain ⟨hold, -⟩ := h.accesses _ hmem
        obtain ⟨token, heq, -⟩ := claimable_eq_true.mp hold
        cases heq
      obtain ⟨result, -, hresult⟩ := h.redeemed draws accountId input rfl
      have hempty (haudits : OnlyAudits log) : NewPairings log := by
        refine ⟨fun device hmem => ?_, fun pairing hmem => ?_, fun pairing _ => huntouched pairing⟩
        · obtain ⟨audit, heq⟩ := haudits _ hmem
          cases heq
        · obtain ⟨audit, heq⟩ := haudits _ hmem
          cases heq
      cases result with
      | ok pairingId client agent deviceToken =>
          obtain ⟨-, -, token, claimed, agents, device, after, audit, -, -, -, -, -, -, hadded⟩ :=
            hresult
          refine ⟨?_, ?_, fun pairing _ => huntouched pairing⟩
          · intro device hmem
            obtain rfl : device = _ := by simpa [hadded] using hmem
            rfl
          · intro pairing hmem
            obtain rfl : pairing = _ := by simpa [hadded] using hmem
            exact ⟨rfl, clientDevice sha256Hex draws accountId input, by simp [hadded], rfl⟩
      | unknownToken | agentRevoked | quotaExceeded => exact hempty hresult
  | issue | authenticate | touchLastSeen | list | revokeDevice | peerIsPaired | revokePairing
  | record => exact hnone (fun _ h => h) (fun _ h => h)

/-- Where the transaction is not a device revocation, the property is kept exactly if the agents of
the pairings it inserts are unrevoked. -/
theorem noLiveRevoked_iff_agents (hrows : NoLiveRevoked rows) (hsound : Sound schema rows log)
    (hlog : ∀ access ∈ log, call.Makes access) (hnew : NewPairings log)
    (hcall : ∀ draws accountId deviceId actor,
      call ≠ .revokeDevice draws accountId deviceId actor) :
    NoLiveRevoked (visible rows log) ↔ ∀ pairing, .pairing pairing ∈ added log →
      ∀ device, .device device ∈ rows → device.id = pairing.agentDeviceId →
        device.revokedAt = none := by
  constructor
  · intro h pairing hpairing device hdevice hid
    obtain ⟨row, hrow, hsame⟩ := exists_visible (R := fun old new => old.standing = new.standing)
      (fun _ => rfl) (fun _ _ _ => Eq.trans)
      (fun old new hmem => (hlog _ hmem).updates.standing hcall) hdevice
    obtain ⟨device', rfl, hid', hrevoked⟩ : ∃ device', row = .device device' ∧
        device'.id = device.id ∧ device'.revokedAt = device.revokedAt := by
      cases row with
      | device device' =>
          simp only [Row.standing, Row.device?, Option.map_some, Option.some.injEq,
            Prod.mk.injEq] at hsame
          exact ⟨device', rfl, hsame.1.symm, hsame.2.symm⟩
      | account | token | pairing | quota | audit => simp [Row.standing, Row.device?] at hsame
    rw [← hrevoked]
    exact h pairing device' (visible_of_added hpairing (hnew.untouched pairing hpairing)) hrow
      (hnew.client pairing hpairing).1 (.inl (hid'.trans hid).symm)
  · intro h pairing device hpairing hdevice hlive hjoins
    obtain ⟨device₀, horigin, hid, hrevoked⟩ := device_origin hlog hcall hdevice
    rw [← hrevoked]
    rcases horigin with hold | hadded
    · rcases live_pairing_origin hlog hpairing hlive with hpairing | hpairing
      · exact hrows pairing device₀ hpairing hold hlive (hid ▸ hjoins)
      · rcases hjoins with hagent | hclient
        · exact h pairing hpairing device₀ hold (hid.trans hagent.symm)
        · -- no committed device has the id of the new client
          obtain ⟨-, client, hclientMem, hclientId⟩ := hnew.client pairing hpairing
          refine absurd (clash_device ?_) (hsound.fresh _ hclientMem _ hold)
          exact hclientId.trans (hclient.trans hid.symm)
    · exact hnew.device device₀ hadded

/-- A row goes on from another: a device from a device of the same id, and with the same revocation
unless it is the one being revoked. -/
def GoesOn (deviceId : PgUuid) (old new : Row) : Prop :=
  ∀ device, new = .device device → ∃ device', old = .device device' ∧ device'.id = device.id ∧
    (device'.revokedAt = device.revokedAt ∨ device.id = deviceId)

theorem GoesOn.refl (deviceId : PgUuid) (row : Row) : GoesOn deviceId row row :=
  fun device heq => ⟨device, heq, rfl, .inl rfl⟩

theorem GoesOn.trans (deviceId : PgUuid) (a b c : Row) (hab : GoesOn deviceId a b)
    (hbc : GoesOn deviceId b c) : GoesOn deviceId a c := by
  rintro device rfl
  obtain ⟨device', rfl, hid, hrevoked⟩ := hbc device rfl
  obtain ⟨device'', rfl, hid', hrevoked'⟩ := hab device' rfl
  refine ⟨device'', rfl, hid'.trans hid, ?_⟩
  rcases hrevoked with hrevoked | hrevoked
  · exact hrevoked'.imp (·.trans hrevoked) (hid ▸ ·)
  · exact .inr hrevoked

section Revocation

variable {draws : Draws} {accountId deviceId : UuidText} {actor : Actor}

/-- What a device revocation makes of a device is the device it is called for, revoked. -/
theorem updates_revokeDevice {old : Row} {device : DeviceRow}
    (h : (Call.revokeDevice draws accountId deviceId actor).Updates old (.device device)) :
    ∃ device', old = .device device' ∧ device'.id = device.id ∧ device.id = deviceId.value ∧
      device.revokedAt ≠ none := by
  rcases h with ⟨hold, hnew⟩ | ⟨hold, hnew⟩
  · obtain ⟨device', rfl, -, hid, -⟩ := activeDevice_eq_true.mp hold
    cases hnew
    exact ⟨device', rfl, rfl, hid, by simp⟩
  · obtain ⟨pairing, rfl, -⟩ := livePairingOf_eq_true.mp hold
    cases hnew

variable (hlog : ∀ access ∈ log, (Call.revokeDevice draws accountId deviceId actor).Makes access)
include hlog

/-- A device revocation has written neither an unrevoked device nor an unrevoked pairing. -/
theorem not_written_of_live {row : Row} (hrow : row.ended = false)
    (htable : (∃ device, row = .device device) ∨ ∃ pairing, row = .pairing pairing) :
    row ∉ written log := by
  intro hwritten
  rcases mem_written.mp hwritten with hadded | ⟨old, hupdate⟩
  · rcases htable with ⟨device, rfl⟩ | ⟨pairing, rfl⟩
    · exact inserts_of_added hlog hadded
    · exact inserts_of_added hlog hadded
  · rcases htable with ⟨device, rfl⟩ | ⟨pairing, rfl⟩
    · obtain ⟨-, -, -, -, hrevoked⟩ := updates_revokeDevice (hlog _ hupdate).updates
      exact hrevoked (by simpa [Row.ended] using hrow)
    · exact (hlog _ hupdate).updates.pairing_revoked (by simpa [Row.ended] using hrow)

/-- A device revocation that answered `true` leaves the device revoked. -/
theorem revoked_of_done (hsound : Sound schema rows log)
    (h : RevokeDone draws accountId deviceId log true) :
    ∃ device, .device device ∈ visible rows log ∧ device.id = deviceId.value ∧
      device.revokedAt ≠ none := by
  obtain ⟨row, after, heq, hactive⟩ := h
  obtain ⟨device, rfl, -, hid, hunrevoked⟩ := activeDevice_eq_true.mp hactive
  have hupdates : ∀ old new, .updated old new ∈ log → RowKept old new :=
    fun old new hmem => (hlog _ hmem).updates.kept
  have hold : .device device ∈ rows := by
    refine (hsound.grounded (.device device)
      ((setDeviceRevoked draws.now).apply (.device device)) ?_).resolve_right ?_
    · rw [heq]
      exact List.mem_cons_self ..
    · exact not_written_of_live hlog (by simp [Row.ended, hunrevoked]) (.inl ⟨device, rfl⟩)
  have hnew : .device { device with revokedAt := some draws.now }
      ∈ Access.replay rows
        (.updated (.device device) ((setDeviceRevoked draws.now).apply (.device device))) :=
    List.mem_map.mpr ⟨.device device, hold, if_pos rfl⟩
  rw [heq] at hupdates
  obtain ⟨row, hrow, hkept⟩ := exists_visible RowKept.refl RowKept.trans
    (fun old new hmem => hupdates old new (List.mem_cons_of_mem _ hmem)) hnew
  obtain ⟨device', rfl, hid', -⟩ := frozen_device hkept.1
  refine ⟨device', heq ▸ hrow, hid'.trans hid, ?_⟩
  simpa [Row.ended, Option.isSome_iff_ne_none] using hkept.2 rfl

/-- A device revocation that answered `true` keeps the property exactly if it has reached every live
pairing of the device. -/
theorem noLiveRevoked_iff_reached (hrows : NoLiveRevoked rows) (hsound : Sound schema rows log)
    (h : RevokeDone draws accountId deviceId log true) :
    NoLiveRevoked (visible rows log) ↔ ∀ pairing, .pairing pairing ∈ rows →
      pairing.revokedAt = none → pairing.Joins deviceId.value →
      ∃ new, .updated (.pairing pairing) new ∈ log := by
  have hunwritten {pairing : PairingRow} (hlive : pairing.revokedAt = none) :
      .pairing pairing ∉ written log :=
    not_written_of_live hlog (by simp [Row.ended, hlive]) (.inr ⟨pairing, rfl⟩)
  constructor
  · intro hafter pairing hpairing hlive hjoins
    by_contra hnone
    rw [not_exists] at hnone
    obtain ⟨device, hdevice, hid, hrevoked⟩ := revoked_of_done hlog hsound h
    exact hrevoked (hafter pairing device (visible_of_not_updated hpairing hnone) hdevice hlive
      (hid ▸ hjoins))
  · intro hreached pairing device hpairing hdevice hlive hjoins
    have hbefore : .pairing pairing ∈ rows :=
      (mem_visible hpairing).resolve_right (hunwritten hlive)
    have hgoes : ∀ old new, .updated old new ∈ log → GoesOn deviceId.value old new := by
      rintro old new hmem device rfl
      obtain ⟨device', rfl, hid, hthis, -⟩ := updates_revokeDevice (hlog _ hmem).updates
      exact ⟨device', rfl, hid, .inr hthis⟩
    obtain ⟨origin, horigin, hgoes⟩ := visible_origin (GoesOn.refl deviceId.value)
      (GoesOn.trans deviceId.value) hgoes hdevice
    obtain ⟨device', rfl, hid, hsame⟩ := hgoes device rfl
    rcases hsame with hsame | hthis
    · rcases List.mem_append.mp horigin with hold | hnew
      · rw [← hsame]
        exact hrows pairing device' hbefore hold hlive (hid ▸ hjoins)
      · exact (inserts_of_added hlog hnew).elim
    · -- the pairing was reached, so this version of it is gone
      obtain ⟨new, hnew⟩ := hreached pairing hbefore hlive (hthis ▸ hjoins)
      exact absurd hpairing (not_visible_of_updated hnew (hunwritten hlive))

end Revocation

end Commits

/-! ### Which commits keep the property -/

/-- **Which commits keep the property.** -/
theorem noLiveRevoked_commit_iff {sha256Hex : Text → Text} {rows : List Row} {x : RelayTxn}
    {answer : Answer} (hrows : NoLiveRevoked rows) (hsound : Sound schema rows x.log)
    (hdone : Done sha256Hex x.call x.log answer) :
    NoLiveRevoked (visible rows x.log) ↔ CommitsInTime rows x answer := by
  by_cases hcall : ∃ draws accountId deviceId actor,
    x.call = .revokeDevice draws accountId deviceId actor
  · obtain ⟨draws, accountId, deviceId, actor, hcall⟩ := hcall
    obtain ⟨revoked, rfl, hrevoked⟩ := hdone.revoked draws accountId deviceId actor hcall
    have hlog := hdone.accesses
    rw [hcall] at hlog
    have hnopairing : ∀ pairing, .pairing pairing ∉ added x.log :=
      fun pairing hmem => inserts_of_added hlog hmem
    cases revoked with
    | false =>
        rw [show x.log = [] from hrevoked, visible_nil]
        refine iff_of_true hrows ⟨fun pairing hmem => absurd hmem (hnopairing pairing), ?_⟩
        intro _ _ _ _ _ hanswer
        cases hanswer
    | true =>
        rw [noLiveRevoked_iff_reached hlog hrows hsound hrevoked]
        constructor
        · intro hreached
          refine ⟨fun pairing hmem => absurd hmem (hnopairing pairing), ?_⟩
          intro draws' accountId' deviceId' actor' hcall' _
          cases hcall.symm.trans hcall'
          exact hreached
        · intro hintime
          exact hintime.2 draws accountId deviceId actor hcall rfl
  · simp only [not_exists] at hcall
    rw [noLiveRevoked_iff_agents hrows hsound hdone.accesses (newPairings_of_done hdone) hcall]
    constructor
    · intro hagents
      exact ⟨hagents, fun draws accountId deviceId actor heq =>
        absurd heq (hcall draws accountId deviceId actor)⟩
    · exact fun hintime => hintime.1

/-! ### Transactions that overlap -/

/-- The transaction is about to read the row of the agent it pairs with. -/
def ReadsAgent (accountId deviceId : PgUuid) (x : RelayTxn) : Prop :=
  ∃ next, x.body = .select (activeDevice accountId deviceId) next

/-- The transaction is about to look for the pairings of the device it has revoked. -/
def LooksForPairings (accountId deviceId : PgUuid) (x : RelayTxn) : Prop :=
  x.Begins ∧ ∃ assign next, x.body = .update (livePairingOf accountId deviceId) assign next

/-- The transaction has inserted a pairing of the device. -/
def InsertsPairing (deviceId : PgUuid) (x : RelayTxn) : Prop :=
  ∃ pairing, .pairing pairing ∈ added x.log ∧ pairing.Joins deviceId

/-- The call is a revocation of the device. -/
def Call.RevokesDevice (accountId deviceId : PgUuid) (call : Call) : Prop :=
  ∃ draws account device actor, call = .revokeDevice draws account device actor ∧
    account.value = accountId ∧ device.value = deviceId

/-- Redemptions and device revocations keep out of each other's way.  No revocation of the agent
commits between a redemption's reading it and the commit of its pairing, and no pairing of the
device is committed between a revocation's looking for them and its commit. -/
structure Apart (sha256Hex : Text → Text) (rows : List Row)
    (events : List (ReadCommitted.Event Call)) : Prop where
  redeem : ∀ accountId deviceId, Undisturbed (program sha256Hex) rows events
    (ReadsAgent accountId deviceId) (InsertsPairing deviceId)
    (fun z => z.call.RevokesDevice accountId deviceId)
  revoke : ∀ accountId deviceId, Undisturbed (program sha256Hex) rows events
    (LooksForPairings accountId deviceId) (fun _ => True) (InsertsPairing deviceId)

/-- The device is there, and unrevoked if `live` says so. -/
def HasDevice (live : Prop) (accountId deviceId : PgUuid) (rows : List Row) : Prop :=
  ∃ device, .device device ∈ rows ∧ device.id = deviceId ∧ device.accountId = accountId ∧
    (live → device.revokedAt = none)

/-- What a row goes on as still is the device, and is revoked by a revocation of it only. -/
theorem Call.Updates.device {call : Call} {old new : Row} (h : call.Updates old new) {live : Prop}
    {accountId deviceId : PgUuid} (hlive : live → ¬call.RevokesDevice accountId deviceId)
    (hold : HasDevice live accountId deviceId [old]) :
    HasDevice live accountId deviceId [new] := by
  obtain ⟨device, hmem, hid, haccount, hunrevoked⟩ := hold
  obtain rfl := List.mem_singleton.mp hmem
  cases call with
  | redeem draws account input =>
      obtain ⟨hold, -⟩ := h
      obtain ⟨token, heq, -⟩ := claimable_eq_true.mp hold
      cases heq
  | touchLastSeen draws account id =>
      obtain ⟨-, rfl⟩ := h
      exact ⟨_, List.mem_singleton_self _, hid, haccount, hunrevoked⟩
  | revokeDevice draws account id actor =>
      rcases h with ⟨hold, rfl⟩ | ⟨hold, -⟩
      · obtain ⟨device', heq, haccount', hid', -⟩ := activeDevice_eq_true.mp hold
        cases heq
        refine ⟨_, List.mem_singleton_self _, hid, haccount, fun h => absurd ?_ (hlive h)⟩
        exact ⟨draws, account, id, actor, rfl, haccount'.symm.trans haccount, hid'.symm.trans hid⟩
      · obtain ⟨pairing, heq, -⟩ := livePairingOf_eq_true.mp hold
        cases heq
  | revokePairing draws account id actor =>
      obtain ⟨hold, -⟩ := h
      obtain ⟨pairing, heq, -⟩ := livePairing_eq_true.mp hold
      cases heq
  | issue | authenticate | list | peerIsPaired | record => exact h.elim

/-- A device stays, and stays unrevoked through every commit that is no revocation of it. -/
theorem HasDevice.commit {sha256Hex : Text → Text} {live : Prop} {accountId deviceId : PgUuid}
    {rows : List Row} {x : RelayTxn} {answer : Answer} (h : HasDevice live accountId deviceId rows)
    (hdone : Done sha256Hex x.call x.log answer)
    (hlive : live → ¬x.call.RevokesDevice accountId deviceId) :
    HasDevice live accountId deviceId (visible rows x.log) := by
  obtain ⟨device, hdevice, hid, haccount, hunrevoked⟩ := h
  obtain ⟨row, hrow, hgoes⟩ := exists_visible
    (R := fun old new => HasDevice live accountId deviceId [old] →
      HasDevice live accountId deviceId [new]) (fun _ => id) (fun _ _ _ hab hbc => hbc ∘ hab)
    (fun old new hmem => (hdone.accesses _ hmem).updates.device hlive) hdevice
  obtain ⟨device', hmem, hdevice'⟩ :=
    hgoes ⟨device, List.mem_singleton_self _, hid, haccount, hunrevoked⟩
  exact ⟨device', List.mem_singleton.mp hmem ▸ hrow, hdevice'⟩

section Overlaps

variable {sha256Hex : Text → Text} {rows : List Row} {events : List (ReadCommitted.Event Call)}

/-- A pairing that a transaction has inserted is of an agent that the transaction read before, and
that was then there, of the account of the pairing and unrevoked. -/
theorem agent_read {s : RelayStore} {done : List (ReadCommitted.Event Call)} {t : ℕ} {x : RelayTxn}
    {answer : Answer}
    (h : CommitAt (Done sha256Hex) (program sha256Hex) rows events done t s x answer)
    {pairing : PairingRow} (hpairing : .pairing pairing ∈ added x.log) :
    ∃ u y mid, Stretch (program sha256Hex) rows events t u y mid s x answer ∧
      ReadsAgent pairing.accountId pairing.agentDeviceId y ∧
      HasDevice True pairing.accountId pairing.agentDeviceId u.committed := by
  cases hcall : x.call with
  | redeem draws accountId input =>
      obtain ⟨result, hanswer, hresult⟩ := h.kept.redeemed draws accountId input hcall
      have hnone (haudits : OnlyAudits x.log) : False := by
        obtain ⟨audit, heq⟩ := haudits _ hpairing
        cases heq
      cases result with
      | ok pairingId client agentId deviceToken =>
          obtain ⟨-, -, token, claimed, agents, agent, after, audit, heq, hclaimed, hagent, hid, -,
            -, hadded⟩ := hresult
          obtain rfl : pairing = newPairing draws accountId input agent := by
            simpa [hadded] using hpairing
          obtain ⟨u, y, mid, hstretch, hreads, hfound⟩ :=
            stretch_of_selected h heq
          rw [← hid] at hreads
          refine ⟨u, y, mid, hstretch, hreads, ?_⟩
          -- the claim has written tokens only, so the agent it sees is a committed device
          rw [hfound] at hagent
          obtain ⟨hvisible, hactive⟩ := List.mem_filter.mp hagent
          obtain ⟨device, heq, haccount, -, hunrevoked⟩ := activeDevice_eq_true.mp hactive
          cases heq
          refine ⟨agent, (mem_visible hvisible).resolve_right fun hwritten => ?_, rfl, haccount,
            fun _ => hunrevoked⟩
          rcases mem_written.mp hwritten with hnew | ⟨old, hupdate⟩
          · rw [added_updates] at hnew
            cases hnew
          · obtain ⟨row, hrow, heq⟩ := List.mem_map.mp hupdate
            obtain ⟨token', rfl, -⟩ := claimable_eq_true.mp (hclaimed row hrow)
            simp [setUsed] at heq
      | unknownToken | agentRevoked | quotaExceeded => exact (hnone hresult).elim
  | issue | authenticate | touchLastSeen | list | revokeDevice | peerIsPaired | revokePairing
  | record =>
      have hinserts := inserts_of_added h.kept.accesses hpairing
      rw [hcall] at hinserts
      exact hinserts.elim

/-- A device that was there at the beginning of a stretch is there at its end, unrevoked if no
revocation of it commits in between. -/
theorem HasDevice.along {live : Prop} {accountId deviceId : PgUuid} {t : ℕ} {u v : RelayStore}
    {x y : RelayTxn} {mid : List (ReadCommitted.Event Call)} {answer : Answer}
    (hrows : schema.Consistent rows)
    (h : Stretch (program sha256Hex) rows events t u x mid v y answer)
    (hthere : HasDevice live accountId deviceId u.committed)
    (hmeets : live → Transition.Meets (step (program sha256Hex))
      (AtCommits fun _ z _ => ¬z.call.RevokesDevice accountId deviceId) u (.exec t :: mid)) :
    HasDevice live accountId deviceId v.committed := by
  obtain ⟨done, -, hu⟩ := h.within
  have hkept := kept_of_run (program_done sha256Hex) hrows hu
  by_cases hlive : live
  · exact committed_along (program_done sha256Hex) (J := HasDevice live accountId deviceId)
      (fun rows x result hJ _ _ hdone hno => hJ.commit hdone fun _ => hno) hkept hthere
      (hmeets hlive) h.between
  · refine committed_along (program_done sha256Hex) (J := HasDevice live accountId deviceId)
      (Q := fun _ => False)
      (fun rows x result hJ _ _ hdone _ => hJ.commit hdone fun h => absurd h hlive) hkept hthere
      (Transition.meets_of_forall (fun _ _ _ _ _ _ _ _ _ => not_false) _ _) h.between

/-- Every pairing is of the account of its devices. -/
def PairedWithinAccount (rows : List Row) : Prop :=
  ∀ pairing device, .pairing pairing ∈ rows → .device device ∈ rows → pairing.Joins device.id →
    device.accountId = pairing.accountId

/-- A row that goes on from a pairing is that pairing, but for its revocation. -/
theorem frozen_pairing {row : Row} {pairing : PairingRow}
    (h : row.frozen = (Row.pairing pairing).frozen) :
    ∃ pairing', row = .pairing pairing' ∧ pairing'.accountId = pairing.accountId ∧
      pairing'.agentDeviceId = pairing.agentDeviceId ∧
      pairing'.clientDeviceId = pairing.clientDeviceId := by
  cases row with
  | pairing pairing' =>
      simp only [Row.frozen, Row.pairing.injEq, PairingRow.mk.injEq] at h
      exact ⟨pairing', rfl, h.2.1, h.2.2.1, h.2.2.2.1⟩
  | account | device | token | quota | audit => simp [Row.frozen] at h

/-- What a transaction inserts into devices and pairings is of one account, and every pairing of it
has its client inserted too. -/
theorem account_of_added {x : RelayTxn} {answer : Answer}
    (hdone : Done sha256Hex x.call x.log answer) {pairing : PairingRow}
    (hpairing : .pairing pairing ∈ added x.log) :
    ∃ client, .device client ∈ added x.log ∧ client.id = pairing.clientDeviceId ∧
      ∀ device, .device device ∈ added x.log → device.accountId = pairing.accountId := by
  cases hcall : x.call with
  | redeem draws accountId input =>
      obtain ⟨result, hanswer, hresult⟩ := hdone.redeemed draws accountId input hcall
      have hnone (haudits : OnlyAudits x.log) : False := by
        obtain ⟨audit, heq⟩ := haudits _ hpairing
        cases heq
      cases result with
      | ok pairingId clientId agentId deviceToken =>
          obtain ⟨-, -, token, claimed, agents, agent, after, audit, -, -, -, -, -, -, hadded⟩ :=
            hresult
          obtain rfl : pairing = newPairing draws accountId input agent := by
            simpa [hadded] using hpairing
          refine ⟨clientDevice sha256Hex draws accountId input, by simp [hadded], rfl, ?_⟩
          intro device hdevice
          obtain rfl : device = clientDevice sha256Hex draws accountId input := by
            simpa [hadded] using hdevice
          rfl
      | unknownToken | agentRevoked | quotaExceeded => exact (hnone hresult).elim
  | issue | authenticate | touchLastSeen | list | revokeDevice | peerIsPaired | revokePairing
  | record =>
      have hinserts := inserts_of_added hdone.accesses hpairing
      rw [hcall] at hinserts
      exact hinserts.elim

/-- **Pairings stay within their account.** -/
theorem pairedWithinAccount_commit {done : List (ReadCommitted.Event Call)} {t : ℕ}
    {s : RelayStore} {x : RelayTxn} {answer : Answer} (hrows : schema.Consistent rows)
    (hat : CommitAt (Done sha256Hex) (program sha256Hex) rows events done t s x answer)
    (h : PairedWithinAccount s.committed) : PairedWithinAccount (visible s.committed x.log) := by
  intro pairing device hpairing hdevice hjoins
  obtain ⟨origin, horigin, hkept⟩ :=
    visible_origin RowKept.refl RowKept.trans hat.kept.updates hpairing
  obtain ⟨pairing₀, rfl, haccount, hagent, hclient⟩ := frozen_pairing hkept.1.symm
  obtain ⟨origin, horigin', hkept'⟩ :=
    visible_origin RowKept.refl RowKept.trans hat.kept.updates hdevice
  obtain ⟨device₀, rfl, hid, haccount'⟩ := frozen_device hkept'.1.symm
  rw [← haccount, ← haccount']
  have hjoins₀ : pairing₀.Joins device₀.id := by
    rw [PairingRow.Joins, hagent, hclient, hid]
    exact hjoins
  rcases List.mem_append.mp horigin with hold | hnew
  · rcases List.mem_append.mp horigin' with hold' | hnew'
    · exact h pairing₀ device₀ hold hold' hjoins₀
    · -- a committed pairing refers to committed devices, and no new one has their ids
      have hmet : ∃ other ∈ s.committed, Row.key other = .device device₀.id := by
        refine hat.consistent.referenced _ hold (.device device₀.id) ?_
        rcases hjoins₀ with heq | heq <;> simp [schema, Row.references, heq]
      obtain ⟨other, hother, hkey⟩ := hmet
      exact absurd (Schema.clash_of_key_eq hkey.symm) (hat.sound.fresh _ hnew' other hother)
  · obtain ⟨client, hclientMem, hclientId, hall⟩ := account_of_added hat.kept hnew
    rcases List.mem_append.mp horigin' with hold' | hnew'
    · rcases hjoins₀ with heq | heq
      · -- the agent has been of the account since it was read
        obtain ⟨u, y, mid, hstretch, -, hthere⟩ := agent_read hat hnew
        have hfalse : HasDevice False pairing₀.accountId pairing₀.agentDeviceId u.committed := by
          obtain ⟨agent, hmem, hid, haccount, -⟩ := hthere
          exact ⟨agent, hmem, hid, haccount, False.elim⟩
        obtain ⟨agent, hmem, hagentId, hagentAccount, -⟩ :=
          hfalse.along hrows hstretch False.elim
        have hsame := hat.consistent.eq_of_clash hold' hmem
          (clash_device (heq.symm.trans hagentId.symm))
        cases hsame
        exact hagentAccount
      · exact absurd (clash_device (hclientId.trans heq)) (hat.sound.fresh _ hclientMem _ hold')
    · exact hall device₀ hnew'

/-- On its way to answering `true`, a device revocation looks for the pairings of the device. -/
theorem through_revokeDevice (sha256Hex : Text → Text) (draws : Draws)
    (accountId deviceId : UuidText) (actor : Actor) :
    Through (fun body => ∃ assign next,
        body = .update (livePairingOf accountId.value deviceId.value) assign next)
      (· = .revoke true) (program sha256Hex (.revokeDevice draws accountId deviceId actor)) := by
  refine .update fun revoked => ?_
  change Through _ _ (Tx.bind (if revoked.isEmpty then .done false else _) _)
  split
  · exact .done (by simp)
  · exact .here ⟨_, _, rfl⟩

/-- **Apart, every commit is in time.** -/
theorem commitsInTime_of_apart {done : List (ReadCommitted.Event Call)} {t : ℕ} {s : RelayStore}
    {x : RelayTxn} {answer : Answer} (hrows : schema.Consistent rows)
    (hapart : Apart sha256Hex rows events)
    (hat : CommitAt (Done sha256Hex) (program sha256Hex) rows events done t s x answer)
    (haccount : PairedWithinAccount s.committed) : CommitsInTime s.committed x answer := by
  constructor
  · intro pairing hpairing device hdevice hid
    obtain ⟨u, y, mid, hstretch, hreads, hthere⟩ := agent_read hat hpairing
    have hmeets := hapart.redeem _ _ t u y mid s x answer hstretch hreads
      ⟨pairing, hpairing, .inl rfl⟩
    obtain ⟨agent, hmem, hagentId, -, hunrevoked⟩ := hthere.along hrows hstretch fun _ => hmeets
    cases hat.consistent.eq_of_clash hdevice hmem (clash_device (hid.trans hagentId.symm))
    exact hunrevoked trivial
  · intro draws accountId deviceId actor hcall hanswer pairing hpairing hlive hjoins
    have hthrough := through_revokeDevice sha256Hex draws accountId deviceId actor
    rw [← hcall] at hthrough
    obtain ⟨u, y, mid, hstretch, ⟨assign, next, hbody⟩, hbegins⟩ :=
      stretch_of_through hat hthrough hanswer fun h => by
        obtain ⟨_, _, h⟩ := h
        cases h
    have hmeets := hapart.revoke accountId.value deviceId.value t u y mid s x answer hstretch
      ⟨hbegins, assign, next, hbody⟩ trivial
    -- a live pairing of the device was there when the revocation looked for them
    obtain ⟨first, -, hu⟩ := hstretch.within
    have hthere : ∀ pairing, .pairing pairing ∈ s.committed → pairing.revokedAt = none →
        pairing.Joins deviceId.value → .pairing pairing ∈ u.committed := by
      refine committed_along (program_done sha256Hex) (J := fun rows => ∀ pairing,
        .pairing pairing ∈ rows → pairing.revokedAt = none → pairing.Joins deviceId.value →
          .pairing pairing ∈ u.committed) ?_
        (kept_of_run (program_done sha256Hex) hrows hu) (fun _ h _ _ => h) hmeets hstretch.between
      intro rows z answer hJ _ _ hz hno pairing hpairing hlive hjoins
      rcases live_pairing_origin hz.accesses hpairing hlive with hold | hnew
      · exact hJ pairing hold hlive hjoins
      · exact absurd ⟨pairing, hnew, hjoins⟩ hno
    -- and it is of the account, for the device is
    have hdevice : ∃ device, .device device ∈ s.committed ∧ device.id = deviceId.value ∧
        device.accountId = accountId.value := by
      obtain ⟨revoked, hrevoked, hdoes⟩ := hat.kept.revoked draws accountId deviceId actor hcall
      obtain rfl : revoked = true := by
        rw [hanswer] at hrevoked
        exact (Answer.revoke.inj hrevoked).symm
      obtain ⟨row, after, heq, hactive⟩ := hdoes
      obtain ⟨device, rfl, haccount, hid, hunrevoked⟩ := activeDevice_eq_true.mp hactive
      refine ⟨device, ?_, hid, haccount⟩
      refine (hat.sound.grounded (.device device) _ (heq ▸ List.mem_cons_self ..)).resolve_right ?_
      refine not_written_of_live (hcall ▸ hat.kept.accesses) ?_ (.inl ⟨device, rfl⟩)
      simp [Row.ended, hunrevoked]
    obtain ⟨device, hmem, hid, hdeviceAccount⟩ := hdevice
    refine updated_of_snapshot (program_done sha256Hex) ?_ hrows hstretch hbody hbegins
      (hthere pairing hpairing hlive hjoins) hpairing ?_ rfl
    · -- no commit brings a pairing back to life
      intro call log result old new hdone hmem hp
      obtain ⟨pairing, rfl, -, -, hlive⟩ := livePairingOf_eq_true.mp hp
      exact absurd hlive (hdone.accesses _ hmem).updates.pairing_revoked
    · refine livePairingOf_eq_true.mpr ⟨pairing, rfl, ?_, hjoins, hlive⟩
      rw [← haccount pairing device hpairing hmem (hid ▸ hjoins), hdeviceAccount]

end Overlaps

/-- **No live pairing survives a revoked device, where redemptions and device revocations keep out
of each other's way.**  Along any run from a database that has the property, and whose pairings are
of the account of their devices. -/
theorem noLiveRevoked_of_apart (sha256Hex : Text → Text) {rows : List Row}
    (hrows : schema.Consistent rows) (hinit : NoLiveRevoked rows)
    (haccount : PairedWithinAccount rows) {events : List (ReadCommitted.Event Call)}
    (hapart : Apart sha256Hex rows events) :
    ∀ done, done <+: events → ∀ u : RelayStore,
      Transition.run (step (program sha256Hex)) (.init rows) done = some u →
        NoLiveRevoked u.committed := by
  intro done hdone u hu
  refine (committed_of_commits (program_done sha256Hex) hrows
    (J := fun rows => NoLiveRevoked rows ∧ PairedWithinAccount rows) ⟨hinit, haccount⟩ ?_ hdone
    hu).1
  intro done t s x answer hat ⟨hJ, hpaired⟩
  exact ⟨(noLiveRevoked_commit_iff hJ hat.sound hat.kept).mpr
    (commitsInTime_of_apart hrows hapart hat hpaired), pairedWithinAccount_commit hrows hat hpaired⟩

/-! ### Out of time -/

/-- The agent is revoked between a redemption's reading it and the redemption's commit. -/
def overlapEvents : List (ReadCommitted.Event Call) :=
  [.start (.issue ⟨uuid2, uuid2, uuid2, uuid2, [], 10, 10, 10⟩ uuid0.text
      ⟨uuid1.text, ['r'], 60, none⟩)] ++ List.replicate 5 (.exec 0) ++
    [.start (.redeem ⟨uuid3, uuid3, uuid3, uuid3, ['s'], 20, 20, 20⟩ uuid0.text
      ⟨['r'], ['c'], [], .p256, [], [], none⟩)] ++ List.replicate 4 (.exec 1) ++
    [.start (.revokeDevice ⟨uuid4, uuid4, uuid4, uuid4, [], 30, 30, 30⟩ uuid0.text uuid1.text
      ⟨uuid1.text, .agent, none⟩)] ++ List.replicate 7 (.exec 2) ++ List.replicate 6 (.exec 1)

/-- A revocation after the redemption has committed. -/
def orderlyEvents : List (ReadCommitted.Event Call) :=
  [.start (.issue ⟨uuid2, uuid2, uuid2, uuid2, [], 10, 10, 10⟩ uuid0.text
      ⟨uuid1.text, ['r'], 60, none⟩)] ++ List.replicate 5 (.exec 0) ++
    [.start (.redeem ⟨uuid3, uuid3, uuid3, uuid3, ['s'], 20, 20, 20⟩ uuid0.text
      ⟨['r'], ['c'], [], .p256, [], [], none⟩)] ++ List.replicate 10 (.exec 1) ++
    [.start (.revokeDevice ⟨uuid4, uuid4, uuid4, uuid4, [], 30, 30, 30⟩ uuid0.text uuid1.text
      ⟨uuid1.text, .agent, none⟩)] ++ List.replicate 8 (.exec 2)

/-- Whether the property holds is found out by going through the pairings and the devices. -/
instance NoLiveRevoked.decidable (rows : List Row) : Decidable (NoLiveRevoked rows) :=
  decidable_of_iff (∀ pairing ∈ rows.filterMap Row.pairing?, ∀ device ∈ rows.filterMap Row.device?,
      pairing.revokedAt = none → pairing.Joins device.id → device.revokedAt = none) <| by
    simp only [NoLiveRevoked, List.mem_filterMap, Row.pairing?_eq_some, Row.device?_eq_some,
      exists_eq_right]
    exact ⟨fun h pairing device hpairing hdevice => h pairing hpairing device hdevice,
      fun h pairing hpairing device hdevice => h pairing device hpairing hdevice⟩

/-- Both transactions commit, and the pairing with the revoked agent is live. -/
theorem live_pairing_of_revoked_agent : ∃ s : RelayStore,
    Transition.run (step (program id)) (.init smallRelay) overlapEvents = some s ∧
      s.txns.countP (redeems ['r']) = 1 ∧ ¬NoLiveRevoked s.committed := by
  have hrun : ((Transition.run (step (program id)) (Store.init smallRelay : RelayStore)
      overlapEvents).any fun s => decide (s.txns.countP (redeems ['r']) = 1 ∧
        ¬NoLiveRevoked s.committed)) = true := by
    decide +kernel
  obtain ⟨s, hs, hend⟩ := (Option.any_eq_true _ _).mp hrun
  exact ⟨s, hs, of_decide_eq_true hend⟩

/-- In the orderly run nothing overlaps. -/
theorem noLiveRevoked_of_apart_orderly : Apart id smallRelay orderlyEvents ∧ ∃ s : RelayStore,
    Transition.run (step (program id)) (.init smallRelay) orderlyEvents = some s ∧
      s.committed.countP Row.ended = 3 ∧ NoLiveRevoked s.committed := by
  have hrun : ((Transition.run (step (program id)) (Store.init smallRelay : RelayStore)
      orderlyEvents).any fun s => decide (s.committed.countP Row.ended = 3)) = true := by
    decide +kernel
  obtain ⟨s, hs, hend⟩ := (Option.any_eq_true _ _).mp hrun
  have halone : Transition.Meets (step (program id)) Alone (Store.init smallRelay : RelayStore)
      orderlyEvents := by
    decide +kernel
  have hapart : Apart id smallRelay orderlyEvents :=
    ⟨fun _ _ => undisturbed_of_alone halone _ _ _, fun _ _ => undisturbed_of_alone halone _ _ _⟩
  refine ⟨hapart, s, hs, of_decide_eq_true hend, ?_⟩
  refine noLiveRevoked_of_apart id smallRelay_consistent (by decide +kernel) ?_ hapart _
    (List.prefix_refl _) s hs
  intro pairing device hpairing
  simp [smallRelay] at hpairing

end Osprey.Relay
