/-
**The relay's row-level security.**

The repository filters on the account in every statement.  Behind it stands a backstop: every table
has a policy that compares the account of a row with a setting of the transaction, and the relay
refuses to start on a connection for which the policies would not apply.  The setting is made local
to the transaction, because connections are pooled.

Here the boot check is set against the rules by which the database decides whether a policy applies;
then a pooled connection is followed through any sequence of requests.  Their transactions are any
that are made of the kinds of statement the repository has: it reads, inserts, and updates columns
without a constraint.  It deletes nothing, and `withTenant` alone touches the setting.

Main definitions:

* `Relay.RolePrivileges`, `Relay.TableSecurity`, `Relay.assertRlsBackstopIsLive` — the boot check;
* `Relay.policiesApply` — when the database applies a table's policies to a role;
* `Relay.Setting`, `Relay.sessionPolicy` — the setting and the policy a transaction runs under;
* `Relay.Scope` — the setting within a transaction, and what is left of it;
* `Relay.Request`, `Relay.Connection`, `Relay.serveRequest` — a pooled connection.

Main results:

* `Relay.assertRlsBackstopIsLive_eq_ok_iff` — what the boot check makes sure of;
* `Relay.backstop_confines` — **no transaction sees or writes another account's rows**;
* `Relay.pool_keeps_tenants_apart` — **nor does any sequence of requests over a pooled connection**;
* `Relay.backstop_transparent` — **the repository's operations are not affected**.
-/

import Osprey.RelayTenants
import Osprey.RowSecurity
import Osprey.Checks

set_option relaxedAutoImplicit false
set_option autoImplicit false

namespace Osprey.Relay

open Transactions Checks

/-! ### The boot check -/

structure RolePrivileges where
  role : String
  isSuperuser : Bool
  bypassesRls : Bool
  deriving DecidableEq, Repr

structure TableSecurity where
  owner : String
  rlsEnabled : Bool
  rlsForced : Bool
  deriving DecidableEq, Repr

/-- The tables of the schema, sorted by name. -/
def TENANT_TABLES : List String :=
  ["accounts", "audit_relay", "devices", "pairing_tokens", "pairings", "push_tokens", "quotas"]

/-- What is wrong with one table. -/
def tableProblems (role : RolePrivileges) (tables : String → Option TableSecurity) (name : String) :
    List String :=
  match tables name with
  | none => [s!"{name}: missing from the public schema"]
  | some table =>
      (if table.owner = role.role then [s!"{name}: owned by the connected role"] else []) ++
      (if table.rlsEnabled then [] else [s!"{name}: row level security is not enabled"]) ++
      (if table.rlsForced then [] else [s!"{name}: FORCE ROW LEVEL SECURITY is not set"])

/-- `assertRlsBackstopIsLive`, given what its two probes read. -/
def assertRlsBackstopIsLive (role : RolePrivileges) (tables : String → Option TableSecurity) :
    Except String Unit := do
  let name := role.role
  require (role.isSuperuser = false)
    s!"Refusing to start: connected as '{name}', which is SUPERUSER and bypasses every row-level security policy. Connect as the non-owner application role (sql/roles.sql)."
  require (role.bypassesRls = false)
    s!"Refusing to start: connected as '{name}', which has BYPASSRLS. Connect as the non-owner application role (sql/roles.sql)."
  let problems := TENANT_TABLES.flatMap (tableProblems role tables)
  let listed := String.intercalate "; " problems
  require (problems = [])
    s!"Refusing to start: the row-level security backstop is not intact for role '{name}' — {listed}. Re-run migrations so sql/grants.sql applies; DATABASE_URL_MIGRATOR must be the owner and DATABASE_URL must not be."

/-- A table the check has nothing to say about. -/
def TableIntact (role : RolePrivileges) (table : TableSecurity) : Prop :=
  table.owner ≠ role.role ∧ table.rlsEnabled = true ∧ table.rlsForced = true

theorem tableProblems_eq_nil {role : RolePrivileges} {tables : String → Option TableSecurity}
    {name : String} :
    tableProblems role tables name = [] ↔ ∃ table, tables name = some table ∧
      TableIntact role table := by
  unfold tableProblems
  cases htable : tables name with
  | none => simp
  | some table =>
      simp only [List.append_eq_nil_iff, ite_eq_right_iff, ite_eq_left_iff, List.cons_ne_nil,
        imp_false, Option.some.injEq, TableIntact, exists_eq_left', Bool.not_eq_true,
        Bool.not_eq_false, and_assoc]

/-- **What the boot check makes sure of**: the role has neither of the privileges that skip
policies, and every tenant table is there, not the role's own, with its policies on and forced. -/
theorem assertRlsBackstopIsLive_eq_ok_iff {role : RolePrivileges}
    {tables : String → Option TableSecurity} :
    assertRlsBackstopIsLive role tables = .ok () ↔
      role.isSuperuser = false ∧ role.bypassesRls = false ∧
        ∀ name ∈ TENANT_TABLES, ∃ table, tables name = some table ∧ TableIntact role table := by
  simp only [assertRlsBackstopIsLive, bind_eq_ok, require_eq_ok, List.flatMap_eq_nil_iff,
    tableProblems_eq_nil]
  constructor
  · rintro ⟨_, hsuper, _, hbypass, htables⟩
    exact ⟨hsuper, hbypass, htables⟩
  · rintro ⟨hsuper, hbypass, htables⟩
    exact ⟨(), hsuper, (), hbypass, htables⟩

/-! ### When the database applies a policy -/

/-- The table a row is in. -/
def Row.table : Row → String
  | .account _ => "accounts"
  | .device _ => "devices"
  | .pairing _ => "pairings"
  | .token _ => "pairing_tokens"
  | .quota _ => "quotas"
  | .audit _ => "audit_relay"

theorem Row.table_mem (row : Row) : row.table ∈ TENANT_TABLES := by
  cases row <;> simp [Row.table, TENANT_TABLES]

/-- Policies are skipped by a superuser, by a role with BYPASSRLS, on a table that has them off, and
by the owner of a table that does not force them. -/
def policiesApply (role : RolePrivileges) (tables : String → Option TableSecurity)
    (name : String) : Bool :=
  match tables name with
  | none => false
  | some table =>
      !role.isSuperuser && !role.bypassesRls && table.rlsEnabled &&
        (table.owner != role.role || table.rlsForced)

/-- After the boot check the policies of every tenant table apply. -/
theorem policiesApply_of_live {role : RolePrivileges} {tables : String → Option TableSecurity}
    (h : assertRlsBackstopIsLive role tables = .ok ()) (row : Row) :
    policiesApply role tables row.table = true := by
  obtain ⟨hsuper, hbypass, htables⟩ := assertRlsBackstopIsLive_eq_ok_iff.mp h
  obtain ⟨table, htable, -, henabled, hforced⟩ := htables row.table row.table_mem
  simp [policiesApply, htable, hsuper, hbypass, henabled, hforced]

/-! ### The setting and the policy -/

/-- `app.account_id`.  A custom setting that was only ever set locally reads as the empty string
once the transaction is over. -/
inductive Setting
  | unset
  | empty
  | account (id : UuidText)

/-- `nullif(current_setting('app.account_id', true), '')::uuid`. -/
def Setting.accountId : Setting → Option PgUuid
  | .unset => none
  | .empty => none
  | .account id => some id.value

/-- The policies of the schema.  A comparison with NULL admits nothing. -/
def Setting.admits (setting : Setting) (row : Row) : Bool :=
  match setting.accountId with
  | none => false
  | some id => row.accountId = id

/-- The policy a transaction runs under.  The policies are granted to the application role; any
other role that they apply to is admitted nothing. -/
def sessionPolicy (role : RolePrivileges) (isApp : Bool) (tables : String → Option TableSecurity)
    (setting : Setting) : Policy Row :=
  let admits := fun row : Row =>
    if policiesApply role tables row.table then isApp && setting.admits row else true
  ⟨admits, admits⟩

/-- The rows a session is admitted to when the policies apply. -/
def admitted (isApp : Bool) (setting : Setting) (row : Row) : Bool := isApp && setting.admits row

/-- After the boot check the policy is the schema's. -/
theorem sessionPolicy_of_live {role : RolePrivileges} {tables : String → Option TableSecurity}
    (h : assertRlsBackstopIsLive role tables = .ok ()) (isApp : Bool) (setting : Setting) :
    sessionPolicy role isApp tables setting = .ofOwner (admitted isApp setting) := by
  simp only [sessionPolicy, policiesApply_of_live h, if_true]
  rfl

/-- An admitted row is of the account the setting names. -/
theorem accountId_of_admitted {isApp : Bool} {setting : Setting} {row : Row}
    (h : admitted isApp setting row = true) : setting.accountId = some row.accountId := by
  rw [admitted, Bool.and_eq_true] at h
  have hadmits := h.2
  cases setting with
  | unset => cases hadmits
  | empty => cases hadmits
  | account id => exact congrArg some (of_decide_eq_true hadmits).symm

theorem admitted_account (id : UuidText) : admitted true (.account id) = ownedBy id.value := by
  funext row
  rfl

/-! ### Any transaction -/

/-- The role and the tables of a deployment as the grants leave them. -/
def appRole : RolePrivileges := ⟨"osprey_app", false, false⟩

def grantedTables : String → Option TableSecurity := fun _ => some ⟨"osprey_migrator", true, true⟩

theorem granted_live : assertRlsBackstopIsLive appRole grantedTables = .ok () :=
  assertRlsBackstopIsLive_eq_ok_iff.mpr
    ⟨rfl, rfl, fun _ _ => ⟨_, rfl, by simp [appRole], rfl, rfl⟩⟩

/-- What a connection is used for: a transaction inside `withTenant`, or one outside it. -/
inductive Request (α : Type)
  | withTenant (accountId : UuidText) (body : Tx schema α)
  | bare (body : Tx schema α)

/-- A pooled connection: the session's setting, and the committed rows. -/
structure Connection where
  setting : Setting
  rows : List Row

/-- The setting within a transaction: as it was before, what the session will have if the
transaction commits, what is set for the transaction only, and whether it has been set at all. -/
structure Scope where
  before : Setting
  session : Setting
  ofTransaction : Option Setting
  touched : Bool

def Scope.enter (setting : Setting) : Scope := ⟨setting, setting, none, false⟩

/-- `set_config('app.account_id', …, is_local)`. -/
def Scope.setConfig (scope : Scope) (accountId : UuidText) (isLocal : Bool) : Scope :=
  if isLocal then { scope with ofTransaction := some (.account accountId), touched := true }
  else { scope with session := .account accountId, ofTransaction := none, touched := true }

def Scope.current (scope : Scope) : Setting := scope.ofTransaction.getD scope.session

/-- What is left of a setting that has been set when the transaction is over. -/
def Setting.revert : Setting → Setting
  | .unset => .empty
  | setting => setting

/-- The session's setting after the transaction. -/
def Scope.leave (scope : Scope) (committed : Bool) : Setting :=
  let setting := if committed then scope.session else scope.before
  if scope.touched then setting.revert else setting

/-- The setting of a request's transaction when its body begins. -/
def Request.scope {α : Type} (c : Connection) : Request α → Scope
  | .withTenant accountId _ => (Scope.enter c.setting).setConfig accountId true
  | .bare _ => .enter c.setting

def Request.body {α : Type} : Request α → Tx schema α
  | .withTenant _ body => body
  | .bare body => body

section Pool

variable {α : Type} (role : RolePrivileges) (isApp : Bool)
  (tables : String → Option TableSecurity)

/-- Serve one request: its transaction commits, or is rolled back with its error. -/
def serveRequest (c : Connection) (request : Request α) :
    Except (Denial UniqueIndex) (α × List (Access Row)) × Connection :=
  let outcome := request.body.execUnder
    (sessionPolicy role isApp tables (request.scope c).current) c.rows []
  let rows := match outcome with
    | .ok (_, log) => visible c.rows log
    | .error _ => c.rows
  (outcome, ⟨(request.scope c).leave outcome.isOk, rows⟩)

/-- The connection after a sequence of requests. -/
def serveRequests (c : Connection) (requests : List (Request α)) : Connection :=
  requests.foldl (fun c request => (serveRequest role isApp tables c request).2) c

variable {role isApp tables}

/-- The setting never names an account between requests. -/
def Idle (c : Connection) : Prop := c.setting.accountId = none

theorem accountId_revert (setting : Setting) : setting.revert.accountId = setting.accountId := by
  cases setting <;> rfl

/-- What is set for a transaction only does not outlive it, however it ends. -/
theorem idle_leave {c : Connection} (h : Idle c) (request : Request α) (committed : Bool) :
    ((request.scope c).leave committed).accountId = none := by
  have hnone : c.setting.accountId = none := h
  cases request <;> cases committed <;>
    simpa [Request.scope, Scope.setConfig, Scope.enter, Scope.leave, accountId_revert] using hnone

/-- A request that does not name the account keeps clear of its rows. -/
theorem admitted_apart {c : Connection} (hidle : Idle c) {request : Request α} {owner : PgUuid}
    (hother : ∀ accountId body, request = .withTenant accountId body → accountId.value ≠ owner)
    (row : Row) (h : admitted isApp (request.scope c).current row = true) :
    ownedBy owner row = false := by
  have haccount := accountId_of_admitted h
  cases request with
  | bare body =>
      have hnone : c.setting.accountId = some row.accountId := haccount
      rw [hidle] at hnone
      cases hnone
  | withTenant accountId body =>
      have heq : accountId.value = row.accountId := Option.some.inj haccount
      rw [ownedBy, decide_eq_false_iff_not, ← heq]
      exact hother accountId body rfl

/-- One request leaves the rows of every account it does not name as they were. -/
theorem serveRequest_filter (hlive : assertRlsBackstopIsLive role tables = .ok ()) {c : Connection}
    (hidle : Idle c) {request : Request α} {owner : PgUuid}
    (hother : ∀ accountId body, request = .withTenant accountId body → accountId.value ≠ owner) :
    (serveRequest role isApp tables c request).2.rows.filter (ownedBy owner)
      = c.rows.filter (ownedBy owner) := by
  simp only [serveRequest]
  split
  · rename_i result log houtcome
    rw [sessionPolicy_of_live hlive] at houtcome
    exact filter_execUnder (admitted_apart hidle hother) houtcome
  · rfl

end Pool

/-- **No sequence of requests over a pooled connection mixes tenants up.**  After any requests,
committed or rolled back, the setting names no account, and the rows of an account that none of them
named are as they were; what runs outside `withTenant` then finds nothing, whatever it asks for. -/
theorem pool_keeps_tenants_apart {α : Type} (role : RolePrivileges) (isApp : Bool)
    (tables : String → Option TableSecurity) (hlive : assertRlsBackstopIsLive role tables = .ok ())
    (requests : List (Request α)) (c : Connection) (hidle : Idle c) :
    Idle (serveRequests role isApp tables c requests) ∧
      (∀ owner, (∀ accountId body, .withTenant accountId body ∈ requests →
          accountId.value ≠ owner) →
        (serveRequests role isApp tables c requests).rows.filter (ownedBy owner)
          = c.rows.filter (ownedBy owner)) ∧
      ∀ (body : Tx schema α) result log, (serveRequest role isApp tables
          (serveRequests role isApp tables c requests) (.bare body)).1 = .ok (result, log) →
        written log = [] ∧ ∀ p found, .selected p found ∈ log → found = [] := by
  have hrun : Idle (serveRequests role isApp tables c requests) ∧
      ∀ owner, (∀ accountId body, .withTenant accountId body ∈ requests →
          accountId.value ≠ owner) →
        (serveRequests role isApp tables c requests).rows.filter (ownedBy owner)
          = c.rows.filter (ownedBy owner) := by
    induction requests generalizing c with
    | nil => exact ⟨hidle, fun _ _ => rfl⟩
    | cons request requests ih =>
        have hnext : Idle (serveRequest role isApp tables c request).2 :=
          idle_leave hidle request (serveRequest role isApp tables c request).1.isOk
        obtain ⟨hidle', hrows⟩ := ih _ hnext
        refine ⟨hidle', fun owner hother => ?_⟩
        refine (hrows owner fun accountId body hmem => hother accountId body
          (List.mem_cons_of_mem _ hmem)).trans ?_
        exact serveRequest_filter hlive hidle fun accountId body heq =>
          hother accountId body (heq ▸ List.mem_cons_self)
  refine ⟨hrun.1, hrun.2, fun body result log h => ?_⟩
  rw [serveRequest, sessionPolicy_of_live hlive] at h
  obtain ⟨hseen, howned⟩ := confined_execUnder (seen_nil _) (owned_nil _) h
  -- nothing is admitted where the setting names no account
  have hnone : ∀ row, admitted isApp ((Request.bare body).scope
      (serveRequests role isApp tables c requests)).current row ≠ true := by
    intro row hrow
    have haccount : (serveRequests role isApp tables c requests).setting.accountId
        = some row.accountId := accountId_of_admitted hrow
    rw [hrun.1] at haccount
    cases haccount
  refine ⟨List.eq_nil_iff_forall_not_mem.mpr fun row hrow => hnone row (howned.new row hrow),
    fun p found hmem => List.eq_nil_iff_forall_not_mem.mpr fun row hrow =>
      hnone row (hseen p found hmem row hrow)⟩

/-- Two requests that revoke every device there is, as far as they can: the other account's rows are
as they were. -/
theorem pool_keeps_tenants_apart_small :
    ((serveRequests appRole true grantedTables ⟨.unset, sharedRelay⟩
      [.withTenant uuid0.text (Tx.modify (fun _ => true) (setDeviceRevoked 9)),
        .bare (Tx.modify (fun _ => true) (setDeviceRevoked 9))]).rows.filter (ownedBy uuid4))
      = sharedRelay.filter (ownedBy uuid4) :=
  (pool_keeps_tenants_apart appRole true grantedTables granted_live _ ⟨.unset, sharedRelay⟩ rfl).2.1
    uuid4 (by
      intro accountId body hmem
      rcases List.mem_cons.mp hmem with heq | hmem
      · cases heq
        decide +kernel
      · cases List.mem_singleton.mp hmem)

/-! ### The repository's own code -/

section Repository

variable {accountId : UuidText}

theorem insertAudit_confined {own : PgUuid} (h : accountId.value = own) (draws : Draws)
    (event : AuditEvent) (deviceId : Option PgUuid) (remoteIp : Option Text) :
    (insertAudit draws accountId event deviceId remoteIp).Confined (ownedBy own) :=
  Tx.confined_add (decide_eq_true h)

theorem quotaOf_owned (row : Row) (h : quotaOf accountId.value row = true) :
    ownedBy accountId.value row = true :=
  quota_owned (fun _ hquota => of_decide_eq_true hquota) row h

theorem activeDevices_owned (row : Row) (h : activeDevices accountId.value row = true) :
    ownedBy accountId.value row = true :=
  device_owned (fun _ hdevice => (of_decide_eq_true hdevice).1) row h

theorem activeDevice_owned {id : PgUuid} (row : Row)
    (h : activeDevice accountId.value id row = true) : ownedBy accountId.value row = true :=
  device_owned (fun _ hdevice => (of_decide_eq_true hdevice).1) row h

theorem issueWithinTenant_confined (draws : Draws) (input : IssueTokenInput) :
    (issueWithinTenant draws accountId input).Confined (ownedBy accountId.value) := by
  refine Tx.confined_bind (Tx.confined_query quotaOf_owned) fun quota => ?_
  refine Tx.confined_bind (Tx.confined_query (token_owned fun token htoken =>
    (of_decide_eq_true htoken).1)) fun recent => ?_
  dsimp only
  split
  · exact Tx.confined_bind (insertAudit_confined rfl ..) fun _ => Tx.confined_pure _
  · refine Tx.confined_bind (Tx.confined_add (decide_eq_true rfl)) fun _ => ?_
    exact Tx.confined_bind (insertAudit_confined rfl ..) fun _ => Tx.confined_pure _

theorem redeem_confined (sha256Hex : Text → Text) (draws : Draws) (input : RedeemInput) :
    (redeem sha256Hex draws accountId input).Confined (ownedBy accountId.value) := by
  refine Tx.confined_bind (Tx.confined_modify (update_owned (token_owned fun token htoken =>
    (of_decide_eq_true htoken).1) (setUsed_kept draws.now))) fun claimed => ?_
  cases first Row.token? claimed with
  | none =>
      refine Tx.confined_bind (Tx.confined_query (token_owned fun token htoken =>
        (of_decide_eq_true htoken).1)) fun existing => ?_
      cases first Row.token? existing with
      | none => exact Tx.confined_pure _
      | some token =>
          exact Tx.confined_bind (insertAudit_confined rfl ..) fun _ => Tx.confined_pure _
  | some token =>
      refine Tx.confined_bind (Tx.confined_query activeDevice_owned) fun agents => ?_
      cases first Row.device? agents with
      | none => exact Tx.confined_bind (insertAudit_confined rfl ..) fun _ => Tx.confined_pure _
      | some agent =>
          refine Tx.confined_bind (Tx.confined_query quotaOf_owned) fun quota => ?_
          refine Tx.confined_bind (Tx.confined_query activeDevices_owned) fun active => ?_
          split
          · exact Tx.confined_bind (insertAudit_confined rfl ..) fun _ => Tx.confined_pure _
          · refine Tx.confined_bind (Tx.confined_add (decide_eq_true rfl)) fun _ => ?_
            refine Tx.confined_bind (Tx.confined_add (decide_eq_true rfl)) fun _ => ?_
            exact Tx.confined_bind (insertAudit_confined rfl ..) fun _ => Tx.confined_pure _

theorem revokeDevice_confined (draws : Draws) (deviceId : UuidText) (actor : Actor) :
    (revokeDevice draws accountId deviceId actor).Confined (ownedBy accountId.value) := by
  refine Tx.confined_bind (Tx.confined_modify (update_owned activeDevice_owned
    (setDeviceRevoked_kept draws.now))) fun revoked => ?_
  split
  · exact Tx.confined_pure _
  · refine Tx.confined_bind (Tx.confined_modify (update_owned (pairing_owned fun pairing hpairing =>
      (of_decide_eq_true hpairing).1) (setPairingRevoked_kept draws.now .agent))) fun _ => ?_
    exact Tx.confined_bind (insertAudit_confined rfl ..) fun _ => Tx.confined_pure _

theorem revokePairing_confined (draws : Draws) (pairingId : UuidText) (actor : Actor) :
    (revokePairing draws accountId pairingId actor).Confined (ownedBy accountId.value) := by
  refine Tx.confined_bind (Tx.confined_modify (update_owned (pairing_owned fun pairing hpairing =>
    (of_decide_eq_true hpairing).1) (setPairingRevoked_kept draws.now actor.kind)))
    fun revoked => ?_
  cases first Row.pairing? revoked with
  | none => exact Tx.confined_pure _
  | some row => exact Tx.confined_bind (insertAudit_confined rfl ..) fun _ => Tx.confined_pure _

/-- Every operation asks for rows of its account only, whatever rows it is given. -/
theorem program_confined (sha256Hex : Text → Text) (call : Call) :
    (program sha256Hex call).Confined (ownedBy call.accountId.value) := by
  cases call with
  | issue draws accountId input =>
      exact Tx.confined_bind (issueWithinTenant_confined draws input) fun _ => Tx.confined_pure _
  | redeem draws accountId input =>
      exact Tx.confined_bind (redeem_confined sha256Hex draws input) fun _ => Tx.confined_pure _
  | authenticate accountId secretHash =>
      refine Tx.confined_bind ?_ fun _ => Tx.confined_pure _
      exact Tx.confined_bind (Tx.confined_query activeDevices_owned) fun _ => Tx.confined_pure _
  | touchLastSeen draws accountId deviceId =>
      refine Tx.confined_bind ?_ fun _ => Tx.confined_pure _
      refine Tx.confined_bind (Tx.confined_modify (update_owned (device_owned fun device hdevice =>
        (of_decide_eq_true hdevice).1) (setLastSeen_kept draws.now))) fun _ => Tx.confined_pure _
  | list accountId =>
      refine Tx.confined_bind ?_ fun _ => Tx.confined_pure _
      exact Tx.confined_bind (Tx.confined_query activeDevices_owned) fun _ => Tx.confined_pure _
  | revokeDevice draws accountId deviceId actor =>
      exact Tx.confined_bind (revokeDevice_confined draws deviceId actor)
        fun _ => Tx.confined_pure _
  | peerIsPaired accountId deviceId peerDeviceId =>
      refine Tx.confined_bind ?_ fun _ => Tx.confined_pure _
      exact Tx.confined_bind (Tx.confined_query (pairing_owned fun pairing hpairing =>
        (of_decide_eq_true hpairing).1)) fun _ => Tx.confined_pure _
  | revokePairing draws accountId pairingId actor =>
      exact Tx.confined_bind (revokePairing_confined draws pairingId actor)
        fun _ => Tx.confined_pure _
  | record draws accountId event deviceId remoteIp =>
      exact Tx.confined_bind (insertAudit_confined rfl ..) fun _ => Tx.confined_pure _

end Repository

/-- **The backstop does not affect the repository.**  Over any rows, and with whatever values it
draws, every operation of the repository ends inside `withTenant` as it would with no policy at all;
and with the filters put into its statements it is the same program, so that what was shown of it
in any interleaving with others holds of it behind the backstop too. -/
theorem backstop_transparent (sha256Hex : Text → Text) (role : RolePrivileges)
    (tables : String → Option TableSecurity) (hlive : assertRlsBackstopIsLive role tables = .ok ())
    (call : Call) (rows : List Row) :
    (program sha256Hex call).execUnder
        (sessionPolicy role true tables (.account call.accountId)) rows []
        = ((program sha256Hex call).exec rows []).mapError .db ∧
      (program sha256Hex call).restrict (admitted true (.account call.accountId))
        = program sha256Hex call := by
  rw [sessionPolicy_of_live hlive, admitted_account]
  exact ⟨execUnder_of_confined (program_confined sha256Hex call) [],
    Tx.restrict_of_confined (program_confined sha256Hex call)⟩

theorem backstop_transparent_small :
    (program smallPlatform.sha256Hex (.list uuid0.text)).execUnder
        (sessionPolicy appRole true grantedTables (.account uuid0.text)) sharedRelay []
      = ((program smallPlatform.sha256Hex (.list uuid0.text)).exec sharedRelay []).mapError .db :=
  (backstop_transparent smallPlatform.sha256Hex appRole grantedTables granted_live
    (.list uuid0.text) sharedRelay).1

end Osprey.Relay
