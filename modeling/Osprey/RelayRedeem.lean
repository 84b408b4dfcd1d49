/-
**A pairing token is redeemed once.**

Any number of `redeem` and `issue` transactions of `relay/src/repo/pairingTokens.ts`, among any
other transactions of the repository, interleaved under READ COMMITTED.  The token a redemption
claims is locked until the redemption ends, so at its commit the claimed version is still the
committed one; and a committed token never becomes unused again.

Main definitions:

* `Osprey.Relay.redeems`, `Osprey.Relay.createdBy` — the redemptions of a routing id that answered
  `ok`, and what the redemptions of it inserted;
* `Osprey.Relay.IssuedFor`, `Osprey.Relay.Paired`, `Osprey.Relay.AgentUnrevokedWhenRead` — what is
  to be said about such a redemption;
* `Osprey.Relay.Spent` — the invariant.

Main results:

* `Osprey.Relay.program_done` — what every committed transaction has done;
* `Osprey.Relay.spent_of_run` — a redeemed token is used, and was redeemed once;
* `Osprey.Relay.redeem_single_use` — **single-use redemption**.
-/

import Osprey.ReadCommitted
import Osprey.RelayRepo

set_option relaxedAutoImplicit false
set_option autoImplicit false

namespace Osprey.Relay

open Transactions ReadCommitted

/-- The database and the transactions of the relay. -/
abbrev RelayStore := Store schema Call Answer

abbrev RelayTxn := Txn schema Call Answer

/-! ### What a committed transaction has done -/

/-- A call's transaction has made the accesses of its kind, and an issue or a redemption has done
what its answer says. -/
structure Done (sha256Hex : Text → Text) (call : Call) (log : List (Access Row))
    (answer : Answer) : Prop where
  accesses : ∀ access ∈ log, call.Makes access
  issued : ∀ token, .token token ∈ added log → ∃ draws accountId input,
    call = .issue draws accountId input ∧ answer = .issue (.issued token.id token.expiresAt) ∧
      token.accountId = accountId.value ∧ token.agentDeviceId = input.agentDeviceId.value ∧
      token.routingId = input.routingId
  redeemed : ∀ draws accountId input, call = .redeem draws accountId input →
    ∃ result, answer = .redeem result ∧ RedeemDone sha256Hex draws accountId input log result
  revoked : ∀ draws accountId deviceId actor, call = .revokeDevice draws accountId deviceId actor →
    ∃ revoked, answer = .revoke revoked ∧ RevokeDone draws accountId deviceId log revoked

/-- What a transaction has inserted is of the tables it is there for. -/
theorem inserts_of_added {call : Call} {log : List (Access Row)}
    (hlog : ∀ access ∈ log, call.Makes access) {row : Row} (hrow : row ∈ added log) :
    call.Inserts row := by
  obtain ⟨access, haccess, hadded⟩ := List.mem_filterMap.mp hrow
  cases access with
  | selected | updated => cases hadded
  | inserted new =>
      cases hadded
      exact hlog _ haccess

theorem program_done (sha256Hex : Text → Text) (call : Call) :
    (program sha256Hex call).Ensures (Done sha256Hex call) [] := by
  have haccesses : (program sha256Hex call).Ensures
      (fun log _ => ∀ access ∈ log, call.Makes access) [] :=
    (program_accesses sha256Hex call).ensures (by simp)
  cases call with
  | issue draws accountId input =>
      have hissue : (program sha256Hex (.issue draws accountId input)).Ensures (fun log answer =>
          ∃ result, answer = .issue result ∧ ∀ token, .token token ∈ added log →
            result = .issued token.id token.expiresAt ∧ token.accountId = accountId.value ∧
            token.agentDeviceId = input.agentDeviceId.value ∧
            token.routingId = input.routingId) [] := by
        simp only [program, Tx.ensures_bind, Tx.ensures_pure]
        exact (issueWithinTenant_ensures draws accountId input).mono
          fun log result h => ⟨result, rfl, h⟩
      refine (haccesses.and hissue).mono ?_
      rintro log answer ⟨hlog, result, rfl, htokens⟩
      refine ⟨hlog, fun token htoken => ?_, fun _ _ _ heq => (by cases heq),
        fun _ _ _ _ heq => (by cases heq)⟩
      obtain ⟨rfl, haccount, hagent, hrouting⟩ := htokens token htoken
      exact ⟨draws, accountId, input, rfl, rfl, haccount, hagent, hrouting⟩
  | redeem draws accountId input =>
      have hredeem : (program sha256Hex (.redeem draws accountId input)).Ensures
          (fun log answer => ∃ result, answer = .redeem result ∧
            RedeemDone sha256Hex draws accountId input log result) [] := by
        simp only [program, Tx.ensures_bind, Tx.ensures_pure]
        exact (redeem_ensures sha256Hex draws accountId input).mono
          fun log result h => ⟨result, rfl, h⟩
      refine (haccesses.and hredeem).mono ?_
      rintro log answer ⟨hlog, hresult⟩
      refine ⟨hlog, fun token htoken => (inserts_of_added hlog htoken).elim, ?_,
        fun _ _ _ _ heq => (by cases heq)⟩
      rintro draws' accountId' input' heq
      cases heq
      exact hresult
  | revokeDevice draws accountId deviceId actor =>
      have hrevoke : (program sha256Hex (.revokeDevice draws accountId deviceId actor)).Ensures
          (fun log answer => ∃ revoked, answer = .revoke revoked ∧
            RevokeDone draws accountId deviceId log revoked) [] := by
        simp only [program, Tx.ensures_bind, Tx.ensures_pure]
        exact (revokeDevice_ensures draws accountId deviceId actor).mono
          fun log revoked h => ⟨revoked, rfl, h⟩
      refine (haccesses.and hrevoke).mono ?_
      rintro log answer ⟨hlog, hrevoked⟩
      refine ⟨hlog, fun token htoken => (inserts_of_added hlog htoken).elim,
        fun _ _ _ heq => (by cases heq), ?_⟩
      rintro draws' accountId' deviceId' actor' heq
      cases heq
      exact hrevoked
  | authenticate | touchLastSeen | list | peerIsPaired | revokePairing | record =>
      refine haccesses.mono fun log answer hlog => ⟨hlog, ?_, fun _ _ _ heq => (by cases heq),
        fun _ _ _ _ heq => (by cases heq)⟩
      exact fun token htoken => (inserts_of_added hlog htoken).elim

theorem Done.updates {sha256Hex : Text → Text} {call : Call} {log : List (Access Row)}
    {answer : Answer} (h : Done sha256Hex call log answer) (old new : Row)
    (hmem : .updated old new ∈ log) : RowKept old new :=
  (h.accesses _ hmem).updates.kept

/-! ### The redemptions of a routing id -/

/-- The transaction is a redemption of the routing id that answered `ok`. -/
def redeems (routingId : Text) (x : RelayTxn) : Bool :=
  match x.call, x.outcome with
  | .redeem _ _ input, some (.ok (.redeem (.ok ..))) => input.routingId = routingId
  | _, _ => false

/-- What the transaction has inserted, if it is a committed redemption of the routing id. -/
def createdBy (routingId : Text) (x : RelayTxn) : List Row :=
  match x.call, x.outcome with
  | .redeem _ _ input, some (.ok _) => if input.routingId = routingId then added x.log else []
  | _, _ => []

/-- What a redemption that answered `ok` was called with, and the two devices it answered with. -/
structure Redemption where
  draws : Draws
  accountId : UuidText
  input : RedeemInput
  clientDeviceId : PgUuid
  agentDeviceId : PgUuid

/-- Transaction `t` is a redemption that answered `ok`. -/
def OkRedeem (s : RelayStore) (t : ℕ) (x : RelayTxn) (r : Redemption) : Prop :=
  x.call = .redeem r.draws r.accountId r.input ∧ ∃ pairingId deviceToken,
    s.Committed t x (.redeem (.ok pairingId r.clientDeviceId r.agentDeviceId deviceToken))

/-- The token was there before the run, or a committed issue has made it: of the account and for the
agent the token names. -/
def IssuedFor (rows : List Row) (s : RelayStore) (token : PairingTokenRow) : Prop :=
  (∃ row ∈ rows, RowKept row (.token token)) ∨
    ∃ t x draws accountId input, s.Committed t x (.issue (.issued token.id token.expiresAt)) ∧
      x.call = .issue draws accountId input ∧ token.accountId = accountId.value ∧
      token.agentDeviceId = input.agentDeviceId.value ∧ token.routingId = input.routingId

/-- The transaction has inserted one client device of the account and one pairing of it, of that
client with the agent. -/
def Paired (x : RelayTxn) (accountId : UuidText) (clientDeviceId agentDeviceId : PgUuid) : Prop :=
  ∃ device pairing audit, added x.log = [.device device, .pairing pairing, .audit audit] ∧
    device.id = clientDeviceId ∧ device.kind = .client ∧ device.accountId = accountId.value ∧
    pairing.accountId = accountId.value ∧ pairing.clientDeviceId = clientDeviceId ∧
    pairing.agentDeviceId = agentDeviceId

/-- The run has a step at which transaction `t` reads the agent's row, and the row was then
committed and unrevoked. -/
def AgentUnrevokedWhenRead (sha256Hex : Text → Text) (rows : List Row)
    (events : List (ReadCommitted.Event Call)) (t : ℕ) (accountId : UuidText)
    (agentDeviceId : PgUuid) : Prop :=
  ∃ (done rest : List (ReadCommitted.Event Call)) (u : RelayStore) (y : RelayTxn)
    (next : List Row → Tx schema Answer) (agent : DeviceRow),
    events = done ++ .exec t :: rest ∧
    Transition.run (step (program sha256Hex)) (.init rows) done = some u ∧
    u.txns[t]? = some y ∧ y.body = .select (activeDevice accountId.value agentDeviceId) next ∧
    .device agent ∈ u.committed ∧ agent.id = agentDeviceId ∧ agent.accountId = accountId.value ∧
    agent.revokedAt = none

/-! ### The invariant -/

/-- Every redemption that answered `ok` has its token used, no two have one routing id, and every
token was issued. -/
structure Spent (rows : List Row) (s : RelayStore) : Prop where
  used : ∀ t x r, OkRedeem s t x r → ∃ token, .token token ∈ s.committed ∧ token.used = true ∧
    token.routingId = r.input.routingId ∧ token.accountId = r.accountId.value ∧
    token.agentDeviceId = r.agentDeviceId ∧ r.draws.now < token.expiresAt
  once : ∀ t t' x x' r r', OkRedeem s t x r → OkRedeem s t' x' r' →
    r.input.routingId = r'.input.routingId → t = t'
  issued : ∀ token, .token token ∈ s.committed → IssuedFor rows s token

theorem spent_init (rows : List Row) : Spent rows (.init rows) := by
  constructor
  · rintro t x r ⟨-, pairingId, deviceToken, hx, -⟩
    simp [Store.init] at hx
  · rintro t t' x x' r r' ⟨-, pairingId, deviceToken, hx, -⟩
    simp [Store.init] at hx
  · intro token htoken
    exact .inl ⟨_, htoken, RowKept.refl _⟩

/-- A used token stays used, with the columns it had, through every commit. -/
theorem token_version {rows : List Row} {log : List (Access Row)}
    (hlog : ∀ old new, .updated old new ∈ log → RowKept old new) {token : PairingTokenRow}
    (htoken : .token token ∈ rows) (hused : token.used = true) :
    ∃ token', .token token' ∈ visible rows log ∧ token'.used = true ∧
      token'.routingId = token.routingId ∧ token'.accountId = token.accountId ∧
      token'.agentDeviceId = token.agentDeviceId ∧ token'.expiresAt = token.expiresAt := by
  obtain ⟨row, hrow, hkept⟩ := exists_visible RowKept.refl RowKept.trans hlog htoken
  obtain ⟨token', rfl, -, haccount, hagent, hrouting, hexpires⟩ := frozen_token hkept.1
  exact ⟨token', hrow, hkept.2 hused, hrouting, haccount, hagent, hexpires⟩

/-- The token a redemption has claimed is the committed one, unused, up to its commit; the commit
leaves it used. -/
theorem redeemed_claim {sha256Hex : Text → Text} {draws : Draws} {accountId : UuidText}
    {input : RedeemInput} {rows : List Row} {log : List (Access Row)} {agentDeviceId : PgUuid}
    (hsound : Sound schema rows log)
    (hlog : ∀ old new, .updated old new ∈ log → RowKept old new)
    (h : Redeemed sha256Hex draws accountId input log agentDeviceId) :
    (∃ token, .token token ∈ rows ∧ token.used = false ∧ token.routingId = input.routingId) ∧
      ∃ token, .token token ∈ visible rows log ∧ token.used = true ∧
        token.routingId = input.routingId ∧ token.accountId = accountId.value ∧
        token.agentDeviceId = agentDeviceId ∧ draws.now < token.expiresAt := by
  obtain ⟨token, claimed, agents, agent, after, audit, heq, hclaimed, hagents, hid, rfl, hafter,
    hadded⟩ := h
  obtain ⟨_, htoken, haccount, hrouting, hunused, hexpires⟩ :=
    claimable_eq_true.mp (hclaimed _ (List.mem_cons_self ..))
  cases htoken
  -- every version the redemption has written is a used token or an insertion
  have hwritten : .token token ∉ written log := by
    intro hmem
    rcases mem_written.mp hmem with hmem | ⟨old, hmem⟩
    · simp [hadded] at hmem
    · rw [heq] at hmem
      rcases List.mem_append.mp hmem with hmem | hmem
      · obtain ⟨row, hrow, hupdate⟩ := List.mem_map.mp hmem
        obtain ⟨token', rfl, -⟩ := claimable_eq_true.mp (hclaimed row hrow)
        simp only [setUsed, Access.updated.injEq, Row.token.injEq] at hupdate
        rw [← hupdate.2] at hunused
        cases hunused
      · rcases List.mem_cons.mp hmem with hmem | hmem
        · cases hmem
        · exact hafter _ _ hmem
  have hcommitted : .token token ∈ rows := by
    refine (hsound.grounded (.token token) ((setUsed draws.now).apply
      (.token token)) ?_).resolve_right
      hwritten
    rw [heq]
    simp
  refine ⟨⟨token, hcommitted, hunused, hrouting⟩, ?_⟩
  -- replaying the claim puts the used version in its place, and the rest of the log keeps it
  rw [heq, List.map_cons, List.cons_append]
  have hnew : .token { token with used := true, usedAt := some draws.now }
      ∈ Access.replay rows (.updated (.token token) ((setUsed draws.now).apply (.token token))) :=
    List.mem_map.mpr ⟨.token token, hcommitted, if_pos rfl⟩
  obtain ⟨token', hmem, hused, hrouting', haccount', hagent', hexpires'⟩ :=
    token_version (fun old new hmem => hlog old new (heq ▸ List.mem_cons_of_mem _ hmem)) hnew rfl
  refine ⟨token', hmem, hused, hrouting'.trans hrouting, haccount'.trans haccount, ?_, ?_⟩
  · rw [hid]
    exact hagent'
  · rw [hexpires']
    exact hexpires

/-- What a redemption that commits `ok` has done. -/
theorem redeemed_of_done {sha256Hex : Text → Text} {x : RelayTxn} {answer : Answer}
    {draws : Draws} {accountId : UuidText} {input : RedeemInput}
    {pairingId clientDeviceId agentDeviceId : PgUuid} {deviceToken : Text}
    (hdone : Done sha256Hex x.call x.log answer) (hcall : x.call = .redeem draws accountId input)
    (hanswer : answer = .redeem (.ok pairingId clientDeviceId agentDeviceId deviceToken)) :
    clientDeviceId = draws.clientDeviceId ∧
      Redeemed sha256Hex draws accountId input x.log agentDeviceId := by
  obtain ⟨result, hresult, hredeem⟩ := hdone.redeemed draws accountId input hcall
  rw [hanswer] at hresult
  cases hresult
  exact hredeem.2

/-- The redemptions that answered `ok` after a commit. -/
theorem okRedeem_commit {s : RelayStore} {t t' : ℕ} {x y : RelayTxn} {answer : Answer}
    {r : Redemption} (h : OkRedeem (s.commit t x answer) t' y r) :
    (t' = t ∧ x.call = .redeem r.draws r.accountId r.input ∧ ∃ pairingId deviceToken,
      answer = .redeem (.ok pairingId r.clientDeviceId r.agentDeviceId deviceToken)) ∨
      OkRedeem s t' y r := by
  obtain ⟨hcall, pairingId, deviceToken, hy⟩ := h
  rcases committed_commit hy with ⟨rfl, rfl, hanswer⟩ | ⟨-, hy⟩
  · exact .inl ⟨rfl, hcall, pairingId, deviceToken, hanswer.symm⟩
  · exact .inr ⟨hcall, pairingId, deviceToken, hy⟩

theorem IssuedFor.commit {rows : List Row} {s : RelayStore} {t : ℕ} {x : RelayTxn}
    {answer : Answer} (hx : s.txns[t]? = some x) (hopen : x.outcome = none)
    {token token' : PairingTokenRow} (h : IssuedFor rows s token)
    (hkept : RowKept (.token token) (.token token')) :
    IssuedFor rows (s.commit t x answer) token' := by
  rcases h with ⟨row, hrow, hrow'⟩ | ⟨t', y, draws, accountId, input, hy, hcall, hissued⟩
  · exact .inl ⟨row, hrow, RowKept.trans _ _ _ hrow' hkept⟩
  · obtain ⟨_, heq, hid, haccount, hagent, hrouting, hexpires⟩ := frozen_token hkept.1
    cases heq
    refine .inr ⟨t', y, draws, accountId, input, ?_, hcall, ?_⟩
    · rw [hid, hexpires]
      exact hy.commit hx hopen
    · rw [haccount, hagent, hrouting]
      exact hissued

/-- **Every commit keeps the invariant.** -/
theorem spent_commit {sha256Hex : Text → Text} {rows : List Row} {s : RelayStore} {t : ℕ}
    {x : RelayTxn} {answer : Answer} (hs : Coherent s) (hspent : Spent rows s)
    (hx : s.txns[t]? = some x) (hopen : x.outcome = none)
    (hdone : Done sha256Hex x.call x.log answer) : Spent rows (s.commit t x answer) := by
  have hsound := hs.sound t x hx hopen
  -- a second redemption of a routing id would have found the token unused, and it is used
  have hfresh : ∀ (t' : ℕ) (x' : RelayTxn) (r r' : Redemption) (pairingId : PgUuid)
      (deviceToken : Text), OkRedeem s t' x' r' →
      x.call = .redeem r.draws r.accountId r.input →
      answer = .redeem (.ok pairingId r.clientDeviceId r.agentDeviceId deviceToken) →
      r.input.routingId ≠ r'.input.routingId := by
    intro t' x' r r' pairingId deviceToken hold hcall hanswer hrouting
    obtain ⟨⟨token, htoken, hunused, hrouting₁⟩, -⟩ :=
      redeemed_claim hsound hdone.updates (redeemed_of_done hdone hcall hanswer).2
    obtain ⟨token', htoken', hused, hrouting₂, -⟩ := hspent.used t' x' r' hold
    have hclash := clash_token (hrouting₁.trans (hrouting.trans hrouting₂.symm))
    have heq := hs.consistent.eq_of_clash htoken htoken' hclash
    cases heq
    rw [hused] at hunused
    cases hunused
  constructor
  · intro t' y r hy
    rcases okRedeem_commit hy with ⟨rfl, hcall, pairingId, deviceToken, hanswer⟩ | hold
    · exact (redeemed_claim hsound hdone.updates (redeemed_of_done hdone hcall hanswer).2).2
    · obtain ⟨token, htoken, hused, hrouting, haccount, hagent, hexpires⟩ := hspent.used t' y r hold
      obtain ⟨token', htoken', hused', hrouting', haccount', hagent', hexpires'⟩ :=
        token_version hdone.updates htoken hused
      exact ⟨token', htoken', hused', hrouting'.trans hrouting, haccount'.trans haccount,
        hagent'.trans hagent, hexpires' ▸ hexpires⟩
  · intro t₁ t₂ y₁ y₂ r₁ r₂ hy₁ hy₂ hrouting
    rcases okRedeem_commit hy₁ with ⟨rfl, hcall₁, pairingId₁, deviceToken₁, hanswer₁⟩ | hold₁
    · rcases okRedeem_commit hy₂ with ⟨rfl, -⟩ | hold₂
      · rfl
      · exact absurd hrouting (hfresh t₂ y₂ r₁ r₂ pairingId₁ deviceToken₁ hold₂ hcall₁ hanswer₁)
    · rcases okRedeem_commit hy₂ with ⟨rfl, hcall₂, pairingId₂, deviceToken₂, hanswer₂⟩ | hold₂
      · exact absurd hrouting.symm
          (hfresh t₁ y₁ r₂ r₁ pairingId₂ deviceToken₂ hold₁ hcall₂ hanswer₂)
      · exact hspent.once t₁ t₂ y₁ y₂ r₁ r₂ hold₁ hold₂ hrouting
  · intro token htoken
    obtain ⟨origin, horigin, hkept⟩ :=
      visible_origin RowKept.refl RowKept.trans hdone.updates htoken
    obtain ⟨token₀, rfl, hid, haccount, hagent, hrouting, hexpires⟩ := frozen_token hkept.1.symm
    rcases List.mem_append.mp horigin with hold | hnew
    · exact (hspent.issued token₀ hold).commit hx hopen hkept
    · obtain ⟨draws, accountId, input, hcall, hanswer, haccount₀, hagent₀, hrouting₀⟩ :=
        hdone.issued token₀ hnew
      refine .inr ⟨t, { x with outcome := some (.ok answer) }, draws, accountId, input, ?_, hcall,
        haccount ▸ haccount₀, hagent ▸ hagent₀, hrouting ▸ hrouting₀⟩
      rw [← hid, ← hexpires, ← hanswer]
      exact commit_self hx answer

/-- What is committed and who committed is all the invariant is about. -/
theorem Spent.quiet {rows : List Row} {s s' : RelayStore} (h : Spent rows s)
    (hsame : s'.committed = s.committed)
    (hdone : ∀ t x answer, s'.Committed t x answer ↔ s.Committed t x answer) : Spent rows s' := by
  have hok : ∀ t x r, OkRedeem s' t x r → OkRedeem s t x r := by
    rintro t x r ⟨hcall, pairingId, deviceToken, hx⟩
    exact ⟨hcall, pairingId, deviceToken, (hdone t x _).mp hx⟩
  constructor
  · intro t x r hx
    rw [hsame]
    exact h.used t x r (hok t x r hx)
  · intro t t' x x' r r' hx hx'
    exact h.once t t' x x' r r' (hok t x r hx) (hok t' x' r' hx')
  · intro token htoken
    rw [hsame] at htoken
    rcases h.issued token htoken with hrow | ⟨t, x, draws, accountId, input, hx, hissued⟩
    · exact .inl hrow
    · exact .inr ⟨t, x, draws, accountId, input, (hdone t x _).mpr hx, hissued⟩

/-- **In every state of every run, a redeemed token is used and was redeemed once.** -/
theorem spent_of_run {sha256Hex : Text → Text} {rows : List Row} (hrows : schema.Consistent rows)
    {events : List (ReadCommitted.Event Call)} {s : RelayStore}
    (hrun : Transition.run (step (program sha256Hex)) (.init rows) events = some s) :
    Spent rows s :=
  run_commits (program_done sha256Hex) (fun _ _ h hsame hdone => h.quiet hsame hdone)
    (fun _ _ _ _ hs h hx hopen hdone => spent_commit hs h hx hopen hdone) (coherent_init hrows)
    (guaranteed_init _ _) (spent_init rows) hrun

/-! ### Single use -/

theorem redeems_iff {routingId : Text} {s : RelayStore} {t : ℕ} {x : RelayTxn}
    (hx : s.txns[t]? = some x) :
    redeems routingId x = true ↔ ∃ r, OkRedeem s t x r ∧ r.input.routingId = routingId := by
  constructor
  · intro h
    unfold redeems at h
    split at h
    · rename_i draws accountId input pairingId client agent deviceToken hcall houtcome
      exact ⟨⟨draws, accountId, input, client, agent⟩,
        ⟨hcall, pairingId, deviceToken, hx, houtcome⟩, by simpa using h⟩
    · cases h
  · rintro ⟨r, ⟨hcall, pairingId, deviceToken, -, houtcome⟩, hrouting⟩
    simp [redeems, hcall, houtcome, hrouting]

/-- A predicate that holds at one position at most holds at most once. -/
theorem countP_le_one {α : Type} {p : α → Bool} {l : List α}
    (h : ∀ (i j : ℕ) (x y : α), l[i]? = some x → l[j]? = some y → p x = true → p y = true →
      i = j) :
    l.countP p ≤ 1 := by
  induction l with
  | nil => simp
  | cons x l ih =>
      have hrest : l.countP p ≤ 1 := by
        refine ih fun i j x y hx hy hpx hpy => ?_
        have := h (i + 1) (j + 1) x y (by simpa using hx) (by simpa using hy) hpx hpy
        omega
      cases hp : p x with
      | false => simpa [hp] using hrest
      | true =>
          -- the head is the one position
          have hnone : l.countP p = 0 := by
            rw [List.countP_eq_zero]
            intro y hy hpy
            obtain ⟨j, hj⟩ := List.getElem?_of_mem hy
            have := h 0 (j + 1) x y (by simp) (by simpa using hj) hp hpy
            omega
          simp [hp, hnone]

/-- Where each element contributes one or nothing, the contributions are counted. -/
theorem countP_flatMap {α β : Type} {f : α → List β} {p : β → Bool} {q : α → Bool} {l : List α}
    (h : ∀ x ∈ l, (f x).countP p = if q x then 1 else 0) :
    (l.flatMap f).countP p = l.countP q := by
  induction l with
  | nil => rfl
  | cons x l ih =>
      rw [List.flatMap_cons, List.countP_append, h x (List.mem_cons_self ..),
        ih fun y hy => h y (List.mem_cons_of_mem _ hy), List.countP_cons]
      omega

/-- A redemption has inserted one device and one pairing if it answered `ok`, and none else. -/
theorem createdBy_count {sha256Hex : Text → Text} {s : RelayStore}
    (hdone : Guaranteed (Done sha256Hex) s) (routingId : Text) {t : ℕ} {x : RelayTxn}
    (hx : s.txns[t]? = some x) {p : Row → Bool} (hp : ∀ audit, p (.audit audit) = false)
    (hcount : ∀ device pairing audit,
      [.device device, .pairing pairing, Row.audit audit].countP p = 1) :
    (createdBy routingId x).countP p = if redeems routingId x then 1 else 0 := by
  unfold createdBy
  split
  · rename_i draws accountId input answer hcall houtcome
    obtain ⟨result, rfl, hresult⟩ :=
      (hdone.kept t x answer hx houtcome).redeemed draws accountId input hcall
    have hnone : OnlyAudits x.log → (added x.log).countP p = 0 := by
      intro haudits
      rw [List.countP_eq_zero]
      intro row hrow
      obtain ⟨audit, rfl⟩ := haudits row hrow
      simp [hp]
    cases result with
    | ok pairingId client agent deviceToken =>
        obtain ⟨-, -, token, claimed, agents, device, after, audit, -, -, -, -, -, -, hadded⟩ :=
          hresult
        by_cases hrouting : input.routingId = routingId
        · simp only [redeems, hcall, houtcome, hrouting, if_pos, hadded, hcount, decide_true]
        · simp [redeems, hcall, houtcome, hrouting]
    | unknownToken | agentRevoked | quotaExceeded =>
        by_cases hrouting : input.routingId = routingId
        · simpa [redeems, hcall, houtcome, hrouting] using hnone hresult
        · simp [redeems, hcall, houtcome, hrouting]
  · rename_i hother
    have hnot : redeems routingId x ≠ true := by
      intro hredeems
      obtain ⟨r, ⟨hcall, pairingId, deviceToken, -, houtcome⟩, -⟩ := (redeems_iff hx).mp hredeems
      exact hother _ _ _ _ hcall houtcome
    simp [hnot]

/-- **Single-use redemption.**  In every state of every interleaving, each routing id has at most
one redemption that answered `ok`, the redemptions of it have created at most one client device and
at most one pairing, and the one that answered `ok` named the account the token was issued by, made
its clock reading before the token's expiry, and paired the new client with the agent the token was
issued for, which was unrevoked when the redemption read it. -/
theorem redeem_single_use (sha256Hex : Text → Text) {rows : List Row}
    (hrows : schema.Consistent rows) {events : List (ReadCommitted.Event Call)} {s : RelayStore}
    (hrun : Transition.run (step (program sha256Hex)) (.init rows) events = some s)
    (routingId : Text) :
    s.txns.countP (redeems routingId) ≤ 1 ∧
    (s.txns.flatMap (createdBy routingId)).countP (fun row => row.device?.isSome) ≤ 1 ∧
    (s.txns.flatMap (createdBy routingId)).countP (fun row => row.pairing?.isSome) ≤ 1 ∧
    ∀ t x r, OkRedeem s t x r → r.input.routingId = routingId →
      (∃ token, .token token ∈ s.committed ∧ token.routingId = routingId ∧
        token.accountId = r.accountId.value ∧ token.agentDeviceId = r.agentDeviceId ∧
        IssuedFor rows s token ∧ r.draws.now < token.expiresAt) ∧
      Paired x r.accountId r.clientDeviceId r.agentDeviceId ∧
      AgentUnrevokedWhenRead sha256Hex rows events t r.accountId r.agentDeviceId := by
  have hspent := spent_of_run hrows hrun
  have hdone : Guaranteed (Done sha256Hex) s :=
    guaranteed_of_run (program_done sha256Hex) (guaranteed_init _ _) hrun
  have hone : s.txns.countP (redeems routingId) ≤ 1 := by
    refine countP_le_one fun i j x y hx hy hpx hpy => ?_
    obtain ⟨r, hr, hrouting⟩ := (redeems_iff hx).mp hpx
    obtain ⟨r', hr', hrouting'⟩ := (redeems_iff hy).mp hpy
    exact hspent.once i j x y r r' hr hr' (hrouting.trans hrouting'.symm)
  have hcreated (p : Row → Bool) (hp : ∀ audit, p (.audit audit) = false)
      (hcount : ∀ device pairing audit,
        [.device device, .pairing pairing, Row.audit audit].countP p = 1) :
      (s.txns.flatMap (createdBy routingId)).countP p ≤ 1 := by
    refine (countP_flatMap fun x hx => ?_).trans_le hone
    obtain ⟨t, ht⟩ := List.getElem?_of_mem hx
    exact createdBy_count hdone routingId ht hp hcount
  refine ⟨hone, hcreated _ (fun _ => rfl) (fun _ _ _ => rfl),
    hcreated _ (fun _ => rfl) (fun _ _ _ => rfl), ?_⟩
  rintro t x r hr rfl
  obtain ⟨token, htoken, -, hrouting, haccount, hagent, hexpires⟩ := hspent.used t x r hr
  refine ⟨⟨token, htoken, hrouting, haccount, hagent, hspent.issued token htoken, hexpires⟩, ?_⟩
  obtain ⟨hcall, pairingId, deviceToken, hx, houtcome⟩ := hr
  obtain ⟨hclient, token₀, claimed, agents, agent, after, audit, hlog, hclaimed, hmem, hid,
    hagentId, -, hadded⟩ := redeemed_of_done (hdone.kept t x _ hx houtcome) hcall rfl
  refine ⟨⟨_, _, audit, hadded, hclient.symm, rfl, rfl, rfl, hclient.symm, hagentId.symm⟩, ?_⟩
  obtain ⟨done, rest, u, y, next, hevents, hu, hy, hbody, -, hread⟩ := selected_at hrun hx hlog
  rw [hagentId, hid]
  -- the claim has written tokens only, so the device it sees is a committed one
  rw [hread] at hmem
  obtain ⟨hvisible, hactive⟩ := List.mem_filter.mp hmem
  obtain ⟨_, heq, hdeviceAccount, hdeviceId, hunrevoked⟩ := activeDevice_eq_true.mp hactive
  cases heq
  refine ⟨done, rest, u, y, next, agent, hevents, hu, hy, hbody, ?_, hdeviceId, hdeviceAccount,
    hunrevoked⟩
  rcases mem_visible hvisible with hcommitted | hwritten
  · exact hcommitted
  · rcases mem_written.mp hwritten with hnew | ⟨old, hupdate⟩
    · rw [added_updates] at hnew
      cases hnew
    · obtain ⟨row, hrow, heq⟩ := List.mem_map.mp hupdate
      obtain ⟨token', rfl, -⟩ := claimable_eq_true.mp (hclaimed row hrow)
      simp [setUsed] at heq

/-! ### A race for one token -/

def uuidChars (c : Char) : Text :=
  List.replicate 8 c ++ '-' :: List.replicate 4 c ++ '-' :: List.replicate 4 c ++ '-' ::
    List.replicate 4 c ++ '-' :: List.replicate 12 c

/-- The account, the agent, and what the transactions draw. -/
def uuid0 : PgUuid := ⟨uuidChars '0', by decide, by decide⟩
def uuid1 : PgUuid := ⟨uuidChars '1', by decide, by decide⟩
def uuid2 : PgUuid := ⟨uuidChars '2', by decide, by decide⟩
def uuid3 : PgUuid := ⟨uuidChars '3', by decide, by decide⟩
def uuid4 : PgUuid := ⟨uuidChars '4', by decide, by decide⟩

/-- One account with room for two devices, and its agent. -/
def smallRelay : List Row :=
  [.account ⟨uuid0, 0, none⟩, .quota ⟨uuid0, 2, 5⟩,
    .device ⟨uuid1, uuid0, .agent, [], [], .ed25519, [], [], ['h'], 0, none, none⟩]

/-- Both redemptions look for the token before the first of them takes it. -/
def raceEvents : List (ReadCommitted.Event Call) :=
  let redeemInput : RedeemInput := ⟨['r'], ['c'], [], .p256, [], [], none⟩
  [.start (.issue ⟨uuid2, uuid2, uuid2, uuid2, [], 10, 10, 10⟩ uuid0.text
      ⟨uuid1.text, ['r'], 60, none⟩)] ++ List.replicate 5 (.exec 0) ++
    [.start (.redeem ⟨uuid3, uuid3, uuid3, uuid3, ['s'], 20, 20, 20⟩ uuid0.text redeemInput),
      .start (.redeem ⟨uuid4, uuid4, uuid4, uuid4, ['t'], 21, 21, 21⟩ uuid0.text redeemInput),
      .exec 1, .exec 2] ++ List.replicate 9 (.exec 1) ++ List.replicate 5 (.exec 2)

theorem smallRelay_consistent : schema.Consistent smallRelay :=
  ⟨by decide +kernel, by decide +kernel⟩

/-- One of the two wins. -/
theorem redeem_single_use_race : ∃ s : RelayStore,
    Transition.run (step (program id)) (.init smallRelay) raceEvents = some s ∧
      (s.txns.map fun x => x.outcome.isSome) = [true, true, true] ∧
      s.txns.countP (redeems ['r']) = 1 ∧
      ∀ t x r, OkRedeem s t x r → r.input.routingId = ['r'] →
        Paired x r.accountId r.clientDeviceId r.agentDeviceId := by
  have hrun : ((Transition.run (step (program id)) (Store.init smallRelay : RelayStore)
      raceEvents).any fun s => (s.txns.map fun x => x.outcome.isSome) = [true, true, true] &&
        s.txns.countP (redeems ['r']) = 1) = true := by
    decide +kernel
  obtain ⟨s, hs, hend⟩ := (Option.any_eq_true _ _).mp hrun
  simp only [Bool.and_eq_true, decide_eq_true_eq] at hend
  refine ⟨s, hs, hend.1, hend.2, fun t x r hr hrouting => ?_⟩
  exact ((redeem_single_use id smallRelay_consistent hs ['r']).2.2.2 t x r hr hrouting).2.1

end Osprey.Relay
