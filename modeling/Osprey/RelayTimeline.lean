/-
**When a device was looked up, and when it was deleted.**

A connection is attached to the hub some time after `requireDevice` has found its device, and a
deletion answers some time after its revocation has been committed.  What decides whether a device
that is about to be attached has been deleted is the order of the steps in between: the `SELECT` of
its own authentication, the commit of the revocation, and the answer.

Main definitions:

* `Osprey.Relay.HappensAt` — an event of a run and the state it happens in;
* `Osprey.Relay.ReadsDevices`, `Osprey.Relay.DeletionCommits`, `Osprey.Relay.DeletionAnswers` — the
  three steps;
* `Osprey.Relay.Overtaken` — they come in this order.

Main results:

* `Osprey.Relay.waits_of_run` — the transactions that connections and deletions wait for;
* `Osprey.Relay.read_of_attaching`, `Osprey.Relay.commit_of_answer` — a device about to be attached
  was read unrevoked, and a deletion that answers has committed;
* `Osprey.Relay.revoked_iff_overtaken` — **a device that is about to be attached has been deleted
  exactly if a deletion has overtaken its authentication**.
-/

import Osprey.RelayFrames
import Osprey.RelayRevoke

set_option relaxedAutoImplicit false
set_option autoImplicit false

namespace Osprey.Relay

open Transactions ReadCommitted

/-! ### Events of a run -/

/-- The `p`-th event of the run over `events` is `event`, and it happens in the state `s`. -/
structure HappensAt (platform : Platform) (rows : List Row) (events : List ServerEvent) (p : ℕ)
    (s : Server) (event : ServerEvent) : Prop where
  event : events[p]? = some event
  reached : Transition.run (Server.step platform) (.init rows) (events.take p) = some s

/-- The connection was opened by a request whose token transaction `t` checks. -/
def Opens (platform : Platform) (rows : List Row) (events : List ServerEvent) (i t : ℕ) : Prop :=
  ∃ p s endpoint authorization remoteIp token,
    HappensAt platform rows events p s (.upgrade endpoint authorization remoteIp) ∧
    credentials platform authorization = some token ∧ s.conns.length = i ∧ s.nextTxn = t

/-- At `p` the authentication of the connection reads the devices of its account. -/
def ReadsDevices (platform : Platform) (rows : List Row) (events : List ServerEvent) (p i : ℕ) :
    Prop :=
  ∃ t s x accountId next, Opens platform rows events i t ∧
    HappensAt platform rows events p s (.db (.exec t)) ∧ s.store.txns[t]? = some x ∧
    x.body = .select (activeDevices accountId) next

/-- At `p` a revocation of the device commits. -/
def DeletionCommits (platform : Platform) (rows : List Row) (events : List ServerEvent) (p : ℕ)
    (deviceId : PgUuid) : Prop :=
  ∃ t s x accountId, HappensAt platform rows events p s (.db (.exec t)) ∧
    s.store.txns[t]? = some x ∧ x.outcome = none ∧ x.body = .done (.revoke true) ∧
    x.call.RevokesDevice accountId deviceId

/-- At `p` a deletion of the device answers 204. -/
def DeletionAnswers (platform : Platform) (rows : List Row) (events : List ServerEvent) (p : ℕ)
    (deviceId : PgUuid) : Prop :=
  ∃ j draws s caller id, HappensAt platform rows events p s (.resumeDelete j draws) ∧
    s.dropping j = some (caller, id) ∧ id.value = deviceId

/-- A deletion of the device has overtaken the authentication of the connection: after its read of
the devices, the deletion has committed, and has answered 204. -/
def Overtaken (platform : Platform) (rows : List Row) (events : List ServerEvent) (i : ℕ)
    (deviceId : PgUuid) : Prop :=
  ∃ p q r, p < q ∧ q < r ∧ ReadsDevices platform rows events p i ∧
    DeletionCommits platform rows events q deviceId ∧
    DeletionAnswers platform rows events r deviceId

section Timeline

variable {platform : Platform} {rows : List Row} {events : List ServerEvent}

/-- An event of a run is one of the run that goes on. -/
theorem HappensAt.append {p : ℕ} {s : Server} {event : ServerEvent}
    (h : HappensAt platform rows events p s event) (more : List ServerEvent) :
    HappensAt platform rows (events ++ more) p s event := by
  have hlt := (List.getElem?_eq_some_iff.mp h.event).1
  refine ⟨by rw [List.getElem?_append_left hlt, h.event], ?_⟩
  rw [List.take_append_of_le_length hlt.le]
  exact h.reached

/-- The event between two parts of a run. -/
theorem happensAt_of_split {before after : List ServerEvent} {event : ServerEvent} {s : Server}
    (h : Transition.run (Server.step platform) (.init rows) before = some s) :
    HappensAt platform rows (before ++ event :: after) before.length s event := by
  refine ⟨by simp, ?_⟩
  rw [List.take_left]
  exact h

theorem Opens.append {i t : ℕ} (h : Opens platform rows events i t) (more : List ServerEvent) :
    Opens platform rows (events ++ more) i t := by
  obtain ⟨p, s, endpoint, authorization, remoteIp, token, hat, hopens⟩ := h
  exact ⟨p, s, endpoint, authorization, remoteIp, token, hat.append more, hopens⟩

/-- The run from one event to a later one. -/
theorem HappensAt.between {p q : ℕ} {s s' t : Server} {event event' : ServerEvent}
    (h : HappensAt platform rows events p s event) (h' : HappensAt platform rows events q t event')
    (hlt : p < q) (hstep : s.step platform event = some s') :
    ∃ mid, Transition.run (Server.step platform) s' mid = some t := by
  have hsplit : events.take q = (events.take p ++ [event]) ++ (events.drop (p + 1)).take (q - p - 1)
      := by
    have hevent : events.take p ++ [event] = events.take (p + 1) := by
      rw [List.take_add_one, h.event]
      rfl
    rw [hevent, ← List.take_add]
    congr 1
    omega
  have hrun := h'.reached
  rw [hsplit] at hrun
  obtain ⟨v, hv, hmid⟩ := Transition.run_append.mp hrun
  obtain ⟨w, hw, hlast⟩ := Transition.run_append.mp hv
  cases h.reached.symm.trans hw
  obtain ⟨w', hw', hnil⟩ := Transition.run_cons_eq_some.mp hlast
  cases hstep.symm.trans hw'
  cases hnil
  exact ⟨_, hmid⟩

/-! ### What connections and deletions wait for -/

/-- How far a connection has come. -/
def Server.phaseAt (s : Server) (i : ℕ) : Option ConnPhase := s.conns[i]?.map Conn.phase

/-- How far a deletion has come. -/
def Server.deletionAt (s : Server) (j : ℕ) : Option DeletePhase :=
  s.deletes[j]?.map DeleteRequest.phase

namespace Server

theorem phaseAt_of_conns {s s' : Server} (h : s'.conns = s.conns) (i : ℕ) :
    s'.phaseAt i = s.phaseAt i := by
  rw [phaseAt, h, phaseAt]

theorem phaseAt_modify {s s' : Server} {i : ℕ} {f : Conn → Conn}
    (h : s'.conns = s.conns.modify i f) (i' : ℕ) (hf : ∀ conn, (f conn).phase = conn.phase) :
    s'.phaseAt i' = s.phaseAt i' := by
  simp only [phaseAt, h, List.getElem?_modify]
  cases s.conns[i']? with
  | none => rfl
  | some conn =>
      simp only [Option.map_eq_map, Option.map_some]
      split
      · rw [hf]
      · rfl

theorem phaseAt_closeSocket (s : Server) (i : ℕ) (close : Close) (i' : ℕ) :
    (s.closeSocket i close).phaseAt i' = s.phaseAt i' := by
  refine phaseAt_modify rfl i' fun conn => ?_
  split
  · rfl
  · rfl

theorem phaseAt_closeAfter (s : Server) (closed : Option (ℕ × Close)) (i : ℕ) :
    (s.closeAfter closed).phaseAt i = s.phaseAt i := by
  cases closed with
  | none => rfl
  | some closed => exact phaseAt_closeSocket s closed.1 closed.2 i

theorem conns_send (s : Server) (socket : ℕ) (frame : ServerFrame) (handler : ℕ) :
    (s.send socket frame handler).conns = s.conns := by
  unfold send
  split
  · rfl
  · rfl

theorem conns_resume {s s' : Server} {k : ℕ} {audit : Draws}
    (h : s.resume platform k audit = some s') : s'.conns = s.conns := by
  unfold resume at h
  split at h
  · cases h
  · split at h
    · split at h
      · cases h
      · cases h
        exact conns_send _ _ _ _
      · cases h
        unfold deliver
        dsimp only
        split
        · exact conns_send _ _ _ _
        · exact conns_send _ _ _ _
      · cases h
        rfl
    · split at h
      · cases h
      · cases h
        exact conns_send _ _ _ _
      · cases h
        exact conns_send _ _ _ _
    · cases h

theorem deletes_send (s : Server) (socket : ℕ) (frame : ServerFrame) (handler : ℕ) :
    (s.send socket frame handler).deletes = s.deletes := by
  unfold send
  split
  · rfl
  · rfl

theorem deletes_resume {s s' : Server} {k : ℕ} {audit : Draws}
    (h : s.resume platform k audit = some s') : s'.deletes = s.deletes := by
  unfold resume at h
  split at h
  · cases h
  · split at h
    · split at h
      · cases h
      · cases h
        exact deletes_send _ _ _ _
      · cases h
        unfold deliver
        dsimp only
        split
        · exact deletes_send _ _ _ _
        · exact deletes_send _ _ _ _
      · cases h
        rfl
    · split at h
      · cases h
      · cases h
        exact deletes_send _ _ _ _
      · cases h
        exact deletes_send _ _ _ _
    · cases h

theorem phaseAt_resumeDelete {s s' : Server} {j : ℕ} {draws : Draws}
    (h : s.resumeDelete platform j draws = some s') (i : ℕ) : s'.phaseAt i = s.phaseAt i := by
  unfold resumeDelete at h
  split at h
  · cases h
  · split at h
    · split at h
      · cases h
      · cases h
        rfl
      · cases h
        unfold deleteDevice
        split
        · rfl
        · split
          · rfl
          · rfl
      · cases h
        rfl
    · split at h
      · cases h
      · cases h
        rfl
      · cases h
        exact phaseAt_closeAfter _ _ i
      · cases h
        rfl
    · cases h

/-- The connection whose turn it is moves on; the others stay. -/
theorem phaseAt_setPhase {s : Server} {i i' : ℕ} {phase phase' : ConnPhase}
    (h : (s.setPhase i phase).phaseAt i' = some phase') :
    s.phaseAt i' = some phase' ∨ (i' = i ∧ phase' = phase) := by
  obtain ⟨conn', hconn', rfl⟩ := Option.map_eq_some_iff.mp h
  rcases Transition.getElem?_modify_cases hconn' with ⟨-, hold⟩ | ⟨rfl, conn, -, rfl⟩
  · exact .inl (Option.map_eq_some_iff.mpr ⟨conn', hold, rfl⟩)
  · exact .inr ⟨rfl, rfl⟩

/-- How a connection has come as far as it has. -/
inductive PhaseMove (platform : Platform) (s : Server) (i : ℕ) :
    ServerEvent → Server → ConnPhase → Prop
  | stays (event : ServerEvent) (s' : Server) (phase : ConnPhase)
      (h : s.phaseAt i = some phase) : PhaseMove platform s i event s' phase
  | opens (endpoint : DeviceKind) (authorization : Option Text) (remoteIp : Text)
      (token : ParsedDeviceToken) (s' : Server)
      (htoken : credentials platform authorization = some token) (hi : s.conns.length = i)
      (hstore : s'.store
        = (s.begin platform (.authenticate token.accountId token.secretHash)).store) :
      PhaseMove platform s i (.upgrade endpoint authorization remoteIp) s'
        (.authenticating s.nextTxn)
  | found (t : ℕ) (device : AuthenticatedDevice) (s' : Server)
      (h : s.phaseAt i = some (.authenticating t))
      (houtcome : s.outcome t = some (.ok (.authenticate (some device)))) :
      PhaseMove platform s i (.authenticated i) s' (.authenticated device)
  | refused (event : ServerEvent) (s' : Server) : PhaseMove platform s i event s' .refused
  | attached (event : ServerEvent) (s' : Server) (device : AuthenticatedDevice) :
      PhaseMove platform s i event s' (.attached device)

/-- A connection is an old one or the one that comes in. -/
theorem phaseAt_append {s s' : Server} {conn : Conn} (hconns : s'.conns = s.conns ++ [conn])
    {i : ℕ} {phase : ConnPhase} (hphase : s'.phaseAt i = some phase) :
    s.phaseAt i = some phase ∨ (s.conns.length = i ∧ phase = conn.phase) := by
  obtain ⟨conn', hconn', rfl⟩ := Option.map_eq_some_iff.mp hphase
  rw [hconns] at hconn'
  rcases Nat.lt_or_ge i s.conns.length with hlt | hge
  · rw [List.getElem?_append_left hlt] at hconn'
    exact .inl (Option.map_eq_some_iff.mpr ⟨conn', hconn', rfl⟩)
  · rw [List.getElem?_append_right hge] at hconn'
    have hzero := (List.getElem?_eq_some_iff.mp hconn').1
    rw [List.length_singleton, Nat.lt_one_iff] at hzero
    rw [hzero] at hconn'
    cases hconn'
    exact .inr ⟨by omega, rfl⟩

theorem phaseMove_of_step {s s' : Server} {event : ServerEvent}
    (h : s.step platform event = some s') {i : ℕ} {phase : ConnPhase}
    (hphase : s'.phaseAt i = some phase) : PhaseMove platform s i event s' phase := by
  -- an event that leaves the connections alone, or their phases
  have hstays (hsame : s'.phaseAt i = s.phaseAt i) : PhaseMove platform s i event s' phase :=
    .stays event s' phase (hsame ▸ hphase)
  cases event with
  | db event =>
      obtain ⟨store, -, rfl⟩ := Option.map_eq_some_iff.mp h
      exact hstays rfl
  | upgrade endpoint authorization remoteIp =>
      have h := Option.some.inj h
      unfold upgrade at h
      split at h
      · subst h
        rcases phaseAt_append rfl hphase with hold | ⟨-, rfl⟩
        · exact .stays _ _ _ hold
        · exact .refused _ _
      · rename_i token htoken
        subst h
        rcases phaseAt_append rfl hphase with hold | ⟨hi, rfl⟩
        · exact .stays _ _ _ hold
        · exact .opens endpoint authorization remoteIp token _ htoken hi rfl
  | authenticated i' =>
      simp only [step, authenticated] at h
      split at h
      · rename_i t hwaits
        split at h
        · cases h
        · rename_i device houtcome
          cases h
          rcases phaseAt_setPhase hphase with hold | ⟨rfl, rfl⟩
          · exact .stays _ _ _ hold
          · exact .found t device _ hwaits houtcome
        · cases h
          rcases phaseAt_setPhase hphase with hold | ⟨rfl, rfl⟩
          · exact .stays _ _ _ hold
          · exact .refused _ _
      · cases h
  | attach i' touch audit =>
      simp only [step, attach] at h
      split at h
      · cases h
      · split at h
        · rename_i device _
          split at h
          · cases h
            rcases phaseAt_setPhase hphase with hold | ⟨-, rfl⟩
            · exact .stays _ _ _ ((phaseAt_closeSocket s i' _ i).symm.trans hold)
            · exact .refused _ _
          · cases h
            let attached := s.hub.attach device.accountId.chars device.deviceId.chars i'
            have hset :
                ({ s with hub := attached.1 }.setPhase i' (.attached device)).phaseAt i
                  = some phase := by
              rw [← phaseAt_closeAfter _ attached.2 i]
              exact hphase
            rcases phaseAt_setPhase hset with hold | ⟨-, rfl⟩
            · exact .stays _ _ _ hold
            · exact .attached _ _ device
        · cases h
  | message i' raw =>
      simp only [step, message] at h
      split at h
      · cases h
      · split at h
        · split at h
          · cases h
          · split at h
            · cases h
              exact hstays (phaseAt_of_conns (conns_send _ _ _ _) i)
            · cases h
              exact hstays (phaseAt_of_conns (conns_send _ _ _ _) i)
            · cases h
              exact hstays rfl
        · cases h
  | resume k audit => exact hstays (phaseAt_of_conns (conns_resume h) i)
  | closing i' =>
      simp only [step, closing] at h
      split at h
      · cases h
      · split at h
        · split at h
          · cases h
            refine hstays (phaseAt_modify rfl i ?_)
            exact fun _ => rfl
          · cases h
        · cases h
  | close i' =>
      simp only [step, close] at h
      split at h
      · cases h
      · split at h
        · split at h
          · cases h
          · cases h
            refine hstays (phaseAt_modify rfl i ?_)
            exact fun _ => rfl
        · cases h
  | delete id authorization remoteIp =>
      cases h
      refine hstays (phaseAt_of_conns ?_ i)
      unfold delete
      split
      · split
        · rfl
        · rfl
      · rfl
  | resumeDelete j draws => exact hstays (phaseAt_resumeDelete h i)

/-- The deletion whose turn it is moves on; the others stay. -/
theorem deletionAt_setDelete {s : Server} {j j' : ℕ} {phase phase' : DeletePhase}
    (h : (s.setDelete j phase).deletionAt j' = some phase') :
    s.deletionAt j' = some phase' ∨ (j' = j ∧ phase' = phase) := by
  obtain ⟨request', hrequest', rfl⟩ := Option.map_eq_some_iff.mp h
  rcases Transition.getElem?_modify_cases hrequest' with ⟨-, hold⟩ | ⟨rfl, request, -, rfl⟩
  · exact .inl (Option.map_eq_some_iff.mpr ⟨request', hold, rfl⟩)
  · exact .inr ⟨rfl, rfl⟩

theorem revoking_deleteDevice {s : Server} {j j' t : ℕ} {request : DeleteRequest}
    {caller device : AuthenticatedDevice} {draws : Draws} {deviceId : UuidText}
    (h : (s.deleteDevice platform j' request caller draws).deletionAt j
      = some (.revoking device deviceId t)) :
    s.deletionAt j = some (.revoking device deviceId t) ∨
      t = s.nextTxn ∧ ∃ draws' actor, (s.deleteDevice platform j' request caller draws).store
        = (s.begin platform (.revokeDevice draws' device.accountId deviceId actor)).store := by
  unfold deleteDevice at h ⊢
  split at h
  · rcases deletionAt_setDelete h with hold | ⟨-, heq⟩
    · exact .inl hold
    · cases heq
  · rename_i hagent
    rw [if_neg hagent]
    split at h
    · rename_i hid
      rw [dif_pos hid]
      rcases deletionAt_setDelete h with hold | ⟨-, heq⟩
      · exact .inl hold
      · cases heq
        exact .inr ⟨rfl, draws, _, rfl⟩
    · rcases deletionAt_setDelete h with hold | ⟨-, heq⟩
      · exact .inl hold
      · cases heq

/-- Only the events of the deletions change them. -/
theorem deletes_of_step {s s' : Server} {event : ServerEvent} (h : s.step platform event = some s')
    (hnew : ∀ id authorization remoteIp, event ≠ .delete id authorization remoteIp)
    (hresume : ∀ j draws, event ≠ .resumeDelete j draws) : s'.deletes = s.deletes := by
  cases event with
  | db event =>
      obtain ⟨store, -, rfl⟩ := Option.map_eq_some_iff.mp h
      rfl
  | upgrade endpoint authorization remoteIp =>
      cases h
      unfold upgrade
      split
      · rfl
      · rfl
  | authenticated i =>
      simp only [step, authenticated] at h
      split at h
      · split at h
        · cases h
        · cases h
          rfl
        · cases h
          rfl
      · cases h
  | attach i touch audit =>
      simp only [step, attach] at h
      split at h
      · cases h
      · split at h
        · split at h
          · cases h
            rfl
          · cases h
            exact deletes_closeAfter _ _
        · cases h
  | message i raw =>
      simp only [step, message] at h
      split at h
      · cases h
      · split at h
        · split at h
          · cases h
          · split at h
            · cases h
              exact deletes_send _ _ _ _
            · cases h
              exact deletes_send _ _ _ _
            · cases h
              rfl
        · cases h
  | resume k audit => exact deletes_resume h
  | closing i =>
      simp only [step, closing] at h
      split at h
      · cases h
      · split at h
        · split at h
          · cases h
            rfl
          · cases h
        · cases h
  | close i =>
      simp only [step, close] at h
      split at h
      · cases h
      · split at h
        · split at h
          · cases h
          · cases h
            rfl
        · cases h
  | delete id authorization remoteIp => exact absurd rfl (hnew id authorization remoteIp)
  | resumeDelete j draws => exact absurd rfl (hresume j draws)

/-- A deletion that has its revocation under way had it before, or has just begun it. -/
theorem revoking_of_step {s s' : Server} {event : ServerEvent}
    (h : s.step platform event = some s') {j t : ℕ} {device : AuthenticatedDevice}
    {deviceId : UuidText} (hphase : s'.deletionAt j = some (.revoking device deviceId t)) :
    s.deletionAt j = some (.revoking device deviceId t) ∨
      t = s.nextTxn ∧ ∃ draws actor, s'.store
        = (s.begin platform (.revokeDevice draws device.accountId deviceId actor)).store := by
  cases event with
  | db | upgrade | authenticated | attach | message | resume | closing | close =>
      refine .inl ?_
      rwa [deletionAt, deletes_of_step h (by simp) (by simp)] at hphase
  | delete id authorization remoteIp =>
      -- a new request does not revoke yet
      have hnew {request : DeleteRequest} (hdeletes : s'.deletes = s.deletes ++ [request])
          (hrequest : ∀ device deviceId t, request.phase ≠ .revoking device deviceId t) :
          s.deletionAt j = some (.revoking device deviceId t) := by
        obtain ⟨request', hmem, heq⟩ := Option.map_eq_some_iff.mp hphase
        rw [hdeletes] at hmem
        rcases append_cases hmem with rfl | hold
        · exact absurd heq (hrequest device deviceId t)
        · exact Option.map_eq_some_iff.mpr ⟨request', hold, heq⟩
      have h := Option.some.inj h
      unfold delete at h
      split at h
      · split at h
        · subst h
          exact .inl (hnew rfl (by simp))
        · subst h
          exact .inl (hnew rfl (by simp))
      · subst h
        exact .inl (hnew rfl (by simp))
  | resumeDelete j' draws =>
      -- the deletion moves on to something else
      have hset {phase : DeletePhase}
          (h : (s.setDelete j' phase).deletionAt j = some (.revoking device deviceId t))
          (hne : phase ≠ .revoking device deviceId t) :
          s.deletionAt j = some (.revoking device deviceId t) := by
        rcases deletionAt_setDelete h with hold | ⟨-, heq⟩
        · exact hold
        · exact absurd heq.symm hne
      simp only [step, resumeDelete] at h
      split at h
      · cases h
      · split at h
        · split at h
          · cases h
          · cases h
            exact .inl (hset hphase (by simp))
          · cases h
            exact revoking_deleteDevice hphase
          · cases h
            exact .inl (hset hphase (by simp))
        · split at h
          · cases h
          · cases h
            exact .inl (hset hphase (by simp))
          · cases h
            rcases deletionAt_setDelete hphase with hold | ⟨-, heq⟩
            · rw [deletionAt, deletes_closeAfter] at hold
              exact .inl hold
            · cases heq
          · cases h
            exact .inl (hset hphase (by simp))
        · cases h

/-- The transaction that was begun last. -/
theorem txn_begin (platform : Platform) (s : Server) (call : Call) :
    (s.begin platform call).store.txns[s.nextTxn]?
      = some ⟨call, program platform.sha256Hex call, none, [], none⟩ := by
  rw [begin, nextTxn, List.getElem?_concat_length]

end Server

open Server

/-- A connection that is being authenticated, or has been, was opened by a request whose token a
transaction checks; the device it has been found for is the answer of that transaction.  A deletion
that has its revocation under way has begun a transaction for it. -/
structure Waits (platform : Platform) (rows : List Row) (events : List ServerEvent) (s : Server) :
    Prop where
  authenticating : ∀ i t, s.phaseAt i = some (.authenticating t) →
    Opens platform rows events i t ∧ ∃ x accountId secretHash, s.store.txns[t]? = some x ∧
      x.call = .authenticate accountId secretHash
  authenticated : ∀ i device, s.phaseAt i = some (.authenticated device) →
    ∃ t x accountId secretHash, Opens platform rows events i t ∧ s.store.txns[t]? = some x ∧
      x.call = .authenticate accountId secretHash ∧
      x.outcome = some (.ok (.authenticate (some device)))
  revoking : ∀ j device deviceId t, s.deletionAt j = some (.revoking device deviceId t) →
    ∃ x draws actor, s.store.txns[t]? = some x ∧
      x.call = .revokeDevice draws device.accountId deviceId actor

theorem waits_of_run {s : Server}
    (h : Transition.run (Server.step platform) (.init rows) events = some s) :
    Waits platform rows events s := by
  induction events using List.reverseRecOn generalizing s with
  | nil =>
      cases h
      exact ⟨fun i t h => by simp [phaseAt, Server.init] at h,
        fun i device h => by simp [phaseAt, Server.init] at h,
        fun j device deviceId t h => by simp [deletionAt, Server.init] at h⟩
  | append_singleton events event ih =>
      obtain ⟨u, hu, hlast⟩ := Transition.run_append.mp h
      obtain ⟨s', hstep, hs'⟩ := Transition.run_cons_eq_some.mp hlast
      cases hs'
      have hwaits := ih hu
      have hmove := move_of_step hstep
      have hevent : HappensAt platform rows (events ++ [event]) events.length u event :=
        happensAt_of_split hu
      refine ⟨fun i t hphase => ?_, fun i device hphase => ?_,
        fun j device deviceId t hphase => ?_⟩
      · cases phaseMove_of_step hstep hphase with
        | stays _ _ _ hold =>
            obtain ⟨hopens, x, accountId, secretHash, hx, hcall⟩ := hwaits.authenticating i t hold
            obtain ⟨x', hx', hcall', -⟩ := hmove.txn hx
            exact ⟨hopens.append _, x', accountId, secretHash, hx', hcall'.trans hcall⟩
        | opens endpoint authorization remoteIp token _ htoken hi hstore =>
            refine ⟨⟨_, u, endpoint, authorization, remoteIp, token, hevent, htoken, hi, rfl⟩,
              ?_⟩
            rw [hstore]
            exact ⟨_, _, _, txn_begin platform u _, rfl⟩
      · cases phaseMove_of_step hstep hphase with
        | stays _ _ _ hold =>
            obtain ⟨t, x, accountId, secretHash, hopens, hx, hcall, houtcome⟩ :=
              hwaits.authenticated i device hold
            obtain ⟨x', hx', -, hsame⟩ := hmove.txn hx
            have hsame := hsame (by simp [houtcome])
            subst hsame
            exact ⟨t, x', accountId, secretHash, hopens.append _, hx', hcall, houtcome⟩
        | found t _ _ hold houtcome =>
            obtain ⟨hopens, x, accountId, secretHash, hx, hcall⟩ := hwaits.authenticating i t hold
            have hended : x.outcome = some (.ok (.authenticate (some device))) := by
              rwa [Server.outcome, hx, Option.bind_some] at houtcome
            obtain ⟨x', hx', -, hsame⟩ := hmove.txn hx
            have hsame := hsame (by simp [hended])
            subst hsame
            exact ⟨t, x', accountId, secretHash, hopens.append _, hx', hcall, hended⟩
      · rcases revoking_of_step hstep hphase with hold | ⟨rfl, draws, actor, hstore⟩
        · obtain ⟨x, draws, actor, hx, hcall⟩ := hwaits.revoking j device deviceId t hold
          obtain ⟨x', hx', hcall', -⟩ := hmove.txn hx
          exact ⟨x', draws, actor, hx', hcall'.trans hcall⟩
        · rw [hstore]
          exact ⟨_, draws, actor, txn_begin platform u _, rfl⟩

/-! ### What was read, and what has committed -/

/-- What an authentication that found a device has done: it has read the unrevoked devices of the
account, and the device is one of them. -/
def Authenticated : Call → List (Access Row) → Answer → Prop
  | .authenticate accountId _, log, answer =>
      ∀ device, answer = .authenticate (some device) → ∃ found row,
        log = [.selected (activeDevices accountId.value) found] ∧ .device row ∈ found ∧
        row.id = device.deviceId
  | _, _, _ => True

theorem program_authenticated (sha256Hex : Text → Text) (call : Call) :
    (program sha256Hex call).Ensures (Authenticated call) [] := by
  cases call with
  | authenticate accountId secretHash =>
      simp only [program, authenticate, Tx.ensures_bind, Tx.ensures_query, Tx.ensures_pure,
        Authenticated]
      intro found _ device hanswer
      obtain ⟨row, hrow, rfl⟩ := Option.map_eq_some_iff.mp (Answer.authenticate.inj hanswer)
      obtain ⟨origin, horigin, hdevice⟩ := List.mem_filterMap.mp (List.mem_of_find?_eq_some hrow)
      rw [Row.device?_eq_some.mp hdevice] at horigin
      exact ⟨found, row, rfl, horigin, rfl⟩
  | issue | redeem | touchLastSeen | list | revokeDevice | peerIsPaired | revokePairing | record =>
      exact ((program_accesses sha256Hex _).ensures (by simp)).mono fun _ _ _ => trivial

theorem activeDevices_eq_true {accountId : PgUuid} {row : Row} :
    activeDevices accountId row = true ↔ ∃ device, row = .device device ∧
      device.accountId = accountId ∧ device.revokedAt = none := by
  simp only [activeDevices, Row.among_eq_true, Row.device?_eq_some, decide_eq_true_eq]

/-- The relay goes on after an event of a run. -/
theorem HappensAt.next {p : ℕ} {u s : Server} {event : ServerEvent}
    (hat : HappensAt platform rows events p u event)
    (h : Transition.run (Server.step platform) (.init rows) events = some s) :
    ∃ u', u.step platform event = some u' ∧
      Transition.run (Server.step platform) u' (events.drop (p + 1)) = some s := by
  have hsplit : events.take p ++ event :: events.drop (p + 1) = events := by
    obtain ⟨hlt, rfl⟩ := List.getElem?_eq_some_iff.mp hat.event
    rw [List.getElem_cons_drop, List.take_append_drop]
  rw [← hsplit] at h
  obtain ⟨u', hu', hrest⟩ := Transition.run_append.mp h
  cases hat.reached.symm.trans hu'
  exact Transition.run_cons_eq_some.mp hrest

/-- The database of the relay takes the steps of a run of its own. -/
theorem store_between {u v : Server} {mid : List ServerEvent}
    (h : Transition.run (Server.step platform) u mid = some v) :
    ∃ dbEvents : List (ReadCommitted.Event Call),
      Transition.run (ReadCommitted.step (program platform.sha256Hex)) u.store dbEvents
        = some v.store := by
  induction mid generalizing u with
  | nil =>
      cases h
      exact ⟨[], rfl⟩
  | cons event mid ih =>
      obtain ⟨w, hstep, hrun⟩ := Transition.run_cons_eq_some.mp h
      obtain ⟨rest, hrest⟩ := ih hrun
      rcases (move_of_step hstep).store with ⟨e, -, he⟩ | ⟨calls, hcalls⟩
      · exact ⟨e :: rest, Transition.run_cons_eq_some.mpr ⟨w.store, he, hrest⟩⟩
      · exact ⟨calls.map .start ++ rest, Transition.run_append.mpr
          ⟨w.store, hcalls ▸ run_starts platform u.store calls, hrest⟩⟩

/-- A device that is about to be attached was read by the authentication of its connection: it was
there then, unrevoked. -/
theorem read_of_attaching {s : Server}
    (h : Transition.run (Server.step platform) (.init rows) events = some s) {i : ℕ}
    {device : AuthenticatedDevice} (hattaching : s.attaching i = some device) :
    ∃ p u t x accountId next row, Opens platform rows events i t ∧
      HappensAt platform rows events p u (.db (.exec t)) ∧ u.store.txns[t]? = some x ∧
      x.body = .select (activeDevices accountId) next ∧ .device row ∈ u.store.committed ∧
      row.id = device.deviceId ∧ row.revokedAt = none := by
  have hphase : s.phaseAt i = some (.authenticated device) := by
    obtain ⟨conn, hconn, hconnPhase⟩ := Option.bind_eq_some_iff.mp hattaching
    split at hconnPhase
    · rename_i device' heq
      split at hconnPhase
      · cases hconnPhase
        rw [phaseAt, hconn, Option.map_some, heq]
      · cases hconnPhase
    · cases hconnPhase
  obtain ⟨t, x, accountId, secretHash, hopens, hx, hcall, houtcome⟩ :=
    (waits_of_run h).authenticated i device hphase
  obtain ⟨dbEvents, hdb, hstates⟩ := store_of_run h
  have hkept := (guaranteed_of_run (program_authenticated platform.sha256Hex)
    (guaranteed_init Authenticated rows) hdb).kept t x _ hx houtcome
  rw [hcall] at hkept
  obtain ⟨found, row, hlog, hrow, hid⟩ := hkept device rfl
  obtain ⟨done, rest, store, y, next, rfl, hdone, hy, hbody, -, hfound⟩ :=
    selected_at hdb hx (show x.log = [] ++ .selected _ _ :: _ from hlog)
  obtain ⟨before, after, u, rfl, hu, hstore⟩ := hstates done t rest rfl
  cases hdone.symm.trans hstore
  rw [hfound] at hrow
  obtain ⟨hcommitted, hactive⟩ := List.mem_filter.mp hrow
  obtain ⟨row', heq, -, hunrevoked⟩ := activeDevices_eq_true.mp hactive
  cases heq
  exact ⟨before.length, u, t, y, accountId.value, next, row, hopens, happensAt_of_split hu, hy,
    hbody, hcommitted, hid, hunrevoked⟩

/-- A deletion that answers 204 has committed before. -/
theorem commit_of_answer {r : ℕ} {deviceId : PgUuid}
    (h : DeletionAnswers platform rows events r deviceId) :
    ∃ q, q < r ∧ DeletionCommits platform rows events q deviceId := by
  obtain ⟨j, draws, s, caller, id, hat, hdropping, rfl⟩ := h
  obtain ⟨request, hrequest, hphase⟩ := Option.bind_eq_some_iff.mp hdropping
  split at hphase
  · rename_i device deviceId t heq
    split at hphase
    · rename_i houtcome
      cases hphase
      have hdeletion : s.deletionAt j = some (.revoking caller id t) := by
        rw [deletionAt, hrequest, Option.map_some, heq]
      obtain ⟨x, draws', actor, hx, hcall⟩ :=
        (waits_of_run hat.reached).revoking j caller id t hdeletion
      obtain ⟨dbEvents, hdb, hstates⟩ := store_of_run hat.reached
      have hcommitted : s.store.Committed t x (.revoke true) := by
        rw [Server.outcome, hx, Option.bind_some] at houtcome
        exact ⟨hx, houtcome⟩
      obtain ⟨done, rest, store, y, rfl, hdone, hy, hopen, hbody, hycall, -⟩ :=
        committed_at hdb hcommitted
      obtain ⟨before, after, u, hsplit, hu, hstore⟩ := hstates done t rest rfl
      cases hdone.symm.trans hstore
      have hq : HappensAt platform rows (events.take r) before.length u (.db (.exec t)) := by
        rw [hsplit]
        exact happensAt_of_split hu
      have hlt : before.length < r := by
        have hlength := congrArg List.length hsplit
        simp only [List.length_take, List.length_append, List.length_cons] at hlength
        omega
      refine ⟨before.length, hlt, t, u, y, caller.accountId.value, ?_, hy, hopen, hbody, draws',
        caller.accountId, id, actor, hycall.trans hcall, rfl, rfl⟩
      have happend := hq.append (events.drop r)
      rwa [List.take_append_drop] at happend
    · cases hphase
  · cases hphase

/-- A deletion has answered 204 at some event of the run. -/
theorem answer_of_revoked {s : Server}
    (h : Transition.run (Server.step platform) (.init rows) events = some s) {deviceId : PgUuid}
    (hrevoked : s.Revoked deviceId) : ∃ r, DeletionAnswers platform rows events r deviceId := by
  induction events using List.reverseRecOn generalizing s with
  | nil =>
      cases h
      obtain ⟨request, hrequest, -⟩ := hrevoked
      cases hrequest
  | append_singleton events event ih =>
      obtain ⟨u, hu, hlast⟩ := Transition.run_append.mp h
      obtain ⟨s', hstep, hs'⟩ := Transition.run_cons_eq_some.mp hlast
      cases hs'
      have hearlier (hrevoked : u.Revoked deviceId) :
          ∃ r, DeletionAnswers platform rows (events ++ [event]) r deviceId := by
        obtain ⟨r, j, draws, v, caller, id, hat, hanswers⟩ := ih hu hrevoked
        exact ⟨r, j, draws, v, caller, id, hat.append _, hanswers⟩
      cases (move_of_step hstep).hub with
      | quiet _ _ hkeeps hattach hdrop => exact hearlier ((hkeeps.revoked deviceId).mp hrevoked)
      | attach i touch audit device _ hattaching hhub hdevices hsame =>
          exact hearlier ((hsame deviceId).mp hrevoked)
      | close i device _ hhub hdevices hsame => exact hearlier ((hsame deviceId).mp hrevoked)
      | drop j draws caller id _ hdropping hhub hdevices hsame =>
          rcases (hsame deviceId).mp hrevoked with rfl | hold
          · exact ⟨events.length, j, draws, u, caller, id, happensAt_of_split hu, hdropping, rfl⟩
          · exact hearlier hold

/-- Once a deletion has answered 204 for a device, it has in every later state. -/
theorem revoked_of_answer {s : Server}
    (h : Transition.run (Server.step platform) (.init rows) events = some s) {r : ℕ}
    {deviceId : PgUuid} (hanswers : DeletionAnswers platform rows events r deviceId) :
    s.Revoked deviceId := by
  obtain ⟨j, draws, u, caller, id, hat, hdropping, rfl⟩ := hanswers
  obtain ⟨u', hstep, hrest⟩ := hat.next h
  have hstays (v : Server) (event : ServerEvent) (w : Server) (hv : v.Revoked id.value)
      (hstep : v.step platform event = some w) : w.Revoked id.value := by
    cases (move_of_step hstep).hub with
    | quiet _ _ hkeeps hattach hdrop => exact (hkeeps.revoked id.value).mpr hv
    | attach i touch audit device _ hattaching hhub hdevices hsame =>
        exact (hsame id.value).mpr hv
    | close i device _ hhub hdevices hsame => exact (hsame id.value).mpr hv
    | drop j draws caller id' _ hdropping hhub hdevices hsame =>
        exact (hsame id.value).mpr (.inr hv)
  refine Transition.run_keeps hstays ?_ hrest
  cases (move_of_step hstep).hub with
  | quiet _ _ hkeeps hattach hdrop =>
      cases hdropping.symm.trans (hdrop j draws rfl)
  | drop _ _ caller' id' _ hdropping' hhub hdevices hsame =>
      cases hdropping.symm.trans hdropping'
      exact (hsame id.value).mpr (.inl rfl)

/-! ### Overtaking -/

/-- A device whose deletion has committed is revoked in the committed rows from then on. -/
theorem revoked_of_commit (hrows : schema.Consistent rows) {q p : ℕ} {u : Server}
    {event : ServerEvent} {deviceId : PgUuid}
    (hcommits : DeletionCommits platform rows events q deviceId)
    (hat : HappensAt platform rows events p u event) (hlt : q < p) :
    ∃ device, .device device ∈ u.store.committed ∧ device.id = deviceId ∧
      device.revokedAt ≠ none := by
  obtain ⟨t, v, x, accountId, hq, hx, hopen, hbody, draws, account, device, actor, hcall, -, rfl⟩ :=
    hcommits
  obtain ⟨dbEvents, hdb, -⟩ := store_of_run hq.reached
  obtain ⟨hcoherent, hguaranteed⟩ := kept_of_run (program_done platform.sha256Hex) hrows hdb
  have hdone := hguaranteed.rest t x hx hopen
  simp only [Txn.Ensures, hbody] at hdone
  have hsound := hcoherent.sound t x hx hopen
  -- the commit leaves the device revoked
  have hstep : ReadCommitted.step (program platform.sha256Hex) v.store (.exec t)
      = some (v.store.commit t x (.revoke true)) := step_commit hx hopen hbody
  have hserver : v.step platform (.db (.exec t))
      = some { v with store := v.store.commit t x (.revoke true) } := by
    rw [Server.step, hstep, Option.map_some]
  obtain ⟨revoked, hanswer, hrevoked⟩ := hdone.revoked draws account device actor hcall
  cases hanswer
  have hlog := hdone.accesses
  rw [hcall] at hlog
  obtain ⟨row, hrow, hid, hended⟩ := revoked_of_done hlog hsound hrevoked
  -- and every later commit keeps it so
  obtain ⟨mid, hmid⟩ := hq.between hat hlt hserver
  obtain ⟨later, hlater⟩ := store_between hmid
  have hcommit : Transition.run (ReadCommitted.step (program platform.sha256Hex)) v.store
      [.exec t] = some (v.store.commit t x (.revoke true)) :=
    Transition.run_cons_eq_some.mpr ⟨_, hstep, rfl⟩
  have hkept := kept_of_run (program_done platform.sha256Hex) hrows
    (Transition.run_append.mpr ⟨_, hdb, hcommit⟩)
  refine committed_along (program_done platform.sha256Hex) (Q := fun _ => False)
    (J := fun rows => ∃ row, .device row ∈ rows ∧ row.id = device.value ∧ row.revokedAt ≠ none)
    ?_ hkept ⟨row, hrow, hid, hended⟩
    (Transition.meets_of_forall (fun _ _ _ _ _ _ _ _ _ => not_false) _ _) hlater
  rintro rows' y result ⟨row, hrow, hid, hended⟩ - - hdone -
  obtain ⟨row', hrow', hkept⟩ := exists_visible RowKept.refl RowKept.trans hdone.updates hrow
  obtain ⟨device', rfl, hid', -⟩ := frozen_device hkept.1
  refine ⟨device', hrow', hid'.trans hid, ?_⟩
  have hstill := hkept.2 (by simpa [Row.ended, Option.isSome_iff_ne_none] using hended)
  simpa [Row.ended, Option.isSome_iff_ne_none] using hstill

/-- **A device that is about to be attached has been deleted exactly if a deletion has overtaken
its authentication**: had the deletion committed first, the `SELECT` would not have found it. -/
theorem revoked_iff_overtaken (hrows : schema.Consistent rows) {s : Server}
    (h : Transition.run (Server.step platform) (.init rows) events = some s) {i : ℕ}
    {device : AuthenticatedDevice} (hattaching : s.attaching i = some device) :
    s.Revoked device.deviceId ↔ Overtaken platform rows events i device.deviceId := by
  constructor
  · intro hrevoked
    obtain ⟨r, hanswers⟩ := answer_of_revoked h hrevoked
    obtain ⟨q, hqr, hcommits⟩ := commit_of_answer hanswers
    obtain ⟨p, u, t, x, accountId, next, row, hopens, hat, hx, hbody, hrow, hid, hunrevoked⟩ :=
      read_of_attaching h hattaching
    refine ⟨p, q, r, ?_, hqr, ⟨t, u, x, accountId, next, hopens, hat, hx, hbody⟩, hcommits,
      hanswers⟩
    rcases Nat.lt_trichotomy p q with hlt | rfl | hlt
    · exact hlt
    · -- one step is not a read and a commit
      obtain ⟨t', v, y, account, hq, hy, -, hdone, -⟩ := hcommits
      cases hat.event.symm.trans hq.event
      cases hat.reached.symm.trans hq.reached
      cases hx.symm.trans hy
      cases hbody.symm.trans hdone
    · obtain ⟨row', hrow', hid', hrevoked'⟩ := revoked_of_commit hrows hcommits hat hlt
      obtain ⟨dbEvents, hdb, -⟩ := store_of_run hat.reached
      have hconsistent := (coherent_of_run (coherent_init hrows) hdb).consistent
      cases hconsistent.eq_of_clash hrow hrow' (clash_device (hid.trans hid'.symm))
      exact absurd hunrevoked hrevoked'
  · rintro ⟨p, q, r, -, -, -, -, hanswers⟩
    exact revoked_of_answer h hanswers

end Timeline

end Osprey.Relay
