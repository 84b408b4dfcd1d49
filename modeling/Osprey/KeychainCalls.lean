/-
**Whether the phone's pins outlive a call to the keychain that fails or is its last.**

`Identity/KeychainStore.swift` and the operations of `Pairing/PinStore.swift`, call by call.  Each
call to the system is carried out, is refused with a status and has no effect, or is the point at
which the process dies, before or after its effect.  An item is written by deleting it and adding it
again; between the two it is gone, and what is left is what there is beside it.

Main definitions:

* `Osprey.KeychainCalls.CallM` — programs over the two items, whose calls may go wrong;
* `Osprey.KeychainCalls.save`, `.load`, `.delete` — `KeychainStore`;
* `Osprey.KeychainCalls.loadAll`, `Osprey.KeychainCalls.StoreOp.run` — the operations of `PinStore`;
* `Osprey.KeychainCalls.Items.decoded` — the items as the store that `Osprey.Keychain` describes;
* `Osprey.KeychainCalls.LosesSet`, `Osprey.KeychainCalls.SparesSet` — the condition on the calls.

Main results:

* `Osprey.KeychainCalls.save_cases` — what a write leaves, according to which call went wrong;
* `Osprey.KeychainCalls.loadAll_simulated` — **a read is one of `Osprey.Keychain`**, whichever of
  its calls fails or is the last;
* `Osprey.KeychainCalls.pins_survive_iff` — **exactly when the pins survive**.
-/

import Osprey.CallScript
import Osprey.PinStore

set_option relaxedAutoImplicit false
set_option autoImplicit false

namespace Osprey

namespace KeychainCalls

open CallScript
open FileIO (Out)

/-! ### The items -/

/-- The accounts of the two items. -/
inductive Account
  | pairedHosts
  | pairedHost
  deriving DecidableEq, Repr

/-- The generic passwords of the service. -/
structure Items where
  pairedHosts : Option Bytes
  pairedHost : Option Bytes
  deriving DecidableEq, Repr

def Items.get (items : Items) : Account → Option Bytes
  | .pairedHosts => items.pairedHosts
  | .pairedHost => items.pairedHost

def Items.set (items : Items) (account : Account) (data : Option Bytes) : Items :=
  match account with
  | .pairedHosts => { items with pairedHosts := data }
  | .pairedHost => { items with pairedHost := data }

@[simp] theorem Items.set_get (items : Items) (account : Account) :
    items.set account (items.get account) = items := by
  cases account with
  | pairedHosts => rfl
  | pairedHost => rfl

@[simp] theorem Items.set_set (items : Items) (account : Account) (data data' : Option Bytes) :
    (items.set account data).set account data' = items.set account data' := by
  cases account with
  | pairedHosts => rfl
  | pairedHost => rfl

@[simp] theorem Items.get_set (items : Items) (account : Account) (data : Option Bytes) :
    (items.set account data).get account = data := by
  cases account with
  | pairedHosts => rfl
  | pairedHost => rfl

/-! ### Calls -/

/-- What a call to the system answers. -/
abbrev OSStatus := Int32

def errSecSuccess : OSStatus := 0
def errSecItemNotFound : OSStatus := -25300
def errSecDuplicateItem : OSStatus := -25299

/-- A refusal says neither success nor absence. -/
abbrev Refusal := { status : OSStatus // status ≠ errSecSuccess ∧ status ≠ errSecItemNotFound }

abbrev CallFault := Fault Refusal

/-- The items, and what is to happen at the calls to come. -/
abbrev Phone := Env Items Refusal

inductive KeychainError
  | unexpectedStatus (operation : String) (status : OSStatus)
  | unexpectedItemType (account : Account)
  deriving DecidableEq, Repr

inductive StoreError
  | corruptRecord (detail : String)
  | couldNotEncode (detail : String)
  | keychain (error : KeychainError)
  deriving DecidableEq, Repr

/-- Programs that call the keychain. -/
abbrev CallM (α : Type) := Prog Items Refusal StoreError α

def Items.deleted (account : Account) (items : Items) : OSStatus × Items :=
  match items.get account with
  | none => (errSecItemNotFound, items)
  | some _ => (errSecSuccess, items.set account none)

def Items.added (account : Account) (data : Bytes) (items : Items) : OSStatus × Items :=
  match items.get account with
  | none => (errSecSuccess, items.set account (some data))
  | some _ => (errSecDuplicateItem, items)

def Items.copied (account : Account) (items : Items) : (OSStatus × Option Bytes) × Items :=
  match items.get account with
  | none => ((errSecItemNotFound, none), items)
  | some data => ((errSecSuccess, some data), items)

def secItemDelete (account : Account) : CallM OSStatus := call (Items.deleted account) Subtype.val

def secItemAdd (account : Account) (data : Bytes) : CallM OSStatus :=
  call (Items.added account data) Subtype.val

def secItemCopyMatching (account : Account) : CallM (OSStatus × Option Bytes) :=
  call (Items.copied account) fun refusal => (refusal.val, none)

/-! ### `KeychainStore` -/

/-- Delete-then-add rather than an update, which would leave the accessibility attribute of an
earlier build in place. -/
def save (data : Bytes) (account : Account) : CallM Unit := do
  let removal ← secItemDelete account
  if removal = errSecSuccess ∨ removal = errSecItemNotFound then
    let status ← secItemAdd account data
    if status = errSecSuccess then pure ()
    else Prog.throw (.keychain (.unexpectedStatus "add" status))
  else Prog.throw (.keychain (.unexpectedStatus "delete" removal))

def load (account : Account) : CallM (Option Bytes) := do
  let (status, item) ← secItemCopyMatching account
  if status = errSecSuccess then
    match item with
    | some data => pure (some data)
    | none => Prog.throw (.keychain (.unexpectedItemType account))
  else if status = errSecItemNotFound then pure none
  else Prog.throw (.keychain (.unexpectedStatus "copy" status))

/-- Remove an item.  Absence is success. -/
def delete (account : Account) : CallM Unit := do
  let removal ← secItemDelete account
  if removal = errSecSuccess ∨ removal = errSecItemNotFound then pure ()
  else Prog.throw (.keychain (.unexpectedStatus "delete" removal))

/-! ### `PinStore` -/

/-- `JSONEncoder` and `JSONDecoder` on the set and on the single record. -/
structure PinCodec where
  encodeSet : List PairedHost → Except String Bytes
  decodeSet : Bytes → Except String (List PairedHost)
  decodeHost : Bytes → Except String PairedHost

/-- What is encoded decodes to itself. -/
def PinCodec.RoundTrips (codec : PinCodec) : Prop :=
  ∀ hosts data, codec.encodeSet hosts = .ok data → codec.decodeSet data = .ok hosts

variable (codec : PinCodec)

def decodeSet (data : Bytes) : CallM (List PairedHost) :=
  match codec.decodeSet data with
  | .ok hosts => pure hosts
  | .error detail => Prog.throw (.corruptRecord detail)

def writeSet (hosts : List PairedHost) : CallM Unit :=
  match codec.encodeSet hosts with
  | .ok data => save data .pairedHosts
  | .error detail => Prog.throw (.couldNotEncode detail)

/-- The end of `loadAll` where there is only the record of an older build: the set is written before
the record goes. -/
def migrate (host : PairedHost) : CallM (List PairedHost) := do
  writeSet codec [host]
  delete .pairedHost
  pure [host]

def fromLegacy : Option Bytes → CallM (List PairedHost)
  | none => pure []
  | some legacy =>
      match codec.decodeHost legacy with
      | .error detail => Prog.throw (.corruptRecord detail)
      | .ok host => migrate codec host

/-- Every pinned host, oldest pairing first. -/
def loadAll : CallM (List PairedHost) := do
  match ← load .pairedHosts with
  | some data => decodeSet codec data
  | none =>
      let legacy ← load .pairedHost
      fromLegacy codec legacy

/-- The operations, and what each is to make of the set. -/
inductive StoreOp
  | loadAll
  | save (host : PairedHost)
  | remove (agentDeviceId : String)
  deriving DecidableEq, Repr

def StoreOp.target (hosts : List PairedHost) : StoreOp → List PairedHost
  | loadAll => hosts
  | save host => Keychain.put host hosts
  | remove agentDeviceId => hosts.filter fun host => host.agentDeviceId ≠ agentDeviceId

/-- What the caller gets besides an error does not matter here. -/
def StoreOp.run : StoreOp → CallM Unit
  | loadAll => do
      let _ ← KeychainCalls.loadAll codec
      pure ()
  | save host => do
      let hosts ← KeychainCalls.loadAll codec
      writeSet codec (Keychain.put host hosts)
  | remove agentDeviceId => do
      let hosts ← KeychainCalls.loadAll codec
      writeSet codec (hosts.filter fun host => host.agentDeviceId ≠ agentDeviceId)

/-- The items as they decode. -/
def Items.decoded (items : Items) : Keychain :=
  ⟨items.pairedHosts.map codec.decodeSet, items.pairedHost.map codec.decodeHost⟩

/-! ### What the calls leave -/

theorem Items.deleted_spec (account : Account) (items : Items) :
    (items.deleted account).2 = items.set account none ∧
      ((items.deleted account).1 = errSecSuccess ∨
        (items.deleted account).1 = errSecItemNotFound) := by
  unfold deleted
  have hsame := items.set_get account
  cases hitem : items.get account with
  | none =>
      rw [hitem] at hsame
      exact ⟨hsame.symm, .inr rfl⟩
  | some data => exact ⟨rfl, .inl rfl⟩

theorem Items.added_set_none (account : Account) (data : Bytes) (items : Items) :
    (items.set account none).added account data =
      (errSecSuccess, items.set account (some data)) := by
  simp [added]

theorem not_removed (refusal : Refusal) :
    ¬(refusal.val = errSecSuccess ∨ refusal.val = errSecItemNotFound) :=
  fun h => h.elim refusal.property.1 refusal.property.2

/-- The delete of a write takes effect, and its add does not. -/
def LosesItem : List CallFault → Prop
  | .die applied :: _ => applied = true
  | .proceed :: .refuse _ :: _ => True
  | .proceed :: .die applied :: _ => applied = false
  | _ => False

/-- **What a write leaves**: no item if it loses it, and else the item it is to write, or what was
there if it does not succeed. -/
theorem save_cases (data : Bytes) (account : Account) (p : Phone) :
    ∃ out faults, (LosesItem p.faults ∧ Stopped out ∧
        save data account p = (out, ⟨p.state.set account none, faults⟩)) ∨
      (¬LosesItem p.faults ∧
        (save data account p = (out, ⟨p.state.set account (some data), faults⟩) ∨
          Stopped out ∧ save data account p = (out, ⟨p.state, faults⟩))) := by
  obtain ⟨hdeleted, hstatus⟩ := p.state.deleted_spec account
  unfold save
  rw [Prog.bind_run]
  rcases call_cases (Items.deleted account) Subtype.val p with
    ⟨faults, hfaults, hrun⟩ | ⟨refusal, faults, hfaults, hrun⟩ |
      ⟨applied, faults, hfaults, hrun⟩
  · rw [secItemDelete, hrun]
    dsimp only
    rw [if_pos hstatus, hdeleted, Prog.bind_run]
    -- the item is gone, and the add is next
    rcases call_cases (Items.added account data) Subtype.val ⟨p.state.set account none, faults⟩ with
      ⟨rest, hrest, hadd⟩ | ⟨refusal, rest, hrest, hadd⟩ | ⟨applied, rest, hrest, hadd⟩
    · rw [secItemAdd, hadd, Items.added_set_none]
      refine ⟨_, _, .inr ⟨?_, .inl rfl⟩⟩
      dsimp only at hrest
      rcases hfaults with ⟨hfaults, -⟩ | hfaults
      · simp [hfaults, LosesItem]
      · rcases hrest with ⟨hrest, -⟩ | hrest
        · simp [hfaults, hrest, LosesItem]
        · simp [hfaults, hrest, LosesItem]
    · have hfaults : p.faults = .proceed :: .refuse refusal :: rest := by
        rcases hfaults with ⟨-, hnone⟩ | hfaults
        · cases hnone.symm.trans hrest
        · rw [hfaults, ← hrest]
      rw [secItemAdd, hadd, hfaults]
      have hrefused : ¬refusal.val = errSecSuccess := refusal.property.1
      dsimp only
      rw [if_neg hrefused]
      exact ⟨_, _, .inl ⟨trivial, stopped_err _, rfl⟩⟩
    · have hfaults : p.faults = .proceed :: .die applied :: rest := by
        rcases hfaults with ⟨-, hnone⟩ | hfaults
        · cases hnone.symm.trans hrest
        · rw [hfaults, ← hrest]
      rw [secItemAdd, hadd, hfaults, Items.added_set_none]
      cases applied with
      | false => exact ⟨_, _, .inl ⟨rfl, stopped_died, rfl⟩⟩
      | true => exact ⟨_, _, .inr ⟨Bool.noConfusion, .inl rfl⟩⟩
  · rw [secItemDelete, hrun]
    dsimp only
    rw [if_neg (not_removed refusal), hfaults]
    exact ⟨_, _, .inr ⟨id, .inr ⟨stopped_err _, rfl⟩⟩⟩
  · rw [secItemDelete, hrun, hfaults]
    cases applied with
    | false => exact ⟨_, _, .inr ⟨Bool.noConfusion, .inr ⟨stopped_died, rfl⟩⟩⟩
    | true => exact ⟨_, _, .inl ⟨rfl, stopped_died, by rw [← hdeleted]; rfl⟩⟩

/-- A removal that does not remove the item does not succeed. -/
theorem delete_cases (account : Account) (p : Phone) :
    ∃ out faults, delete account p = (out, ⟨p.state.set account none, faults⟩) ∨
      Stopped out ∧ delete account p = (out, ⟨p.state, faults⟩) := by
  obtain ⟨hdeleted, hstatus⟩ := p.state.deleted_spec account
  unfold delete
  rw [Prog.bind_run]
  rcases call_cases (Items.deleted account) Subtype.val p with
    ⟨faults, -, hrun⟩ | ⟨refusal, faults, -, hrun⟩ | ⟨applied, faults, -, hrun⟩
  · rw [secItemDelete, hrun]
    dsimp only
    rw [if_pos hstatus, hdeleted]
    exact ⟨_, _, .inl rfl⟩
  · rw [secItemDelete, hrun]
    dsimp only
    rw [if_neg (not_removed refusal)]
    exact ⟨_, _, .inr ⟨stopped_err _, rfl⟩⟩
  · rw [secItemDelete, hrun]
    cases applied with
    | false => exact ⟨_, _, .inr ⟨stopped_died, rfl⟩⟩
    | true => exact ⟨_, _, .inl (by rw [← hdeleted]; rfl)⟩

/-- A read answers with the item if it answers. -/
theorem load_cases (account : Account) (p : Phone) :
    ∃ out faults, load account p = (out, ⟨p.state, faults⟩) ∧
      (out = .ok (p.state.get account) ∨ Stopped out) := by
  have hcopied : (p.state.copied account).2 = p.state := by
    unfold Items.copied
    cases p.state.get account with
    | none => rfl
    | some data => rfl
  unfold load
  rw [Prog.bind_run]
  rcases call_cases (Items.copied account) (fun refusal => (refusal.val, none)) p with
    ⟨faults, -, hrun⟩ | ⟨refusal, faults, -, hrun⟩ | ⟨applied, faults, -, hrun⟩
  · rw [secItemCopyMatching, hrun, hcopied]
    dsimp only
    unfold Items.copied
    cases p.state.get account with
    | none => exact ⟨_, _, rfl, .inl rfl⟩
    | some data => exact ⟨_, _, rfl, .inl rfl⟩
  · rw [secItemCopyMatching, hrun]
    dsimp only
    rw [if_neg refusal.property.1, if_neg refusal.property.2]
    exact ⟨_, _, rfl, .inr (stopped_err _)⟩
  · rw [secItemCopyMatching, hrun, hcopied, ite_self]
    exact ⟨_, _, rfl, .inr stopped_died⟩

variable {codec}

/-- The set is written, or lost, or as it was. -/
theorem writeSet_cases (hcodec : codec.RoundTrips) (hosts : List PairedHost) (p : Phone) :
    ∃ out faults,
      (LosesItem p.faults ∧ (codec.encodeSet hosts).toOption.isSome ∧ Stopped out ∧
        writeSet codec hosts p = (out, ⟨p.state.set .pairedHosts none, faults⟩)) ∨
      (¬(LosesItem p.faults ∧ (codec.encodeSet hosts).toOption.isSome) ∧
        ((∃ data, codec.decodeSet data = .ok hosts ∧
            writeSet codec hosts p = (out, ⟨p.state.set .pairedHosts (some data), faults⟩)) ∨
          Stopped out ∧ writeSet codec hosts p = (out, ⟨p.state, faults⟩))) := by
  unfold writeSet
  cases hencode : codec.encodeSet hosts with
  | error detail =>
      refine ⟨_, _, .inr ⟨?_, .inr ⟨stopped_err _, rfl⟩⟩⟩
      rintro ⟨-, h⟩
      cases h
  | ok data =>
      obtain ⟨out, faults, h | ⟨hkept, h | h⟩⟩ := save_cases data .pairedHosts p
      · exact ⟨out, faults, .inl ⟨h.1, rfl, h.2⟩⟩
      · exact ⟨out, faults, .inr ⟨fun h => hkept h.1, .inl ⟨data, hcodec hosts data hencode, h⟩⟩⟩
      · exact ⟨out, faults, .inr ⟨fun h => hkept h.1, .inr h⟩⟩

/-- A read that ends like this is the read of the store to which the system answers so. -/
def IsRead (codec : PinCodec) (keychain : Keychain) (answers : StoreAnswers)
    (read : Out StoreError (List PairedHost) × Phone) : Prop :=
  (keychain.loadAll answers).2 = read.2.state.decoded codec ∧
    ∀ hosts, read.1 = .ok hosts → (keychain.loadAll answers).1 = .ok hosts

theorem isRead_of_stopped {keychain : Keychain} {answers : StoreAnswers}
    {out : Out StoreError (List PairedHost)} {q : Phone} (hstopped : Stopped out)
    (h : (keychain.loadAll answers).2 = q.state.decoded codec) :
    IsRead codec keychain answers (out, q) :=
  ⟨h, fun hosts hok => absurd hok (hstopped hosts)⟩

/-- The set is written before the record of the older build goes, so that one of the two is always
there. -/
theorem migrate_simulated (hcodec : codec.RoundTrips) {host : PairedHost} {legacy : Bytes}
    (hlegacy : codec.decodeHost legacy = .ok host) (faults : List CallFault) :
    ∃ answers, IsRead codec ⟨none, some (.ok host)⟩ answers
      (migrate codec host ⟨⟨none, some legacy⟩, faults⟩) := by
  unfold migrate
  obtain ⟨out, faults', ⟨-, -, hstopped, hrun⟩ | ⟨-, ⟨data, hdata, hrun⟩ | ⟨hstopped, hrun⟩⟩⟩ :=
    writeSet_cases hcodec [host] ⟨⟨none, some legacy⟩, faults⟩
  · obtain ⟨out', hstopped', hbind⟩ := bind_of_stopped _ hrun hstopped
    rw [hbind]
    refine ⟨⟨.ok (), .ok (), .notAdded "", .ok (), .done⟩, isRead_of_stopped hstopped' ?_⟩
    simp [Items.decoded, Items.set, Keychain.loadAll, Keychain.writeSet, hlegacy]
  · rcases ok_or_stopped out with ⟨u, rfl⟩ | hstopped
    · rw [bind_of_ok _ hrun]
      obtain ⟨out, faults'', hdelete | ⟨hstopped, hdelete⟩⟩ :=
        delete_cases .pairedHost ⟨⟨some data, some legacy⟩, faults'⟩
      · -- the record has gone, whether or not that is heard of
        rcases ok_or_stopped out with ⟨u, rfl⟩ | hstopped
        · refine ⟨.allDone, ?_⟩
          rw [Items.set, bind_of_ok _ hdelete]
          refine ⟨?_, fun hosts h => ?_⟩
          · simp [Items.decoded, Items.set, Keychain.loadAll, Keychain.writeSet,
              StoreAnswers.allDone, Prog.pure_run, hdata]
          · cases h
            rfl
        · obtain ⟨out', hstopped', hbind⟩ := bind_of_stopped _ hdelete hstopped
          refine ⟨.allDone, ?_⟩
          rw [Items.set, hbind]
          refine isRead_of_stopped hstopped' ?_
          simp [Items.decoded, Items.set, Keychain.loadAll, Keychain.writeSet,
            StoreAnswers.allDone, hdata]
      · obtain ⟨out', hstopped', hbind⟩ := bind_of_stopped _ hdelete hstopped
        refine ⟨⟨.ok (), .ok (), .done, .error "", .done⟩, ?_⟩
        rw [Items.set, hbind]
        refine isRead_of_stopped hstopped' ?_
        simp [Items.decoded, Keychain.loadAll, Keychain.writeSet, hlegacy, hdata]
    · obtain ⟨out', hstopped', hbind⟩ := bind_of_stopped _ hrun hstopped
      rw [hbind]
      refine ⟨⟨.ok (), .ok (), .done, .error "", .done⟩, isRead_of_stopped hstopped' ?_⟩
      simp [Items.decoded, Items.set, Keychain.loadAll, Keychain.writeSet, hlegacy, hdata]
  · obtain ⟨out', hstopped', hbind⟩ := bind_of_stopped _ hrun hstopped
    rw [hbind]
    refine ⟨⟨.ok (), .ok (), .notDeleted "", .ok (), .done⟩, isRead_of_stopped hstopped' ?_⟩
    simp [Items.decoded, Keychain.loadAll, Keychain.writeSet, hlegacy]

/-- Without a set, a read stops, or goes on with the record of the older build. -/
theorem loadAll_without_set (codec : PinCodec) (pairedHost : Option Bytes)
    (faults : List CallFault) :
    ∃ faults', (∃ out, Stopped out ∧
        loadAll codec ⟨⟨none, pairedHost⟩, faults⟩ = (out, ⟨⟨none, pairedHost⟩, faults'⟩)) ∨
      loadAll codec ⟨⟨none, pairedHost⟩, faults⟩ =
        fromLegacy codec pairedHost ⟨⟨none, pairedHost⟩, faults'⟩ := by
  unfold loadAll
  obtain ⟨out, faults', hrun, rfl | hstopped⟩ := load_cases .pairedHosts
    ⟨⟨none, pairedHost⟩, faults⟩
  · rw [bind_of_ok _ hrun]
    dsimp only [Items.get]
    obtain ⟨out, faults'', hrun, rfl | hstopped⟩ := load_cases .pairedHost
      ⟨⟨none, pairedHost⟩, faults'⟩
    · exact ⟨faults'', .inr (bind_of_ok _ hrun)⟩
    · obtain ⟨out', hstopped', hbind⟩ := bind_of_stopped _ hrun hstopped
      exact ⟨faults'', .inl ⟨out', hstopped', hbind⟩⟩
  · obtain ⟨out', hstopped', hbind⟩ := bind_of_stopped _ hrun hstopped
    exact ⟨faults', .inl ⟨out', hstopped', hbind⟩⟩

/-- With a set, a read stops, or answers with what it decodes to; it changes nothing. -/
theorem loadAll_with_set (codec : PinCodec) (data : Bytes) (pairedHost : Option Bytes)
    (faults : List CallFault) :
    ∃ out faults', loadAll codec ⟨⟨some data, pairedHost⟩, faults⟩ =
        (out, ⟨⟨some data, pairedHost⟩, faults'⟩) ∧
      ∀ hosts, out = .ok hosts → codec.decodeSet data = .ok hosts := by
  unfold loadAll
  obtain ⟨out, faults', hrun, rfl | hstopped⟩ := load_cases .pairedHosts
    ⟨⟨some data, pairedHost⟩, faults⟩
  · rw [bind_of_ok _ hrun]
    dsimp only [Items.get]
    unfold decodeSet
    cases hdata : codec.decodeSet data with
    | ok hosts => exact ⟨_, _, rfl, fun hosts' h => by cases h; rfl⟩
    | error detail => exact ⟨_, _, rfl, fun hosts' h => nomatch h⟩
  · obtain ⟨out', hstopped', hbind⟩ := bind_of_stopped _ hrun hstopped
    exact ⟨out', faults', hbind, fun hosts h => absurd h (hstopped' hosts)⟩

/-- **A read is one of the store**, whichever of its calls fails or is the last. -/
theorem loadAll_simulated (hcodec : codec.RoundTrips) (p : Phone) :
    ∃ answers, IsRead codec (p.state.decoded codec) answers (loadAll codec p) := by
  obtain ⟨⟨pairedHosts, pairedHost⟩, faults⟩ := p
  cases pairedHosts with
  | some data =>
      obtain ⟨out, faults', hrun, hok⟩ := loadAll_with_set codec data pairedHost faults
      rw [hrun]
      rcases ok_or_stopped out with ⟨hosts, rfl⟩ | hstopped
      · have hdata := hok hosts rfl
        refine ⟨.allDone, ?_, fun hosts' h => ?_⟩
        · simp [Items.decoded, Keychain.loadAll, StoreAnswers.allDone, hdata]
        · cases h
          simp [Items.decoded, Keychain.loadAll, StoreAnswers.allDone, hdata]
      · exact ⟨⟨.error "", .ok (), .done, .ok (), .done⟩, isRead_of_stopped hstopped rfl⟩
  | none =>
      obtain ⟨faults', ⟨out, hstopped, hrun⟩ | hrun⟩ := loadAll_without_set codec pairedHost faults
      · rw [hrun]
        exact ⟨⟨.error "", .ok (), .done, .ok (), .done⟩, isRead_of_stopped hstopped rfl⟩
      · rw [hrun]
        cases pairedHost with
        | none =>
            refine ⟨.allDone, rfl, fun hosts h => ?_⟩
            cases h
            rfl
        | some legacy =>
            dsimp only [fromLegacy]
            cases hlegacy : codec.decodeHost legacy with
            | error detail =>
                refine ⟨.allDone, isRead_of_stopped (stopped_err _) ?_⟩
                simp [Items.decoded, Keychain.loadAll, StoreAnswers.allDone, hlegacy]
            | ok host =>
                have hmigrate := migrate_simulated hcodec hlegacy faults'
                simpa [Items.decoded, hlegacy] using hmigrate

/-! ### When the pins survive -/

/-- Once the set is gone, a read can succeed: there is no record of an older build, or it can be
moved into a set. -/
def Movable (codec : PinCodec) (keychain : Keychain) : Prop :=
  match keychain.pairedHost with
  | none => True
  | some (.error _) => False
  | some (.ok host) => (codec.encodeSet [host]).toOption.isSome

/-- The operation gets to write its set, and the write loses the item. -/
def LosesSet (codec : PinCodec) (op : StoreOp) (p : Phone) : Prop :=
  op ≠ .loadAll ∧
    match loadAll codec p with
    | (.ok hosts, q) =>
        LosesItem q.faults ∧ (codec.encodeSet (op.target hosts)).toOption.isSome
    | _ => False

/-- If a read can succeed once the set is gone, what is beside the set is as good as the set from
before the operation, or as the one it is to leave. -/
def SparesSet (codec : PinCodec) (op : StoreOp) (keychain : Keychain) : Prop :=
  Movable codec keychain →
    keychain.spare = keychain.records ∨ keychain.spare = op.target keychain.records

/-- Whatever a later read meets, if it succeeds it returns the set from before the operation, or the
one the operation is to leave, with one record for each machine. -/
def Survives (codec : PinCodec) (op : StoreOp) (p : Phone) : Prop :=
  ∀ later hosts, (loadAll codec ⟨(op.run codec p).2.state, later⟩).1 = .ok hosts →
    (hosts = (p.state.decoded codec).records ∨
      hosts = op.target (p.state.decoded codec).records) ∧
    Keychain.OnePerMachine hosts

theorem run_eq {op : StoreOp} (h : op ≠ .loadAll) :
    op.run codec = (do
      let hosts ← loadAll codec
      writeSet codec (op.target hosts)) := by
  cases op with
  | loadAll => exact absurd rfl h
  | save host => rfl
  | remove agentDeviceId => rfl

/-- What a read returns is what the store held. -/
theorem eq_records_of_ok (hcodec : codec.RoundTrips) {p : Phone} {hosts : List PairedHost}
    (h : (loadAll codec p).1 = .ok hosts) : hosts = (p.state.decoded codec).records := by
  obtain ⟨answers, -, hread⟩ := loadAll_simulated hcodec p
  exact Keychain.eq_records_of_loadAll (hread hosts h)

/-- A read leaves what the store holds. -/
theorem records_loadAll (hcodec : codec.RoundTrips) (p : Phone) :
    ((loadAll codec p).2.state.decoded codec).records = (p.state.decoded codec).records := by
  obtain ⟨answers, hstate, -⟩ := loadAll_simulated hcodec p
  rw [← hstate, Keychain.records_loadAll]

/-- **What an operation leaves**: what is beside the set if the set is lost, and else the set from
before or the one it is to leave. -/
theorem run_cases (hcodec : codec.RoundTrips) (op : StoreOp) (p : Phone) :
    (LosesSet codec op p ∧ ∃ hosts q, loadAll codec p = (.ok hosts, q) ∧
      (op.run codec p).2.state = q.state.set .pairedHosts none) ∨
    (¬LosesSet codec op p ∧
      (((op.run codec p).2.state.decoded codec).records = (p.state.decoded codec).records ∨
        ((op.run codec p).2.state.decoded codec).records =
          op.target (p.state.decoded codec).records)) := by
  have hkept := records_loadAll hcodec p
  by_cases hop : op = .loadAll
  · subst hop
    refine .inr ⟨fun h => h.1 rfl, .inl ?_⟩
    rw [← hkept, StoreOp.run, Prog.bind_run]
    rcases loadAll codec p with ⟨out, q⟩
    cases out with
    | ok hosts => rfl
    | err e => rfl
    | died => rfl
  · unfold LosesSet
    rw [run_eq hop, Prog.bind_run]
    cases hload : loadAll codec p with
    | mk out q =>
        rw [hload] at hkept
        cases out with
        | ok hosts =>
            have hhosts := eq_records_of_ok hcodec (congrArg Prod.fst hload)
            dsimp only
            obtain ⟨out, faults, ⟨hloses, hencodes, -, hrun⟩ | ⟨hnot, hwritten⟩⟩ :=
              writeSet_cases hcodec (op.target hosts) q
            · rw [hrun]
              exact .inl ⟨⟨hop, hloses, hencodes⟩, hosts, q, rfl, rfl⟩
            · refine .inr ⟨fun h => hnot h.2, ?_⟩
              rcases hwritten with ⟨data, hdata, hrun⟩ | ⟨-, hrun⟩
              · rw [hrun]
                exact .inr (by simp [Items.decoded, Items.set, Keychain.records, hdata, hhosts])
              · rw [hrun]
                exact .inl hkept
        | err e => exact .inr ⟨fun h => h.2, .inl hkept⟩
        | died => exact .inr ⟨fun h => h.2, .inl hkept⟩

/-- With the set gone, a read that succeeds has moved the record of the older build into a set, or
has found none. -/
theorem movable_of_ok {items : Items} {faults : List CallFault} {hosts : List PairedHost}
    (hgone : items.pairedHosts = none) (h : (loadAll codec ⟨items, faults⟩).1 = .ok hosts) :
    Movable codec (items.decoded codec) := by
  obtain ⟨pairedHosts, pairedHost⟩ := items
  cases hgone
  obtain ⟨faults', ⟨out, hstopped, hrun⟩ | hrun⟩ := loadAll_without_set codec pairedHost faults
  · rw [hrun] at h
    exact absurd h (hstopped hosts)
  · rw [hrun] at h
    cases pairedHost with
    | none => trivial
    | some legacy =>
        dsimp only [fromLegacy] at h
        cases hlegacy : codec.decodeHost legacy with
        | error detail =>
            rw [hlegacy] at h
            cases h
        | ok host =>
            simp only [Movable, Items.decoded, Option.map_some, hlegacy] at h ⊢
            cases hencode : codec.encodeSet [host] with
            | ok data => rfl
            | error detail =>
                rw [migrate, Prog.bind_run, writeSet, hencode] at h
                cases h

/-- With the set gone, a read succeeds if nothing goes wrong and the record can be moved. -/
theorem exists_ok_of_movable {items : Items} (hgone : items.pairedHosts = none)
    (h : Movable codec (items.decoded codec)) :
    ∃ hosts, (loadAll codec ⟨items, []⟩).1 = .ok hosts := by
  obtain ⟨pairedHosts, pairedHost⟩ := items
  cases hgone
  cases pairedHost with
  | none => exact ⟨_, rfl⟩
  | some legacy =>
      simp only [Movable, Items.decoded, Option.map_some] at h
      cases hlegacy : codec.decodeHost legacy with
      | error detail =>
          rw [hlegacy] at h
          cases h
      | ok host =>
          rw [hlegacy] at h
          dsimp only at h
          cases hencode : codec.encodeSet [host] with
          | error detail =>
              rw [hencode] at h
              cases h
          | ok data =>
              refine ⟨[host], ?_⟩
              have hrun : loadAll codec ⟨⟨none, some legacy⟩, []⟩ =
                  fromLegacy codec (some legacy) ⟨⟨none, some legacy⟩, []⟩ := rfl
              rw [hrun, fromLegacy, hlegacy]
              dsimp only
              rw [migrate, Prog.bind_run, writeSet, hencode]
              rfl

/-- Once the set is lost, what is left is what was beside it. -/
theorem lost_cases (hcodec : codec.RoundTrips) {p q : Phone} {hosts : List PairedHost}
    (hload : loadAll codec p = (.ok hosts, q)) :
    ((q.state.set .pairedHosts none).decoded codec).records = (p.state.decoded codec).spare ∧
      (Movable codec ((q.state.set .pairedHosts none).decoded codec) ↔
        Movable codec (p.state.decoded codec)) := by
  obtain ⟨answers, hstate, hread⟩ := loadAll_simulated hcodec p
  have hok := hread hosts (congrArg Prod.fst hload)
  rw [hload] at hstate
  have hlost : (q.state.set .pairedHosts none).decoded codec =
      { ((p.state.decoded codec).loadAll answers).2 with pairedHosts := none } := by
    rw [hstate]
    rfl
  rw [hlost]
  refine ⟨Keychain.records_lost (by rw [Keychain.Readable, hok]; rfl), ?_⟩
  rcases (p.state.decoded codec).loadAll_cases answers with
    ⟨e, herror, -⟩ | ⟨read, -, ⟨hsame, -⟩ | ⟨-, hsame, -⟩ | ⟨host, hlegacy, hmoved, -⟩⟩
  · cases hok.symm.trans herror
  · rw [hsame]
    rfl
  · rw [hsame]
    rfl
  · -- the record has been moved, so it could be
    rw [hmoved]
    refine iff_of_true trivial (movable_of_ok ?_ (congrArg Prod.fst hload))
    have hnone : (p.state.decoded codec).pairedHosts = none := by rw [hlegacy]
    exact Option.map_eq_none_iff.mp hnone

theorem onePerMachine_target {hosts : List PairedHost} (h : Keychain.OnePerMachine hosts)
    (op : StoreOp) : Keychain.OnePerMachine (op.target hosts) := by
  cases op with
  | loadAll => exact h
  | save host => exact Keychain.onePerMachine_put h
  | remove agentDeviceId => exact Keychain.onePerMachine_filter h

/-- **Exactly when the pins survive.**  Whatever is stored, whatever the operation and whichever of
its calls fail or are the process's last: a later read that succeeds returns the set from before or
the one that was to be left, with one record for each machine, if and only if the operation does not
lose the set, or what is beside the set is as good. -/
theorem pins_survive_iff (hcodec : codec.RoundTrips) (op : StoreOp) (p : Phone)
    (hone : Keychain.OnePerMachine (p.state.decoded codec).records) :
    Survives codec op p ↔
      (LosesSet codec op p → SparesSet codec op (p.state.decoded codec)) := by
  have hunique : ∀ hosts, (hosts = (p.state.decoded codec).records ∨
      hosts = op.target (p.state.decoded codec).records) → Keychain.OnePerMachine hosts := by
    rintro hosts (rfl | rfl)
    · exact hone
    · exact onePerMachine_target hone op
  unfold Survives
  rcases run_cases hcodec op p with ⟨hloses, hosts, q, hload, hitems⟩ | ⟨hnot, hkept⟩
  · obtain ⟨hrecords, hmovable⟩ := lost_cases hcodec hload
    have hgone : (q.state.set .pairedHosts none).pairedHosts = none := rfl
    rw [hitems]
    constructor
    · intro hsurvives _ hmov
      obtain ⟨read, hread⟩ := exists_ok_of_movable hgone (hmovable.mpr hmov)
      have hspare := (eq_records_of_ok hcodec hread).trans hrecords
      rw [← hspare]
      exact (hsurvives [] read hread).1
    · intro hspares later read hread
      have hspare := (eq_records_of_ok hcodec hread).trans hrecords
      have hgood := hspares hloses (hmovable.mp (movable_of_ok hgone hread))
      rw [← hspare] at hgood
      exact ⟨hgood, hunique read hgood⟩
  · refine iff_of_true ?_ fun h => absurd h hnot
    intro later read hread
    have hread := eq_records_of_ok hcodec hread
    have hgood : read = (p.state.decoded codec).records ∨
        read = op.target (p.state.decoded codec).records :=
      hkept.imp hread.trans hread.trans
    exact ⟨hgood, hunique read hgood⟩

/-- A codec for the sets of a table, each encoded by its position in unary; a single record is the
first of its set. -/
def tableOfSets (sets : List (List PairedHost)) : PinCodec where
  encodeSet hosts :=
    if hosts ∈ sets then .ok (List.replicate (sets.idxOf hosts) 0) else .error "not in the table"
  decodeSet data :=
    match sets[data.length]? with
    | none => .error "not in the table"
    | some hosts => .ok hosts
  decodeHost data :=
    match sets[data.length]? with
    | some (host :: _) => .ok host
    | _ => .error "not in the table"

theorem tableOfSets_roundTrips (sets : List (List PairedHost)) :
    (tableOfSets sets).RoundTrips := by
  intro hosts data h
  simp only [tableOfSets] at h
  split at h
  · rename_i hmem
    cases h
    simp [tableOfSets, hmem]
  · cases h

def storedHost (agentDeviceId : String) : PairedHost :=
  ⟨agentDeviceId, "", "", [], ⟨.ed25519, [], ⟨List.replicate 32 0, by simp⟩, []⟩, 0, none⟩

/-- A codec for the sets that pairing with two machines goes through. -/
def twoHosts : PinCodec :=
  tableOfSets [[], [storedHost "agent"], [storedHost "agent", storedHost "den"]]

theorem twoHosts_roundTrips : twoHosts.RoundTrips := tableOfSets_roundTrips _

/-- The process dies in the delete of the replacement write, before its effect. -/
theorem pins_survive_iff_beforeDelete :
    Survives twoHosts (.save (storedHost "den"))
      ⟨⟨some [0], none⟩, [.proceed, .die false]⟩ :=
  (pins_survive_iff twoHosts_roundTrips (.save (storedHost "den"))
    ⟨⟨some [0], none⟩, [.proceed, .die false]⟩ (List.nodup_singleton "agent")).mpr
      fun hloses => absurd hloses.2.1 Bool.noConfusion

/-- The process dies in the delete of the replacement write, after its effect: all pins are gone. -/
theorem pins_lost_after_delete :
    ¬∀ codec : PinCodec, codec.RoundTrips → ∀ op p,
      Keychain.OnePerMachine (p.state.decoded codec).records → Survives codec op p := by
  intro h
  have hone : Keychain.OnePerMachine
      ((⟨some [0], none⟩ : Items).decoded twoHosts).records := List.nodup_singleton "agent"
  have hsurvives := h twoHosts twoHosts_roundTrips (.save (storedHost "den"))
    ⟨⟨some [0], none⟩, [.proceed, .die true]⟩ hone
  rcases (hsurvives [] [] rfl).1 with hbefore | htarget
  · cases hbefore
  · cases htarget

end KeychainCalls

end Osprey
