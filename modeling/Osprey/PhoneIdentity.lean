/-
**Whether a stored identity is one that was created as a whole.**

`Identity/DeviceIdentity.swift` over `Identity/KeychainStore.swift`, call by call.  An identity is
three items; `create` writes them one by one, each by deleting the item and adding it again, and
`destroy` deletes them one by one.  "The device id is written last", so that a set without it is
incomplete: that holds of a `create` that finds no device id.  Where an earlier `destroy` has left
one behind, new keys stand beside it until it is replaced.

An item carries the number of the `create` that wrote it.  No branch of the code reads it.

Main definitions:

* `Osprey.IdentityItems`, `Osprey.KeychainStore` — the items, and the calls on them;
* `Osprey.DeviceIdentityStore.load`, `.create`, `.loadOrCreate`, `.destroy` — the source's
  functions;
* `Osprey.IdentityPhone.step` — one of the operations, with what happens at its calls;
* `Osprey.IdentityPhone.Whole` — what `load` returns is of one `create`;
* `Osprey.IdentityPhone.Mixes` — a `create` that is cut short where it must not be.

Main results:

* `Osprey.DeviceIdentityStore.straight_load`, `Osprey.DeviceIdentityStore.straight_create`,
  `Osprey.DeviceIdentityStore.straight_destroy` — the states that each passes through;
* `Osprey.IdentityPhone.whole_iff` — an identity is whole exactly if its items are of one number;
* `Osprey.identity_whole_iff` — **exactly which runs never have a mixed identity**.
-/

import Osprey.CallScript
import Osprey.KeychainCalls
import Osprey.MetricsText
import Osprey.PeerSelection
import Osprey.SignedBytes
import Osprey.Transition

set_option relaxedAutoImplicit false
set_option autoImplicit false

namespace Osprey

open FileIO (Out)
open CallScript
open KeychainCalls (OSStatus Refusal errSecSuccess errSecItemNotFound errSecDuplicateItem)

/-! ### The items -/

inductive IdentityAccount
  | secureEnclave
  | noiseStatic
  | deviceId
  deriving DecidableEq, Repr

/-- The data of an item, and the number of the `create` that wrote it. -/
structure IdentityItem where
  data : Bytes
  createdBy : ℕ
  deriving DecidableEq, Repr

/-- The generic passwords of the service. -/
structure IdentityItems where
  secureEnclave : Option IdentityItem
  noiseStatic : Option IdentityItem
  deviceId : Option IdentityItem
  deriving DecidableEq, Repr

def IdentityItems.get (items : IdentityItems) : IdentityAccount → Option IdentityItem
  | .secureEnclave => items.secureEnclave
  | .noiseStatic => items.noiseStatic
  | .deviceId => items.deviceId

def IdentityItems.set (items : IdentityItems) (account : IdentityAccount)
    (item : Option IdentityItem) : IdentityItems :=
  match account with
  | .secureEnclave => { items with secureEnclave := item }
  | .noiseStatic => { items with noiseStatic := item }
  | .deviceId => { items with deviceId := item }

@[simp] theorem IdentityItems.get_set (items : IdentityItems) (account : IdentityAccount)
    (item : Option IdentityItem) : (items.set account item).get account = item := by
  cases account with
  | secureEnclave => rfl
  | noiseStatic => rfl
  | deviceId => rfl

@[simp] theorem IdentityItems.set_set (items : IdentityItems) (account : IdentityAccount)
    (item item' : Option IdentityItem) :
    (items.set account item).set account item' = items.set account item' := by
  cases account with
  | secureEnclave => rfl
  | noiseStatic => rfl
  | deviceId => rfl

theorem IdentityItems.set_of_get {items : IdentityItems} {account : IdentityAccount}
    {item : Option IdentityItem} (h : items.get account = item) :
    items.set account item = items := by
  cases account with
  | secureEnclave => cases h; rfl
  | noiseStatic => cases h; rfl
  | deviceId => cases h; rfl

/-! ### `KeychainStore` -/

inductive IdentityError
  | secureEnclaveUnavailable
  | accessControl (detail : String)
  | secureEnclaveKeyGeneration (detail : String)
  | secureEnclaveSigning (detail : String)
  | corruptStoredIdentity (detail : String)
  deriving DecidableEq, Repr

/-- What the operations throw. -/
inductive IdentityStoreError
  | identity (error : IdentityError)
  | crossSignature (failure : CrossSignatureFailure)
  | unexpectedStatus (operation : String) (status : OSStatus)
  | unexpectedItemType (account : IdentityAccount)
  deriving DecidableEq, Repr

/-- Programs that call the keychain. -/
abbrev IdentityProg (α : Type) := Prog IdentityItems Refusal IdentityStoreError α

namespace KeychainStore

def deleted (account : IdentityAccount) (items : IdentityItems) : OSStatus × IdentityItems :=
  match items.get account with
  | none => (errSecItemNotFound, items)
  | some _ => (errSecSuccess, items.set account none)

def added (account : IdentityAccount) (item : IdentityItem) (items : IdentityItems) :
    OSStatus × IdentityItems :=
  match items.get account with
  | none => (errSecSuccess, items.set account (some item))
  | some _ => (errSecDuplicateItem, items)

def copied (account : IdentityAccount) (items : IdentityItems) :
    (OSStatus × Option IdentityItem) × IdentityItems :=
  match items.get account with
  | none => ((errSecItemNotFound, none), items)
  | some item => ((errSecSuccess, some item), items)

def secItemDelete (account : IdentityAccount) : IdentityProg OSStatus :=
  call (deleted account) Subtype.val

def secItemAdd (account : IdentityAccount) (item : IdentityItem) : IdentityProg OSStatus :=
  call (added account item) Subtype.val

def secItemCopyMatching (account : IdentityAccount) :
    IdentityProg (OSStatus × Option IdentityItem) :=
  call (copied account) fun refusal => (refusal.val, none)

/-- Remove an item.  Absence is success. -/
def delete (account : IdentityAccount) : IdentityProg Unit := do
  let removal ← secItemDelete account
  if removal = errSecSuccess ∨ removal = errSecItemNotFound then pure ()
  else Prog.throw (.unexpectedStatus "delete" removal)

/-- Delete-then-add rather than an update. -/
def save (item : IdentityItem) (account : IdentityAccount) : IdentityProg Unit := do
  delete account
  let status ← secItemAdd account item
  if status = errSecSuccess then pure ()
  else Prog.throw (.unexpectedStatus "add" status)

def load (account : IdentityAccount) : IdentityProg (Option IdentityItem) := do
  let (status, item) ← secItemCopyMatching account
  if status = errSecSuccess then
    match item with
    | some item => pure (some item)
    | none => Prog.throw (.unexpectedItemType account)
  else if status = errSecItemNotFound then pure none
  else Prog.throw (.unexpectedStatus "copy" status)

end KeychainStore

/-! ### `DeviceIdentityStore` -/

/-- `DeviceIdentity` of the phone. -/
structure PhoneIdentity where
  deviceId : Uuid
  noiseStaticPrivateKey : Bytes
  publicIdentity : PublicIdentity
  secureEnclaveKeyBlob : Bytes
  deriving DecidableEq, Repr

/-- What CryptoKit and the system answer during one operation.  A key of the Enclave is known by its
`dataRepresentation`. -/
structure Enclave where
  isAvailable : Bool
  accessControl : Except String Unit
  generateKey : Except String Bytes
  noiseStatic : Key32
  deviceId : Uuid
  publicKey : Bytes → Except String Bytes
  signature : Bytes → Bytes → Except String Bytes
  noisePublicKey : Bytes → Option Key32
  kit : CryptoKit

/-- `UUID.uuidString`. -/
def uuidString (id : Uuid) : List Char := (hyphenated id).map Char.toUpper

/-- `Data(_.utf8)`, of a text in ASCII. -/
def utf8Data (text : List Char) : Bytes := text.map fun c => UInt8.ofNat c.toNat

def staticKeyLength : ℕ := 32

namespace DeviceIdentityStore

/-- Rebuild the public bundle and its cross-certificate from stored material. -/
def assemble (enclave : Enclave) (deviceId : Uuid)
    (secureEnclaveKeyBlob noiseStaticPrivateKey : Bytes) :
    Except IdentityStoreError PhoneIdentity :=
  match enclave.publicKey secureEnclaveKeyBlob with
  | .error detail =>
      .error (.identity (.corruptStoredIdentity
        ("Secure Enclave key could not be reconstituted: " ++ detail)))
  | .ok identityPublicKey =>
      match enclave.noisePublicKey noiseStaticPrivateKey with
      | none =>
          .error (.identity (.corruptStoredIdentity "Noise static is not a valid X25519 key"))
      | some noiseStaticPublicKey =>
          match enclave.signature secureEnclaveKeyBlob
              (crossSigMessage identityPublicKey noiseStaticPublicKey) with
          | .error detail => .error (.identity (.secureEnclaveSigning detail))
          | .ok signature =>
              let publicIdentity : PublicIdentity :=
                ⟨.p256, identityPublicKey, noiseStaticPublicKey, signature⟩
              match IdentityVerifier.verifyCrossSignature enclave.kit publicIdentity with
              | .error failure => .error (.crossSignature failure)
              | .ok () =>
                  .ok ⟨deviceId, noiseStaticPrivateKey, publicIdentity, secureEnclaveKeyBlob⟩

/-- What `create` does before it writes: the new identity, which is that of the new keys. -/
def generate (enclave : Enclave) : Except IdentityStoreError PhoneIdentity :=
  if enclave.isAvailable = false then .error (.identity .secureEnclaveUnavailable)
  else
    match enclave.accessControl with
    | .error detail => .error (.identity (.accessControl detail))
    | .ok () =>
        match enclave.generateKey with
        | .error detail => .error (.identity (.secureEnclaveKeyGeneration detail))
        | .ok enclaveKey => assemble enclave enclave.deviceId enclaveKey enclave.noiseStatic

/-- The `create` with this number. -/
def create (enclave : Enclave) (number : ℕ) : IdentityProg PhoneIdentity := do
  let identity ← Prog.ofExcept (generate enclave)
  -- the device id last, so that a set without it is incomplete
  KeychainStore.save ⟨identity.secureEnclaveKeyBlob, number⟩ .secureEnclave
  KeychainStore.save ⟨identity.noiseStaticPrivateKey, number⟩ .noiseStatic
  KeychainStore.save ⟨utf8Data (uuidString identity.deviceId), number⟩ .deviceId
  pure identity

-- `String(data:encoding: .utf8)` and `UUID(uuidString:)`
variable (uuidOf : Bytes → Option Uuid)

/-- The end of `load` where there are all three items. -/
def reassemble (enclave : Enclave) (blob noiseScalar deviceIdData : Bytes) :
    Except IdentityStoreError PhoneIdentity :=
  match uuidOf deviceIdData with
  | none => .error (.identity (.corruptStoredIdentity "device id is not a UUID"))
  | some deviceId =>
      if noiseScalar.length = staticKeyLength then assemble enclave deviceId blob noiseScalar
      else
        .error (.identity (.corruptStoredIdentity
          s!"Noise static is {noiseScalar.length} bytes, expected {staticKeyLength}"))

def load (enclave : Enclave) : IdentityProg (Option PhoneIdentity) := do
  match ← KeychainStore.load .secureEnclave with
  | none => pure none
  | some blob =>
      match ← KeychainStore.load .noiseStatic with
      | none => pure none
      | some noiseScalar =>
          match ← KeychainStore.load .deviceId with
          | none => pure none
          | some deviceIdData =>
              Prog.ofExcept
                ((reassemble uuidOf enclave blob.data noiseScalar.data deviceIdData.data).map some)

/-- Load the stored identity, generating one on first run. -/
def loadOrCreate (enclave : Enclave) (number : ℕ) : IdentityProg PhoneIdentity := do
  match ← load uuidOf enclave with
  | some existing => pure existing
  | none => create enclave number

/-- Forget this device's identity entirely. -/
def destroy : IdentityProg Unit := do
  KeychainStore.delete .secureEnclave
  KeychainStore.delete .noiseStatic
  KeychainStore.delete .deviceId

end DeviceIdentityStore

/-! ### What the calls do -/

namespace KeychainStore

theorem straight_delete (account : IdentityAccount) (items : IdentityItems) :
    Straight (delete account) items (.ok ()) [items.set account none] := by
  have hstate : (deleted account items).2 = items.set account none := by
    unfold deleted
    split
    · rename_i hnone
      exact (IdentityItems.set_of_get hnone).symm
    · rfl
  rw [← hstate]
  refine straight_call ?_ ?_
  · intro env
    unfold deleted
    split <;> rfl
  · intro refusal env
    exact ⟨_, by rw [if_neg (not_or.mpr refusal.property)]; rfl⟩

theorem straight_save (item : IdentityItem) (account : IdentityAccount) (items : IdentityItems) :
    Straight (save item account) items (.ok ())
      [items.set account none, items.set account (some item)] := by
  have hadded : added account item (items.set account none) =
      (errSecSuccess, items.set account (some item)) := by
    simp [added]
  refine (straight_delete account items).bind ?_
  change Straight (secItemAdd account item >>= _) (items.set account none) _ _
  rw [show items.set account (some item) = (added account item (items.set account none)).2 by
    rw [hadded]]
  refine straight_call ?_ ?_
  · intro env
    rw [hadded]
    rfl
  · intro refusal env
    exact ⟨_, by rw [if_neg refusal.property.1]; rfl⟩

theorem straight_load (account : IdentityAccount) (items : IdentityItems) :
    Straight (load account) items (.ok (items.get account)) [items] := by
  have hstate : (copied account items).2 = items := by
    unfold copied
    split <;> rfl
  nth_rewrite 3 [← hstate]
  refine straight_call ?_ ?_
  · intro env
    unfold copied
    split
    · rename_i hnone
      rw [hnone]
      rfl
    · rename_i item hsome
      rw [hsome]
      rfl
  · intro refusal env
    dsimp only
    exact ⟨_, by rw [if_neg refusal.property.1, if_neg refusal.property.2]; rfl⟩

end KeychainStore

/-! ### What the operations pass through -/

/-- How many items `load` looks at: up to the first that is missing. -/
def IdentityItems.reads (items : IdentityItems) : ℕ :=
  if items.secureEnclave.isNone then 1 else if items.noiseStatic.isNone then 2 else 3

/-- All three items are there. -/
def IdentityItems.Complete (items : IdentityItems) : Prop :=
  items.secureEnclave.isSome ∧ items.noiseStatic.isSome ∧ items.deviceId.isSome

instance (items : IdentityItems) : Decidable items.Complete := inferInstanceAs (Decidable (_ ∧ _))

namespace DeviceIdentityStore

variable {uuidOf : Bytes → Option Uuid}

/-- The identity that the items are read as; nothing unless they are complete. -/
def stored (uuidOf : Bytes → Option Uuid) (enclave : Enclave) :
    IdentityItems → Except IdentityStoreError (Option PhoneIdentity)
  | ⟨some blob, some noiseScalar, some deviceIdData⟩ =>
      (reassemble uuidOf enclave blob.data noiseScalar.data deviceIdData.data).map some
  | _ => .ok none

theorem assemble_ok {enclave : Enclave} {deviceId : Uuid} {blob noiseScalar : Bytes}
    {identity : PhoneIdentity} (h : assemble enclave deviceId blob noiseScalar = .ok identity) :
    identity.deviceId = deviceId ∧ identity.noiseStaticPrivateKey = noiseScalar ∧
      identity.secureEnclaveKeyBlob = blob := by
  unfold assemble at h
  split at h
  · cases h
  · split at h
    · cases h
    · split at h
      · cases h
      · dsimp only at h
        split at h
        · cases h
        · cases h
          exact ⟨rfl, rfl, rfl⟩

theorem length_of_generate {enclave : Enclave} {identity : PhoneIdentity}
    (h : generate enclave = .ok identity) :
    identity.noiseStaticPrivateKey.length = staticKeyLength := by
  unfold generate at h
  split at h
  · cases h
  · split at h
    · cases h
    · split at h
      · cases h
      · rw [(assemble_ok h).2.1]
        exact enclave.noiseStatic.property

theorem stored_eq_some {enclave : Enclave} {items : IdentityItems} {identity : PhoneIdentity}
    (h : stored uuidOf enclave items = .ok (some identity)) :
    ∃ blob noiseScalar deviceIdData, items = ⟨some blob, some noiseScalar, some deviceIdData⟩ ∧
      uuidOf deviceIdData.data = some identity.deviceId ∧
      identity.noiseStaticPrivateKey = noiseScalar.data ∧
      identity.secureEnclaveKeyBlob = blob.data := by
  unfold stored at h
  split at h
  · rename_i blob noiseScalar deviceIdData
    refine ⟨blob, noiseScalar, deviceIdData, rfl, ?_⟩
    unfold reassemble at h
    split at h
    · cases h
    · rename_i deviceId huuid
      split at h
      · cases hassemble : assemble enclave deviceId blob.data noiseScalar.data with
        | error error =>
            rw [hassemble] at h
            cases h
        | ok assembled =>
            rw [hassemble] at h
            cases h
            obtain ⟨hid, hscalar, hblob⟩ := assemble_ok hassemble
            exact ⟨huuid.trans (congrArg some hid.symm), hscalar, hblob⟩
      · cases h
  · cases h

theorem stored_of_not_complete (enclave : Enclave) {items : IdentityItems}
    (h : ¬items.Complete) : stored uuidOf enclave items = .ok none := by
  obtain ⟨blob, noiseScalar, deviceIdData⟩ := items
  cases blob with
  | none => rfl
  | some blob =>
      cases noiseScalar with
      | none => rfl
      | some noiseScalar =>
          cases deviceIdData with
          | none => rfl
          | some deviceIdData => exact absurd ⟨rfl, rfl, rfl⟩ h

theorem not_complete_of_stored {enclave : Enclave} {items : IdentityItems}
    (h : stored uuidOf enclave items = .ok none) : ¬items.Complete := by
  obtain ⟨blob, noiseScalar, deviceIdData⟩ := items
  rintro ⟨hblob, hscalar, hid⟩
  obtain ⟨blob, rfl⟩ := Option.isSome_iff_exists.mp hblob
  obtain ⟨noiseScalar, rfl⟩ := Option.isSome_iff_exists.mp hscalar
  obtain ⟨deviceIdData, rfl⟩ := Option.isSome_iff_exists.mp hid
  rw [stored] at h
  cases hreassemble : reassemble uuidOf enclave blob.data noiseScalar.data deviceIdData.data with
  | ok identity =>
      rw [hreassemble] at h
      cases h
  | error error =>
      rw [hreassemble] at h
      cases h

variable (uuidOf) in
/-- `load` changes nothing. -/
theorem straight_load (enclave : Enclave) (items : IdentityItems) :
    Straight (load uuidOf enclave) items (outOf (stored uuidOf enclave items))
      (List.replicate items.reads items) := by
  have hfirst := KeychainStore.straight_load .secureEnclave items
  obtain ⟨blob, noiseScalar, deviceIdData⟩ := items
  cases blob with
  | none => exact hfirst.bind (straight_done fun _ => rfl)
  | some blob =>
      have hsecond := KeychainStore.straight_load .noiseStatic
        ⟨some blob, noiseScalar, deviceIdData⟩
      cases noiseScalar with
      | none =>
          refine hfirst.bind (u := List.replicate 1 _) ?_
          exact hsecond.bind (straight_done fun _ => rfl)
      | some noiseScalar =>
          have hthird := KeychainStore.straight_load .deviceId
            ⟨some blob, some noiseScalar, deviceIdData⟩
          refine hfirst.bind (u := List.replicate 2 _) ?_
          refine hsecond.bind (u := List.replicate 1 _) ?_
          cases deviceIdData with
          | none => exact hthird.bind (straight_done fun _ => rfl)
          | some deviceIdData => exact hthird.bind (straight_ofExcept _ _)

/-- The items of an identity that the `create` with this number writes. -/
def itemOf (identity : PhoneIdentity) (number : ℕ) : IdentityAccount → IdentityItem
  | .secureEnclave => ⟨identity.secureEnclaveKeyBlob, number⟩
  | .noiseStatic => ⟨identity.noiseStaticPrivateKey, number⟩
  | .deviceId => ⟨utf8Data (uuidString identity.deviceId), number⟩

/-- The states that `create` passes through once it has an identity. -/
def createTrail (identity : PhoneIdentity) (number : ℕ) (items : IdentityItems) :
    List IdentityItems :=
  let item := itemOf identity number
  [⟨none, items.noiseStatic, items.deviceId⟩,
    ⟨some (item .secureEnclave), items.noiseStatic, items.deviceId⟩,
    ⟨some (item .secureEnclave), none, items.deviceId⟩,
    ⟨some (item .secureEnclave), some (item .noiseStatic), items.deviceId⟩,
    ⟨some (item .secureEnclave), some (item .noiseStatic), none⟩,
    ⟨some (item .secureEnclave), some (item .noiseStatic), some (item .deviceId)⟩]

theorem straight_create {enclave : Enclave} {identity : PhoneIdentity}
    (hgenerate : generate enclave = .ok identity) (number : ℕ) (items : IdentityItems) :
    Straight (create enclave number) items (.ok identity) (createTrail identity number items) := by
  have hidentity := straight_ofExcept (ι := Refusal) (generate enclave) items
  have hout : outOf (generate enclave) = .ok identity := congrArg outOf hgenerate
  rw [hout] at hidentity
  refine hidentity.bind (u := createTrail identity number items) ?_
  refine (KeychainStore.straight_save _ _ _).bind
    (u := (createTrail identity number items).drop 2) ?_
  refine (KeychainStore.straight_save _ _ _).bind
    (u := (createTrail identity number items).drop 4) ?_
  refine (KeychainStore.straight_save _ _ _).bind (u := []) ?_
  exact straight_done fun _ => rfl

theorem straight_create_error {enclave : Enclave} {error : IdentityStoreError}
    (hgenerate : generate enclave = .error error) (number : ℕ) (items : IdentityItems) :
    Straight (create enclave number) items (.err error) [] := by
  have hidentity := straight_ofExcept (ι := Refusal) (generate enclave) items
  have hout : outOf (generate enclave) = .err error := congrArg outOf hgenerate
  rw [hout] at hidentity
  exact hidentity.bind_err _

theorem straight_destroy (items : IdentityItems) :
    Straight destroy items (.ok ())
      [⟨none, items.noiseStatic, items.deviceId⟩, ⟨none, none, items.deviceId⟩,
        ⟨none, none, none⟩] := by
  refine (KeychainStore.straight_delete _ _).bind
    (u := [⟨none, none, items.deviceId⟩, ⟨none, none, none⟩]) ?_
  refine (KeychainStore.straight_delete _ _).bind (u := [⟨none, none, none⟩]) ?_
  exact KeychainStore.straight_delete .deviceId ⟨none, none, items.deviceId⟩

end DeviceIdentityStore

/-! ### The phone -/

/-- The items, and what each `create` has made, in order. -/
structure IdentityPhone where
  items : IdentityItems
  created : List PhoneIdentity

/-- An operation, with what the system answers and what happens at its calls. -/
inductive IdentityOp
  | loadOrCreate (enclave : Enclave) (faults : List (Fault Refusal))
  | destroy (faults : List (Fault Refusal))

namespace IdentityPhone

variable (uuidOf : Bytes → Option Uuid)

def initial : IdentityPhone := ⟨⟨none, none, none⟩, []⟩

/-- The identity that a `loadOrCreate` makes: `load` has found none, and there is one to write. -/
def making (s : IdentityPhone) (enclave : Enclave) (faults : List (Fault Refusal)) :
    Option PhoneIdentity :=
  match (DeviceIdentityStore.load uuidOf enclave ⟨s.items, faults⟩).1 with
  | .ok none => (DeviceIdentityStore.generate enclave).toOption
  | _ => none

def step (s : IdentityPhone) : IdentityOp → Option IdentityPhone
  | .loadOrCreate enclave faults => some
      ⟨(DeviceIdentityStore.loadOrCreate uuidOf enclave s.created.length ⟨s.items, faults⟩).2.state,
        s.created ++ (s.making uuidOf enclave faults).toList⟩
  | .destroy faults => some ⟨(DeviceIdentityStore.destroy ⟨s.items, faults⟩).2.state, s.created⟩

/-- What `load` returns, whatever the system answers, is an identity that one `create` has made and
all of whose items it has written. -/
def Whole (s : IdentityPhone) : Prop :=
  ∀ enclave faults identity env,
    DeviceIdentityStore.load uuidOf enclave ⟨s.items, faults⟩ = (.ok (some identity), env) →
    ∃ number made, s.created[number]? = some made ∧ identity.deviceId = made.deviceId ∧
      identity.noiseStaticPrivateKey = made.noiseStaticPrivateKey ∧
      identity.secureEnclaveKeyBlob = made.secureEnclaveKeyBlob ∧
      ∀ account, s.items.get account = some (DeviceIdentityStore.itemOf made number account)

/-- The operation is a `create` that finds the device id of an earlier one, and it is cut short
where the keys beside it are complete again: after the new Enclave key has been added, if the old
Noise scalar is still there, or after the new scalar has been. -/
def Mixes (s : IdentityPhone) : IdentityOp → Prop
  | .loadOrCreate enclave faults =>
      (DeviceIdentityStore.generate enclave).isOk = true ∧ s.items.deviceId.isSome ∧
        ¬s.items.Complete ∧
        (passed (s.items.reads + 6) faults = s.items.reads + 4 ∨
          passed (s.items.reads + 6) faults = s.items.reads + 2 ∧ s.items.noiseStatic.isSome)
  | .destroy _ => False

instance (s : IdentityPhone) (op : IdentityOp) : Decidable (s.Mixes op) := by
  unfold Mixes
  split <;> infer_instance

/-- What an operation can do: nothing; get so far with a new identity; or get so far with deleting
the old one. -/
inductive Changes (s : IdentityPhone) (op : IdentityOp) : IdentityPhone → Prop
  | nothing (hspares : ¬s.Mixes op) : Changes s op s
  | created (identity : PhoneIdentity) (n : ℕ) (hn : n ≤ 6) (hincomplete : ¬s.items.Complete)
      (hscalar : identity.noiseStaticPrivateKey.length = staticKeyLength)
      (hmixes : s.Mixes op ↔
        s.items.deviceId.isSome ∧ (n = 4 ∨ n = 2 ∧ s.items.noiseStatic.isSome)) :
      Changes s op
        ⟨stateAfter s.items
          (DeviceIdentityStore.createTrail identity s.created.length s.items) n,
          s.created ++ [identity]⟩
  | destroyed (n : ℕ) (hn : n ≤ 3) (hspares : ¬s.Mixes op) :
      Changes s op
        ⟨stateAfter s.items [⟨none, s.items.noiseStatic, s.items.deviceId⟩,
          ⟨none, none, s.items.deviceId⟩, ⟨none, none, none⟩] n, s.created⟩

theorem Mixes.generates {s : IdentityPhone} {enclave : Enclave} {faults : List (Fault Refusal)}
    (h : s.Mixes (.loadOrCreate enclave faults)) :
    ∃ identity, DeviceIdentityStore.generate enclave = .ok identity := by
  cases hgenerate : DeviceIdentityStore.generate enclave with
  | ok identity => exact ⟨identity, rfl⟩
  | error error =>
      have hok := h.1
      rw [hgenerate] at hok
      cases hok

variable {uuidOf : Bytes → Option Uuid}

/-- A `loadOrCreate` that finds an identity, or fails, or has none to write. -/
theorem changes_of_making_none {s : IdentityPhone} {enclave : Enclave}
    {faults : List (Fault Refusal)} {out : Out IdentityStoreError PhoneIdentity} {k : ℕ}
    (hrun : Straight (DeviceIdentityStore.loadOrCreate uuidOf enclave s.created.length) s.items out
      (List.replicate k s.items))
    (hmaking : s.making uuidOf enclave faults = none)
    (hspares : ¬s.Mixes (.loadOrCreate enclave faults)) {t : IdentityPhone}
    (h : s.step uuidOf (.loadOrCreate enclave faults) = some t) :
    s.Changes (.loadOrCreate enclave faults) t := by
  cases h
  rw [hrun.run, stateAfter_replicate, hmaking, Option.toList_none, List.append_nil]
  exact .nothing hspares

/-- A `create` that writes. -/
theorem changes_of_generated {s : IdentityPhone} {enclave : Enclave}
    {faults : List (Fault Refusal)} {identity : PhoneIdentity}
    (hstored : DeviceIdentityStore.stored uuidOf enclave s.items = .ok none)
    (hgenerate : DeviceIdentityStore.generate enclave = .ok identity) {t : IdentityPhone}
    (h : s.step uuidOf (.loadOrCreate enclave faults) = some t) :
    s.Changes (.loadOrCreate enclave faults) t := by
  have hincomplete := DeviceIdentityStore.not_complete_of_stored hstored
  have hload := DeviceIdentityStore.straight_load uuidOf enclave s.items
  rw [hstored] at hload
  have hreads : stateAfter s.items (List.replicate s.items.reads s.items)
      (List.replicate s.items.reads s.items).length = s.items := stateAfter_replicate _ _ _
  have hcreate := DeviceIdentityStore.straight_create hgenerate s.created.length s.items
  have hrun : Straight (DeviceIdentityStore.loadOrCreate uuidOf enclave s.created.length) s.items
      (.ok identity) (List.replicate s.items.reads s.items ++
        DeviceIdentityStore.createTrail identity s.created.length s.items) :=
    hload.bind (by rw [hreads]; exact hcreate)
  have hmixes : s.Mixes (.loadOrCreate enclave faults) ↔ s.items.deviceId.isSome ∧
      (passed (s.items.reads + 6) faults = s.items.reads + 4 ∨
        passed (s.items.reads + 6) faults = s.items.reads + 2 ∧ s.items.noiseStatic.isSome) := by
    simp only [Mixes, hgenerate, hincomplete, not_false_eq_true, true_and]
    exact and_iff_right rfl
  cases h
  rw [hrun.run, List.length_append, List.length_replicate]
  by_cases hclear : Clear s.items.reads faults
  · have hmaking : s.making uuidOf enclave faults = some identity := by
      unfold making
      rw [hload.out_of_clear (by rw [List.length_replicate]; exact hclear), hgenerate]
      rfl
    rw [passed_add_of_clear _ hclear] at hmixes ⊢
    have hstate := stateAfter_append_add s.items (List.replicate s.items.reads s.items)
      (DeviceIdentityStore.createTrail identity s.created.length s.items)
      (passed 6 (faults.drop s.items.reads)) (passed_le _ _)
    rw [hreads, List.length_replicate] at hstate
    rw [hmaking, Option.toList_some]
    refine (congrArg (fun items => s.Changes _ ⟨items, _⟩) hstate).mpr (.created identity _
      (passed_le _ _) hincomplete (DeviceIdentityStore.length_of_generate hgenerate) ?_)
    simpa using hmixes
  · have hmaking : s.making uuidOf enclave faults = none := by
      have hstopped := hload.stopped (by rw [List.length_replicate]; exact hclear)
      unfold making
      split
      · rename_i hok
        exact absurd hok (hstopped none)
      · rfl
    rw [passed_add_of_not_clear _ hclear] at hmixes ⊢
    have hle := passed_le s.items.reads faults
    rw [stateAfter_append_of_le _ (by rw [List.length_replicate]; exact hle), stateAfter_replicate,
      hmaking, Option.toList_none, List.append_nil]
    refine .nothing fun h => ?_
    have := hmixes.mp h
    omega

/-- **What an operation can do.** -/
theorem changes_of_step {s t : IdentityPhone} {op : IdentityOp}
    (h : s.step uuidOf op = some t) : s.Changes op t := by
  cases op with
  | destroy faults =>
      cases h
      rw [(DeviceIdentityStore.straight_destroy s.items).run]
      exact .destroyed _ (passed_le _ _) id
  | loadOrCreate enclave faults =>
      have hload := DeviceIdentityStore.straight_load uuidOf enclave s.items
      have hmaking : DeviceIdentityStore.stored uuidOf enclave s.items ≠ .ok none →
          s.making uuidOf enclave faults = none := by
        intro hne
        unfold making
        split
        · rename_i hok
          exact absurd (outOf_eq_ok (hload.clear_of_ok hok).2) hne
        · rfl
      have hspares : DeviceIdentityStore.stored uuidOf enclave s.items ≠ .ok none →
          ¬s.Mixes (.loadOrCreate enclave faults) := fun hne hmixes =>
        hne (DeviceIdentityStore.stored_of_not_complete enclave hmixes.2.2.1)
      cases hstored : DeviceIdentityStore.stored uuidOf enclave s.items with
      | error error =>
          rw [hstored] at hload hmaking hspares
          exact changes_of_making_none (hload.bind_err _) (hmaking nofun) (hspares nofun) h
      | ok found =>
          cases found with
          | some existing =>
              rw [hstored] at hload hmaking hspares
              have hrun := hload.bind (u := [])
                (k := fun found => match found with
                  | some existing => pure existing
                  | none => DeviceIdentityStore.create enclave s.created.length)
                (straight_done fun _ => rfl)
              rw [List.append_nil] at hrun
              exact changes_of_making_none hrun (hmaking nofun) (hspares nofun) h
          | none =>
              cases hgenerate : DeviceIdentityStore.generate enclave with
              | ok identity => exact changes_of_generated hstored hgenerate h
              | error error =>
                  rw [hstored] at hload
                  have hrun := hload.bind (u := [])
                    (k := fun found => match found with
                      | some existing => pure existing
                      | none => DeviceIdentityStore.create enclave s.created.length)
                    (DeviceIdentityStore.straight_create_error hgenerate _ _)
                  rw [List.append_nil] at hrun
                  refine changes_of_making_none hrun ?_ (fun hmixes => ?_) h
                  · unfold making
                    rw [hgenerate]
                    split <;> rfl
                  · obtain ⟨identity, hidentity⟩ := hmixes.generates
                    cases hgenerate.symm.trans hidentity

/-! ### Which identities are whole -/

/-- Every item is what the `create` with its number has made. -/
def Recorded (s : IdentityPhone) : Prop :=
  ∀ account item, s.items.get account = some item → ∃ made, s.created[item.createdBy]? = some made ∧
    item = DeviceIdentityStore.itemOf made item.createdBy account ∧
    made.noiseStaticPrivateKey.length = staticKeyLength

/-- If all items are there, they are of one `create`. -/
def Uniform (items : IdentityItems) : Prop :=
  items.Complete → ∃ number, ∀ account item, items.get account = some item →
    item.createdBy = number

/-- What `uuidString` prints is read back. -/
def ReadsBack (uuidOf : Bytes → Option Uuid) : Prop :=
  ∀ id, uuidOf (utf8Data (uuidString id)) = some id

/-- A system on which every key can be reconstituted, and signs. -/
def obliging : Enclave where
  isAvailable := true
  accessControl := .ok ()
  generateKey := .ok []
  noiseStatic := toyNonce 0
  deviceId := toyUuid 0
  publicKey _ := .ok (IdentityVerifier.sec1UncompressedTag :: List.replicate 64 0)
  signature _ _ := .ok []
  noisePublicKey _ := some (toyNonce 0)
  kit := ⟨fun _ => true, fun _ _ _ => true, fun _ => true, fun _ => true, fun _ _ _ => true⟩

theorem assemble_obliging (deviceId : Uuid) (blob noiseScalar : Bytes) :
    ∃ identity, DeviceIdentityStore.assemble obliging deviceId blob noiseScalar = .ok identity :=
  ⟨_, rfl⟩

/-- Items that are all there and that load as a whole are of one `create`. -/
theorem uniform_of_whole (hreads : ReadsBack uuidOf) {s : IdentityPhone} (hs : s.Recorded)
    (hwhole : s.Whole uuidOf) : Uniform s.items := by
  rintro ⟨hblob, hscalar, hid⟩
  obtain ⟨blob, hblob⟩ := Option.isSome_iff_exists.mp hblob
  obtain ⟨noiseScalar, hscalar⟩ := Option.isSome_iff_exists.mp hscalar
  obtain ⟨deviceIdData, hid⟩ := Option.isSome_iff_exists.mp hid
  obtain ⟨made, -, hdata, -⟩ := hs .deviceId deviceIdData hid
  obtain ⟨made', -, hdata', hlength⟩ := hs .noiseStatic noiseScalar hscalar
  obtain ⟨identity, hidentity⟩ := assemble_obliging made.deviceId blob.data noiseScalar.data
  -- without faults, and on a system that obliges, there is an identity
  have hstored : DeviceIdentityStore.stored uuidOf obliging s.items = .ok (some identity) := by
    have hitems : s.items = ⟨some blob, some noiseScalar, some deviceIdData⟩ := by
      rw [← hblob, ← hscalar, ← hid]
    have huuid : uuidOf deviceIdData.data = some made.deviceId := by
      rw [hdata]
      exact hreads made.deviceId
    have hlen : noiseScalar.data.length = staticKeyLength := by
      rw [hdata']
      exact hlength
    rw [hitems, DeviceIdentityStore.stored, DeviceIdentityStore.reassemble, huuid]
    dsimp only
    rw [if_pos hlen, hidentity]
    rfl
  have hload := DeviceIdentityStore.straight_load uuidOf obliging s.items
  have hout := hload.out_of_clear (clear_nil _)
  rw [hstored] at hout
  obtain ⟨number, made, -, -, -, -, hitems⟩ :=
    hwhole obliging [] identity _ (Prod.ext hout rfl)
  refine ⟨number, fun account item hitem => ?_⟩
  rw [hitems account] at hitem
  cases hitem
  cases account with
  | secureEnclave => rfl
  | noiseStatic => rfl
  | deviceId => rfl

/-- Items of one `create` load as a whole. -/
theorem whole_of_uniform (hreads : ReadsBack uuidOf) {s : IdentityPhone} (hs : s.Recorded)
    (huniform : Uniform s.items) : s.Whole uuidOf := by
  intro enclave faults identity env hload
  have hstraight := DeviceIdentityStore.straight_load uuidOf enclave s.items
  have hstored := outOf_eq_ok (hstraight.clear_of_ok (congrArg Prod.fst hload)).2
  obtain ⟨blob, noiseScalar, deviceIdData, hitems, huuid, hscalar, hblob⟩ :=
    DeviceIdentityStore.stored_eq_some hstored
  obtain ⟨number, hnumber⟩ := huniform (by rw [hitems]; exact ⟨rfl, rfl, rfl⟩)
  have hmade : ∀ account item, s.items.get account = some item →
      ∃ made, s.created[number]? = some made ∧
        item = DeviceIdentityStore.itemOf made number account := by
    intro account item hitem
    obtain ⟨made, hcreated, hitemOf, -⟩ := hs account item hitem
    rw [hnumber account item hitem] at hcreated hitemOf
    exact ⟨made, hcreated, hitemOf⟩
  obtain ⟨made, hcreated, hblobItem⟩ := hmade .secureEnclave blob (by rw [hitems]; rfl)
  obtain ⟨made₁, hcreated₁, hscalarItem⟩ := hmade .noiseStatic noiseScalar (by rw [hitems]; rfl)
  obtain ⟨made₂, hcreated₂, hidItem⟩ := hmade .deviceId deviceIdData (by rw [hitems]; rfl)
  cases hcreated.symm.trans hcreated₁
  cases hcreated.symm.trans hcreated₂
  refine ⟨number, made, hcreated, ?_, ?_, ?_, ?_⟩
  · rw [hidItem] at huuid
    exact (Option.some.inj (huuid.symm.trans (hreads made.deviceId)))
  · rw [hscalar, hscalarItem]
    rfl
  · rw [hblob, hblobItem]
    rfl
  · intro account
    rw [hitems]
    cases account with
    | secureEnclave => exact congrArg some hblobItem
    | noiseStatic => exact congrArg some hscalarItem
    | deviceId => exact congrArg some hidItem

/-- An identity is whole exactly if its items are of one `create`. -/
theorem whole_iff (hreads : ReadsBack uuidOf) {s : IdentityPhone} (hs : s.Recorded) :
    s.Whole uuidOf ↔ Uniform s.items :=
  ⟨uniform_of_whole hreads hs, whole_of_uniform hreads hs⟩

/-- What a `create` that gets so far leaves at an account is what was there, or its own. -/
theorem get_createTrail {identity : PhoneIdentity} {number : ℕ} {items : IdentityItems} {n : ℕ}
    (hn : n ≤ 6) {account : IdentityAccount} {item : IdentityItem}
    (h : (stateAfter items (DeviceIdentityStore.createTrail identity number items) n).get account =
      some item) :
    items.get account = some item ∨
      item = DeviceIdentityStore.itemOf identity number account := by
  have hcases : n = 0 ∨ n = 1 ∨ n = 2 ∨ n = 3 ∨ n = 4 ∨ n = 5 ∨ n = 6 := by omega
  rcases hcases with rfl | rfl | rfl | rfl | rfl | rfl | rfl <;> cases account <;>
    first
      | exact .inl h
      | exact .inr (Option.some.inj h).symm
      | cases h

/-- What a `destroy` that gets so far leaves at an account was there. -/
theorem get_destroyTrail {items : IdentityItems} {n : ℕ} (hn : n ≤ 3)
    {account : IdentityAccount} {item : IdentityItem}
    (h : (stateAfter items [⟨none, items.noiseStatic, items.deviceId⟩,
      ⟨none, none, items.deviceId⟩, ⟨none, none, none⟩] n).get account = some item) :
    items.get account = some item := by
  have hcases : n = 0 ∨ n = 1 ∨ n = 2 ∨ n = 3 := by omega
  rcases hcases with rfl | rfl | rfl | rfl <;> cases account <;>
    first
      | exact h
      | cases h

/-- Every step keeps the record. -/
theorem Recorded.step {s t : IdentityPhone} (hs : s.Recorded) {op : IdentityOp}
    (h : s.step uuidOf op = some t) : t.Recorded := by
  cases changes_of_step h with
  | nothing hspares => exact hs
  | created identity n hn hincomplete hscalar hmixes =>
      intro account item hitem
      rcases get_createTrail hn hitem with hold | rfl
      · obtain ⟨made, hcreated, hitemOf, hlength⟩ := hs account item hold
        obtain ⟨hlt, -⟩ := List.getElem?_eq_some_iff.mp hcreated
        exact ⟨made, by rw [List.getElem?_append_left hlt, hcreated], hitemOf, hlength⟩
      · have hnumber :
            (DeviceIdentityStore.itemOf identity s.created.length account).createdBy =
              s.created.length := by
          cases account with
          | secureEnclave => rfl
          | noiseStatic => rfl
          | deviceId => rfl
        refine ⟨identity, ?_, by rw [hnumber], hscalar⟩
        rw [hnumber]
        exact List.getElem?_concat_length
  | destroyed n hn hspares =>
      intro account item hitem
      exact hs account item (get_destroyTrail hn hitem)

/-- The items of an earlier `create` have an earlier number. -/
theorem Recorded.createdBy_lt {s : IdentityPhone} (hs : s.Recorded) (account : IdentityAccount)
    {item : IdentityItem} (h : s.items.get account = some item) :
    item.createdBy < s.created.length := by
  obtain ⟨made, hcreated, -⟩ := hs account item h
  exact (List.getElem?_eq_some_iff.mp hcreated).1

theorem uniform_of_not_complete {items : IdentityItems} (h : ¬items.Complete) : Uniform items :=
  fun hcomplete => absurd hcomplete h

/-- New keys beside an old device id. -/
theorem not_uniform {items : IdentityItems} (account account' : IdentityAccount)
    {item item' : IdentityItem} (hcomplete : items.Complete) (h : items.get account = some item)
    (h' : items.get account' = some item') (hlt : item.createdBy < item'.createdBy) :
    ¬Uniform items := by
  intro huniform
  obtain ⟨number, hnumber⟩ := huniform hcomplete
  have hitem := hnumber account item h
  have hitem' := hnumber account' item' h'
  omega

/-- **When an operation keeps the identity whole.** -/
theorem uniform_step_iff {s t : IdentityPhone} (hs : s.Recorded) (huniform : Uniform s.items)
    {op : IdentityOp} (h : s.step uuidOf op = some t) : Uniform t.items ↔ ¬s.Mixes op := by
  cases changes_of_step h with
  | nothing hspares => exact iff_of_true huniform hspares
  | destroyed n hn hspares =>
      refine iff_of_true ?_ hspares
      have hcases : n = 0 ∨ n = 1 ∨ n = 2 ∨ n = 3 := by omega
      rcases hcases with rfl | rfl | rfl | rfl
      · exact huniform
      · exact uniform_of_not_complete fun hcomplete => Bool.false_ne_true hcomplete.1
      · exact uniform_of_not_complete fun hcomplete => Bool.false_ne_true hcomplete.1
      · exact uniform_of_not_complete fun hcomplete => Bool.false_ne_true hcomplete.1
  | created identity n hn hincomplete hscalar hmixes =>
      rw [hmixes]
      have hcases : n = 0 ∨ n = 1 ∨ n = 2 ∨ n = 3 ∨ n = 4 ∨ n = 5 ∨ n = 6 := by omega
      rcases hcases with rfl | rfl | rfl | rfl | rfl | rfl | rfl
      · exact iff_of_true huniform (by omega)
      · exact iff_of_true
          (uniform_of_not_complete fun hcomplete => Bool.false_ne_true hcomplete.1) (by omega)
      · -- the new Enclave key is in; the old Noise scalar may be there
        by_cases hrest : s.items.deviceId.isSome ∧ s.items.noiseStatic.isSome
        · obtain ⟨item, hitem⟩ := Option.isSome_iff_exists.mp hrest.1
          refine iff_of_false ?_ fun hspares => hspares ⟨hrest.1, .inr ⟨rfl, hrest.2⟩⟩
          exact not_uniform .deviceId .secureEnclave
            ⟨rfl, hrest.2, hrest.1⟩ hitem rfl (hs.createdBy_lt .deviceId hitem)
        · refine iff_of_true (uniform_of_not_complete fun hcomplete => ?_) fun hmixed => ?_
          · exact hrest ⟨hcomplete.2.2, hcomplete.2.1⟩
          · rcases hmixed.2 with hfour | ⟨-, hscalar⟩
            · cases hfour
            · exact hrest ⟨hmixed.1, hscalar⟩
      · exact iff_of_true
          (uniform_of_not_complete fun hcomplete => Bool.false_ne_true hcomplete.2.1) (by omega)
      · -- both new keys are in; the old device id may be there
        by_cases hid : s.items.deviceId.isSome
        · obtain ⟨item, hitem⟩ := Option.isSome_iff_exists.mp hid
          refine iff_of_false ?_ fun hspares => hspares ⟨hid, .inl rfl⟩
          exact not_uniform .deviceId .secureEnclave
            ⟨rfl, rfl, hid⟩ hitem rfl (hs.createdBy_lt .deviceId hitem)
        · exact iff_of_true (uniform_of_not_complete fun hcomplete => hid hcomplete.2.2)
            fun hmixed => hid hmixed.1
      · exact iff_of_true
          (uniform_of_not_complete fun hcomplete => Bool.false_ne_true hcomplete.2.2) (by omega)
      · refine iff_of_true (fun _ => ⟨s.created.length, ?_⟩) (by omega)
        intro account item hitem
        cases account with
        | secureEnclave => cases hitem; rfl
        | noiseStatic => cases hitem; rfl
        | deviceId => cases hitem; rfl

end IdentityPhone

/-! ### Runs -/

/-- **Exactly which runs never have a mixed identity.** -/
theorem identity_whole_iff {uuidOf : Bytes → Option Uuid}
    (hreads : IdentityPhone.ReadsBack uuidOf) {ops : List IdentityOp} {s : IdentityPhone}
    (hrun : Transition.run (IdentityPhone.step uuidOf) .initial ops = some s) :
    (∀ done, done <+: ops → ∀ t,
      Transition.run (IdentityPhone.step uuidOf) .initial done = some t → t.Whole uuidOf) ↔
      Transition.Meets (IdentityPhone.step uuidOf) (fun s op => ¬s.Mixes op) .initial ops := by
  have hrecorded : IdentityPhone.initial.Recorded := by
    intro account item h
    cases account <;> cases h
  have huniform : IdentityPhone.Uniform IdentityPhone.initial.items :=
    IdentityPhone.uniform_of_not_complete (by decide)
  refine Transition.forall_states_iff_meets (fun _ _ _ hs h => hs.step h)
    (fun s op t hs hwhole h => ?_) hrecorded
    ((IdentityPhone.whole_iff hreads hrecorded).mpr huniform) hrun
  rw [IdentityPhone.whole_iff hreads (hs.step h)]
  exact IdentityPhone.uniform_step_iff hs ((IdentityPhone.whole_iff hreads hs).mp hwhole) h

/-! ### A parser of printed uuids -/

/-- The upper case of a digit has it as its lower case. -/
theorem LowerHex.toUpper {c : Char} (h : LowerHex c) :
    toAsciiLowercase c.toUpper = c ∧ c.toUpper ≠ '-' ∧ isAsciiHexdigit c.toUpper = true ∧
      c.toUpper.toNat < 256 := by
  have hall : ("0123456789abcdef".toList.all fun c => toAsciiLowercase c.toUpper = c ∧
      c.toUpper ≠ '-' ∧ isAsciiHexdigit c.toUpper = true ∧ c.toUpper.toNat < 256) = true := by
    decide
  exact of_decide_eq_true (List.all_eq_true.mp hall c h)

theorem mem_hyphenated {id : Uuid} {c : Char} (h : c ∈ hyphenated id) : c = '-' ∨ LowerHex c := by
  have hhex : ∀ c ∈ hexEncode id.val, LowerHex c := fun c hc => lowerHex_of_mem_hexEncode hc
  simp only [hyphenated, List.mem_append, List.mem_singleton] at h
  rcases h with (((((((h | h) | h) | h) | h) | h) | h) | h) | h
  · exact .inr (hhex c (List.mem_of_mem_take h))
  · exact .inl h
  · exact .inr (hhex c (List.mem_of_mem_drop (List.mem_of_mem_take h)))
  · exact .inl h
  · exact .inr (hhex c (List.mem_of_mem_drop (List.mem_of_mem_take h)))
  · exact .inl h
  · exact .inr (hhex c (List.mem_of_mem_drop (List.mem_of_mem_take h)))
  · exact .inl h
  · exact .inr (hhex c (List.mem_of_mem_drop h))

theorem mem_uuidString {id : Uuid} {c : Char} (h : c ∈ uuidString id) :
    (c = '-' ∨ isAsciiHexdigit c = true) ∧ c.toNat < 256 := by
  obtain ⟨d, hd, rfl⟩ := List.mem_map.mp h
  rcases mem_hyphenated hd with rfl | hdigit
  · exact ⟨.inl rfl, by decide⟩
  · exact ⟨.inr hdigit.toUpper.2.2.1, hdigit.toUpper.2.2.2⟩

theorem normalise_uuidString (id : Uuid) : normalise (uuidString id) = hexEncode id.val := by
  have hhex : ∀ c ∈ hexEncode id.val, LowerHex c := fun c hc => lowerHex_of_mem_hexEncode hc
  have hkeep : ∀ piece : List Char, (∀ c ∈ piece, LowerHex c) →
      normalise (piece.map Char.toUpper) = piece := by
    intro piece hpiece
    rw [normalise, List.filter_eq_self.mpr, List.map_map]
    · refine (List.map_congr_left fun c hc => ?_).trans (List.map_id piece)
      exact (hpiece c hc).toUpper.1
    · intro c hc
      obtain ⟨d, hd, rfl⟩ := List.mem_map.mp hc
      simpa using (hpiece d hd).toUpper.2.1
  have happend (x y : List Char) : normalise (x ++ y) = normalise x ++ normalise y := by
    simp [normalise]
  have hhyphen : normalise (['-'].map Char.toUpper) = [] := by decide
  rw [uuidString, hyphenated]
  simp only [List.map_append, happend, hhyphen, List.append_nil]
  rw [hkeep _ fun c hc => hhex c (List.mem_of_mem_take hc),
    hkeep _ fun c hc => hhex c (List.mem_of_mem_drop (List.mem_of_mem_take hc)),
    hkeep _ fun c hc => hhex c (List.mem_of_mem_drop (List.mem_of_mem_take hc)),
    hkeep _ fun c hc => hhex c (List.mem_of_mem_drop (List.mem_of_mem_take hc)),
    hkeep _ fun c hc => hhex c (List.mem_of_mem_drop hc)]
  have hsplit (n : ℕ) : ((hexEncode id.val).drop n).take 4 ++ (hexEncode id.val).drop (n + 4) =
      (hexEncode id.val).drop n := by
    rw [← List.drop_drop, List.take_append_drop]
  rw [List.append_assoc, List.append_assoc, List.append_assoc, hsplit 16, hsplit 12, hsplit 8,
    List.take_append_drop]

theorem uuidShaped_uuidString (id : Uuid) : UuidShaped (uuidString id) := by
  refine ⟨?_, .inr ⟨?_, ?_⟩⟩
  · have hlength := congrArg List.length (normalise_uuidString id)
    rw [normalise, List.length_map, length_hexEncode, id.property] at hlength
    exact hlength
  · rw [uuidString, List.length_map, length_hyphenated]
  · intro i hi
    have hgroup : (hyphenated id)[i]? = some '-' := by
      simp only [List.mem_cons, List.not_mem_nil, or_false] at hi
      rcases hi with rfl | rfl | rfl | rfl <;>
        simp [hyphenated, length_hexEncode, id.property]
    rw [uuidString, List.getElem?_map, hgroup]
    rfl

/-- `UUID(uuidString:)` on texts of digits and hyphens. -/
def readUuid (data : Bytes) : Option Uuid := bareUuids (data.map fun b => Char.ofNat b.toNat)

theorem readUuid_readsBack : IdentityPhone.ReadsBack readUuid := by
  intro id
  have htext : (utf8Data (uuidString id)).map (fun b => Char.ofNat b.toNat) = uuidString id := by
    rw [utf8Data, List.map_map]
    refine (List.map_congr_left fun c hc => ?_).trans (List.map_id _)
    have hbyte := (mem_uuidString hc).2
    simp only [Function.comp_apply, UInt8.toNat_ofNat']
    rw [Nat.mod_eq_of_lt (by omega), Char.ofNat_toNat]
    rfl
  rw [readUuid, htext]
  refine (bareUuids_parses _ (fun c hc => ?_) id).mpr
    ⟨uuidShaped_uuidString id, (normalise_uuidString id).symm⟩
  exact (mem_uuidString hc).1.symm

/-! ### A device id that is left behind -/

/-- A system that makes the keys and the device id number `b`. -/
def toyEnclave (b : UInt8) : Enclave :=
  { IdentityPhone.obliging with
    generateKey := .ok [b]
    noiseStatic := toyNonce b
    deviceId := toyUuid b }

/-- An identity is made; the process dies after the first deletion of its destruction; and again
when the next identity's Enclave key has been added. -/
def twiceCutShort : List IdentityOp :=
  [.loadOrCreate (toyEnclave 1) [], .destroy [.proceed, .die false],
    .loadOrCreate (toyEnclave 2) [.proceed, .proceed, .die true]]

/-- The new Enclave key is loaded with the Noise scalar and the device id of the old identity. -/
theorem identity_mixed : ∃ s identity env,
    Transition.run (IdentityPhone.step readUuid) .initial twiceCutShort = some s ∧
      DeviceIdentityStore.load readUuid (toyEnclave 2) ⟨s.items, []⟩ = (.ok (some identity), env) ∧
      identity.secureEnclaveKeyBlob = [2] ∧ identity.noiseStaticPrivateKey = (toyNonce 1).val ∧
      identity.deviceId = toyUuid 1 ∧ ¬s.Whole readUuid := by
  refine ⟨_, _, _, rfl, rfl, rfl, rfl, rfl, fun hwhole => ?_⟩
  obtain ⟨number, made, -, -, -, -, hitems⟩ := hwhole (toyEnclave 2) [] _ _ rfl
  have hkey := congrArg (Option.map IdentityItem.createdBy) (hitems .secureEnclave)
  have hscalar := congrArg (Option.map IdentityItem.createdBy) (hitems .noiseStatic)
  cases (hkey : some 1 = some number)
  cases hscalar

/-- The same with a second `create` that is not cut short. -/
theorem identity_whole_iff_replaced : ∃ s, Transition.run (IdentityPhone.step readUuid) .initial
      [.loadOrCreate (toyEnclave 1) [], .destroy [.proceed, .die false],
        .loadOrCreate (toyEnclave 2) []] = some s ∧ s.Whole readUuid := by
  have hmeets : Transition.Meets (IdentityPhone.step readUuid) (fun s op => ¬s.Mixes op) .initial
      [.loadOrCreate (toyEnclave 1) [], .destroy [.proceed, .die false],
        .loadOrCreate (toyEnclave 2) []] := by
    decide
  exact ⟨_, rfl, (identity_whole_iff readUuid_readsBack rfl).mpr hmeets _ List.prefix_rfl _ rfl⟩

end Osprey
