/-
**The phone's pins, and the two keychain items that they live in.**

`Pairing/PairedHost.swift`, `Pairing/PinStore.swift` and `Identity/KeychainStore.swift`.  The set of
pins is one item of the keychain.  An older build kept a single pin in another item, which is moved
into the set when the set is first read.  An item is written by deleting it and adding it again, so
a write can fail in three ways, and in one of them the set is gone.

What the system answers to a keychain call, and what the encoder says, come with the call; an item
is what it decodes to.

Main definitions:

* `Osprey.PairedHost`, `Osprey.Keychain` — a pin, and the two items;
* `Osprey.Keychain.loadAll`, `.save`, `.remove` — the operations of the store;
* `Osprey.Keychain.records` — the pins that the store holds;
* `Osprey.Keychain.Stores`, `Osprey.Keychain.Loses` — that an operation gets its set written, and
  that it deletes the set and cannot add the new one;
* `Osprey.Keychain.spare` — an older build's pin that has outlived its migration.

Main results:

* `Osprey.Keychain.records_loadAll` — reading never changes what the store holds;
* `Osprey.Keychain.update_cases` — **what an operation leaves in the store**;
* `Osprey.Keychain.mem_put` — a set in which a host has been put holds it and the other machines.
-/

import Osprey.Identity

set_option relaxedAutoImplicit false
set_option autoImplicit false

namespace Osprey

/-! ### Pins -/

/-- A `host:port` hint. -/
structure LanEndpoint where
  host : String
  port : UInt16
  isIpv6 : Bool
  deriving DecidableEq, Repr

/-- A host this phone has pinned. -/
structure PairedHost where
  agentDeviceId : String
  accountId : String
  relayUrl : String
  lanHints : List LanEndpoint
  pinnedIdentity : PublicIdentity
  pairedAtMilliseconds : Int64
  displayName : Option String
  deriving DecidableEq, Repr

/-- What an operation of the store can throw; a `KeychainError` is the text it is shown with. -/
inductive PinStoreError
  | corruptRecord (detail : String)
  | couldNotEncode (detail : String)
  | keychain (message : String)
  deriving DecidableEq, Repr

def PinStoreError.localizedMessage : PinStoreError → String
  | corruptRecord detail => "The stored pairing could not be read: " ++ detail
  | couldNotEncode detail => "The pairing could not be stored: " ++ detail
  | keychain message => message

/-- The two items of the keychain: the set, and the single record of an older build.  An item that
does not decode is what the decoder says of it. -/
structure Keychain where
  pairedHosts : Option (Except String (List PairedHost))
  pairedHost : Option (Except String PairedHost)
  deriving DecidableEq, Repr

/-- How the writing of the set goes: it is encoded, the item is deleted, and the item is added. -/
inductive WriteOutcome
  | done
  | notEncoded (detail : String)
  | notDeleted (message : String)
  | notAdded (message : String)
  deriving DecidableEq, Repr

/-- What the system answers to the calls that one operation of the store makes. -/
structure StoreAnswers where
  account : Except String Unit
  legacyAccount : Except String Unit
  migration : WriteOutcome
  deletion : Except String Unit
  write : WriteOutcome
  deriving DecidableEq, Repr

/-- Every call succeeds. -/
def StoreAnswers.allDone : StoreAnswers := ⟨.ok (), .ok (), .done, .ok (), .done⟩

namespace Keychain

def writeSet (keychain : Keychain) (hosts : List PairedHost) :
    WriteOutcome → Except PinStoreError Unit × Keychain
  | .done => (.ok (), { keychain with pairedHosts := some (.ok hosts) })
  | .notEncoded detail => (.error (.couldNotEncode detail), keychain)
  | .notDeleted message => (.error (.keychain message), keychain)
  | .notAdded message => (.error (.keychain message), { keychain with pairedHosts := none })

/-- Every pinned host, oldest pairing first. -/
def loadAll (answers : StoreAnswers) (keychain : Keychain) :
    Except PinStoreError (List PairedHost) × Keychain :=
  match answers.account with
  | .error message => (.error (.keychain message), keychain)
  | .ok () =>
      match keychain.pairedHosts with
      | some (.error detail) => (.error (.corruptRecord detail), keychain)
      | some (.ok hosts) => (.ok hosts, keychain)
      | none =>
          match answers.legacyAccount with
          | .error message => (.error (.keychain message), keychain)
          | .ok () =>
              match keychain.pairedHost with
              | none => (.ok [], keychain)
              | some (.error detail) => (.error (.corruptRecord detail), keychain)
              | some (.ok host) =>
                  -- The set is written before the old record goes.
                  match keychain.writeSet [host] answers.migration with
                  | (.error e, keychain) => (.error e, keychain)
                  | (.ok (), keychain) =>
                      match answers.deletion with
                      | .error message => (.error (.keychain message), keychain)
                      | .ok () => (.ok [host], { keychain with pairedHost := none })

/-- The one record for a host: at the first index that has its id, or at the end. -/
def put (host : PairedHost) (hosts : List PairedHost) : List PairedHost :=
  match hosts.findIdx? fun stored => stored.agentDeviceId = host.agentDeviceId with
  | some index => hosts.set index host
  | none => hosts ++ [host]

/-- Read the set, change it and write it. -/
def update (answers : StoreAnswers) (change : List PairedHost → List PairedHost)
    (keychain : Keychain) : Except PinStoreError Unit × Keychain :=
  match keychain.loadAll answers with
  | (.error e, keychain) => (.error e, keychain)
  | (.ok hosts, keychain) => keychain.writeSet (change hosts) answers.write

/-- Insert or replace by agent device id. -/
def save (answers : StoreAnswers) (host : PairedHost) (keychain : Keychain) :
    Except PinStoreError Unit × Keychain :=
  keychain.update answers (put host)

/-- Remove one host.  Removing one that is not stored is success. -/
def remove (answers : StoreAnswers) (agentDeviceId : String) (keychain : Keychain) :
    Except PinStoreError Unit × Keychain :=
  keychain.update answers fun hosts => hosts.filter fun host => host.agentDeviceId ≠ agentDeviceId

/-! ### What the store holds -/

/-- The pin of an older build. -/
def legacyRecords (keychain : Keychain) : List PairedHost :=
  match keychain.pairedHost with
  | some (.ok host) => [host]
  | _ => []

/-- The pins that the store holds. -/
def records (keychain : Keychain) : List PairedHost :=
  match keychain.pairedHosts with
  | some (.ok hosts) => hosts
  | some (.error _) => []
  | none => keychain.legacyRecords

/-- The pin of an older build that there is beside a set. -/
def spare (keychain : Keychain) : List PairedHost :=
  match keychain.pairedHosts with
  | some _ => keychain.legacyRecords
  | none => []

/-- The set can be read. -/
def Readable (answers : StoreAnswers) (keychain : Keychain) : Prop :=
  (keychain.loadAll answers).1.toOption.isSome

/-- An operation gets its set written. -/
def Stores (answers : StoreAnswers) (keychain : Keychain) : Prop :=
  keychain.Readable answers ∧ answers.write = .done

/-- An operation deletes the set, and cannot add the new one. -/
def Loses (answers : StoreAnswers) (keychain : Keychain) : Prop :=
  keychain.Readable answers ∧ ∃ message, answers.write = .notAdded message

instance (answers : StoreAnswers) (keychain : Keychain) : Decidable (keychain.Readable answers) :=
  inferInstanceAs (Decidable (_ = true))

instance (answers : StoreAnswers) (keychain : Keychain) : Decidable (keychain.Stores answers) :=
  inferInstanceAs (Decidable (_ ∧ _))

instance (answers : StoreAnswers) (keychain : Keychain) : Decidable (keychain.Loses answers) :=
  match hwrite : answers.write with
  | .notAdded message =>
      decidable_of_iff (keychain.Readable answers)
        ⟨fun h => ⟨h, message, hwrite⟩, And.left⟩
  | .done => .isFalse (by rintro ⟨-, message, h⟩; cases hwrite.symm.trans h)
  | .notEncoded _ => .isFalse (by rintro ⟨-, message, h⟩; cases hwrite.symm.trans h)
  | .notDeleted _ => .isFalse (by rintro ⟨-, message, h⟩; cases hwrite.symm.trans h)

/-- What reading the set does: nothing, or it moves the pin of an older build into the set. -/
theorem loadAll_cases (answers : StoreAnswers) (keychain : Keychain) :
    (∃ e, (keychain.loadAll answers).1 = .error e ∧
      ((keychain.loadAll answers).2 = keychain ∨
        ∃ host, keychain.pairedHosts = none ∧ keychain.pairedHost = some (.ok host) ∧
          ((keychain.loadAll answers).2 = ⟨none, some (.ok host)⟩ ∨
            (keychain.loadAll answers).2 = ⟨some (.ok [host]), some (.ok host)⟩))) ∨
    (∃ hosts, (keychain.loadAll answers).1 = .ok hosts ∧
      ((keychain.loadAll answers).2 = keychain ∧ keychain.pairedHosts = some (.ok hosts) ∨
        keychain = ⟨none, none⟩ ∧ (keychain.loadAll answers).2 = keychain ∧ hosts = [] ∨
        ∃ host, keychain = ⟨none, some (.ok host)⟩ ∧
          (keychain.loadAll answers).2 = ⟨some (.ok [host]), none⟩ ∧ hosts = [host])) := by
  obtain ⟨pairedHosts, pairedHost⟩ := keychain
  obtain ⟨account, legacyAccount, migration, deletion, write⟩ := answers
  cases account with
  | error message => exact Or.inl ⟨_, rfl, Or.inl rfl⟩
  | ok _ =>
      rcases pairedHosts with _ | detail | hosts
      · cases legacyAccount with
        | error message => exact Or.inl ⟨_, rfl, Or.inl rfl⟩
        | ok _ =>
            rcases pairedHost with _ | detail | host
            · exact Or.inr ⟨_, rfl, Or.inr (Or.inl ⟨rfl, rfl, rfl⟩)⟩
            · exact Or.inl ⟨_, rfl, Or.inl rfl⟩
            · cases migration with
              | notEncoded detail => exact Or.inl ⟨_, rfl, Or.inl rfl⟩
              | notDeleted message => exact Or.inl ⟨_, rfl, Or.inl rfl⟩
              | notAdded message =>
                  exact Or.inl ⟨_, rfl, Or.inr ⟨host, rfl, rfl, Or.inl rfl⟩⟩
              | done =>
                  cases deletion with
                  | error message =>
                      exact Or.inl ⟨_, rfl, Or.inr ⟨host, rfl, rfl, Or.inr rfl⟩⟩
                  | ok _ => exact Or.inr ⟨_, rfl, Or.inr (Or.inr ⟨host, rfl, rfl, rfl⟩)⟩
      · exact Or.inl ⟨_, rfl, Or.inl rfl⟩
      · exact Or.inr ⟨_, rfl, Or.inl ⟨rfl, rfl⟩⟩

/-- **Reading never changes what the store holds.** -/
theorem records_loadAll (answers : StoreAnswers) (keychain : Keychain) :
    (keychain.loadAll answers).2.records = keychain.records := by
  rcases keychain.loadAll_cases answers with
    ⟨-, -, h | ⟨host, hset, hlegacy, h | h⟩⟩ | ⟨hosts, -, ⟨h, -⟩ | ⟨-, h, -⟩ | ⟨host, rfl, h, -⟩⟩
  · rw [h]
  · simp [h, records, legacyRecords, hset, hlegacy]
  · simp [h, records, legacyRecords, hset, hlegacy]
  · rw [h]
  · rw [h]
  · rw [h]
    rfl

/-- What is read is what the store holds. -/
theorem eq_records_of_loadAll {answers : StoreAnswers} {keychain : Keychain}
    {hosts : List PairedHost} (h : (keychain.loadAll answers).1 = .ok hosts) :
    hosts = keychain.records := by
  rcases keychain.loadAll_cases answers with
    ⟨e, he, -⟩ | ⟨read, hread, ⟨-, hset⟩ | ⟨rfl, -, rfl⟩ | ⟨host, rfl, -, rfl⟩⟩
  · cases h.symm.trans he
  · cases h.symm.trans hread
    rw [records, hset]
  · exact Except.ok.inj (h.symm.trans hread)
  · exact Except.ok.inj (h.symm.trans hread)

theorem readable_iff {answers : StoreAnswers} {keychain : Keychain} :
    keychain.Readable answers ↔ (keychain.loadAll answers).1 = .ok keychain.records := by
  unfold Readable
  constructor
  · intro h
    cases hread : (keychain.loadAll answers).1 with
    | error e => rw [hread] at h; cases h
    | ok hosts => rw [eq_records_of_loadAll hread]
  · intro h
    rw [h]
    rfl

/-- The set gone, what is left is a pin that was beside it. -/
theorem records_lost {answers : StoreAnswers} {keychain : Keychain}
    (h : keychain.Readable answers) :
    records { (keychain.loadAll answers).2 with pairedHosts := none } = keychain.spare := by
  rcases keychain.loadAll_cases answers with
    ⟨e, he, -⟩ | ⟨read, hread, ⟨hsame, hset⟩ | ⟨rfl, hsame, -⟩ | ⟨host, rfl, hmoved, -⟩⟩
  · rw [readable_iff, he] at h
    cases h
  · rw [hsame]
    simp [records, spare, hset, legacyRecords]
  · rw [hsame]
    rfl
  · rw [hmoved]
    rfl

/-- **What an operation leaves in the store**: the changed set, what a loss spares, or what was
there. -/
theorem update_cases (answers : StoreAnswers) (change : List PairedHost → List PairedHost)
    (keychain : Keychain) :
    (keychain.Stores answers ∧ (keychain.update answers change).1 = .ok () ∧
      (keychain.update answers change).2.records = change keychain.records) ∨
    (keychain.Loses answers ∧ (∃ e, (keychain.update answers change).1 = .error e) ∧
      (keychain.update answers change).2.records = keychain.spare) ∨
    (¬keychain.Stores answers ∧ ¬keychain.Loses answers ∧
      (∃ e, (keychain.update answers change).1 = .error e) ∧
      (keychain.update answers change).2.records = keychain.records) := by
  have hkept := keychain.records_loadAll answers
  by_cases hread : keychain.Readable answers
  · have hset := readable_iff.mp hread
    have hlost := records_lost hread
    unfold update
    generalize keychain.loadAll answers = loaded at *
    obtain ⟨result, after⟩ := loaded
    cases hset
    cases hwrite : answers.write with
    | done => exact Or.inl ⟨⟨hread, hwrite⟩, rfl, rfl⟩
    | notAdded message => exact Or.inr (Or.inl ⟨⟨hread, message, hwrite⟩, ⟨_, rfl⟩, hlost⟩)
    | notEncoded detail =>
        refine Or.inr (Or.inr ⟨?_, ?_, ⟨_, rfl⟩, hkept⟩)
        · rintro ⟨-, h⟩
          cases hwrite.symm.trans h
        · rintro ⟨-, message, h⟩
          cases hwrite.symm.trans h
    | notDeleted detail =>
        refine Or.inr (Or.inr ⟨?_, ?_, ⟨_, rfl⟩, hkept⟩)
        · rintro ⟨-, h⟩
          cases hwrite.symm.trans h
        · rintro ⟨-, message, h⟩
          cases hwrite.symm.trans h
  · refine Or.inr (Or.inr ⟨fun h => hread h.1, fun h => hread h.1, ?_⟩)
    unfold Readable at hread
    unfold update
    generalize keychain.loadAll answers = loaded at *
    obtain ⟨result, after⟩ := loaded
    cases result with
    | error e => exact ⟨⟨e, rfl⟩, hkept⟩
    | ok hosts => exact absurd rfl hread

/-! ### One record for each machine -/

/-- No machine has two records. -/
def OnePerMachine (hosts : List PairedHost) : Prop := (hosts.map PairedHost.agentDeviceId).Nodup

theorem put_cons (host first : PairedHost) (rest : List PairedHost) :
    put host (first :: rest) =
      if first.agentDeviceId = host.agentDeviceId then host :: rest
      else first :: put host rest := by
  unfold put
  rw [List.findIdx?_cons]
  by_cases h : first.agentDeviceId = host.agentDeviceId
  · simp [h]
  · simp only [h, decide_false, Bool.false_eq_true, if_false]
    cases rest.findIdx? fun stored => stored.agentDeviceId = host.agentDeviceId with
    | none => rfl
    | some index => rfl

/-- **A set in which a host has been put** holds it, and the other machines as they were. -/
theorem mem_put {host r : PairedHost} {hosts : List PairedHost} (h : OnePerMachine hosts) :
    r ∈ put host hosts ↔ r = host ∨ r ∈ hosts ∧ r.agentDeviceId ≠ host.agentDeviceId := by
  induction hosts with
  | nil => simp [put]
  | cons first rest ih =>
      obtain ⟨hfirst, hrest⟩ := List.nodup_cons.mp h
      rw [put_cons]
      by_cases hsame : first.agentDeviceId = host.agentDeviceId
      · have hother : ∀ s ∈ rest, s.agentDeviceId ≠ host.agentDeviceId := by
          intro s hs heq
          exact hfirst (List.mem_map.mpr ⟨s, hs, heq.trans hsame.symm⟩)
        rw [if_pos hsame, List.mem_cons, List.mem_cons]
        constructor
        · rintro (rfl | hr)
          · exact Or.inl rfl
          · exact Or.inr ⟨Or.inr hr, hother r hr⟩
        · rintro (rfl | ⟨rfl | hr, hne⟩)
          · exact Or.inl rfl
          · exact absurd hsame hne
          · exact Or.inr hr
      · rw [if_neg hsame, List.mem_cons, List.mem_cons, ih hrest]
        constructor
        · rintro (rfl | rfl | ⟨hr, hne⟩)
          · exact Or.inr ⟨Or.inl rfl, hsame⟩
          · exact Or.inl rfl
          · exact Or.inr ⟨Or.inr hr, hne⟩
        · rintro (rfl | ⟨rfl | hr, hne⟩)
          · exact Or.inr (Or.inl rfl)
          · exact Or.inl rfl
          · exact Or.inr (Or.inr ⟨hr, hne⟩)

theorem onePerMachine_put {host : PairedHost} {hosts : List PairedHost}
    (h : OnePerMachine hosts) : OnePerMachine (put host hosts) := by
  induction hosts with
  | nil => simp [put, OnePerMachine]
  | cons first rest ih =>
      obtain ⟨hfirst, hrest⟩ := List.nodup_cons.mp h
      rw [put_cons]
      by_cases hsame : first.agentDeviceId = host.agentDeviceId
      · rw [if_pos hsame]
        exact List.nodup_cons.mpr ⟨hsame ▸ hfirst, hrest⟩
      · rw [if_neg hsame]
        refine List.nodup_cons.mpr ⟨?_, ih hrest⟩
        intro hmem
        obtain ⟨r, hr, hid⟩ := List.mem_map.mp hmem
        rcases (mem_put hrest).mp hr with rfl | ⟨hr, -⟩
        · exact hsame hid.symm
        · exact hfirst (List.mem_map.mpr ⟨r, hr, hid⟩)

theorem onePerMachine_filter {p : PairedHost → Bool} {hosts : List PairedHost}
    (h : OnePerMachine hosts) : OnePerMachine (hosts.filter p) :=
  h.sublist (List.filter_sublist.map _)

theorem onePerMachine_spare (keychain : Keychain) : OnePerMachine keychain.spare := by
  unfold spare legacyRecords
  split
  · split
    · exact List.nodup_singleton _
    · exact List.nodup_nil
  · exact List.nodup_nil

end Keychain

end Osprey
