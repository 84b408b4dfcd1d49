/-
**The host's pin store.**

`osprey-svc/src/state.rs`: the state file with the pinned peers and the revocations already acted
on, how its bytes are parsed and checked, the updates the three commands make, and the save that
writes a temporary file and renames it.  The JSON codec is `serde_json`'s and is a parameter.

Main definitions:

* `Osprey.StateFile`, `Osprey.PairedPeer`, `Osprey.ConsumedRevocation`, `Osprey.PeerSelector`;
* `Osprey.StateFile.insertPeer`, `Osprey.StateFile.recordNonce`, `Osprey.StateFile.dropPeers` — the
  updates, as functions of the file;
* `Osprey.StateCodec`, `Osprey.parseState` — reading the file back;
* `Osprey.HostState.save` and the operations on the file built on it.

Main results:

* `Osprey.parseState_eq_ok` — what the bytes of a parsed file have passed;
* `Osprey.parseState_valid`, `Osprey.parseState_encode` — what a parsed file satisfies, and that a
  valid file is parsed back;
* `Osprey.HostState.attempt_save` — **a save is atomic**, whichever of its operations fails or is
  the point of death.
-/

import Osprey.AtomicFile
import Osprey.Audit
import Osprey.Saturating

set_option relaxedAutoImplicit false
set_option autoImplicit false

namespace Osprey

open ByteIO (ErrorKind)
open FileIO

/-! ### The file -/

/-- A uuid, as its sixteen bytes. -/
abbrev Uuid := { bytes : Bytes // bytes.length = 16 }

def STATE_VERSION : UInt32 := 3

/-- A controller this agent has pinned. -/
structure PairedPeer where
  pinned : PinnedPeer
  relayDeviceId : Option Uuid
  pairedAtMs : Int64
  deriving DecidableEq, Repr

def PairedPeer.fingerprint (crypto : Crypto) (peer : PairedPeer) : Fingerprint :=
  peer.pinned.fingerprint crypto

/-- What the agent needs to talk to a relay it has enrolled with. -/
structure RelayEnrolment where
  baseUrl : String
  accountId : Uuid
  deviceId : Uuid
  deriving DecidableEq, Repr

/-- A `pair.revoke` this agent has already acted on; the nonce is lowercase hex. -/
structure ConsumedRevocation where
  nonce : List Char
  issuedAtMs : Int64
  deriving DecidableEq, Repr

structure StateFile where
  version : UInt32
  deviceId : Uuid
  displayName : String
  relay : Option RelayEnrolment
  peers : List PairedPeer
  consumedRevocations : List ConsumedRevocation
  deriving DecidableEq, Repr

/-- How the operator named a peer on the command line. -/
inductive PeerSelector
  | all
  | deviceId (id : Uuid)
  | fingerprintPrefix (text : List Char)
  deriving DecidableEq, Repr

def PeerSelector.matches (crypto : Crypto) (selector : PeerSelector) (peer : PairedPeer) : Bool :=
  match selector with
  | all => true
  | deviceId id => peer.relayDeviceId = some id
  | fingerprintPrefix text => text.isPrefixOf (peer.fingerprint crypto).toHex

/-! ### Updates -/

namespace StateFile

/-- The file `load_or_create` starts from on first run. -/
def fresh (deviceId : Uuid) (displayName : String) : StateFile :=
  ⟨STATE_VERSION, deviceId, displayName, none, [], []⟩

/-- The update of `set_relay`. -/
def withRelay (file : StateFile) (relay : RelayEnrolment) : StateFile :=
  { file with relay := some relay }

/-- The update of `add_peer`: an already pinned identity is replaced. -/
def insertPeer (crypto : Crypto) (file : StateFile) (peer : PairedPeer) : StateFile :=
  { file with
    peers := file.peers.filter
      (fun existing => existing.fingerprint crypto ≠ peer.fingerprint crypto) ++ [peer] }

/-- Whether a nonce has been recorded. -/
def hasNonce (file : StateFile) (nonce : Key32) : Bool :=
  file.consumedRevocations.any fun seen => seen.nonce = hexEncode nonce

/-- The update of `consume_revocation_nonce`: entries that cannot pass the freshness check again are
pruned, and the nonce is recorded. -/
def recordNonce (file : StateFile) (nonce : Key32) (issuedAtMs nowMs windowMs : Int64) :
    StateFile :=
  { file with
    consumedRevocations := file.consumedRevocations.filter
      (fun seen => Saturating.sub nowMs seen.issuedAtMs ≤ windowMs) ++
        [⟨hexEncode nonce, issuedAtMs⟩] }

/-- The peers `remove_peers` takes out. -/
def matching (crypto : Crypto) (file : StateFile) (selector : PeerSelector) : List PairedPeer :=
  file.peers.filter fun peer => selector.matches crypto peer

/-- The update of `remove_peers`. -/
def dropPeers (crypto : Crypto) (file : StateFile) (selector : PeerSelector) : StateFile :=
  { file with peers := file.peers.filter fun peer => ¬selector.matches crypto peer }

/-- The version this build writes, and pins whose cross-signatures verify. -/
structure Valid (crypto : Crypto) (file : StateFile) : Prop where
  version : file.version = STATE_VERSION
  pins : ∀ peer ∈ file.peers, peer.pinned.verify crypto = .ok ()

theorem Valid.recordNonce {crypto : Crypto} {file : StateFile} (h : file.Valid crypto)
    (nonce : Key32) (issuedAtMs nowMs windowMs : Int64) :
    (file.recordNonce nonce issuedAtMs nowMs windowMs).Valid crypto := ⟨h.version, h.pins⟩

theorem Valid.dropPeers {crypto : Crypto} {file : StateFile} (h : file.Valid crypto)
    (selector : PeerSelector) : (file.dropPeers crypto selector).Valid crypto :=
  ⟨h.version, fun peer hpeer => h.pins peer (List.mem_of_mem_filter hpeer)⟩

/-- What recording leaves on file: the entries whose window has not passed, and the new one. -/
theorem mem_recordNonce {file : StateFile} {nonce : Key32} {issuedAtMs nowMs windowMs : Int64}
    (hwindow : windowMs < Int64.maxValue) {entry : ConsumedRevocation} :
    entry ∈ (file.recordNonce nonce issuedAtMs nowMs windowMs).consumedRevocations ↔
      (entry ∈ file.consumedRevocations ∧
        nowMs.toInt - entry.issuedAtMs.toInt ≤ windowMs.toInt) ∨
      entry = ⟨hexEncode nonce, issuedAtMs⟩ := by
  simp only [recordNonce, List.mem_append, List.mem_filter, decide_eq_true_eq, List.mem_singleton,
    Saturating.sub_le_iff hwindow]

theorem hasNonce_of_mem {file : StateFile} {nonce : Key32} {issuedAtMs : Int64}
    (h : ⟨hexEncode nonce, issuedAtMs⟩ ∈ file.consumedRevocations) :
    file.hasNonce nonce = true := by
  rw [hasNonce, List.any_eq_true]
  exact ⟨_, h, by simp⟩

@[simp] theorem hasNonce_recordNonce (file : StateFile) (nonce : Key32)
    (issuedAtMs nowMs windowMs : Int64) :
    (file.recordNonce nonce issuedAtMs nowMs windowMs).hasNonce nonce = true := by
  simp [hasNonce, recordNonce]

@[simp] theorem hasNonce_dropPeers (crypto : Crypto) (file : StateFile) (selector : PeerSelector)
    (nonce : Key32) : (file.dropPeers crypto selector).hasNonce nonce = file.hasNonce nonce := rfl

/-- **Removing by the full fingerprint removes that fingerprint and no other.** -/
theorem peers_dropPeers_fingerprint (crypto : Crypto) (file : StateFile)
    (fingerprint : Fingerprint) :
    (file.dropPeers crypto (.fingerprintPrefix fingerprint.toHex)).peers =
      file.peers.filter fun peer => peer.fingerprint crypto ≠ fingerprint := by
  refine List.filter_congr fun peer _ => ?_
  simp only [PeerSelector.matches, Fingerprint.toHex_isPrefixOf_iff, ne_eq]

/-- The fingerprints of the pinned peers. -/
def fingerprints (crypto : Crypto) (peers : List PairedPeer) : List Fingerprint :=
  peers.map (PairedPeer.fingerprint crypto)

theorem nodup_fingerprints_filter {crypto : Crypto} {peers : List PairedPeer}
    (h : (fingerprints crypto peers).Nodup) (keep : PairedPeer → Bool) :
    (fingerprints crypto (peers.filter keep)).Nodup :=
  h.sublist (List.filter_sublist.map _)

/-- Adding keeps the identities distinct: the new record takes the place of an older one. -/
theorem nodup_insertPeer {crypto : Crypto} {file : StateFile}
    (h : (fingerprints crypto file.peers).Nodup) (peer : PairedPeer) :
    (fingerprints crypto (file.insertPeer crypto peer).peers).Nodup := by
  rw [insertPeer, fingerprints, List.map_append, List.nodup_append]
  refine ⟨nodup_fingerprints_filter h _, by simp, ?_⟩
  intro a ha b hb
  simp only [List.mem_map, List.mem_filter, decide_eq_true_eq] at ha
  obtain ⟨p, ⟨-, hne⟩, rfl⟩ := ha
  simp only [List.map_cons, List.map_nil, List.mem_singleton] at hb
  rw [hb]
  exact hne

/-- While identities are distinct, no identity is both removed and kept. -/
theorem not_mem_dropPeers_of_matching {crypto : Crypto} {file : StateFile}
    (h : (fingerprints crypto file.peers).Nodup) {selector : PeerSelector}
    {fingerprint : Fingerprint}
    (hmem : fingerprint ∈ fingerprints crypto (file.matching crypto selector)) :
    fingerprint ∉ fingerprints crypto (file.dropPeers crypto selector).peers := by
  simp only [fingerprints, matching, dropPeers, List.mem_map, List.mem_filter,
    decide_eq_true_eq] at hmem ⊢
  obtain ⟨p, ⟨hp, hmatch⟩, rfl⟩ := hmem
  rintro ⟨q, ⟨hq, hkept⟩, hfp⟩
  cases List.inj_on_of_nodup_map h hq hp hfp
  exact hkept hmatch

/-- Removing by the full fingerprint leaves no peer with it. -/
theorem not_mem_dropPeers_fingerprint (crypto : Crypto) (file : StateFile)
    (fingerprint : Fingerprint) :
    fingerprint ∉ fingerprints crypto
      (file.dropPeers crypto (.fingerprintPrefix fingerprint.toHex)).peers := by
  rw [peers_dropPeers_fingerprint, fingerprints, List.mem_map]
  rintro ⟨p, hp, rfl⟩
  simp at hp

end StateFile

/-! ### Parsing -/

/-- `serde_json` on the state file: the version on its own, the whole file, and the encoder. -/
structure StateCodec where
  probeVersion : Bytes → Except JsonError UInt32
  decode : Bytes → Except JsonError StateFile
  encode : StateFile → Except JsonError Bytes

/-- What is encoded decodes to itself, and the two decoders read the same version field. -/
structure StateCodec.Lawful (codec : StateCodec) : Prop where
  roundTrip : ∀ file bytes, codec.encode file = .ok bytes → codec.decode bytes = .ok file
  version : ∀ file bytes, codec.decode bytes = .ok file →
    codec.probeVersion bytes = .ok file.version

/-- The errors of the pin store, by the sentence they are reported with. -/
inductive StateError
  | couldNotRead (kind : ErrorKind)
  | notValidState (source : JsonError)
  | schemaVersion (found : UInt32)
  | notSignedByIdentity (fingerprint : Fingerprint) (source : Error)
  | couldNotCreateParent (kind : ErrorKind)
  | couldNotEncode (source : JsonError)
  | couldNotSave (stage : ReplaceStage) (kind : ErrorKind)
  deriving DecidableEq, Repr

/-- Re-verify every pin's cross-signature, in order. -/
def verifyPins (crypto : Crypto) : List PairedPeer → Except StateError Unit
  | [] => .ok ()
  | peer :: peers =>
      match peer.pinned.verify crypto with
      | .error e => .error (.notSignedByIdentity (peer.fingerprint crypto) e)
      | .ok () => verifyPins crypto peers

/-- Parse and validate a state file's bytes. -/
def parseState (codec : StateCodec) (crypto : Crypto) (bytes : Bytes) :
    Except StateError StateFile :=
  match codec.probeVersion bytes with
  | .error e => .error (.notValidState e)
  | .ok version =>
      if version ≠ STATE_VERSION then .error (.schemaVersion version)
      else
        match codec.decode bytes with
        | .error e => .error (.notValidState e)
        | .ok file =>
            match verifyPins crypto file.peers with
            | .error e => .error e
            | .ok () => .ok file

theorem verifyPins_eq_ok {crypto : Crypto} {peers : List PairedPeer} :
    verifyPins crypto peers = .ok () ↔ ∀ peer ∈ peers, peer.pinned.verify crypto = .ok () := by
  induction peers with
  | nil => simp [verifyPins]
  | cons peer peers ih =>
      rw [verifyPins, List.forall_mem_cons]
      cases hverify : peer.pinned.verify crypto with
      | error e => simp
      | ok u => simpa using ih

/-- What the bytes of a parsed file have passed. -/
theorem parseState_eq_ok {codec : StateCodec} {crypto : Crypto} {bytes : Bytes} {file : StateFile} :
    parseState codec crypto bytes = .ok file ↔
      codec.probeVersion bytes = .ok STATE_VERSION ∧ codec.decode bytes = .ok file ∧
        ∀ peer ∈ file.peers, peer.pinned.verify crypto = .ok () := by
  rw [← verifyPins_eq_ok]
  constructor
  · intro h
    unfold parseState at h
    split at h
    · cases h
    · rename_i version hprobe
      split at h
      · cases h
      · rename_i hversion
        cases not_not.mp hversion
        split at h
        · cases h
        · rename_i decoded hdecode
          split at h
          · cases h
          · rename_i hpins
            cases h
            exact ⟨hprobe, hdecode, hpins⟩
  · rintro ⟨hprobe, hdecode, hpins⟩
    simp [parseState, hprobe, hdecode, hpins]

/-- A parsed file has this build's version, and every pin in it verified. -/
theorem parseState_valid {codec : StateCodec} {crypto : Crypto} (hcodec : codec.Lawful)
    {bytes : Bytes} {file : StateFile} (h : parseState codec crypto bytes = .ok file) :
    file.Valid crypto := by
  obtain ⟨hprobe, hdecode, hpins⟩ := parseState_eq_ok.mp h
  have hsame := hprobe.symm.trans (hcodec.version file bytes hdecode)
  exact ⟨(Except.ok.inj hsame).symm, hpins⟩

/-- What this build encodes, it parses. -/
theorem parseState_encode {codec : StateCodec} {crypto : Crypto} (hcodec : codec.Lawful)
    {bytes : Bytes} {file : StateFile} (hencode : codec.encode file = .ok bytes)
    (hvalid : file.Valid crypto) : parseState codec crypto bytes = .ok file := by
  have hdecode := hcodec.roundTrip file bytes hencode
  have hprobe := hcodec.version file bytes hdecode
  rw [hvalid.version] at hprobe
  exact parseState_eq_ok.mpr ⟨hprobe, hdecode, hvalid.pins⟩

/-! ### Operations on the file -/

namespace HostState

variable (codec : StateCodec) (crypto : Crypto)

/-- Load an existing state file. -/
def load : FileM StateError StateFile := do
  let bytes ← readTarget.mapErr .couldNotRead
  FileM.ofExcept (parseState codec crypto bytes)

/-- Write the state atomically. -/
def save (file : StateFile) : FileM StateError Unit := do
  createDirAll.mapErr .couldNotCreateParent
  let body ← FileM.ofExcept (match codec.encode file with
    | .error e => .error (.couldNotEncode e)
    | .ok body => .ok body)
  (replaceTarget body).mapErr fun (stage, kind) => .couldNotSave stage kind

/-- Record a `pair.revoke` nonce, reporting whether it is new, with the state it leaves. -/
def consumeRevocationNonce (file : StateFile) (nonce : Key32) (issuedAtMs nowMs windowMs : Int64) :
    FileM StateError (Bool × StateFile) :=
  if file.hasNonce nonce then pure (false, file)
  else do
    let recorded := file.recordNonce nonce issuedAtMs nowMs windowMs
    save codec recorded
    pure (true, recorded)

/-- Remove every peer matching `selector`, returning what was removed and the state it leaves. -/
def removePeers (file : StateFile) (selector : PeerSelector) :
    FileM StateError (List PairedPeer × StateFile) := do
  let kept := file.dropPeers crypto selector
  save codec kept
  pure (file.matching crypto selector, kept)

theorem attempt_ofExcept {ε α : Type} {answer : Except ε α} (w : World) :
    Attempt (FileM.ofExcept answer) w fun a w' => w' = w ∧ answer = .ok a := by
  cases answer with
  | ok a => exact ⟨rfl, rfl⟩
  | error e => exact Keeps.refl w

/-- Loading reads what is on disk, and changes nothing. -/
theorem attempt_load (w : World) :
    Attempt (load codec crypto) w fun file w' => Keeps w w' ∧
      ∃ bytes, w.disk.target = some bytes ∧ parseState codec crypto bytes = .ok file := by
  refine attempt_bind (attempt_mono (attempt_mapErr (attempt_readTarget w) _) ?_)
  rintro bytes w' ⟨hkeeps, htarget⟩
  refine ⟨hkeeps, attempt_mono (attempt_ofExcept w') ?_⟩
  rintro file w'' ⟨rfl, hparse⟩
  exact ⟨hkeeps, bytes, htarget, hparse⟩

/-- **A save is atomic**: it succeeds and the file went from its old contents to the encoded state
in one step, or it does not succeed and the file was never touched. -/
theorem attempt_save (file : StateFile) (w : World) :
    Attempt (save codec file) w fun _ w' =>
      ∃ body, codec.encode file = .ok body ∧ Replaces w w' body := by
  refine attempt_bind (attempt_mono (attempt_mapErr (attempt_passive w) _) ?_)
  rintro - w₁ ⟨hkeeps, -⟩
  refine ⟨hkeeps, attempt_bind (attempt_mono (attempt_ofExcept w₁) ?_)⟩
  rintro body w₂ ⟨rfl, hbody⟩
  have hencode : codec.encode file = .ok body := by
    cases hencode : codec.encode file with
    | error e => simp [hencode] at hbody
    | ok body' => simpa [hencode] using hbody
  refine ⟨Keeps.refl w₂, attempt_mono (attempt_mapErr (attempt_replaceTarget body w₂) _) ?_⟩
  intro _ w₃ hreplaces
  exact ⟨body, hencode, hkeeps.replaces hreplaces⟩

/-- Consuming a recorded nonce writes nothing; consuming a new one saves the recording. -/
theorem attempt_consumeRevocationNonce (file : StateFile) (nonce : Key32)
    (issuedAtMs nowMs windowMs : Int64) (w : World) :
    Attempt (consumeRevocationNonce codec file nonce issuedAtMs nowMs windowMs) w fun answer w' =>
      (file.hasNonce nonce = true ∧ answer = (false, file) ∧ w' = w) ∨
      (file.hasNonce nonce = false ∧
        answer = (true, file.recordNonce nonce issuedAtMs nowMs windowMs) ∧
        ∃ body, codec.encode (file.recordNonce nonce issuedAtMs nowMs windowMs) = .ok body ∧
          Replaces w w' body) := by
  unfold consumeRevocationNonce
  cases hnonce : file.hasNonce nonce with
  | true => exact attempt_pure (.inl ⟨rfl, rfl, rfl⟩)
  | false =>
      have hsave := attempt_save codec (file.recordNonce nonce issuedAtMs nowMs windowMs) w
      rcases hsave.cases with ⟨u, w', hrun, hbody⟩ | ⟨e, w', hrun, hkeeps⟩ | ⟨w', hrun, hkeeps⟩
      · simpa [Attempt, FileM.bind_run, hrun, FileM.pure_run] using hbody
      · simpa [Attempt, FileM.bind_run, hrun] using hkeeps
      · simpa [Attempt, FileM.bind_run, hrun] using hkeeps

/-- Removing saves the file without the matching peers. -/
theorem attempt_removePeers (file : StateFile) (selector : PeerSelector) (w : World) :
    Attempt (removePeers codec crypto file selector) w fun _ w' =>
      ∃ body, codec.encode (file.dropPeers crypto selector) = .ok body ∧ Replaces w w' body := by
  have hsave := attempt_save codec (file.dropPeers crypto selector) w
  rcases hsave.cases with ⟨u, w', hrun, hbody⟩ | ⟨e, w', hrun, hkeeps⟩ | ⟨w', hrun, hkeeps⟩
  · simpa [Attempt, removePeers, FileM.bind_run, hrun, FileM.pure_run] using hbody
  · simpa [Attempt, removePeers, FileM.bind_run, hrun] using hkeeps
  · simpa [Attempt, removePeers, FileM.bind_run, hrun] using hkeeps

end HostState

end Osprey
