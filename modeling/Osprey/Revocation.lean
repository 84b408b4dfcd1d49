/-
**Verifying and applying a peer-signed `pair.revoke`.**

`osprey-core/src/pairing/revoke.rs` decides whether a revocation is genuine, fresh and addressed to
this pairing; `osprey-svc/src/revoke.rs` acts on it: the nonce is recorded and saved, then the pin
is removed and saved, then the unpair is audited.  The order of the two saves is the security
property.

Main definitions:

* `Osprey.verifyRevocation` — the checks, in order;
* `Osprey.removePin`, `Osprey.applyRevocation` — what a session thread does with a `pair.revoke`.

Main results:

* `Osprey.verifyRevocation_eq_ok` — what a verified revocation satisfies;
* `Osprey.removePin_cases` — the three ways the two saves can go;
* `Osprey.applyRevocation_atomic` — **crash and error atomicity**: whatever fails and wherever the
  process dies, the pin is never gone from disk before the nonce is on it.
-/

import Osprey.HostState

set_option relaxedAutoImplicit false
set_option autoImplicit false

namespace Osprey

open FileIO

/-! ### Verification -/

def REVOKE_CONTEXT : Bytes := ascii "osprey/pair.revoke/v1"
def REVOKE_NONCE_LEN : ℕ := 32

/-- `REVOKE_CLOCK_WINDOW`, 300 seconds, in milliseconds. -/
def REVOKE_CLOCK_WINDOW : Int64 := 300000

/-- Why a `pair.revoke` was refused. -/
inductive RevocationRejection
  | malformed
  | wrongIssuer
  | unrelatedTarget
  | staleClock
  | badSignature
  | replayedNonce
  deriving DecidableEq, Repr

/-- A `pair.revoke` as it arrived: the body of the message, which `apply` hands to the core field by
field. -/
structure PairRevokeBody where
  issuerDeviceId : Uuid
  revokedDeviceId : Uuid
  issuedAt : Int64
  nonce : Bytes
  signature : Bytes
  deriving DecidableEq, Repr

/-- What the receiver knows independently of the message. -/
structure RevocationCheck where
  peer : PinnedPeer
  peerDeviceId : Uuid
  hostDeviceId : Uuid
  nowMs : Int64
  deriving DecidableEq, Repr

/-- The exact byte string a `pair.revoke` signature covers. -/
def revocationSigningBytes (issuerDeviceId revokedDeviceId : Uuid) (issuedAtMs : Int64)
    (nonce : Key32) : Bytes :=
  REVOKE_CONTEXT ++ issuerDeviceId ++ revokedDeviceId ++ Saturating.toBeBytes issuedAtMs ++ nonce

/-- Verify a revocation, returning the nonce the caller must record before acting. -/
def verifyRevocation (crypto : Crypto) (revocation : PairRevokeBody) (check : RevocationCheck) :
    Except RevocationRejection Key32 :=
  if hnonce : revocation.nonce.length = REVOKE_NONCE_LEN then
    if revocation.issuerDeviceId ≠ check.peerDeviceId then .error .wrongIssuer
    else if revocation.revokedDeviceId ≠ revocation.issuerDeviceId ∧
        revocation.revokedDeviceId ≠ check.hostDeviceId then .error .unrelatedTarget
    else if REVOKE_CLOCK_WINDOW <
        Saturating.abs (Saturating.sub check.nowMs revocation.issuedAt) then .error .staleClock
    else
      match verifyIdentitySignature crypto check.peer.identityAlgorithm check.peer.identityPub
          (revocationSigningBytes revocation.issuerDeviceId revocation.revokedDeviceId
            revocation.issuedAt ⟨revocation.nonce, hnonce⟩) revocation.signature with
      | .error _ => .error .badSignature
      | .ok () => .ok ⟨revocation.nonce, hnonce⟩
  else .error .malformed

/-- A verified revocation is fresh by the receiver's clock, and answers with its own nonce. -/
theorem verifyRevocation_eq_ok {crypto : Crypto} {revocation : PairRevokeBody}
    {check : RevocationCheck} {nonce : Key32}
    (h : verifyRevocation crypto revocation check = .ok nonce) :
    revocation.nonce = nonce ∧
      |check.nowMs.toInt - revocation.issuedAt.toInt| ≤ REVOKE_CLOCK_WINDOW.toInt := by
  unfold verifyRevocation at h
  split at h
  · split at h
    · cases h
    · split at h
      · cases h
      · split at h
        · cases h
        · rename_i hfresh
          rw [Saturating.lt_abs_sub_iff (by decide) (by decide), not_lt] at hfresh
          split at h
          · cases h
          · cases h
            exact ⟨rfl, hfresh⟩
  · cases h

/-! ### Application -/

/-- Why a revocation did not take effect. -/
inductive RevocationRefusal
  | rejected (reason : RevocationRejection)
  | notApplied (source : StateError)
  deriving DecidableEq, Repr

/-- A revocation that took effect. -/
structure AppliedRevocation where
  fingerprint : Fingerprint
  auditError : Option Error
  deriving DecidableEq, Repr

/-- What a session thread needs to act on a `pair.revoke`: the codec and primitives it runs on, the
host's device id and the identifiers it audits under. -/
structure RevocationHandler where
  codec : StateCodec
  crypto : Crypto
  hostDeviceId : Uuid
  context : PairingContext

/-- The critical section: load, record the nonce and save, remove the pin and save, audit. -/
def removePin (handler : RevocationHandler) (peer : PinnedPeer) (nonce : Key32)
    (issuedAtMs nowMs windowMs : Int64) (audit : AuditLog) :
    FileM RevocationRefusal (AppliedRevocation × AuditLog) := do
  let state ← (HostState.load handler.codec handler.crypto).mapErr .notApplied
  let (fresh, state) ← (HostState.consumeRevocationNonce handler.codec state nonce issuedAtMs nowMs
    windowMs).mapErr .notApplied
  if fresh then
    let fingerprint := peer.fingerprint handler.crypto
    let _ ← (HostState.removePeers handler.codec handler.crypto state
      (.fingerprintPrefix fingerprint.toHex)).mapErr .notApplied
    match recordUnpair handler.crypto audit handler.context peer .peer with
    | (.ok (), audit) => pure (⟨fingerprint, none⟩, audit)
    | (.error e, audit) => pure (⟨fingerprint, some e⟩, audit)
  else FileM.throw (.rejected .replayedNonce)

/-- `RevocationHandler::apply` with its clock reading: verify a revocation and, if it holds, remove
the peer's pin. -/
def applyRevocation (handler : RevocationHandler) (body : PairRevokeBody) (peer : PinnedPeer)
    (peerDeviceId : Uuid) (nowMs : Int64) (audit : AuditLog) :
    FileM RevocationRefusal (AppliedRevocation × AuditLog) := do
  let nonce ← FileM.mapErr (FileM.ofExcept (verifyRevocation handler.crypto body
    ⟨peer, peerDeviceId, handler.hostDeviceId, nowMs⟩)) .rejected
  removePin handler peer nonce body.issuedAt nowMs REVOKE_CLOCK_WINDOW audit

/-! ### Atomicity -/

/-- A reader of the target file finds the state `file`. -/
def OnDisk (handler : RevocationHandler) (target : Option Bytes) (file : StateFile) : Prop :=
  ∃ bytes, target = some bytes ∧ parseState handler.codec handler.crypto bytes = .ok file

theorem OnDisk.unique {handler : RevocationHandler} {target : Option Bytes} {file file' : StateFile}
    (h : OnDisk handler target file) (h' : OnDisk handler target file') : file = file' := by
  obtain ⟨bytes, htarget, hparse⟩ := h
  obtain ⟨bytes', htarget', hparse'⟩ := h'
  cases htarget.symm.trans htarget'
  cases hparse.symm.trans hparse'
  rfl

/-- What a valid state is saved as, a reader finds again. -/
theorem onDisk_encode {handler : RevocationHandler} (hcodec : handler.codec.Lawful)
    {file : StateFile} {body : Bytes} (hencode : handler.codec.encode file = .ok body)
    (hvalid : file.Valid handler.crypto) : OnDisk handler (some body) file :=
  ⟨body, rfl, parseState_encode hcodec hencode hvalid⟩

theorem OnDisk.valid {handler : RevocationHandler} (hcodec : handler.codec.Lawful)
    {target : Option Bytes} {file : StateFile} (h : OnDisk handler target file) :
    file.Valid handler.crypto := by
  obtain ⟨bytes, -, hparse⟩ := h
  exact parseState_valid hcodec hparse

variable (handler : RevocationHandler) (peer : PinnedPeer) (nonce : Key32)
  (issuedAtMs nowMs windowMs : Int64) (audit : AuditLog)

/-- The three ways the critical section can go: it ends before the first save has taken effect; it
ends between the two saves, and not with a rejection; or both saves take effect and it succeeds. -/
theorem removePin_cases (w : World) :
    let answer := removePin handler peer nonce issuedAtMs nowMs windowMs audit w
    (Keeps w answer.2 ∧ ∀ applied, answer.1 ≠ .ok applied) ∨
    ∃ before body₁, OnDisk handler w.disk.target before ∧ before.hasNonce nonce = false ∧
      handler.codec.encode (before.recordNonce nonce issuedAtMs nowMs windowMs) = .ok body₁ ∧
      ((Replaces w answer.2 body₁ ∧ (∀ applied, answer.1 ≠ .ok applied) ∧
          ∀ reason, answer.1 ≠ .err (.rejected reason)) ∨
        ∃ w₁ body₂, Replaces w w₁ body₁ ∧
          handler.codec.encode ((before.recordNonce nonce issuedAtMs nowMs windowMs).dropPeers
            handler.crypto (.fingerprintPrefix (peer.fingerprint handler.crypto).toHex)) =
              .ok body₂ ∧
          Replaces w₁ answer.2 body₂ ∧ ∃ applied, answer.1 = .ok applied) := by
  intro answer
  have hload := attempt_mapErr (HostState.attempt_load handler.codec handler.crypto w)
    RevocationRefusal.notApplied
  obtain ⟨before, w₀, hrun₀, hkeeps₀, bytes, htarget, hparse⟩ | ⟨e, w₀, hrun₀, hkeeps₀⟩ |
    ⟨w₀, hrun₀, hkeeps₀⟩ := hload.cases
  · -- the file was read: now the nonce
    have hconsume := attempt_mapErr (HostState.attempt_consumeRevocationNonce handler.codec before
      nonce issuedAtMs nowMs windowMs w₀) RevocationRefusal.notApplied
    obtain ⟨consumed, w₁, hrun₁, ⟨-, rfl, rfl⟩ | ⟨hnonce, rfl, body₁, hencode₁, hreplaces₁⟩⟩ |
      ⟨e, w₁, hrun₁, hkeeps₁⟩ | ⟨w₁, hrun₁, hkeeps₁⟩ := hconsume.cases
    · left
      have hanswer : answer = (.err (.rejected .replayedNonce), w₁) := by
        simp [answer, removePin, FileM.bind_run, hrun₀, hrun₁, FileM.throw_run]
      rw [hanswer]
      exact ⟨hkeeps₀, by simp⟩
    · -- the nonce is on disk: now the pin
      right
      refine ⟨before, body₁, ⟨bytes, htarget, hparse⟩, hnonce, hencode₁, ?_⟩
      have hreplaces := hkeeps₀.replaces hreplaces₁
      have hremove := attempt_mapErr (HostState.attempt_removePeers handler.codec handler.crypto
        (before.recordNonce nonce issuedAtMs nowMs windowMs)
        (.fingerprintPrefix (peer.fingerprint handler.crypto).toHex) w₁)
        RevocationRefusal.notApplied
      obtain ⟨removed, w₂, hrun₂, body₂, hencode₂, hreplaces₂⟩ | ⟨e, w₂, hrun₂, hkeeps₂⟩ |
        ⟨w₂, hrun₂, hkeeps₂⟩ := hremove.cases
      · right
        refine ⟨w₁, body₂, hreplaces, hencode₂, ?_⟩
        have hanswer : ∃ applied, answer = (.ok applied, w₂) := by
          simp only [answer, removePin, FileM.bind_run, hrun₀, hrun₁, hrun₂, if_true]
          -- the removal is reported as done whether or not its record landed
          rcases recordUnpair handler.crypto audit handler.context peer .peer with ⟨e | _, audit'⟩
          · exact ⟨_, rfl⟩
          · exact ⟨_, rfl⟩
        obtain ⟨applied, hanswer⟩ := hanswer
        rw [hanswer]
        exact ⟨hreplaces₂, applied, rfl⟩
      · left
        obtain ⟨source, rfl⟩ := FileM.mapErr_eq_err hrun₂
        have hanswer : answer = (.err (.notApplied source), w₂) := by
          simp [answer, removePin, FileM.bind_run, hrun₀, hrun₁, hrun₂]
        rw [hanswer]
        exact ⟨hreplaces.keeps hkeeps₂, by simp, by simp⟩
      · left
        have hanswer : answer = (.died, w₂) := by
          simp [answer, removePin, FileM.bind_run, hrun₀, hrun₁, hrun₂]
        rw [hanswer]
        exact ⟨hreplaces.keeps hkeeps₂, by simp, by simp⟩
    · left
      have hanswer : answer = (.err e, w₁) := by
        simp [answer, removePin, FileM.bind_run, hrun₀, hrun₁]
      rw [hanswer]
      exact ⟨hkeeps₀.trans hkeeps₁, by simp⟩
    · left
      have hanswer : answer = (.died, w₁) := by
        simp [answer, removePin, FileM.bind_run, hrun₀, hrun₁]
      rw [hanswer]
      exact ⟨hkeeps₀.trans hkeeps₁, by simp⟩
  · left
    have hanswer : answer = (.err e, w₀) := by
      simp [answer, removePin, FileM.bind_run, hrun₀]
    rw [hanswer]
    exact ⟨hkeeps₀, by simp⟩
  · left
    have hanswer : answer = (.died, w₀) := by
      simp [answer, removePin, FileM.bind_run, hrun₀]
    rw [hanswer]
    exact ⟨hkeeps₀, by simp⟩

/-- What a reader can find on the disk while, and after, the critical section runs: the file as it
was, or a file that has the nonce recorded. -/
theorem removePin_trail {handler : RevocationHandler} (hcodec : handler.codec.Lawful)
    (disk : Disk) (faults : List Fault) :
    ∀ d ∈ (removePin handler peer nonce issuedAtMs nowMs windowMs audit
        (World.start disk faults)).2.trail,
      d.target ≠ disk.target → ∃ file, OnDisk handler d.target file ∧ file.hasNonce nonce := by
  intro d hd hne
  -- A state on the trail is the one at the start, one with the target of before a save, or one with
  -- the target that a save has put there.
  rcases removePin_cases handler peer nonce issuedAtMs nowMs windowMs audit
    (World.start disk faults) with
    ⟨hkeeps, -⟩ | ⟨before, body₁, hbefore, -, hencode₁, ⟨hreplaces, -⟩ |
      ⟨w₁, body₂, hreplaces₁, hencode₂, hreplaces₂, -⟩⟩
  · rcases hkeeps.trail d hd with hd | hd
    · exact absurd (World.target_of_mem_start hd) hne
    · exact absurd hd hne
  · have hvalid := (hbefore.valid hcodec).recordNonce nonce issuedAtMs nowMs windowMs
    rcases hreplaces.trail d hd with hd | hd | hd
    · exact absurd (World.target_of_mem_start hd) hne
    · exact absurd hd hne
    · exact ⟨_, hd ▸ onDisk_encode hcodec hencode₁ hvalid, StateFile.hasNonce_recordNonce ..⟩
  · have hvalid₁ := (hbefore.valid hcodec).recordNonce nonce issuedAtMs nowMs windowMs
    have hvalid₂ := hvalid₁.dropPeers
      (.fingerprintPrefix (peer.fingerprint handler.crypto).toHex)
    have hrecorded := onDisk_encode hcodec hencode₁ hvalid₁
    rcases hreplaces₂.trail d hd with hd | hd | hd
    · rcases hreplaces₁.trail d hd with hd | hd | hd
      · exact absurd (World.target_of_mem_start hd) hne
      · exact absurd hd hne
      · exact ⟨_, hd ▸ hrecorded, StateFile.hasNonce_recordNonce ..⟩
    · rw [hreplaces₁.target] at hd
      exact ⟨_, hd ▸ hrecorded, StateFile.hasNonce_recordNonce ..⟩
    · refine ⟨_, hd ▸ onDisk_encode hcodec hencode₂ hvalid₂, ?_⟩
      rw [StateFile.hasNonce_dropPeers, StateFile.hasNonce_recordNonce]

/-- When the critical section succeeds, the file on disk is the old one with the nonce recorded and
the fingerprint's peers removed. -/
theorem removePin_ok {handler : RevocationHandler} (hcodec : handler.codec.Lawful) {w : World}
    {applied : AppliedRevocation × AuditLog}
    (h : (removePin handler peer nonce issuedAtMs nowMs windowMs audit w).1 = .ok applied) :
    ∃ before, OnDisk handler w.disk.target before ∧
      OnDisk handler (removePin handler peer nonce issuedAtMs nowMs windowMs audit w).2.disk.target
        ((before.recordNonce nonce issuedAtMs nowMs windowMs).dropPeers handler.crypto
          (.fingerprintPrefix (peer.fingerprint handler.crypto).toHex)) := by
  rcases removePin_cases handler peer nonce issuedAtMs nowMs windowMs audit w with
    ⟨-, hnot⟩ |
      ⟨before, body₁, hbefore, -, -, ⟨-, hnot, -⟩ | ⟨w₁, body₂, -, hencode₂, hreplaces₂, -⟩⟩
  · exact absurd h (hnot applied)
  · exact absurd h (hnot applied)
  · refine ⟨before, hbefore, hreplaces₂.target ▸ onDisk_encode hcodec hencode₂ ?_⟩
    exact ((hbefore.valid hcodec).recordNonce nonce issuedAtMs nowMs windowMs).dropPeers _

/-- When the critical section answers with a refusal, the file on disk is the old one, or the old
one with the nonce, which was not there, recorded. -/
theorem removePin_err {handler : RevocationHandler} (hcodec : handler.codec.Lawful) {w : World}
    {refusal : RevocationRefusal}
    (h : (removePin handler peer nonce issuedAtMs nowMs windowMs audit w).1 = .err refusal) :
    (removePin handler peer nonce issuedAtMs nowMs windowMs audit w).2.disk.target =
        w.disk.target ∨
      ∃ before, OnDisk handler w.disk.target before ∧ before.hasNonce nonce = false ∧
        OnDisk handler
          (removePin handler peer nonce issuedAtMs nowMs windowMs audit w).2.disk.target
          (before.recordNonce nonce issuedAtMs nowMs windowMs) := by
  rcases removePin_cases handler peer nonce issuedAtMs nowMs windowMs audit w with
    ⟨hkeeps, -⟩ | ⟨before, body₁, hbefore, hnonce, hencode₁, ⟨hreplaces, -⟩ |
      ⟨w₁, body₂, -, -, -, applied, hok⟩⟩
  · exact .inl hkeeps.target
  · refine .inr ⟨before, hbefore, hnonce, hreplaces.target ▸ onDisk_encode hcodec hencode₁ ?_⟩
    exact (hbefore.valid hcodec).recordNonce nonce issuedAtMs nowMs windowMs
  · exact absurd (hok.symm.trans h) (by simp)

/-- **Crash and error atomicity of `pair.revoke`**, for every file on disk, every revocation and
every pattern of failing operations and deaths.

When the call succeeds, the file has lost exactly the peers with the revoked fingerprint, has the
nonce recorded, and is otherwise as it was.  When the call answers with a refusal, the peers on disk
are what they were, and the whole file is when verification refused the message or its nonce was
already recorded.  And in every state the disk was in, the file was as it had been or had the nonce
recorded: the pin is never gone before the nonce is on disk. -/
theorem applyRevocation_atomic (handler : RevocationHandler) (hcodec : handler.codec.Lawful)
    (body : PairRevokeBody) (peer : PinnedPeer) (peerDeviceId : Uuid) (nowMs : Int64)
    (audit : AuditLog) (disk : Disk) (faults : List Fault) :
    let answer := applyRevocation handler body peer peerDeviceId nowMs audit
      (World.start disk faults)
    let verdict := verifyRevocation handler.crypto body
      ⟨peer, peerDeviceId, handler.hostDeviceId, nowMs⟩
    (∀ applied, answer.1 = .ok applied →
      ∃ before after nonce, OnDisk handler disk.target before ∧
        OnDisk handler answer.2.disk.target after ∧ verdict = .ok nonce ∧ after.hasNonce nonce ∧
        after.peers = before.peers.filter
          (fun p => p.fingerprint handler.crypto ≠ peer.fingerprint handler.crypto) ∧
        after.relay = before.relay ∧ after.deviceId = before.deviceId ∧
        after.displayName = before.displayName) ∧
    (∀ refusal, answer.1 = .err refusal →
      (∀ before, OnDisk handler disk.target before →
        ∃ after, OnDisk handler answer.2.disk.target after ∧ after.peers = before.peers) ∧
      ((∀ before, ¬OnDisk handler disk.target before) → answer.2.disk.target = disk.target) ∧
      (∀ reason, verdict = .error reason → answer.2.disk.target = disk.target) ∧
      (∀ nonce before, verdict = .ok nonce → OnDisk handler disk.target before →
        before.hasNonce nonce → answer.2.disk.target = disk.target)) ∧
    (∀ d ∈ answer.2.trail, d.target ≠ disk.target →
      ∃ file nonce, OnDisk handler d.target file ∧ verdict = .ok nonce ∧ file.hasNonce nonce) := by
  intro answer verdict
  cases hverdict : verdict with
  | error reason =>
      have hanswer : answer = (.err (.rejected reason), World.start disk faults) := by
        simp only [verdict] at hverdict
        simp only [answer, applyRevocation, FileM.bind_run, hverdict]
        rfl
      rw [hanswer]
      refine ⟨by simp, ?_, ?_⟩
      · intro refusal _
        exact ⟨fun before hbefore => ⟨before, hbefore, rfl⟩, fun _ => rfl, fun _ _ => rfl,
          fun _ _ _ _ _ => rfl⟩
      · intro d hd hne
        exact absurd (World.target_of_mem_start hd) hne
  | ok nonce =>
      have hanswer : answer = removePin handler peer nonce body.issuedAt nowMs REVOKE_CLOCK_WINDOW
          audit (World.start disk faults) := by
        simp only [verdict] at hverdict
        simp only [answer, applyRevocation, FileM.bind_run, hverdict]
        rfl
      rw [hanswer]
      refine ⟨?_, ?_, ?_⟩
      · intro applied happlied
        obtain ⟨before, hbefore, hafter⟩ := removePin_ok peer nonce body.issuedAt nowMs
          REVOKE_CLOCK_WINDOW audit hcodec happlied
        refine ⟨before, _, nonce, hbefore, hafter, rfl, ?_, ?_, rfl, rfl, rfl⟩
        · rw [StateFile.hasNonce_dropPeers, StateFile.hasNonce_recordNonce]
        · exact StateFile.peers_dropPeers_fingerprint ..
      · intro refusal hrefusal
        rcases removePin_err peer nonce body.issuedAt nowMs REVOKE_CLOCK_WINDOW audit hcodec
          hrefusal with hsame | ⟨before, hbefore, hnonce, hafter⟩
        · rw [hsame]
          exact ⟨fun before hbefore => ⟨before, hbefore, rfl⟩, fun _ => rfl, fun _ _ => rfl,
            fun _ _ _ _ _ => rfl⟩
        · refine ⟨?_, fun hnone => absurd hbefore (hnone before), by simp, ?_⟩
          · intro before' hbefore'
            cases hbefore.unique hbefore'
            exact ⟨_, hafter, rfl⟩
          · intro nonce' before' hnonce' hbefore' hrecorded
            cases hnonce'
            cases hbefore.unique hbefore'
            rw [hnonce] at hrecorded
            cases hrecorded
      · intro d hd hne
        obtain ⟨file, hfile, hrecorded⟩ := removePin_trail peer nonce body.issuedAt nowMs
          REVOKE_CLOCK_WINDOW audit hcodec disk faults d hd hne
        exact ⟨file, nonce, hfile, rfl, hrecorded⟩

/-- A codec for the states of a table, each encoded by its position in unary. -/
def tableCodec (states : List StateFile) : StateCodec where
  probeVersion bytes :=
    match states[bytes.length]? with
    | none => .error ⟨"not in the table"⟩
    | some file => .ok file.version
  decode bytes :=
    match states[bytes.length]? with
    | none => .error ⟨"not in the table"⟩
    | some file => .ok file
  encode file :=
    if file ∈ states then .ok (List.replicate (states.idxOf file) 0)
    else .error ⟨"not in the table"⟩

theorem tableCodec_lawful (states : List StateFile) : (tableCodec states).Lawful := by
  constructor
  · intro file bytes h
    simp only [tableCodec] at h
    split at h
    · rename_i hmem
      cases h
      simp [tableCodec, hmem]
    · cases h
  · intro file bytes h
    simp only [tableCodec] at h ⊢
    split at h
    · cases h
    · cases h
      rfl

/-- Stand-ins for the primitives: the hash keeps the last bytes, and every signature verifies. -/
def toyCrypto : Crypto where
  sha256 bytes := ⟨(bytes.reverse ++ List.replicate 32 0).take 32, by simp⟩
  ed25519Key _ := true
  ed25519Verify _ _ _ := true
  p256Key _ := true
  p256Signature _ := true
  p256Verify _ _ _ := true

/-- A peer whose keys are all `b`. -/
def toyPeer (b : UInt8) : PairedPeer :=
  ⟨⟨.ed25519, List.replicate 32 b, ⟨List.replicate 32 b, by simp⟩, List.replicate 64 b⟩, none, 0⟩

def toyUuid (b : UInt8) : Uuid := ⟨List.replicate 16 b, by simp⟩

def toyNonce (b : UInt8) : Key32 := ⟨List.replicate 32 b, by simp⟩

/-- A revocation by the device `b` of itself, with a nonce of its own. -/
def toyRevocation (b : UInt8) (issuedAt : Int64) : PairRevokeBody :=
  ⟨toyUuid b, toyUuid b, issuedAt, toyNonce b, List.replicate 64 b⟩

/-- A file with the peers 1 and 2 pinned. -/
def toyFile : StateFile := ⟨STATE_VERSION, toyUuid 9, "host", none, [toyPeer 1, toyPeer 2], []⟩

/-- A handler whose codec knows the file and the two states that a revocation by the peer 1 at time
1000 leaves. -/
def toyHandler : RevocationHandler :=
  ⟨tableCodec [toyFile, toyFile.recordNonce (toyNonce 1) 1000 1000 REVOKE_CLOCK_WINDOW,
    (toyFile.recordNonce (toyNonce 1) 1000 1000 REVOKE_CLOCK_WINDOW).dropPeers toyCrypto
      (.fingerprintPrefix ((toyPeer 1).fingerprint toyCrypto).toHex)],
    toyCrypto, toyUuid 9, ⟨"lan-only", "host"⟩⟩

/-- The rename of the second save fails: the peers on disk are the two of before. -/
theorem applyRevocation_atomic_second_rename :
    ∃ after, OnDisk toyHandler (applyRevocation toyHandler (toyRevocation 1 1000) (toyPeer 1).pinned
        (toyUuid 1) 1000 ⟨[], []⟩ (World.start ⟨some [], none⟩
          (List.replicate 10 .proceed ++ [.fail .other 0]))).2.disk.target after ∧
      after.peers = [toyPeer 1, toyPeer 2] := by
  have hbefore : OnDisk toyHandler (some []) toyFile := ⟨[], rfl, by decide⟩
  have hanswer : (applyRevocation toyHandler (toyRevocation 1 1000) (toyPeer 1).pinned (toyUuid 1)
      1000 ⟨[], []⟩ (World.start ⟨some [], none⟩
        (List.replicate 10 .proceed ++ [.fail .other 0]))).1 =
      .err (.notApplied (.couldNotSave .rename .other)) := by
    decide
  have h := applyRevocation_atomic toyHandler (tableCodec_lawful _) (toyRevocation 1 1000)
    (toyPeer 1).pinned (toyUuid 1) 1000 ⟨[], []⟩ ⟨some [], none⟩
    (List.replicate 10 .proceed ++ [.fail .other 0])
  exact (h.2.1 _ hanswer).1 toyFile hbefore

end Osprey
