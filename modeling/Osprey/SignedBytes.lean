/-
**What the phone signs and what it verifies.**

`SignedBytes.swift` and `IdentityVerifier.swift`, beside `pairing/revoke.rs`, `identity.rs` and
`identity/algorithm.rs`.  The layouts have no length prefixes: every field but one is of fixed
width, and the two kinds of messages part in their contexts.  The two verifiers make the same
checks, not all in the same order, so they can refuse for different reasons but not differ in what
they accept.

`CryptoKit` is a parameter, as the primitives of the agent are.

Main definitions:

* `Osprey.SignedBytes.revocation`, `Osprey.SignedBytes.crossCertificate` — the phone's layouts;
* `Osprey.CryptoKit`, `Osprey.CryptoKit.Agrees` — the phone's primitives, and that they are the
  agent's;
* `Osprey.IdentityVerifier.verify`, `Osprey.IdentityVerifier.verifyCrossSignature`.

Main results:

* `Osprey.SignedBytes.revocation_eq`, `Osprey.SignedBytes.crossCertificate_eq` — the layouts agree;
* `Osprey.SignedBytes.revocation_injective`, `Osprey.SignedBytes.crossCertificate_injective` — and
  can be read in one way only;
* `Osprey.IdentityVerifier.verify_iff` — both sides accept the same;
* `Osprey.signed_bytes_agree` — **all of it together**.
-/

import Osprey.Revocation

set_option relaxedAutoImplicit false
set_option autoImplicit false

namespace Osprey

/-! ### The bytes -/

/-- `Int64.bigEndian` on a little-endian machine: the lowest byte becomes the highest. -/
def bigEndian (value : BitVec 64) : BitVec 64 :=
  BitVec.ofNat 64 ((List.range 8).foldl (fun acc i => acc * 256 + value.toNat / 256 ^ i % 256) 0)

/-- `withUnsafeBytes(of:)`: the bytes in memory, the lowest first. -/
def unsafeBytes (value : BitVec 64) : Bytes :=
  (List.range 8).map fun i => UInt8.ofNat (value.toNat / 256 ^ i)

namespace SignedBytes

def crossCertificateContext : Bytes := ascii "osprey/cross-cert/noise-static/v1"

def revocationContext : Bytes := ascii "osprey/pair.revoke/v1"

def crossCertificate (identityPublicKey noiseStaticPublicKey : Bytes) : Bytes :=
  crossCertificateContext ++ identityPublicKey ++ noiseStaticPublicKey

def revocation (issuerDeviceId revokedDeviceId : Uuid) (issuedAtMilliseconds : Int64)
    (nonce : Bytes) : Bytes :=
  revocationContext ++ issuerDeviceId ++ revokedDeviceId ++
    unsafeBytes (bigEndian issuedAtMilliseconds.toBitVec) ++ nonce

end SignedBytes

/-! ### The verifier -/

/-- `CryptoKit`: which encodings are keys and signatures, and which signatures are valid. -/
structure CryptoKit where
  curve25519Key : Bytes → Bool
  curve25519Valid : Bytes → Bytes → Bytes → Bool
  p256Key : Bytes → Bool
  p256Signature : Bytes → Bool
  p256Valid : Bytes → Bytes → Bytes → Bool

/-- The primitives of the two platforms agree: on the encodings of keys, on those of signatures, and
on which signatures are valid. -/
structure CryptoKit.Agrees (kit : CryptoKit) (crypto : Crypto) : Prop where
  curve25519Key : ∀ key : Key32, kit.curve25519Key key = crypto.ed25519Key key
  curve25519Valid : ∀ (key : Key32) message signature,
    kit.curve25519Valid key message signature = crypto.ed25519Verify key message signature
  p256Key : ∀ key, kit.p256Key key = crypto.p256Key key
  p256Signature : ∀ signature, kit.p256Signature signature = crypto.p256Signature signature
  p256Valid : ∀ key message signature,
    kit.p256Valid key message signature = crypto.p256Verify key message signature

namespace IdentityVerifier

def ed25519KeyLength : ℕ := 32
def ed25519SignatureLength : ℕ := 64
def p256KeyLength : ℕ := 65
def sec1UncompressedTag : UInt8 := 0x04
def maxSignatureLength : ℕ := 128

def verifyEd25519 (kit : CryptoKit) (identityPublicKey message signature : Bytes) :
    Except CrossSignatureFailure Unit :=
  if identityPublicKey.length ≠ ed25519KeyLength then .error .badIdentityKey
  else if signature.length ≠ ed25519SignatureLength then .error .malformed
  else if ¬kit.curve25519Key identityPublicKey then .error .badIdentityKey
  else if ¬kit.curve25519Valid identityPublicKey message signature then .error .notSignedByIdentity
  else .ok ()

def verifyP256 (kit : CryptoKit) (identityPublicKey message signature : Bytes) :
    Except CrossSignatureFailure Unit :=
  if ¬(identityPublicKey.length = p256KeyLength ∧
      identityPublicKey.head? = some sec1UncompressedTag) then .error .badIdentityKey
  else if ¬kit.p256Key identityPublicKey then .error .badIdentityKey
  else if ¬kit.p256Signature signature then .error .malformed
  else if ¬kit.p256Valid identityPublicKey message signature then .error .notSignedByIdentity
  else .ok ()

def verify (kit : CryptoKit) (algorithm : IdentityAlgorithm)
    (identityPublicKey message signature : Bytes) : Except CrossSignatureFailure Unit :=
  if ¬signature.length ≤ maxSignatureLength then .error .malformed
  else
    match algorithm with
    | .ed25519 => verifyEd25519 kit identityPublicKey message signature
    | .p256 => verifyP256 kit identityPublicKey message signature
    | .unknown raw _ => .error (.unsupportedAlgorithm raw)

/-- Check that the Noise static was cross-signed by the identity key. -/
def verifyCrossSignature (kit : CryptoKit) (identity : PublicIdentity) :
    Except CrossSignatureFailure Unit :=
  verify kit identity.identityAlgorithm identity.identityPub
    (SignedBytes.crossCertificate identity.identityPub identity.noiseStaticPub)
    identity.noiseStaticSig

end IdentityVerifier

/-! ### The layouts agree and are unambiguous -/

theorem mul_add_div_pow {a b : ℕ} (hb : b < 256) (i : ℕ) :
    (a * 256 + b) / 256 ^ (i + 1) = a / 256 ^ i := by
  rw [Nat.pow_succ', ← Nat.div_div_eq_div_mul]
  congr 1
  omega

/-- A number is put together again from its bytes, the first of them the highest: byte `i` from
below is the one with so many after it. -/
theorem foldl_bytes_div (bytes : List ℕ) (hbytes : ∀ b ∈ bytes, b < 256) (acc i : ℕ)
    (hi : i < bytes.length) :
    bytes.foldl (fun acc b => acc * 256 + b) acc / 256 ^ i % 256
      = bytes.getD (bytes.length - 1 - i) 0 := by
  induction bytes using List.reverseRecOn generalizing i with
  | nil => exact absurd hi (Nat.not_lt_zero i)
  | append_singleton bytes b ih =>
      have hb : b < 256 := hbytes b (by simp)
      rw [List.foldl_append, List.foldl_cons, List.foldl_nil]
      cases i with
      | zero =>
          have hlow : (bytes.foldl (fun acc b => acc * 256 + b) acc * 256 + b) % 256 = b := by omega
          rw [pow_zero, Nat.div_one, hlow]
          simp
      | succ i =>
          rw [mul_add_div_pow hb]
          simp only [List.length_append, List.length_singleton] at hi ⊢
          rw [ih (fun b hmem => hbytes b (by simp [hmem])) i (by omega)]
          have hlt : bytes.length - 1 - i < bytes.length := by omega
          have hsub : bytes.length + 1 - 1 - (i + 1) = bytes.length - 1 - i := by omega
          rw [hsub, List.getD_eq_getElem?_getD, List.getD_eq_getElem?_getD,
            List.getElem?_append_left hlt]

theorem foldl_bytes_lt (bytes : List ℕ) (hbytes : ∀ b ∈ bytes, b < 256) :
    bytes.foldl (fun acc b => acc * 256 + b) 0 < 256 ^ bytes.length := by
  induction bytes using List.reverseRecOn with
  | nil => exact Nat.one_pos
  | append_singleton bytes b ih =>
      have hb : b < 256 := hbytes b (by simp)
      have hrest := ih fun b hmem => hbytes b (by simp [hmem])
      rw [List.foldl_append, List.foldl_cons, List.foldl_nil, List.length_append,
        List.length_singleton, Nat.pow_succ]
      omega

/-- The bytes of a swapped value in memory are those of the value, the highest first. -/
theorem unsafeBytes_bigEndian (value : Int64) :
    unsafeBytes (bigEndian value.toBitVec) = Saturating.toBeBytes value := by
  have hbytes : ∀ b ∈ (List.range 8).map fun i =>
      value.toBitVec.toNat / 256 ^ i % 256, b < 256 := by
    intro b hmem
    obtain ⟨i, -, rfl⟩ := List.mem_map.mp hmem
    exact Nat.mod_lt _ (by decide)
  have hswapped : (bigEndian value.toBitVec).toNat =
      ((List.range 8).map fun i => value.toBitVec.toNat / 256 ^ i % 256).foldl
        (fun acc b => acc * 256 + b) 0 := by
    have hlt := foldl_bytes_lt _ hbytes
    simp only [List.length_map, List.length_range] at hlt
    rw [bigEndian, BitVec.toNat_ofNat, List.foldl_map] at *
    exact Nat.mod_eq_of_lt (hlt.trans_eq (by decide))
  have hbyte : ∀ i < 8, UInt8.ofNat ((bigEndian value.toBitVec).toNat / 256 ^ i)
      = UInt8.ofNat (value.toBitVec.toNat / 256 ^ (7 - i)) := by
    intro i hi
    rw [← UInt8.toNat_inj, UInt8.toNat_ofNat', UInt8.toNat_ofNat', hswapped,
      show (2 : ℕ) ^ 8 = 256 from rfl, foldl_bytes_div _ hbytes 0 i (by simpa using hi)]
    have hlt : 7 - i < 8 := by omega
    simp [List.getD_eq_getElem?_getD, hlt]
  unfold unsafeBytes Saturating.toBeBytes
  simp only [List.range, List.range.loop, List.map_cons, List.map_nil, Nat.shiftRight_eq_div_pow]
  rw [hbyte 0 (by decide), hbyte 1 (by decide), hbyte 2 (by decide), hbyte 3 (by decide),
    hbyte 4 (by decide), hbyte 5 (by decide), hbyte 6 (by decide), hbyte 7 (by decide)]
  rfl

/-- Numbers with the same bytes are the same. -/
theorem eq_of_bytes (k : ℕ) {m n : ℕ} (hm : m < 256 ^ k) (hn : n < 256 ^ k)
    (h : ∀ i < k, m / 256 ^ i % 256 = n / 256 ^ i % 256) : m = n := by
  induction k generalizing m n with
  | zero =>
      rw [pow_zero] at hm hn
      omega
  | succ k ih =>
      have hlow := h 0 (Nat.succ_pos k)
      rw [pow_zero, Nat.div_one, Nat.div_one] at hlow
      rw [Nat.pow_succ] at hm hn
      have hhigh : m / 256 = n / 256 := by
        refine ih (by omega) (by omega) ?_
        intro i hi
        have hbyte := h (i + 1) (by omega)
        rw [Nat.pow_succ', ← Nat.div_div_eq_div_mul, ← Nat.div_div_eq_div_mul] at hbyte
        exact hbyte
      omega

theorem toBeBytes_injective : Function.Injective Saturating.toBeBytes := by
  intro a b h
  have hnat : a.toBitVec.toNat = b.toBitVec.toNat := by
    refine eq_of_bytes 8 a.toBitVec.isLt b.toBitVec.isLt ?_
    intro i hi
    have hbyte := congrArg (fun bytes => bytes[7 - i]?) h
    unfold Saturating.toBeBytes at hbyte
    have hcases : i = 0 ∨ i = 1 ∨ i = 2 ∨ i = 3 ∨ i = 4 ∨ i = 5 ∨ i = 6 ∨ i = 7 := by omega
    rcases hcases with rfl | rfl | rfl | rfl | rfl | rfl | rfl | rfl
    all_goals
      simp only [List.map_cons, List.map_nil, Nat.shiftRight_eq_div_pow] at hbyte
      simpa [← UInt8.toNat_inj] using hbyte
  exact Int64.toBitVec_inj.mp (BitVec.eq_of_toNat_eq hnat)

namespace SignedBytes

theorem revocation_eq (issuerDeviceId revokedDeviceId : Uuid) (issuedAt : Int64) (nonce : Key32) :
    revocation issuerDeviceId revokedDeviceId issuedAt nonce =
      revocationSigningBytes issuerDeviceId revokedDeviceId issuedAt nonce := by
  rw [revocation, revocationSigningBytes, unsafeBytes_bigEndian]
  rfl

theorem crossCertificate_eq (identityPub : Bytes) (noiseStaticPub : Key32) :
    crossCertificate identityPub noiseStaticPub = crossSigMessage identityPub noiseStaticPub := rfl

/-- Every field but the last is of fixed width, so a revocation can be read in one way only. -/
theorem revocation_injective {issuer issuer' revoked revoked' : Uuid} {issuedAt issuedAt' : Int64}
    {nonce nonce' : Bytes}
    (h : revocation issuer revoked issuedAt nonce = revocation issuer' revoked' issuedAt' nonce') :
    issuer = issuer' ∧ revoked = revoked' ∧ issuedAt = issuedAt' ∧ nonce = nonce' := by
  simp only [revocation, unsafeBytes_bigEndian, List.append_assoc, List.append_cancel_left_eq] at h
  obtain ⟨hissuer, h⟩ := List.append_inj h (issuer.2.trans issuer'.2.symm)
  obtain ⟨hrevoked, h⟩ := List.append_inj h (revoked.2.trans revoked'.2.symm)
  obtain ⟨hissued, hnonce⟩ := List.append_inj h rfl
  exact ⟨Subtype.ext hissuer, Subtype.ext hrevoked, toBeBytes_injective hissued, hnonce⟩

/-- The static is of fixed width and comes last, so a cross-certificate message can be read in one
way only, whatever the length of the identity key. -/
theorem crossCertificate_injective {identityPub identityPub' static static' : Bytes}
    (hlength : static.length = static'.length)
    (h : crossCertificate identityPub static = crossCertificate identityPub' static') :
    identityPub = identityPub' ∧ static = static' := by
  simp only [crossCertificate, List.append_assoc, List.append_cancel_left_eq] at h
  exact List.append_inj' h hlength

/-- The contexts differ in their eighth byte. -/
theorem revocation_ne_crossCertificate (issuer revoked : Uuid) (issuedAt : Int64)
    (nonce identityPub static : Bytes) :
    revocation issuer revoked issuedAt nonce ≠ crossCertificate identityPub static := by
  intro h
  have hbyte := congrArg (fun bytes => bytes[7]?) h
  simp only [revocation, crossCertificate, List.append_assoc] at hbyte
  rw [List.getElem?_append_left (by decide), List.getElem?_append_left (by decide)] at hbyte
  exact absurd hbyte (by decide)

end SignedBytes

/-! ### The verifiers agree -/

namespace IdentityVerifier

variable {kit : CryptoKit} {crypto : Crypto}

theorem verifyEd25519_iff (h : kit.Agrees crypto) (identityPub message signature : Bytes) :
    verifyEd25519 kit identityPub message signature = .ok () ↔
      Osprey.verifyEd25519 crypto identityPub message signature = .ok () := by
  unfold verifyEd25519 Osprey.verifyEd25519
  by_cases hkey : identityPub.length = ED25519_KEY_LEN
  · have hlength : ¬identityPub.length ≠ ed25519KeyLength := not_not.mpr hkey
    have hparse := h.curve25519Key ⟨identityPub, hkey⟩
    have hvalid := h.curve25519Valid ⟨identityPub, hkey⟩ message signature
    simp only at hparse hvalid
    rw [if_neg hlength, dif_pos hkey, hparse, hvalid]
    -- the length of the signature and the encoding of the key are looked at in either order
    by_cases hsignature : signature.length = ED25519_SIGNATURE_LEN
    · have hsignature' : ¬signature.length ≠ ed25519SignatureLength := not_not.mpr hsignature
      rw [if_neg hsignature', if_neg (not_not.mpr hsignature)]
      cases crypto.ed25519Key ⟨identityPub, hkey⟩ with
      | false => simp
      | true =>
          cases crypto.ed25519Verify ⟨identityPub, hkey⟩ message signature with
          | false => simp
          | true => simp
    · have hsignature' : signature.length ≠ ed25519SignatureLength := hsignature
      rw [if_pos hsignature', if_pos hsignature]
      cases crypto.ed25519Key ⟨identityPub, hkey⟩ with
      | false => simp
      | true => simp
  · have hlength : identityPub.length ≠ ed25519KeyLength := hkey
    rw [if_pos hlength, dif_neg hkey]
    simp

theorem verifyP256_iff (h : kit.Agrees crypto) (identityPub message signature : Bytes) :
    verifyP256 kit identityPub message signature = .ok () ↔
      Osprey.verifyP256 crypto identityPub message signature = .ok () := by
  unfold verifyP256 Osprey.verifyP256
  rw [h.p256Key, h.p256Signature, h.p256Valid]
  have hshape : ¬(identityPub.length = p256KeyLength ∧ identityPub.head? = some sec1UncompressedTag)
      ↔ identityPub.length ≠ P256_UNCOMPRESSED_KEY_LEN ∨
        identityPub.head? ≠ some SEC1_UNCOMPRESSED_TAG := not_and_or
  rw [if_congr hshape rfl rfl]
  split
  · simp
  · split
    · simp
    · split
      · simp
      · cases crypto.p256Verify identityPub message signature with
        | false => simp
        | true => simp

/-- **Both sides accept the same signatures.** -/
theorem verify_iff (h : kit.Agrees crypto) (algorithm : IdentityAlgorithm)
    (identityPub message signature : Bytes) :
    verify kit algorithm identityPub message signature = .ok () ↔
      verifyIdentitySignature crypto algorithm identityPub message signature = .ok () := by
  unfold verify verifyIdentitySignature
  have hlength : ¬signature.length ≤ maxSignatureLength ↔ MAX_SIGNATURE_LEN < signature.length :=
    not_le
  rw [if_congr hlength rfl rfl]
  split
  · simp
  · cases algorithm with
    | ed25519 => exact verifyEd25519_iff h identityPub message signature
    | p256 => exact verifyP256_iff h identityPub message signature
    | unknown raw unlisted => simp

end IdentityVerifier

/-- What is accepted is of an algorithm that the build knows, under a key of its length and tag, and
no longer than 128 bytes. -/
theorem verifyIdentitySignature_ok {crypto : Crypto} {algorithm : IdentityAlgorithm}
    {identityPub message signature : Bytes}
    (h : verifyIdentitySignature crypto algorithm identityPub message signature = .ok ()) :
    expectedKeyLen algorithm = some identityPub.length ∧
      (algorithm = .p256 → identityPub.head? = some SEC1_UNCOMPRESSED_TAG) ∧
      signature.length ≤ MAX_SIGNATURE_LEN := by
  unfold verifyIdentitySignature at h
  split at h
  · cases h
  · rename_i hlength
    cases algorithm with
    | ed25519 =>
        simp only [verifyEd25519] at h
        split at h
        · rename_i hkey
          exact ⟨congrArg some hkey.symm, nofun, not_lt.mp hlength⟩
        · cases h
    | p256 =>
        simp only [verifyP256] at h
        split at h
        · cases h
        · rename_i hshape
          rw [not_or, not_not, not_not] at hshape
          exact ⟨congrArg some hshape.1.symm, fun _ => hshape.2, not_lt.mp hlength⟩
    | unknown raw unlisted => cases h

/-- The agent's extra check of the key length refuses nothing that the signature check accepts. -/
theorem verifyCrossSignature_iff (crypto : Crypto) (algorithm : IdentityAlgorithm)
    (identityPub : Bytes) (noiseStaticPub : Key32) (signature : Bytes) :
    verifyCrossSignature crypto algorithm identityPub noiseStaticPub signature = .ok () ↔
      verifyIdentitySignature crypto algorithm identityPub
        (crossSigMessage identityPub noiseStaticPub) signature = .ok () := by
  unfold verifyCrossSignature
  cases hexpected : expectedKeyLen algorithm with
  | none => exact Iff.rfl
  | some expected =>
      simp only
      split
      · rename_i hne
        constructor
        · intro h
          cases h
        · intro h
          have hlength := (verifyIdentitySignature_ok h).1
          rw [hexpected] at hlength
          exact absurd (Option.some.inj hlength).symm hne
      · exact Iff.rfl

theorem IdentityVerifier.verifyCrossSignature_iff {kit : CryptoKit} {crypto : Crypto}
    (h : kit.Agrees crypto) (identity : PublicIdentity) :
    verifyCrossSignature kit identity = .ok () ↔ identity.verifySelfConsistent crypto = .ok () := by
  rw [PublicIdentity.verifySelfConsistent, Osprey.verifyCrossSignature_iff, ← verify_iff h]
  rfl

/-- **The two code bases sign and accept the same.**  Their layouts agree byte for byte; a
revocation and a cross-certificate message can each be read in one way only, and neither is the
other; and the two verifiers accept the same signatures and the same bundles, none of them of an
unknown algorithm, under a key of the wrong length or tag, or longer than 128 bytes. -/
theorem signed_bytes_agree {kit : CryptoKit} {crypto : Crypto} (h : kit.Agrees crypto) :
    ((∀ issuer revoked issuedAt (nonce : Key32),
      SignedBytes.revocation issuer revoked issuedAt nonce
        = revocationSigningBytes issuer revoked issuedAt nonce) ∧
      ∀ identityPub (static : Key32),
        SignedBytes.crossCertificate identityPub static = crossSigMessage identityPub static) ∧
    ((∀ issuer revoked issuedAt nonce issuer' revoked' issuedAt' nonce',
        SignedBytes.revocation issuer revoked issuedAt nonce
          = SignedBytes.revocation issuer' revoked' issuedAt' nonce' →
        issuer = issuer' ∧ revoked = revoked' ∧ issuedAt = issuedAt' ∧ nonce = nonce') ∧
      (∀ identityPub identityPub' (static static' : Key32),
        SignedBytes.crossCertificate identityPub static
          = SignedBytes.crossCertificate identityPub' static' →
        identityPub = identityPub' ∧ static = static') ∧
      ∀ issuer revoked issuedAt nonce identityPub static,
        SignedBytes.revocation issuer revoked issuedAt nonce
          ≠ SignedBytes.crossCertificate identityPub static) ∧
    (∀ algorithm identityPub message signature,
      (IdentityVerifier.verify kit algorithm identityPub message signature = .ok () ↔
        verifyIdentitySignature crypto algorithm identityPub message signature = .ok ()) ∧
      (verifyIdentitySignature crypto algorithm identityPub message signature = .ok () →
        expectedKeyLen algorithm = some identityPub.length ∧
          (algorithm = .p256 → identityPub.head? = some SEC1_UNCOMPRESSED_TAG) ∧
          signature.length ≤ MAX_SIGNATURE_LEN)) ∧
    ∀ identity : PublicIdentity, IdentityVerifier.verifyCrossSignature kit identity = .ok () ↔
      verifyCrossSignature crypto identity.identityAlgorithm identity.identityPub
        identity.noiseStaticPub identity.noiseStaticSig = .ok () := by
  refine ⟨⟨SignedBytes.revocation_eq, SignedBytes.crossCertificate_eq⟩, ⟨?_, ?_, ?_⟩, ?_, ?_⟩
  · intro issuer revoked issuedAt nonce issuer' revoked' issuedAt' nonce' heq
    exact SignedBytes.revocation_injective heq
  · intro identityPub identityPub' static static' heq
    obtain ⟨hkey, hstatic⟩ :=
      SignedBytes.crossCertificate_injective (static.2.trans static'.2.symm) heq
    exact ⟨hkey, Subtype.ext hstatic⟩
  · exact SignedBytes.revocation_ne_crossCertificate
  · intro algorithm identityPub message signature
    exact ⟨IdentityVerifier.verify_iff h algorithm identityPub message signature,
      verifyIdentitySignature_ok⟩
  · exact IdentityVerifier.verifyCrossSignature_iff h

/-- The phone's primitives that go with the agent's of `toyCrypto`. -/
def toyKit : CryptoKit where
  curve25519Key key := if h : key.length = 32 then toyCrypto.ed25519Key ⟨key, h⟩ else false
  curve25519Valid key message signature :=
    if h : key.length = 32 then toyCrypto.ed25519Verify ⟨key, h⟩ message signature else false
  p256Key := toyCrypto.p256Key
  p256Signature := toyCrypto.p256Signature
  p256Valid := toyCrypto.p256Verify

theorem signed_bytes_agree_toy :
    (SignedBytes.revocation (toyUuid 1) (toyUuid 2) 1000 (toyNonce 3)
      = revocationSigningBytes (toyUuid 1) (toyUuid 2) 1000 (toyNonce 3)) ∧
    IdentityVerifier.verifyCrossSignature toyKit
      ⟨.ed25519, List.replicate 32 1, toyNonce 1, List.replicate 64 1⟩ = .ok () := by
  obtain ⟨⟨hrevocation, -⟩, -, -, hcross⟩ := @signed_bytes_agree toyKit toyCrypto
    ⟨fun key => dif_pos key.2, fun key _ _ => dif_pos key.2, fun _ => rfl, fun _ => rfl,
      fun _ _ _ => rfl⟩
  exact ⟨hrevocation _ _ _ _, (hcross _).mpr rfl⟩

end Osprey
