/-
**Identity keys, cross-signatures and pins.**

`osprey-core/src/identity.rs` and `identity/algorithm.rs`.  A device is known by a long-lived
identity key, which vouches for the Diffie-Hellman static that Noise runs on.  The signature and
hash primitives belong to other crates and are parameters; the checks around them, with their
errors and their order, are the source's.

Main definitions:

* `Osprey.Crypto` — the primitives;
* `Osprey.verifyIdentitySignature`, `Osprey.verifyCrossSignature` — the checks;
* `Osprey.Fingerprint`, `Osprey.PinnedPeer` — what a host remembers of a peer.

Main results:

* `Osprey.Fingerprint.toHex_isPrefixOf_iff` — a full fingerprint text is a prefix of another one's
  only when the fingerprints are equal;
* `Osprey.PinnedPeer.pin_eq_ok` — a pin is made exactly of a bundle whose cross-signature verifies.
-/

import Osprey.Handshake

set_option relaxedAutoImplicit false
set_option autoImplicit false

namespace Osprey

/-- The bytes of an ASCII byte-string literal. -/
def ascii (text : String) : Bytes := text.toList.map fun c => UInt8.ofNat c.toNat

/-- `osprey_proto::IdentityAlgorithm`.  A value read off the wire is `unknown` only when it is
none of the listed names. -/
inductive IdentityAlgorithm
  | ed25519
  | p256
  | unknown (raw : String) (unlisted : raw ∉ ["ed25519", "p256"])
  deriving DecidableEq, Repr

def IdentityAlgorithm.asStr : IdentityAlgorithm → String
  | ed25519 => "ed25519"
  | p256 => "p256"
  | unknown raw _ => raw

/-- The primitives of `sha2`, `ed25519_dalek` and `p256`: the hash, which encodings are keys and
signatures, and which signatures verify. -/
structure Crypto where
  sha256 : Bytes → Key32
  ed25519Key : Key32 → Bool
  ed25519Verify : Key32 → Bytes → Bytes → Bool
  p256Key : Bytes → Bool
  p256Signature : Bytes → Bool
  p256Verify : Bytes → Bytes → Bytes → Bool

def CROSS_SIG_CONTEXT : Bytes := ascii "osprey/cross-cert/noise-static/v1"
def FINGERPRINT_CONTEXT : Bytes := ascii "osprey/fingerprint/identity/v1"

def ED25519_KEY_LEN : ℕ := 32
def ED25519_SIGNATURE_LEN : ℕ := 64
def P256_UNCOMPRESSED_KEY_LEN : ℕ := 65
def SEC1_UNCOMPRESSED_TAG : UInt8 := 0x04
def MAX_SIGNATURE_LEN : ℕ := 128

/-! ### Signatures -/

def verifyEd25519 (crypto : Crypto) (identityPub message signature : Bytes) : Except Error Unit :=
  if hkey : identityPub.length = ED25519_KEY_LEN then
    if ¬crypto.ed25519Key ⟨identityPub, hkey⟩ then .error (.crossSignature .badIdentityKey)
    else if signature.length ≠ ED25519_SIGNATURE_LEN then .error (.crossSignature .malformed)
    else if crypto.ed25519Verify ⟨identityPub, hkey⟩ message signature then .ok ()
    else .error (.crossSignature .notSignedByIdentity)
  else .error (.crossSignature .badIdentityKey)

def verifyP256 (crypto : Crypto) (identityPub message signature : Bytes) : Except Error Unit :=
  if identityPub.length ≠ P256_UNCOMPRESSED_KEY_LEN ∨
      identityPub.head? ≠ some SEC1_UNCOMPRESSED_TAG then
    .error (.crossSignature .badIdentityKey)
  else if ¬crypto.p256Key identityPub then .error (.crossSignature .badIdentityKey)
  else if ¬crypto.p256Signature signature then .error (.crossSignature .malformed)
  else if crypto.p256Verify identityPub message signature then .ok ()
  else .error (.crossSignature .notSignedByIdentity)

/-- Verify `signature` over `message` under a peer's identity key. -/
def verifyIdentitySignature (crypto : Crypto) (algorithm : IdentityAlgorithm)
    (identityPub message signature : Bytes) : Except Error Unit :=
  if MAX_SIGNATURE_LEN < signature.length then .error (.crossSignature .malformed)
  else
    match algorithm with
    | .ed25519 => verifyEd25519 crypto identityPub message signature
    | .p256 => verifyP256 crypto identityPub message signature
    | .unknown raw _ => .error (.crossSignature (.unsupportedAlgorithm raw))

/-- How long a public key must be, or `none` for an algorithm this build does not know. -/
def expectedKeyLen : IdentityAlgorithm → Option ℕ
  | .ed25519 => some ED25519_KEY_LEN
  | .p256 => some P256_UNCOMPRESSED_KEY_LEN
  | .unknown .. => none

def crossSigMessage (identityPub : Bytes) (noiseStaticPub : Key32) : Bytes :=
  CROSS_SIG_CONTEXT ++ identityPub ++ noiseStaticPub

/-- Verify that `noiseStaticPub` was cross-signed by `identityPub`. -/
def verifyCrossSignature (crypto : Crypto) (algorithm : IdentityAlgorithm) (identityPub : Bytes)
    (noiseStaticPub : Key32) (signature : Bytes) : Except Error Unit :=
  match expectedKeyLen algorithm with
  | some expected =>
      if identityPub.length ≠ expected then .error (.crossSignature .badIdentityKey)
      else verifyIdentitySignature crypto algorithm identityPub
        (crossSigMessage identityPub noiseStaticPub) signature
  | none => verifyIdentitySignature crypto algorithm identityPub
      (crossSigMessage identityPub noiseStaticPub) signature

/-! ### Fingerprints -/

/-- A hash of an identity key together with its algorithm. -/
abbrev Fingerprint := Key32

def hexDigit (n : ℕ) : Char := "0123456789abcdef".toList.getD n '0'

/-- `hex::encode`. -/
def hexEncode (bytes : Bytes) : List Char :=
  bytes.flatMap fun b => [hexDigit (b.toNat / 16), hexDigit (b.toNat % 16)]

theorem length_hexEncode (bytes : Bytes) : (hexEncode bytes).length = 2 * bytes.length := by
  induction bytes with
  | nil => rfl
  | cons b bytes ih =>
      simp only [hexEncode, List.flatMap_cons, List.length_append, List.length_cons,
        List.length_nil] at ih ⊢
      omega

theorem hexDigit_injective : ∀ m < 16, ∀ n < 16, hexDigit m = hexDigit n → m = n := by decide

theorem hexEncode_injective : Function.Injective hexEncode := by
  intro xs ys h
  induction xs generalizing ys with
  | nil =>
      cases ys with
      | nil => rfl
      | cons y ys => simp [hexEncode] at h
  | cons x xs ih =>
      cases ys with
      | nil => simp [hexEncode] at h
      | cons y ys =>
          simp only [hexEncode, List.flatMap_cons, List.cons_append, List.nil_append,
            List.cons.injEq] at h
          obtain ⟨hhigh, hlow, hrest⟩ := h
          have hx := x.toNat_lt
          have hy := y.toNat_lt
          have hdiv := hexDigit_injective (x.toNat / 16) (by omega) (y.toNat / 16) (by omega) hhigh
          have hmod := hexDigit_injective (x.toNat % 16) (by omega) (y.toNat % 16) (by omega) hlow
          have hxy : x = y := UInt8.toNat.inj (by omega)
          rw [hxy, ih hrest]

namespace Fingerprint

def ofIdentity (crypto : Crypto) (algorithm : IdentityAlgorithm) (identityPub : Bytes) :
    Fingerprint :=
  crypto.sha256 (FINGERPRINT_CONTEXT ++ algorithm.asStr.toUTF8.data.toList ++ [0] ++ identityPub)

/-- `Display for Fingerprint`. -/
def toHex (fingerprint : Fingerprint) : List Char := hexEncode fingerprint

/-- **A full fingerprint text selects one fingerprint.**  All texts have 64 characters, so one is a
prefix of another only when they are equal. -/
theorem toHex_isPrefixOf_iff (a b : Fingerprint) : a.toHex.isPrefixOf b.toHex ↔ b = a := by
  have ha : a.toHex.length = b.toHex.length := by
    simp only [toHex, length_hexEncode, a.property, b.property]
  rw [List.isPrefixOf_iff_prefix]
  constructor
  · intro h
    exact Subtype.ext (hexEncode_injective (h.eq_of_length ha).symm)
  · rintro rfl
    exact List.prefix_rfl

end Fingerprint

/-! ### Pins -/

/-- What crosses the wire, what goes in the QR code, and what a peer pins. -/
structure PublicIdentity where
  identityAlgorithm : IdentityAlgorithm
  identityPub : Bytes
  noiseStaticPub : Key32
  noiseStaticSig : Bytes
  deriving DecidableEq, Repr

def PublicIdentity.verifySelfConsistent (crypto : Crypto) (p : PublicIdentity) :
    Except Error Unit :=
  verifyCrossSignature crypto p.identityAlgorithm p.identityPub p.noiseStaticPub p.noiseStaticSig

/-- A peer whose identity key has been pinned at pairing. -/
structure PinnedPeer where
  identityAlgorithm : IdentityAlgorithm
  identityPub : Bytes
  noiseStaticPub : Key32
  noiseStaticSig : Bytes
  deriving DecidableEq, Repr

namespace PinnedPeer

/-- Pin a peer seen for the first time, after checking its cross-certificate. -/
def pin (crypto : Crypto) (p : PublicIdentity) : Except Error PinnedPeer :=
  match p.verifySelfConsistent crypto with
  | .error e => .error e
  | .ok () => .ok ⟨p.identityAlgorithm, p.identityPub, p.noiseStaticPub, p.noiseStaticSig⟩

/-- Re-check a pin that was reconstituted from storage. -/
def verify (crypto : Crypto) (p : PinnedPeer) : Except Error Unit :=
  verifyCrossSignature crypto p.identityAlgorithm p.identityPub p.noiseStaticPub p.noiseStaticSig

def fingerprint (crypto : Crypto) (p : PinnedPeer) : Fingerprint :=
  Fingerprint.ofIdentity crypto p.identityAlgorithm p.identityPub

def matchesHandshakeStatic (p : PinnedPeer) (remoteStatic : Key32) : Bool :=
  remoteStatic = p.noiseStaticPub

/-- A pin is made exactly of a bundle whose cross-signature verifies, and copies it. -/
theorem pin_eq_ok {crypto : Crypto} {p : PublicIdentity} {peer : PinnedPeer} :
    pin crypto p = .ok peer ↔ peer.verify crypto = .ok () ∧
      peer = ⟨p.identityAlgorithm, p.identityPub, p.noiseStaticPub, p.noiseStaticSig⟩ := by
  unfold pin
  cases hverify : p.verifySelfConsistent crypto with
  | error e =>
      constructor
      · intro h
        cases h
      · rintro ⟨hok, rfl⟩
        cases hverify.symm.trans hok
  | ok u =>
      constructor
      · intro h
        cases h
        exact ⟨hverify, rfl⟩
      · rintro ⟨-, rfl⟩
        rfl

end PinnedPeer

end Osprey
