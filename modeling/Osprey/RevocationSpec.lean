/-
**What a genuine revocation is.**

The specification of `verify_revocation`: five checks, each stated over the message, the receiver's
clock and the pin, and the order in which they are made.  Times are compared as integers, and the
key is the one of the pin.

Main definitions:

* `Osprey.Signed` — a signature under an identity key, of any algorithm;
* `Osprey.canonicalMessage` — what a revocation's signature covers;
* `Osprey.Passes` — the check that a reason for refusal names.

Main results:

* `Osprey.verifyIdentitySignature_eq_ok_iff` — the code's verification is `Signed`;
* `Osprey.verifyRevocation_spec` — **accepted are exactly the revocations that pass all checks, and
  any other is refused for the first it does not pass**.
-/

import Osprey.Revocation

set_option relaxedAutoImplicit false
set_option autoImplicit false

namespace Osprey

/-! ### Signatures -/

/-- The signature is one of the key over the message: the key and the signature are well formed for
the algorithm, which is one that this build knows, and the primitive accepts them. -/
def Signed (crypto : Crypto) (identityPub message signature : Bytes) : IdentityAlgorithm → Prop
  | .ed25519 => ∃ hkey : identityPub.length = 32, crypto.ed25519Key ⟨identityPub, hkey⟩ = true ∧
      signature.length = 64 ∧ crypto.ed25519Verify ⟨identityPub, hkey⟩ message signature = true
  | .p256 => identityPub.length = 65 ∧ identityPub.head? = some 0x04 ∧
      crypto.p256Key identityPub = true ∧ signature.length ≤ 128 ∧
      crypto.p256Signature signature = true ∧
      crypto.p256Verify identityPub message signature = true
  | .unknown .. => False

variable {crypto : Crypto} {identityPub message signature : Bytes}

theorem verifyEd25519_eq_ok_iff : verifyEd25519 crypto identityPub message signature = .ok () ↔
    Signed crypto identityPub message signature .ed25519 := by
  unfold verifyEd25519
  split
  · rename_i hkey
    split
    · rename_i hbad
      refine iff_of_false (by simp) ?_
      rintro ⟨hlength, hvalid, -⟩
      exact hbad hvalid
    · rename_i hvalid
      split
      · rename_i hlength
        refine iff_of_false (by simp) ?_
        rintro ⟨-, -, hsignature, -⟩
        exact hlength hsignature
      · rename_i hlength
        split
        · rename_i hverify
          exact iff_of_true rfl ⟨hkey, not_not.mp hvalid, not_not.mp hlength, hverify⟩
        · rename_i hverify
          refine iff_of_false (by simp) ?_
          rintro ⟨hlength', -, -, haccepted⟩
          exact hverify haccepted
  · rename_i hkey
    refine iff_of_false (by simp) ?_
    rintro ⟨hlength, -⟩
    exact hkey hlength

theorem verifyP256_eq_ok_iff (hshort : signature.length ≤ MAX_SIGNATURE_LEN) :
    verifyP256 crypto identityPub message signature = .ok () ↔
      Signed crypto identityPub message signature .p256 := by
  unfold verifyP256
  split
  · rename_i hkey
    refine iff_of_false (by simp) ?_
    rintro ⟨hlength, htag, -⟩
    rcases hkey with hkey | hkey
    · exact hkey hlength
    · exact hkey htag
  · rename_i hkey
    obtain ⟨hlength, htag⟩ := not_or.mp hkey
    split
    · rename_i hbad
      refine iff_of_false (by simp) ?_
      rintro ⟨-, -, hvalid, -⟩
      exact hbad hvalid
    · rename_i hvalid
      split
      · rename_i hbad
        refine iff_of_false (by simp) ?_
        rintro ⟨-, -, -, -, hparsed, -⟩
        exact hbad hparsed
      · rename_i hparsed
        split
        · rename_i hverify
          exact iff_of_true rfl ⟨not_not.mp hlength, not_not.mp htag, not_not.mp hvalid, hshort,
            not_not.mp hparsed, hverify⟩
        · rename_i hverify
          refine iff_of_false (by simp) ?_
          rintro ⟨-, -, -, -, -, haccepted⟩
          exact hverify haccepted

/-- **The code's verification is `Signed`.** -/
theorem verifyIdentitySignature_eq_ok_iff {algorithm : IdentityAlgorithm} :
    verifyIdentitySignature crypto algorithm identityPub message signature = .ok () ↔
      Signed crypto identityPub message signature algorithm := by
  unfold verifyIdentitySignature
  split
  · rename_i hlong
    have hmax : MAX_SIGNATURE_LEN = 128 := rfl
    refine iff_of_false (by simp) ?_
    cases algorithm with
    | ed25519 =>
        rintro ⟨-, -, hlength, -⟩
        omega
    | p256 =>
        rintro ⟨-, -, -, hlength, -⟩
        omega
    | unknown => exact id
  · rename_i hshort
    cases algorithm with
    | ed25519 => exact verifyEd25519_eq_ok_iff
    | p256 => exact verifyP256_eq_ok_iff (Nat.le_of_not_lt hshort)
    | unknown => exact iff_of_false (by simp) id

/-! ### Revocations -/

/-- The message of a revocation: the context, the two device ids, the time, and the nonce, each of a
fixed width but for the nonce as it arrived. -/
def canonicalMessage (revocation : PairRevokeBody) : Bytes :=
  REVOKE_CONTEXT ++ revocation.issuerDeviceId ++ revocation.revokedDeviceId ++
    Saturating.toBeBytes revocation.issuedAt ++ revocation.nonce

/-- **The check that a reason for refusal names.**  The last one is made by the caller. -/
def Passes (crypto : Crypto) (revocation : PairRevokeBody) (check : RevocationCheck) :
    RevocationRejection → Prop
  | .malformed => revocation.nonce.length = 32
  | .wrongIssuer => revocation.issuerDeviceId = check.peerDeviceId
  | .unrelatedTarget => revocation.revokedDeviceId = revocation.issuerDeviceId ∨
      revocation.revokedDeviceId = check.hostDeviceId
  | .staleClock => |check.nowMs.toInt - revocation.issuedAt.toInt| ≤ 300000
  | .badSignature => Signed crypto check.peer.identityPub (canonicalMessage revocation)
      revocation.signature check.peer.identityAlgorithm
  | .replayedNonce => True

/-- The checks in the order in which they are made. -/
def checksInOrder : List RevocationRejection :=
  [.malformed, .wrongIssuer, .unrelatedTarget, .staleClock, .badSignature]

/-- A reason is that of the first check that is not passed. -/
def FirstFailing (passes : RevocationRejection → Prop) (reason : RevocationRejection) : Prop :=
  ∃ before after, checksInOrder = before ++ reason :: after ∧
    (∀ earlier ∈ before, passes earlier) ∧ ¬passes reason

variable {passes : RevocationRejection → Prop} {reason reason' : RevocationRejection}

/-- Only one check is the first that is not passed. -/
theorem FirstFailing.unique (h : FirstFailing passes reason) (h' : FirstFailing passes reason') :
    reason = reason' := by
  obtain ⟨before, after, horder, hpassed, hfails⟩ := h
  obtain ⟨before', after', horder', hpassed', hfails'⟩ := h'
  -- the shorter of the two prefixes is followed by a check that the longer one contains
  rcases List.append_eq_append_iff.mp (horder.symm.trans horder') with
    ⟨between, rfl, hrest⟩ | ⟨between, rfl, hrest⟩
  · cases between with
    | nil => exact (List.cons.inj hrest).1
    | cons next between =>
        cases hrest
        exact absurd (hpassed' reason (by simp)) hfails
  · cases between with
    | nil => exact (List.cons.inj hrest).1.symm
    | cons next between =>
        cases hrest
        exact absurd (hpassed reason' (by simp)) hfails'

theorem FirstFailing.not_all (h : FirstFailing passes reason) :
    ¬∀ check ∈ checksInOrder, passes check := by
  obtain ⟨before, after, horder, -, hfails⟩ := h
  intro hall
  refine hfails (hall reason ?_)
  rw [horder]
  exact List.mem_append_right _ List.mem_cons_self

/-- Each answer of the code is that of a check, or of all of them. -/
theorem verifyRevocation_cases (crypto : Crypto) (revocation : PairRevokeBody)
    (check : RevocationCheck) :
    (∃ nonce : Key32, verifyRevocation crypto revocation check = .ok nonce ∧
      revocation.nonce = nonce ∧ ∀ reason ∈ checksInOrder, Passes crypto revocation check reason) ∨
    ∃ reason, verifyRevocation crypto revocation check = .error reason ∧
      FirstFailing (Passes crypto revocation check) reason := by
  unfold verifyRevocation
  split
  · rename_i hnonce
    split
    · rename_i hissuer
      refine .inr ⟨_, rfl, [.malformed], _, rfl, ?_, hissuer⟩
      exact List.forall_mem_singleton.mpr hnonce
    · rename_i hissuer
      have hissuer := not_not.mp hissuer
      split
      · rename_i hthird
        refine .inr ⟨_, rfl, [.malformed, .wrongIssuer], _, rfl, ?_, ?_⟩
        · simpa using ⟨hnonce, hissuer⟩
        · exact not_or.mpr hthird
      · rename_i htarget
        have htarget : Passes crypto revocation check .unrelatedTarget := by
          by_contra hthird
          exact htarget (not_or.mp hthird)
        split
        · rename_i hstale
          rw [Saturating.lt_abs_sub_iff (by decide) (by decide)] at hstale
          refine .inr ⟨_, rfl, [.malformed, .wrongIssuer, .unrelatedTarget], _, rfl, ?_, ?_⟩
          · simpa using ⟨hnonce, hissuer, htarget⟩
          · exact not_le.mpr hstale
        · rename_i hfresh
          rw [Saturating.lt_abs_sub_iff (by decide) (by decide), not_lt] at hfresh
          have hfresh : Passes crypto revocation check .staleClock := hfresh
          split
          · rename_i e hbad
            refine .inr ⟨_, rfl, [.malformed, .wrongIssuer, .unrelatedTarget, .staleClock], _, rfl,
              ?_, fun hsigned => ?_⟩
            · simpa using ⟨hnonce, hissuer, htarget, hfresh⟩
            · cases hbad.symm.trans (verifyIdentitySignature_eq_ok_iff.mpr hsigned)
          · rename_i hgood
            have hsigned : Passes crypto revocation check .badSignature :=
              verifyIdentitySignature_eq_ok_iff.mp hgood
            refine .inl ⟨_, rfl, rfl, ?_⟩
            simpa [checksInOrder] using ⟨hnonce, hissuer, htarget, hfresh, hsigned⟩
  · rename_i hnonce
    exact .inr ⟨_, rfl, [], _, rfl, by simp, hnonce⟩

/-- **What `verify_revocation` accepts, and why it refuses.**  For every message, clock and pin: it
answers with a nonce exactly if that is the message's and all five checks are passed, and with a
reason exactly if that is the reason of the first check that is not passed. -/
theorem verifyRevocation_spec (crypto : Crypto) (revocation : PairRevokeBody)
    (check : RevocationCheck) :
    (∀ nonce : Key32, verifyRevocation crypto revocation check = .ok nonce ↔
      revocation.nonce = nonce ∧
        ∀ reason ∈ checksInOrder, Passes crypto revocation check reason) ∧
    ∀ reason, verifyRevocation crypto revocation check = .error reason ↔
      FirstFailing (Passes crypto revocation check) reason := by
  rcases verifyRevocation_cases crypto revocation check with
    ⟨nonce, hok, hnonce, hall⟩ | ⟨reason, herror, hfirst⟩
  · constructor
    · intro nonce'
      rw [hok]
      constructor
      · intro h
        cases h
        exact ⟨hnonce, hall⟩
      · rintro ⟨hnonce', -⟩
        rw [Subtype.ext (hnonce.symm.trans hnonce')]
    · intro reason
      rw [hok]
      exact iff_of_false (by simp) fun hfirst => hfirst.not_all hall
  · constructor
    · intro nonce
      rw [herror]
      exact iff_of_false (by simp) fun hall => hfirst.not_all hall.2
    · intro reason'
      rw [herror]
      constructor
      · intro h
        cases h
        exact hfirst
      · intro hfirst'
        rw [hfirst.unique hfirst']

end Osprey
