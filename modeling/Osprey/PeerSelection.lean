/-
**Whether what the operator types selects the peer they mean.**

`PeerSelector::parse` of `osprey-svc/src/state.rs`, and the two forms in which
`osprey-core/src/identity.rs` prints a fingerprint.  Three grammars are tried in order: the word
`all`, a uuid, and a prefix of a fingerprint with hyphens anywhere.  The second and the third
overlap: half a fingerprint has as many digits as a uuid, so that written bare, or grouped as a uuid
is, it is taken for the id of a relay device.

Main definitions:

* `Osprey.PeerSelector.parse`, `Osprey.Fingerprint.short` — the source's functions;
* `Osprey.ParsesUuids` — what is relied on of the parser of the `uuid` crate;
* `Osprey.UuidShaped` — the texts that both grammars accept;
* `Osprey.Selects` — **a text selects a peer, and no other that has not the same prefix**.

Main results:

* `Osprey.PeerSelector.parse_written` — what a prefix is parsed as, however it is written;
* `Osprey.selects_iff` — **exactly when it selects the peer it is of**.
-/

import Mathlib.Data.List.DropRight
import Osprey.Conversation
import Osprey.Revocation

set_option relaxedAutoImplicit false
set_option autoImplicit false

namespace Osprey

/-! ### Text -/

/-- `char::is_whitespace`. -/
def isWhitespace (c : Char) : Bool :=
  (0x09 ≤ c.toNat ∧ c.toNat ≤ 0x0D) ∨ (0x2000 ≤ c.toNat ∧ c.toNat ≤ 0x200A) ∨
    c.toNat ∈ [0x20, 0x85, 0xA0, 0x1680, 0x2028, 0x2029, 0x202F, 0x205F, 0x3000]

/-- `str::trim`. -/
def trim (text : List Char) : List Char := (text.dropWhile isWhitespace).rdropWhile isWhitespace

/-- `char::to_ascii_lowercase`. -/
def toAsciiLowercase (c : Char) : Char := c.toLower

/-- `char::is_ascii_hexdigit`. -/
def isAsciiHexdigit (c : Char) : Bool :=
  ('0' ≤ c ∧ c ≤ '9') ∨ ('a' ≤ c ∧ c ≤ 'f') ∨ ('A' ≤ c ∧ c ≤ 'F')

/-- The text without its hyphens, and in lower case. -/
def normalise (text : List Char) : List Char :=
  (text.filter fun c => c ≠ '-').map toAsciiLowercase

/-! ### Selectors and printed fingerprints -/

def MIN_FINGERPRINT_PREFIX : ℕ := 8

/-- `raw` is neither the word, nor a uuid, nor a prefix of a fingerprint. -/
structure NotASelector where
  raw : List Char
  deriving DecidableEq, Repr

/-- How the operator's words are read.  `parseUuid` is `Uuid::parse_str`. -/
def PeerSelector.parse (parseUuid : List Char → Option Uuid) (raw : List Char) :
    Except NotASelector PeerSelector :=
  let trimmed := trim raw
  if trimmed.map toAsciiLowercase = ['a', 'l', 'l'] then .ok .all
  else
    match parseUuid trimmed with
    | some id => .ok (.deviceId id)
    | none =>
        let normalised := normalise trimmed
        -- the source counts bytes, which are characters where all of them are digits
        if MIN_FINGERPRINT_PREFIX ≤ normalised.length ∧ normalised.all isAsciiHexdigit then
          .ok (.fingerprintPrefix normalised)
        else .error ⟨raw⟩

/-- First 8 bytes, grouped for reading aloud during pairing confirmation. -/
def Fingerprint.short (fingerprint : Fingerprint) : List Char :=
  ['-'].intercalate ((chunks 2 (fingerprint.val.take 8)).map hexEncode)

/-! ### Uuids -/

/-- As many digits as a uuid has, bare or grouped as a uuid is. -/
def UuidShaped (text : List Char) : Prop :=
  (text.filter fun c => c ≠ '-').length = 32 ∧
    (text.length = 32 ∨ text.length = 36 ∧ ∀ i ∈ [8, 13, 18, 23], text[i]? = some '-')

instance (text : List Char) : Decidable (UuidShaped text) :=
  inferInstanceAs (Decidable (_ ∧ _))

/-- What the `uuid` crate makes of a text of digits and hyphens: it accepts the bare form and the
grouped one, in either case, and reads the digits as the bytes.  The forms with braces and with the
`urn:uuid:` prefix have other characters. -/
def ParsesUuids (parseUuid : List Char → Option Uuid) : Prop :=
  ∀ text, (∀ c ∈ text, isAsciiHexdigit c ∨ c = '-') → ∀ id,
    parseUuid text = some id ↔ UuidShaped text ∧ hexEncode id = normalise text

/-- The uuid with the digits of half a fingerprint. -/
def Fingerprint.asUuid (fingerprint : Fingerprint) : Uuid :=
  ⟨fingerprint.val.take 16, by simp [fingerprint.property]⟩

/-! ### Digits -/

/-- The digits that `hexEncode` writes. -/
def LowerHex (c : Char) : Prop := c ∈ "0123456789abcdef".toList

theorem lowerHex_hexDigit (n : ℕ) : LowerHex (hexDigit n) := by
  unfold LowerHex hexDigit
  rw [List.getD_eq_getElem?_getD]
  cases hdigit : "0123456789abcdef".toList[n]? with
  | none => decide
  | some c => exact List.mem_of_getElem? hdigit

theorem lowerHex_of_mem_hexEncode {bytes : Bytes} {c : Char} (h : c ∈ hexEncode bytes) :
    LowerHex c := by
  obtain ⟨b, -, hc⟩ := List.mem_flatMap.mp h
  rcases List.mem_pair.mp hc with rfl | rfl
  · exact lowerHex_hexDigit _
  · exact lowerHex_hexDigit _

/-- A digit is its own lower case, and neither a hyphen, nor a letter of `all`, nor a blank. -/
theorem LowerHex.facts {c : Char} (h : LowerHex c) :
    isAsciiHexdigit c = true ∧ toAsciiLowercase c = c ∧ c ≠ '-' ∧ c ≠ 'l' ∧
      isWhitespace c = false := by
  have hall : ("0123456789abcdef".toList.all fun c => isAsciiHexdigit c = true ∧
      toAsciiLowercase c = c ∧ c ≠ '-' ∧ c ≠ 'l' ∧ isWhitespace c = false) = true := by decide
  exact of_decide_eq_true (List.all_eq_true.mp hall c h)

/-- A character whose lower case is a digit is one itself, in one case or the other. -/
theorem digit_of_lower {c : Char} (h : LowerHex (toAsciiLowercase c)) :
    isAsciiHexdigit c = true ∧ isWhitespace c = false := by
  by_cases hupper : 65 ≤ c.toNat ∧ c.toNat ≤ 90
  · have hall : ∀ n ∈ List.range 91, 65 ≤ n → LowerHex (toAsciiLowercase (Char.ofNat n)) →
        isAsciiHexdigit (Char.ofNat n) = true ∧ isWhitespace (Char.ofNat n) = false := by
      unfold LowerHex
      decide
    have hc := hall c.toNat (List.mem_range.mpr (by omega)) hupper.1
    rw [Char.ofNat_toNat] at hc
    exact hc h
  · have hsame : toAsciiLowercase c = c := by
      refine dif_neg fun hletter => hupper ?_
      exact ⟨UInt32.le_iff_toNat_le.mp hletter.1, UInt32.le_iff_toNat_le.mp hletter.2⟩
    rw [hsame] at h
    exact ⟨h.facts.1, h.facts.2.2.2.2⟩

/-- What a text of digits and hyphens is made of. -/
theorem mem_of_normalise {text : List Char} (h : ∀ c ∈ normalise text, LowerHex c) {c : Char}
    (hc : c ∈ text) : c = '-' ∨ LowerHex (toAsciiLowercase c) := by
  by_cases hhyphen : c = '-'
  · exact .inl hhyphen
  · exact .inr (h _ (List.mem_map_of_mem (List.mem_filter.mpr ⟨hc, by simpa using hhyphen⟩)))

theorem trim_of_no_blank {text : List Char} (h : ∀ c ∈ text, isWhitespace c = false) :
    trim text = text := by
  have hleft : text.dropWhile isWhitespace = text := by
    rw [List.dropWhile_eq_self_iff]
    intro hlen
    simp [h _ (List.getElem_mem hlen)]
  rw [trim, hleft, List.rdropWhile_eq_self_iff]
  intro hne
  simp [h _ (List.getLast_mem hne)]

/-! ### What a prefix is parsed as -/

variable {parseUuid : List Char → Option Uuid}

/-- **However a prefix is written**, it is parsed as itself, unless the text has the shape of a
uuid; then it is parsed as the uuid with its digits. -/
theorem PeerSelector.parse_written (hparser : ParsesUuids parseUuid) {text : List Char}
    (hdigits : ∀ c ∈ normalise text, LowerHex c)
    (hlength : MIN_FINGERPRINT_PREFIX ≤ (normalise text).length) :
    (∀ id : Uuid, UuidShaped text → hexEncode id = normalise text →
      parse parseUuid text = .ok (.deviceId id)) ∧
    (¬UuidShaped text → parse parseUuid text = .ok (.fingerprintPrefix (normalise text))) := by
  have hmem : ∀ c ∈ text, isAsciiHexdigit c ∨ c = '-' := by
    intro c hc
    rcases mem_of_normalise hdigits hc with hhyphen | hdigit
    · exact .inr hhyphen
    · exact .inl (digit_of_lower hdigit).1
  have htrim : trim text = text := by
    refine trim_of_no_blank fun c hc => ?_
    rcases mem_of_normalise hdigits hc with rfl | hdigit
    · decide
    · exact (digit_of_lower hdigit).2
  have hword : text.map toAsciiLowercase ≠ ['a', 'l', 'l'] := by
    intro hword
    obtain ⟨c, hc, hl⟩ := List.mem_map.mp (hword ▸ (by simp : 'l' ∈ ['a', 'l', 'l']))
    rcases mem_of_normalise hdigits hc with rfl | hdigit
    · exact absurd hl (by decide)
    · exact hdigit.facts.2.2.2.1 hl
  unfold parse
  rw [htrim]
  dsimp only
  rw [if_neg hword]
  constructor
  · intro id hshaped hid
    rw [(hparser text hmem id).mpr ⟨hshaped, hid⟩]
  · intro hshaped
    have hnone : parseUuid text = none := by
      rw [Option.eq_none_iff_forall_ne_some]
      intro id hid
      exact hshaped ((hparser text hmem id).mp hid).1
    have hall : (normalise text).all isAsciiHexdigit = true :=
      List.all_eq_true.mpr fun c hc => (hdigits c hc).facts.1
    rw [hnone]
    exact if_pos ⟨hlength, hall⟩

/-! ### Which peers are selected -/

/-- The text is read as a selector that matches the peer, and another one of `peers` only if its
fingerprint begins with `typed` too. -/
def Selects (parseUuid : List Char → Option Uuid) (crypto : Crypto) (peers : List PairedPeer)
    (peer : PairedPeer) (typed text : List Char) : Prop :=
  ∃ selector, PeerSelector.parse parseUuid text = .ok selector ∧
    selector.matches crypto peer = true ∧
    ∀ other ∈ peers, selector.matches crypto other = true →
      typed <+: (other.fingerprint crypto).toHex

variable {crypto : Crypto} {peers : List PairedPeer} {peer : PairedPeer}

theorem hexEncode_cons (b : UInt8) (bytes : Bytes) :
    hexEncode (b :: bytes) =
      hexDigit (b.toNat / 16) :: hexDigit (b.toNat % 16) :: hexEncode bytes := rfl

theorem hexEncode_take (bytes : Bytes) (n : ℕ) :
    hexEncode (bytes.take n) = (hexEncode bytes).take (2 * n) := by
  induction bytes generalizing n with
  | nil => simp [hexEncode]
  | cons b bytes ih =>
      cases n with
      | zero => rfl
      | succ n =>
          rw [List.take_succ_cons, hexEncode_cons, hexEncode_cons, ih, Nat.mul_succ,
            List.take_succ_cons, List.take_succ_cons]

/-- A prefix of a fingerprint has digits only. -/
theorem lowerHex_of_typed {fingerprint : Fingerprint} {typed : List Char}
    (h : typed <+: fingerprint.toHex) : ∀ c ∈ typed, LowerHex c :=
  fun _ hc => lowerHex_of_mem_hexEncode (h.subset hc)

/-- A text that is not taken for a uuid selects the peers with the prefix. -/
theorem selects_of_not_uuidShaped (hparser : ParsesUuids parseUuid) {typed text : List Char}
    (htyped : typed <+: (peer.fingerprint crypto).toHex)
    (hlength : MIN_FINGERPRINT_PREFIX ≤ typed.length) (htext : normalise text = typed)
    (hshape : ¬UuidShaped text) : Selects parseUuid crypto peers peer typed text := by
  subst htext
  refine ⟨_, (PeerSelector.parse_written hparser (lowerHex_of_typed htyped) hlength).2 hshape,
    List.isPrefixOf_iff_prefix.mpr htyped, ?_⟩
  intro other _ hmatches
  exact List.isPrefixOf_iff_prefix.mp hmatches

/-- A text that is taken for a uuid selects the peers whose relay device has the digits as its
id. -/
theorem selects_iff_of_uuidShaped (hparser : ParsesUuids parseUuid) {typed text : List Char}
    (htyped : typed <+: (peer.fingerprint crypto).toHex)
    (hlength : MIN_FINGERPRINT_PREFIX ≤ typed.length) (htext : normalise text = typed)
    (hshape : UuidShaped text) :
    Selects parseUuid crypto peers peer typed text ↔
      peer.relayDeviceId = some (peer.fingerprint crypto).asUuid ∧
        ∀ other ∈ peers, other.relayDeviceId = some (peer.fingerprint crypto).asUuid →
          typed <+: (other.fingerprint crypto).toHex := by
  subst htext
  have hid : hexEncode (peer.fingerprint crypto).asUuid = normalise text := by
    have hlen : (normalise text).length = 2 * 16 := by
      rw [normalise, List.length_map]
      exact hshape.1
    rw [List.prefix_iff_eq_take.mp htyped, hlen]
    exact hexEncode_take _ 16
  have hparse := (PeerSelector.parse_written hparser (lowerHex_of_typed htyped) hlength).1 _
    hshape hid
  constructor
  · rintro ⟨selector, hselector, hpeer, hothers⟩
    cases hparse.symm.trans hselector
    exact ⟨of_decide_eq_true hpeer, fun other hmem hother =>
      hothers other hmem (decide_eq_true hother)⟩
  · rintro ⟨hpeer, hothers⟩
    exact ⟨_, hparse, decide_eq_true hpeer, fun other hmem hmatches =>
      hothers other hmem (of_decide_eq_true hmatches)⟩

/-! ### The printed forms -/

theorem normalise_append (text text' : List Char) :
    normalise (text ++ text') = normalise text ++ normalise text' := by
  simp [normalise]

/-- What `hexEncode` writes is in normal form. -/
theorem normalise_hexEncode (bytes : Bytes) : normalise (hexEncode bytes) = hexEncode bytes := by
  have hfilter : (hexEncode bytes).filter (fun c => c ≠ '-') = hexEncode bytes :=
    List.filter_eq_self.mpr fun c hc => by simpa using (lowerHex_of_mem_hexEncode hc).facts.2.2.1
  rw [normalise, hfilter]
  exact (List.map_congr_left fun c hc => (lowerHex_of_mem_hexEncode hc).facts.2.1).trans
    (List.map_id _)

/-- Groups of digits with hyphens between them have the digits of the groups. -/
theorem normalise_intercalate (groups : List Bytes) :
    normalise (['-'].intercalate (groups.map hexEncode)) = hexEncode groups.flatten := by
  induction groups with
  | nil => rfl
  | cons group groups ih =>
      cases groups with
      | nil =>
          rw [List.map_cons, List.map_nil, List.intercalate_singleton, normalise_hexEncode]
          simp
      | cons group' groups =>
          rw [List.map_cons, List.map_cons, List.intercalate_cons_cons, normalise_append,
            normalise_append, ← List.map_cons, ih, normalise_hexEncode, List.flatten_cons]
          simp [hexEncode, normalise]

/-- The short form is the first 16 digits. -/
theorem normalise_short (fingerprint : Fingerprint) :
    normalise fingerprint.short = fingerprint.toHex.take 16 := by
  rw [Fingerprint.short, normalise_intercalate, flatten_chunks (by omega), hexEncode_take]
  rfl

/-- A text whose digits are not 32 has not the shape of a uuid. -/
theorem not_uuidShaped_of_length {text : List Char} (h : (normalise text).length ≠ 32) :
    ¬UuidShaped text := by
  rintro ⟨hlength, -⟩
  rw [normalise, List.length_map] at h
  exact h hlength

theorem length_toHex (fingerprint : Fingerprint) : fingerprint.toHex.length = 64 := by
  rw [Fingerprint.toHex, length_hexEncode, fingerprint.property]

/-! ### All of it together -/

/-- **Exactly when what the operator types selects the peer they mean.**  The printed forms always
do.  A prefix of at least eight digits does, in any case and with hyphens anywhere, unless it has as
many digits as a uuid and is written bare or grouped as a uuid is: then it does exactly if the
peer's relay device has these digits as its id, and no other peer's has but one of the same
prefix. -/
theorem selects_iff (hparser : ParsesUuids parseUuid) (crypto : Crypto) (peers : List PairedPeer)
    (peer : PairedPeer) :
    (∀ typed text, typed <+: (peer.fingerprint crypto).toHex →
      MIN_FINGERPRINT_PREFIX ≤ typed.length → normalise text = typed →
      (Selects parseUuid crypto peers peer typed text ↔
        (UuidShaped text → peer.relayDeviceId = some (peer.fingerprint crypto).asUuid ∧
          ∀ other ∈ peers, other.relayDeviceId = some (peer.fingerprint crypto).asUuid →
            typed <+: (other.fingerprint crypto).toHex))) ∧
    Selects parseUuid crypto peers peer ((peer.fingerprint crypto).toHex.take 16)
      (peer.fingerprint crypto).short ∧
    Selects parseUuid crypto peers peer (peer.fingerprint crypto).toHex
      (peer.fingerprint crypto).toHex := by
  refine ⟨?_, ?_, ?_⟩
  · intro typed text htyped hlength htext
    by_cases hshape : UuidShaped text
    · rw [selects_iff_of_uuidShaped hparser htyped hlength htext hshape]
      exact ⟨fun h _ => h, fun h => h hshape⟩
    · exact iff_of_true (selects_of_not_uuidShaped hparser htyped hlength htext hshape)
        fun h => absurd h hshape
  · have htext := normalise_short (peer.fingerprint crypto)
    have hlength : ((peer.fingerprint crypto).toHex.take 16).length = 16 := by
      rw [List.length_take, length_toHex]
      rfl
    refine selects_of_not_uuidShaped hparser (List.take_prefix _ _) ?_ htext
      (not_uuidShaped_of_length ?_)
    · rw [hlength]
      decide
    · rw [htext, hlength]
      decide
  · have htext : normalise (peer.fingerprint crypto).toHex = (peer.fingerprint crypto).toHex :=
      normalise_hexEncode _
    refine selects_of_not_uuidShaped hparser List.prefix_rfl ?_ htext
      (not_uuidShaped_of_length ?_)
    · rw [length_toHex]
      decide
    · rw [htext, length_toHex]
      decide

/-- The value of a digit that `hexEncode` writes. -/
def hexValue (c : Char) : ℕ := "0123456789abcdef".toList.idxOf c

def hexDecode : List Char → Bytes
  | high :: low :: text => UInt8.ofNat (16 * hexValue high + hexValue low) :: hexDecode text
  | _ => []

/-- A parser of bare and grouped uuids. -/
def bareUuids (text : List Char) : Option Uuid :=
  if h : UuidShaped text ∧ hexEncode (hexDecode (normalise text)) = normalise text ∧
      (hexDecode (normalise text)).length = 16 then
    some ⟨hexDecode (normalise text), h.2.2⟩
  else none

theorem hexValue_hexDigit : ∀ n < 16, hexValue (hexDigit n) = n := by decide

theorem hexDecode_hexEncode (bytes : Bytes) : hexDecode (hexEncode bytes) = bytes := by
  induction bytes with
  | nil => rfl
  | cons b bytes ih =>
      have hb := b.toNat_lt
      rw [hexEncode_cons, hexDecode, ih, hexValue_hexDigit _ (by omega),
        hexValue_hexDigit _ (by omega), Nat.div_add_mod]
      rw [UInt8.ofNat_toNat]

theorem bareUuids_parses : ParsesUuids bareUuids := by
  intro text _ id
  unfold bareUuids
  constructor
  · intro h
    split at h
    · rename_i hshape
      cases h
      exact ⟨hshape.1, hshape.2.1⟩
    · cases h
  · rintro ⟨hshape, hid⟩
    have hdecode : hexDecode (normalise text) = id := by rw [← hid, hexDecode_hexEncode]
    have hall : UuidShaped text ∧ hexEncode (hexDecode (normalise text)) = normalise text ∧
        (hexDecode (normalise text)).length = 16 := by
      rw [hdecode]
      exact ⟨hshape, hid, id.property⟩
    rw [dif_pos hall]
    exact congrArg some (Subtype.ext hdecode)

/-- Eight digits in two groups select the peer. -/
theorem selects_iff_grouped :
    Selects bareUuids toyCrypto [toyPeer 1, toyPeer 2] (toyPeer 1) "01010101".toList
      "0101-0101".toList :=
  ((selects_iff bareUuids_parses toyCrypto [toyPeer 1, toyPeer 2] (toyPeer 1)).1
    "01010101".toList "0101-0101".toList (by decide) (by decide) (by decide)).mpr
      fun hshape => absurd hshape (by decide)

/-- Half the fingerprint of a peer that was paired without a relay does not select it. -/
theorem half_selects_nothing :
    ¬∀ parseUuid, ParsesUuids parseUuid → ∀ (crypto : Crypto) (peers : List PairedPeer),
      ∀ peer ∈ peers, ∀ typed text, typed <+: (peer.fingerprint crypto).toHex →
        MIN_FINGERPRINT_PREFIX ≤ typed.length → normalise text = typed →
        Selects parseUuid crypto peers peer typed text := by
  intro h
  have htyped : "01010101010101010101010101010101".toList <+:
      ((toyPeer 1).fingerprint toyCrypto).toHex := by decide
  obtain ⟨selector, hparse, hmatches, -⟩ := h bareUuids bareUuids_parses toyCrypto [toyPeer 1]
    (toyPeer 1) (by simp) _ "01010101010101010101010101010101".toList htyped (by decide) (by decide)
  have huuid : PeerSelector.parse bareUuids "01010101010101010101010101010101".toList =
      .ok (.deviceId (toyUuid 1)) := by decide
  cases hparse.symm.trans huuid
  cases hmatches

end Osprey
