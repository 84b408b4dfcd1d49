/-
**The texts of Internet addresses.**

An IPv4 address is printed as its octets in decimal.  An IPv6 address is printed as its segments in
hexadecimal, with the longest run of zero segments left out if it is of two or more, and a mapped
address ends in the text of the IPv4 address.  What is left out is found by one pass that keeps the
run it is in and the longest run it has seen.

A text is read back by splitting it at its colons: all the fields before the first empty one are
segments, and so are all the fields after the last.  So a text determines its address, and a list
that is sorted by text has equal addresses side by side.

Main definitions:

* `IpAddress.longestZeros` — the pass that finds the longest run of zeros;
* `IpAddress.Ipv4Addr.text`, `IpAddress.Ipv6Addr.text`, `IpAddress.IpAddr.text` — the texts;
* `IpAddress.SocketAddr` — an address with a port, and its text;
* `IpAddress.readSegments`, `IpAddress.readOctets` — the segments and octets of a text.

Main results:

* `IpAddress.longestZeros_within` — what is left out is zeros;
* `IpAddress.readSegments_text` — the segments of a text are those that were printed;
* `IpAddress.IpAddr.text_injective` — **a text determines its address**;
* `IpAddress.Ipv4Addr.mem_text`, `IpAddress.Ipv6Addr.mem_text` — the characters that a text is made
  of.
-/

import Mathlib.Data.List.TakeWhile
import Osprey.IpAddress

set_option relaxedAutoImplicit false
set_option autoImplicit false

namespace IpAddress

/-! ### Digits -/

/-- The value of a digit, up to base sixteen. -/
def digitValue (c : Char) : ℕ := if c.toNat < 97 then c.toNat - 48 else c.toNat - 87

/-- The number that some digits stand for. -/
def readDigits (b : ℕ) (digits : List Char) : ℕ :=
  digits.foldl (fun n c => n * b + digitValue c) 0

theorem digitValue_digitChar {n : ℕ} (h : n < 16) : digitValue n.digitChar = n := by
  revert n
  decide

/-- The digits of a number stand for it. -/
theorem readDigits_toDigits {b : ℕ} (hb : 1 < b) (hb' : b ≤ 16) (n : ℕ) :
    readDigits b (Nat.toDigits b n) = n := by
  induction n using Nat.strong_induction_on with
  | _ n ih =>
      rcases Nat.lt_or_ge n b with h | h
      · rw [Nat.toDigits_of_lt_base h]
        simp [readDigits, digitValue_digitChar (h.trans_le hb')]
      · have hmod : n % b < 16 := (Nat.mod_lt n (by omega)).trans_le hb'
        have hdiv := ih (n / b) (Nat.div_lt_self (by omega) hb)
        rw [readDigits] at hdiv ⊢
        rw [Nat.toDigits_of_base_le hb h, List.foldl_append, hdiv, List.foldl_cons, List.foldl_nil,
          digitValue_digitChar hmod]
        exact Nat.div_add_mod' n b

/-- The digits of a number are digits. -/
theorem mem_toDigits {b : ℕ} (hb : 1 < b) (n : ℕ) :
    ∀ c ∈ Nat.toDigits b n, ∃ d < b, c = d.digitChar := by
  induction n using Nat.strong_induction_on with
  | _ n ih =>
      intro c hc
      rcases Nat.lt_or_ge n b with h | h
      · rw [Nat.toDigits_of_lt_base h, List.mem_singleton] at hc
        exact ⟨n, h, hc⟩
      · rw [Nat.toDigits_of_base_le hb h, List.mem_append, List.mem_singleton] at hc
        rcases hc with hc | rfl
        · exact ih (n / b) (Nat.div_lt_self (by omega) hb) c hc
        · exact ⟨n % b, Nat.mod_lt n (by omega), rfl⟩

/-- The digits of the addresses. -/
def DIGITS : List Char := "0123456789abcdef".toList

theorem mem_DIGITS {b : ℕ} (hb : 1 < b) (hb' : b ≤ 16) {n : ℕ} {c : Char}
    (hc : c ∈ Nat.toDigits b n) : c ∈ DIGITS := by
  obtain ⟨d, hd, rfl⟩ := mem_toDigits hb n c hc
  have hlt : d < 16 := hd.trans_le hb'
  clear hd hc
  revert d
  decide

/-! ### IPv4 -/

/-- The octets in decimal. -/
def Ipv4Addr.text (ip : Ipv4Addr) : List Char :=
  ['.'].intercalate ([ip.a, ip.b, ip.c, ip.d].map fun octet => Nat.toDigits 10 octet.toNat)

/-- The octets of a text. -/
def readOctets (text : List Char) : List ℕ := (text.splitOn '.').map (readDigits 10)

theorem readOctets_text (ip : Ipv4Addr) :
    readOctets ip.text = [ip.a, ip.b, ip.c, ip.d].map UInt8.toNat := by
  rw [readOctets, Ipv4Addr.text, List.splitOn_intercalate '.' ?_ (by simp), List.map_map]
  · exact List.map_congr_left fun octet _ => readDigits_toDigits (by decide) (by decide) _
  · intro digits hdigits hdot
    obtain ⟨octet, -, rfl⟩ := List.mem_map.mp hdigits
    exact absurd (mem_DIGITS (by decide) (by decide) hdot) (by decide)

theorem Ipv4Addr.text_injective : Function.Injective Ipv4Addr.text := by
  intro ip other h
  have hread := congrArg readOctets h
  rw [readOctets_text, readOctets_text] at hread
  obtain ⟨a, b, c, d⟩ := ip
  obtain ⟨a', b', c', d'⟩ := other
  simpa [UInt8.toNat_inj] using hread

theorem mem_intercalate {α : Type} {sep x : α} {parts : List (List α)}
    (h : x ∈ [sep].intercalate parts) : x = sep ∨ ∃ part ∈ parts, x ∈ part := by
  induction parts with
  | nil => simp at h
  | cons part parts ih =>
      cases parts with
      | nil => exact .inr ⟨part, by simp, by simpa using h⟩
      | cons next parts =>
          rw [List.intercalate_cons_cons, List.mem_append, List.mem_append,
            List.mem_singleton] at h
          rcases h with (h | h) | h
          · exact .inr ⟨part, by simp, h⟩
          · exact .inl h
          · rcases ih h with h | ⟨other, hother, hx⟩
            · exact .inl h
            · exact .inr ⟨other, by simp [List.mem_cons.mp hother], hx⟩

theorem Ipv4Addr.mem_text {ip : Ipv4Addr} {c : Char} (hc : c ∈ ip.text) :
    c = '.' ∨ c ∈ DIGITS := by
  refine (mem_intercalate hc).imp_right ?_
  rintro ⟨digits, hdigits, hc⟩
  obtain ⟨octet, -, rfl⟩ := List.mem_map.mp hdigits
  exact mem_DIGITS (by decide) (by decide) hc

/-- The text begins with the first octet and a dot. -/
theorem Ipv4Addr.text_eq (ip : Ipv4Addr) :
    ∃ rest, ip.text = Nat.toDigits 10 ip.a.toNat ++ '.' :: rest := by
  simp only [Ipv4Addr.text, List.map_cons, List.intercalate_cons_cons, List.append_assoc,
    List.singleton_append]
  exact ⟨_, rfl⟩

/-! ### The longest run of zeros -/

/-- A run of segments. -/
structure Span where
  start : ℕ
  len : ℕ
  deriving DecidableEq, Repr

/-- The run with segment `i` taken in; an empty run begins there. -/
def Span.extend (span : Span) (i : ℕ) : Span :=
  ⟨if span.len = 0 then i else span.start, span.len + 1⟩

/-- One pass, from segment `i` on, with the longest run so far and the run that ends here. -/
def longestZeros : ℕ → List UInt16 → Span → Span → Span
  | _, [], longest, _ => longest
  | i, segment :: rest, longest, current =>
      if segment = 0 then
        let current := current.extend i
        longestZeros (i + 1) rest (if longest.len < current.len then current else longest) current
      else longestZeros (i + 1) rest longest ⟨0, 0⟩

/-- All of a run is zeros. -/
def Span.Within (span : Span) (segments : List UInt16) : Prop :=
  ∀ j, span.start ≤ j → j < span.start + span.len → segments[j]? = some 0

/-- A run ends before segment `i`. -/
def Span.EndsAt (span : Span) (i : ℕ) : Prop := span.len = 0 ∨ span.start + span.len = i

theorem Span.within_empty (start : ℕ) (segments : List UInt16) :
    (⟨start, 0⟩ : Span).Within segments :=
  fun _ hle hlt => absurd hlt (Nat.not_lt.mpr hle)

theorem Span.EndsAt.extend {span : Span} {i : ℕ} (h : span.EndsAt i) :
    (span.extend i).start + (span.extend i).len = i + 1 := by
  unfold Span.extend
  by_cases hlen : span.len = 0
  · simp [hlen]
  · have hend := h.resolve_left hlen
    simp only [hlen, if_false]
    omega

theorem Span.Within.extend {span : Span} {segments : List UInt16} {i : ℕ}
    (h : span.Within segments) (hend : span.EndsAt i) (hzero : segments[i]? = some 0) :
    (span.extend i).Within segments := by
  intro j hle hlt
  rw [hend.extend] at hlt
  by_cases hj : j = i
  · rw [hj, hzero]
  · have hlen : span.len ≠ 0 := by
      intro hlen
      simp only [Span.extend, hlen, if_true] at hle
      omega
    have hstart : span.start ≤ j := by simpa [Span.extend, hlen] using hle
    have := hend.resolve_left hlen
    exact h j hstart (by omega)

theorem longestZeros_within_append (segments : List UInt16) {done rest : List UInt16}
    {longest current : Span} (hsplit : segments = done ++ rest) (hlongest : longest.Within segments)
    (hcurrent : current.Within segments) (hend : current.EndsAt done.length) :
    (longestZeros done.length rest longest current).Within segments := by
  induction rest generalizing done longest current with
  | nil => exact hlongest
  | cons segment rest ih =>
      have hassoc : segments = (done ++ [segment]) ++ rest := by simp [hsplit]
      have hlen : (done ++ [segment]).length = done.length + 1 := by simp
      unfold longestZeros
      rw [← hlen]
      by_cases hzero : segment = 0
      · have hnext : (current.extend done.length).Within segments :=
          hcurrent.extend hend (by simp [hsplit, hzero])
        simp only [hzero, if_true] at hassoc hlen ⊢
        refine ih hassoc ?_ hnext (.inr (by rw [hend.extend, hlen]))
        split
        · exact hnext
        · exact hlongest
      · simp only [hzero, if_false]
        exact ih hassoc hlongest (Span.within_empty 0 _) (.inl rfl)

/-- What the pass finds is zeros. -/
theorem longestZeros_within (segments : List UInt16) :
    (longestZeros 0 segments ⟨0, 0⟩ ⟨0, 0⟩).Within segments :=
  longestZeros_within_append segments (List.nil_append segments).symm (Span.within_empty 0 _)
    (Span.within_empty 0 _) (.inl rfl)

/-- A list around a run of zeros. -/
theorem Span.Within.eq_append {span : Span} {segments : List UInt16} (h : span.Within segments)
    (hpos : 0 < span.len) :
    segments = segments.take span.start ++ List.replicate span.len 0
      ++ segments.drop (span.start + span.len) := by
  have hlen : span.start + span.len ≤ segments.length := by
    have hlast := h (span.start + span.len - 1) (by omega) (by omega)
    have := (List.getElem?_eq_some_iff.mp hlast).1
    omega
  refine List.ext_getElem? fun j => ?_
  rcases Nat.lt_or_ge j span.start with hj | hj
  · rw [List.append_assoc, List.getElem?_append_left (by simp; omega)]
    rw [List.getElem?_take_of_lt hj]
  · rcases Nat.lt_or_ge j (span.start + span.len) with hj' | hj'
    · rw [List.append_assoc, List.getElem?_append_right (by simp; omega),
        List.getElem?_append_left (by simp; omega), h j hj hj',
        List.getElem?_replicate_of_lt (by simp; omega)]
    · rw [List.getElem?_append_right (by simp; omega), List.getElem?_drop]
      congr 1
      simp
      omega

/-! ### IPv6 -/

/-- A segment in hexadecimal. -/
def hexText (segment : UInt16) : List Char := Nat.toDigits 16 segment.toNat

/-- Segments with colons between them. -/
def fmtSubslice : List UInt16 → List Char
  | [] => []
  | first :: tail => hexText first ++ tail.flatMap fun segment => ':' :: hexText segment

def Ipv6Addr.text (ip : Ipv6Addr) : List Char :=
  match ip.toIpv4Mapped with
  | some ipv4 => "::ffff:".toList ++ ipv4.text
  | none =>
      let zeroes := longestZeros 0 ip.segments ⟨0, 0⟩ ⟨0, 0⟩
      if 1 < zeroes.len then
        fmtSubslice (ip.segments.take zeroes.start) ++ "::".toList
          ++ fmtSubslice (ip.segments.drop (zeroes.start + zeroes.len))
      else fmtSubslice ip.segments

/-- The eight segments that the fields of a text stand for: those before the first empty field,
those after the last, and zeros between. -/
def expand (fields : List (List Char)) : List (List Char) :=
  let before := fields.takeWhile (· ≠ [])
  let after := (fields.reverse.takeWhile (· ≠ [])).reverse
  if before = fields then fields
  else before ++ List.replicate (8 - before.length - after.length) ['0'] ++ after

/-- The segments of a text. -/
def readSegments (text : List Char) : List ℕ := (expand (text.splitOn ':')).map (readDigits 16)

theorem mem_hexText {segment : UInt16} {c : Char} (hc : c ∈ hexText segment) : c ∈ DIGITS :=
  mem_DIGITS (by decide) (by decide) hc

theorem hexText_ne_nil (segment : UInt16) : hexText segment ≠ [] := Nat.toDigits_ne_nil

theorem readDigits_hexText (segment : UInt16) : readDigits 16 (hexText segment) = segment.toNat :=
  readDigits_toDigits (by decide) (by decide) _

theorem mem_fmtSubslice {segments : List UInt16} {c : Char} (hc : c ∈ fmtSubslice segments) :
    c = ':' ∨ c ∈ DIGITS := by
  cases segments with
  | nil => simp [fmtSubslice] at hc
  | cons first tail =>
      rw [fmtSubslice, List.mem_append, List.mem_flatMap] at hc
      rcases hc with hc | ⟨segment, -, hc⟩
      · exact .inr (mem_hexText hc)
      · exact (List.mem_cons.mp hc).imp_right mem_hexText

/-- Segments are split where they were joined; of none there is one empty field. -/
theorem splitOn_fmtSubslice (segments : List UInt16) :
    (fmtSubslice segments).splitOn ':'
      = if segments = [] then [[]] else segments.map hexText := by
  cases segments with
  | nil => rfl
  | cons first tail =>
      simp only [reduceCtorEq, if_false, List.map_cons, fmtSubslice]
      induction tail generalizing first with
      | nil =>
          simp only [List.flatMap_nil, List.append_nil, List.map_nil]
          refine List.splitOn_eq_singleton fun hcolon => ?_
          exact absurd (mem_hexText hcolon) (by decide)
      | cons second tail ih =>
          rw [List.flatMap_cons, List.cons_append, List.splitOn_append_cons_self_of_not_mem
            (fun hcolon => absurd (mem_hexText hcolon) (by decide)), ih second, List.map_cons]

theorem takeWhile_fields (segments : List UInt16) (rest : List (List Char)) :
    ((if segments = [] then [[]] else segments.map hexText) ++ [] :: rest).takeWhile (· ≠ [])
      = segments.map hexText := by
  cases segments with
  | nil => simp
  | cons first tail =>
      rw [if_neg (by simp), List.takeWhile_append_of_pos]
      · simp
      · intro digits hdigits
        obtain ⟨segment, -, rfl⟩ := List.mem_map.mp hdigits
        simpa using hexText_ne_nil segment

theorem takeWhile_reverse_fields (segments : List UInt16) (rest : List (List Char)) :
    ((rest ++ [] :: (if segments = [] then [[]] else segments.map hexText)).reverse.takeWhile
      (· ≠ [])).reverse = segments.map hexText := by
  have h := takeWhile_fields segments.reverse rest.reverse
  simp only [List.reverse_eq_nil_iff, List.map_reverse] at h
  have hreverse : (rest ++ [] :: (if segments = [] then [[]] else segments.map hexText)).reverse
      = (if segments = [] then [[]] else (segments.map hexText).reverse) ++ [] :: rest.reverse := by
    split <;> simp
  rw [hreverse, h, List.reverse_reverse]

/-- The segments around a run of zeros that was left out. -/
theorem readSegments_compressed {before after : List UInt16} {zeros : ℕ}
    (hlen : before.length + zeros + after.length = 8) :
    readSegments (fmtSubslice before ++ "::".toList ++ fmtSubslice after)
      = (before ++ List.replicate zeros 0 ++ after).map UInt16.toNat := by
  have hfields : (fmtSubslice before ++ "::".toList ++ fmtSubslice after).splitOn ':'
      = (if before = [] then [[]] else before.map hexText) ++
        [] :: (if after = [] then [[]] else after.map hexText) := by
    have hsplit : fmtSubslice before ++ "::".toList ++ fmtSubslice after
        = fmtSubslice before ++ ':' :: ([] ++ ':' :: fmtSubslice after) := by
      simp
    rw [hsplit, List.splitOn_append_cons_self, List.splitOn_append_cons_self, splitOn_fmtSubslice,
      splitOn_fmtSubslice]
    rfl
  have hne : before.map hexText ≠ (if before = [] then [[]] else before.map hexText) ++
      [] :: (if after = [] then [[]] else after.map hexText) := by
    intro h
    have hlength := congrArg List.length h
    split at hlength
    · simp_all
    · simp at hlength
  have hzeros : 8 - before.length - after.length = zeros := by omega
  rw [readSegments, hfields, expand]
  simp only [takeWhile_fields, takeWhile_reverse_fields, if_neg hne, List.length_map, hzeros,
    List.map_append, List.map_map, List.map_replicate]
  have hmap : ∀ segments : List UInt16,
      segments.map (readDigits 16 ∘ hexText) = segments.map UInt16.toNat := fun segments =>
    List.map_congr_left fun segment _ => readDigits_hexText segment
  rw [hmap, hmap]
  rfl

theorem readSegments_fmtSubslice {segments : List UInt16} (hne : segments ≠ []) :
    readSegments (fmtSubslice segments) = segments.map UInt16.toNat := by
  have hall : (segments.map hexText).takeWhile (· ≠ []) = segments.map hexText := by
    rw [List.takeWhile_eq_self_iff]
    intro digits hdigits
    obtain ⟨segment, -, rfl⟩ := List.mem_map.mp hdigits
    simpa using hexText_ne_nil segment
  rw [readSegments, splitOn_fmtSubslice, if_neg hne, expand]
  simp only [hall, if_true, List.map_map]
  exact List.map_congr_left fun segment _ => readDigits_hexText segment

/-- The segments of a text are those that were printed. -/
theorem readSegments_text {ip : Ipv6Addr} (h : ip.toIpv4Mapped = none) :
    readSegments ip.text = ip.segments.map UInt16.toNat := by
  have hwithin := longestZeros_within ip.segments
  unfold Ipv6Addr.text
  simp only [h]
  split
  · rename_i hlong
    have hsplit := hwithin.eq_append (by omega)
    have hlen := congrArg List.length hsplit
    simp only [List.length_append, List.length_replicate, ip.length_eq] at hlen
    rw [readSegments_compressed hlen.symm, ← hsplit]
  · exact readSegments_fmtSubslice fun hnil => by simpa [hnil] using ip.length_eq

theorem Ipv6Addr.mem_text {ip : Ipv6Addr} {c : Char} (hc : c ∈ ip.text) :
    c = ':' ∨ c = '.' ∨ c ∈ DIGITS := by
  have hcolons : "::".toList.all (fun c => decide (c = ':')) = true := by decide
  have hlead : "::ffff:".toList.all (fun c => decide (c = ':' ∨ c ∈ DIGITS)) = true := by decide
  unfold Ipv6Addr.text at hc
  split at hc
  · rcases List.mem_append.mp hc with hc | hc
    · exact (of_decide_eq_true (List.all_eq_true.mp hlead c hc)).imp_right .inr
    · exact .inr (Ipv4Addr.mem_text hc)
  · simp only at hc
    split at hc
    · rcases List.mem_append.mp hc with hc | hc
      · rcases List.mem_append.mp hc with hc | hc
        · exact (mem_fmtSubslice hc).imp_right .inr
        · exact .inl (of_decide_eq_true (List.all_eq_true.mp hcolons c hc))
      · exact (mem_fmtSubslice hc).imp_right .inr
    · exact (mem_fmtSubslice hc).imp_right .inr

/-- Only the text of a mapped address has dots. -/
theorem Ipv6Addr.dot_mem_text_iff (ip : Ipv6Addr) : '.' ∈ ip.text ↔ ip.toIpv4Mapped ≠ none := by
  have hdot : '.' ≠ ':' ∧ '.' ∉ DIGITS := by decide
  have hno : ∀ segments, '.' ∉ fmtSubslice segments := fun segments h =>
    (mem_fmtSubslice h).elim hdot.1 hdot.2
  unfold Ipv6Addr.text
  cases h : ip.toIpv4Mapped with
  | some ipv4 =>
      obtain ⟨rest, hrest⟩ := ipv4.text_eq
      simp [hrest]
  | none =>
      simp only [ne_eq, not_true_eq_false, iff_false]
      split
      · simp [hno]
      · exact hno _

theorem Ipv6Addr.text_injective : Function.Injective Ipv6Addr.text := by
  intro ip other h
  have hdots : ip.toIpv4Mapped ≠ none ↔ other.toIpv4Mapped ≠ none := by
    rw [← dot_mem_text_iff, ← dot_mem_text_iff, h]
  cases hip : ip.toIpv4Mapped with
  | some v4 =>
      obtain ⟨w4, hother⟩ := Option.ne_none_iff_exists'.mp (hdots.mp (by simp [hip]))
      have htext : v4.text = w4.text := by
        simpa [Ipv6Addr.text, hip, hother] using h
      rw [toIpv4Mapped_eq_some_iff.mp hip, toIpv4Mapped_eq_some_iff.mp hother,
        Ipv4Addr.text_injective htext]
  | none =>
      have hother : other.toIpv4Mapped = none := by
        by_contra hne
        exact hdots.mpr hne hip
      have hread := congrArg readSegments h
      rw [readSegments_text hip, readSegments_text hother] at hread
      exact (ext_iff_segments ip other).mpr
        (List.map_injective_iff.mpr (fun _ _ => UInt16.toNat_inj.mp) hread)

theorem Ipv6Addr.toIpv4Mapped_eq_none {ip : Ipv6Addr} (h : ip.first ≠ 0) :
    ip.toIpv4Mapped = none := by
  by_contra hne
  obtain ⟨v4, hv4⟩ := Option.ne_none_iff_exists'.mp hne
  have heq := toIpv4Mapped_eq_some_iff.mp hv4
  subst heq
  exact h rfl

/-- A text begins with its first segment, unless that is zero. -/
theorem Ipv6Addr.text_eq {ip : Ipv6Addr} (h : ip.first ≠ 0) :
    ∃ rest, ip.text = hexText ip.first ++ rest := by
  have hwithin := longestZeros_within ip.segments
  unfold Ipv6Addr.text
  rw [toIpv4Mapped_eq_none h]
  simp only
  split
  · rename_i hlong
    have hstart : (longestZeros 0 ip.segments ⟨0, 0⟩ ⟨0, 0⟩).start ≠ 0 := by
      intro hzero
      have hfirst := hwithin 0 (by omega) (by omega)
      rw [ip.segments_eq, List.getElem?_cons_zero] at hfirst
      exact h (Option.some.inj hfirst)
    obtain ⟨n, hn⟩ := Nat.exists_eq_succ_of_ne_zero hstart
    have htake : ip.segments.take (n + 1) = ip.first :: ip.segments.tail.take n := by
      conv_lhs => rw [ip.segments_eq, List.take_succ_cons]
    rw [hn, Nat.succ_eq_add_one, htake, fmtSubslice, List.append_assoc, List.append_assoc]
    exact ⟨_, rfl⟩
  · rw [ip.segments_eq, fmtSubslice]
    exact ⟨_, rfl⟩

theorem Ipv6Addr.colon_mem_text (ip : Ipv6Addr) : ':' ∈ ip.text := by
  have hwithin := longestZeros_within ip.segments
  unfold Ipv6Addr.text
  split
  · simp
  · simp only
    split
    · simp
    · obtain ⟨segments, hlen⟩ := ip
      match segments, hlen with
      | first :: second :: tail, _ => simp [fmtSubslice]

/-! ### Both families, and ports -/

def IpAddr.text : IpAddr → List Char
  | .v4 ip => ip.text
  | .v6 ip => ip.text

theorem Ipv4Addr.colon_not_mem_text (ip : Ipv4Addr) : ':' ∉ ip.text := fun h =>
  (Ipv4Addr.mem_text h).elim (by decide) (by decide)

/-- A text determines its address. -/
theorem IpAddr.text_injective : Function.Injective IpAddr.text := by
  intro ip other h
  cases ip with
  | v4 ip =>
      cases other with
      | v4 other => rw [Ipv4Addr.text_injective h]
      | v6 other =>
          have htext : ip.text = other.text := h
          exact absurd (htext ▸ other.colon_mem_text) ip.colon_not_mem_text
  | v6 ip =>
      cases other with
      | v4 other =>
          have htext : ip.text = other.text := h
          exact absurd (htext ▸ ip.colon_mem_text) other.colon_not_mem_text
      | v6 other => rw [Ipv6Addr.text_injective h]

/-- An address with a port.  The flow label of an IPv6 address, which is not printed, is left
out. -/
inductive SocketAddr
  | v4 (ip : Ipv4Addr) (port : UInt16)
  | v6 (ip : Ipv6Addr) (port : UInt16) (scopeId : UInt32)
  deriving DecidableEq, Repr

namespace SocketAddr

/-- `SocketAddr::new`: of an IPv6 address, without a scope. -/
def new : IpAddr → UInt16 → SocketAddr
  | .v4 ip, port => .v4 ip port
  | .v6 ip, port => .v6 ip port 0

def ip : SocketAddr → IpAddr
  | .v4 ip _ => .v4 ip
  | .v6 ip _ _ => .v6 ip

def port : SocketAddr → UInt16
  | .v4 _ port => port
  | .v6 _ port _ => port

def isIpv6 : SocketAddr → Bool
  | .v4 _ _ => false
  | .v6 _ _ _ => true

/-- The scope of an IPv6 address; zero is none. -/
def scopeId : SocketAddr → UInt32
  | .v4 _ _ => 0
  | .v6 _ _ scopeId => scopeId

def text : SocketAddr → List Char
  | .v4 ip port => ip.text ++ ':' :: Nat.toDigits 10 port.toNat
  | .v6 ip port scopeId =>
      if scopeId = 0 then '[' :: ip.text ++ "]:".toList ++ Nat.toDigits 10 port.toNat
      else '[' :: ip.text ++ '%' :: Nat.toDigits 10 scopeId.toNat ++ "]:".toList
        ++ Nat.toDigits 10 port.toNat

@[simp] theorem new_ip (ip : IpAddr) (port : UInt16) : (new ip port).ip = ip := by
  cases ip <;> rfl

@[simp] theorem new_port (ip : IpAddr) (port : UInt16) : (new ip port).port = port := by
  cases ip <;> rfl

end SocketAddr

end IpAddress
