/-
**The hints of a QR code, from the agent's sockets to the phone's dials.**

The agent prints the sockets of its listener into the QR code, the phone reads them back and keeps
them as text.  The phone knows the addresses as text only: it tells loopback and link-local
addresses by how they begin.  Of any address that is no test, since `fe8::1` begins like a
link-local address and is none; of the private addresses, which are all that a listener is bound to,
it is.

Main definitions:

* `Osprey.readUInt16` — Swift's reading of a port;
* `Osprey.LanEndpoint.parse`, `Osprey.LanEndpoint.description` — a hint from its text, and back;
* `Osprey.LanEndpoint.isLoopback`, `Osprey.LanEndpoint.isScopelessLinkLocalIpv6`, `Osprey.dialOrder`
  — what the phone dials, and in which order;
* `Osprey.dial` — dialling, with the failures.

Main results:

* `Osprey.parse_text` — the phone reads every socket address that Rust prints;
* `Osprey.LanEndpoint.parse_description_of_parse` — a hint is read back from the text it is kept as;
* `Osprey.isLoopback_hint`, `Osprey.isScopelessLinkLocalIpv6_hint` — what the texts tell;
* `Osprey.dial_of_bind` — **the phone dials the listener's sockets that it can reach**, and gets the
  first that answers, or reports every failure.
-/

import Osprey.LanListener
import Osprey.PinStore

set_option relaxedAutoImplicit false
set_option autoImplicit false

namespace Osprey

open IpAddress

/-! ### Ports -/

/-- `UInt16(_:)` of a text: decimal digits, after a sign that may be left out. -/
def readUInt16 (text : List Char) : Option UInt16 :=
  let (negative, digits) : Bool × List Char :=
    match text with
    | '+' :: digits => (false, digits)
    | '-' :: digits => (true, digits)
    | digits => (false, digits)
  if digits = [] ∨ ¬digits.all Char.isDigit then none
  else
    let n := readDigits 10 digits
    if negative ∧ n ≠ 0 then none
    else if n < 65536 then some (.ofNat n) else none

theorem isDigit_of_mem_decimal {n : ℕ} {c : Char} (hc : c ∈ decimal n) : c.isDigit = true :=
  Nat.isDigit_of_mem_toDigits (by decide) (by decide) hc

/-- A port is read as it was printed. -/
theorem readUInt16_decimal (port : UInt16) : readUInt16 (decimal port.toNat) = some port := by
  have hall : (decimal port.toNat).all Char.isDigit = true :=
    List.all_eq_true.mpr fun c hc => isDigit_of_mem_decimal hc
  have hne : decimal port.toNat ≠ [] := Nat.toDigits_ne_nil
  have hread : readDigits 10 (decimal port.toNat) = port.toNat :=
    readDigits_toDigits (by decide) (by decide) _
  have hsign : ∀ c ∈ decimal port.toNat, c ≠ '+' ∧ c ≠ '-' := by
    intro c hc
    have hdigit := isDigit_of_mem_decimal hc
    exact ⟨by rintro rfl; exact absurd hdigit (by decide),
      by rintro rfl; exact absurd hdigit (by decide)⟩
  unfold readUInt16
  split
  rename_i negative digits heq
  have hdigits : negative = false ∧ digits = decimal port.toNat := by
    split at heq
    · rename_i rest htext
      exact absurd rfl (hsign '+' (htext ▸ List.mem_cons_self)).1
    · rename_i rest htext
      exact absurd rfl (hsign '-' (htext ▸ List.mem_cons_self)).2
    · cases heq
      exact ⟨rfl, rfl⟩
  obtain ⟨rfl, rfl⟩ := hdigits
  simp only [hne, hall, not_true_eq_false, or_self, if_false, hread, Bool.false_eq_true, false_and]
  rw [if_pos port.toNat_lt]
  simp

/-! ### Endpoints and their texts -/

namespace LanEndpoint

/-- An endpoint from its text: the host in brackets, or up to the last colon. -/
def parse (text : List Char) : Option LanEndpoint :=
  match text with
  | '[' :: inner =>
      let host := inner.takeWhile (· ≠ ']')
      match inner.dropWhile (· ≠ ']') with
      | _ :: ':' :: rest =>
          match readUInt16 rest with
          | some port => if host = [] then none else some ⟨.ofList host, port, true⟩
          | none => none
      | _ => none
  | text =>
      match text.reverse.dropWhile (· ≠ ':') with
      | [] => none
      | _ :: host =>
          match readUInt16 (text.reverse.takeWhile (· ≠ ':')).reverse with
          | some port => if host = [] then none else some ⟨.ofList host.reverse, port, false⟩
          | none => none

def description (endpoint : LanEndpoint) : List Char :=
  if endpoint.isIpv6 then '[' :: endpoint.host.toList ++ "]:".toList ++ decimal endpoint.port.toNat
  else endpoint.host.toList ++ ':' :: decimal endpoint.port.toNat

def isLoopback (endpoint : LanEndpoint) : Bool :=
  endpoint.host.toList == "127.0.0.1".toList || endpoint.host.toList == "::1".toList ||
    "127.".toList.isPrefixOf endpoint.host.toList

/-- `fe80::/10` without a zone identifier. -/
def isScopelessLinkLocalIpv6 (endpoint : LanEndpoint) : Bool :=
  if endpoint.isIpv6 = false ∨ '%' ∈ endpoint.host.toList then false
  else
    let lowered := endpoint.host.toList.map Char.toLower
    "fe8".toList.isPrefixOf lowered || "fe9".toList.isPrefixOf lowered ||
      "fea".toList.isPrefixOf lowered || "feb".toList.isPrefixOf lowered

end LanEndpoint

/-- Hints in dial order: IPv4 first, without loopback and without link-local addresses that have no
zone. -/
def dialOrder (hints : List LanEndpoint) : List LanEndpoint :=
  let reachable := hints.filter fun hint => !hint.isLoopback && !hint.isScopelessLinkLocalIpv6
  reachable.filter (fun hint => !hint.isIpv6) ++ reachable.filter fun hint => hint.isIpv6

namespace LanEndpoint

theorem parse_brackets {host : List Char} (hhost : host ≠ []) (hbracket : ']' ∉ host)
    (port : UInt16) :
    parse ('[' :: host ++ "]:".toList ++ decimal port.toNat) = some ⟨.ofList host, port, true⟩ := by
  have htext : '[' :: host ++ "]:".toList ++ decimal port.toNat
      = '[' :: (host ++ ']' :: ':' :: decimal port.toNat) := by simp
  have hall : ∀ c ∈ host, decide (c ≠ ']') = true := by
    intro c hc
    exact decide_eq_true fun heq => hbracket (heq ▸ hc)
  have htake : (host ++ ']' :: ':' :: decimal port.toNat).takeWhile (· ≠ ']') = host := by
    rw [List.takeWhile_append_of_pos hall]
    simp
  have hdrop : (host ++ ']' :: ':' :: decimal port.toNat).dropWhile (· ≠ ']')
      = ']' :: ':' :: decimal port.toNat := by
    rw [List.dropWhile_append_of_pos hall]
    simp
  rw [htext, parse]
  simp only [htake, hdrop, readUInt16_decimal, hhost, if_false]

theorem parse_plain {host : List Char} (hhost : host ≠ []) (hbracket : host.head? ≠ some '[')
    (port : UInt16) :
    parse (host ++ ':' :: decimal port.toNat) = some ⟨.ofList host, port, false⟩ := by
  have hall : ∀ c ∈ (decimal port.toNat).reverse, decide (c ≠ ':') = true := by
    intro c hc
    refine decide_eq_true fun heq => ?_
    subst heq
    exact absurd (isDigit_of_mem_decimal (List.mem_reverse.mp hc)) (by decide)
  have hreverse : (host ++ ':' :: decimal port.toNat).reverse
      = (decimal port.toNat).reverse ++ ':' :: host.reverse := by simp
  have htake : ((host ++ ':' :: decimal port.toNat).reverse.takeWhile (· ≠ ':')).reverse
      = decimal port.toNat := by
    rw [hreverse, List.takeWhile_append_of_pos hall]
    simp
  have hdrop : (host ++ ':' :: decimal port.toNat).reverse.dropWhile (· ≠ ':')
      = ':' :: host.reverse := by
    rw [hreverse, List.dropWhile_append_of_pos hall]
    simp
  unfold parse
  split
  · rename_i inner heq
    obtain ⟨first, rest, rfl⟩ := List.exists_cons_of_ne_nil hhost
    exact absurd (congrArg List.head? heq) (by simpa using hbracket)
  · simp only [htake, hdrop, readUInt16_decimal, List.reverse_eq_nil_iff, hhost, if_false,
      List.reverse_reverse]

/-- An endpoint that can be told from its text. -/
def Plain (endpoint : LanEndpoint) : Prop :=
  endpoint.host.toList ≠ [] ∧
    if endpoint.isIpv6 then ']' ∉ endpoint.host.toList else endpoint.host.toList.head? ≠ some '['

theorem parse_description {endpoint : LanEndpoint} (h : endpoint.Plain) :
    parse endpoint.description = some endpoint := by
  obtain ⟨host, port, isIpv6⟩ := endpoint
  obtain ⟨hne, hhost⟩ := h
  cases isIpv6 with
  | true =>
      simp only [if_true] at hhost
      simp only [description, if_true]
      rw [parse_brackets hne hhost, String.ofList_toList]
  | false =>
      simp only [Bool.false_eq_true, if_false] at hhost
      simp only [description, Bool.false_eq_true, if_false]
      rw [parse_plain hne hhost, String.ofList_toList]

/-- What is read can be told from its text. -/
theorem plain_of_parse {text : List Char} {endpoint : LanEndpoint}
    (h : parse text = some endpoint) : endpoint.Plain := by
  unfold parse at h
  split at h
  · rename_i inner
    simp only at h
    split at h
    · split at h
      · split at h
        · cases h
        · rename_i hne
          cases h
          refine ⟨by simpa using hne, ?_⟩
          simp only [if_true, String.toList_ofList]
          exact fun hmem => by simpa using List.mem_takeWhile_imp hmem
      · cases h
    · cases h
  · rename_i hbracket
    split at h
    · cases h
    · rename_i colon host hdrop
      split at h
      · split at h
        · cases h
        · rename_i hne
          cases h
          refine ⟨by simpa using hne, ?_⟩
          simp only [Bool.false_eq_true, if_false, String.toList_ofList]
          intro hhead
          obtain ⟨rest, hrest⟩ := List.head?_eq_some_iff.mp hhead
          -- the text begins as its host does
          have hsplit := List.takeWhile_append_dropWhile (p := (· ≠ ':')) (l := text.reverse)
          rw [hdrop] at hsplit
          have htext := congrArg List.reverse hsplit
          rw [List.reverse_reverse, List.reverse_append, List.reverse_cons, hrest] at htext
          simp only [List.cons_append] at htext
          exact hbracket _ htext.symm
      · cases h

/-- A hint that was read is kept as a text that is read as the same hint. -/
theorem parse_description_of_parse {text : List Char} {endpoint : LanEndpoint}
    (h : parse text = some endpoint) : parse endpoint.description = some endpoint :=
  parse_description (plain_of_parse h)

end LanEndpoint

/-! ### What a text says of its address -/

/-- The host of a socket address, as it is printed. -/
def hostText : SocketAddr → List Char
  | .v4 ip _ => ip.text
  | .v6 ip _ scopeId => if scopeId = 0 then ip.text else ip.text ++ '%' :: decimal scopeId.toNat

/-- The endpoint that a socket address is read as. -/
def hint (addr : SocketAddr) : LanEndpoint := ⟨.ofList (hostText addr), addr.port, addr.isIpv6⟩

theorem hostText_v6 (ip : Ipv6Addr) (port : UInt16) (scopeId : UInt32) :
    hostText (.v6 ip port scopeId)
      = ip.text ++ if scopeId = 0 then [] else '%' :: decimal scopeId.toNat := by
  by_cases hscope : scopeId = 0
  · simp [hostText, hscope]
  · simp [hostText, hscope]

theorem mem_hostText {addr : SocketAddr} {c : Char} (hc : c ∈ hostText addr) :
    c = ':' ∨ c = '.' ∨ c = '%' ∨ c ∈ DIGITS := by
  cases addr with
  | v4 ip port =>
      rcases Ipv4Addr.mem_text hc with h | h
      · exact .inr (.inl h)
      · exact .inr (.inr (.inr h))
  | v6 ip port scopeId =>
      rw [hostText_v6, List.mem_append] at hc
      rcases hc with hc | hc
      · exact (Ipv6Addr.mem_text hc).imp_right (Or.imp_right .inr)
      · split at hc
        · cases hc
        · rcases List.mem_cons.mp hc with rfl | hc
          · exact .inr (.inr (.inl rfl))
          · exact .inr (.inr (.inr (mem_DIGITS (by decide) (by decide) hc)))

theorem hostText_ne_nil (addr : SocketAddr) : hostText addr ≠ [] := by
  cases addr with
  | v4 ip port =>
      obtain ⟨rest, hrest⟩ := ip.text_eq
      simp [hostText, hrest]
  | v6 ip port scopeId =>
      rw [hostText_v6]
      exact List.append_ne_nil_of_left_ne_nil (List.ne_nil_of_mem ip.colon_mem_text) _

/-- A hint is kept as the text that Rust prints. -/
theorem description_hint (addr : SocketAddr) : (hint addr).description = addr.text := by
  cases addr with
  | v4 ip port =>
      simp [hint, LanEndpoint.description, hostText, SocketAddr.text, SocketAddr.port,
        SocketAddr.isIpv6, decimal]
  | v6 ip port scopeId =>
      by_cases hscope : scopeId = 0
      · simp [hint, LanEndpoint.description, hostText, SocketAddr.text, SocketAddr.port,
          SocketAddr.isIpv6, decimal, hscope]
      · simp [hint, LanEndpoint.description, hostText, SocketAddr.text, SocketAddr.port,
          SocketAddr.isIpv6, decimal, hscope]

/-- The phone reads every socket address that Rust prints. -/
theorem parse_text (addr : SocketAddr) : LanEndpoint.parse addr.text = some (hint addr) := by
  have hbrackets : ∀ c ∈ hostText addr, c ≠ '[' ∧ c ≠ ']' := by
    intro c hc
    have hcases := mem_hostText hc
    constructor <;> rintro rfl <;> exact absurd hcases (by decide)
  rw [← description_hint]
  refine LanEndpoint.parse_description ⟨by simpa [hint] using hostText_ne_nil addr, ?_⟩
  simp only [hint, String.toList_ofList]
  split
  · exact fun hmem => (hbrackets _ hmem).2 rfl
  · exact fun hhead => (hbrackets _ (List.mem_of_mem_head? hhead)).1 rfl

/-! ### Loopback -/

/-- A field at the start of a text is the text's first field. -/
theorem field_prefix_iff {sep : Char} {field first rest : List Char} (hfield : sep ∉ field)
    (hfirst : sep ∉ first) : field ++ [sep] <+: first ++ sep :: rest ↔ field = first := by
  constructor
  · rintro ⟨tail, htail⟩
    have hall : ∀ {l : List Char}, sep ∉ l → ∀ c ∈ l, decide (c ≠ sep) = true := fun hl c hc =>
      decide_eq_true fun heq => hl (heq ▸ hc)
    have htake := congrArg (List.takeWhile (· ≠ sep)) htail
    rw [List.append_assoc, List.takeWhile_append_of_pos (hall hfield),
      List.takeWhile_append_of_pos (hall hfirst)] at htake
    simpa using htake
  · rintro rfl
    exact ⟨rest, by simp⟩

theorem loopback_v4_iff (ip : Ipv4Addr) :
    "127.".toList <+: ip.text ↔ ip.isLoopback = true := by
  obtain ⟨rest, hrest⟩ := ip.text_eq
  have hdot : ∀ n, '.' ∉ Nat.toDigits 10 n := fun n hmem =>
    absurd (Nat.isDigit_of_mem_toDigits (by decide) (by decide) hmem) (by decide)
  have hfield : "127.".toList = Nat.toDigits 10 127 ++ ['.'] := by decide
  rw [hrest, hfield, field_prefix_iff (hdot _) (hdot _), Ipv4Addr.isLoopback, beq_iff_eq,
    ← UInt8.toNat_inj]
  constructor
  · intro h
    have hvalue := congrArg (readDigits 10) h
    rw [readDigits_toDigits (by decide) (by decide),
      readDigits_toDigits (by decide) (by decide)] at hvalue
    exact hvalue.symm
  · intro h
    rw [h]
    rfl

/-- The text of an IPv6 address has no dot before its first colon. -/
theorem not_loopback_prefix_v6 (ip : Ipv6Addr) (rest : List Char) :
    ¬"127.".toList <+: ip.text ++ rest := by
  rintro ⟨tail, htail⟩
  by_cases hdot : '.' ∈ ip.text
  · obtain ⟨v4, hv4⟩ := Option.ne_none_iff_exists'.mp (ip.dot_mem_text_iff.mp hdot)
    simp [Ipv6Addr.text, hv4] at htail
  · have hsplit : "127".toList ++ '.' :: tail = ip.text ++ rest := by
      rw [← htail]
      rfl
    rcases List.append_eq_append_iff.mp hsplit with ⟨more, htext, hmore⟩ | ⟨more, htext, -⟩
    · cases more with
      | nil =>
          have hcolon := ip.colon_mem_text
          rw [htext] at hcolon
          exact absurd hcolon (by decide)
      | cons c more =>
          obtain ⟨rfl, -⟩ := List.cons_eq_cons.mp hmore
          exact hdot (by rw [htext]; simp)
    · have hcolon := List.mem_append_left more ip.colon_mem_text
      rw [← htext] at hcolon
      exact absurd hcolon (by decide)

theorem loopback_v6_iff (ip : Ipv6Addr) : ip.text = "::1".toList ↔ ip.isLoopback = true := by
  have hone : (⟨[0, 0, 0, 0, 0, 0, 0, 1], rfl⟩ : Ipv6Addr).text = "::1".toList := by decide
  rw [← hone, Ipv6Addr.text_injective.eq_iff, Ipv6Addr.isLoopback, beq_iff_eq,
    Ipv6Addr.ext_iff_segments]

/-- What the phone takes for loopback is loopback. -/
theorem isLoopback_hint (addr : SocketAddr) :
    (hint addr).isLoopback = true ↔ addr.ip.isLoopback = true ∧ addr.scopeId = 0 := by
  have hlocal : "127.".toList <+: "127.0.0.1".toList := by decide
  cases addr with
  | v4 ip port =>
      simp only [LanEndpoint.isLoopback, hint, hostText, String.toList_ofList, Bool.or_eq_true,
        beq_iff_eq, List.isPrefixOf_iff_prefix, SocketAddr.ip, IpAddr.isLoopback,
        SocketAddr.scopeId, and_true]
      rw [← loopback_v4_iff]
      constructor
      · rintro ((h | h) | h)
        · exact h ▸ hlocal
        · exact absurd (h ▸ List.mem_cons_self : ':' ∈ ip.text) ip.colon_not_mem_text
        · exact h
      · exact .inr
  | v6 ip port scopeId =>
      simp only [LanEndpoint.isLoopback, hint, hostText_v6, String.toList_ofList, Bool.or_eq_true,
        beq_iff_eq, List.isPrefixOf_iff_prefix, SocketAddr.ip, IpAddr.isLoopback,
        SocketAddr.scopeId, not_loopback_prefix_v6, or_false]
      rw [← loopback_v6_iff]
      constructor
      · rintro (h | h)
        · exact absurd (h ▸ hlocal) (not_loopback_prefix_v6 ip _)
        · by_cases hscope : scopeId = 0
          · exact ⟨by simpa [hscope] using h, hscope⟩
          · rw [if_neg hscope] at h
            exact absurd (h ▸ by simp : '%' ∈ "::1".toList) (by decide)
      · rintro ⟨h, rfl⟩
        exact .inr (by simpa using h)

/-! ### Link-local addresses -/

/-- `fe80::/10`. -/
def isLinkLocalV6 : IpAddr → Bool
  | .v4 _ => false
  | .v6 ip => (ip.first &&& 0xffc0) == 0xfe80

/-- A segment of four digits. -/
theorem hexText_eq {segment : UInt16} (h : 4096 ≤ segment.toNat) :
    hexText segment = [Nat.digitChar (segment.toNat / 4096),
      Nat.digitChar (segment.toNat / 256 % 16), Nat.digitChar (segment.toNat / 16 % 16),
      Nat.digitChar (segment.toNat % 16)] := by
  have hlt := segment.toNat_lt
  rw [hexText, Nat.toDigits_of_base_le (by decide) (by omega),
    Nat.toDigits_of_base_le (by decide) (by omega), Nat.toDigits_of_base_le (by decide) (by omega),
    Nat.toDigits_of_lt_base (by omega)]
  simp only [Nat.div_div_eq_div_mul, Nat.reduceMul, List.cons_append, List.nil_append]

/-- What the phone compares of a text: its first three characters. -/
def startsLinkLocal (text : List Char) : Bool :=
  "fe8".toList.isPrefixOf text || "fe9".toList.isPrefixOf text || "fea".toList.isPrefixOf text ||
    "feb".toList.isPrefixOf text

theorem startsLinkLocal_cons (a b c : Char) (rest : List Char) :
    startsLinkLocal (a :: b :: c :: rest) = true
      ↔ a = 'f' ∧ b = 'e' ∧ (c = '8' ∨ c = '9' ∨ c = 'a' ∨ c = 'b') := by
  have htest : startsLinkLocal (a :: b :: c :: rest) = true
      ↔ ((['f', 'e', '8'] <+: a :: b :: c :: rest ∨ ['f', 'e', '9'] <+: a :: b :: c :: rest) ∨
        ['f', 'e', 'a'] <+: a :: b :: c :: rest) ∨ ['f', 'e', 'b'] <+: a :: b :: c :: rest := by
    simp only [startsLinkLocal, Bool.or_eq_true, List.isPrefixOf_iff_prefix]
    rfl
  rw [htest]
  simp only [List.cons_prefix_cons, List.nil_prefix, and_true]
  constructor
  · rintro (((⟨rfl, rfl, rfl⟩ | ⟨rfl, rfl, rfl⟩) | ⟨rfl, rfl, rfl⟩) | ⟨rfl, rfl, rfl⟩) <;> simp
  · rintro ⟨rfl, rfl, rfl | rfl | rfl | rfl⟩ <;> simp

/-- Of a segment that is private or link-local, the text tells whether it is link-local. -/
theorem startsLinkLocal_hexText {segment : UInt16} (h : 0xfc00 ≤ segment.toNat)
    (rest : List Char) :
    startsLinkLocal (hexText segment ++ rest) = true ↔ (segment &&& 0xffc0) = 0xfe80 := by
  have hlt := segment.toNat_lt
  have hlink : (segment &&& 0xffc0) = 0xfe80
      ↔ segment.toNat / 2 ^ 6 = (0xfe80 : UInt16).toNat / 2 ^ 6 := land_eq_iff rfl rfl
  rw [hlink, hexText_eq (by omega), List.cons_append, List.cons_append, List.cons_append,
    startsLinkLocal_cons]
  simp only [Nat.digitChar_eq_f, Nat.digitChar_eq_e, Nat.digitChar_eq_eight, Nat.digitChar_eq_nine,
    Nat.digitChar_eq_a, Nat.digitChar_eq_b, UInt16.reduceToNat]
  norm_num
  omega

/-- The first segment of a private address is that of a unique-local or link-local one, or zero. -/
theorem first_of_isPrivate {ip : Ipv6Addr} (h : isPrivate (.v6 ip) = true) :
    ip.first = 0 ∨ 0xfc00 ≤ ip.first.toNat := by
  have hunique : (ip.first &&& 0xfe00) = 0xfc00
      ↔ ip.first.toNat / 2 ^ 9 = (0xfc00 : UInt16).toNat / 2 ^ 9 := land_eq_iff rfl rfl
  have hlink : (ip.first &&& 0xffc0) = 0xfe80
      ↔ ip.first.toNat / 2 ^ 6 = (0xfe80 : UInt16).toNat / 2 ^ 6 := land_eq_iff rfl rfl
  simp only [UInt16.reduceToNat] at hunique hlink
  by_cases hloopback : ip.isLoopback = true
  · have hsegments := beq_iff_eq.mp hloopback
    rw [ip.segments_eq] at hsegments
    exact .inl (List.cons_eq_cons.mp hsegments).1
  · by_cases hu : (ip.first &&& 0xfe00) = 0xfc00
    · have := hunique.mp hu
      omega
    · by_cases hl : (ip.first &&& 0xffc0) = 0xfe80
      · have := hlink.mp hl
        omega
      · by_contra hne
        have hmapped := Ipv6Addr.toIpv4Mapped_eq_none fun hzero => hne (.inl hzero)
        simp [isPrivate, isPrivateV6, hloopback, hu, hl, hmapped] at h

theorem toLower_hostText (addr : SocketAddr) :
    (hostText addr).map Char.toLower = hostText addr := by
  have hdigits : DIGITS.all (fun c => c.toLower == c) = true := by decide
  conv_rhs => rw [← List.map_id (hostText addr)]
  refine List.map_congr_left fun c hc => ?_
  rcases mem_hostText hc with rfl | rfl | rfl | hc
  · rfl
  · rfl
  · rfl
  · exact beq_iff_eq.mp (List.all_eq_true.mp hdigits c hc)

/-- A private address whose first segment is zero is `::1` or mapped. -/
theorem text_of_first_eq_zero {ip : Ipv6Addr} (h : isPrivate (.v6 ip) = true)
    (hfirst : ip.first = 0) : ∃ rest, ip.text = ':' :: rest := by
  by_cases hloopback : ip.isLoopback = true
  · exact ⟨":1".toList, (loopback_v6_iff ip).mpr hloopback⟩
  · cases hmapped : ip.toIpv4Mapped with
    | some v4 => exact ⟨":ffff:".toList ++ v4.text, by simp [Ipv6Addr.text, hmapped]⟩
    | none => simp [isPrivate, isPrivateV6, hloopback, hfirst, hmapped] at h

/-- What the phone takes for a link-local address without a zone is one, if it is private at all. -/
theorem isScopelessLinkLocalIpv6_hint {addr : SocketAddr} (h : isPrivate addr.ip = true) :
    (hint addr).isScopelessLinkLocalIpv6 = true
      ↔ isLinkLocalV6 addr.ip = true ∧ addr.scopeId = 0 := by
  cases addr with
  | v4 ip port => simp [LanEndpoint.isScopelessLinkLocalIpv6, hint, SocketAddr.isIpv6,
      SocketAddr.ip, isLinkLocalV6]
  | v6 ip port scopeId =>
      have htest : (hint (.v6 ip port scopeId)).isScopelessLinkLocalIpv6 = true
          ↔ '%' ∉ hostText (.v6 ip port scopeId) ∧
            startsLinkLocal (hostText (.v6 ip port scopeId)) = true := by
        simp only [LanEndpoint.isScopelessLinkLocalIpv6, hint, SocketAddr.isIpv6,
          String.toList_ofList, Bool.true_eq_false, false_or, toLower_hostText]
        split
        · simp_all
        · simp_all [startsLinkLocal]
      have hpercent : '%' ∈ hostText (.v6 ip port scopeId) ↔ scopeId ≠ 0 := by
        have hno : '%' ∉ ip.text := fun hmem => absurd (Ipv6Addr.mem_text hmem) (by decide)
        by_cases hscope : scopeId = 0
        · simp [hostText_v6, hscope, hno]
        · simp [hostText_v6, hscope]
      have hstarts : startsLinkLocal (hostText (.v6 ip port scopeId)) = true
          ↔ isLinkLocalV6 (.v6 ip) = true := by
        rw [isLinkLocalV6, beq_iff_eq, hostText_v6]
        by_cases hfirst : ip.first = 0
        · obtain ⟨rest, hrest⟩ := text_of_first_eq_zero h hfirst
          rw [hrest, hfirst]
          simp [startsLinkLocal]
        · obtain ⟨rest, hrest⟩ := Ipv6Addr.text_eq hfirst
          rw [hrest, List.append_assoc]
          exact startsLinkLocal_hexText ((first_of_isPrivate h).resolve_left hfirst) _
      rw [htest, hpercent, hstarts, not_not]
      exact and_comm

/-! ### What the phone dials -/

/-- The phone has a way to a socket: it is not the phone's own loopback, and not a link-local
address of which the zone is not known. -/
def dialable (addr : SocketAddr) : Bool :=
  !((addr.ip.isLoopback || isLinkLocalV6 addr.ip) && addr.scopeId == 0)

/-- The hints of a listener, as they stand in the QR code. -/
def lanHints (listener : LanListener) : List (List Char) := listener.addrs.map SocketAddr.text

theorem parse_lanHints (addrs : List SocketAddr) :
    (addrs.map SocketAddr.text).mapM LanEndpoint.parse = some (addrs.map hint) := by
  induction addrs with
  | nil => rfl
  | cons addr addrs ih =>
      rw [List.map_cons, List.mapM_cons, parse_text, ih]
      rfl

theorem reachable_hint {addr : SocketAddr} (h : isPrivate addr.ip = true) :
    (!(hint addr).isLoopback && !(hint addr).isScopelessLinkLocalIpv6) = dialable addr := by
  have hloopback := isLoopback_hint addr
  have hlink := isScopelessLinkLocalIpv6_hint h
  rw [Bool.eq_iff_iff]
  simp only [dialable, Bool.and_eq_true, Bool.not_eq_true', Bool.and_eq_false_iff,
    Bool.or_eq_false_iff, beq_eq_false_iff_ne]
  rw [← Bool.not_eq_true, ← Bool.not_eq_true, hloopback, hlink]
  by_cases hscope : addr.scopeId = 0
  · simp [hscope]
  · simp [hscope]

/-- The sockets that the phone can reach, those of IPv4 first. -/
def dialSockets (listener : LanListener) : List SocketAddr :=
  (listener.addrs.filter fun addr => dialable addr && !addr.isIpv6) ++
    listener.addrs.filter fun addr => dialable addr && addr.isIpv6

/-- The phone dials the listener's sockets that it can reach, and keeps their texts. -/
theorem dialOrder_of_sound {listener : LanListener} (h : listener.Sound) :
    ∃ hints, (lanHints listener).mapM LanEndpoint.parse = some hints ∧
      hints.map LanEndpoint.description = lanHints listener ∧
      dialOrder hints = (dialSockets listener).map hint := by
  refine ⟨listener.addrs.map hint, parse_lanHints _, ?_, ?_⟩
  · rw [List.map_map]
    exact List.map_congr_left fun addr _ => description_hint addr
  · have hreachable : (listener.addrs.map hint).filter
        (fun hint => !hint.isLoopback && !hint.isScopelessLinkLocalIpv6)
          = (listener.addrs.filter dialable).map hint := by
      rw [List.filter_map]
      congr 1
      exact List.filter_congr fun addr haddr => reachable_hint (h.isPrivate addr haddr)
    unfold dialOrder dialSockets
    simp only [hreachable]
    rw [List.filter_map, List.filter_map, List.filter_filter, List.filter_filter, ← List.map_append]
    congr 2
    · exact List.filter_congr fun addr _ => Bool.and_comm _ _
    · exact List.filter_congr fun addr _ => Bool.and_comm _ _

/-! ### Dialling -/

/-- What pairing and connecting fail with before there is a connection. -/
inductive DialError
  | noReachableAddress
  | couldNotReachHost (failures : List Char)
  deriving DecidableEq, Repr

/-- What is reported of an endpoint that does not answer. -/
def failureText (endpoint : LanEndpoint) (detail : List Char) : List Char :=
  endpoint.description ++ ": ".toList ++ detail

variable {S : Type}

/-- Each endpoint in turn, after some failures. -/
def dialFrom (connect : LanEndpoint → Except (List Char) S) (failures : List (List Char)) :
    List LanEndpoint → Except DialError S
  | [] => .error (.couldNotReachHost ("; ".toList.intercalate failures))
  | endpoint :: rest =>
      match connect endpoint with
      | .ok stream => .ok stream
      | .error detail => dialFrom connect (failures ++ [failureText endpoint detail]) rest

/-- Dial some hints, if any of them can be reached. -/
def dial (connect : LanEndpoint → Except (List Char) S) (hints : List LanEndpoint) :
    Except DialError S :=
  if dialOrder hints = [] then .error .noReachableAddress
  else dialFrom connect [] (dialOrder hints)

theorem dialFrom_spec (connect : LanEndpoint → Except (List Char) S) (failures : List (List Char))
    (endpoints : List LanEndpoint) :
    (∃ before endpoint after stream, endpoints = before ++ endpoint :: after ∧
      (∀ other ∈ before, ∃ detail, connect other = .error detail) ∧
      connect endpoint = .ok stream ∧ dialFrom connect failures endpoints = .ok stream) ∨
    ∃ details,
      List.Forall₂ (fun endpoint detail => connect endpoint = .error detail) endpoints details ∧
      dialFrom connect failures endpoints = .error (.couldNotReachHost
        ("; ".toList.intercalate (failures ++ List.zipWith failureText endpoints details))) := by
  induction endpoints generalizing failures with
  | nil => exact .inr ⟨[], .nil, by simp [dialFrom]⟩
  | cons endpoint rest ih =>
      cases hconnect : connect endpoint with
      | ok stream =>
          exact .inl ⟨[], endpoint, rest, stream, rfl, by simp, hconnect, by
            simp only [dialFrom, hconnect]⟩
      | error detail =>
          simp only [dialFrom, hconnect]
          rcases ih (failures ++ [failureText endpoint detail]) with
            ⟨before, other, after, stream, rfl, hbefore, hother, hrun⟩ | ⟨details, hdetails, hrun⟩
          · exact .inl ⟨endpoint :: before, other, after, stream, rfl,
              List.forall_mem_cons.mpr ⟨⟨detail, hconnect⟩, hbefore⟩, hother, hrun⟩
          · refine .inr ⟨detail :: details, .cons hconnect hdetails, ?_⟩
            rw [hrun, List.append_assoc]
            rfl

theorem dial_of_sound {listener : LanListener} (h : listener.Sound)
    (connect : LanEndpoint → Except (List Char) S) :
    ∃ hints, (lanHints listener).mapM LanEndpoint.parse = some hints ∧
      (dialSockets listener = [] ∧ dial connect hints = .error .noReachableAddress ∨
        (∃ before addr after stream, dialSockets listener = before ++ addr :: after ∧
          (∀ other ∈ before, ∃ detail, connect (hint other) = .error detail) ∧
          connect (hint addr) = .ok stream ∧ dial connect hints = .ok stream) ∨
        dialSockets listener ≠ [] ∧ ∃ details,
          List.Forall₂ (fun addr detail => connect (hint addr) = .error detail)
            (dialSockets listener) details ∧
          dial connect hints = .error (.couldNotReachHost ("; ".toList.intercalate
            (List.zipWith (fun addr detail => addr.text ++ ": ".toList ++ detail)
              (dialSockets listener) details)))) := by
  obtain ⟨hints, hparse, -, horder⟩ := dialOrder_of_sound h
  refine ⟨hints, hparse, ?_⟩
  by_cases hnil : dialSockets listener = []
  · exact .inl ⟨hnil, by simp [dial, horder, hnil]⟩
  · have hdial : dial connect hints = dialFrom connect [] ((dialSockets listener).map hint) := by
      rw [dial, horder, if_neg (by simpa using hnil)]
    rw [hdial]
    rcases dialFrom_spec connect [] ((dialSockets listener).map hint) with
      ⟨before, endpoint, after, stream, hsplit, hbefore, hendpoint, hrun⟩ |
      ⟨details, hdetails, hrun⟩
    · obtain ⟨earlier, rest, hsockets, rfl, hrest⟩ := List.map_eq_append_iff.mp hsplit
      obtain ⟨addr, later, rfl, rfl, rfl⟩ := List.map_eq_cons_iff.mp hrest
      refine .inr (.inl ⟨earlier, addr, later, stream, hsockets, fun other hother => ?_, hendpoint,
        hrun⟩)
      exact hbefore (hint other) (List.mem_map_of_mem hother)
    · refine .inr (.inr ⟨hnil, details, List.forall₂_map_left_iff.mp hdetails, ?_⟩)
      rw [hrun, List.nil_append, List.zipWith_map_left]
      simp only [failureText, description_hint]

/-- What the phone makes of the hints of a listener: it is connected to the first socket that
answers of those it can reach, all of them private and none loopback, or reports the failure of
every one, in order. -/
theorem dial_of_bind {system : SocketAddr → BindAnswer} (hsystem : BindsAsAsked system)
    {interfaces : Option (List IpAddr)} {port : UInt16} {listener : LanListener}
    (hbind : LanListener.bind system interfaces port = .ok listener)
    (connect : LanEndpoint → Except (List Char) S) :
    ∃ hints, (lanHints listener).mapM LanEndpoint.parse = some hints ∧
      hints.map LanEndpoint.description = lanHints listener ∧
      (∀ addr ∈ dialSockets listener,
        addr ∈ listener.addrs ∧ isPrivate addr.ip = true ∧ dialable addr = true) ∧
      (dialSockets listener = [] ∧ dial connect hints = .error .noReachableAddress ∨
        (∃ before addr after stream, dialSockets listener = before ++ addr :: after ∧
          (∀ other ∈ before, ∃ detail, connect (hint other) = .error detail) ∧
          connect (hint addr) = .ok stream ∧ dial connect hints = .ok stream) ∨
        dialSockets listener ≠ [] ∧ ∃ details,
          List.Forall₂ (fun addr detail => connect (hint addr) = .error detail)
            (dialSockets listener) details ∧
          dial connect hints = .error (.couldNotReachHost ("; ".toList.intercalate
            (List.zipWith (fun addr detail => addr.text ++ ": ".toList ++ detail)
              (dialSockets listener) details)))) := by
  have hsound := sound_of_bind hsystem hbind
  obtain ⟨hints, hparse, hdial⟩ := dial_of_sound hsound connect
  obtain ⟨others, hothers, hkept, -⟩ := dialOrder_of_sound hsound
  obtain rfl := Option.some.inj (hparse.symm.trans hothers)
  refine ⟨hints, hparse, hkept, fun addr haddr => ?_, hdial⟩
  have hmem : addr ∈ listener.addrs ∧ dialable addr = true := by
    rcases List.mem_append.mp haddr with haddr | haddr
    · obtain ⟨hmem, htest⟩ := List.mem_filter.mp haddr
      exact ⟨hmem, (Bool.and_eq_true_iff.mp htest).1⟩
    · obtain ⟨hmem, htest⟩ := List.mem_filter.mp haddr
      exact ⟨hmem, (Bool.and_eq_true_iff.mp htest).1⟩
  exact ⟨hmem.1, hsound.isPrivate addr hmem.1, hmem.2⟩

/-- A phone that gets through to one of the sockets. -/
def toyConnect (endpoint : LanEndpoint) : Except (List Char) ℕ :=
  if endpoint.host.toList = "192.168.1.20".toList then .ok 7 else .error "timed out".toList

theorem dial_of_bind_small :
    ∃ hints, (lanHints toyListener).mapM LanEndpoint.parse = some hints ∧
      hints.map LanEndpoint.description = lanHints toyListener ∧
      (∀ addr ∈ dialSockets toyListener,
        addr ∈ toyListener.addrs ∧ isPrivate addr.ip = true ∧ dialable addr = true) ∧
      (dialSockets toyListener = [] ∧ dial toyConnect hints = .error .noReachableAddress ∨
        (∃ before addr after stream, dialSockets toyListener = before ++ addr :: after ∧
          (∀ other ∈ before, ∃ detail, toyConnect (hint other) = .error detail) ∧
          toyConnect (hint addr) = .ok stream ∧ dial toyConnect hints = .ok stream) ∨
        dialSockets toyListener ≠ [] ∧ ∃ details,
          List.Forall₂ (fun addr detail => toyConnect (hint addr) = .error detail)
            (dialSockets toyListener) details ∧
          dial toyConnect hints = .error (.couldNotReachHost ("; ".toList.intercalate
            (List.zipWith (fun addr detail => addr.text ++ ": ".toList ++ detail)
              (dialSockets toyListener) details)))) :=
  dial_of_bind toySystem_bindsAsAsked bind_toySystem toyConnect

/-- Beyond the private addresses the text is no test. -/
example : (hint (.v6 ⟨[0xfe8, 0, 0, 0, 0, 0, 0, 1], rfl⟩ 47010 0)).isScopelessLinkLocalIpv6 = true ∧
    isLinkLocalV6 (.v6 ⟨[0xfe8, 0, 0, 0, 0, 0, 0, 1], rfl⟩) = false := by
  decide

end Osprey
