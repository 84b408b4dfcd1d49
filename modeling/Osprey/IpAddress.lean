/-
**Internet addresses and the networks they are in.**

An address is what the standard library has: four octets, or eight segments of sixteen bits.  A
network is a base address and a number of leading bits that an address shares with it, so whether an
address is in a network is one division of the numbers that the two stand for.  Code tests the same
by octets, segments and masks, and the lemmas here turn one into the other.

Main definitions:

* `IpAddress.Ipv4Addr`, `IpAddress.Ipv6Addr`, `IpAddress.IpAddr` — addresses;
* `IpAddress.Ipv6Addr.toIpv4Mapped`, `IpAddress.Ipv4Addr.toIpv6Mapped` — the IPv4 addresses among
  the IPv6 addresses;
* `IpAddress.Network` — base address and number of bits, with `ip ∈ network`;
* `IpAddress.Network.mapped` — an IPv4 network among the IPv6 addresses.

Main results:

* `IpAddress.land_mask` — a mask of leading ones rounds down to a multiple;
* `IpAddress.Ipv6Addr.mem_iff_first` — a network of at most sixteen bits looks at the first segment;
* `IpAddress.Network.mem_mapped` — **what is in a mapped network is mapped from the network**.
-/

import Mathlib.Data.Nat.Digits.Lemmas
import Mathlib.Tactic

set_option relaxedAutoImplicit false
set_option autoImplicit false

namespace IpAddress

/-! ### Addresses -/

/-- An IPv4 address, by its octets. -/
structure Ipv4Addr where
  a : UInt8
  b : UInt8
  c : UInt8
  d : UInt8
  deriving DecidableEq, Repr

/-- An IPv6 address, by its segments. -/
structure Ipv6Addr where
  segments : List UInt16
  length_eq : segments.length = 8
  deriving DecidableEq, Repr

inductive IpAddr
  | v4 (ip : Ipv4Addr)
  | v6 (ip : Ipv6Addr)
  deriving DecidableEq, Repr

namespace Ipv4Addr

def isLoopback (ip : Ipv4Addr) : Bool := ip.a == 127

/-- `10.0.0.0/8`, `172.16.0.0/12` and `192.168.0.0/16`. -/
def isPrivate (ip : Ipv4Addr) : Bool :=
  ip.a == 10 || (ip.a == 172 && decide (16 ≤ ip.b) && decide (ip.b ≤ 31)) ||
    (ip.a == 192 && ip.b == 168)

def isLinkLocal (ip : Ipv4Addr) : Bool := ip.a == 169 && ip.b == 254

/-- The number that an address is, most significant octet first. -/
def toNat (ip : Ipv4Addr) : ℕ :=
  Nat.ofDigits 256 [ip.d.toNat, ip.c.toNat, ip.b.toNat, ip.a.toNat]

/-- `::ffff:a.b.c.d`. -/
def toIpv6Mapped (ip : Ipv4Addr) : Ipv6Addr where
  segments := [0, 0, 0, 0, 0, 0xffff, .ofNat (ip.a.toNat * 256 + ip.b.toNat),
    .ofNat (ip.c.toNat * 256 + ip.d.toNat)]
  length_eq := rfl

end Ipv4Addr

namespace Ipv6Addr

/-- `segments()[0]`. -/
def first (ip : Ipv6Addr) : UInt16 :=
  ip.segments.head fun h => by simpa [h] using ip.length_eq

def isLoopback (ip : Ipv6Addr) : Bool := ip.segments == [0, 0, 0, 0, 0, 0, 0, 1]

/-- The octets of the last two segments, if the others are those of a mapped address. -/
def toIpv4Mapped (ip : Ipv6Addr) : Option Ipv4Addr :=
  match ip.segments.drop 6 with
  | [ab, cd] =>
      if ip.segments.take 6 = [0, 0, 0, 0, 0, 0xffff] then
        some ⟨.ofNat (ab.toNat / 256), .ofNat ab.toNat, .ofNat (cd.toNat / 256), .ofNat cd.toNat⟩
      else none
  | _ => none

def toNat (ip : Ipv6Addr) : ℕ := Nat.ofDigits 65536 (ip.segments.reverse.map UInt16.toNat)

end Ipv6Addr

def IpAddr.isLoopback : IpAddr → Bool
  | .v4 ip => ip.isLoopback
  | .v6 ip => ip.isLoopback

/-! ### Masks -/

theorem testBit_mask (w k i : ℕ) :
    (2 ^ w - 2 ^ k).testBit i = (decide (k ≤ i) && decide (i < w)) := by
  rcases Nat.lt_or_ge w k with h | h
  · have hle : 2 ^ w ≤ 2 ^ k := Nat.pow_le_pow_right (by omega) h.le
    rw [Nat.sub_eq_zero_of_le hle, Nat.zero_testBit]
    symm
    simp only [Bool.and_eq_false_iff, decide_eq_false_iff_not]
    omega
  · have hmul : 2 ^ w - 2 ^ k = (2 ^ (w - k) - 1) * 2 ^ k := by
      rw [Nat.sub_mul, ← pow_add, Nat.sub_add_cancel h, one_mul]
    rw [hmul, Nat.testBit_mul_two_pow, Nat.testBit_two_pow_sub_one]
    by_cases hk : k ≤ i
    · simp only [hk, decide_true, Bool.true_and]
      exact decide_eq_decide.mpr (by omega)
    · simp [hk]

/-- A mask of leading ones rounds down to a multiple. -/
theorem land_mask {w k x : ℕ} (hx : x < 2 ^ w) : x &&& (2 ^ w - 2 ^ k) = x / 2 ^ k * 2 ^ k := by
  refine Nat.eq_of_testBit_eq fun i => ?_
  rw [Nat.testBit_and, testBit_mask, Nat.testBit_mul_two_pow, Nat.testBit_div_two_pow]
  by_cases hk : k ≤ i
  · rw [Nat.sub_add_cancel hk]
    by_cases hi : i < w
    · simp [hk, hi]
    · have hbit : x.testBit i = false :=
        Nat.testBit_lt_two_pow (hx.trans_le (Nat.pow_le_pow_right (by omega) (by omega)))
      simp [hbit]
  · simp [hk]

/-- A segment under a mask of leading ones is a value exactly when its leading bits are. -/
theorem land_eq_iff {s mask value : UInt16} {k : ℕ} (hmask : mask.toNat = 2 ^ 16 - 2 ^ k)
    (hvalue : value.toNat = value.toNat / 2 ^ k * 2 ^ k) :
    s &&& mask = value ↔ s.toNat / 2 ^ k = value.toNat / 2 ^ k := by
  have hpos : 0 < 2 ^ k := Nat.two_pow_pos k
  rw [← UInt16.toNat_inj, UInt16.toNat_and, hmask, land_mask s.toNat_lt, hvalue,
    Nat.mul_div_cancel _ hpos]
  exact ⟨fun h => Nat.eq_of_mul_eq_mul_right hpos h, fun h => by rw [h]⟩

/-! ### Addresses as numbers -/

theorem Ipv4Addr.toNat_eq (ip : Ipv4Addr) :
    ip.toNat = ((ip.a.toNat * 256 + ip.b.toNat) * 256 + ip.c.toNat) * 256 + ip.d.toNat := by
  simp only [toNat, Nat.ofDigits_cons, Nat.ofDigits_nil]
  omega

theorem Ipv4Addr.toNat_lt (ip : Ipv4Addr) : ip.toNat < 2 ^ 32 := by
  have ha := ip.a.toNat_lt
  have hb := ip.b.toNat_lt
  have hc := ip.c.toNat_lt
  have hd := ip.d.toNat_lt
  rw [toNat_eq]
  omega

namespace Ipv6Addr

theorem ext_iff_segments (ip other : Ipv6Addr) : ip = other ↔ ip.segments = other.segments :=
  ⟨congrArg segments, fun h => by cases ip; cases other; cases h; rfl⟩

theorem segments_eq (ip : Ipv6Addr) : ip.segments = ip.first :: ip.segments.tail :=
  (List.cons_head_tail _).symm

theorem segments_lt (ip : Ipv6Addr) : ∀ s ∈ ip.segments.reverse.map UInt16.toNat, s < 65536 := by
  intro s hs
  obtain ⟨segment, -, rfl⟩ := List.mem_map.mp hs
  exact segment.toNat_lt

/-- The number of an address determines it. -/
theorem toNat_inj (ip other : Ipv6Addr) : ip.toNat = other.toNat ↔ ip = other := by
  refine ⟨fun h => ?_, fun h => by rw [h]⟩
  have hlen : (ip.segments.reverse.map UInt16.toNat).length
      = (other.segments.reverse.map UInt16.toNat).length := by
    simp [ip.length_eq, other.length_eq]
  have heq := Nat.ofDigits_inj_of_len_eq (by decide) hlen (segments_lt ip) (segments_lt other) h
  rw [ext_iff_segments, ← List.reverse_inj]
  exact List.map_injective_iff.mpr (fun _ _ => UInt16.toNat_inj.mp) heq

/-- The first segments are what is left of the number without its last bits. -/
theorem toNat_div (ip : Ipv6Addr) (n : ℕ) :
    ip.toNat / 65536 ^ (8 - n)
      = Nat.ofDigits 65536 ((ip.segments.take n).reverse.map UInt16.toNat) := by
  have hsplit : ip.segments.reverse.map UInt16.toNat
      = (ip.segments.drop n).reverse.map UInt16.toNat
        ++ (ip.segments.take n).reverse.map UInt16.toNat := by
    rw [← List.map_append, ← List.reverse_append, List.take_append_drop]
  have hlen : ((ip.segments.drop n).reverse.map UInt16.toNat).length = 8 - n := by
    simp [ip.length_eq]
  have hlt : Nat.ofDigits 65536 ((ip.segments.drop n).reverse.map UInt16.toNat)
      < 65536 ^ (8 - n) := by
    rw [← hlen]
    refine Nat.ofDigits_lt_base_pow_length (by decide) fun s hs => segments_lt ip s ?_
    rw [hsplit]
    exact List.mem_append_left _ hs
  rw [toNat, hsplit, Nat.ofDigits_append, hlen, Nat.add_mul_div_left _ _ (by positivity),
    Nat.div_eq_of_lt hlt, Nat.zero_add]

end Ipv6Addr

/-! ### Networks -/

/-- The addresses that share their leading bits with a base address. -/
structure Network where
  base : IpAddr
  bits : ℕ
  deriving DecidableEq, Repr

/-- The addresses of one family are compared by their leading bits; none is in a network of the
other family. -/
def Network.contains (network : Network) : IpAddr → Bool
  | .v4 ip =>
      match network.base with
      | .v4 base => ip.toNat / 2 ^ (32 - network.bits) == base.toNat / 2 ^ (32 - network.bits)
      | .v6 _ => false
  | .v6 ip =>
      match network.base with
      | .v4 _ => false
      | .v6 base => ip.toNat / 2 ^ (128 - network.bits) == base.toNat / 2 ^ (128 - network.bits)

instance : Membership IpAddr Network := ⟨fun network ip => network.contains ip = true⟩

instance (network : Network) (ip : IpAddr) : Decidable (ip ∈ network) :=
  inferInstanceAs (Decidable (network.contains ip = true))

theorem Network.mem_def {network : Network} {ip : IpAddr} :
    ip ∈ network ↔ network.contains ip = true := Iff.rfl

theorem Ipv4Addr.mem_iff (ip base : Ipv4Addr) (bits : ℕ) :
    IpAddr.v4 ip ∈ (⟨.v4 base, bits⟩ : Network)
      ↔ ip.toNat / 2 ^ (32 - bits) = base.toNat / 2 ^ (32 - bits) := by
  simp [Network.mem_def, Network.contains]

theorem Ipv6Addr.mem_iff (ip base : Ipv6Addr) (bits : ℕ) :
    IpAddr.v6 ip ∈ (⟨.v6 base, bits⟩ : Network)
      ↔ ip.toNat / 2 ^ (128 - bits) = base.toNat / 2 ^ (128 - bits) := by
  simp [Network.mem_def, Network.contains]

theorem Network.not_v6_mem_v4 (ip : Ipv6Addr) (base : Ipv4Addr) (bits : ℕ) :
    IpAddr.v6 ip ∉ (⟨.v4 base, bits⟩ : Network) := by
  simp [Network.mem_def, Network.contains]

theorem Network.not_v4_mem_v6 (ip : Ipv4Addr) (base : Ipv6Addr) (bits : ℕ) :
    IpAddr.v4 ip ∉ (⟨.v6 base, bits⟩ : Network) := by
  simp [Network.mem_def, Network.contains]

/-- A network of all the bits is its base address. -/
theorem Ipv6Addr.mem_host_iff (ip base : Ipv6Addr) :
    IpAddr.v6 ip ∈ (⟨.v6 base, 128⟩ : Network) ↔ ip = base := by
  rw [mem_iff]
  simpa using toNat_inj ip base

theorem Ipv6Addr.toNat_div_first (ip : Ipv6Addr) {k : ℕ} (hk : k ≤ 16) :
    ip.toNat / 2 ^ (128 - (16 - k)) = ip.first.toNat / 2 ^ k := by
  have hpow : 2 ^ (128 - (16 - k)) = 65536 ^ 7 * 2 ^ k := by
    rw [show (65536 : ℕ) = 2 ^ 16 from rfl, ← pow_mul, ← pow_add]
    congr 1
    omega
  rw [hpow, ← Nat.div_div_eq_div_mul, ip.toNat_div 1, ip.segments_eq]
  simp

/-- A network of at most sixteen bits looks at the first segment. -/
theorem Ipv6Addr.mem_iff_first (ip base : Ipv6Addr) {k : ℕ} (hk : k ≤ 16) :
    IpAddr.v6 ip ∈ (⟨.v6 base, 16 - k⟩ : Network)
      ↔ ip.first.toNat / 2 ^ k = base.first.toNat / 2 ^ k := by
  rw [mem_iff, ip.toNat_div_first hk, base.toNat_div_first hk]

/-! ### IPv4 addresses among the IPv6 addresses -/

theorem Ipv4Addr.toNat_toIpv6Mapped (ip : Ipv4Addr) :
    ip.toIpv6Mapped.toNat = 0xffff * 2 ^ 32 + ip.toNat := by
  have ha := ip.a.toNat_lt
  have hb := ip.b.toNat_lt
  have hc := ip.c.toNat_lt
  have hd := ip.d.toNat_lt
  have hab : (UInt16.ofNat (ip.a.toNat * 256 + ip.b.toNat)).toNat = ip.a.toNat * 256 + ip.b.toNat :=
    UInt16.toNat_ofNat_of_lt' (by norm_num [UInt16.size]; omega)
  have hcd : (UInt16.ofNat (ip.c.toNat * 256 + ip.d.toNat)).toNat = ip.c.toNat * 256 + ip.d.toNat :=
    UInt16.toNat_ofNat_of_lt' (by norm_num [UInt16.size]; omega)
  rw [Ipv4Addr.toNat_eq, Ipv6Addr.toNat, toIpv6Mapped]
  simp only [List.reverse_cons, List.reverse_nil, List.nil_append, List.cons_append, List.map_cons,
    List.map_nil, Nat.ofDigits_cons, Nat.ofDigits_nil, hab, hcd, UInt16.reduceToNat]
  omega

/-- The mapped address of an IPv4 address is read back. -/
theorem Ipv6Addr.toIpv4Mapped_eq_some_iff {ip : Ipv6Addr} {v4 : Ipv4Addr} :
    ip.toIpv4Mapped = some v4 ↔ ip = v4.toIpv6Mapped := by
  constructor
  · intro h
    unfold toIpv4Mapped at h
    split at h
    · rename_i ab cd htail
      split at h
      · rename_i hhead
        cases h
        have hab := ab.toNat_lt
        have hcd := cd.toNat_lt
        have hjoin : ∀ s : UInt16, UInt16.ofNat
            ((UInt8.ofNat (s.toNat / 256)).toNat * 256 + (UInt8.ofNat s.toNat).toNat) = s := by
          intro s
          have hs := s.toNat_lt
          rw [← UInt16.toNat_inj, UInt16.toNat_ofNat', UInt8.toNat_ofNat', UInt8.toNat_ofNat']
          omega
        rw [ext_iff_segments, ← List.take_append_drop 6 ip.segments, hhead, htail]
        simp only [Ipv4Addr.toIpv6Mapped, hjoin]
        rfl
      · cases h
    · cases h
  · rintro rfl
    have hhigh : ∀ a b : UInt8,
        UInt8.ofNat ((UInt16.ofNat (a.toNat * 256 + b.toNat)).toNat / 256) = a := by
      intro a b
      have ha := a.toNat_lt
      have hb := b.toNat_lt
      rw [← UInt8.toNat_inj, UInt8.toNat_ofNat', UInt16.toNat_ofNat']
      omega
    have hlow : ∀ a b : UInt8, UInt8.ofNat (UInt16.ofNat (a.toNat * 256 + b.toNat)).toNat = b := by
      intro a b
      have ha := a.toNat_lt
      have hb := b.toNat_lt
      rw [← UInt8.toNat_inj, UInt8.toNat_ofNat', UInt16.toNat_ofNat']
      omega
    simp only [toIpv4Mapped, Ipv4Addr.toIpv6Mapped, List.drop_succ_cons, List.drop_zero,
      List.take_succ_cons, List.take_zero, if_true, hhigh, hlow]

/-- An address is mapped exactly when its leading bits are those of mapped addresses. -/
theorem Ipv6Addr.mapped_iff (ip : Ipv6Addr) :
    ip.toNat / 2 ^ 32 = 0xffff ↔ ∃ v4 : Ipv4Addr, ip = v4.toIpv6Mapped := by
  constructor
  · intro h
    have hpow : (2 : ℕ) ^ 32 = 65536 ^ (8 - 6) := by norm_num
    have hhead : Nat.ofDigits 65536 ((ip.segments.take 6).reverse.map UInt16.toNat)
        = Nat.ofDigits 65536
          (([0, 0, 0, 0, 0, 0xffff] : List UInt16).reverse.map UInt16.toNat) := by
      rw [← toNat_div, ← hpow, h]
      rfl
    have htake : ip.segments.take 6 = [0, 0, 0, 0, 0, 0xffff] := by
      have hlt : ∀ l : List UInt16, ∀ s ∈ l.reverse.map UInt16.toNat, s < 65536 := by
        intro l s hs
        obtain ⟨segment, -, rfl⟩ := List.mem_map.mp hs
        exact segment.toNat_lt
      have heq := Nat.ofDigits_inj_of_len_eq (by decide) (by simp [ip.length_eq]) (hlt _) (hlt _)
        hhead
      rw [← List.reverse_inj]
      exact List.map_injective_iff.mpr (fun _ _ => UInt16.toNat_inj.mp) heq
    obtain ⟨ab, cd, htail⟩ : ∃ ab cd, ip.segments.drop 6 = [ab, cd] :=
      List.length_eq_two.mp (by simp [ip.length_eq])
    cases hmapped : ip.toIpv4Mapped with
    | some v4 => exact ⟨v4, toIpv4Mapped_eq_some_iff.mp hmapped⟩
    | none => simp [toIpv4Mapped, htail, htake] at hmapped
  · rintro ⟨v4, rfl⟩
    have := v4.toNat_lt
    rw [v4.toNat_toIpv6Mapped]
    omega

/-- An IPv4 network among the IPv6 addresses. -/
def Network.mapped (network : Network) : Network :=
  match network.base with
  | .v4 base => ⟨.v6 base.toIpv6Mapped, 96 + network.bits⟩
  | .v6 _ => network

/-- What is in a mapped network is what is mapped from the network. -/
theorem Network.mem_mapped {base : Ipv4Addr} {bits : ℕ} (hbits : bits ≤ 32) (ip : Ipv6Addr) :
    IpAddr.v6 ip ∈ (⟨.v4 base, bits⟩ : Network).mapped
      ↔ ∃ v4, ip = v4.toIpv6Mapped ∧ IpAddr.v4 v4 ∈ (⟨.v4 base, bits⟩ : Network) := by
  have hwidth : 128 - (96 + bits) = 32 - bits := by omega
  have hpow : (2 : ℕ) ^ 32 = 2 ^ (32 - bits) * 2 ^ bits := by
    rw [← pow_add, Nat.sub_add_cancel hbits]
  -- the number of a mapped address, without the bits that the network leaves open
  have hdiv : ∀ v4 : Ipv4Addr, v4.toIpv6Mapped.toNat / 2 ^ (32 - bits)
      = 0xffff * 2 ^ bits + v4.toNat / 2 ^ (32 - bits) := by
    intro v4
    rw [v4.toNat_toIpv6Mapped, hpow, show 0xffff * (2 ^ (32 - bits) * 2 ^ bits) + v4.toNat
      = v4.toNat + 2 ^ (32 - bits) * (0xffff * 2 ^ bits) from by ring,
      Nat.add_mul_div_left _ _ (by positivity), Nat.add_comm]
  show IpAddr.v6 ip ∈ (⟨.v6 base.toIpv6Mapped, 96 + bits⟩ : Network) ↔ _
  rw [Ipv6Addr.mem_iff, hwidth, hdiv]
  constructor
  · intro h
    have hhead : ip.toNat / 2 ^ 32 = 0xffff := by
      have hlt : base.toNat / 2 ^ (32 - bits) < 2 ^ bits := by
        rw [Nat.div_lt_iff_lt_mul (by positivity), Nat.mul_comm, ← hpow]
        exact base.toNat_lt
      rw [hpow, ← Nat.div_div_eq_div_mul, h, Nat.add_comm, Nat.mul_comm,
        Nat.add_mul_div_left _ _ (by positivity), Nat.div_eq_of_lt hlt, Nat.zero_add]
    obtain ⟨v4, rfl⟩ := ip.mapped_iff.mp hhead
    refine ⟨v4, rfl, (v4.mem_iff base bits).mpr ?_⟩
    rw [hdiv] at h
    omega
  · rintro ⟨v4, rfl, hmem⟩
    rw [hdiv, (v4.mem_iff base bits).mp hmem]

end IpAddress
