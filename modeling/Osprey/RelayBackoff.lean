/-
**The delay before the relay is tried again.**

`Backoff` of `relay/link.rs`.  The delay doubles with each attempt up to a cap and is then moved by
at most a quarter, by the sub-second part of the clock, so that agents do not all come back at once.
The arithmetic saturates and truncates; for delays in whole milliseconds under 2^63 of them nothing
is lost, and the jitter is never so wide that a doubled delay is not longer.

Main definitions:

* `Osprey.StdDuration` — `std::time::Duration`;
* `Osprey.Backoff.nextDelay`, `Osprey.Backoff.reset` — the source's functions;
* `Osprey.Backoff.Scaled` — the delay before the jitter, in exact arithmetic;
* `Osprey.BackoffOp`, `Osprey.attemptsOf` — calls, and how many attempts there have been since the
  last reset.

Main results:

* `Osprey.Backoff.nanos_nextDelay` — the delay in exact arithmetic;
* `Osprey.Backoff.attempt_after` — the attempt that a backoff is at;
* `Osprey.backoff_laws` — **the delay is within a quarter of its scale, and grows strictly until the
  cap**.
-/

import Osprey.NetCounters

set_option relaxedAutoImplicit false
set_option autoImplicit false

namespace Osprey

/-! ### Durations -/

/-- `std::time::Duration`: nanoseconds, with 64 bits for the seconds. -/
structure StdDuration where
  nanos : ℕ
  bounded : nanos < 2 ^ 64 * 10 ^ 9
  deriving DecidableEq, Repr

namespace StdDuration

/-- `Duration::MAX`. -/
def MAX : StdDuration := ⟨2 ^ 64 * 10 ^ 9 - 1, by decide⟩

def saturatingMul (d : StdDuration) (factor : UInt32) : StdDuration :=
  if h : d.nanos * factor.toNat < 2 ^ 64 * 10 ^ 9 then ⟨d.nanos * factor.toNat, h⟩ else MAX

/-- `Ord::min`. -/
def min (d e : StdDuration) : StdDuration := if d.nanos ≤ e.nanos then d else e

/-- `as_millis`, which is an `u128`. -/
def asMillis (d : StdDuration) : ℕ := d.nanos / 10 ^ 6

def fromMillis (millis : UInt64) : StdDuration :=
  ⟨millis.toNat * 10 ^ 6, by have := millis.toNat_lt; omega⟩

def fromSecs (secs : UInt64) : StdDuration :=
  ⟨secs.toNat * 10 ^ 9, by have := secs.toNat_lt; omega⟩

end StdDuration

/-- `u64::saturating_sub`. -/
def saturatingSub (a b : UInt64) : UInt64 := UInt64.ofNat (a.toNat - b.toNat)

/-- `u32::saturating_pow`. -/
def saturatingPow (a exponent : UInt32) : UInt32 :=
  UInt32.ofNat (min (2 ^ 32 - 1) (a.toNat ^ exponent.toNat))

/-- `saturating_add(1)` of an `u32`. -/
def saturatingSucc (a : UInt32) : UInt32 := UInt32.ofNat (min (2 ^ 32 - 1) (a.toNat + 1))

/-! ### The backoff -/

/-- Exponential backoff with jitter, reset by a connection that stays up. -/
structure Backoff where
  base : StdDuration
  cap : StdDuration
  attempt : UInt32
  deriving DecidableEq, Repr

namespace Backoff

def new (base cap : StdDuration) : Backoff := ⟨base, cap, 0⟩

/-- The delay before the jitter. -/
def scaled (backoff : Backoff) : StdDuration :=
  let exponent := min backoff.attempt 16
  (backoff.base.saturatingMul (saturatingPow 2 exponent)).min backoff.cap

/-- How wide the jitter is. -/
def spread (backoff : Backoff) : UInt64 := UInt64.ofNat backoff.scaled.asMillis / 2

/-- The jitter; `nanos` is the sub-second part of the clock. -/
def offset (backoff : Backoff) (nanos : UInt32) : UInt64 :=
  if backoff.spread = 0 then 0 else nanos.toUInt64 % backoff.spread

/-- Next delay, then advance. -/
def nextDelay (backoff : Backoff) (nanos : UInt32) : StdDuration × Backoff :=
  let millis := saturatingAdd
    (saturatingSub (UInt64.ofNat backoff.scaled.asMillis) (backoff.spread / 2))
    (backoff.offset nanos)
  (.fromMillis (max millis 1), { backoff with attempt := saturatingSucc backoff.attempt })

def reset (backoff : Backoff) : Backoff := { backoff with attempt := 0 }

end Backoff

/-! ### In exact arithmetic -/

theorem duration_nanos_mul (d : StdDuration) (factor : UInt32) :
    (d.saturatingMul factor).nanos = min (2 ^ 64 * 10 ^ 9 - 1) (d.nanos * factor.toNat) := by
  unfold StdDuration.saturatingMul
  split
  · rename_i h
    exact (min_eq_right (Nat.le_sub_one_of_lt h)).symm
  · rename_i h
    exact (min_eq_left ((Nat.sub_le _ 1).trans (Nat.le_of_not_lt h))).symm

theorem duration_nanos_min (d e : StdDuration) : (d.min e).nanos = min d.nanos e.nanos := by
  unfold StdDuration.min
  split
  · rename_i h
    exact (min_eq_left h).symm
  · rename_i h
    exact (min_eq_right (Nat.le_of_not_le h)).symm

namespace Backoff

/-- Base and cap are whole milliseconds, the cap is no less than the base and below 2^63. -/
structure Whole (backoff : Backoff) (base cap : ℕ) : Prop where
  base_eq : backoff.base.nanos = base * 10 ^ 6
  cap_eq : backoff.cap.nanos = cap * 10 ^ 6
  pos : 1 ≤ base
  le : base ≤ cap
  lt : cap < 2 ^ 63

/-- The scale of an attempt, in milliseconds. -/
def scale (base cap attempt : ℕ) : ℕ := min cap (base * 2 ^ min attempt 16)

/-- The jitter of a scale. -/
def jitter (scale nanos : ℕ) : ℕ := if scale / 2 = 0 then 0 else nanos % (scale / 2)

theorem toNat_saturatingPow {exponent : UInt32} (h : exponent.toNat ≤ 16) :
    (saturatingPow 2 exponent).toNat = 2 ^ exponent.toNat := by
  have hle : 2 ^ exponent.toNat ≤ 2 ^ 16 := Nat.pow_le_pow_right (by decide) h
  have htwo : (2 : UInt32).toNat = 2 := rfl
  rw [saturatingPow, htwo, min_eq_right (by omega), UInt32.toNat_ofNat_of_lt' (by
    show _ < 2 ^ 32
    omega)]

theorem toNat_min_sixteen (attempt : UInt32) : (min attempt 16).toNat = min attempt.toNat 16 := by
  show (if attempt ≤ 16 then attempt else 16).toNat = _
  split
  · rename_i h
    exact (Nat.min_eq_left (UInt32.le_iff_toNat_le.mp h)).symm
  · rename_i h
    exact (Nat.min_eq_right (Nat.le_of_not_le fun hle => h (UInt32.le_iff_toNat_le.mpr hle))).symm

/-- The multiplication saturates above every cap that there can be. -/
theorem asMillis_scaled {backoff : Backoff} {base cap : ℕ} (h : backoff.Whole base cap) :
    backoff.scaled.asMillis = scale base cap backoff.attempt.toNat := by
  have hexponent : (saturatingPow 2 (min backoff.attempt 16)).toNat
      = 2 ^ min backoff.attempt.toNat 16 := by
    rw [toNat_saturatingPow, toNat_min_sixteen]
    rw [toNat_min_sixteen]
    exact min_le_right _ _
  have hcap := h.lt
  rw [scaled, StdDuration.asMillis, duration_nanos_min, duration_nanos_mul, hexponent, h.base_eq,
    h.cap_eq, scale, Nat.mul_right_comm]
  generalize base * 2 ^ min backoff.attempt.toNat 16 = product
  omega

theorem scale_lt {backoff : Backoff} {base cap : ℕ} (h : backoff.Whole base cap) (attempt : ℕ) :
    scale base cap attempt < 2 ^ 63 :=
  lt_of_le_of_lt (min_le_left _ _) h.lt

theorem scale_pos {backoff : Backoff} {base cap : ℕ} (h : backoff.Whole base cap) (attempt : ℕ) :
    1 ≤ scale base cap attempt :=
  le_min (h.pos.trans h.le) (Nat.mul_pos h.pos (Nat.two_pow_pos _))

theorem toNat_spread {backoff : Backoff} {base cap : ℕ} (h : backoff.Whole base cap) :
    backoff.spread.toNat = scale base cap backoff.attempt.toNat / 2 := by
  have hlt := scale_lt h backoff.attempt.toNat
  rw [spread, asMillis_scaled h, UInt64.toNat_div, UInt64.toNat_ofNat_of_lt' (by
    show _ < 2 ^ 64
    omega)]
  rfl

theorem toNat_offset {backoff : Backoff} {base cap : ℕ} (h : backoff.Whole base cap)
    (nanos : UInt32) : (backoff.offset nanos).toNat
      = jitter (scale base cap backoff.attempt.toNat) nanos.toNat := by
  have hspread := toNat_spread h
  unfold offset jitter
  by_cases hzero : backoff.spread = 0
  · rw [if_pos hzero, if_pos (by rw [← hspread, hzero]; rfl)]
    rfl
  · rw [if_neg hzero, if_neg (fun heq => hzero (UInt64.toNat_inj.mp (by rw [hspread, heq]; rfl))),
      UInt64.toNat_mod, hspread]
    rfl

theorem jitter_le (s nanos : ℕ) : jitter s nanos ≤ s / 2 - 1 := by
  unfold jitter
  split
  · exact Nat.zero_le _
  · rename_i hspread
    exact Nat.le_sub_one_of_lt (Nat.mod_lt _ (Nat.pos_of_ne_zero hspread))

/-- What becomes 64 bits fits them, and nothing after that saturates. -/
def Fits (backoff : Backoff) (nanos : UInt32) : Prop :=
  backoff.scaled.asMillis < 2 ^ 64 ∧ backoff.spread.toNat / 2 ≤ backoff.scaled.asMillis ∧
    backoff.scaled.asMillis - backoff.spread.toNat / 2 + (backoff.offset nanos).toNat < 2 ^ 64

theorem fits {backoff : Backoff} {base cap : ℕ} (h : backoff.Whole base cap) (nanos : UInt32) :
    backoff.Fits nanos := by
  have hlt := scale_lt h backoff.attempt.toNat
  have hjitter := jitter_le (scale base cap backoff.attempt.toNat) nanos.toNat
  rw [Fits, asMillis_scaled h, toNat_spread h, toNat_offset h]
  omega

theorem max_one {millis : UInt64} (h : 1 ≤ millis.toNat) : max millis 1 = millis := by
  show (if millis ≤ 1 then 1 else millis) = millis
  split
  · rename_i hle
    exact UInt64.toNat_inj.mp (Nat.le_antisymm h (UInt64.le_iff_toNat_le.mp hle))
  · rfl

/-- **The delay in exact arithmetic.** -/
theorem nanos_nextDelay {backoff : Backoff} {base cap : ℕ} (h : backoff.Whole base cap)
    (nanos : UInt32) {s : ℕ} (hs : scale base cap backoff.attempt.toNat = s) :
    (backoff.nextDelay nanos).1.nanos = (s - s / 2 / 2 + jitter s nanos.toNat) * 10 ^ 6 := by
  obtain ⟨hmillis, hhalf, hsum⟩ := fits h nanos
  rw [asMillis_scaled h, hs] at hmillis
  rw [asMillis_scaled h, toNat_spread h, hs] at hhalf
  rw [asMillis_scaled h, toNat_spread h, toNat_offset h, hs] at hsum
  have hhalved : (backoff.spread / 2).toNat = s / 2 / 2 := by
    rw [UInt64.toNat_div, toNat_spread h, hs]
    rfl
  have hless : (saturatingSub (UInt64.ofNat backoff.scaled.asMillis) (backoff.spread / 2)).toNat
      = s - s / 2 / 2 := by
    rw [saturatingSub, hhalved, asMillis_scaled h, hs, UInt64.toNat_ofNat_of_lt' hmillis,
      UInt64.toNat_ofNat_of_lt' (lt_of_le_of_lt (Nat.sub_le _ _) hmillis)]
  have hmore : (saturatingAdd (saturatingSub (UInt64.ofNat backoff.scaled.asMillis)
      (backoff.spread / 2)) (backoff.offset nanos)).toNat
        = s - s / 2 / 2 + jitter s nanos.toNat := by
    rw [toNat_saturatingAdd, hless, toNat_offset h, hs]
    exact min_eq_right (by omega)
  have hpos : 1 ≤ s - s / 2 / 2 + jitter s nanos.toNat := by
    have := scale_pos h backoff.attempt.toNat
    omega
  unfold nextDelay StdDuration.fromMillis
  dsimp only
  rw [max_one (by rw [hmore]; exact hpos), hmore]

/-- The delay is within a quarter of its scale. -/
theorem nextDelay_bounds {backoff : Backoff} {base cap : ℕ} (h : backoff.Whole base cap)
    (nanos : UInt32) {s : ℕ} (hs : scale base cap backoff.attempt.toNat = s) :
    10 ^ 6 ≤ (backoff.nextDelay nanos).1.nanos ∧
      3 * (s * 10 ^ 6) ≤ 4 * (backoff.nextDelay nanos).1.nanos ∧
      4 * (backoff.nextDelay nanos).1.nanos ≤ 5 * (s * 10 ^ 6) := by
  have hpos := scale_pos h backoff.attempt.toNat
  have hjitter := jitter_le s nanos.toNat
  rw [hs] at hpos
  rw [nanos_nextDelay h nanos hs]
  omega

/-- Of two delays with the second scale twice the first, the second is the longer one. -/
theorem nextDelay_lt {backoff next : Backoff} {base cap : ℕ} (h : backoff.Whole base cap)
    (hnext : next.Whole base cap) (nanos nanos' : UInt32)
    (htwice : scale base cap next.attempt.toNat = 2 * scale base cap backoff.attempt.toNat) :
    (backoff.nextDelay nanos).1.nanos < (next.nextDelay nanos').1.nanos := by
  have hpos := scale_pos h backoff.attempt.toNat
  have hjitter := jitter_le (scale base cap backoff.attempt.toNat) nanos.toNat
  rw [nanos_nextDelay h nanos rfl, nanos_nextDelay hnext nanos' htwice]
  omega

theorem scale_succ {base cap k : ℕ} (hk : k < 16) (hroom : base * 2 ^ (k + 1) ≤ cap) :
    scale base cap (k + 1) = 2 * scale base cap k := by
  have hdouble : base * 2 ^ (k + 1) = 2 * (base * 2 ^ k) := by ring
  rw [scale, scale, min_eq_left (by omega : k + 1 ≤ 16), min_eq_left (by omega : k ≤ 16)]
  omega

end Backoff

/-! ### Calls -/

/-- A delay is asked for, or a link has proved itself. -/
inductive BackoffOp
  | nextDelay (nanos : UInt32)
  | reset
  deriving DecidableEq, Repr

namespace Backoff

def apply (backoff : Backoff) : BackoffOp → Backoff
  | .nextDelay nanos => (backoff.nextDelay nanos).2
  | .reset => backoff.reset

/-- The backoff after some calls. -/
def after (backoff : Backoff) (ops : List BackoffOp) : Backoff := ops.foldl apply backoff

end Backoff

/-- The attempts since the last reset. -/
def attemptsOf (ops : List BackoffOp) : ℕ :=
  ops.foldl (fun attempts op =>
    match op with
    | .nextDelay _ => attempts + 1
    | .reset => 0) 0

theorem attemptsOf_concat (ops : List BackoffOp) (op : BackoffOp) : attemptsOf (ops ++ [op]) =
    match op with
    | .nextDelay _ => attemptsOf ops + 1
    | .reset => 0 := by
  rw [attemptsOf, List.foldl_append]
  rfl

theorem toNat_saturatingSucc (a : UInt32) :
    (saturatingSucc a).toNat = min (2 ^ 32 - 1) (a.toNat + 1) := by
  rw [saturatingSucc, UInt32.toNat_ofNat_of_lt' (lt_of_le_of_lt (min_le_left _ _) (by decide))]

namespace Backoff

/-- The attempt that a backoff is at; base and cap are the same ever after. -/
theorem attempt_after (base cap : StdDuration) (ops : List BackoffOp) :
    ((new base cap).after ops).attempt.toNat = min (2 ^ 32 - 1) (attemptsOf ops) ∧
      ((new base cap).after ops).base = base ∧ ((new base cap).after ops).cap = cap := by
  induction ops using List.reverseRecOn with
  | nil => exact ⟨rfl, rfl, rfl⟩
  | append_singleton ops op ih =>
      obtain ⟨hattempt, hbase, hcap⟩ := ih
      have hafter : (new base cap).after (ops ++ [op]) = ((new base cap).after ops).apply op := by
        rw [after, List.foldl_append]
        rfl
      rw [hafter, attemptsOf_concat]
      cases op with
      | nextDelay nanos =>
          refine ⟨?_, hbase, hcap⟩
          show (saturatingSucc _).toNat = _
          rw [toNat_saturatingSucc, hattempt]
          dsimp only
          omega
      | reset => exact ⟨rfl, hbase, hcap⟩

/-- The exponent stops growing long before the counter. -/
theorem scale_min (base cap attempts : ℕ) :
    scale base cap (min (2 ^ 32 - 1) attempts) = scale base cap attempts := by
  have hexponent : min (min (2 ^ 32 - 1) attempts) 16 = min attempts 16 := by omega
  rw [scale, scale, hexponent]

end Backoff

theorem Backoff.whole_after {base cap : StdDuration} {b c : ℕ} (hbase : base.nanos = b * 10 ^ 6)
    (hcap : cap.nanos = c * 10 ^ 6) (hpos : 1 ≤ b) (hle : b ≤ c) (hlt : c < 2 ^ 63)
    (ops : List BackoffOp) : ((Backoff.new base cap).after ops).Whole b c where
  base_eq := by rw [(attempt_after base cap ops).2.1, hbase]
  cap_eq := by rw [(attempt_after base cap ops).2.2, hcap]
  pos := hpos
  le := hle
  lt := hlt

/-- **Backoff arithmetic.**  Take any calls on a new backoff, which bring it to attempt `k`.  The
next delay loses nothing to its 64 bits, is at least 1 ms and within a quarter of the scale of that
attempt; and before the sixteenth the delay after it is longer, whatever the clock, if the cap
allows for the next scale. -/
theorem backoff_laws {base cap : StdDuration} {b c : ℕ} (hbase : base.nanos = b * 10 ^ 6)
    (hcap : cap.nanos = c * 10 ^ 6) (hpos : 1 ≤ b) (hle : b ≤ c) (hlt : c < 2 ^ 63)
    (ops : List BackoffOp) (nanos nanos' : UInt32) :
    let backoff := (Backoff.new base cap).after ops
    let k := attemptsOf ops
    let s := min c (b * 2 ^ min k 16) * 10 ^ 6
    let delay := (backoff.nextDelay nanos).1
    let delay' := ((backoff.nextDelay nanos).2.nextDelay nanos').1
    backoff.Fits nanos ∧ 10 ^ 6 ≤ delay.nanos ∧ 3 * s ≤ 4 * delay.nanos ∧ 4 * delay.nanos ≤ 5 * s ∧
      (k < 16 → b * 2 ^ (k + 1) ≤ c → delay.nanos < delay'.nanos) := by
  intro backoff k s delay delay'
  have hwhole : backoff.Whole b c := Backoff.whole_after hbase hcap hpos hle hlt ops
  have hscale (ops : List BackoffOp) :
      Backoff.scale b c ((Backoff.new base cap).after ops).attempt.toNat
        = Backoff.scale b c (attemptsOf ops) := by
    rw [(Backoff.attempt_after base cap ops).1, Backoff.scale_min]
  obtain ⟨hmillis, hlow, hhigh⟩ := Backoff.nextDelay_bounds hwhole nanos (hscale ops)
  refine ⟨Backoff.fits hwhole nanos, hmillis, hlow, hhigh, ?_⟩
  intro hk hroom
  -- the next delay is that after one more call
  have hafter : (Backoff.new base cap).after (ops ++ [.nextDelay nanos])
      = (backoff.nextDelay nanos).2 := by
    rw [Backoff.after, List.foldl_append]
    rfl
  have hnext := Backoff.whole_after hbase hcap hpos hle hlt (ops ++ [.nextDelay nanos])
  have htwice := hscale (ops ++ [.nextDelay nanos])
  rw [hafter] at hnext htwice
  refine Backoff.nextDelay_lt hwhole hnext nanos nanos' ?_
  rw [htwice, hscale ops, attemptsOf_concat]
  exact Backoff.scale_succ hk hroom

/-- From 1 ms to 3 ms: the first delay is 1 ms, and the second 2 ms. -/
theorem backoff_laws_short :
    ((Backoff.new (.fromMillis 1) (.fromMillis 3)).nextDelay 7).1.nanos
      < (((Backoff.new (.fromMillis 1) (.fromMillis 3)).nextDelay 7).2.nextDelay 8).1.nanos :=
  (backoff_laws (b := 1) (c := 3) rfl rfl (by decide) (by decide) (by decide) [] 7 8).2.2.2.2
    (by decide) (by decide)

end Osprey
