/-
**Saturating arithmetic on 64-bit signed integers.**

The operations on clock readings and timestamps of unknown origin.  Clamping cannot move a value
across a threshold that lies strictly inside the range, so a comparison with such a threshold is the
comparison of the mathematical values.

Main definitions: `Saturating.add`, `Saturating.mul`, `Saturating.sub`, `Saturating.abs`,
`Saturating.toBeBytes`.

Main results: `Saturating.sub_le_iff`, `Saturating.le_sub_iff`, `Saturating.lt_abs_sub_iff`.
-/

import Mathlib.Data.List.Basic
import Mathlib.Tactic

set_option relaxedAutoImplicit false
set_option autoImplicit false

namespace Saturating

/-- `i64::saturating_add`. -/
def add (a b : Int64) : Int64 := Int64.ofIntClamp (a.toInt + b.toInt)

/-- `i64::saturating_mul`. -/
def mul (a b : Int64) : Int64 := Int64.ofIntClamp (a.toInt * b.toInt)

/-- `i64::saturating_sub`. -/
def sub (a b : Int64) : Int64 := Int64.ofIntClamp (a.toInt - b.toInt)

/-- `i64::saturating_abs`. -/
def abs (a : Int64) : Int64 := Int64.ofIntClamp |a.toInt|

/-- `i64::to_be_bytes`. -/
def toBeBytes (a : Int64) : List UInt8 :=
  [56, 48, 40, 32, 24, 16, 8, 0].map fun shift => UInt8.ofNat (a.toBitVec.toNat >>> shift)

theorem toInt_ofIntClamp (i : ℤ) :
    (Int64.ofIntClamp i).toInt = max (-2 ^ 63) (min (2 ^ 63 - 1) i) := by
  have hmin : Int64.minValue.toInt = -2 ^ 63 := by decide
  have hmax : Int64.maxValue.toInt = 2 ^ 63 - 1 := by decide
  unfold Int64.ofIntClamp
  split
  · split
    · rw [Int64.toInt_ofIntLE]
      omega
    · rw [hmax]
      omega
  · rw [hmin]
    omega

theorem sub_le_iff {a b w : Int64} (hw : w < Int64.maxValue) :
    sub a b ≤ w ↔ a.toInt - b.toInt ≤ w.toInt := by
  have hmax : Int64.maxValue.toInt = 2 ^ 63 - 1 := by decide
  have hlow := w.le_toInt
  rw [Int64.lt_iff_toInt_lt, hmax] at hw
  rw [Int64.le_iff_toInt_le, sub, toInt_ofIntClamp]
  omega

theorem le_sub_iff {a b w : Int64} (hw : Int64.minValue < w) :
    w ≤ sub a b ↔ w.toInt ≤ a.toInt - b.toInt := by
  have hmin : Int64.minValue.toInt = -2 ^ 63 := by decide
  have hhigh := w.toInt_lt
  rw [Int64.lt_iff_toInt_lt, hmin] at hw
  rw [Int64.le_iff_toInt_le, sub, toInt_ofIntClamp]
  omega

theorem lt_abs_sub_iff {a b w : Int64} (hpos : 0 ≤ w) (hw : w < Int64.maxValue) :
    w < abs (sub a b) ↔ w.toInt < |a.toInt - b.toInt| := by
  have hmax : Int64.maxValue.toInt = 2 ^ 63 - 1 := by decide
  have hzero : (0 : Int64).toInt = 0 := by decide
  rw [Int64.lt_iff_toInt_lt, hmax] at hw
  rw [Int64.le_iff_toInt_le, hzero] at hpos
  rw [Int64.lt_iff_toInt_lt, abs, sub, toInt_ofIntClamp, toInt_ofIntClamp, lt_max_iff, lt_min_iff,
    lt_abs, lt_abs]
  omega

end Saturating
