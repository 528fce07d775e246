import Mathlib.Algebra.Group.Int.Defs
import Mathlib.Algebra.Group.Nat.Defs
import Mathlib.Data.Int.Order.Basic

/-!
# Integers of a fixed width

A count times a unit in 64 bits, the two conversions between 64 and 32 bits and
between 32 and 8, and 32 bits without a sign read with one: when each of them
gives the integer it stands for.

## Main results

* `wrap_eq_iff` — a 64-bit result is exact when the integer is in range.
* `wrap_mul_eq_iff` — a count times a positive unit, as a bound on the count.
* `widen_narrow_eq_iff`, `widen_narrow8_eq_iff` — through fewer bits and back.
* `signed_eq_iff` — an unsigned number read as a signed one.
-/

namespace Hdns.Verified.FixedWidth

/-- The representatives around zero are their own. -/
theorem bmod_eq_self_iff {x : Int} {m : Nat} (hm : 0 < m) :
    x.bmod m = x ↔ -((m : Int) / 2) ≤ x ∧ x < ((m : Int) + 1) / 2 := by
  constructor
  · intro heq
    rw [← heq]
    exact ⟨Int.le_bmod hm, Int.bmod_lt hm⟩
  · intro hrange
    exact Int.bmod_eq_of_le hrange.1 hrange.2

/-- **What 64 bits keep** of an integer is the integer. -/
theorem wrap_eq_iff {x : Int} :
    x.bmod (2 ^ 64) = x ↔ -2 ^ 63 ≤ x ∧ x < 2 ^ 63 := by
  rw [bmod_eq_self_iff (by decide)]
  omega

/-- A count times a unit in 64 bits. -/
theorem wrap_mul_eq_iff {n unit : Int} (hn : 0 ≤ n) (hunit : 0 < unit) :
    (n * unit).bmod (2 ^ 64) = n * unit ↔ n ≤ (2 ^ 63 - 1) / unit := by
  have hnonneg : 0 ≤ n * unit := Int.mul_nonneg hn (Int.le_of_lt hunit)
  rw [wrap_eq_iff, Int.le_ediv_iff_mul_le hunit]
  omega

/-- The integer fits in 32 bits. -/
def Fits (x : Int64) : Prop := -2 ^ 31 ≤ x.toInt ∧ x.toInt < 2 ^ 31

instance (x : Int64) : Decidable (Fits x) :=
  inferInstanceAs (Decidable (_ ∧ _))

/-- The low 32 bits, read as a signed number. -/
def low (x : Int64) : Int := x.toInt.bmod (2 ^ 32)

theorem low_eq_iff {x : Int64} : low x = x.toInt ↔ Fits x := by
  unfold low Fits
  rw [bmod_eq_self_iff (by decide)]
  omega

@[simp] theorem widen_narrow_toInt (x : Int64) :
    x.toInt32.toInt64.toInt = low x := by
  rw [Int32.toInt_toInt64, Int64.toInt_toInt32, low]

/-- **Through 32 bits and back**. -/
theorem widen_narrow_eq_iff {x : Int64} : x.toInt32.toInt64 = x ↔ Fits x := by
  rw [← Int64.toInt_inj, widen_narrow_toInt, low_eq_iff]

/-- Only a positive 32-bit number takes the place of what is there. -/
theorem replace_eq_iff {x : Int64} :
    (if 0 < x.toInt32 then x.toInt32.toInt64 else x) = x ↔
      low x ≤ 0 ∨ Fits x := by
  have hpos : 0 < x.toInt32 ↔ 0 < low x := by
    rw [Int32.lt_iff_toInt_lt, Int64.toInt_toInt32]
    rfl
  by_cases hlow : 0 < low x
  · rw [if_pos (hpos.mpr hlow), widen_narrow_eq_iff]
    simp [Int.not_le.mpr hlow]
  · rw [if_neg (mt hpos.mp hlow)]
    simp [Int.not_lt.mp hlow]

/-! ## Between 32 bits and 8, with a sign and without -/

/-- **Through 8 bits and back**. -/
theorem widen_narrow8_eq_iff {x : Int32} :
    x.toInt8.toInt32 = x ↔ -128 ≤ x.toInt ∧ x.toInt < 128 := by
  rw [← Int32.toInt_inj, Int8.toInt_toInt32, Int32.toInt_toInt8,
    bmod_eq_self_iff (by decide)]
  omega

/-- **An unsigned number** of 32 bits read as a signed one. -/
theorem signed_eq_iff {n : UInt32} :
    n.toInt32.toInt = n.toNat ↔ n.toNat < 2 ^ 31 := by
  have hvalue : n.toInt32.toInt = (n.toNat : Int).bmod (2 ^ 32) :=
    BitVec.toInt_eq_toNat_bmod n.toBitVec
  rw [hvalue, bmod_eq_self_iff (by decide)]
  omega

end Hdns.Verified.FixedWidth
