import LabLang.Number.Decimal
import Mathlib.Algebra.Order.Field.Basic
import Mathlib.Data.Rat.Cast.Order

/-! # Numbers scaled by powers of two and of ten

Machine numbers and decimals are integers scaled by a power.  The powers are computed for exponents that are natural
numbers, so that a scaled number is a quotient of natural numbers (`mul_two_zpow`, `mul_ten_zpow`), and scaled numbers
are compared by multiplying crosswise (`compareScaled_eq_lt`). -/

namespace LabLang.Number

theorem natCast_twoPow (n : ℕ) : ((twoPow n : ℕ) : ℚ) = 2 ^ n := by
  unfold twoPow
  exact_mod_cast rfl

theorem natCast_tenPow (n : ℕ) : ((tenPow n : ℕ) : ℚ) = 10 ^ n := by
  unfold tenPow
  exact_mod_cast rfl

/-- A power as a quotient of two with natural exponents, one of which is zero. -/
theorem zpow_eq_div {b : ℚ} (hb : b ≠ 0) (e : ℤ) : b ^ e = b ^ e.toNat / b ^ (-e).toNat := by
  rw [← zpow_natCast, ← zpow_natCast, ← zpow_sub₀ hb]
  congr 1
  omega

theorem mul_two_zpow (n : ℕ) (e : ℤ) :
    (n : ℚ) * 2 ^ e = (n * twoPow e.toNat : ℕ) / (twoPow (-e).toNat : ℕ) := by
  rw [Nat.cast_mul, natCast_twoPow, natCast_twoPow, mul_div_assoc, ← zpow_eq_div two_ne_zero]

theorem mul_ten_zpow (n : ℕ) (e : ℤ) :
    (n : ℚ) * 10 ^ e = (n * tenPow e.toNat : ℕ) / (tenPow (-e).toNat : ℕ) := by
  rw [Nat.cast_mul, natCast_tenPow, natCast_tenPow, mul_div_assoc, ← zpow_eq_div (OfNat.ofNat_ne_zero 10)]

/-- The number that a decimal stands for. -/
def Decimal.value (d : Decimal) : ℚ := d.digits * 10 ^ d.exponent

/-! ### Comparisons -/

section compare

variable {a : ℕ} {i : ℤ} {n : ℕ} {j : ℤ}

theorem mul_zpow_lt_iff : (a : ℚ) * 10 ^ i < n * 2 ^ j ↔
    a * tenPow i.toNat * twoPow (-j).toNat < n * twoPow j.toNat * tenPow (-i).toNat := by
  have hten : (0 : ℚ) < (tenPow (-i).toNat : ℕ) := Nat.cast_pos.mpr (tenPow_pos _)
  have htwo : (0 : ℚ) < (twoPow (-j).toNat : ℕ) := Nat.cast_pos.mpr (twoPow_pos _)
  rw [mul_ten_zpow, mul_two_zpow, div_lt_div_iff₀ hten htwo, ← Nat.cast_mul, ← Nat.cast_mul, Nat.cast_lt]

theorem mul_zpow_eq_iff : (a : ℚ) * 10 ^ i = n * 2 ^ j ↔
    a * tenPow i.toNat * twoPow (-j).toNat = n * twoPow j.toNat * tenPow (-i).toNat := by
  have hten : ((tenPow (-i).toNat : ℕ) : ℚ) ≠ 0 := Nat.cast_ne_zero.mpr (tenPow_pos _).ne'
  have htwo : ((twoPow (-j).toNat : ℕ) : ℚ) ≠ 0 := Nat.cast_ne_zero.mpr (twoPow_pos _).ne'
  rw [mul_ten_zpow, mul_two_zpow, div_eq_div_iff hten htwo, ← Nat.cast_mul, ← Nat.cast_mul, Nat.cast_inj]

theorem compareScaled_eq_lt : compareScaled a i n j = .lt ↔ (a : ℚ) * 10 ^ i < n * 2 ^ j := by
  rw [mul_zpow_lt_iff]
  exact Nat.compare_eq_lt

theorem compareScaled_eq_eq : compareScaled a i n j = .eq ↔ (a : ℚ) * 10 ^ i = n * 2 ^ j := by
  rw [mul_zpow_eq_iff]
  exact Nat.compare_eq_eq

theorem compareScaled_eq_gt : compareScaled a i n j = .gt ↔ (n : ℚ) * 2 ^ j < a * 10 ^ i := by
  rw [← not_le, le_iff_lt_or_eq, mul_zpow_lt_iff, mul_zpow_eq_iff, ← le_iff_lt_or_eq, not_le]
  exact Nat.compare_eq_gt

end compare

end LabLang.Number
