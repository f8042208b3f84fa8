import LabLang.Proofs.DoubleBits
import LabLang.Proofs.ScaledNumbers

/-! # Decimals are read as the nearest double

A number is rounded to a double if it is not farther from it than half a unit of its mantissa (`RoundsTo`).  Rounding
finds the exponent from the binary logarithm of the number (`zpow_le_iff`) and the mantissa by a division
(`roundDiv_scaled`); a number just below a power of two is rounded with the smaller exponent, and carried
(`nearestBits_of_lt`).  So a decimal is read as the double that it is rounded to (`ofDecimal_eq`). -/

namespace LabLang.Number

/-! ### Divisions and logarithms -/

/-- The integer within a half of a quotient, or at a half of it and even. -/
theorem roundDiv_eq {num den n : ℕ} (hden : 0 < den) (low : 2 * n * den ≤ 2 * num + den)
    (high : 2 * num ≤ 2 * n * den + den)
    (tie : 2 * n * den = 2 * num + den ∨ 2 * num = 2 * n * den + den → n % 2 = 0) : roundDiv num den = n := by
  obtain ⟨q, hq⟩ : ∃ q, q = num / den := ⟨_, rfl⟩
  obtain ⟨r, hr⟩ : ∃ r, r = num % den := ⟨_, rfl⟩
  have hnum : num = den * q + r := by rw [hq, hr, Nat.div_add_mod]
  have hlt : r < den := hr ▸ Nat.mod_lt _ hden
  unfold roundDiv
  rw [← hq, ← hr]
  dsimp only
  -- the quotient without its remainder is the integer or the one before it
  have hle : q ≤ n := by
    by_contra h
    have hmul : (n + 1) * den ≤ q * den := Nat.mul_le_mul_right den (by omega)
    rw [Nat.add_mul, Nat.mul_comm q] at hmul
    rw [Nat.mul_assoc] at high
    omega
  have hge : n ≤ q + 1 := by
    by_contra h
    have hmul : (q + 2) * den ≤ n * den := Nat.mul_le_mul_right den (by omega)
    rw [Nat.add_mul, Nat.mul_comm q] at hmul
    rw [Nat.mul_assoc] at low
    omega
  have hmul : 2 * n * den = 2 * (den * n) := by rw [Nat.mul_assoc, Nat.mul_comm n]
  rw [hmul] at low high tie
  obtain rfl | rfl : q = n ∨ n = q + 1 := by omega
  · split_ifs <;> omega
  · rw [Nat.mul_add] at low high tie
    split_ifs <;> omega

section log2

variable {num den : ℕ} (hnum : 0 < num) (hden : 0 < den)
include hnum hden

/-- The binary logarithm of a quotient is the difference of those of its terms, or one less. -/
theorem zpow_log2_sub_le : (2 : ℚ) ^ ((num.log2 : ℤ) - den.log2 - 1) ≤ num / den := by
  have hnumLow : (2 : ℚ) ^ num.log2 ≤ num := by exact_mod_cast Nat.log2_self_le hnum.ne'
  have hdenHigh : (den : ℚ) < 2 ^ (den.log2 + 1) := by exact_mod_cast Nat.lt_log2_self (n := den)
  rw [le_div_iff₀ (Nat.cast_pos.mpr hden)]
  calc (2 : ℚ) ^ ((num.log2 : ℤ) - den.log2 - 1) * den
      ≤ 2 ^ ((num.log2 : ℤ) - den.log2 - 1) * 2 ^ (den.log2 + 1) :=
        mul_le_mul_of_nonneg_left hdenHigh.le (zpow_nonneg zero_le_two _)
    _ = 2 ^ num.log2 := by
        rw [← zpow_natCast, ← zpow_natCast, ← zpow_add₀ two_ne_zero]
        congr 1
        push_cast
        ring
    _ ≤ num := hnumLow

omit hnum in
theorem lt_zpow_log2_sub : (num / den : ℚ) < 2 ^ ((num.log2 : ℤ) - den.log2 + 1) := by
  have hnumHigh : (num : ℚ) < 2 ^ (num.log2 + 1) := by exact_mod_cast Nat.lt_log2_self (n := num)
  have hdenLow : (2 : ℚ) ^ den.log2 ≤ den := by exact_mod_cast Nat.log2_self_le hden.ne'
  rw [div_lt_iff₀ (Nat.cast_pos.mpr hden)]
  calc (num : ℚ) < 2 ^ (num.log2 + 1) := hnumHigh
    _ = 2 ^ ((num.log2 : ℤ) - den.log2 + 1) * 2 ^ den.log2 := by
        rw [← zpow_natCast, ← zpow_natCast, ← zpow_add₀ two_ne_zero]
        congr 1
        push_cast
        ring
    _ ≤ 2 ^ ((num.log2 : ℤ) - den.log2 + 1) * den :=
        mul_le_mul_of_nonneg_left hdenLow (zpow_nonneg zero_le_two _)

/-- The binary logarithm tells the powers of two that are not above the quotient. -/
theorem zpow_le_iff (k : ℤ) : (2 : ℚ) ^ k ≤ num / den ↔ k ≤ floorLog2 num den := by
  have hpos : (0 : ℚ) < num / den := div_pos (Nat.cast_pos.mpr hnum) (Nat.cast_pos.mpr hden)
  have hlog (k : ℤ) : (2 : ℚ) ^ k ≤ num / den ↔ k ≤ Int.log 2 (num / den : ℚ) := by
    exact_mod_cast Int.zpow_le_iff_le_log Nat.one_lt_two hpos
  have hcross : den * twoPow num.log2 ≤ num * twoPow den.log2 ↔
      (2 : ℚ) ^ ((num.log2 : ℤ) - den.log2) ≤ num / den := by
    rw [zpow_sub₀ two_ne_zero, zpow_natCast, zpow_natCast, div_le_div_iff₀ (by positivity) (Nat.cast_pos.mpr hden),
      ← natCast_twoPow, ← natCast_twoPow, ← Nat.cast_mul, ← Nat.cast_mul, Nat.cast_le, Nat.mul_comm den]
  have hlow := zpow_log2_sub_le hnum hden
  have hhigh : (num / den : ℚ) < _ := lt_zpow_log2_sub hden
  rw [hlog] at hlow
  rw [← not_le, hlog] at hhigh
  rw [hlog]
  unfold floorLog2
  dsimp only
  split <;> rename_i h <;> rw [hcross, hlog] at h <;> omega

end log2

/-! ### Rounding -/

/-- The number is rounded to the double `m · 2 ^ q`.  It is not farther from it than half a unit of its mantissa, and
that far only from an even one; below a power of two it is not farther than a quarter. -/
structure RoundsTo (m : ℕ) (q : ℤ) (v : ℚ) : Prop where
  low : (m - 1 / 2) * 2 ^ q ≤ v
  high : v ≤ (m + 1 / 2) * 2 ^ q
  even : v = (m - 1 / 2) * 2 ^ q ∨ v = (m + 1 / 2) * 2 ^ q → m % 2 = 0
  narrow : m = 2 ^ 52 → -1074 < q → (m - 1 / 4) * 2 ^ q ≤ v

/-- A quotient that is within a half of an integer, in units of a power of two. -/
theorem roundDiv_scaled {num den n : ℕ} {q : ℤ} (hden : 0 < den) (low : (n - 1 / 2) * 2 ^ q ≤ (num / den : ℚ))
    (high : (num / den : ℚ) ≤ (n + 1 / 2) * 2 ^ q)
    (even : (num / den : ℚ) = (n - 1 / 2) * 2 ^ q ∨ (num / den : ℚ) = (n + 1 / 2) * 2 ^ q → n % 2 = 0) :
    roundDiv (num * twoPow (-q).toNat) (den * twoPow q.toNat) = n := by
  obtain ⟨a, ha⟩ : ∃ a, a = num * twoPow (-q).toNat := ⟨_, rfl⟩
  obtain ⟨b, hb⟩ : ∃ b, b = den * twoPow q.toNat := ⟨_, rfl⟩
  obtain ⟨x, hx⟩ : ∃ x : ℚ, x = num / den / 2 ^ q := ⟨_, rfl⟩
  have hbpos : 0 < b := hb ▸ Nat.mul_pos hden (twoPow_pos _)
  have hunit : (0 : ℚ) < 2 ^ q := zpow_pos two_pos q
  have hv : (num / den : ℚ) = x * 2 ^ q := by rw [hx, div_mul_cancel₀ _ hunit.ne']
  have hab : (a : ℚ) = x * b := by
    have hden' : (den : ℚ) ≠ 0 := Nat.cast_ne_zero.mpr hden.ne'
    have hup : (2 : ℚ) ^ q.toNat ≠ 0 := pow_ne_zero _ two_ne_zero
    have hdown : (2 : ℚ) ^ (-q).toNat ≠ 0 := pow_ne_zero _ two_ne_zero
    rw [hx, ha, hb, Nat.cast_mul, Nat.cast_mul, natCast_twoPow, natCast_twoPow, zpow_eq_div two_ne_zero]
    field_simp
  rw [hv, mul_le_mul_iff_left₀ hunit] at low high
  rw [hv, mul_left_inj' hunit.ne', mul_left_inj' hunit.ne'] at even
  have hb' : (0 : ℚ) < b := Nat.cast_pos.mpr hbpos
  rw [← ha, ← hb]
  refine roundDiv_eq hbpos ?_ ?_ fun tie => even ?_
  · have := mul_le_mul_of_nonneg_right low hb'.le
    have hle : (2 * n * b : ℚ) ≤ 2 * a + b := by rw [hab]; linarith
    exact_mod_cast hle
  · have := mul_le_mul_of_nonneg_right high hb'.le
    have hle : (2 * a : ℚ) ≤ 2 * n * b + b := by rw [hab]; linarith
    exact_mod_cast hle
  · refine tie.imp (fun h => ?_) fun h => ?_
    · have heq : (2 * n * b : ℚ) = 2 * a + b := by exact_mod_cast h
      rw [hab] at heq
      refine mul_right_cancel₀ hb'.ne' ?_
      linarith
    · have heq : (2 * a : ℚ) = 2 * n * b + b := by exact_mod_cast h
      rw [hab] at heq
      refine mul_right_cancel₀ hb'.ne' ?_
      linarith

section nearest

variable {num den m : ℕ} {q : ℤ} (hnum : 0 < num)
include hnum

theorem nearestBits_of_round (h : IsDouble m q) {n : ℕ} {k : ℤ} (hexponent : max (floorLog2 num den - 52) (-1074) = k)
    (hround : roundDiv (num * twoPow (-k).toNat) (den * twoPow k.toNat) = n) (hbits : bitsOf n k = bitsOf m q) :
    nearestBits num den = bitsOf m q := by
  unfold nearestBits
  rw [if_neg hnum.ne', hexponent]
  dsimp only
  rw [hround]
  show min (bitsOf n k) infinityBits = bitsOf m q
  rw [hbits, min_eq_left h.bitsOf_lt.le]

variable (hden : 0 < den) (h : IsDouble m q) (hv : RoundsTo m q (num / den : ℚ))
include hden h hv

/-- Numbers with the unit of their double. -/
theorem nearestBits_of_le (hlog : q + 52 ≤ floorLog2 num den ∨ q = -1074) : nearestBits num den = bitsOf m q := by
  have hbelow : floorLog2 num den < q + 53 := by
    have hm : (m : ℚ) + 1 / 2 < 2 ^ 53 := by
      have : (m : ℚ) + 1 ≤ 2 ^ 53 := by exact_mod_cast h.mantissa
      linarith
    rw [← not_le, ← zpow_le_iff hnum hden, not_le, zpow_add₀ two_ne_zero, mul_comm]
    exact hv.high.trans_lt (mul_lt_mul_of_pos_right hm (zpow_pos two_pos q))
  have hexponent : max (floorLog2 num den - 52) (-1074) = q := by
    have := h.exponent
    omega
  exact nearestBits_of_round hnum h hexponent (roundDiv_scaled hden hv.low hv.high hv.even) rfl

/-- Numbers below the power of two that they are rounded to: their unit is half of that of the double. -/
theorem nearestBits_of_lt (hq : -1074 < q) (hlog : floorLog2 num den < q + 52) :
    nearestBits num den = bitsOf m q := by
  have hunit : (0 : ℚ) < 2 ^ q := zpow_pos two_pos q
  have hhalf : (2 : ℚ) ^ (q - 1) = 2 ^ q / 2 := by rw [zpow_sub₀ two_ne_zero, zpow_one]
  have hlt : (num / den : ℚ) < 2 ^ 52 * 2 ^ q := by
    rw [← not_le, ← zpow_natCast 2 52, ← zpow_add₀ two_ne_zero, zpow_le_iff hnum hden]
    push_cast
    omega
  obtain rfl : m = 2 ^ 52 := by
    by_contra hne
    have hnormal := h.normal
    have hm : (2 : ℚ) ^ 52 ≤ m - 1 / 2 := by
      have : (2 : ℚ) ^ 52 + 1 ≤ m := by exact_mod_cast (by omega : 2 ^ 52 + 1 ≤ m)
      linarith
    exact absurd (hlt.trans_le (mul_le_mul_of_nonneg_right hm hunit.le)) hv.low.not_gt
  have hquarter := hv.narrow rfl hq
  push_cast at hquarter
  have habove : q + 51 ≤ floorLog2 num den := by
    rw [← zpow_le_iff hnum hden, zpow_add₀ two_ne_zero, zpow_ofNat]
    linarith
  have hexponent : max (floorLog2 num den - 52) (-1074) = q - 1 := by omega
  -- the mantissa is rounded up to the next power of two, which carries into the exponent
  have hround : roundDiv (num * twoPow (-(q - 1)).toNat) (den * twoPow (q - 1).toNat) = 2 ^ 53 := by
    refine roundDiv_scaled hden ?_ ?_ fun _ => rfl
    · rw [hhalf]
      push_cast
      linarith
    · rw [hhalf]
      push_cast
      linarith
  refine nearestBits_of_round hnum h hexponent hround ?_
  unfold bitsOf
  omega

end nearest

/-- What is rounded to a double has its bits. -/
theorem nearestBits_eq {num den m : ℕ} {q : ℤ} (hm : 0 < m) (hden : 0 < den) (h : IsDouble m q)
    (hv : RoundsTo m q (num / den : ℚ)) : nearestBits num den = bitsOf m q := by
  have hnum : 0 < num := by
    have hhalf : (0 : ℚ) < m - 1 / 2 := by
      have : (1 : ℚ) ≤ m := by exact_mod_cast hm
      linarith
    have hpos : (0 : ℚ) < num / den := (mul_pos hhalf (zpow_pos two_pos q)).trans_le hv.low
    rw [Nat.pos_iff_ne_zero]
    rintro rfl
    simp at hpos
  have hexponent := h.exponent
  by_cases hlog : q + 52 ≤ floorLog2 num den ∨ q = -1074
  · exact nearestBits_of_le hnum hden h hv hlog
  · exact nearestBits_of_lt hnum hden h hv (by omega) (by omega)

/-! ### Decimals -/

theorem zpow_three_mul (e : ℤ) : (2 : ℚ) ^ (3 * e) = 8 ^ e := by
  rw [zpow_mul]
  norm_num

/-- The size by which large decimals are judged before their power is computed. -/
theorem le_of_size {digits : ℕ} (hdigits : digits ≠ 0) {exponent : ℤ} (h : 0 < exponent) :
    (2 : ℚ) ^ (digits.log2 + 3 * exponent) ≤ digits * 10 ^ exponent := by
  have hlog : (2 : ℚ) ^ digits.log2 ≤ digits := by exact_mod_cast Nat.log2_self_le hdigits
  obtain ⟨n, rfl⟩ := Int.eq_ofNat_of_zero_le h.le
  rw [zpow_add₀ two_ne_zero, zpow_three_mul, zpow_natCast, zpow_natCast, zpow_natCast]
  exact mul_le_mul hlog (pow_le_pow_left₀ (by norm_num) (by norm_num) n) (by positivity) (by positivity)

/-- The same for small decimals. -/
theorem lt_of_size {digits : ℕ} {exponent : ℤ} (h : exponent < 0) :
    (digits * 10 ^ exponent : ℚ) < 2 ^ (digits.log2 + 3 * exponent + 1) := by
  have hlog : (digits : ℚ) < 2 ^ (digits.log2 + 1) := by exact_mod_cast Nat.lt_log2_self (n := digits)
  obtain ⟨n, rfl⟩ : ∃ n : ℕ, exponent = -n := ⟨exponent.natAbs, by omega⟩
  have hpow : ((10 : ℚ) ^ n)⁻¹ ≤ (8 ^ n)⁻¹ := inv_anti₀ (by positivity) (pow_le_pow_left₀ (by norm_num) (by norm_num) n)
  rw [add_right_comm, zpow_add₀ two_ne_zero, zpow_three_mul, zpow_neg, zpow_neg, zpow_natCast, zpow_natCast]
  exact mul_lt_mul (by exact_mod_cast hlog) hpow (by positivity) (zpow_nonneg zero_le_two _)

section

variable {m : ℕ} {q : ℤ} (hm : 0 < m) (h : IsDouble m q) {v : ℚ} (hv : RoundsTo m q v)
include h hv

include hm in
theorem RoundsTo.ge : (2 : ℚ) ^ (-1075 : ℤ) ≤ v := by
  have hhalf : (1 / 2 : ℚ) ≤ m - 1 / 2 := by
    have : (1 : ℚ) ≤ m := by exact_mod_cast hm
    linarith
  calc (2 : ℚ) ^ (-1075 : ℤ) = 1 / 2 * 2 ^ (-1074 : ℤ) := by
        rw [show (-1075 : ℤ) = -1 + -1074 by norm_num, zpow_add₀ two_ne_zero, zpow_neg_one, one_div]
    _ ≤ (m - 1 / 2) * 2 ^ q :=
        mul_le_mul hhalf (zpow_le_zpow_right₀ one_le_two h.exponent.1) (zpow_nonneg zero_le_two _) (by linarith)
    _ ≤ v := hv.low

theorem RoundsTo.lt : v < (2 : ℚ) ^ (1024 : ℤ) := by
  have hm' : (m : ℚ) + 1 / 2 < 2 ^ (53 : ℤ) := by
    have : (m : ℚ) + 1 ≤ 2 ^ (53 : ℤ) := by exact_mod_cast h.mantissa
    linarith
  calc v ≤ (m + 1 / 2) * 2 ^ q := hv.high
    _ < 2 ^ (53 : ℤ) * 2 ^ q := mul_lt_mul_of_pos_right hm' (zpow_pos two_pos q)
    _ ≤ 2 ^ (53 : ℤ) * 2 ^ (971 : ℤ) :=
        mul_le_mul_of_nonneg_left (zpow_le_zpow_right₀ one_le_two h.exponent.2) (zpow_nonneg zero_le_two _)
    _ = 2 ^ (1024 : ℤ) := by rw [← zpow_add₀ two_ne_zero]; norm_num

end

/-- A decimal that is rounded to a double is read as it. -/
theorem ofDecimal_eq {digits m : ℕ} {exponent q : ℤ} (hm : 0 < m) (h : IsDouble m q)
    (hv : RoundsTo m q (digits * 10 ^ exponent)) : ofDecimal digits exponent = withSign false (bitsOf m q) := by
  have hge := hv.ge hm h
  have hlt := hv.lt h
  have hdigits : digits ≠ 0 := by
    rintro rfl
    rw [Nat.cast_zero, zero_mul] at hge
    exact absurd hge (zpow_pos two_pos _).not_ge
  have hlarge : ¬ (0 < exponent ∧ 1024 < (digits.log2 : ℤ) + 3 * exponent) := by
    rintro ⟨hexponent, hsize⟩
    have hpow := zpow_le_zpow_right₀ (one_le_two (α := ℚ)) hsize.le
    exact absurd (hpow.trans (le_of_size hdigits hexponent)) hlt.not_ge
  have hsmall : ¬ (exponent < 0 ∧ (digits.log2 : ℤ) + 3 * exponent < -1100) := by
    rintro ⟨hexponent, hsize⟩
    have hpow : (2 : ℚ) ^ ((digits.log2 : ℤ) + 3 * exponent + 1) ≤ 2 ^ (-1075 : ℤ) :=
      zpow_le_zpow_right₀ one_le_two (by omega)
    exact absurd ((lt_of_size hexponent).trans_le hpow) hge.not_gt
  rw [mul_ten_zpow] at hv
  unfold ofDecimal
  dsimp only
  rw [if_neg hdigits, if_neg (by simpa using hlarge), if_neg (by simpa using hsmall)]
  unfold ofFraction
  rw [nearestBits_eq hm (tenPow_pos _) h hv]

end LabLang.Number
