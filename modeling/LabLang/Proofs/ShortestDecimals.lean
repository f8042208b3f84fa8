import LabLang.Proofs.NearestDoubles
import LabLang.Proofs.ReadNumbers

/-! # The shortest decimal reads back

A decimal reads back as a double if it lies in the interval of numbers that are rounded to the double.  The ends of
the interval are a half of a unit away from the double, the lower one of a power of two a quarter (`lowEnd`), and
belong to it if the mantissa is even (`readsBack_iff`).  The search for the shortest decimal takes points of a grid
that read back, and otherwise the exact value (`readsBack_shortest`), so that the text of a finite double is read as
the double (`exists_readNumeral_shortText`).  So is the text that drops the fraction of an integer, but for the sign of
zero (`exists_writesDouble_plainText`). -/

namespace LabLang.Number

section shortest

variable {m : ℕ} {q : ℤ} {d : Decimal}

/-! ### The interval of a double -/

/-- Four times the lower end of the interval of numbers that are rounded to the double, in units of the mantissa. -/
def lowEnd (m : ℕ) (q : ℤ) : ℕ := if m = 2 ^ 52 ∧ -1074 < q then 4 * m - 1 else 4 * m - 2

theorem lowEnd_lt (hm : 0 < m) : lowEnd m q < 4 * m := by
  unfold lowEnd
  split <;> omega

theorem le_lowEnd_add_two : 4 * m ≤ lowEnd m q + 2 := by
  unfold lowEnd
  split <;> omega

theorem lowEnd_add_one (hm : m = 2 ^ 52) (hq : -1074 < q) : lowEnd m q + 1 = 4 * m := by
  unfold lowEnd
  rw [if_pos ⟨hm, hq⟩]
  omega

/-- Decimals read back inside the interval, and at its ends if the mantissa is even. -/
theorem readsBack_iff : readsBack m q d = true ↔
    (lowEnd m q * 2 ^ (q - 2) < d.value ∨ m % 2 = 0 ∧ d.value = lowEnd m q * 2 ^ (q - 2)) ∧
      (d.value < (4 * m + 2 : ℕ) * 2 ^ (q - 2) ∨ m % 2 = 0 ∧ d.value = (4 * m + 2 : ℕ) * 2 ^ (q - 2)) := by
  have hend : (if (m == twoPow 52 && decide (-1074 < q)) = true then 4 * m - 1 else 4 * m - 2) = lowEnd m q := by
    unfold lowEnd
    rw [show twoPow 52 = 2 ^ 52 from rfl]
    simp
  unfold readsBack
  dsimp only
  rw [hend]
  simp only [Bool.and_eq_true, Bool.or_eq_true, beq_iff_eq, compareScaled_eq_lt, compareScaled_eq_eq,
    compareScaled_eq_gt]
  rfl

theorem zpow_sub_two (q : ℤ) : (2 : ℚ) ^ (q - 2) = 2 ^ q / 4 := by
  rw [zpow_sub₀ two_ne_zero]
  norm_num

/-- A decimal that reads back is rounded to the double. -/
theorem roundsTo_of_readsBack (h : readsBack m q d = true) : RoundsTo m q d.value := by
  have hunit : (0 : ℚ) < 2 ^ q := zpow_pos two_pos q
  obtain ⟨low, high⟩ := readsBack_iff.mp h
  rw [zpow_sub_two] at low high
  push_cast at high
  have hend : (m - 1 / 2) * 2 ^ q ≤ (lowEnd m q : ℚ) * (2 ^ q / 4) := by
    have hle : (4 * m : ℚ) ≤ lowEnd m q + 2 := by exact_mod_cast le_lowEnd_add_two
    have := mul_le_mul_of_nonneg_right hle hunit.le
    linarith
  have hlow : (lowEnd m q : ℚ) * (2 ^ q / 4) ≤ d.value := low.elim le_of_lt fun h => h.2.ge
  refine ⟨hend.trans hlow, ?_, ?_, fun hm hq => ?_⟩
  · have hle : d.value ≤ (4 * m + 2) * (2 ^ q / 4) := high.elim le_of_lt fun h => h.2.le
    linarith
  · rintro (htie | htie)
    · exact (low.resolve_left fun hlt => by linarith).1
    · exact (high.resolve_left fun hlt => by linarith).1
  · have hquarter : (lowEnd m q + 1 : ℚ) = 4 * m := by exact_mod_cast lowEnd_add_one hm hq
    rw [eq_sub_of_add_eq hquarter] at hlow
    linarith

/-! ### The search -/

/-- Rounding a quotient gives one of the two integers that enclose it. -/
theorem roundDiv_cases (num den : ℕ) : roundDiv num den = num / den ∨ roundDiv num den = num / den + 1 := by
  unfold roundDiv
  dsimp only
  split_ifs <;> simp

theorem readsBack_of_onGrid {g : ℤ} (h : onGrid m q g = some d) : readsBack m q d = true := by
  unfold onGrid at h
  dsimp only at h
  split at h
  · rename_i hbelow habove
    cases h
    rcases roundDiv_cases _ _ with hround | hround
    · rw [hround]
      exact hbelow
    · rw [hround]
      exact habove
  · rename_i hbelow _
    cases h
    exact hbelow
  · rename_i habove
    cases h
    exact habove
  · cases h

/-- The exact value of a double as a decimal. -/
theorem value_exact (m : ℕ) (q : ℤ) :
    Decimal.value ⟨m * twoPow q.toNat * Nat.pow 5 (-q).toNat, -((-q).toNat : ℤ)⟩ = m * 2 ^ q := by
  have hfive : ((Nat.pow 5 (-q).toNat : ℕ) : ℚ) = 5 ^ (-q).toNat := by exact_mod_cast rfl
  have hten : (10 : ℚ) ^ (-q).toNat = 2 ^ (-q).toNat * 5 ^ (-q).toNat := by
    rw [← mul_pow]
    norm_num
  have htwo : (2 : ℚ) ^ (-q).toNat ≠ 0 := pow_ne_zero _ two_ne_zero
  unfold Decimal.value
  dsimp only
  rw [mul_two_zpow, Nat.cast_mul, Nat.cast_mul, hfive, zpow_neg, zpow_natCast, hten, natCast_twoPow, natCast_twoPow]
  field_simp

/-- The shortest decimal of a double reads back. -/
theorem readsBack_shortest (hm : 0 < m) : readsBack m q (shortest m q) = true := by
  unfold shortest
  rw [if_neg hm.ne']
  dsimp only
  cases hfind : (List.range 17).findSome? fun (n : Nat) => onGrid m q (decimalScale m q - 1 - n) with
  | some d =>
      obtain ⟨n, -, hgrid⟩ := List.exists_of_findSome?_eq_some hfind
      exact readsBack_of_onGrid hgrid
  | none =>
      -- the exact value lies inside the interval, whatever its ends
      have hunit : (0 : ℚ) < 2 ^ q := zpow_pos two_pos q
      have hvalue := value_exact m q
      have hlt : (lowEnd m q : ℚ) < 4 * m := by exact_mod_cast lowEnd_lt hm
      rw [Option.getD_none, readsBack_iff, hvalue, zpow_sub_two]
      push_cast
      refine ⟨.inl ?_, .inl ?_⟩
      · have := mul_lt_mul_of_pos_right hlt hunit
        linarith
      · linarith

/-- What stands for the shortest decimal of a double is read as the double, up to the sign. -/
theorem ofDecimal_of_shortest (h : IsDouble m q) {digits : ℕ} {exponent : ℤ}
    (hvalue : (digits * 10 ^ exponent : ℚ) = (shortest m q).value) :
    ofDecimal digits exponent = withSign false (bitsOf m q) := by
  rcases Nat.eq_zero_or_pos m with rfl | hm
  · obtain rfl : q = -1074 := h.normal.resolve_left (by decide)
    obtain rfl : digits = 0 := by
      rw [shortest, if_pos rfl, Decimal.value, Nat.cast_zero, zero_mul] at hvalue
      exact_mod_cast (mul_eq_zero_iff_right (zpow_ne_zero _ (OfNat.ofNat_ne_zero 10))).mp hvalue
    rfl
  · refine ofDecimal_eq hm h ?_
    rw [hvalue]
    exact roundsTo_of_readsBack (readsBack_shortest hm)

end shortest

/-! ### Texts of doubles -/

/-- The text is an unsigned decimal behind a sign, and is read as the double. -/
def WritesDouble (text : String) (x : Float) : Prop :=
  ∃ (negative : Bool) (digits : List Char) (parts : Parts), text = signed negative digits ∧
    digits.all isNumberMark = true ∧ takeUnsigned digits = some (parts, []) ∧
    (if negative then -(ofDecimal parts.value.1 parts.value.2) else ofDecimal parts.value.1 parts.value.2) = x

/-- What a text of a double stands for, if it stands for the magnitude of the double. -/
theorem eq_of_ofDecimal {m : ℕ} {q : ℤ} (h : IsDouble m q) {digits : ℕ} {exponent : ℤ}
    (hread : ofDecimal digits exponent = withSign false (bitsOf m q)) (negative : Bool) :
    (if negative then -(ofDecimal digits exponent) else ofDecimal digits exponent) =
      withSign negative (bitsOf m q) := by
  rw [hread]
  cases negative with
  | false => rfl
  | true => exact neg_withSign h.bitsOf_lt

theorem writesDouble_shortText {x : Float} (h : x.isFinite = true) : WritesDouble (shortText (Scalar.binary x)) x := by
  obtain ⟨negative, m, q, hx⟩ := Machine.ofFloat_of_isFinite h
  obtain ⟨hdouble, rfl⟩ := eq_withSign hx
  obtain ⟨parts, hread, hnumber⟩ := writes_write shortLayout (shortest m q)
  refine ⟨negative, _, parts, ?_, all_write _ _, hread, eq_of_ofDecimal hdouble (ofDecimal_of_shortest hdouble hnumber) _⟩
  show shortText (Binary.ofFloat _) = _
  rw [hx]
  rfl

/-- **The text of a finite double is read as the double.** -/
theorem exists_readNumeral_shortText {x : Float} (h : x.isFinite = true) : ∃ negative digits exponent,
    readNumeral (shortText (Scalar.binary x)).toList = some (.decimal negative digits exponent) ∧
      (if negative then -(ofDecimal digits exponent) else ofDecimal digits exponent) = x := by
  obtain ⟨negative, digits, parts, htext, hmarks, hread, hvalue⟩ := writesDouble_shortText h
  exact ⟨negative, _, _, htext ▸ readNumeral_signed hmarks hread negative, hvalue⟩

/-! ### Integers without a fraction -/

/-- A double is rounded to itself. -/
theorem roundsTo_self (m : ℕ) (q : ℤ) : RoundsTo m q (m * 2 ^ q) := by
  have hunit : (0 : ℚ) < 2 ^ q := zpow_pos two_pos q
  refine ⟨?_, ?_, ?_, fun _ _ => ?_⟩
  · nlinarith
  · nlinarith
  · rintro (h | h) <;> nlinarith
  · nlinarith

/-- The magnitude of an integral double. -/
theorem natCast_truncate {negative : Bool} {m : ℕ} {q : ℤ} (h : (Binary.finite negative m q).isInteger = true) :
    (((Binary.finite negative m q).truncate.natAbs : ℕ) : ℚ) = m * 2 ^ q := by
  have hdvd : twoPow (-q).toNat ∣ m * twoPow q.toNat := Nat.dvd_of_mod_eq_zero (beq_iff_eq.mp h)
  have habs : (Binary.finite negative m q).truncate.natAbs = m * twoPow q.toNat / twoPow (-q).toNat := by
    rw [Binary.truncate]
    generalize m * twoPow q.toNat / twoPow (-q).toNat = k
    split <;> omega
  rw [habs, Nat.cast_div hdvd (Nat.cast_ne_zero.mpr (twoPow_pos _).ne'), mul_two_zpow]

theorem intText_eq_signed (n : ℤ) : intText n = signed (decide (n < 0)) (natDigits n.natAbs) := by
  unfold intText signed
  simp only [decide_eq_true_eq]

theorem takeUnsigned_natDigits (n : ℕ) : takeUnsigned (natDigits n) = some (⟨natDigits n, [], 0⟩, []) := by
  have h : takeUnsigned (natDigits n ++ []) = _ :=
    takeUnsigned_plain (isDigit_of_isDecimal (isDecimal_natDigits n)) stopsDigits_nil (natDigits_ne_nil n) (by simp)
  rwa [List.append_nil] at h

/-- An integral double is read back from its integer, but for the sign of zero. -/
theorem exists_writesDouble_intText {x : Float} {negative : Bool} {m : ℕ} {q : ℤ}
    (hx : Binary.ofFloat x = .finite negative m q) (h : (Binary.finite negative m q).isInteger = true) :
    ∃ y, WritesDouble (intText (Binary.finite negative m q).truncate) y ∧
      (y = x ∨ x = -Scalar.zero ∧ y = Scalar.zero) := by
  obtain ⟨hdouble, rfl⟩ := eq_withSign hx
  obtain ⟨n, hn⟩ : ∃ n, n = (Binary.finite negative m q).truncate := ⟨_, rfl⟩
  have hvalue : ((n.natAbs : ℕ) : ℚ) = m * 2 ^ q := hn ▸ natCast_truncate h
  have hparts : (Parts.mk (natDigits n.natAbs) [] 0).value = (n.natAbs, 0) := by
    unfold Parts.value
    rw [List.append_nil, digitsValue_natDigits]
    rfl
  have hwrites {y : Float}
      (hy : (if decide (n < 0) then -(ofDecimal n.natAbs 0) else ofDecimal n.natAbs 0) = y) :
      WritesDouble (intText (Binary.finite negative m q).truncate) y := by
    refine ⟨decide (n < 0), natDigits n.natAbs, _, hn ▸ intText_eq_signed n, all_natDigits _,
      takeUnsigned_natDigits n.natAbs, ?_⟩
    rw [hparts]
    exact hy
  rcases Nat.eq_zero_or_pos m with rfl | hm
  · obtain rfl : q = -1074 := hdouble.normal.resolve_left (by decide)
    obtain rfl : n = 0 := by
      rw [Nat.cast_zero, zero_mul] at hvalue
      exact Int.natAbs_eq_zero.mp (by exact_mod_cast hvalue)
    refine ⟨Scalar.zero, hwrites rfl, ?_⟩
    cases negative with
    | false => exact .inl rfl
    | true => exact .inr ⟨rfl, rfl⟩
  · have hsign : decide (n < 0) = negative := by
      have hpos : 0 < n.natAbs := by
        have : (0 : ℚ) < m * 2 ^ q := mul_pos (by exact_mod_cast hm) (zpow_pos two_pos q)
        exact_mod_cast hvalue ▸ this
      rw [Binary.truncate] at hn
      generalize m * twoPow q.toNat / twoPow (-q).toNat = k at hn
      cases negative with
      | true =>
          rw [if_pos rfl] at hn
          exact decide_eq_true (by omega)
      | false =>
          rw [if_neg Bool.false_ne_true] at hn
          exact decide_eq_false (by omega)
    have hread : ofDecimal n.natAbs 0 = withSign false (bitsOf m q) := by
      refine ofDecimal_eq hm hdouble ?_
      rw [zpow_zero, mul_one, hvalue]
      exact roundsTo_self m q
    exact ⟨_, hwrites (hsign ▸ eq_of_ofDecimal hdouble hread negative), .inl rfl⟩

/-- **A finite double as it is shown is read as the double**, but for the sign of zero. -/
theorem exists_writesDouble_plainText {x : Float} (h : x.isFinite = true) :
    ∃ y, WritesDouble (plainText (Scalar.binary x)) y ∧ (y = x ∨ x = -Scalar.zero ∧ y = Scalar.zero) := by
  obtain ⟨negative, m, q, hx⟩ := Machine.ofFloat_of_isFinite h
  have hbinary : Scalar.binary x = .finite negative m q := hx
  unfold plainText
  split
  · rename_i hinteger
    rw [hbinary] at hinteger ⊢
    exact exists_writesDouble_intText hx (Bool.and_eq_true_iff.mp hinteger).1
  · exact ⟨x, writesDouble_shortText h, .inl rfl⟩

end LabLang.Number
