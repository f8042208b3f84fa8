import Mathlib.Algebra.BigOperators.Group.Finset.Basic
import Mathlib.Analysis.SpecialFunctions.Log.Basic
import Mathlib.Analysis.SpecialFunctions.Trigonometric.Basic
import LabLang.Random.Sample
import LabLang.State.Outcome

/-! # Exact arithmetic

The real numbers as numbers that programs compute with: every operation of `Scalar` is exact, no number is infinite and
every sum has a value.  Over them the sum by halves is the sum (`total_eq_sum`), nothing is lost that a compensated sum
would have to carry along (`compensatedSum_eq_sum`), and the weight of an amplitude is its squared modulus
(`Amplitude.weight_eq`). -/

namespace LabLang

/-- Real numbers with exact operations.  In texts a number is cut off to the grid of the smallest double. -/
noncomputable instance exactScalar : Scalar ℝ where
  nat n := n
  ratio n d := n / d
  decimal digits exponent := digits * 10 ^ exponent
  pi := Real.pi
  sqrt := Real.sqrt
  exp := Real.exp
  log := Real.log
  sin := Real.sin
  cos := Real.cos
  floor x := ⌊x⌋
  isFinite _ := true
  lt x y := decide (x < y)
  le x y := decide (x ≤ y)
  eq x y := decide (x = y)
  sum xs := .ok xs.sum
  binary x := .finite (decide (x < 0)) ⌊|x| * 2 ^ 1074⌋₊ (-1074)

namespace Scalar

@[simp] theorem nat_real (n : ℕ) : (nat n : ℝ) = n := rfl

@[simp] theorem zero_real : (zero : ℝ) = 0 := Nat.cast_zero

@[simp] theorem one_real : (one : ℝ) = 1 := Nat.cast_one

@[simp] theorem lt_real (x y : ℝ) : lt x y = true ↔ x < y := decide_eq_true_iff

@[simp] theorem le_real (x y : ℝ) : le x y = true ↔ x ≤ y := decide_eq_true_iff

@[simp] theorem eq_real (x y : ℝ) : eq x y = true ↔ x = y := decide_eq_true_iff

@[simp] theorem ratio_real (n : ℤ) (d : ℕ) : (ratio n d : ℝ) = n / d := rfl

@[simp] theorem int_real (n : ℤ) : (int n : ℝ) = n := by
  unfold int
  rw [nat_real, Nat.cast_natAbs]
  by_cases h : n < 0
  · rw [if_pos h, abs_of_neg h, Int.cast_neg, neg_neg]
  · rw [if_neg h, abs_of_nonneg (not_lt.mp h)]

@[simp] theorem abs_real (x : ℝ) : abs x = |x| := by
  unfold abs
  rcases lt_trichotomy x 0 with h | h | h
  · simp [h, abs_of_neg h]
  · simp [h]
  · simp [h.le.not_gt, h.ne', abs_of_pos h]

end Scalar

/-! ### Sums -/

/-- The sum by halves is the sum, if it is deep enough for its length. -/
theorem State.balancedSum_eq_sum (f : ℕ → ℝ) {depth start length : ℕ} (h : length ≤ 2 ^ depth) :
    State.balancedSum f (depth + 1) start length = ∑ i ∈ Finset.range length, f (start + i) := by
  induction depth generalizing start length with
  | zero =>
      rw [pow_zero] at h
      rcases Nat.le_one_iff_eq_zero_or_eq_one.mp h with rfl | rfl
      · simp [State.balancedSum]
      · simp [State.balancedSum]
  | succ depth ih =>
      rw [pow_succ] at h
      unfold State.balancedSum
      by_cases hzero : length = 0
      · simp [hzero]
      by_cases hone : length = 1
      · simp [hone]
      rw [if_neg hzero, if_neg hone, ih (by omega), ih (by omega)]
      have hsplit : length = length / 2 + (length - length / 2) := by omega
      conv_rhs => rw [hsplit, Finset.sum_range_add]
      simp only [Nat.add_assoc]

theorem State.total_eq_sum (f : ℕ → ℝ) (length : ℕ) : State.total f length = ∑ i ∈ Finset.range length, f i := by
  unfold State.total
  rw [State.balancedSum_eq_sum f Nat.lt_log2_self.le]
  simp only [Nat.zero_add]

theorem Random.compensatedSum_eq_sum (xs : List ℝ) : Random.compensatedSum xs = xs.sum := by
  cases xs with
  | nil => simp [Random.compensatedSum]
  | cons x xs =>
      unfold Random.compensatedSum
      rw [Scalar.zero_real, List.sum_cons]
      dsimp only
      induction xs generalizing x with
      | nil => simp
      | cons y xs ih =>
          -- the next term is added to a sum that has lost nothing, and nothing is lost again
          have hlost : x + (y - 0) - x - (y - 0) = 0 := by ring
          rw [List.foldl_cons, List.sum_cons]
          dsimp only
          rw [hlost, ih, sub_zero, add_assoc]

/-! ### Amplitudes -/

namespace Amplitude

section

variable {R : Type} [Scalar R] (a b : Amplitude R) (x : R)

@[simp] theorem add_re : (a + b).re = a.re + b.re := rfl

@[simp] theorem add_im : (a + b).im = a.im + b.im := rfl

@[simp] theorem mul_re : (a * b).re = a.re * b.re - a.im * b.im := rfl

@[simp] theorem mul_im : (a * b).im = a.re * b.im + a.im * b.re := rfl

@[simp] theorem neg_re : (-a).re = -a.re := rfl

@[simp] theorem neg_im : (-a).im = -a.im := rfl

@[simp] theorem conj_re : a.conj.re = a.re := rfl

@[simp] theorem conj_im : a.conj.im = -a.im := rfl

@[simp] theorem zero_re : (0 : Amplitude R).re = Scalar.zero := rfl

@[simp] theorem zero_im : (0 : Amplitude R).im = Scalar.zero := rfl

@[simp] theorem one_re : (1 : Amplitude R).re = Scalar.one := rfl

@[simp] theorem one_im : (1 : Amplitude R).im = Scalar.zero := rfl

@[simp] theorem ofReal_re : (ofReal x).re = x := rfl

@[simp] theorem ofReal_im : (ofReal x).im = Scalar.zero := rfl

@[simp] theorem imaginary_re : (imaginary x).re = Scalar.zero := rfl

@[simp] theorem imaginary_im : (imaginary x).im = x := rfl

@[simp] theorem phase_re : (phase x).re = Scalar.cos x := rfl

@[simp] theorem phase_im : (phase x).im = Scalar.sin x := rfl

end

/-- The weight is the square of the modulus. -/
theorem weight_eq (a : Amplitude ℝ) : a.weight = a.re * a.re + a.im * a.im := by
  unfold weight modulus
  exact Real.mul_self_sqrt (add_nonneg (mul_self_nonneg _) (mul_self_nonneg _))

theorem weight_nonneg (a : Amplitude ℝ) : 0 ≤ a.weight := by
  rw [weight_eq]
  exact add_nonneg (mul_self_nonneg _) (mul_self_nonneg _)

@[simp] theorem weight_zero : (0 : Amplitude ℝ).weight = 0 := by simp [weight_eq]

theorem weight_pos {a : Amplitude ℝ} (h : a ≠ 0) : 0 < a.weight := by
  rw [weight_eq]
  by_contra hle
  have hre : a.re = 0 := by nlinarith [mul_self_nonneg a.re, mul_self_nonneg a.im]
  have him : a.im = 0 := by nlinarith [mul_self_nonneg a.re, mul_self_nonneg a.im]
  obtain ⟨re, im⟩ := a
  have hre' : re = Scalar.zero := hre.trans Scalar.zero_real.symm
  have him' : im = Scalar.zero := him.trans Scalar.zero_real.symm
  rw [hre', him'] at h
  exact h rfl

@[simp] theorem weight_one : (1 : Amplitude ℝ).weight = 1 := by simp [weight_eq]

end Amplitude

end LabLang
