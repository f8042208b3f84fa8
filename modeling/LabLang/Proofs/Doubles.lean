import LabLang.Scalar.Machine
import Mathlib.Algebra.Order.Ring.Nat

/-! # Doubles

What the arithmetic of doubles does with finite numbers and with signs, on the bits of a number (`isFinite_unpack`) and on
its sign, mantissa and exponent (`hasPositiveSign_mul_self`).  A sum fails for one of two reasons: both infinities are
among its terms, or an addition on the way to it overflows.  Terms that are finite or squares leave the second reason only
(`sum_eq_overflow`). -/

namespace LabLang.Machine

open Number Float.Model Float.Model.UnpackedFloat

/-! ### Finite numbers -/

theorem toNat_unpackExponent (b : BitVec Format.binary64.numBits) :
    (unpackExponent b).toNat = b.toNat / 2 ^ 52 % 2 ^ 11 := by
  unfold unpackExponent
  simp [Nat.shiftRight_eq_div_pow]

theorem unpackExponent_eq_ones (b : BitVec Format.binary64.numBits) :
    unpackExponent b = -1#_ ↔ b.toNat / 2 ^ 52 % 2 ^ 11 = 2047 := by
  rw [← BitVec.toNat_inj, toNat_unpackExponent]
  rfl

/-- The bits of a number that is not finite have the largest exponent. -/
theorem isFinite_unpack (b : BitVec Format.binary64.numBits) :
    (UnpackedFloat.unpack Format.binary64 b).isFinite = true ↔ b.toNat / 2 ^ 52 % 2 ^ 11 ≠ 2047 := by
  rw [ne_eq, ← not_congr (unpackExponent_eq_ones b)]
  unfold UnpackedFloat.unpack
  dsimp only
  by_cases h : unpackExponent b = -1#_
  · rw [if_pos h]
    refine ⟨fun hfinite => ?_, fun hne => absurd h hne⟩
    by_cases hmantissa : unpackMantissa b = 0#_
    · rw [if_pos hmantissa] at hfinite
      cases hfinite
    · rw [if_neg hmantissa] at hfinite
      cases hfinite
  · rw [if_neg h]
    refine ⟨fun _ => h, fun _ => ?_⟩
    by_cases hexponent : unpackExponent b = 0#_
    · rw [if_pos hexponent]
      by_cases hmantissa : unpackMantissa b = 0#_
      · rw [dif_pos hmantissa]
        rfl
      · rw [dif_neg hmantissa]
        rfl
    · rw [if_neg hexponent]
      rfl

/-- A finite double has an exact value. -/
theorem ofFloat_of_isFinite {x : Float} (h : x.isFinite = true) : ∃ s m e, Binary.ofFloat x = .finite s m e := by
  have he : ¬ x.toBits.toNat / twoPow 52 % twoPow 11 = 2047 := (isFinite_unpack x.toModel.toBits.toBitVec).mp h
  unfold Binary.ofFloat
  dsimp only
  rw [if_neg he]
  split
  · exact ⟨_, _, _, rfl⟩
  · exact ⟨_, _, _, rfl⟩

/-- A finite double that is not below zero is zero or above it. -/
theorem le_of_not_lt {x : Float} (finite : x.isFinite = true) (h : Scalar.lt x Scalar.zero = false) :
    Scalar.le Scalar.zero x = true := by
  have hzero : (Scalar.zero : Float).toModel.unpack = .zero .positive := rfl
  have hlt : UnpackedFloat.lt x.toModel.unpack (.zero .positive) = false := by
    rw [← hzero, Bool.eq_false_iff]
    exact fun hlt => decide_eq_false_iff_not.mp h (decide_eq_true hlt)
  have hfinite : x.toModel.unpack.isFinite = true := finite
  have hle : UnpackedFloat.le (.zero .positive) x.toModel.unpack = true := by
    cases hx : x.toModel.unpack with
    | notANumber => rw [hx] at hfinite; cases hfinite
    | infinity s => rw [hx] at hfinite; cases hfinite
    | zero s => rfl
    | finite s m e hm =>
        cases s with
        | positive => rfl
        | negative => rw [hx] at hlt; cases hlt
  rw [← hzero] at hle
  exact decide_eq_true (decide_eq_true hle)

/-- A double that is a number and neither zero nor below it is above zero. -/
theorem lt_of_not_le {x : Float} (number : x.isNaN = false) (h : Scalar.le x Scalar.zero = false) :
    Scalar.lt Scalar.zero x = true := by
  have hzero : (Scalar.zero : Float).toModel.unpack = .zero .positive := rfl
  have hle : UnpackedFloat.le x.toModel.unpack (.zero .positive) = false := by
    rw [← hzero, Bool.eq_false_iff]
    exact fun hle => decide_eq_false_iff_not.mp h (decide_eq_true hle)
  have hnumber : x.toModel.unpack.isNaN = false := number
  have hlt : UnpackedFloat.lt (.zero .positive) x.toModel.unpack = true := by
    cases hx : x.toModel.unpack with
    | notANumber => rw [hx] at hnumber; cases hnumber
    | zero s => rw [hx] at hle; cases hle
    | infinity s | finite s m e hm =>
        cases s with
        | positive => rfl
        | negative => rw [hx] at hle; cases hle
  rw [← hzero] at hlt
  exact decide_eq_true (decide_eq_true hlt)

/-- The sign bit of the number is not set. -/
def HasPositiveSign : UnpackedFloat → Prop
  | .notANumber => True
  | .infinity s | .zero s | .finite s _ _ _ => s = .positive

theorem packComponents_positive_lt (e : BitVec Format.binary64.exponentBits)
    (m : BitVec Format.binary64.mantissaBitsWithoutImplicit) :
    (packComponents Format.binary64 .positive e m).toNat < 2 ^ 63 := by
  have he : e.toNat < 2 ^ 11 := e.isLt
  have hm : m.toNat < 2 ^ 52 := m.isLt
  have hsign : Sign.toBitVec .positive = 0#1 := rfl
  unfold packComponents
  rw [BitVec.toNat_append, BitVec.toNat_append, hsign, BitVec.toNat_zero, Nat.zero_shiftLeft, Nat.zero_or,
    Nat.shiftLeft_eq]
  refine Nat.or_lt_two_pow ?_ (Nat.lt_trans hm (by decide))
  show e.toNat * 2 ^ 52 < 2 ^ 63
  omega

theorem HasPositiveSign.pack_lt {u : UnpackedFloat} (h : HasPositiveSign u) :
    (UnpackedFloat.pack Format.binary64 u).toNat < 2 ^ 63 := by
  cases u with
  | notANumber => exact packComponents_positive_lt ..
  | infinity s =>
      obtain rfl : s = .positive := h
      exact packComponents_positive_lt ..
  | zero s =>
      obtain rfl : s = .positive := h
      exact packComponents_positive_lt ..
  | finite s m e hm =>
      obtain rfl : s = .positive := h
      unfold UnpackedFloat.pack
      dsimp only
      split
      · exact packComponents_positive_lt ..
      · split
        · exact packComponents_positive_lt ..
        · exact packComponents_positive_lt ..

theorem sign_mul_self (s : Sign) : s * s = .positive := by
  cases s <;> rfl

/-- Rounding keeps the sign. -/
theorem hasPositiveSign_roundWithAccuracy {s : Sign} (h : s = .positive) (m : Nat) (e : Int) (a : Accuracy) :
    HasPositiveSign (roundWithAccuracy Format.binary64 s m e a) := by
  unfold roundWithAccuracy
  dsimp only
  by_cases hzero : (shiftToTargetExponent Format.binary64
      (shiftToTargetExponent Format.binary64 m e a).1.roundedMantissa
      (shiftToTargetExponent Format.binary64 m e a).2 .exact).1.mantissa = 0
  · rw [dif_pos hzero]
    exact h
  · rw [dif_neg hzero]
    exact h

/-- Squares have no sign, whatever they are rounded to. -/
theorem hasPositiveSign_mul_self (u : UnpackedFloat) :
    HasPositiveSign (UnpackedFloat.mul Format.binary64 u u) := by
  cases u with
  | notANumber => trivial
  | infinity s => exact sign_mul_self s
  | zero s => exact sign_mul_self s
  | finite s m e hm => exact hasPositiveSign_roundWithAccuracy (sign_mul_self s) ..

theorem ofFloat_mul_self (x : Float) : Binary.ofFloat (x * x) ≠ .infinity true := by
  have hbits : (x * x).toBits.toNat < 2 ^ 63 := (hasPositiveSign_mul_self x.toModel.unpack).pack_lt
  have hsign : decide (twoPow 63 ≤ (x * x).toBits.toNat) = false := decide_eq_false (Nat.not_le.mpr hbits)
  unfold Binary.ofFloat
  dsimp only
  rw [hsign]
  split
  · split <;> simp
  · split <;> simp

/-! ### Sums -/

/-- A term other than the negative infinity leaves the sum without one, unless it makes the sum overflow. -/
theorem Partial.add_of_ne {p : Partial} {x : Float} (hp : p.negative = false)
    (hx : Binary.ofFloat x ≠ .infinity true) :
    p.add x = .error .overflow ∨ ∃ p', p.add x = .ok p' ∧ p'.negative = false := by
  unfold Partial.add
  cases hbinary : Binary.ofFloat x with
  | nan => exact .inr ⟨_, rfl, hp⟩
  | infinity negative =>
      cases negative with
      | false => exact .inr ⟨_, rfl, hp⟩
      | true => exact absurd hbinary hx
  | finite s m e =>
      dsimp only
      split
      · exact .inl rfl
      · exact .inr ⟨_, rfl, hp⟩

theorem foldlM_add_of_ne {xs : List Float} (h : ∀ x ∈ xs, Binary.ofFloat x ≠ .infinity true) {p : Partial}
    (hp : p.negative = false) :
    xs.foldlM Partial.add p = .error .overflow ∨ ∃ p', xs.foldlM Partial.add p = .ok p' ∧ p'.negative = false := by
  induction xs generalizing p with
  | nil => exact .inr ⟨p, rfl, hp⟩
  | cons x xs ih =>
      rw [List.forall_mem_cons] at h
      rw [List.foldlM_cons]
      rcases Partial.add_of_ne hp h.1 with hadd | ⟨p', hadd, hp'⟩
      · rw [hadd]
        exact .inl rfl
      · rw [hadd]
        exact ih h.2 hp'

/-- Without the negative infinity among its terms, a sum fails by overflow only. -/
theorem sum_eq_overflow {xs : List Float} (h : ∀ x ∈ xs, Binary.ofFloat x ≠ .infinity true) {fault : SumFault}
    (hsum : sum xs = .error fault) : fault = .overflow := by
  unfold sum at hsum
  rcases foldlM_add_of_ne h (p := {}) rfl with hfold | ⟨p, hfold, hp⟩
  · rw [hfold] at hsum
    cases hsum
    rfl
  · rw [hfold] at hsum
    change p.result = .error fault at hsum
    unfold Partial.result at hsum
    rw [hp, Bool.and_false] at hsum
    split at hsum
    · contradiction
    · split at hsum
      · cases hsum
      · split at hsum
        · cases hsum
        · split at hsum
          · cases hsum
          · cases hsum

/-- The largest double, the smallest one below zero and half a unit: the exact sum is nearest to the largest double, but
the last addition overflows. -/
example : sum [.ofBits 0x7FEFFFFFFFFFFFFF, -.ofBits 1, .ofBits 0x7C90000000000000] = .error .overflow := by
  decide +kernel

end LabLang.Machine
