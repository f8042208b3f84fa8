import LabLang.Proofs.Doubles
import Mathlib

/-! # The bits of a double

A finite double is a mantissa scaled by a power of two, with a sign (`IsDouble`).  Its bits are the sign, the exponent
and the mantissa in this order, so that the exact value of a double determines the double (`eq_withSign`), and
changing the sign changes the first bit only (`neg_withSign`). -/

namespace LabLang.Number

open Float.Model UnpackedFloat

/-- The double `m · 2 ^ q`: its mantissa has at most 53 bits, and fewer only at the least exponent. -/
structure IsDouble (m : ℕ) (q : ℤ) : Prop where
  mantissa : m < 2 ^ 53
  normal : 2 ^ 52 ≤ m ∨ q = -1074
  exponent : -1074 ≤ q ∧ q ≤ 971

/-- The bits of a double that is not negative.  The leading bit of a mantissa of 53 bits counts as one more in the
exponent. -/
def bitsOf (m : ℕ) (q : ℤ) : ℕ := (q + 1074).toNat * 2 ^ 52 + m

theorem IsDouble.bitsOf_lt {m : ℕ} {q : ℤ} (h : IsDouble m q) : bitsOf m q < infinityBits := by
  obtain ⟨hm, -, hlow, hhigh⟩ := h
  unfold bitsOf infinityBits
  omega

/-- A finite double has the bits of its sign, mantissa and exponent. -/
theorem eq_withSign {x : Float} {negative : Bool} {m : ℕ} {q : ℤ} (h : Binary.ofFloat x = .finite negative m q) :
    IsDouble m q ∧ x = withSign negative (bitsOf m q) := by
  obtain ⟨b, hb⟩ : ∃ b, b = x.toBits.toNat := ⟨_, rfl⟩
  have hlt : b < 2 ^ 64 := hb ▸ x.toBits.toNat_lt
  have hx : x = Float.ofBits (UInt64.ofNat b) := by rw [hb, UInt64.ofNat_toNat, Float.ofBits_toBits]
  unfold Binary.ofFloat at h
  rw [← hb, show twoPow 63 = 2 ^ 63 from rfl, show twoPow 52 = 2 ^ 52 from rfl, show twoPow 11 = 2 ^ 11 from rfl] at h
  dsimp only at h
  have hbits : IsDouble m q ∧ (if negative then 2 ^ 63 + bitsOf m q else bitsOf m q) = b := by
    split at h
    · split at h <;> cases h
    · split at h
      · obtain ⟨rfl, rfl, rfl⟩ := Binary.finite.inj h
        have hmantissa : bitsOf (b % 2 ^ 52) (-1074) = b % 2 ^ 52 := by simp [bitsOf]
        refine ⟨⟨by omega, .inr rfl, by omega⟩, ?_⟩
        rw [hmantissa]
        simp only [decide_eq_true_eq]
        split <;> omega
      · obtain ⟨rfl, rfl, rfl⟩ := Binary.finite.inj h
        refine ⟨⟨by omega, .inl (by omega), by omega⟩, ?_⟩
        unfold bitsOf
        simp only [decide_eq_true_eq]
        split <;> omega
  refine ⟨hbits.1, ?_⟩
  unfold withSign
  rw [show twoPow 63 = 2 ^ 63 from rfl, hbits.2, hx]

/-! ### The sign -/

theorem toNat_unpackMantissa (b : BitVec Format.binary64.numBits) : (unpackMantissa b).toNat = b.toNat % 2 ^ 52 := by
  unfold unpackMantissa
  simp

theorem toNat_unpackSign (b : BitVec Format.binary64.numBits) : (unpackSign b).toNat = b.toNat / 2 ^ 63 := by
  have hlt : b.toNat < 2 ^ 64 := b.isLt
  rw [unpackSign_def, BitVec.extractLsb'_toNat, Nat.shiftRight_eq_div_pow]
  show b.toNat / 2 ^ 63 % 2 ^ 1 = b.toNat / 2 ^ 63
  omega

/-- Numbers that differ in the sign only are opposite. -/
theorem neg_unpack {a b : BitVec Format.binary64.numBits} (exponent : unpackExponent a = unpackExponent b)
    (mantissa : unpackMantissa a = unpackMantissa b)
    (sign : Sign.ofBitVec (unpackSign b) = -Sign.ofBitVec (unpackSign a)) :
    (UnpackedFloat.unpack Format.binary64 a).neg = UnpackedFloat.unpack Format.binary64 b := by
  simp only [UnpackedFloat.unpack, exponent, mantissa, sign]
  split
  · split <;> rfl
  · split
    · split <;> rfl
    · rfl

/-- Setting the sign bit of a finite number changes its sign. -/
theorem neg_unpack_add {a b : BitVec Format.binary64.numBits} (low : a.toNat < 2 ^ 63)
    (high : b.toNat = 2 ^ 63 + a.toNat) :
    (UnpackedFloat.unpack Format.binary64 a).neg = UnpackedFloat.unpack Format.binary64 b := by
  have hsign : @unpackSign Format.binary64 a = 0#1 := by
    rw [← BitVec.toNat_inj, toNat_unpackSign]
    exact Nat.div_eq_of_lt low
  have hsign' : @unpackSign Format.binary64 b = 1#1 := by
    rw [← BitVec.toNat_inj, toNat_unpackSign, high]
    show (2 ^ 63 + a.toNat) / 2 ^ 63 = 1
    omega
  refine neg_unpack ?_ ?_ ?_
  · rw [← BitVec.toNat_inj, Machine.toNat_unpackExponent, Machine.toNat_unpackExponent, high]
    omega
  · rw [← BitVec.toNat_inj, toNat_unpackMantissa, toNat_unpackMantissa, high]
    omega
  · rw [hsign, hsign']
    rfl

/-- The opposite of a finite double that is not negative. -/
theorem neg_withSign {b : ℕ} (h : b < infinityBits) : -(withSign false b) = withSign true b := by
  obtain ⟨u, hu⟩ : ∃ u : UInt64, u = UInt64.ofNat b := ⟨_, rfl⟩
  obtain ⟨u', hu'⟩ : ∃ u' : UInt64, u' = UInt64.ofNat (twoPow 63 + b) := ⟨_, rfl⟩
  unfold infinityBits at h
  have hb : u.toBitVec.toNat = b := by
    rw [hu, UInt64.toNat_toBitVec, UInt64.toNat_ofNat']
    omega
  have hb' : u'.toBitVec.toNat = 2 ^ 63 + b := by
    rw [hu', UInt64.toNat_toBitVec, UInt64.toNat_ofNat', show twoPow 63 = 2 ^ 63 from rfl]
    omega
  have hneg (y : Float) : -y = Float.ofModel (Float.Model.pack y.toModel.unpack.neg) := rfl
  have hunpack : (Float.ofBits u).toModel.unpack = UnpackedFloat.unpack Format.binary64
      (UnpackedFloat.pack Format.binary64 (UnpackedFloat.unpack Format.binary64 u.toBitVec)) := rfl
  have hpack : Float.ofBits u' =
      Float.ofModel (Float.Model.pack (UnpackedFloat.unpack Format.binary64 u'.toBitVec)) := rfl
  -- only the bits of a NaN are changed by reading and writing them
  have hvalid : UnpackedFloat.pack Format.binary64 (UnpackedFloat.unpack Format.binary64 u.toBitVec) = u.toBitVec := by
    refine pack_unpack_of_valid ⟨fun hones => ?_⟩
    rw [Machine.unpackExponent_eq_ones, hb] at hones
    omega
  unfold withSign
  rw [if_neg Bool.false_ne_true, if_pos rfl, ← hu, ← hu', hneg, hunpack, hvalid,
    neg_unpack_add (by omega) (by rw [hb', hb]), hpack]

end LabLang.Number
