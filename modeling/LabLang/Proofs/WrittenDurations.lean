import LabLang.Config.Fault
import LabLang.Proofs.ShortestDecimals

/-! # Durations are known by their texts

The text of a double is read as the double, be it finite, infinite or no number (`readNumeral_shortText`), and integers
are written without a point and without an exponent.  So two durations have the same text only if they are the same
(`Seconds.text_injective`): 5 is shown as `5` and 5.0 as `5.0`. -/

namespace LabLang

namespace Number

open Float.Model UnpackedFloat

/-! ### Doubles that are not finite -/

theorem isFinite_of_ofFloat {x : Float} {negative : Bool} {m : ℕ} {q : ℤ} (h : Binary.ofFloat x = .finite negative m q) :
    x.isFinite = true := by
  refine (Machine.isFinite_unpack x.toModel.toBits.toBitVec).mpr fun hexponent => ?_
  have hlargest : x.toBits.toNat / twoPow 52 % twoPow 11 = 2047 := hexponent
  unfold Binary.ofFloat at h
  dsimp only at h
  rw [if_pos hlargest] at h
  split at h <;> cases h

/-- There is only one double that is no number. -/
theorem eq_nan_of_ofFloat {x : Float} (h : Binary.ofFloat x = .nan) : x = Machine.nan := by
  obtain ⟨b, hb⟩ : ∃ b, b = x.toBits.toNat := ⟨_, rfl⟩
  have hmodel : x.toModel.toBits.toBitVec.toNat = b := hb.symm
  unfold Binary.ofFloat at h
  rw [← hb, show twoPow 52 = 2 ^ 52 from rfl, show twoPow 11 = 2 ^ 11 from rfl] at h
  dsimp only at h
  have hbits : b / 2 ^ 52 % 2 ^ 11 = 2047 ∧ b % 2 ^ 52 ≠ 0 := by
    split at h
    · split at h
      · cases h
      · exact ⟨‹_›, ‹_›⟩
    · split at h <;> cases h
  -- the bits of a double that is no number are fixed by the type
  have hpacked : x.toModel.toBits.toBitVec = packedNaN Format.binary64 := by
    refine x.toModel.valid.eq_packedNaN ((Machine.unpackExponent_eq_ones _).mpr ?_) ?_
    · rw [hmodel]
      exact hbits.1
    · rw [ne_eq, ← BitVec.toNat_inj, toNat_unpackMantissa, hmodel]
      exact hbits.2
  rw [← Float.ofBits_toBits x, ← Float.ofBits_toBits Machine.nan]
  exact congrArg Float.ofBits (UInt64.toBitVec_inj.mp hpacked)

/-- There are only two infinite doubles. -/
theorem eq_infinity_of_ofFloat {x : Float} {negative : Bool} (h : Binary.ofFloat x = .infinity negative) :
    x = withSign negative infinityBits := by
  obtain ⟨b, hb⟩ : ∃ b, b = x.toBits.toNat := ⟨_, rfl⟩
  have hlt : b < 2 ^ 64 := hb ▸ x.toBits.toNat_lt
  have hx : x = Float.ofBits (UInt64.ofNat b) := by rw [hb, UInt64.ofNat_toNat, Float.ofBits_toBits]
  unfold Binary.ofFloat at h
  rw [← hb, show twoPow 63 = 2 ^ 63 from rfl, show twoPow 52 = 2 ^ 52 from rfl, show twoPow 11 = 2 ^ 11 from rfl] at h
  dsimp only at h
  have hbits : (if negative then 2 ^ 63 + infinityBits else infinityBits) = b := by
    unfold infinityBits
    split at h
    · split at h
      · obtain rfl := Binary.infinity.inj h
        simp only [decide_eq_true_eq]
        split <;> omega
      · cases h
    · split at h <;> cases h
  unfold withSign
  rw [show twoPow 63 = 2 ^ 63 from rfl, hbits, hx]

/-! ### Doubles as text -/

/-- **The text of a double is read as the double**, whether it is finite or not. -/
theorem readNumeral_shortText (x : Float) :
    (readNumeral (shortText (Scalar.binary x)).toList).map Machine.ofNumeral = some x := by
  have hbinary : Scalar.binary x = Binary.ofFloat x := rfl
  cases hx : Binary.ofFloat x with
  | nan =>
      rw [hbinary, hx, eq_nan_of_ofFloat hx]
      rfl
  | infinity negative =>
      rw [hbinary, hx, eq_infinity_of_ofFloat hx]
      cases negative with
      | false => rfl
      | true => decide +kernel
  | finite negative m q =>
      obtain ⟨negative, digits, exponent, hread, hvalue⟩ := exists_readNumeral_shortText (isFinite_of_ofFloat hx)
      rw [hread, Option.map_some]
      exact congrArg some hvalue

/-- Different doubles have different texts. -/
theorem shortText_injective : Function.Injective fun x : Float => shortText (Scalar.binary x) := by
  intro x y h
  have hx := readNumeral_shortText x
  rw [show shortText (Scalar.binary x) = shortText (Scalar.binary y) from h, readNumeral_shortText y] at hx
  exact (Option.some.inj hx).symm

/-- A finite number is written with a point or with an exponent. -/
theorem exists_mark_write (d : Decimal) : '.' ∈ shortLayout.write d ∨ 'e' ∈ shortLayout.write d := by
  have hexponent (e : ℤ) : 'e' ∈ exponentText e := List.mem_cons_self
  unfold Layout.write
  dsimp only
  rw [show shortLayout.pointZero = true from rfl, if_pos rfl]
  split
  · exact .inl (by decide)
  · split
    · left
      split
      · simp
      · split <;> simp
    · right
      split <;> simp [hexponent]

/-- The characters that doubles are written with.  The letters are those of an exponent and of the names of what is
not finite. -/
theorem mem_shortText {b : Binary} {c : Char} (h : c ∈ (shortText b).toList) :
    isNumberMark c = true ∨ c ∈ ['n', 'a', 'i', 'f'] := by
  have hname : ∀ c ∈ ['-', 'i', 'n', 'f', 'a'], isNumberMark c = true ∨ c ∈ ['n', 'a', 'i', 'f'] :=
    Text.forall_mem_of_all (by decide)
  cases b with
  | nan => exact hname c ((by decide : "nan".toList ⊆ ['-', 'i', 'n', 'f', 'a']) h)
  | infinity negative =>
      refine hname c ?_
      cases negative with
      | false => exact (by decide : "inf".toList ⊆ ['-', 'i', 'n', 'f', 'a']) h
      | true => exact (by decide : "-inf".toList ⊆ ['-', 'i', 'n', 'f', 'a']) h
  | finite negative m q => exact .inl (List.all_eq_true.mp all_shortText c h)

/-- A double is not written with digits and a minus sign alone. -/
theorem exists_letter_shortText (b : Binary) : ∃ c ∈ (shortText b).toList, c.isDigit = false ∧ c ≠ '-' := by
  cases b with
  | nan => exact ⟨'n', by decide, by decide⟩
  | infinity negative =>
      refine ⟨'i', ?_, by decide⟩
      cases negative <;> decide
  | finite negative m q =>
      have hsigned {c : Char} (h : c ∈ shortLayout.write (shortest m q)) :
          c ∈ (shortText (.finite negative m q)).toList := by
        show c ∈ (signed negative _).toList
        unfold signed
        rw [String.toList_ofList]
        split
        · exact List.mem_cons_of_mem _ h
        · exact h
      rcases exists_mark_write (shortest m q) with h | h
      · exact ⟨'.', hsigned h, by decide⟩
      · exact ⟨'e', hsigned h, by decide⟩

/-! ### Integers as text -/

theorem toList_intText (n : ℤ) :
    (intText n).toList = if n < 0 then '-' :: natDigits n.natAbs else natDigits n.natAbs := String.toList_ofList

theorem mem_intText {n : ℤ} {c : Char} (h : c ∈ (intText n).toList) : c.isDigit = true ∨ c = '-' := by
  rw [toList_intText] at h
  split at h
  · rcases List.mem_cons.mp h with rfl | h
    · exact .inr rfl
    · exact .inl (isDigit_of_mem_natDigits h)
  · exact .inl (isDigit_of_mem_natDigits h)

/-- Different integers have different texts. -/
theorem intText_injective : Function.Injective intText := by
  intro a b h
  have hdigits {i j : ℕ} (h : natDigits i = natDigits j) : i = j := by
    rw [← digitsValue_natDigits i, h, digitsValue_natDigits]
  have hminus {i j : ℕ} : '-' :: natDigits i ≠ natDigits j := fun h =>
    absurd (isDigit_of_mem_natDigits (h ▸ List.mem_cons_self)) (by decide)
  replace h := congrArg String.toList h
  rw [toList_intText, toList_intText] at h
  split at h
  · split at h
    · have := hdigits (List.cons.inj h).2
      omega
    · exact absurd h hminus
  · split at h
    · exact absurd h.symm hminus
    · have := hdigits h
      omega

end Number

/-! ### Durations -/

namespace Seconds

open Number

/-- **Different durations have different texts.** -/
theorem text_injective : Function.Injective text := by
  -- an integer has no character that tells a double
  have hkinds (n : Int) (x : Float) : (whole n).text ≠ (real x).text := by
    intro h
    obtain ⟨c, hc, hdigit, hminus⟩ := exists_letter_shortText (Scalar.binary x)
    have hmem : c ∈ (intText n).toList := (congrArg String.toList h : _ = (shortText _).toList) ▸ hc
    rcases mem_intText hmem with h | h
    · rw [hdigit] at h
      cases h
    · exact hminus h
  intro s t h
  cases s with
  | whole n =>
      cases t with
      | whole k => exact congrArg whole (intText_injective h)
      | real y => exact absurd h (hkinds n y)
  | real x =>
      cases t with
      | whole k => exact absurd h.symm (hkinds k x)
      | real y => exact congrArg real (shortText_injective h)

/-- The unit is no part of the text of a duration. -/
theorem notMem_text (s : Seconds) : 's' ∉ s.text.toList := by
  intro h
  cases s with
  | whole n => exact absurd (mem_intText h) (by decide)
  | real x => exact absurd (mem_shortText h) (by decide)

end Seconds

end LabLang
