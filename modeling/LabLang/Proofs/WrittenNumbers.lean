import LabLang.Proofs.WrittenIntegers

/-! # The characters of written numbers

A finite number is written with digits, a point, signs and the mark of an exponent, whichever layout it takes
(`all_write`).  So its text has no blank and none of the characters that separate the parts of a line. -/

namespace LabLang.Number

open Text

/-- The characters that finite numbers are written with. -/
def isNumberMark (c : Char) : Bool := c.isDigit || c == '.' || c == '-' || c == '+' || c == 'e'

/-- What holds of these characters is checked on the first ones of the character table. -/
theorem of_isNumberMark {p : Char → Prop} (h : ∀ n < 128, isNumberMark (Char.ofNat n) = true → p (Char.ofNat n))
    {c : Char} (hc : isNumberMark c = true) : p c := by
  have hlt : c.toNat < 128 := by
    simp only [isNumberMark, Char.isDigit, Bool.or_eq_true, Bool.and_eq_true, decide_eq_true_eq, beq_iff_eq,
      UInt32.le_iff_toNat_le] at hc
    rcases hc with (((⟨_, h⟩ | rfl) | rfl) | rfl) | rfl
    · exact h.trans_lt (by decide)
    all_goals decide
  rw [← Char.ofNat_toNat c] at hc ⊢
  exact h _ hlt hc

/-- None of these characters is blank, separates arguments or starts a comment. -/
theorem clean_of_isNumberMark {c : Char} (h : isNumberMark c = true) : isBlank c = false ∧ c ≠ ',' ∧ c ≠ '#' :=
  of_isNumberMark (p := fun c => isBlank c = false ∧ c ≠ ',' ∧ c ≠ '#') (by decide +kernel) h

/-! ### Parts of a number -/

theorem all_natDigits (n : Nat) : (natDigits n).all isNumberMark = true := by
  rw [List.all_eq_true]
  intro c hc
  simp [isNumberMark, isDigit_of_mem_natDigits hc]

theorem all_zeros (n : Nat) : (List.replicate n '0').all isNumberMark = true := by
  rw [List.all_eq_true]
  intro c hc
  rw [List.eq_of_mem_replicate hc]
  decide

theorem dropEndZeros_subset (ds : List Char) : dropEndZeros ds ⊆ ds := by
  intro c hc
  exact List.mem_reverse.mp ((List.dropWhile_suffix _).subset (List.mem_reverse.mp hc))

theorem all_exponentText (e : Int) : (exponentText e).all isNumberMark = true := by
  have hsign : isNumberMark (if e < 0 then '-' else '+') = true := by split <;> decide
  simp only [exponentText, padZeros, List.all_cons, List.all_append, all_zeros, all_natDigits, hsign]
  decide

/-! ### Layouts -/

/-- Whichever layout a decimal takes, it is written with these characters. -/
theorem all_write (l : Layout) (d : Decimal) : (l.write d).all isNumberMark = true := by
  have hpoint : isNumberMark '.' = true := by decide
  have hzero : isNumberMark '0' = true := by decide
  have hpart {s : List Char} (h : s ⊆ dropEndZeros (natDigits d.digits)) : s.all isNumberMark = true := by
    rw [List.all_eq_true]
    intro c hc
    exact List.all_eq_true.mp (all_natDigits d.digits) c (dropEndZeros_subset _ (h hc))
  unfold Layout.write
  dsimp only
  split
  · split <;> decide
  · split
    · split
      · simp [hpoint, hzero, hpart]
      · split
        · split <;> simp [hpoint, hzero, hpart, List.take_subset]
        · simp [hpoint, hzero, hpart, List.take_subset, List.drop_subset]
    · split
      · rename_i first second more heq
        have hkept : (first :: second :: more).all isNumberMark = true := heq ▸ hpart (List.Subset.refl _)
        simp only [List.all_cons, Bool.and_eq_true] at hkept
        simp [hpoint, hkept, all_exponentText]
      · simp [hpart, all_exponentText]

theorem all_signed {text : List Char} (h : text.all isNumberMark = true) (negative : Bool) :
    (signed negative text).toList.all isNumberMark = true := by
  have hminus : isNumberMark '-' = true := by decide
  unfold signed
  rw [String.toList_ofList]
  split
  · rw [List.all_cons, hminus, h]
    rfl
  · exact h

/-- The text of a finite number. -/
theorem all_shortText {negative : Bool} {m : Nat} {q : Int} :
    (shortText (.finite negative m q)).toList.all isNumberMark = true := all_signed (all_write _ _) negative

end LabLang.Number
