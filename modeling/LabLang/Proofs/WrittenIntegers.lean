import LabLang.Number.Bounded
import LabLang.Proofs.Names
import LabLang.Proofs.PlainText
import Mathlib.Algebra.GroupWithZero.Nat

/-! # Integers read back

The decimal digits of a natural number are characters of words, so that nothing is trimmed or taken for a sign.  They
are read back as the number, unless there are more of them than are read (`readInteger_natDigits`).  An integer with more
of them cannot be written, and neither can one above it (`exists_bounded_iff`, `IsTooLong.mono`). -/

namespace LabLang.Number

open Text

theorem digitValue?_of_isDigit {c : Char} (h : c.isDigit = true) : digitValue? c = some (c.toNat - 48) := by
  have hrange : 48 ≤ c.toNat ∧ c.toNat ≤ 57 := by
    simpa [Char.isDigit, UInt32.le_iff_toNat_le] using h
  unfold digitValue?
  rw [if_pos (by omega), if_pos (by simpa using hrange)]

theorem isDigit_of_mem_natDigits {n : Nat} {c : Char} (h : c ∈ natDigits n) : c.isDigit = true :=
  Nat.isDigit_of_mem_toDigits (by decide) (by decide) h

/-- Decimal digits count as digits in texts, and as characters of words. -/
theorem isDigit_and_isWord_of_mem {n : Nat} {c : Char} (h : c ∈ natDigits n) :
    Text.isDigit c = true ∧ isWord c = true := by
  have hdigit := isDigit_of_mem_natDigits h
  have hlt : c.toNat < 128 := by
    have hrange : 48 ≤ c.toNat ∧ c.toNat ≤ 57 := by
      simpa [Char.isDigit, UInt32.le_iff_toNat_le] using hdigit
    omega
  refine ⟨?_, ?_⟩
  · unfold Text.isDigit
    rw [digitValue?_of_isDigit hdigit]
    rfl
  · unfold isWord
    rw [if_pos hlt]
    simp [Char.isAlphanum, hdigit]

theorem natDigits_ne_nil (n : Nat) : natDigits n ≠ [] := Nat.toDigits_ne_nil

/-- The digits write their number. -/
theorem digitsValue_natDigits (n : Nat) : digitsValue (natDigits n) = n := by
  have hfold (s : List Char) (hs : ∀ c ∈ s, c.isDigit = true) (start : Nat) :
      s.foldl (fun n c => 10 * n + (digitValue? c).getD 0) start = Nat.ofDigitChars 10 s start := by
    induction s generalizing start with
    | nil => rfl
    | cons c s ih =>
        rw [List.forall_mem_cons] at hs
        rw [List.foldl_cons, ih hs.2, digitValue?_of_isDigit hs.1, Nat.ofDigitChars_cons]
        rfl
  unfold digitsValue
  rw [hfold _ (fun c => isDigit_of_mem_natDigits) 0]
  exact Nat.ofDigitChars_ten_toDigits

/-- Without underscores the digits at the start of a text end where another character follows. -/
theorem takeDigitGroups_of_notMem {s : List Char} (h : '_' ∉ s) :
    takeDigitGroups s = some (s.takeWhile Text.isDigit, s.dropWhile Text.isDigit) := by
  induction s with
  | nil => rfl
  | cons c s ih =>
      have hmark : c ≠ '_' := fun hc => h (hc ▸ List.mem_cons_self)
      rw [takeDigitGroups]
      · by_cases hc : Text.isDigit c = true
        · rw [if_pos hc, ih fun hs => h (List.mem_cons_of_mem c hs), List.takeWhile_cons_of_pos hc,
            List.dropWhile_cons_of_pos hc]
          rfl
        · rw [if_neg hc, List.takeWhile_cons_of_neg hc, List.dropWhile_cons_of_neg hc]
      · exact fun hc => absurd hc hmark

/-- What consists of characters of words has no blanks to be trimmed. -/
theorem trim_of_isWord {s : List Char} (h : ∀ c ∈ s, isWord c = true) : trim s = s := by
  by_cases hs : s = []
  · rw [hs]
    rfl
  · exact trim_of_ends hs (isBlank_eq_false_of_isWord (h _ (List.head_mem hs)))
      (isBlank_eq_false_of_isWord (h _ (List.getLast_mem hs)))

theorem takeSign_cons {c : Char} (hminus : c ≠ '-') (hplus : c ≠ '+') (r : List Char) :
    takeSign (c :: r) = (false, c :: r) := by
  unfold takeSign
  split
  · rename_i heq
    exact absurd (List.cons.inj heq).1 hminus
  · rename_i heq
    exact absurd (List.cons.inj heq).1 hplus
  · rfl

/-- A text without blanks, signs and underscores is an integer if it consists of digits and there are not too many. -/
theorem readInteger_eq {s : List Char} (nonempty : s ≠ []) (blank : ∀ c ∈ s, isBlank c = false)
    (marks : ∀ c ∈ s, c ≠ '-' ∧ c ≠ '+' ∧ c ≠ '_') :
    readInteger s =
      if maxIntegerDigits < (s.takeWhile Text.isDigit).length then
        .error (.tooManyDigits (s.takeWhile Text.isDigit).length)
      else if s.all Text.isDigit = true then .ok (digitsValue s) else .error .notAnInteger := by
  obtain ⟨c, r, rfl⟩ := List.exists_cons_of_ne_nil nonempty
  obtain ⟨hminus, hplus, hmark⟩ := marks c List.mem_cons_self
  have htrim : trimWhiteSpace (c :: r) = c :: r :=
    trimWhiteSpace_of_ends nonempty (blank _ (List.head_mem nonempty)) (blank _ (List.getLast_mem nonempty))
  have hgroups := takeDigitGroups_of_notMem fun h => (marks '_' h).2.2 rfl
  unfold readInteger
  rw [htrim, takeSign_cons hminus hplus]
  dsimp only
  split
  · rename_i heq
    exact absurd (List.cons.inj heq).1 hmark
  · rw [hgroups]
    dsimp only
    split
    · rfl
    · by_cases hall : (c :: r).all Text.isDigit = true
      · have hdigits := List.all_eq_true.mp hall
        rw [if_pos hall, List.takeWhile_eq_self_iff.mpr hdigits, List.dropWhile_eq_nil_iff.mpr hdigits]
        rfl
      · have hrest : (c :: r).dropWhile Text.isDigit ≠ [] := fun h =>
          hall (List.all_eq_true.mpr (List.dropWhile_eq_nil_iff.mp h))
        rw [if_neg hall, if_pos]
        simp [hrest]

/-- **The digits of a number are read back.** -/
theorem readInteger_natDigits {n : Nat} (h : (natDigits n).length ≤ maxIntegerDigits) :
    readInteger (natDigits n) = .ok n := by
  have hword : ∀ c ∈ natDigits n, isWord c = true := fun c hc => (isDigit_and_isWord_of_mem hc).2
  have hdigits : ∀ c ∈ natDigits n, Text.isDigit c = true := fun c hc => (isDigit_and_isWord_of_mem hc).1
  have hmarks : ∀ c ∈ natDigits n, c ≠ '-' ∧ c ≠ '+' ∧ c ≠ '_' := by
    intro c hc
    refine ⟨?_, ?_, ?_⟩ <;> (rintro rfl; exact absurd (hdigits _ hc) (by decide))
  rw [readInteger_eq (natDigits_ne_nil n) (fun c hc => isBlank_eq_false_of_isWord (hword c hc)) hmarks,
    List.takeWhile_eq_self_iff.mpr hdigits, if_neg (Nat.not_lt.mpr h), if_pos (List.all_eq_true.mpr hdigits),
    digitsValue_natDigits]

/-- Numbers of shots have few digits. -/
theorem length_natDigits_le {n k : Nat} (hk : 0 < k) (h : n < 10 ^ k) : (natDigits n).length ≤ k :=
  (Nat.length_toDigits_le_iff (by decide) hk).mpr h

/-! ### Integers that are too long -/

theorem isTooLong_iff {n : Int} : IsTooLong n ↔ 10 ^ maxIntegerDigits ≤ n.natAbs :=
  not_le.symm.trans ((Nat.length_toDigits_le_iff (by decide) (by decide)).not.trans not_lt)

/-- A number below one that can be written can be written as well. -/
theorem IsTooLong.mono {m n : Int} (hm : 0 ≤ m) (hle : m ≤ n) (h : IsTooLong m) : IsTooLong n := by
  have habs : m.natAbs ≤ n.natAbs := by omega
  exact isTooLong_iff.mpr ((isTooLong_iff.mp h).trans habs)

theorem bounded_eq {write : Int → String} {n : Int} (h : ¬ IsTooLong n) : bounded write n = .ok (write n) := if_neg h

theorem bounded_of_isTooLong {write : Int → String} {n : Int} (h : IsTooLong n) :
    bounded write n = .error .tooManyDigits := if_pos h

theorem exists_bounded_iff {write : Int → String} {n : Int} : (∃ text, bounded write n = .ok text) ↔ ¬ IsTooLong n := by
  refine ⟨fun ⟨text, h⟩ hlong => ?_, fun h => ⟨write n, bounded_eq h⟩⟩
  rw [bounded_of_isTooLong hlong] at h
  cases h

end LabLang.Number
