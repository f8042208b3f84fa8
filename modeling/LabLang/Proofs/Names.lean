import LabLang.Text.Blank
import LabLang.Text.Line
import LabLang.Text.Word
import Mathlib.Data.List.TakeWhile

/-! # Names in texts

The longest name at the start of a text is a name (`isName_of_takeName`), and a name is read back in front of anything
that cannot continue it (`takeName_append`).  Characters of words are never blank: the two tables of characters have no
code point in common (`Ranges.holds_eq_false`). -/

namespace LabLang.Text

/-! ### Characters -/

/-- What holds of some characters is found by testing each of them, not by going through the whole character table. -/
theorem forall_mem_of_all {p : Char → Prop} [DecidablePred p] {s : List Char}
    (h : (s.all fun c => decide (p c)) = true) : ∀ c ∈ s, p c := by
  simpa using h

/-- No range of one table meets one of the other. -/
def Ranges.disjoint (rs ss : Ranges) : Bool := rs.all fun r => ss.all fun s => r.2 < s.1 || s.2 < r.1

theorem Ranges.holds_eq_false {rs ss : Ranges} (h : rs.disjoint ss = true) {n : Nat} (hn : rs.holds n = true) :
    ss.holds n = false := by
  rw [Bool.eq_false_iff]
  intro hs
  obtain ⟨r, hr, hrn⟩ := List.any_eq_true.mp hn
  obtain ⟨s, hs, hsn⟩ := List.any_eq_true.mp hs
  have hrs := List.all_eq_true.mp (List.all_eq_true.mp h r hr) s hs
  simp only [Bool.and_eq_true, Bool.or_eq_true, decide_eq_true_eq] at hrn hsn hrs
  omega

theorem isBlank_eq_false_of_isWord {c : Char} (h : isWord c = true) : isBlank c = false := by
  unfold isWord at h
  split at h
  · rename_i hlt
    have hascii : ∀ n < 128, (Char.ofNat n).isAlphanum = true ∨ (Char.ofNat n == '_') = true →
        isBlank (Char.ofNat n) = false := by decide +kernel
    rw [← Char.ofNat_toNat c] at h ⊢
    exact hascii _ hlt (by simpa using h)
  · have apart : wordRanges.disjoint blankRanges = true := by decide +kernel
    exact Ranges.holds_eq_false apart h

/-- Whatever ends a line is blank, and so is the tab. -/
theorem clean_of_not_isBlank {c : Char} (h : isBlank c = false) : c ≠ '\t' ∧ isLineBreak c = false := by
  constructor
  · rintro rfl
    cases h
  · rw [Bool.eq_false_iff]
    intro hbreak
    have hall : ∀ n ∈ lineBreaks, blankRanges.holds n = true := by decide
    have hblank : isBlank c = true := hall _ (List.contains_iff_mem.mp hbreak)
    rw [h] at hblank
    cases hblank

/-- Characters of words stand in a line as they are. -/
theorem clean_of_isWord {c : Char} (h : isWord c = true) : c ≠ '#' ∧ c ≠ '\t' ∧ isLineBreak c = false := by
  refine ⟨?_, clean_of_not_isBlank (isBlank_eq_false_of_isWord h)⟩
  rintro rfl
  exact absurd h (by decide)

/-! ### Words -/

theorem eq_append_of_dropWord {w s r : List Char} (h : dropWord w s = some r) : s = w ++ r := by
  fun_induction dropWord w s with
  | case1 s =>
      cases h
      rfl
  | case2 => cases h
  | case3 w d s ih => rw [ih h, List.cons_append]
  | case4 => cases h

theorem dropWord_append (w s : List Char) : dropWord w (w ++ s) = some s := by
  induction w with
  | nil => rfl
  | cons c w ih => rwa [List.cons_append, dropWord, if_pos rfl]

/-! ### Names -/

/-- Names start with one of the first characters of the table. -/
theorem toNat_lt_of_isNameStart {c : Char} (h : isNameStart c = true) : c.toNat < 128 := by
  unfold isNameStart at h
  rcases Bool.or_eq_true_iff.mp h with hletter | hmark
  · unfold Char.isAlpha Char.isUpper Char.isLower at hletter
    simp only [Bool.or_eq_true, Bool.and_eq_true, decide_eq_true_eq, ge_iff_le, UInt32.le_iff_toNat_le] at hletter
    rcases hletter with ⟨_, h⟩ | ⟨_, h⟩
    · exact h.trans_lt (by decide)
    · exact h.trans_lt (by decide)
  · rw [eq_of_beq hmark]
    decide

theorem isWord_of_isNameStart {c : Char} (h : isNameStart c = true) : isWord c = true := by
  have hlt := toNat_lt_of_isNameStart h
  unfold isNameStart at h
  unfold isWord
  rw [if_pos hlt]
  rcases Bool.or_eq_true_iff.mp h with halpha | hmark
  · simp [Char.isAlphanum, halpha]
  · simp [hmark]

/-- A name is not empty and consists of characters of words. -/
theorem isName_iff {s : List Char} :
    isName s = true ↔ ∃ c r, s = c :: r ∧ isNameStart c = true ∧ ∀ d ∈ r, isWord d = true := by
  cases s with
  | nil => simp [isName]
  | cons c r => simp [isName, and_assoc]

theorem isWord_of_mem_name {s : List Char} (h : isName s = true) : ∀ c ∈ s, isWord c = true := by
  obtain ⟨c, r, rfl, hc, hr⟩ := isName_iff.mp h
  simp only [List.mem_cons, forall_eq_or_imp]
  exact ⟨isWord_of_isNameStart hc, hr⟩

/-- What is taken for a name is one, and nothing is lost. -/
theorem append_of_takeName {s name rest : List Char} (h : takeName s = some (name, rest)) :
    s = name ++ rest ∧ isName name = true := by
  cases s with
  | nil => cases h
  | cons c r =>
      rw [takeName] at h
      by_cases hc : isNameStart c = true
      · rw [if_pos hc] at h
        cases h
        refine ⟨?_, isName_iff.mpr ⟨c, _, rfl, hc, fun d hd => List.mem_takeWhile_imp hd⟩⟩
        rw [List.cons_append, List.takeWhile_append_dropWhile]
      · rw [if_neg hc] at h
        cases h

theorem isName_of_takeName {s name rest : List Char} (h : takeName s = some (name, rest)) : isName name = true :=
  (append_of_takeName h).2

/-- A name is taken as a whole if nothing behind it can continue it. -/
theorem takeName_append {name rest : List Char} (h : isName name = true)
    (hrest : ∀ c ∈ rest.head?, isWord c = false) : takeName (name ++ rest) = some (name, rest) := by
  obtain ⟨c, r, rfl, hc, hr⟩ := isName_iff.mp h
  have hstop : rest.takeWhile isWord = [] ∧ rest.dropWhile isWord = rest := by
    cases rest with
    | nil => exact ⟨rfl, rfl⟩
    | cons d rest =>
        have hd : isWord d = false := hrest d rfl
        simp [hd]
  rw [List.cons_append, takeName, if_pos hc, List.takeWhile_append_of_pos hr, List.dropWhile_append_of_pos hr, hstop.1,
    hstop.2, List.append_nil]

end LabLang.Text
