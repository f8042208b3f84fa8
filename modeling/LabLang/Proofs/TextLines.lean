import LabLang.Text.Line
import Mathlib.Data.List.Basic

/-! # The lines of texts

Lines that have no line ends in them are the lines of their text, with a line feed behind each of them
(`lines_flatMap`) or between them (`lines_intercalate`).  Two texts with a line feed between them have the lines of
both (`exists_lines_append`). -/

namespace LabLang.Text

/-! ### One character -/

theorem consFirst_ne_nil (c : Char) (ls : List (List Char)) : consFirst c ls ≠ [] := by
  cases ls <;> exact List.cons_ne_nil _ _

theorem lines_ne_nil {s : List Char} (h : s ≠ []) : lines s ≠ [] := by
  fun_cases lines s with
  | case1 => exact absurd rfl h
  | case2 r => exact List.cons_ne_nil _ _
  | case3 c r hreturn hbreak => exact List.cons_ne_nil _ _
  | case4 c r hreturn hbreak => exact consFirst_ne_nil c (lines r)

/-- A character in front of a text belongs to its first line, if there is one. -/
theorem consFirst_append (c : Char) {ls : List (List Char)} (h : ls ≠ []) (rest : List (List Char)) :
    consFirst c (ls ++ rest) = consFirst c ls ++ rest := by
  cases ls with
  | nil => exact absurd rfl h
  | cons l ls => rfl

theorem lines_lineFeed (t : List Char) : lines ('\n' :: t) = [] :: lines t := rfl

/-- A carriage return at the end of a text and the line feed behind it are one line end. -/
theorem lines_return (t : List Char) : lines ('\r' :: '\n' :: t) = [] :: lines t := by rw [lines]

theorem lines_cons {c : Char} {s : List Char} (h : c = '\r' → s.head? ≠ some '\n') :
    lines (c :: s) = if isLineBreak c then [] :: lines s else consFirst c (lines s) := by
  rw [lines]
  rintro r rfl rfl
  exact h rfl rfl

theorem lines_cons_of_clean {c : Char} (h : isLineBreak c = false) (s : List Char) :
    lines (c :: s) = consFirst c (lines s) := by
  have hreturn : c ≠ '\r' := by
    rintro rfl
    cases h
  rw [lines_cons (absurd · hreturn), if_neg (by rw [h]; decide)]

/-! ### Lines without line ends -/

theorem isLineBreak_of_mem_lines {s l : List Char} (h : l ∈ lines s) : ∀ c ∈ l, isLineBreak c = false := by
  fun_induction lines s generalizing l with
  | case1 => cases h
  | case2 r ih =>
      rcases List.mem_cons.mp h with rfl | h
      · simp
      · exact ih h
  | case3 c r _ hbreak ih =>
      rcases List.mem_cons.mp h with rfl | h
      · simp
      · exact ih h
  | case4 c r _ hbreak ih =>
      have hc : isLineBreak c = false := by simpa using hbreak
      cases hr : lines r with
      | nil =>
          rw [hr, consFirst, List.mem_singleton] at h
          simpa [h] using hc
      | cons first rest =>
          rw [hr, consFirst] at h
          rw [hr] at ih
          rcases List.mem_cons.mp h with rfl | h
          · simpa using ⟨hc, ih List.mem_cons_self⟩
          · exact ih (List.mem_cons_of_mem _ h)

/-- A line feed ends a line that nothing else has ended. -/
theorem lines_append_lineFeed {l : List Char} (h : ∀ c ∈ l, isLineBreak c = false) (rest : List Char) :
    lines (l ++ '\n' :: rest) = l :: lines rest := by
  induction l with
  | nil => rfl
  | cons c l ih =>
      rw [List.forall_mem_cons] at h
      rw [List.cons_append, lines_cons_of_clean h.1, ih h.2, consFirst]

/-- A text without line ends is its only line. -/
theorem lines_of_clean {s : List Char} (hs : s ≠ []) (h : ∀ c ∈ s, isLineBreak c = false) : lines s = [s] := by
  induction s with
  | nil => exact absurd rfl hs
  | cons c r ih =>
      rw [List.forall_mem_cons] at h
      rw [lines_cons_of_clean h.1]
      cases r with
      | nil => rfl
      | cons d r => rw [ih (List.cons_ne_nil d r) h.2, consFirst]

/-- Lines without line ends of their own are the lines of their text. -/
theorem lines_flatMap {ls : List (List Char)} (h : ∀ l ∈ ls, ∀ c ∈ l, isLineBreak c = false) :
    lines (ls.flatMap (· ++ ['\n'])) = ls := by
  induction ls with
  | nil => rfl
  | cons l rest ih =>
      have hrest := ih fun l' hl' => h l' (List.mem_cons_of_mem l hl')
      rw [List.flatMap_cons, List.append_assoc, List.singleton_append]
      rw [lines_append_lineFeed (h l List.mem_cons_self), hrest]

/-- The same for line feeds between the lines, if none of them is empty. -/
theorem lines_intercalate {ls : List (List Char)} (hne : ls ≠ [])
    (h : ∀ l ∈ ls, l ≠ [] ∧ ∀ c ∈ l, isLineBreak c = false) : lines (['\n'].intercalate ls) = ls := by
  induction ls with
  | nil => exact absurd rfl hne
  | cons l rest ih =>
      rw [List.forall_mem_cons] at h
      obtain ⟨⟨hl, hclean⟩, hrest⟩ := h
      cases rest with
      | nil => rw [List.intercalate_singleton, lines_of_clean hl hclean]
      | cons l' rest =>
          rw [List.intercalate_cons_cons, List.append_assoc, List.singleton_append, lines_append_lineFeed hclean,
            ih (List.cons_ne_nil l' rest) hrest]

/-! ### Two texts -/

/-- Two texts with a line feed between them have the lines of both, and at most empty ones between them. -/
theorem exists_lines_append (s t : List Char) :
    ∃ between, (∀ l ∈ between, l = []) ∧ lines (s ++ '\n' :: t) = lines s ++ between ++ lines t := by
  fun_induction lines s with
  | case1 => exact ⟨[[]], by simp, lines_lineFeed t⟩
  | case2 r ih =>
      obtain ⟨between, hempty, hlines⟩ := ih
      refine ⟨between, hempty, ?_⟩
      rw [List.cons_append, List.cons_append, lines_return, hlines, List.cons_append, List.cons_append]
  | case3 c r hreturn hbreak ih =>
      by_cases hlast : c = '\r' ∧ r = []
      · obtain ⟨rfl, rfl⟩ := hlast
        exact ⟨[], by simp, lines_return t⟩
      · obtain ⟨between, hempty, hlines⟩ := ih
        refine ⟨between, hempty, ?_⟩
        rw [List.cons_append, lines_cons, if_pos hbreak, hlines, List.cons_append, List.cons_append]
        rintro rfl hhead
        cases r with
        | nil => exact hlast ⟨rfl, rfl⟩
        | cons d r => exact hreturn r rfl (by simpa using hhead)
  | case4 c r hreturn hbreak ih =>
      rw [List.cons_append, lines_cons_of_clean (Bool.eq_false_iff.mpr hbreak)]
      by_cases hr : r = []
      · subst hr
        exact ⟨[], by simp, by rw [List.nil_append, lines_lineFeed]; rfl⟩
      · obtain ⟨between, hempty, hlines⟩ := ih
        refine ⟨between, hempty, ?_⟩
        rw [hlines, List.append_assoc, consFirst_append c (lines_ne_nil hr), List.append_assoc]

end LabLang.Text
