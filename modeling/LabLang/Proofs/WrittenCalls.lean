import LabLang.Proofs.WrittenIntegers
import LabLang.Text.Call

/-! # Calls read back

A call is written as its name and its arguments with a comma and a space between them.  Arguments without blanks, commas
and comment marks are read back (`arguments_argumentText`), and so are the name and what stands between the parentheses
(`splitCall_callText`).  A written call is the content of a line (`isContent_callText`). -/

namespace LabLang

namespace Text

/-! ### Arguments -/

/-- What can stand as an argument. -/
structure IsArgument (s : List Char) : Prop where
  nonempty : s ≠ []
  clean : ∀ c ∈ s, isBlank c = false ∧ c ≠ ',' ∧ c ≠ '#'

/-- Arguments one after the other. -/
def argumentText (args : List (List Char)) : List Char := [',', ' '].intercalate args

theorem IsArgument.trimLeft {s : List Char} (h : IsArgument s) : trimLeft s = s :=
  trimLeft_of_head h.nonempty (h.clean _ (List.head_mem _)).1

theorem IsArgument.trimRight {s : List Char} (h : IsArgument s) : trimRight s = s :=
  trimRight_of_getLast h.nonempty (h.clean _ (List.getLast_mem _)).1

theorem IsArgument.trim {s : List Char} (h : IsArgument s) : trim s = s := by
  unfold Text.trim
  rw [h.trimLeft, h.trimRight]

theorem isArgument_of_isWord {s : List Char} (hs : s ≠ []) (h : ∀ c ∈ s, isWord c = true) : IsArgument s := by
  refine ⟨hs, fun c hc => ⟨isBlank_eq_false_of_isWord (h c hc), ?_, ?_⟩⟩
  · rintro rfl
    exact absurd (h _ hc) (by decide)
  · rintro rfl
    exact absurd (h _ hc) (by decide)

/-- The space behind a comma is part of the next argument until that is trimmed. -/
theorem argumentText_cons (a : List Char) (rest : List (List Char)) :
    argumentText (a :: rest) = [','].intercalate (a :: rest.map (' ' :: ·)) := by
  induction rest generalizing a with
  | nil => rfl
  | cons b rest ih =>
      have hb : [','].intercalate ((' ' :: b) :: rest.map (' ' :: ·)) =
          ' ' :: [','].intercalate (b :: rest.map (' ' :: ·)) := by
        cases rest <;> rfl
      unfold argumentText at ih ⊢
      rw [List.intercalate_cons_cons, ih, List.map_cons, List.intercalate_cons_cons, hb]
      simp

theorem mem_argumentText {args : List (List Char)} {c : Char} (h : c ∈ argumentText args) :
    c = ',' ∨ c = ' ' ∨ ∃ a ∈ args, c ∈ a := by
  induction args with
  | nil => cases h
  | cons a rest ih =>
      cases rest with
      | nil => exact .inr (.inr ⟨a, List.mem_cons_self, by simpa [argumentText] using h⟩)
      | cons b rest =>
          unfold argumentText at h ih
          rw [List.intercalate_cons_cons, List.mem_append, List.mem_append] at h
          rcases h with (h | h) | h
          · exact .inr (.inr ⟨a, List.mem_cons_self, h⟩)
          · simp only [List.mem_cons, List.not_mem_nil, or_false] at h
            exact h.imp_right .inl
          · obtain h | h | ⟨a', ha', h⟩ := ih h
            · exact .inl h
            · exact .inr (.inl h)
            · exact .inr (.inr ⟨a', List.mem_cons_of_mem a ha', h⟩)

/-- The text starts with the first argument. -/
theorem exists_argumentText_cons (a : List Char) (rest : List (List Char)) :
    ∃ r, argumentText (a :: rest) = a ++ r := by
  cases rest with
  | nil => exact ⟨[], by simp [argumentText]⟩
  | cons b rest => exact ⟨_, by rw [argumentText, List.intercalate_cons_cons, List.append_assoc]⟩

/-- Arguments are read back. -/
theorem arguments_argumentText {args : List (List Char)} (hne : args ≠ []) (hargs : ∀ a ∈ args, IsArgument a) :
    arguments (argumentText args) = args := by
  cases args with
  | nil => exact absurd rfl hne
  | cons a rest =>
      rw [List.forall_mem_cons] at hargs
      obtain ⟨ha, hrest⟩ := hargs
      have hblank : isBlankText (argumentText (a :: rest)) = false := by
        obtain ⟨r, hr⟩ := exists_argumentText_cons a rest
        rw [hr, isBlankText, List.all_append, List.all_eq_false.mpr, Bool.false_and]
        exact ⟨_, List.head_mem ha.nonempty, by simp [(ha.clean _ (List.head_mem ha.nonempty)).1]⟩
      have hcomma : ∀ b ∈ a :: rest.map (' ' :: ·), ',' ∉ b := by
        rw [List.forall_mem_cons, List.forall_mem_map]
        refine ⟨fun h => (ha.clean _ h).2.1 rfl, fun b hb h => ?_⟩
        rcases List.mem_cons.mp h with h | h
        · exact absurd h (by decide)
        · exact ((hrest b hb).clean _ h).2.1 rfl
      have hspace : ∀ b ∈ rest, trim (' ' :: b) = b := by
        intro b hb
        have hleft : trimLeft (' ' :: b) = trimLeft b := List.dropWhile_cons_of_pos (by decide)
        have htrim := (hrest b hb).trim
        unfold trim at htrim ⊢
        rw [hleft, htrim]
      unfold arguments
      rw [hblank, if_neg Bool.false_ne_true, argumentText_cons,
        List.splitOn_intercalate ',' hcomma (List.cons_ne_nil _ _), List.map_cons, ha.trim, List.map_map]
      exact congrArg (a :: ·) ((List.map_congr_left hspace).trans (List.map_id' rest))

/-! ### Calls -/

/-- A call as it is written. -/
def writeCall (name : String) (args : List String) : String := name ++ "(" ++ ", ".intercalate args ++ ")"

/-- The characters of a call. -/
def callText (name : List Char) (args : List (List Char)) : List Char := name ++ '(' :: (argumentText args ++ [')'])

theorem toList_writeCall (name : String) (args : List String) :
    (writeCall name args).toList = callText name.toList (args.map String.toList) := by
  unfold writeCall callText argumentText
  simp [String.toList_append, String.toList_intercalate]

section

variable {name : List Char} {args : List (List Char)} (hname : isName name = true) (hargs : ∀ a ∈ args, IsArgument a)
include hname hargs

/-- The name of a call and the text of its arguments are read back. -/
theorem splitCall_callText : splitCall (callText name args) = some (name, argumentText args) := by
  have htake : takeName (callText name args) = some (name, '(' :: (argumentText args ++ [')'])) :=
    takeName_append hname fun c hc => by
      cases hc
      decide
  have htrim : trim ('(' :: (argumentText args ++ [')'])) = '(' :: (argumentText args ++ [')']) := by
    refine trim_of_ends (List.cons_ne_nil _ _) rfl ?_
    rw [List.getLast_cons (List.concat_ne_nil _ _), List.getLast_concat]
    decide
  have hlast : ('(' :: (argumentText args ++ [')'])).getLast? = some ')' := by
    rw [← List.cons_append, List.getLast?_concat]
  have hline : (argumentText args).contains '\n' = false := by
    rw [Bool.eq_false_iff, ne_eq, List.contains_iff_mem]
    intro h
    obtain h | h | ⟨a, ha, h⟩ := mem_argumentText h
    · exact absurd h (by decide)
    · exact absurd h (by decide)
    · exact absurd ((hargs a ha).clean _ h).1 (by decide)
  unfold splitCall
  rw [htake]
  simp only [Option.bind_eq_bind, Option.bind_some, htrim, List.head?_cons, hlast, List.drop_one, List.tail_cons,
    List.dropLast_concat, hline]
  rfl

/-- A call is the content of a line. -/
theorem isContent_callText : Source.IsContent (callText name args) := by
  obtain ⟨first, rest, hsplit, -, -⟩ := isName_iff.mp hname
  have hne : name ≠ [] := hsplit ▸ List.cons_ne_nil first rest
  have hword : ∀ c ∈ name, isWord c = true := isWord_of_mem_name hname
  refine ⟨List.append_ne_nil_of_left_ne_nil hne _, ?_, ?_, fun c hc => ?_⟩
  · simp only [callText, List.head_append_of_ne_nil hne]
    exact isBlank_eq_false_of_isWord (hword _ (List.head_mem hne))
  · simp only [callText, ← List.cons_append, ← List.append_assoc, List.getLast_concat]
    decide
  · rw [callText, List.mem_append, List.mem_cons, List.mem_append, List.mem_singleton] at hc
    obtain hc | rfl | hc | rfl := hc
    · exact clean_of_isWord (hword c hc)
    · decide
    · obtain rfl | rfl | ⟨a, ha, hc⟩ := mem_argumentText hc
      · decide
      · decide
      · obtain ⟨hblank, -, hmark⟩ := (hargs a ha).clean c hc
        exact ⟨hmark, clean_of_not_isBlank hblank⟩
    · decide

end

end Text

end LabLang
