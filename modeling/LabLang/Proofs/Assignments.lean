import LabLang.Interpreter
import LabLang.Proofs.Literals

/-! # How assignments are read

`Assignment.write` puts a name, an equals sign and a right-hand side into one line, with the keyword in front if the name
is declared as uncertain.  The line is read as the name and the value of the right-hand side, without the blanks around it
(`read_write`), if there is no other equals sign in it.  Conversely whatever is read as an assignment has a name and the
value of such a right-hand side (`exists_of_read`). -/

namespace LabLang

open Text Number

namespace Text

/-! ### Pieces of a text -/

/-- The pieces between separators have no separator in them. -/
theorem notMem_of_mem_splitOn {x : Char} {s piece : List Char} (h : piece ∈ s.splitOn x) : x ∉ piece := by
  induction s generalizing piece with
  | nil =>
      rw [List.splitOn_nil, List.mem_singleton] at h
      rw [h]
      exact List.not_mem_nil
  | cons c s ih =>
      rw [List.splitOn_cons_eq_if_modifyHead] at h
      split at h
      · rcases List.mem_cons.mp h with rfl | h
        · exact List.not_mem_nil
        · exact ih h
      · rename_i hc
        cases hs : s.splitOn x with
        | nil => exact absurd hs (List.splitOn_ne_nil x s)
        | cons first rest =>
            rw [hs, List.modifyHead_cons, List.mem_cons] at h
            rcases h with rfl | h
            · have hfirst : x ∉ first := ih (hs ▸ List.mem_cons_self)
              exact List.not_mem_cons_of_ne_of_not_mem (fun heq => hc (beq_iff_eq.mpr heq.symm)) hfirst
            · exact ih (hs ▸ List.mem_cons_of_mem _ h)

end Text

namespace Assignment

/-! ### Targets -/

/-- The target of an assignment of either kind. -/
def target (declared : Bool) (name : List Char) : List Char :=
  if declared then "uncertain".toList ++ ' ' :: name else name

theorem ends_name {name : List Char} (hname : isName name = true) :
    ∃ h : name ≠ [], isBlank (name.head h) = false ∧ isBlank (name.getLast h) = false := by
  have hword := isWord_of_mem_name hname
  have hne : name ≠ [] := by
    rintro rfl
    cases hname
  exact ⟨hne, isBlank_eq_false_of_isWord (hword _ (List.head_mem hne)),
    isBlank_eq_false_of_isWord (hword _ (List.getLast_mem hne))⟩

/-- A target starts and ends with a character that is not blank. -/
theorem ends_target {name : List Char} (hname : isName name = true) (declared : Bool) :
    ∃ h : target declared name ≠ [],
      isBlank ((target declared name).head h) = false ∧ isBlank ((target declared name).getLast h) = false := by
  obtain ⟨hne, hfirst, hlast⟩ := ends_name hname
  cases declared with
  | false => exact ⟨hne, hfirst, hlast⟩
  | true =>
      have hkeyword : "uncertain".toList ≠ [] := by decide
      have htarget : target true name = "uncertain".toList ++ ' ' :: name := rfl
      simp only [htarget]
      refine ⟨List.append_ne_nil_of_left_ne_nil hkeyword _, ?_, ?_⟩
      · rw [List.head_append_of_ne_nil hkeyword]
        rfl
      · rwa [List.getLast_append_of_ne_nil _ (List.cons_ne_nil _ _), List.getLast_cons hne]

/-- A bare name declares nothing. -/
theorem declaredName?_name {name : List Char} (hname : isName name = true) : declaredName? name = none := by
  unfold declaredName? Source.dropWordAndBlanks
  cases hdrop : dropWord "uncertain".toList name with
  | none => rfl
  | some r =>
      cases r with
      | nil => rfl
      | cons c r =>
          have hmem : c ∈ name := by
            rw [eq_append_of_dropWord hdrop]
            exact List.mem_append_right _ List.mem_cons_self
          simp [isBlank_eq_false_of_isWord (isWord_of_mem_name hname c hmem)]

theorem declaredName?_target {name : List Char} (hname : isName name = true) (declared : Bool) :
    declaredName? (target declared name) = if declared then some name else none := by
  cases declared with
  | false => exact declaredName?_name hname
  | true =>
      obtain ⟨hne, hfirst, -⟩ := ends_name hname
      have hword : Source.dropWordAndBlanks "uncertain" (target true name) = some (trimLeft name) := rfl
      have hline : '\n' ∉ name := fun hmem => absurd (isWord_of_mem_name hname _ hmem) (by decide)
      unfold declaredName?
      rw [hword, trimLeft_of_head hne hfirst]
      simp [hne, hline, trim_of_isWord (isWord_of_mem_name hname)]

/-! ### Lines -/

/-- The line that assigns an expression to a name, declared as uncertain or not. -/
def write (declared : Bool) (name expression : String) : String :=
  (if declared then "uncertain " else "") ++ name ++ " = " ++ expression

theorem toList_write (declared : Bool) (name expression : String) :
    (write declared name expression).toList =
      (target declared name.toList ++ [' ']) ++ '=' :: (' ' :: expression.toList) := by
  unfold write target
  cases declared <;> simp [String.toList_append]

/-- The only equals sign is the one behind the name. -/
theorem sides_write {name expression : String} (hname : isName name.toList = true)
    (hequals : '=' ∉ expression.toList) (hexpression : trim expression.toList ≠ []) (declared : Bool) :
    sides (write declared name expression) = some (target declared name.toList, trim expression.toList) := by
  obtain ⟨hne, hfirst, hlast⟩ := ends_target hname declared
  have htarget : '=' ∉ target declared name.toList ++ [' '] := by
    have hnot : '=' ∉ name.toList := fun hmem => absurd (isWord_of_mem_name hname _ hmem) (by decide)
    cases declared <;> simp [target, hnot]
  have hleft : trim (target declared name.toList ++ [' ']) = target declared name.toList := by
    have htrim := trim_append (u := []) (v := [' ']) (by simp) hne hfirst hlast (List.forall_mem_singleton.mpr rfl)
    rwa [List.nil_append] at htrim
  have hright : trim (' ' :: expression.toList) = trim expression.toList := by
    unfold trim trimLeft
    rw [List.dropWhile_cons_of_pos rfl]
  have hsplit : (write declared name expression).toList.splitOn '=' =
      [target declared name.toList ++ [' '], ' ' :: expression.toList] := by
    have hjoin : (write declared name expression).toList =
        ['='].intercalate [target declared name.toList ++ [' '], ' ' :: expression.toList] := by
      rw [toList_write]
      simp
    rw [hjoin]
    exact List.splitOn_intercalate '=' (by simp [htarget, hequals]) (List.cons_ne_nil _ _)
  unfold sides
  rw [hsplit]
  simp [hleft, hright, hne, hexpression]

/-- What an accepted text has on its two sides. -/
theorem exists_of_sides {text : String} {target expression : List Char} (h : sides text = some (target, expression)) :
    '=' ∉ expression ∧ expression ≠ [] ∧ trim expression = expression := by
  unfold sides at h
  split at h
  case h_2 => cases h
  case h_1 left right hsplit =>
    split at h
    · cases h
    · rename_i hne
      cases h
      have hmem : expression ∈ (text.toList.splitOn '=').map trim := by simp [hsplit]
      obtain ⟨piece, hpiece, rfl⟩ := List.mem_map.mp hmem
      obtain ⟨u, v, hs, -, -⟩ := exists_trim piece
      refine ⟨fun hequals => notMem_of_mem_splitOn hpiece ?_, fun hnil => hne (by simp [hnil]), trim_trim piece⟩
      rw [hs]
      exact List.mem_append_left _ (List.mem_append_right _ hequals)

/-! ### Reading -/

section

variable {R : Type} [Scalar R]

/-- The value of the right-hand side of an assignment of either kind. -/
def valueOf (declared : Bool) (expression : List Char) (line : Option Nat) : Except (Failure R) (Value R) :=
  if declared then declaredValue expression line else .ok (plainValue expression)

/-- Between two quotation marks everything but a quotation mark is kept. -/
theorem plainValue_quoted {text : List Char} (htext : '"' ∉ text) :
    plainValue (R := R) (Literal.quoted text) = .text (String.ofList text) := by
  have hnumber : Literal.number? (R := R) (Literal.quoted text) = none := by
    unfold Literal.number?
    rw [Literal.trim_quoted, Literal.takeToken_quoted]
  have htextValue : Literal.text? (Literal.quoted text) = some text :=
    Literal.text?_eq_some.mpr ⟨Literal.trim_quoted text, htext⟩
  unfold plainValue
  rw [hnumber, htextValue]

theorem read_write {name expression : String} (hname : isName name.toList = true)
    (hequals : '=' ∉ expression.toList) (hexpression : trim expression.toList ≠ []) (declared : Bool)
    (line : Option Nat) : read (R := R) (write declared name expression) line =
      (valueOf declared (trim expression.toList) line).map fun value => ⟨name, value, declared⟩ := by
  have hread : Assignment.name (R := R) name.toList line = .ok name := by
    unfold Assignment.name
    rw [if_pos hname, String.ofList_toList]
  unfold read
  rw [sides_write hname hequals hexpression]
  dsimp only
  rw [declaredName?_target hname]
  cases declared with
  | false =>
      rw [if_neg Bool.false_ne_true]
      dsimp only
      rw [target, if_neg Bool.false_ne_true, hread]
      rfl
  | true =>
      rw [if_pos rfl, valueOf, if_pos rfl]
      dsimp only
      rw [hread]
      cases declaredValue (R := R) (trim expression.toList) line <;> rfl

omit [Scalar R] in
theorem isName_of_name {s : List Char} {line : Option Nat} {name : String}
    (h : Assignment.name (R := R) s line = .ok name) : isName name.toList = true := by
  unfold Assignment.name at h
  split at h
  · rename_i hname
    cases h
    rwa [String.toList_ofList]
  · cases h

/-- What is read as an assignment binds a name to the value of its right-hand side. -/
theorem exists_of_read {text : String} {line : Option Nat} {b : Binding R} (h : read text line = .ok b) :
    isName b.name.toList = true ∧ ∃ target expression, sides text = some (target, expression) ∧
      valueOf b.declared expression line = .ok b.value := by
  unfold read at h
  split at h
  case h_1 => cases h
  case h_2 target expression hsides =>
    split at h
    · obtain ⟨name, hname, h⟩ := ok_of_bind h
      obtain ⟨value, hvalue, h⟩ := ok_of_bind h
      cases h
      exact ⟨isName_of_name hname, target, expression, hsides, hvalue⟩
    · obtain ⟨name, hname, h⟩ := ok_of_bind h
      cases h
      exact ⟨isName_of_name hname, target, expression, hsides, rfl⟩

end

end Assignment

namespace Interpreter

variable {R : Type} [Scalar R]

/-- Carrying out an assignment binds the name and gives the echo. -/
theorem assign_eq (store : Store R) (text : String) (line : Option Nat) :
    assign store text line =
      (Assignment.read text line).map fun b => (store.bind b.name b.value, bindingResult b) := by
  unfold assign assignment
  cases Assignment.read (R := R) text line with
  | error f => rfl
  | ok b => rfl

end Interpreter

end LabLang
