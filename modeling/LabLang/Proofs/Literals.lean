import LabLang.Expression
import LabLang.Proofs.NumberTokens
import LabLang.Proofs.Readers

/-! # How operands are written

An operand is a name, a quoted text, a number token or two number tokens around a plus-minus sign (`operand?_eq_none`).
No number token starts a name, so a name is never read as a literal and stands for what it is bound to
(`operand?_of_isName`).  Every operand has two quotation marks or none, so a text with an odd number of them is none
(`operand?_of_odd`). -/

namespace LabLang

open Text Number

namespace Literal

/-! ### Quoted texts -/

/-- A text between quotation marks. -/
def quoted (inner : List Char) : List Char := '"' :: (inner ++ ['"'])

theorem quoted_ne_nil (inner : List Char) : quoted inner ≠ [] := List.cons_ne_nil _ _

theorem getLast?_quoted (inner : List Char) : (quoted inner).getLast? = some '"' :=
  List.getLast?_append_of_ne_nil ('"' :: inner) (List.cons_ne_nil '"' [])

theorem trim_quoted (inner : List Char) : trim (quoted inner) = quoted inner := by
  refine trim_of_ends (quoted_ne_nil inner) rfl ?_
  rw [List.getLast_of_getLast?_eq_some (getLast?_quoted inner)]
  rfl

theorem count_quoted {inner : List Char} (h : '"' ∉ inner) : (quoted inner).count '"' = 2 := by
  unfold quoted
  rw [List.count_cons_self, List.count_append, List.count_eq_zero.mpr h]
  rfl

/-- What stands between two quotation marks is read as it is. -/
theorem text?_eq_some {s inner : List Char} : text? s = some inner ↔ trim s = quoted inner ∧ '"' ∉ inner := by
  unfold text?
  constructor
  · intro h
    split at h
    case h_2 => cases h
    case h_1 r htrim =>
      split at h
      case h_2 => cases h
      case h_1 text hspan =>
        cases h
        rw [List.span_eq_takeWhile_dropWhile, Prod.mk.injEq] at hspan
        obtain ⟨htake, hdrop⟩ := hspan
        have hr : r = inner ++ ['"'] := by rw [← htake, ← hdrop, List.takeWhile_append_dropWhile]
        refine ⟨by rw [htrim, hr]; rfl, fun hmem => ?_⟩
        rw [← htake] at hmem
        exact absurd (List.mem_takeWhile_imp hmem) (by decide)
  · rintro ⟨htrim, hinner⟩
    have hmarks : ∀ c ∈ inner, (c != '"') = true := fun c hc => bne_iff_ne.mpr fun h => hinner (h ▸ hc)
    have hspan : (inner ++ ['"']).span (· != '"') = (inner, ['"']) := by
      rw [List.span_eq_takeWhile_dropWhile, List.takeWhile_append_of_pos hmarks, List.dropWhile_append_of_pos hmarks]
      simp
    rw [htrim]
    simp only [quoted, hspan]

theorem takeToken_quoted (inner : List Char) : takeToken true (quoted inner) = none := rfl

/-! ### Literals -/

variable {R : Type} [Scalar R]

theorem isToken_of_number? {s : List Char} {x : R} (h : number? s = some x) : IsToken (trim s) := by
  unfold number? at h
  split at h
  case h_2 => cases h
  case h_1 t htake =>
    obtain ⟨hs, htoken, -⟩ := isToken_of_takeToken htake
    rwa [hs, List.append_nil]

/-- A plus-minus sign, in either spelling. -/
def IsPlusMinus (s : List Char) : Prop := s = ['±'] ∨ s = ['+', '/', '-']

theorem exists_of_dropPlusMinus {s rest : List Char} (h : dropPlusMinus s = some rest) :
    ∃ sign, IsPlusMinus sign ∧ s = sign ++ rest := by
  unfold dropPlusMinus at h
  split at h
  case h_1 r =>
    cases h
    exact ⟨['±'], .inl rfl, rfl⟩
  case h_2 r =>
    cases h
    exact ⟨['+', '/', '-'], .inr rfl, rfl⟩
  case h_3 => cases h

/-- An uncertain number: two tokens with a plus-minus sign between them and blanks around it. -/
theorem exists_of_uncertainTokens? {s : List Char} {a b : Token} (h : uncertainTokens? s = some (a, b)) :
    IsToken a.written ∧ IsToken b.written ∧ ∃ u sign v, trim s = a.written ++ (u ++ (sign ++ (v ++ b.written))) ∧
      (∀ c ∈ u, isBlank c = true) ∧ IsPlusMinus sign ∧ ∀ c ∈ v, isBlank c = true := by
  unfold uncertainTokens? at h
  simp only [Option.bind_eq_bind, Option.bind_eq_some_iff] at h
  obtain ⟨⟨nominal, afterNominal⟩, hnominal, afterSign, hsign, h⟩ := h
  split at h
  case h_2 => cases h
  case h_1 uncertainty huncertainty =>
    cases h
    obtain ⟨htrim, ha, -⟩ := isToken_of_takeToken hnominal
    obtain ⟨sign, hplusMinus, hsign⟩ := exists_of_dropPlusMinus hsign
    obtain ⟨hrest, hb, -⟩ := isToken_of_takeToken huncertainty
    obtain ⟨u, hu, hublank⟩ := exists_trimLeft afterNominal
    obtain ⟨v, hv, hvblank⟩ := exists_trimLeft afterSign
    refine ⟨ha, hb, u, sign, v, ?_, hublank, hplusMinus, hvblank⟩
    rw [htrim, hu, hsign, hv, hrest, List.append_nil]

end Literal

/-! ### Operands -/

namespace Expression

variable {R : Type} [Scalar R]

/-- How operands are written. -/
inductive IsOperand : List Char → Prop
  | name {s : List Char} (h : isName s = true) : IsOperand s
  | text {inner : List Char} (h : '"' ∉ inner) : IsOperand (Literal.quoted inner)
  | number {s : List Char} (h : Literal.IsToken s) : IsOperand s
  | uncertain {a u sign v b : List Char} (ha : Literal.IsToken a) (hu : ∀ c ∈ u, isBlank c = true)
      (hsign : Literal.IsPlusMinus sign) (hv : ∀ c ∈ v, isBlank c = true) (hb : Literal.IsToken b) :
      IsOperand (a ++ (u ++ (sign ++ (v ++ b))))

/-- Operands other than names do not start like names. -/
theorem IsOperand.isName_or {s : List Char} (h : IsOperand s) :
    isName s = true ∨ ∀ c ∈ s.head?, isNameStart c = false := by
  cases h with
  | name h => exact .inl h
  | text h => exact .inr fun c hc => Option.some.inj hc ▸ rfl
  | number h => exact .inr h.first
  | uncertain ha =>
      refine .inr fun c hc => ha.first c ?_
      rwa [List.head?_append_of_ne_nil _ ha.nonempty] at hc

/-- What is read as a literal, or as a faulty one, is written like an operand and does not start like a name. -/
theorem isOperand_of_read? {s : List Char} (h : Literal.read? (R := R) s ≠ .ok none) :
    IsOperand (trim s) ∧ ∀ c ∈ (trim s).head?, isNameStart c = false := by
  cases huncertain : Literal.uncertainTokens? s with
  | some tokens =>
      obtain ⟨a, b⟩ := tokens
      obtain ⟨ha, hb, u, sign, v, htrim, hu, hsign, hv⟩ := Literal.exists_of_uncertainTokens? huncertain
      rw [htrim, List.head?_append_of_ne_nil _ ha.nonempty]
      exact ⟨.uncertain ha hu hsign hv hb, ha.first⟩
  | none =>
      cases hnumber : Literal.number? (R := R) s with
      | some x =>
          have htoken := Literal.isToken_of_number? hnumber
          exact ⟨.number htoken, htoken.first⟩
      | none =>
          cases htext : Literal.text? s with
          | some inner =>
              obtain ⟨htrim, hinner⟩ := Literal.text?_eq_some.mp htext
              rw [htrim]
              exact ⟨.text hinner, fun c hc => Option.some.inj hc ▸ rfl⟩
          | none =>
              refine absurd ?_ h
              unfold Literal.read?
              rw [huncertain]
              dsimp only
              rw [hnumber, htext]
              rfl

/-- A text that is written like no operand has no value as one, and no fault either. -/
theorem operand?_eq_none {vars : Table (Value R)} {s : List Char} (h : ¬ IsOperand (trim s)) :
    operand? vars s = .ok none := by
  have hread : Literal.read? (R := R) (trim s) = .ok none := by
    by_contra hne
    exact h (trim_trim s ▸ (isOperand_of_read? hne).1)
  have hname : isName (trim s) = false := Bool.eq_false_iff.mpr fun hname => h (.name hname)
  unfold operand?
  dsimp only
  rw [hread]
  show (if isName (trim s) = true then _ else _) = _
  rw [hname]
  rfl

/-- The blanks around an operand have no meaning. -/
theorem operand?_trim (vars : Table (Value R)) (s : List Char) : operand? vars (trim s) = operand? vars s := by
  unfold operand?
  rw [trim_trim]

/-- A name stands for what it is bound to, whatever else it looks like. -/
theorem operand?_of_isName (vars : Table (Value R)) {s : List Char} (h : isName s = true) :
    operand? vars s = match vars.get? (String.ofList s) with
      | some v => .ok (some v)
      | none => .error (.undefined .variableUse (String.ofList s)) := by
  have htrim := trim_of_isWord (isWord_of_mem_name h)
  have hread : Literal.read? (R := R) s = .ok none := by
    by_contra hne
    obtain ⟨c, r, hs, hstart, -⟩ := isName_iff.mp h
    have hno := (isOperand_of_read? hne).2 c (by rw [htrim, hs]; rfl)
    rw [hstart] at hno
    cases hno
  unfold operand?
  dsimp only
  rw [htrim, hread]
  show (if isName s = true then _ else _) = _
  rw [if_pos h]
  cases vars.get? (String.ofList s) <;> rfl

/-- So does an expression that is a name. -/
theorem evaluate_of_isName (vars : Table (Value R)) (g : Random.Stream) {name : String}
    (h : isName name.toList = true) : evaluate vars g name = match vars.get? name with
      | some v => .ok v
      | none => .error (.undefined .variableUse name) := by
  unfold evaluate
  dsimp only
  rw [trim_of_isWord (isWord_of_mem_name h), operand?_of_isName vars h, String.ofList_toList]
  cases vars.get? name <;> rfl

/-- An operand has no quotation mark in it or is a quoted text. -/
theorem IsOperand.notMem_or {s : List Char} (h : IsOperand s) :
    '"' ∉ s ∨ ∃ inner, s = Literal.quoted inner ∧ '"' ∉ inner := by
  have htoken {w : List Char} (hw : Literal.IsToken w) : '"' ∉ w := fun hmem => (hw.clean _ hmem).2 rfl
  have hblank {w : List Char} (hw : ∀ c ∈ w, isBlank c = true) : '"' ∉ w := fun hmem =>
    absurd (hw _ hmem) (by decide)
  cases h with
  | name h => exact .inl fun hmem => absurd (isWord_of_mem_name h _ hmem) (by decide)
  | text h => exact .inr ⟨_, rfl, h⟩
  | number h => exact .inl (htoken h)
  | uncertain ha hu hsign hv hb =>
      have hmark : ∀ w, Literal.IsPlusMinus w → '"' ∉ w := by
        rintro w (rfl | rfl) <;> decide
      simp [htoken ha, hblank hu, hmark _ hsign, hblank hv, htoken hb]

/-- A text with an odd number of quotation marks is no operand. -/
theorem operand?_of_odd {vars : Table (Value R)} {s : List Char} (h : s.count '"' % 2 = 1) :
    operand? vars s = .ok none := by
  obtain ⟨u, v, hs, hu, hv⟩ := exists_trim s
  have hblank {w : List Char} (hw : ∀ c ∈ w, isBlank c = true) : w.count '"' = 0 :=
    List.count_eq_zero.mpr fun hmem => absurd (hw _ hmem) (by decide)
  rw [hs, List.count_append, List.count_append, hblank hu, hblank hv] at h
  refine operand?_eq_none fun hoperand => ?_
  rcases hoperand.notMem_or with hnot | ⟨inner, heq, hinner⟩
  · rw [List.count_eq_zero.mpr hnot] at h
    omega
  · rw [heq, Literal.count_quoted hinner] at h
    omega

end Expression

end LabLang
