import LabLang.Proofs.Assignments
import LabLang.Proofs.ShortestDecimals
import LabLang.Proofs.Tables

/-! # Echoes of assignments

An assignment is echoed as the name and the value that it has bound, and the echo is an assignment, too.  An uncertain
number is shown with its two tokens, which are read again (`uncertainTokens?_spreadOf`); a quoted text and a text that
stands for itself are shown as they were written; and the text of a finite number is read as the number, but for the sign
of zero (`exists_shows_number`).  So carrying out the echo gives the same result and leaves a store that agrees with the
first one (`replay_echo`). -/

namespace LabLang

open Text Number

/-! ### Values that compare equal -/

section agreement

variable {R : Type} [Scalar R]

/-- The values are the same, or numbers that compare equal, as the two zeros do. -/
def Value.Agrees (v w : Value R) : Prop := v = w ∨ ∃ x y, v = .number x ∧ w = .number y ∧ Scalar.eq x y = true

theorem Value.agrees_refl (v : Value R) : v.Agrees v := .inl rfl

/-- The stores have the same names in the same order, with values that agree, and the same circuits. -/
structure Store.Agrees (s t : Store R) : Prop where
  vars : List.Forall₂ (fun a b => a.1 = b.1 ∧ a.2.Agrees b.2) s.vars t.vars
  circuits : s.circuits = t.circuits

/-- Binding a name to one of two values that agree makes no difference. -/
theorem Store.agrees_bind (s : Store R) (name : String) {v w : Value R} (h : v.Agrees w) :
    (s.bind name v).Agrees (s.bind name w) := by
  refine ⟨?_, rfl⟩
  show List.Forall₂ _ (s.vars.put name v) (s.vars.put name w)
  induction s.vars with
  | nil => exact .cons ⟨rfl, h⟩ .nil
  | cons entry t ih =>
      by_cases hname : entry.1 = name
      · rw [Table.put, Table.put, if_pos hname, if_pos hname]
        exact .cons ⟨rfl, h⟩ (List.forall₂_same.mpr fun e _ => ⟨rfl, e.2.agrees_refl⟩)
      · rw [Table.put, Table.put, if_neg hname, if_neg hname]
        exact .cons ⟨rfl, entry.2.agrees_refl⟩ ih

theorem Store.bind_bind (s : Store R) (name : String) (v w : Value R) :
    (s.bind name v).bind name w = s.bind name w := by
  unfold Store.bind
  rw [Table.put_put]

end agreement

/-! ### Values as they are shown -/

/-- A text whose ends are not blank, whatever stands between them. -/
theorem Text.trim_between {s t : List Char} (between : List Char) (hs : s ≠ []) (hfirst : isBlank (s.head hs) = false)
    (ht : t ≠ []) (hlast : isBlank (t.getLast ht) = false) : trim (s ++ between ++ t) = s ++ between ++ t := by
  refine trim_of_ends (List.append_ne_nil_of_right_ne_nil _ ht) ?_ ?_
  · simpa [List.head_append, hs] using hfirst
  · rwa [List.getLast_append_of_ne_nil _ ht]

namespace Assignment

/-- The text is read as it stands: it has no equals sign and no blanks around it. -/
structure IsShown (s : List Char) : Prop where
  nonempty : s ≠ []
  equals : '=' ∉ s
  trimmed : trim s = s

theorem isShown_quoted {inner : List Char} (h : '=' ∉ inner) : IsShown (Literal.quoted inner) :=
  ⟨Literal.quoted_ne_nil inner, by simp [Literal.quoted, h], Literal.trim_quoted inner⟩

end Assignment

namespace Literal

theorem IsToken.equals_notMem {s : List Char} (h : IsToken s) : '=' ∉ s :=
  fun hmem => absurd (h.marks _ hmem) (by decide)

/-- Two tokens as they are shown. -/
def spreadOf (a b : Token) : List Char := a.written ++ [' ', '±', ' '] ++ b.written

theorem toList_spread (a b : Token) :
    (Value.spread (String.ofList a.written) (String.ofList b.written)).toList = spreadOf a b := by
  simp [Value.spread, spreadOf, String.toList_append]

theorem isShown_spreadOf {a b : Token} (ha : IsToken a.written) (hb : IsToken b.written) :
    Assignment.IsShown (spreadOf a b) := by
  refine ⟨List.append_ne_nil_of_right_ne_nil _ hb.nonempty, ?_, ?_⟩
  · simp [spreadOf, ha.equals_notMem, hb.equals_notMem]
  · exact trim_between _ ha.nonempty (ha.clean _ (List.head_mem _)).1 hb.nonempty (hb.clean _ (List.getLast_mem _)).1

/-- The two tokens of an uncertain number are read again, whatever stood between them. -/
theorem uncertainTokens?_spreadOf {s : List Char} {a b : Token} (h : uncertainTokens? s = some (a, b)) :
    Assignment.IsShown (spreadOf a b) ∧ uncertainTokens? (spreadOf a b) = some (a, b) := by
  unfold uncertainTokens? at h
  simp only [Option.bind_eq_bind, Option.bind_eq_some_iff] at h
  obtain ⟨⟨nominal, afterNominal⟩, hnominal, afterSign, -, h⟩ := h
  split at h
  case h_2 => cases h
  case h_1 uncertainty huncertainty =>
    obtain ⟨rfl, rfl⟩ : a = nominal ∧ b = uncertainty := by
      cases h
      exact ⟨rfl, rfl⟩
    obtain ⟨-, ha, hagain⟩ := isToken_of_takeToken hnominal
    obtain ⟨-, hb, hend⟩ := isToken_of_takeToken huncertainty
    have hshown := isShown_spreadOf ha hb
    have hstop : StopsToken (' ' :: '±' :: ' ' :: b.written) := by
      intro c hc
      obtain rfl := Option.some.inj hc
      decide
    have hblank : trimLeft (' ' :: b.written) = b.written :=
      trimLeft_append (s := [' ']) (List.forall_mem_singleton.mpr rfl) hb.nonempty (hb.clean _ (List.head_mem _)).1
    have hsecond : takeToken false b.written = some (b, []) := by
      have h := hend [] (by simp [StopsToken])
      rwa [List.append_nil] at h
    refine ⟨hshown, ?_⟩
    have hfirst : takeToken true (trim (spreadOf a b)) = some (a, ' ' :: '±' :: ' ' :: b.written) := by
      rw [hshown.trimmed, spreadOf, List.append_assoc]
      exact hagain _ hstop
    have hsign : dropPlusMinus (trimLeft (' ' :: '±' :: ' ' :: b.written)) = some (' ' :: b.written) := rfl
    unfold uncertainTokens?
    rw [hfirst, Option.bind_eq_bind, Option.bind_some]
    dsimp only
    rw [hsign, Option.bind_eq_bind, Option.bind_some, hblank, hsecond]

/-- A number as it is written is read as the number. -/
theorem isShown_of_writesDouble {text : String} {x : Float} (h : WritesDouble text x) :
    Assignment.IsShown text.toList ∧ number? (R := Float) text.toList = some x := by
  obtain ⟨negative, digits, parts, rfl, hmarks, hread, hvalue⟩ := h
  have hnumber : number? (R := Float) (signed negative digits).toList = some x := by
    rw [number?_signed hmarks hread, ← hvalue]
    rfl
  obtain ⟨hne, hfirst, hlast⟩ := ends_signed hmarks hread negative
  have hplain : '=' ∉ (signed negative digits).toList := fun hmem =>
    absurd (List.all_eq_true.mp (all_signed hmarks negative) _ hmem) (by decide)
  exact ⟨⟨hne, hplain, trim_of_ends hne hfirst hlast⟩, hnumber⟩

end Literal

/-! ### Values that are read again -/

/-- The line that repeats an assignment from its echo: the declaration of an uncertain number is not echoed. -/
def Result.replay {R : Type} [Scalar R] : Result R → Except WriteFault String
  | .uncertain display _ _ => .ok ("uncertain " ++ display)
  | r => r.display

namespace Assignment

open Interpreter

section

variable {R : Type} [Scalar R]

/-- The value is read again from its display, as one that agrees with it and gives the same echo. -/
structure Shows (declared : Bool) (v w : Value R) : Prop where
  shown : IsShown v.display.toList
  value : ∀ line, valueOf declared v.display.toList line = .ok w
  agrees : v.Agrees w
  result : ∀ name, bindingResult ⟨name, w, declared⟩ = bindingResult ⟨name, v, declared⟩
  replay : ∀ name, (bindingResult ⟨name, v, declared⟩).replay = .ok (write declared name v.display)

theorem replay_plain (name : String) (v : Value R) :
    (bindingResult ⟨name, v, false⟩).replay = .ok (write false name v.display) :=
  congrArg (fun keyword => Except.ok (keyword ++ " = " ++ v.display)) String.empty_append.symm

theorem replay_declared (name : String) (q : Quantity R) (source : Option (String × String)) :
    (bindingResult ⟨name, .uncertain q source, true⟩).replay =
      .ok (write true name (Value.display (.uncertain q source))) := by
  show Except.ok ("uncertain " ++ (name ++ " = " ++ _)) = Except.ok ("uncertain " ++ name ++ " = " ++ _)
  rw [String.append_assoc, String.append_assoc, String.append_assoc]

/-- A declaration reads two tokens that make a quantity. -/
theorem declaredValue_eq_ok {expression : List Char} {line : Option Nat} {v : Value R} :
    declaredValue expression line = .ok v ↔
      ∃ a b, Literal.uncertainTokens? expression = some (a, b) ∧ Literal.ofTokens a b = .ok v := by
  unfold declaredValue Literal.uncertain?
  cases Literal.uncertainTokens? expression with
  | none => simp
  | some tokens =>
      obtain ⟨a, b⟩ := tokens
      cases hvalue : Literal.ofTokens (R := R) a b <;> simp [hvalue, Except.map]

theorem shows_uncertain {expression : List Char} {line : Option Nat} {v : Value R}
    (h : declaredValue expression line = .ok v) : Shows true v v := by
  obtain ⟨a, b, htokens, hvalue⟩ := declaredValue_eq_ok.mp h
  obtain ⟨hshown, hagain⟩ := Literal.uncertainTokens?_spreadOf htokens
  obtain ⟨q, rfl⟩ : ∃ q, v = .uncertain q (some (String.ofList a.written, String.ofList b.written)) := by
    obtain ⟨q, -, hq⟩ := ok_of_bind hvalue
    exact ⟨q, (Except.ok.inj hq).symm⟩
  have hdisplay : (Value.display (.uncertain q (some (String.ofList a.written, String.ofList b.written)))).toList =
      Literal.spreadOf a b := Literal.toList_spread a b
  refine ⟨?_, fun line => ?_, Value.agrees_refl _, fun _ => rfl, fun name => replay_declared name q _⟩
  · rw [hdisplay]
    exact hshown
  · rw [hdisplay, valueOf, if_pos rfl]
    exact declaredValue_eq_ok.mpr ⟨a, b, hagain, hvalue⟩

theorem shows_text {inner : List Char} (hquote : '"' ∉ inner) (hequals : '=' ∉ inner) :
    Shows (R := R) false (.text (String.ofList inner)) (.text (String.ofList inner)) := by
  have hdisplay : (Value.display (R := R) (.text (String.ofList inner))).toList = Literal.quoted inner := by
    simp [Value.display, Literal.quoted, String.toList_append]
  refine ⟨hdisplay ▸ isShown_quoted hequals, fun line => ?_, Value.agrees_refl _, fun _ => rfl,
    fun name => replay_plain name _⟩
  rw [hdisplay]
  exact congrArg Except.ok (plainValue_quoted hquote)

/-- A text that stands for itself still does. -/
theorem shows_raw {expression : List Char} (hshown : IsShown expression)
    (h : plainValue (R := R) expression = .raw (String.ofList expression)) :
    Shows (R := R) false (.raw (String.ofList expression)) (.raw (String.ofList expression)) := by
  have hdisplay : (Value.display (R := R) (.raw (String.ofList expression))).toList = expression :=
    String.toList_ofList
  refine ⟨hdisplay.symm ▸ hshown, fun line => ?_, Value.agrees_refl _, fun _ => rfl, fun name => replay_plain name _⟩
  rw [hdisplay]
  exact congrArg Except.ok h

end

/-- A finite number is read again, but for the sign of zero. -/
theorem exists_shows_number {x : Float} (h : x.isFinite = true) : ∃ y,
    Shows false (.number x) (.number y) ∧ (x ≠ -Scalar.zero → y = x) := by
  obtain ⟨y, hwrites, hy⟩ := exists_writesDouble_plainText h
  obtain ⟨hshown, hnumber⟩ := Literal.isShown_of_writesDouble hwrites
  have hvalue (line : Option Nat) : valueOf false (Value.display (.number x)).toList line = .ok (.number y) := by
    show Except.ok (plainValue (plainText (Scalar.binary x)).toList) = _
    rw [plainValue, hnumber]
  rcases hy with rfl | ⟨rfl, rfl⟩
  · exact ⟨y, ⟨hshown, hvalue, Value.agrees_refl _, fun _ => rfl, fun name => replay_plain name _⟩, fun _ => rfl⟩
  · -- both zeros are shown alike
    refine ⟨Scalar.zero, ⟨hshown, hvalue, .inr ⟨_, _, rfl, rfl, by decide +kernel⟩, fun name => ?_,
      fun name => replay_plain name _⟩, fun hne => absurd rfl hne⟩
    have hdisplay : Value.display (.number (Scalar.zero : Float)) = Value.display (.number (-Scalar.zero : Float)) := by
      decide +kernel
    exact congrArg (fun display => Result.success (name ++ " = " ++ display)) hdisplay

/-- Whatever a right-hand side stands for is read again from its display. -/
theorem exists_shows {declared : Bool} {expression : List Char} {line : Option Nat} {v : Value Float}
    (hvalue : valueOf declared expression line = .ok v) (hshown : IsShown expression)
    (finite : ∀ x : Float, Literal.number? expression = some x → x.isFinite = true) :
    ∃ w, Shows declared v w ∧ (v ≠ .number (-Scalar.zero) → w = v) := by
  cases declared with
  | true => exact ⟨v, shows_uncertain hvalue, fun _ => rfl⟩
  | false =>
      obtain rfl : plainValue (R := Float) expression = v := Except.ok.inj hvalue
      unfold plainValue
      split
      · rename_i x hnumber
        obtain ⟨y, hshows, hy⟩ := exists_shows_number (finite x hnumber)
        exact ⟨.number y, hshows, fun hne => congrArg Value.number (hy fun hx => hne (congrArg Value.number hx))⟩
      · rename_i hnumber
        split
        · rename_i inner htext
          obtain ⟨hquoted, hquote⟩ := Literal.text?_eq_some.mp htext
          rw [hshown.trimmed] at hquoted
          have hequals : '=' ∉ inner := fun hmem => hshown.equals (by simp [hquoted, Literal.quoted, hmem])
          exact ⟨_, shows_text hquote hequals, fun _ => rfl⟩
        · rename_i htext
          have hraw : plainValue (R := Float) expression = .raw (String.ofList expression) := by
            unfold plainValue
            rw [hnumber, htext]
          exact ⟨_, shows_raw hshown hraw, fun _ => rfl⟩

end Assignment

namespace Interpreter

/-- **Echoes of assignments can be replayed.**  The echo of an assignment that has been accepted, with the keyword of a
declaration in front if the result is an uncertain one, is accepted in its turn, wherever it stands.  It gives the same
result and binds the same name to a value that agrees, so that the stores agree; both are the same, unless the value is
the negative zero, which is shown without its sign. -/
theorem replay_echo {store after : Store Float} {text : String} {line : Option Nat} {echo : Result Float}
    (accepted : assign store text line = .ok (after, echo))
    (finite : ∀ target expression, Assignment.sides text = some (target, expression) →
      ∀ x : Float, Literal.number? expression = some x → x.isFinite = true) :
    ∃ name v w, after = store.bind name v ∧ v.Agrees w ∧
      (∃ again, echo.replay = .ok again ∧ ∀ line', assign after again line' = .ok (after.bind name w, echo)) ∧
      after.Agrees (after.bind name w) ∧
      (v ≠ .number (-Scalar.zero) → w = v ∧ after.bind name w = after) := by
  rw [assign_eq] at accepted
  cases hread : Assignment.read (R := Float) text line with
  | error f =>
      rw [hread] at accepted
      cases accepted
  | ok b =>
      rw [hread] at accepted
      obtain ⟨rfl, rfl⟩ := Prod.mk.inj (Except.ok.inj accepted)
      obtain ⟨hname, target, expression, hsides, hvalue⟩ := Assignment.exists_of_read hread
      obtain ⟨hequals, hne, htrim⟩ := Assignment.exists_of_sides hsides
      obtain ⟨w, hshows, hsame⟩ := Assignment.exists_shows hvalue ⟨hne, hequals, htrim⟩ (finite _ _ hsides)
      have hstore : (store.bind b.name b.value).bind b.name w = store.bind b.name w := store.bind_bind ..
      refine ⟨b.name, b.value, w, rfl, hshows.agrees, ⟨_, hshows.replay b.name, fun line' => ?_⟩, ?_, fun hzero => ?_⟩
      · have hread' : Assignment.read (Assignment.write b.declared b.name b.value.display) line' =
            .ok ⟨b.name, w, b.declared⟩ := by
          rw [Assignment.read_write hname hshows.shown.equals (hshows.shown.trimmed.symm ▸ hshows.shown.nonempty),
            hshows.shown.trimmed, hshows.value]
          rfl
        rw [assign_eq, hread']
        exact congrArg (fun r => Except.ok (_, r)) (hshows.result b.name)
      · rw [hstore]
        exact store.agrees_bind b.name hshows.agrees
      · exact ⟨hsame hzero, by rw [hstore, hsame hzero]⟩

/-- The negative zero is shown as zero, so that the echo binds the other zero and says the same. -/
theorem replay_echo_negative_zero : ∃ (after again : Store Float) (echo : Result Float),
    assign .empty "x = -0.0" none = .ok (after, echo) ∧ echo.replay = .ok "x = 0" ∧
      assign after "x = 0" none = .ok (again, echo) ∧ after.Agrees again := by
  have hshown :
      ((assign (R := Float) .empty "x = -0.0" none).toOption.map fun r => r.2.replay) = some (.ok "x = 0") := by
    decide +kernel
  have hfinite : ∀ target expression, Assignment.sides "x = -0.0" = some (target, expression) →
      ∀ x : Float, Literal.number? expression = some x → x.isFinite = true := by
    have hsides : Assignment.sides "x = -0.0" = some ("x".toList, "-0.0".toList) := by decide +kernel
    have hnumber : (Literal.number? (R := Float) "-0.0".toList).all (·.isFinite) = true := by decide +kernel
    intro target expression h x hx
    obtain ⟨rfl, rfl⟩ := Prod.mk.inj (Option.some.inj (hsides.symm.trans h))
    rw [hx] at hnumber
    exact hnumber
  cases haccepted : assign (R := Float) .empty "x = -0.0" none with
  | error f =>
      rw [haccepted] at hshown
      cases hshown
  | ok r =>
      obtain ⟨after, echo⟩ := r
      rw [haccepted] at hshown
      obtain ⟨name, v, w, -, -, ⟨text, htext, hagain⟩, hagrees, -⟩ := replay_echo haccepted hfinite
      have hecho : echo.replay = .ok "x = 0" := Option.some.inj hshown
      obtain rfl := Except.ok.inj (htext.symm.trans hecho)
      exact ⟨after, after.bind name w, echo, rfl, hecho, hagain none, hagrees⟩

end Interpreter

end LabLang
