import LabLang.Proofs.Assignments

/-! # Literals in assignments and in branches

A literal is a number, a quoted text or an uncertain number (`Literal.Form`).  The longest number token at the start of a
text tells these forms apart: it fills a number, is followed by more in an uncertain number and is missing in front of a
quotation mark (`Form.Matches.starts`).  So it does not matter in which order the forms are tried, and whether names are
tried before or after them: a branch and an assignment read a literal alike (`literals_agree`). -/

namespace LabLang

open Text

namespace Literal

/-- The forms of literals. -/
inductive Form
  | number | text | uncertain
deriving DecidableEq, Repr

/-- Literals of the form are assigned with a declaration. -/
def Form.declared : Form → Bool
  | .uncertain => true
  | _ => false

variable {R : Type} [Scalar R]

/-- The value of a text as a literal of the form, if it is one. -/
def Form.value? (form : Form) (s : List Char) : Except (Cause R) (Option (Value R)) :=
  match form with
  | .number => .ok ((number? s).map .number)
  | .text => .ok ((text? s).map fun inner => .text (String.ofList inner))
  | .uncertain => Literal.uncertain? s

/-- The text is a literal of the form, whether or not it has a value. -/
def Form.Matches (R : Type) [Scalar R] (form : Form) (s : List Char) : Prop := form.value? (R := R) s ≠ .ok none

/-! ### The three forms -/

/-- What the longest number token at the start of a literal leaves. -/
def Form.Starts : Form → Option (Token × List Char) → Prop
  | .number, start => ∃ t, start = some (t, [])
  | .text, start => start = none
  | .uncertain, start => ∃ t rest, start = some (t, rest) ∧ rest ≠ []

theorem Form.Starts.unique {form other : Form} {start : Option (Token × List Char)} (h : form.Starts start)
    (h' : other.Starts start) : form = other := by
  cases form with
  | number =>
      obtain ⟨t, rfl⟩ := h
      cases other with
      | number => rfl
      | text => cases h'
      | uncertain =>
          obtain ⟨_, _, heq, hne⟩ := h'
          cases heq
          exact absurd rfl hne
  | text =>
      cases h
      cases other with
      | number =>
          obtain ⟨_, heq⟩ := h'
          cases heq
      | text => rfl
      | uncertain =>
          obtain ⟨_, _, heq, -⟩ := h'
          cases heq
  | uncertain =>
      obtain ⟨t, rest, rfl, hne⟩ := h
      cases other with
      | number =>
          obtain ⟨_, heq⟩ := h'
          cases heq
          exact absurd rfl hne
      | text => cases h'
      | uncertain => rfl

theorem takeToken_of_number? {s : List Char} {x : R} (h : number? s = some x) :
    ∃ t, takeToken true (trim s) = some (t, []) ∧ x = t.value := by
  unfold number? at h
  split at h
  case h_1 t htake => exact ⟨t, htake, (Option.some.inj h).symm⟩
  case h_2 => cases h

theorem takeToken_of_uncertainTokens? {s : List Char} {a b : Token} (h : uncertainTokens? s = some (a, b)) :
    ∃ rest, takeToken true (trim s) = some (a, rest) ∧ rest ≠ [] := by
  unfold uncertainTokens? at h
  simp only [Option.bind_eq_bind, Option.bind_eq_some_iff] at h
  obtain ⟨⟨nominal, rest⟩, hnominal, afterSign, hsign, h⟩ := h
  split at h
  case h_2 => cases h
  case h_1 =>
    cases h
    refine ⟨rest, hnominal, ?_⟩
    rintro rfl
    cases hsign

theorem uncertain?_eq_none {s : List Char} : uncertain? (R := R) s = .ok none ↔ uncertainTokens? s = none := by
  unfold uncertain?
  cases uncertainTokens? s with
  | none => simp
  | some tokens => cases h : ofTokens (R := R) tokens.1 tokens.2 <;> simp [h, Except.map]

theorem number_matches {s : List Char} : Form.Matches R .number s ↔ ∃ x : R, number? s = some x := by
  unfold Form.Matches Form.value?
  cases number? (R := R) s <;> simp

theorem text_matches {s : List Char} : Form.Matches R .text s ↔ ∃ inner, text? s = some inner := by
  unfold Form.Matches Form.value?
  cases text? s <;> simp

theorem uncertain_matches {s : List Char} : Form.Matches R .uncertain s ↔ ∃ a b, uncertainTokens? s = some (a, b) := by
  rw [← Prod.exists (p := fun tokens => uncertainTokens? s = some tokens), ← Option.ne_none_iff_exists']
  exact not_congr uncertain?_eq_none

theorem Form.Matches.starts {form : Form} {s : List Char} (h : form.Matches R s) :
    form.Starts (takeToken true (trim s)) := by
  cases form with
  | number =>
      obtain ⟨x, hnumber⟩ := number_matches.mp h
      obtain ⟨t, htake, -⟩ := takeToken_of_number? hnumber
      exact ⟨t, htake⟩
  | text =>
      obtain ⟨inner, htext⟩ := text_matches.mp h
      rw [(text?_eq_some.mp htext).1]
      exact takeToken_quoted inner
  | uncertain =>
      obtain ⟨a, b, htokens⟩ := uncertain_matches.mp h
      obtain ⟨rest, htake, hne⟩ := takeToken_of_uncertainTokens? htokens
      exact ⟨a, rest, htake, hne⟩

/-- No text is a literal of two forms. -/
theorem Form.Matches.unique {form other : Form} {s : List Char} (h : form.Matches R s) (h' : other.Matches R s) :
    form = other := h.starts.unique h'.starts

/-! ### Reading a literal -/

section answer

variable {form : Form} {s : List Char}

theorem Form.Matches.uncertainTokens?_eq_none (h : form.Matches R s) (hne : form ≠ .uncertain) :
    uncertainTokens? s = none := by
  by_contra htokens
  have h' : Form.Matches R .uncertain s := fun hnone => htokens (uncertain?_eq_none.mp hnone)
  exact hne (h.unique h')

theorem Form.Matches.number?_eq_none (h : form.Matches R s) (hne : form ≠ .number) : number? (R := R) s = none :=
  Option.eq_none_iff_forall_ne_some.mpr fun x hx => hne (h.unique (number_matches.mpr ⟨x, hx⟩))

/-- Whichever order the forms are tried in, the one that matches is read. -/
theorem Form.Matches.read?_eq (h : form.Matches R s) : read? (R := R) s = form.value? s := by
  unfold read?
  cases form with
  | number =>
      obtain ⟨x, hnumber⟩ := number_matches.mp h
      rw [h.uncertainTokens?_eq_none (by decide), hnumber, Form.value?, hnumber]
      rfl
  | text =>
      rw [h.uncertainTokens?_eq_none (by decide), h.number?_eq_none (by decide)]
      rfl
  | uncertain =>
      obtain ⟨a, b, htokens⟩ := uncertain_matches.mp h
      rw [Form.value?, uncertain?, htokens]

/-- An assignment that declares nothing reads the other two forms. -/
theorem Form.Matches.plainValue_eq (h : form.Matches R s) (hne : form ≠ .uncertain) :
    form.value? s = .ok (some (Assignment.plainValue (R := R) s)) := by
  unfold Assignment.plainValue
  cases form with
  | number =>
      obtain ⟨x, hnumber⟩ := number_matches.mp h
      rw [Form.value?, hnumber]
      rfl
  | text =>
      obtain ⟨inner, htext⟩ := text_matches.mp h
      rw [Form.value?, h.number?_eq_none (by decide), htext]
      rfl
  | uncertain => exact absurd rfl hne

theorem value?_trim (form : Form) (s : List Char) : form.value? (R := R) (trim s) = form.value? s := by
  cases form with
  | number =>
      unfold Form.value? number?
      rw [trim_trim]
  | text =>
      unfold Form.value? text?
      rw [trim_trim]
  | uncertain =>
      unfold Form.value? uncertain? uncertainTokens?
      rw [trim_trim]

/-- Only the numbers of an uncertain literal may make no value. -/
theorem kind_of_ofTokens {a b : Token} {cause : Cause R} (h : ofTokens a b = .error cause) : cause.kind = .numeric := by
  rcases error_of_bind h with hmake | ⟨q, -, hpure⟩
  · unfold Quantity.make at hmake
    split at hmake
    · split at hmake
      · cases hmake
        rfl
      · cases hmake
    · cases hmake
      rfl
  · cases hpure

/-- A literal has a value, or there is a reason why it has none. -/
theorem Form.Matches.exists_answer (h : form.Matches R s) :
    ∃ answer : Except (Cause R) (Value R), form.value? s = answer.map some ∧
      ∀ cause, answer = .error cause → form = .uncertain ∧ cause.kind = .numeric := by
  by_cases hform : form = .uncertain
  · subst hform
    obtain ⟨a, b, htokens⟩ := uncertain_matches.mp h
    exact ⟨ofTokens a b, by rw [Form.value?, uncertain?, htokens], fun _ hcause => ⟨rfl, kind_of_ofTokens hcause⟩⟩
  · exact ⟨.ok (Assignment.plainValue s), h.plainValue_eq hform, fun _ hcause => by cases hcause⟩

variable {answer : Except (Cause R) (Value R)} (hanswer : form.value? s = answer.map some)
include hanswer

theorem matches_of_answer : form.Matches R s := by
  unfold Form.Matches
  rw [hanswer]
  cases answer <;> simp [Except.map]

/-- An assignment reads the form that it is declared for. -/
theorem valueOf_of_answer (line : Option Nat) :
    Assignment.valueOf form.declared s line = answer.mapError (⟨·, none⟩) := by
  by_cases hform : form = .uncertain
  · subst hform
    have hread : Literal.uncertain? s = answer.map some := hanswer
    unfold Assignment.valueOf Assignment.declaredValue
    rw [hread]
    cases answer <;> rfl
  · have hdeclared : form.declared = false := by
      cases form with
      | uncertain => exact absurd rfl hform
      | _ => rfl
    rw [(matches_of_answer hanswer).plainValue_eq hform] at hanswer
    unfold Assignment.valueOf
    rw [hdeclared]
    cases answer with
    | error cause => cases hanswer
    | ok v => exact congrArg Except.ok (Option.some.inj (Except.ok.inj hanswer))

/-- So does a branch, whatever names are bound. -/
theorem evaluate_of_answer (vars : Table (Value R)) (g : Random.Stream) :
    Expression.evaluate vars g (String.ofList s) = answer := by
  have hread : Literal.read? (R := R) (trim (trim s)) = answer.map some := by
    have hform := matches_of_answer hanswer
    rw [← value?_trim, ← value?_trim] at hanswer
    rw [← hanswer]
    exact (matches_of_answer hanswer).read?_eq
  unfold Expression.evaluate Expression.operand?
  rw [String.toList_ofList]
  dsimp only
  rw [hread]
  cases answer <;> rfl

end answer

end Literal

namespace Interpreter

open Literal Expression

variable {R : Type} [Scalar R]

/-- What comes of assigning a literal to a name. -/
theorem assign_of_answer {form : Form} {e : String} {answer : Except (Cause R) (Value R)}
    (hanswer : form.value? e.toList = answer.map some) (hequals : '=' ∉ e.toList) (store : Store R) {name : String}
    (hname : isName name.toList = true) (line : Option Nat) :
    assign store (Assignment.write form.declared name e) line =
      (answer.mapError (⟨·, none⟩)).map fun v => (store.bind name v, bindingResult ⟨name, v, form.declared⟩) := by
  have hne : trim e.toList ≠ [] := by
    intro hnil
    rw [← value?_trim, hnil] at hanswer
    exact matches_of_answer hanswer (by cases form <;> rfl)
  rw [assign_eq, Assignment.read_write hname hequals hne]
  rw [← value?_trim] at hanswer
  rw [valueOf_of_answer hanswer]
  cases answer <;> rfl

/-- **Literals mean the same in assignments and in branches.**  The branch expression that is a literal has a value, or
an uncertain one fails because its numbers make no quantity, whatever is bound and drawn.  Assigned to a name, with a
declaration if it is uncertain, the literal gives the name this value, so that the branch expression that is the name has
it, too; or the assignment fails for the same reason.  No text is a literal of two forms, and no literal is a name. -/
theorem literals_agree :
    (∀ (form : Form) (e : String), form.Matches R e.toList → '=' ∉ e.toList →
      (∃ v : Value R, form.value? e.toList = .ok (some v) ∧ (∀ vars g, evaluate vars g e = .ok v) ∧
        ∀ (store : Store R) (name : String) (line : Option Nat), isName name.toList = true → ∃ echo,
          assign store (Assignment.write form.declared name e) line = .ok (store.bind name v, echo) ∧
          ∀ g, evaluate (store.bind name v).vars g name = .ok v) ∨
      (form = .uncertain ∧ ∃ cause : Cause R, cause.kind = .numeric ∧ (∀ vars g, evaluate vars g e = .error cause) ∧
        ∀ (store : Store R) (name : String) (line : Option Nat), isName name.toList = true →
          assign store (Assignment.write form.declared name e) line = .error ⟨cause, none⟩)) ∧
    (∀ (form other : Form) (s : List Char), form.Matches R s → other.Matches R s → form = other) ∧
    ∀ (form : Form) (s : List Char), form.Matches R s → isName s = false := by
  refine ⟨fun form e h hequals => ?_, fun form other s => Form.Matches.unique, fun form s h => ?_⟩
  · obtain ⟨answer, hanswer, hcause⟩ := h.exists_answer
    have hbranch := evaluate_of_answer hanswer
    rw [String.ofList_toList] at hbranch
    cases answer with
    | ok v =>
        refine .inl ⟨v, hanswer, hbranch, fun store name line hname =>
          ⟨_, assign_of_answer hanswer hequals store hname line, fun g => ?_⟩⟩
        rw [evaluate_of_isName _ g hname, show (store.bind name v).vars.get? name = some v from Table.get?_put_self ..]
    | error cause =>
        obtain ⟨hform, hkind⟩ := hcause cause rfl
        exact .inr ⟨hform, cause, hkind, hbranch, fun store name line hname =>
          assign_of_answer hanswer hequals store hname line⟩
  · rw [Bool.eq_false_iff]
    intro hname
    have hread : read? (R := R) s ≠ .ok none := by
      rw [h.read?_eq]
      exact h
    obtain ⟨c, r, hs, hstart, -⟩ := isName_iff.mp hname
    have hno := (isOperand_of_read? hread).2 c (by rw [Number.trim_of_isWord (isWord_of_mem_name hname), hs]; rfl)
    rw [hstart] at hno
    cases hno

/-- An uncertain number with the other spelling of the sign: the name and the literal have the same value, which is shown
with the tokens that were written. -/
theorem literals_agree_uncertain :
    Form.uncertain.Matches Float "298.15 +/- 0.50".toList ∧ '=' ∉ "298.15 +/- 0.50".toList ∧
      isName "T".toList = true ∧ ∃ (v : Value Float) (echo : Result Float), v.display = "298.15 ± 0.50" ∧
        assign .empty "uncertain T = 298.15 +/- 0.50" none = .ok (Store.empty.bind "T" v, echo) ∧
        ∀ g, evaluate (Store.empty.bind "T" v).vars g "T" = .ok v ∧ evaluate [] g "298.15 +/- 0.50" = .ok v := by
  have hshown : (Form.uncertain.value? (R := Float) "298.15 +/- 0.50".toList).toOption.map (·.map Value.display) =
      some (some "298.15 ± 0.50") := by decide +kernel
  have hform : Form.uncertain.Matches Float "298.15 +/- 0.50".toList := fun hnone => by
    rw [hnone] at hshown
    cases hshown
  have hequals : '=' ∉ "298.15 +/- 0.50".toList := by decide
  have hname : isName "T".toList = true := by decide
  refine ⟨hform, hequals, hname, ?_⟩
  rcases literals_agree.1 .uncertain "298.15 +/- 0.50" hform hequals with
    ⟨v, hvalue, hbranch, hassign⟩ | ⟨-, cause, -, hbranch, -⟩
  · obtain ⟨echo, hecho, heval⟩ := hassign .empty "T" none hname
    rw [hvalue] at hshown
    exact ⟨v, echo, Option.some.inj (Option.some.inj hshown), hecho, fun g => ⟨heval g, hbranch [] g⟩⟩
  · have hok : (evaluate (R := Float) [] (.ofSeed ⟨7, []⟩) "298.15 +/- 0.50").toOption.isSome = true := by
      decide +kernel
    rw [hbranch] at hok
    cases hok

end Interpreter

end LabLang
