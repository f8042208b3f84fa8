import LabLang.Text.Word
import LabLang.Value

/-! # Literals

Numbers, quoted texts and uncertain numbers. A literal fills its text up to the blanks around it. -/

namespace LabLang.Literal

open Text Number

variable {R : Type} [Scalar R]

/-- A number token: as it was written, and what it means. -/
structure Token where
  written : List Char
  negative : Bool
  digits : Nat
  exponent : Int

/-- The value of a token. -/
def Token.value (t : Token) : R :=
  if t.negative then -(Scalar.decimal t.digits t.exponent) else Scalar.decimal t.digits t.exponent

/-- The number token at the start of a text, as long as possible. -/
def takeToken (withSign : Bool) (s : List Char) : Option (Token × List Char) :=
  let (negative, r) := if withSign then takeSign s else (false, s)
  (takeUnsigned r).map fun (parts, rest) =>
    (⟨s.take (s.length - rest.length), negative, parts.value.1, parts.value.2⟩, rest)

/-- A number that fills the text. -/
def number? (text : List Char) : Option R :=
  match takeToken true (trim text) with
  | some (t, []) => some t.value
  | _ => none

/-- A quoted text that fills the text; there is no way to write a quotation mark in it. -/
def text? (text : List Char) : Option (List Char) :=
  match trim text with
  | '"' :: r =>
    match r.span (· != '"') with
    | (inner, ['"']) => some inner
    | _ => none
  | _ => none

/-- A plus-minus sign at the start of a text, in either spelling. -/
def dropPlusMinus : List Char → Option (List Char)
  | '±' :: r => some r
  | '+' :: '/' :: '-' :: r => some r
  | _ => none

/-- The two tokens of an uncertain number that fills the text. -/
def uncertainTokens? (text : List Char) : Option (Token × Token) := do
  let (nominal, r) ← takeToken true (trim text)
  let r ← dropPlusMinus (trimLeft r)
  match takeToken false (trimLeft r) with
  | some (uncertainty, []) => some (nominal, uncertainty)
  | _ => none

/-- The uncertain quantity of two tokens, which it keeps. -/
def ofTokens (nominal uncertainty : Token) : Except (Cause R) (Value R) := do
  let q ← Quantity.make (nominal.value : R) uncertainty.value
  pure (.uncertain q (some (String.ofList nominal.written, String.ofList uncertainty.written)))

/-- An uncertain number that fills the text. -/
def uncertain? (text : List Char) : Except (Cause R) (Option (Value R)) :=
  match uncertainTokens? text with
  | some (nominal, uncertainty) => (ofTokens nominal uncertainty).map some
  | none => .ok none

/-- Any literal that fills the text. -/
def read? (text : List Char) : Except (Cause R) (Option (Value R)) :=
  match uncertainTokens? text with
  | some (nominal, uncertainty) => (ofTokens nominal uncertainty).map some
  | none =>
    match number? text with
    | some x => .ok (some (.number x))
    | none => .ok ((text? text).map fun s => .text (String.ofList s))

end LabLang.Literal
