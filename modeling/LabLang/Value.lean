import LabLang.Quantity

/-! # Values

What a name can be bound to, and how values are shown. -/

namespace LabLang

/-- A value. An uncertain quantity remembers the two number tokens of its declaration, if there were
any, and is shown with them. -/
inductive Value (R : Type) [Scalar R]
  | number (value : R)
  | text (value : String)
  | uncertain (quantity : Quantity R) (source : Option (String × String))
  | circuit (name : String)
  | raw (text : String)
deriving DecidableEq

namespace Value

variable {R : Type} [Scalar R]

/-- The kind of the value, as messages and results name it. -/
def kind : Value R → String
  | number _ => "number"
  | text _ => "text"
  | uncertain _ _ => "uncertain"
  | circuit _ => "circuit"
  | raw _ => "raw"

/-- A number as it is shown. -/
def numberDisplay (x : R) : String := Number.plainText (Scalar.binary x)

/-- Two numbers around a plus-minus sign. -/
def spread (nominal uncertainty : String) : String := nominal ++ " ± " ++ uncertainty

/-- The value as it is shown. -/
def display : Value R → String
  | number x => numberDisplay x
  | text s => "\"" ++ s ++ "\""
  | uncertain _ (some (nominal, uncertainty)) => spread nominal uncertainty
  | uncertain q none => spread (numberDisplay q.nominal) (numberDisplay q.uncertainty)
  | circuit name => "<circuit " ++ name ++ ">"
  | raw s => s

/-- The value is a number or an uncertain quantity. -/
def isNumeric : Value R → Bool
  | number _ | uncertain _ _ => true
  | _ => false

/-- The number, of a plain number. -/
def number? : Value R → Option R
  | number x => some x
  | _ => none

/-- A numeric value as an uncertain quantity; plain numbers have no uncertainty. -/
def quantity : Value R → Except (Cause R) (Quantity R)
  | number x => Quantity.exact x
  | uncertain q _ => .ok q
  | v => .error (.internal (.notNumeric v.kind))

end Value

end LabLang
