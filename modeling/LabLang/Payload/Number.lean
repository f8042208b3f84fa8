import LabLang.Payload.Basic
import LabLang.Scalar.Machine

/-! # Numbers and texts in payloads

Payloads are read as numbers generously: truth values count as one and zero, and texts are read as numbers. As a text
any payload will do that can be written. `Misfit` lists all the ways in which a payload does not have the shape that is
asked of it. -/

namespace LabLang

open Text (quote)

/-- Why a payload does not have the shape that is asked of it. -/
inductive Misfit
  /-- Data of this type is no real number. -/
  | notReal (type : String)
  /-- The text is no real number. -/
  | notNumeral (text : String)
  /-- Data of this type is no integer. -/
  | notInteger (type : String)
  /-- The text is no integer. -/
  | integerText (fault : Number.IntegerFault) (text : String)
  /-- NaN is no integer. -/
  | undefinedInteger
  /-- Infinity is no integer. -/
  | infiniteInteger
  /-- The integer is beyond the real numbers. -/
  | hugeInteger
  | missing (field : String)
  /-- Data of this type has no fields. The operation is the one that asked for them. -/
  | noObject (type operation : String)
  /-- The payload is asked for as a text and cannot be written. -/
  | unwritten (fault : Number.WriteFault)
  | negativeCount
  | shots (total given : String)
  /-- The numbers are those of no uncertain quantity. -/
  | quantity (cause : Cause Float)

namespace Misfit

def message : Misfit → String
  | notReal type => "float() argument must be a string or a real number, not '" ++ type ++ "'"
  | notNumeral text => "could not convert string to float: " ++ quote text
  | notInteger type =>
    "int() argument must be a string, a bytes-like object or a real number, not '" ++ type ++ "'"
  | integerText fault text => integerFaultText fault text
  | undefinedInteger => "cannot convert float NaN to integer"
  | infiniteInteger => "cannot convert float infinity to integer"
  | hugeInteger => "int too large to convert to float"
  | missing field => quote field
  | noObject type operation => "'" ++ type ++ "' object has no attribute '" ++ operation ++ "'"
  | unwritten fault => fault.message
  | negativeCount => "counts must be non-negative"
  | shots total given => "counts sum to " ++ total ++ ", expected " ++ given ++ " shots"
  | quantity cause => cause.message

/-- The shape is right, but a number is out of range or a quantity is invalid. -/
def isRange : Misfit → Bool
  | infiniteInteger | hugeInteger | quantity _ => true
  | _ => false

end Misfit

namespace Payload

/-- The payload as a text. -/
def toText (p : Payload Float) : Except Misfit String := p.display.mapError .unwritten

/-- The payload as a real number. -/
def toReal : Payload Float → Except Misfit Float
  | real x => .ok x
  | int n =>
    let x : Float := Scalar.int n
    if Scalar.isFinite x then .ok x else .error .hugeInteger
  | bool b => .ok (if b then Scalar.one else Scalar.zero)
  | text s =>
    match Number.readNumeral s.toList with
    | some n => .ok (Machine.ofNumeral n)
    | none => .error (.notNumeral s)
  | p => .error (.notReal p.typeName)

/-- The payload as an integer; fractions are cut off. -/
def toInteger : Payload Float → Except Misfit Int
  | int n => .ok n
  | bool b => .ok (if b then 1 else 0)
  | real x =>
    match Number.Binary.ofFloat x with
    | .nan => .error .undefinedInteger
    | .infinity _ => .error .infiniteInteger
    | b => .ok b.truncate
  | text s =>
    match Number.readInteger s.toList with
    | .ok n => .ok n
    | .error fault => .error (.integerText fault s)
  | p => .error (.notInteger p.typeName)

end Payload

end LabLang
