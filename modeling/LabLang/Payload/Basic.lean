import LabLang.Failure
import LabLang.Table

/-! # Payloads

Results travel as untyped data: null, truth values, integers, real numbers, texts, lists and objects. Integers
and real numbers are told apart, and an object keeps the order of its fields, which have distinct names.

`Payload.display` is the text of a payload; inside other data texts are quoted. There is no text for data with an
integer that is too long to be written. -/

namespace LabLang

open Number (WriteFault bounded intText)

/-- Untyped data. -/
inductive Payload (R : Type)
  | null
  | bool (value : Bool)
  | int (value : Int)
  | real (value : R)
  | text (value : String)
  | list (items : List (Payload R))
  | object (fields : List (String × Payload R))

namespace Payload

variable {R : Type}

instance : Inhabited (Payload R) := ⟨null⟩

/-- The name of the type of the data, in messages. -/
def typeName : Payload R → String
  | null => "NoneType"
  | bool _ => "bool"
  | int _ => "int"
  | real _ => "float"
  | text _ => "str"
  | list _ => "list"
  | object _ => "dict"

/-- The data is null. -/
def isNull : Payload R → Bool
  | null => true
  | _ => false

/-- The data counts as absent: null, false, zero or empty. -/
def isEmpty [Scalar R] : Payload R → Bool
  | null => true
  | bool b => !b
  | int n => n == 0
  | real x => Scalar.eq x Scalar.zero
  | text s => s.isEmpty
  | list items => items.isEmpty
  | object fields => fields.isEmpty

/-- An integer, or null. -/
def ofInt? : Option Int → Payload R
  | some n => int n
  | none => null

/-- A text, or null. -/
def ofText? : Option String → Payload R
  | some s => text s
  | none => null

section

variable [Scalar R]

mutual

/-- The data as it is shown inside other data. -/
def shown : Payload R → Except WriteFault String
  | null => .ok "None"
  | bool b => .ok (if b then "True" else "False")
  | int n => bounded intText n
  | real x => .ok (numberText x)
  | text s => .ok (Text.quote s)
  | list items => (shownItems items).map fun parts => "[" ++ ", ".intercalate parts ++ "]"
  | object fields => (shownFields fields).map fun parts => "\x7b" ++ ", ".intercalate parts ++ "\x7d"

/-- The items of a list as they are shown. -/
def shownItems : List (Payload R) → Except WriteFault (List String)
  | [] => .ok []
  | p :: ps => do
    let part ← shown p
    let parts ← shownItems ps
    pure (part :: parts)

/-- The fields of an object as they are shown. -/
def shownFields : List (String × Payload R) → Except WriteFault (List String)
  | [] => .ok []
  | (name, p) :: fs => do
    let part ← shown p
    let parts ← shownFields fs
    pure ((Text.quote name ++ ": " ++ part) :: parts)

end

/-- The data as a text; a text stands for itself. -/
def display : Payload R → Except WriteFault String
  | text s => .ok s
  | p => p.shown

end

end Payload

end LabLang
