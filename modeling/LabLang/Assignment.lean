import LabLang.Literal
import LabLang.Source
import LabLang.Store

/-! # Assignments

`<name> = <right-hand side>` binds a number, a quoted text or, if the right-hand side is neither, its text as
it stands. `uncertain <name> = <value> ± <uncertainty>` binds an uncertain quantity. -/

namespace LabLang

open Text

/-- What an assignment binds, and whether it was declared as uncertain. -/
structure Binding (R : Type) [Scalar R] where
  name : String
  value : Value R
  declared : Bool

namespace Assignment

variable {R : Type} [Scalar R]

/-- The two sides of an assignment. -/
def sides (text : String) : Option (List Char × List Char) :=
  match (text.toList.splitOn '=').map trim with
  | [target, expression] => if target.isEmpty || expression.isEmpty then none else some (target, expression)
  | _ => none

/-- The name that an uncertain declaration binds. -/
def declaredName? (target : List Char) : Option (List Char) :=
  match Source.dropWordAndBlanks "uncertain" target with
  | some name => if name.isEmpty || name.contains '\n' then none else some (trim name)
  | none => none

/-- The text as a name. -/
def name (s : List Char) (line : Option Nat) : Except (Failure R) String :=
  if isName s then .ok (String.ofList s)
  else .error (.ofMalformed (.variableName (String.ofList s)) line)

/-- The value of a right-hand side that is not declared as uncertain. -/
def plainValue (expression : List Char) : Value R :=
  match Literal.number? expression with
  | some x => .number x
  | none =>
    match Literal.text? expression with
    | some s => .text (String.ofList s)
    | none => .raw (String.ofList expression)

/-- The value of a right-hand side that is declared as uncertain. -/
def declaredValue (expression : List Char) (line : Option Nat) : Except (Failure R) (Value R) :=
  match Literal.uncertain? expression with
  | .ok (some v) => .ok v
  | .ok none => .error (.ofMalformed (.uncertainValue (String.ofList expression)) line)
  | .error cause => .error ⟨cause, none⟩

/-- Reads an assignment. -/
def read (text : String) (line : Option Nat := none) : Except (Failure R) (Binding R) :=
  match sides text with
  | none => .error (.ofMalformed .assignment line)
  | some (target, expression) =>
    match declaredName? target with
    | some target => do
      let name ← name target line
      let value ← declaredValue expression line
      pure ⟨name, value, true⟩
    | none => do
      let name ← name target line
      pure ⟨name, plainValue expression, false⟩

end Assignment

/-- The assignment as it is echoed. -/
def Binding.display {R : Type} [Scalar R] (b : Binding R) : String := b.name ++ " = " ++ b.value.display

end LabLang
