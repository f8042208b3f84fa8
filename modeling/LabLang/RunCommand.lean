import LabLang.Failure
import LabLang.Text.Word
import LabLang.Source

/-! # Run commands

`run <circuit>` measures a circuit; an option list between braces may give the number of shots, as in
`run <circuit> { shots: <count> }`. An option that is repeated counts with its last value. -/

namespace LabLang

open Text

/-- A command: the name of the circuit and the number of shots, if it is given. -/
structure RunCommand where
  circuit : String
  shots : Option Int
deriving DecidableEq, Repr

namespace RunCommand

variable {R : Type}

/-- The name and the value of an option. -/
def option? (item : List Char) : Option (List Char × List Char) := do
  let (name, r) ← takeName item
  match trimLeft r with
  | ':' :: r =>
    let value := trimLeft r
    if value.isEmpty || value.contains '\n' then none else some (name, trim value)
  | _ => none

/-- The number of shots that a value gives. A character that shows a digit without being a decimal digit makes
the value no integer. -/
def shotsValue (value : List Char) (line : Option Nat) : Except (Failure R) Int :=
  let refused : Except (Failure R) Int := .error (.ofMalformed (.shots (String.ofList value)) line)
  if value.isEmpty || !value.all showsDigit then refused
  else
    match Number.readInteger value with
    | .ok n => if n ≤ 0 then refused else .ok n
    | .error fault => .error ⟨.internal (.integer fault (String.ofList value)), none⟩

/-- The number of shots that an item of an option list gives. -/
def itemShots (item : List Char) (line : Option Nat) : Except (Failure R) Int :=
  match option? item with
  | none => .error (.ofMalformed (.runOption (String.ofList item)) line)
  | some (name, value) =>
    if name = "shots".toList then shotsValue value line
    else .error (.ofMalformed (.unknownRunOption (String.ofList name)) line)

/-- The number of shots that an option list gives, if it is not blank. -/
def options (text : Option (List Char)) (line : Option Nat := none) : Except (Failure R) (Option Int) :=
  match text with
  | none => .ok none
  | some text =>
    if isBlankText text then .ok none
    else (((text.splitOn ',').map trim).mapM (itemShots · line)).map List.getLast?

/-- What stands between braces that fill a text, on one line. -/
def braced? (s : List Char) : Option (List Char) :=
  match s with
  | '\x7b' :: r =>
    match (trimRight r).reverse with
    | '\x7d' :: inner => if inner.contains '\n' then none else some inner.reverse
    | _ => none
  | _ => none

/-- The name of the circuit and the option list. -/
def parts? (text : String) : Option (String × Option (List Char)) := do
  let r ← Source.dropWordAndBlanks "run" text.toList
  let (name, r) ← takeName r
  match trimLeft r with
  | [] => some (String.ofList name, none)
  | r => (braced? r).map fun inner => (String.ofList name, some inner)

/-- Reads a command. -/
def read (text : String) (line : Option Nat := none) : Except (Failure R) RunCommand :=
  match parts? text with
  | none => .error (.ofMalformed (.run text) line)
  | some (circuit, list) => (options list line).map fun shots => ⟨circuit, shots⟩

end RunCommand

end LabLang
