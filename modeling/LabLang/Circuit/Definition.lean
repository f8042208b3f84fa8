import LabLang.Circuit.Basic
import LabLang.Source
import LabLang.Text.Call

/-! # Circuit definitions

A definition consists of a head `quantum circuit <name>:` and a body of lines `qubits: <count>`,
`<gate>(<angle>, <qubit>, …)` and `measure(<qubit>, …)` or `measure(all)`, in any order. Angles are
numbers or multiples of `pi`. -/

namespace LabLang.Circuit

open Text Number Source

variable {R : Type} [Scalar R]

/-! ### Angles -/

/-- Digits at the start of a text, with a fraction behind a point if there is one; a bare fraction only
where the text allows it. -/
def takePlain (bareFraction : Bool) (s : List Char) : Option (Parts × List Char) :=
  match takeDigits s with
  | ([], '.' :: r) =>
    match takeDigits r with
    | ([], _) => none
    | (fraction, r) => if bareFraction then some (⟨[], fraction, 0⟩, r) else none
  | ([], _) => none
  | (whole, '.' :: r) => let (fraction, r) := takeDigits r; some (⟨whole, fraction, 0⟩, r)
  | (whole, r) => some (⟨whole, [], 0⟩, r)

/-- The value of a plain number. -/
def plainValue (p : Parts) : R := Scalar.decimal p.value.1 p.value.2

/-- What follows a character and the blanks on both sides of it. -/
def dropMark (c : Char) (s : List Char) : Option (List Char) :=
  match trimLeft s with
  | d :: r => if c = d then some (trimLeft r) else none
  | [] => none

/-- An optional factor in front of `pi`. -/
def takeFactor (s : List Char) : Option Parts × List Char :=
  match takePlain true s with
  | some (p, r) =>
    match dropMark '*' r with
    | some r => (some p, r)
    | none => (none, s)
  | none => (none, s)

/-- An optional divisor behind `pi`, up to the end of the text. -/
def takeDivisor (s : List Char) : Option (Option Parts) :=
  if s.isEmpty then some none
  else
    match (dropMark '/' s).bind (takePlain false) with
    | some (p, []) => some (some p)
    | _ => none

/-- A multiple of `pi`: an optional minus sign, an optional factor, `pi` and an optional divisor that is
not zero. -/
def multipleOfPi (s : List Char) : Option R := do
  let (negative, r) := match s with
    | '-' :: r => (true, r)
    | r => (false, r)
  let (factor, r) := takeFactor r
  let divisor ← takeDivisor (← dropWord ['p', 'i'] r)
  let value := Scalar.pi * (factor.elim Scalar.one plainValue)
  let value ← match divisor with
    | none => some value
    | some p => if Scalar.eq (plainValue p : R) Scalar.zero then none else some (value / plainValue p)
  pure (if negative then -value else value)

/-- The number of a numeral that is neither infinite nor undefined. -/
def finiteNumeral : Numeral → Option R
  | .decimal negative digits exponent =>
    some (if negative then -(Scalar.decimal digits exponent) else Scalar.decimal digits exponent)
  | _ => none

/-- An angle. -/
def angle (text : String) (line : Option Nat := none) : Except (Failure R) R :=
  let s := trim text.toList
  let shown := String.ofList s
  let finite (value : Option R) : Except (Failure R) R :=
    match value.filter Scalar.isFinite with
    | some x => .ok x
    | none => .error (.ofCircuit (.angleNotFinite shown) line)
  match readNumeral s with
  | some numeral => finite (finiteNumeral numeral)
  | none =>
    match multipleOfPi s with
    | some x => finite (some x)
    | none => .error (.ofMalformed (.angle shown) line)

/-! ### Gates and measurements -/

/-- The text is an optional minus sign and digits. -/
def isSignedDigits : List Char → Bool
  | '-' :: r => !r.isEmpty && r.all isDigit
  | r => !r.isEmpty && r.all isDigit

/-- The integer of a text; one with too many digits fails without a line. -/
def integer (s : List Char) : Except (Failure R) Int :=
  match readInteger s with
  | .ok n => .ok n
  | .error fault => .error ⟨.internal (.integer fault (String.ofList s)), none⟩

/-- The number of a qubit. -/
def qubit (text : String) (line : Option Nat := none) : Except (Failure R) Int :=
  let s := trim text.toList
  if isSignedDigits s then integer s else .error (.ofMalformed (.qubit (String.ofList s)) line)

/-- The name and the arguments of a call that fills the line. -/
def call? (text : String) : Option (String × List String) :=
  (splitCall text.toList).map fun (name, inner) =>
    (String.ofList name, (arguments inner).map String.ofList)

/-- A gate line. -/
def gate (l : SourceLine) : Except (Failure R) (Gate R) := do
  match call? l.text with
  | none => throw (.ofMalformed (.gate l.text) l.number)
  | some (name, args) =>
    match GateKind.ofName? name with
    | none => throw (.ofCircuit (.unknownGate name) l.number)
    | some kind =>
      if args.length ≠ kind.angleCount + kind.qubitCount then
        throw (.ofCircuit (.argumentCount kind args.length) l.number)
      let params ← (args.take kind.angleCount).mapM (angle · l.number)
      let qubits ← (args.drop kind.angleCount).mapM (qubit · l.number)
      pure ⟨kind.name, qubits, params⟩

/-- A letter without regard to case; the long s counts as an s. -/
def foldLetter (c : Char) : Char := if c.toNat = 0x17F then 's' else c.toLower

/-- The line measures all qubits: `measure(all)` or `measure all`, in any case. -/
def measuresAll (text : String) : Bool :=
  match dropWord "measure".toList (text.toList.map foldLetter) with
  | none => false
  | some r =>
    let parenthesised := (dropMark '(' r).bind (dropWord "all".toList) |>.bind (dropMark ')')
    let spaced := (dropWordAndBlanks "" r).bind (dropWord "all".toList)
    parenthesised == some [] || spaced.any isBlankText

/-- The qubits of a measure line; none stands for all. -/
def measure (l : SourceLine) : Except (Failure R) (Option (List Int)) := do
  if measuresAll l.text then pure none
  else
    match call? l.text with
    | some (name, args) =>
      if name.map Char.toLower ≠ "measure" then throw (.ofMalformed (.measure l.text) l.number)
      if args.isEmpty then throw (.ofMalformed .emptyMeasure l.number)
      let qubits ← args.mapM (qubit · l.number)
      pure (some qubits)
    | none => throw (.ofMalformed (.measure l.text) l.number)

/-! ### The definition -/

/-- The name in the head of a definition. -/
def headName? (text : String) : Option String := do
  let r ← dropWordAndBlanks "quantum" text.toList
  let r ← dropWordAndBlanks "circuit" r
  let (name, r) ← takeName r
  match trimLeft r with
  | [] => some (String.ofList name)
  | ':' :: r => if isBlankText r then some (String.ofList name) else none
  | _ => none

/-- The declared count of a `qubits:` line, as it was written. -/
def declaredCount? (text : String) : Option (List Char) := do
  let r ← dropMark ':' (← dropWord "qubits".toList text.toList)
  let value := trimRight r
  if value.isEmpty || value.any isBlank then none else some value

/-- What has been read of the body of a definition. -/
structure Draft (R : Type) where
  qubits : Option Int := none
  gates : List (Gate R) := []
  measured : List Int := []
  all : Bool := false

/-- The number of qubits that a line declares. -/
def declaration (name : String) (declared : Bool) (value : List Char) (line : Nat) :
    Except (Failure R) Int := do
  if declared then throw (.ofMalformed (.qubitsTwice name) line)
  if !isSignedDigits value then throw (.ofMalformed (.qubitCount (String.ofList value)) line)
  let count ← integer value
  if count ≤ 0 then throw (.ofCircuit (.noQubits name count) line)
  if (maxQubits : Int) < count then throw (.ofCircuit (.tooManyQubits name count) line)
  pure count

/-- Takes in one line of the body. -/
def Draft.add (name : String) (d : Draft R) (l : SourceLine) : Except (Failure R) (Draft R) :=
  match declaredCount? l.text with
  | some value => do
    let count ← declaration name d.qubits.isSome value l.number
    pure { d with qubits := some count }
  | none =>
    if (dropWord "measure".toList (l.text.toList.map Char.toLower)).isSome then do
      match ← measure l with
      | none => pure { d with all := true }
      | some qubits => pure { d with measured := d.measured ++ qubits }
    else do
      let g ← gate l
      pure { d with gates := d.gates ++ [g] }

/-- The circuit of a draft. -/
def Draft.circuit (name : String) (line : Nat) (d : Draft R) : Except (Failure R) (Circuit R) :=
  match d.qubits with
  | none => .error (.ofCircuit (.undeclaredQubits name) line)
  | some count =>
    match make name count d.gates (if d.all then [] else d.measured) with
    | .ok c => .ok c
    | .error cause => .error ⟨cause, line⟩

/-- The circuit that a statement defines. -/
def ofStatement (s : Statement) : Except (Failure R) (Circuit R) := do
  match headName? s.text with
  | none => throw (.ofMalformed (.circuitHeader s.text) s.line)
  | some name =>
    let d ← s.body.foldlM (Draft.add name) {}
    d.circuit name s.line

end LabLang.Circuit
