import LabLang.Number.Written
import LabLang.State.Amplitude
import LabLang.Text.Blank

/-! # Gates

The kinds of gates, with the number of qubits and angles each takes and its matrix, and gates as they
stand in a circuit. A matrix is written in the basis of the listed qubits, the first one most
significant. -/

namespace LabLang

/-- The supported gates. -/
inductive GateKind
  | i | h | x | y | z | s | sdg | t | tdg | rx | ry | rz | cnot | cz | swap
deriving DecidableEq, Repr

namespace GateKind

/-- All gates. -/
def all : List GateKind := [i, h, x, y, z, s, sdg, t, tdg, rx, ry, rz, cnot, cz, swap]

/-- The name a gate is registered under. -/
def name : GateKind → String
  | i => "I" | h => "H" | x => "X" | y => "Y" | z => "Z" | s => "S" | sdg => "SDG" | t => "T"
  | tdg => "TDG" | rx => "RX" | ry => "RY" | rz => "RZ" | cnot => "CNOT" | cz => "CZ" | swap => "SWAP"

/-- The number of qubits that the gate acts on. -/
def qubitCount : GateKind → Nat
  | cnot | cz | swap => 2
  | _ => 1

/-- The number of angles that the gate takes. -/
def angleCount : GateKind → Nat
  | rx | ry | rz => 1
  | _ => 0

/-- The gate maps products of Pauli operators to such products. -/
def isClifford : GateKind → Bool
  | t | tdg | rx | ry | rz => false
  | _ => true

/-- Other spellings of gate names. -/
def otherNames : List (String × GateKind) :=
  [("CX", cnot), ("ID", i), ("SDAG", sdg), ("TDAG", tdg)]

/-- The capital form of a letter, as far as names of gates can tell: Latin letters, and the two letters
beyond them whose capital is Latin. -/
def capital (c : Char) : Char :=
  if c.toNat = 0x131 then 'I' else if c.toNat = 0x17F then 'S' else c.toUpper

/-- Finds a gate by its name, in any case and with blanks around it. -/
def ofName? (name : String) : Option GateKind :=
  let key := String.ofList ((Text.trim name.toList).map capital)
  match otherNames.find? (·.1 == key) with
  | some (_, kind) => some kind
  | none => all.find? (·.name == key)

/-! ### Matrices -/

section

variable {R : Type} [Scalar R]

/-- One over the root of two. -/
def rootHalf : R := Scalar.one / Scalar.sqrt (Scalar.nat 2)

/-- The square matrix with the given rows. -/
abbrev Rows (R : Type) := List (List (Amplitude R))

/-- The diagonal matrix of a one-qubit gate. -/
def diagonal (a b : Amplitude R) : Rows R := [[a, 0], [0, b]]

/-- The matrix of a gate; gates without an angle ignore it. -/
def rows (kind : GateKind) (angle : R) : Rows R :=
  let half := angle / Scalar.nat 2
  let quarter := (Scalar.pi : R) / Scalar.nat 4
  match kind with
  | i => diagonal 1 1
  | h =>
    let r := Amplitude.ofReal (rootHalf : R)
    [[r, r], [r, -r]]
  | x => [[0, 1], [1, 0]]
  | y => [[0, Amplitude.imaginary (-Scalar.one)], [Amplitude.imaginary Scalar.one, 0]]
  | z => diagonal 1 (-1)
  | s => diagonal 1 (Amplitude.imaginary Scalar.one)
  | sdg => diagonal 1 (Amplitude.imaginary (-Scalar.one))
  | t => diagonal 1 (Amplitude.phase quarter)
  | tdg => diagonal 1 (Amplitude.phase quarter).conj
  | rx =>
    let c := Amplitude.ofReal (Scalar.cos half)
    let s := Amplitude.imaginary (-Scalar.sin half)
    [[c, s], [s, c]]
  | ry =>
    let c := Amplitude.ofReal (Scalar.cos half)
    [[c, Amplitude.ofReal (-Scalar.sin half)], [Amplitude.ofReal (Scalar.sin half), c]]
  | rz => diagonal (Amplitude.phase half).conj (Amplitude.phase half)
  | cnot => [[1, 0, 0, 0], [0, 1, 0, 0], [0, 0, 0, 1], [0, 0, 1, 0]]
  | cz => [[1, 0, 0, 0], [0, 1, 0, 0], [0, 0, 1, 0], [0, 0, 0, -1]]
  | swap => [[1, 0, 0, 0], [0, 0, 1, 0], [0, 1, 0, 0], [0, 0, 0, 1]]

end

end GateKind

/-! ### Gates of a circuit -/

/-- A gate as it stands in a circuit: its name as it was given, the qubits in the order of the matrix and
the angles. -/
structure Gate (R : Type) where
  name : String
  qubits : List Int
  params : List R := []

namespace Gate

variable {R : Type} [Scalar R]

/-- The kind of the gate, if its name is known. -/
def kind? (g : Gate R) : Option GateKind := GateKind.ofName? g.name

/-- The first angle, or zero. -/
def angle (g : Gate R) : R := g.params.headD Scalar.zero

/-- The gate as a call: angles first, then qubits. -/
def text (g : Gate R) : String :=
  let args := g.params.map (fun p => Number.shortText (Scalar.binary p)) ++ g.qubits.map Number.intText
  g.name ++ "(" ++ ", ".intercalate args ++ ")"

end Gate

end LabLang
