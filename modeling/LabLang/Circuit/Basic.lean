import LabLang.Failure
import LabLang.Table

/-! # Circuits

A circuit has a name, a number of qubits, gates in the order of application and the qubits that are
measured, in ascending order. `Circuit.make` admits known gates with the right number of finite angles
and of distinct qubits of the circuit, and measures all qubits if it is given none. -/

namespace LabLang

/-- A circuit. -/
structure Circuit (R : Type) where
  name : String
  qubits : Nat
  gates : List (Gate R)
  measured : List Nat

namespace Circuit

variable {R : Type} [Scalar R]

/-- The number of a qubit of a register. -/
def isQubit (count : Nat) (q : Int) : Bool := 0 ≤ q && q < count

/-- No element occurs twice. -/
def distinct (qs : List Int) : Bool := qs.eraseDups.length == qs.length

/-- The matrix of a gate. -/
def gateMatrix (g : Gate R) : Except (Cause R) (GateKind.Rows R) :=
  match g.kind? with
  | some kind => .ok (kind.rows g.angle)
  | none => .error (.circuit (.unknownGate g.name))

/-- The gate is known and fits a register of the given size. -/
def checkGate (circuit : String) (count : Nat) (g : Gate R) : Except (Cause R) Unit :=
  match g.kind? with
  | none => .error (.circuit (.unknownGate g.name))
  | some kind =>
    if g.qubits.length ≠ kind.qubitCount then
      .error (.circuit (.gateQubitCount kind g.qubits.length))
    else if g.params.length ≠ kind.angleCount then
      .error (.circuit (.gateAngleCount kind g.params.length))
    else if !g.params.all Scalar.isFinite then .error (.circuit (.paramNotFinite g))
    else
      match g.qubits.find? (fun q => !isQubit count q) with
      | some q => .error (.circuit (.gateOutOfRange g q circuit count))
      | none => if distinct g.qubits then .ok () else .error (.circuit (.repeatedQubit g))

/-- The qubits to measure, in ascending order: all of them if none is named. -/
def checkMeasured (circuit : String) (count : Nat) (measured : List Int) :
    Except (Cause R) (List Nat) :=
  if measured.isEmpty then .ok (List.range count)
  else
    match measured.find? (fun q => !isQubit count q) with
    | some q => .error (.circuit (.measureOutOfRange q circuit count))
    | none =>
      if distinct measured then .ok ((List.range count).filter fun q => measured.contains (q : Int))
      else .error (.circuit (.measuredTwice circuit))

/-- A circuit, if everything in it is valid. -/
def make (name : String) (qubits : Int) (gates : List (Gate R)) (measured : List Int) :
    Except (Cause R) (Circuit R) := do
  if qubits ≤ 0 then throw (.circuit (.noQubits name qubits))
  gates.forM (checkGate name qubits.toNat)
  let measured ← checkMeasured name qubits.toNat measured
  pure ⟨name, qubits.toNat, gates, measured⟩

/-- The number of applications of each gate name, in the order of first use. -/
def gateCounts (c : Circuit R) : Table Nat :=
  c.gates.foldl (fun t g => t.put g.name ((t.get? g.name).getD 0 + 1)) []

/-- Every gate is a Clifford gate. -/
def isClifford (c : Circuit R) : Bool := c.gates.all fun g => g.kind?.any GateKind.isClifford

end Circuit

end LabLang
