import LabLang.Circuit.Basic
import LabLang.State.Tensor

/-! # States and gates

The state of a register of `n` qubits is a vector of `2 ^ n` amplitudes; bit `q` of an index is the value
of qubit `q`. To apply a gate, the state is taken as a tensor in which axis `n - 1 - q` belongs to qubit `q`; the
gate, as a tensor with one axis for every bit of a row and of a column, is contracted with the axes of its
qubits, which are then moved back to their places. -/

namespace LabLang.State

/-- Applies a matrix, given by its rows, to the listed qubits. -/
def applyMatrix {A : Type} [Zero A] [Add A] [Mul A] (rows : List (List A)) (qubits : List Nat)
    (state : Array A) : Array A :=
  let n := state.size.log2
  let k := qubits.length
  let axes := qubits.map fun q => n - 1 - q
  let gate := Tensor.ofVector (2 * k) rows.flatten.toArray
  ((gate.contract (List.range' k k) axes (.ofVector n state)).moveAxes (List.range k) axes).toVector

variable {R : Type} [Scalar R]

/-- Applies a gate; one whose name is unknown does nothing. -/
def applyGate (g : Gate R) (state : Array (Amplitude R)) : Array (Amplitude R) :=
  match g.kind? with
  | some kind => applyMatrix (kind.rows g.angle) (g.qubits.map Int.toNat) state
  | none => state

/-- The state in which every qubit is zero. -/
def initial (qubits : Nat) : Array (Amplitude R) :=
  Array.ofFn fun i : Fin (twoPow qubits) => if i.val = 0 then 1 else 0

/-- The state after all gates of a circuit. -/
def run (c : Circuit R) : Array (Amplitude R) :=
  c.gates.foldl (fun s g => applyGate g s) (initial c.qubits)

/-- The state after all gates, of a circuit that is not too large. -/
def ofCircuit (c : Circuit R) : Except (Cause R) (Array (Amplitude R)) :=
  if maxQubits < c.qubits then .error (.circuit (.tooManyQubits c.name c.qubits)) else .ok (run c)

end LabLang.State
