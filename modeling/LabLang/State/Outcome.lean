import LabLang.State.Evolution

/-! # Probabilities of outcomes

The weight of a basis state is the squared modulus of its amplitude; probabilities are weights divided by
their sum. Measuring some qubits adds up the probabilities of all basis states that agree on them. An
outcome is written as a bitstring with the lowest measured qubit rightmost. -/

namespace LabLang.State

variable {R : Type} [Scalar R]

/-- The sum of `f start, …, f (start + length - 1)`: halves are summed first, so that equal terms add up
without loss. The depth bounds the number of halvings. -/
def balancedSum (f : Nat → R) : Nat → Nat → Nat → R
  | 0, _, _ => Scalar.zero
  | depth + 1, start, length =>
    if length = 0 then Scalar.zero
    else if length = 1 then f start
    else
      balancedSum f depth start (length / 2)
        + balancedSum f depth (start + length / 2) (length - length / 2)

/-- The sum of the first `length` terms. -/
def total (f : Nat → R) (length : Nat) : R := balancedSum f (length.log2 + 2) 0 length

/-- The probabilities of the basis states. -/
def probabilities (state : Array (Amplitude R)) : Array R :=
  let weights := state.map Amplitude.weight
  let sum := total (fun i => weights.getD i Scalar.zero) weights.size
  weights.map (· / sum)

/-- A basis state whose listed qubits have the values of the bits of `x`, lowest first. -/
def spreadBits : List Nat → Nat → Nat → Nat
  | [], _, i => i
  | q :: qs, x, i => spreadBits qs (x / 2) (i + (x % 2) <<< q)

/-- The probabilities of the outcomes on some qubits, given those of all basis states. Entry `x` belongs to
the outcome in which the `j`-th lowest measured qubit has the value of bit `j` of `x`. -/
def marginalize (probs : Array R) (qubits : Nat) (measured : List Nat) : Array R :=
  if measured.length = qubits then probs
  else
    let kept := (List.range qubits).filter measured.contains
    let summed := (List.range qubits).filter fun q => !measured.contains q
    Array.ofFn fun x : Fin (twoPow kept.length) =>
      let base := spreadBits kept x 0
      total (fun y => probs.getD (spreadBits summed y base) Scalar.zero) (twoPow summed.length)

/-- The lowest `width` bits of a number, the highest one first. -/
def bits : Nat → Nat → List Char
  | 0, _ => []
  | width + 1, x => bits width (x / 2) ++ [if x % 2 = 0 then '0' else '1']

/-- An outcome as a bitstring; numbers that need more bits than the width get them. -/
def bitstring (width x : Nat) : String :=
  String.ofList (bits (max width (if x = 0 then 1 else x.log2 + 1)) x)

end LabLang.State
