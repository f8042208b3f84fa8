import LabLang.Failure
import LabLang.Random.Binomial
import LabLang.State.Outcome

/-! # Sampling outcomes

All shots of a measurement are drawn at once, as one multinomial draw over the outcomes. Only outcomes that
were observed are reported, in ascending order, and their counts add up to the number of shots. -/

namespace LabLang.Random

open Scalar

variable {R : Type} [Scalar R]

/-- A sum that carries along what rounding has lost so far. -/
def compensatedSum : List R → R
  | [] => zero
  | x :: xs =>
    (xs.foldl (fun (acc : R × R) x =>
      let y := x - acc.2
      let t := acc.1 + y
      (t, (t - acc.1) - y)) (x, zero)).1

/-- The greatest number of shots of one measurement. -/
def maxShots : Int := twoPow 63 - 1

/-- The outcomes can be drawn from: chances between zero and one which do not exceed one together. -/
def checkChances (probs : List R) (shots : Int) : Except Internal Unit :=
  if shots ≤ 0 then .error (.shotsNotPositive shots)
  else if maxShots < shots then .error .shotsTooLarge
  else if probs.isEmpty then .error .noProbabilities
  else if !probs.all (fun p => le zero p && le p one) then .error .probabilityRange
  else if lt (one + constant 1 12) (compensatedSum probs.dropLast) then .error .probabilitySum
  else .ok ()

/-- The outcomes that were observed, with their counts. -/
def observed (width : Nat) (counts : List Nat) : Table Nat :=
  (counts.zipIdx.filter (0 < ·.1)).map fun (count, i) => (State.bitstring width i, count)

/-- Draws outcomes and counts them. -/
def sample (probs : List R) (width : Nat) (shots : Int) (g : Stream) :
    Except Internal (Table Nat × Stream) := do
  checkChances probs shots
  let (counts, g) := multinomial probs one shots.toNat g
  pure (observed width counts, g)

/-! ### Measurements of a circuit -/

/-- The exact probabilities of the outcomes on the measured qubits. -/
def outcomes (c : Circuit R) : Except (Cause R) (List R) := do
  let state ← State.ofCircuit c
  pure (State.marginalize (State.probabilities state) c.qubits c.measured).toList

/-- The counts of a number of measurements of a circuit. -/
def measure (c : Circuit R) (shots : Int) (g : Stream) : Except (Cause R) (Table Nat) := do
  let probs ← outcomes c
  match sample probs c.measured.length shots g with
  | .ok (counts, _) => pure counts
  | .error fault => throw (.internal fault)

/-- Probabilities that are not above this bound are not reported. -/
def reportedAbove : R := constant 1 9

/-- The probabilities that are reported, by outcome. -/
def reported (width : Nat) (probs : List R) : Table R :=
  (probs.zipIdx.filter (fun p => lt reportedAbove p.1)).map fun (p, i) => (State.bitstring width i, p)

end LabLang.Random
