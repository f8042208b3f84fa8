import LabLang.Number.Binary

/-! # The numbers that programs compute with

The interpreter is written for any number type `R` that offers the operations of `Scalar`. Programs run
on double-precision numbers (`LabLang.Scalar.Machine`); statements about exact arithmetic are made for
other number types with the same operations.

Comparisons are tests with a Boolean answer, so that a NaN is allowed to differ from itself, and a sum of
several terms is one operation: it is rounded once, however many terms it has. -/

namespace LabLang

/-- Why a sum of several terms has no value. -/
inductive SumFault
  /-- The terms are finite, but their sum so far is beyond the largest number. -/
  | overflow
  /-- Both infinities are among the terms. -/
  | opposedInfinities
deriving DecidableEq, Repr

/-- A number type with the operations that programs need. -/
class Scalar (R : Type) extends Add R, Sub R, Mul R, Div R, Neg R where
  nat : Nat → R
  /-- The quotient of two integers. -/
  ratio : Int → Nat → R
  /-- The number `digits · 10 ^ exponent`. -/
  decimal : Nat → Int → R
  pi : R
  sqrt : R → R
  exp : R → R
  log : R → R
  sin : R → R
  cos : R → R
  /-- The greatest integer that is not above the number. -/
  floor : R → Int
  isFinite : R → Bool
  lt : R → R → Bool
  le : R → R → Bool
  eq : R → R → Bool
  /-- The sum of the terms, rounded once. -/
  sum : List R → Except SumFault R
  /-- The machine number that stands for the number in texts. -/
  binary : R → Number.Binary

namespace Scalar

variable {R : Type} [Scalar R]

/-- An integer. -/
def int (n : Int) : R := if n < 0 then -(nat n.natAbs) else nat n.natAbs

def zero : R := nat 0

def one : R := nat 1

/-- The number without its sign. -/
def abs (x : R) : R := if lt x zero then -x else if eq x zero then zero else x

/-- The number is finite and has no fractional part. -/
def isInteger (x : R) : Bool := isFinite x && eq (int (floor x)) x

end Scalar

end LabLang
