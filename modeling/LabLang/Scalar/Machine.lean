import LabLang.Number.Numeral
import LabLang.Scalar.Basic

/-! # Double-precision numbers

The operations of `Scalar` on doubles. The sum of several terms is kept in parts: doubles of ascending magnitude
that add up to it without an error. Every term is carried through the parts by rounded additions, each of which
leaves a remainder, and in the end the parts are rounded to one number. A sum overflows where one of these
additions does, even if the terms add up to a number that can be represented. -/

namespace LabLang.Machine

open Number

/-- The infinite double. -/
def infinity : Float := withSign false infinityBits

/-- The double that is no number. -/
def nan : Float := Float.ofBits 0x7FF8000000000000

/-- The double nearest to a natural number; below `2 ^ 53` it is that number. -/
def ofNat (n : Nat) : Float := if n < twoPow 53 then n.toUInt64.toFloat else ofFraction false n 1

/-- The double nearest to a number as it was written. -/
def ofNumeral : Numeral → Float
  | .decimal negative digits exponent =>
    if negative then -(ofDecimal digits exponent) else ofDecimal digits exponent
  | .infinity negative => if negative then -infinity else infinity
  | .nan => nan

/-! ### Sums -/

/-- The rounded sum of two numbers, and what is missing from it to the exact one if the first number is not the
smaller one in magnitude. -/
def addWithRest (x y : Float) : Float × Float :=
  let sum := x + y
  (sum, y - (sum - x))

/-- Carries a number through parts, from the least one on: the rounded sum of all, and the remainders on the way. -/
def carry (x : Float) : List Float → Float × List Float
  | [] => (x, [])
  | y :: parts =>
    let (sum, rest) := if x.abs < y.abs then addWithRest y x else addWithRest x y
    let (sum, rests) := carry sum parts
    (sum, if rest != 0 then rest :: rests else rests)

/-- A rounded sum with its remainder, below which the next part has been left out. A remainder of half a unit is
rounded to the even neighbour, unless that part says otherwise. -/
def roundHalf (sum rest next : Float) : Float :=
  if (rest < 0 && next < 0) || (0 < rest && 0 < next) then
    let away := sum + rest * 2
    if rest * 2 == away - sum then away else sum
  else sum

/-- Parts of descending magnitude and the number above them, rounded to one number. -/
def roundParts (x : Float) : List Float → Float
  | [] => x
  | y :: parts =>
    let (sum, rest) := addWithRest x y
    if rest != 0 then parts.head?.elim sum (roundHalf sum rest) else roundParts sum parts

/-- What has been seen of the terms of a sum: the parts of the finite ones since the last special term, from the
least one on, and the special ones. -/
structure Partial where
  parts : List Float := []
  positive : Bool := false
  negative : Bool := false
  undefined : Bool := false

/-- Takes in one more term. A special term makes the finite ones before it irrelevant. -/
def Partial.add (p : Partial) (x : Float) : Except SumFault Partial :=
  match Binary.ofFloat x with
  | .nan => .ok { p with parts := [], undefined := true }
  | .infinity false => .ok { p with parts := [], positive := true }
  | .infinity true => .ok { p with parts := [], negative := true }
  | .finite .. =>
    let (sum, rests) := carry x p.parts
    if !sum.isFinite then .error .overflow
    else .ok { p with parts := if sum == 0 then rests else rests ++ [sum] }

/-- The sum of all terms. -/
def Partial.result (p : Partial) : Except SumFault Float :=
  if p.positive && p.negative then .error .opposedInfinities
  else if p.undefined then .ok nan
  else if p.positive then .ok infinity
  else if p.negative then .ok (-infinity)
  else
    match p.parts.reverse with
    | [] => .ok 0
    | x :: parts => .ok (roundParts x parts)

/-- The sum of the terms, rounded to nearest. -/
def sum (xs : List Float) : Except SumFault Float := do
  let p ← xs.foldlM Partial.add {}
  p.result

/-- Doubles are the numbers that programs run on. -/
instance : Scalar Float where
  nat := ofNat
  ratio n d := ofFraction (n < 0) n.natAbs d
  decimal := ofDecimal
  pi := Float.ofBits 0x400921FB54442D18
  sqrt := Float.sqrt
  exp := Float.exp
  log := Float.log
  sin := Float.sin
  cos := Float.cos
  floor x := (Binary.ofFloat x).floor
  isFinite := Float.isFinite
  lt x y := decide (x < y)
  le x y := decide (x ≤ y)
  eq x y := x == y
  sum := sum
  binary := Binary.ofFloat

end LabLang.Machine
