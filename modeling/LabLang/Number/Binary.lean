import LabLang.Number.Power

/-! # The exact value of a machine number

A double-precision number is a NaN, an infinity or a value `± mantissa · 2 ^ exponent`. Texts of
numbers, sums and conversions are computed on this exact form in integer arithmetic and rounded once:
`roundDiv` rounds a quotient to the nearest integer and `nearestBits` to the nearest double, ties going
to the even neighbour in both. -/

namespace LabLang.Number

/-- The exact value of a double-precision number. -/
inductive Binary
  | nan
  | infinity (negative : Bool)
  | finite (negative : Bool) (mantissa : Nat) (exponent : Int)
deriving DecidableEq, Repr

/-! ### Rounding -/

/-- The integer nearest to `num / den`; a half goes to the even neighbour. -/
def roundDiv (num den : Nat) : Nat :=
  let q := num / den
  let r := num % den
  if 2 * r < den then q else if den < 2 * r then q + 1 else if q % 2 = 0 then q else q + 1

/-- The largest `k` with `2 ^ k ≤ num / den`, for positive arguments. -/
def floorLog2 (num den : Nat) : Int :=
  let a := num.log2
  let b := den.log2
  if den * twoPow a ≤ num * twoPow b then (a : Int) - b else (a : Int) - b - 1

/-- The bits of the infinite double. -/
def infinityBits : Nat := 0x7FF0000000000000

/-- The bits of the non-negative double nearest to `num / den`, for positive `den`. -/
def nearestBits (num den : Nat) : Nat :=
  if num = 0 then 0
  else
    let q := max (floorLog2 num den - 52) (-1074)
    let m := roundDiv (num * twoPow (-q).toNat) (den * twoPow q.toNat)
    min ((q + 1074).toNat * twoPow 52 + m) infinityBits

/-- The double whose magnitude has the given bits. -/
def withSign (negative : Bool) (bits : Nat) : Float :=
  Float.ofBits (UInt64.ofNat (if negative then twoPow 63 + bits else bits))

/-- The double nearest to `± num / den`. -/
def ofFraction (negative : Bool) (num den : Nat) : Float := withSign negative (nearestBits num den)

/-- The double nearest to `digits · 10 ^ exponent`. Exponents that lead beyond the range of doubles
are settled without computing the power. -/
def ofDecimal (digits : Nat) (exponent : Int) : Float :=
  let size := (digits.log2 : Int) + 3 * exponent
  if digits = 0 then ofFraction false 0 1
  else if 0 < exponent && 1024 < size then withSign false infinityBits
  else if exponent < 0 && size < -1100 then ofFraction false 0 1
  else ofFraction false (digits * tenPow exponent.toNat) (tenPow (-exponent).toNat)

/-! ### Decoding -/

/-- The exact value of a double. -/
def Binary.ofFloat (x : Float) : Binary :=
  let bits := x.toBits.toNat
  let negative := twoPow 63 ≤ bits
  let e : Nat := bits / twoPow 52 % twoPow 11
  let f : Nat := bits % twoPow 52
  if e = 2047 then if f = 0 then .infinity negative else .nan
  else if e = 0 then .finite negative f (-1074)
  else .finite negative (twoPow 52 + f) ((e : Int) - 1075)

/-- The greatest integer that is not above the value; zero for a NaN or an infinity. -/
def Binary.floor : Binary → Int
  | .finite negative m e =>
    let num : Int := if negative then -(m * twoPow e.toNat : Nat) else (m * twoPow e.toNat : Nat)
    num.fdiv (twoPow (-e).toNat)
  | _ => 0

/-- The value without its fractional part; zero for a NaN or an infinity. -/
def Binary.truncate : Binary → Int
  | .finite negative m e =>
    let n : Nat := m * twoPow e.toNat / twoPow (-e).toNat
    if negative then -(n : Int) else n
  | _ => 0

/-- The value is an integer. -/
def Binary.isInteger : Binary → Bool
  | .finite _ m e => m * twoPow e.toNat % twoPow (-e).toNat == 0
  | _ => false

end LabLang.Number
