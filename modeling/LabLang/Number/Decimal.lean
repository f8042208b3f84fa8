import LabLang.Number.Binary

/-! # The shortest decimal of a machine number

`shortest` finds the decimal with the fewest digits that reads back as a given double, and of those the
one nearest to it; between two equally near ones the even one. `readsBack` states when a decimal reads
back: it lies in the interval of reals that round to the double. -/

namespace LabLang.Number

/-- The number `digits · 10 ^ exponent`. -/
structure Decimal where
  digits : Nat
  exponent : Int
deriving DecidableEq, Repr

/-- Compares `a · 10 ^ i` with `n · 2 ^ j`. -/
def compareScaled (a : Nat) (i : Int) (n : Nat) (j : Int) : Ordering :=
  compare (a * tenPow i.toNat * twoPow (-j).toNat) (n * twoPow j.toNat * tenPow (-i).toNat)

/-- The decimal lies among the reals that round to the double `m · 2 ^ q`. Below a power of two the
interval is half as wide; its ends belong to it exactly when `m` is even. -/
def readsBack (m : Nat) (q : Int) (d : Decimal) : Bool :=
  let narrow := m == twoPow 52 && -1074 < q
  let low := compareScaled d.digits d.exponent (if narrow then 4 * m - 1 else 4 * m - 2) (q - 2)
  let high := compareScaled d.digits d.exponent (4 * m + 2) (q - 2)
  let ends := m % 2 == 0
  (low == .gt || (ends && low == .eq)) && (high == .lt || (ends && high == .eq))

/-- The least `k` with `m · 2 ^ q < 10 ^ k`, for positive `m`: an estimate from the binary logarithm,
corrected upwards. -/
def decimalScale (m : Nat) (q : Int) : Int :=
  let start := ((m.log2 : Int) + q) * 30102 / 100000 - 1
  ((List.range 5).find? fun (i : Nat) => compareScaled 1 (start + i) m q == .gt).elim start fun i => start + i

/-- The point of the grid `10 ^ g` that is nearest to the double among the two that enclose it,
provided it reads back. -/
def onGrid (m : Nat) (q : Int) (g : Int) : Option Decimal :=
  let num := m * twoPow q.toNat * tenPow (-g).toNat
  let den := twoPow (-q).toNat * tenPow g.toNat
  let below : Decimal := ⟨num / den, g⟩
  let above : Decimal := ⟨num / den + 1, g⟩
  match readsBack m q below, readsBack m q above with
  | true, true => some ⟨roundDiv num den, g⟩
  | true, false => some below
  | false, true => some above
  | false, false => none

/-- The decimal with the fewest digits that reads back as the double `m · 2 ^ q`; the exact value if
seventeen digits were not enough. -/
def shortest (m : Nat) (q : Int) : Decimal :=
  if m = 0 then ⟨0, 0⟩
  else
    let k := decimalScale m q
    ((List.range 17).findSome? fun (n : Nat) => onGrid m q (k - 1 - n)).getD
      ⟨m * twoPow q.toNat * Nat.pow 5 (-q).toNat, -((-q).toNat : Int)⟩

/-- The double `m · 2 ^ q` rounded to the given number of significant digits. -/
def significant (places : Nat) (m : Nat) (q : Int) : Decimal :=
  if m = 0 then ⟨0, 0⟩
  else
    let g := decimalScale m q - places
    ⟨roundDiv (m * twoPow q.toNat * tenPow (-g).toNat) (twoPow (-q).toNat * tenPow g.toNat), g⟩

end LabLang.Number
