import LabLang.Number.Decimal

/-! # Numbers as text

How numbers are written: with the fewest digits that read back (`shortText`), the same without a
fractional part where there is none (`plainText`), with six significant digits (`generalText`), with a
fixed number of places (`fixedText`), as a percentage, and integers with their thousands set apart. -/

namespace LabLang.Number

/-- The decimal digits of a natural number. -/
def natDigits (n : Nat) : List Char := Nat.toDigits 10 n

/-- An integer in decimal. -/
def intText (n : Int) : String :=
  String.ofList (if n < 0 then '-' :: natDigits n.natAbs else natDigits n.natAbs)

/-- Zeros on the left up to a width. -/
def padZeros (width : Nat) (ds : List Char) : List Char :=
  List.replicate (width - ds.length) '0' ++ ds

/-- Digits without the zeros at their end. -/
def dropEndZeros (ds : List Char) : List Char := (ds.reverse.dropWhile (· == '0')).reverse

/-- A decimal exponent: a sign and at least two digits. -/
def exponentText (e : Int) : List Char :=
  'e' :: (if e < 0 then '-' else '+') :: padZeros 2 (natDigits e.natAbs)

/-- The layout of numbers: a leading digit of place `10 ^ e` with `plainFrom ≤ e < plainBelow` is
written positionally, any other with an exponent. `pointZero` writes `.0` after a positional integer. -/
structure Layout where
  plainFrom : Int
  plainBelow : Int
  pointZero : Bool

/-- Lays out a decimal. -/
def Layout.write (l : Layout) (d : Decimal) : List Char :=
  let ds := natDigits d.digits
  let kept := dropEndZeros ds
  let e := d.exponent + ds.length - 1
  if d.digits = 0 then if l.pointZero then ['0', '.', '0'] else ['0']
  else if l.plainFrom ≤ e && e < l.plainBelow then
    if e < 0 then '0' :: '.' :: (List.replicate (-e - 1).toNat '0' ++ kept)
    else
      let whole := kept.take (e.toNat + 1)
      let whole := whole ++ List.replicate (e.toNat + 1 - whole.length) '0'
      match kept.drop (e.toNat + 1) with
      | [] => if l.pointZero then whole ++ ['.', '0'] else whole
      | fraction => whole ++ '.' :: fraction
  else
    match kept with
    | first :: second :: more => first :: '.' :: second :: more ++ exponentText e
    | short => short ++ exponentText e

/-- Puts the sign in front. -/
def signed (negative : Bool) (s : List Char) : String :=
  String.ofList (if negative then '-' :: s else s)

/-- Numbers are written positionally from `10 ^ -4` to below `10 ^ 16`, always with a fraction. -/
def shortLayout : Layout := ⟨-4, 16, true⟩

/-- Six significant digits are written positionally from `10 ^ -4` to below `10 ^ 6`. -/
def generalLayout : Layout := ⟨-4, 6, false⟩

/-- A text for the values that are no finite numbers, and `write` for the others. -/
def Binary.text (b : Binary) (write : Nat → Int → List Char) : String :=
  match b with
  | .nan => "nan"
  | .infinity negative => signed negative ['i', 'n', 'f']
  | .finite negative m q => signed negative (write m q)

/-- The fewest digits that read back. -/
def shortText (b : Binary) : String := b.text fun m q => shortLayout.write (shortest m q)

/-- The bound below which integers are written without a fraction. -/
def plainBound : Nat := tenPow 21

/-- An integer of magnitude below `plainBound` in full and without a fraction; any other number with
the fewest digits that read back. -/
def plainText (b : Binary) : String :=
  if b.isInteger && b.truncate.natAbs < plainBound then intText b.truncate else shortText b

/-- Six significant digits. -/
def generalText (b : Binary) : String := b.text fun m q => generalLayout.write (significant 6 m q)

/-- A fixed number of places after the point. -/
def fixedText (places : Nat) (b : Binary) : String :=
  b.text fun m q =>
    let ds := padZeros (places + 1)
      (natDigits (roundDiv (m * twoPow q.toNat * tenPow places) (twoPow (-q).toNat)))
    let whole := ds.length - places
    if places = 0 then ds else ds.take whole ++ '.' :: ds.drop whole

/-- Digits in groups of three, separated by commas. -/
def groupThousands (ds : List Char) : List Char :=
  match ds with
  | a :: b :: c :: d :: more =>
    let rest := groupThousands (b :: c :: d :: more)
    if (b :: c :: d :: more).length % 3 = 0 then a :: ',' :: rest else a :: rest
  | short => short

/-- An integer with its thousands set apart. -/
def groupedText (n : Int) : String := signed (n < 0) (groupThousands (natDigits n.natAbs))

end LabLang.Number
