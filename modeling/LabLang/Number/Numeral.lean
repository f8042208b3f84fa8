import LabLang.Text.Blank
import LabLang.Text.Digit

/-! # Reading numbers

Two grammars of decimal numbers. `takeUnsigned` reads the number token of the language, at the start of
a text and as long as possible: digits with an optional fraction and an exponent. `readNumeral` reads a
number that fills a whole text and also accepts white space around it, single underscores between digits and
the names of the infinities and of NaN; `readInteger` does so for integers. Digits of every script are
accepted in both.

A value read this way is kept exact, as `digits · 10 ^ exponent`, and rounded by whoever uses it. -/

namespace LabLang.Number

open LabLang.Text

/-- A number as it was written: exact, or one of the special values. -/
inductive Numeral
  | decimal (negative : Bool) (digits : Nat) (exponent : Int)
  | infinity (negative : Bool)
  | nan
deriving DecidableEq, Repr

/-- The digits at the start of a text, with the rest. -/
def takeDigits (s : List Char) : List Char × List Char := (s.takeWhile isDigit, s.dropWhile isDigit)

/-- The parts of an unsigned decimal: digits before and after the point, and the exponent. -/
structure Parts where
  whole : List Char
  fraction : List Char
  exponent : Int

/-- The digits and the exponent of the number. -/
def Parts.value (p : Parts) : Nat × Int :=
  (digitsValue (p.whole ++ p.fraction), p.exponent - p.fraction.length)

/-- A sign at the start of a text, with the rest. -/
def takeSign : List Char → Bool × List Char
  | '-' :: r => (true, r)
  | '+' :: r => (false, r)
  | r => (false, r)

/-- The exponent at the start of a text; without digits there is none and nothing is read. -/
def takeExponent (s : List Char) : Int × List Char :=
  match s with
  | c :: r =>
    if c == 'e' || c == 'E' then
      let (negative, r) := takeSign r
      match takeDigits r with
      | ([], _) => (0, s)
      | (ds, rest) => (if negative then -(digitsValue ds : Int) else digitsValue ds, rest)
    else (0, s)
  | [] => (0, [])

/-- The longest unsigned decimal at the start of a text: digits, optionally a point and more digits, or a
point and digits; then optionally an exponent. -/
def takeUnsigned (s : List Char) : Option (Parts × List Char) :=
  match takeDigits s with
  | ([], '.' :: r) =>
    match takeDigits r with
    | ([], _) => none
    | (fraction, r) => let (e, r) := takeExponent r; some (⟨[], fraction, e⟩, r)
  | ([], _) => none
  | (whole, '.' :: r) =>
    let (fraction, r) := takeDigits r
    let (e, r) := takeExponent r
    some (⟨whole, fraction, e⟩, r)
  | (whole, r) => let (e, r) := takeExponent r; some (⟨whole, [], e⟩, r)

/-- Removes underscores that stand between two digits; any other underscore is refused. -/
def dropUnderscores : List Char → Option (List Char)
  | '_' :: _ => none
  | a :: '_' :: r =>
    match r with
    | b :: _ => if isDigit a && isDigit b then (dropUnderscores r).map (a :: ·) else none
    | [] => none
  | a :: r => (dropUnderscores r).map (a :: ·)
  | [] => some []

/-- The text is the given word up to the case of its Latin letters. -/
def isWordIgnoringCase (word : String) (s : List Char) : Bool := s.map Char.toLower == word.toList

/-- Reads a number that fills the text. -/
def readNumeral (text : List Char) : Option Numeral :=
  match dropUnderscores (trimWhiteSpace text) with
  | none => none
  | some s =>
    let (negative, r) := takeSign s
    if isWordIgnoringCase "inf" r || isWordIgnoringCase "infinity" r then some (.infinity negative)
    else if isWordIgnoringCase "nan" r then some .nan
    else
      match takeUnsigned r with
      | some (parts, []) => some (.decimal negative parts.value.1 parts.value.2)
      | _ => none

/-! ### Integers -/

/-- The greatest number of digits of an integer in a text. -/
def maxIntegerDigits : Nat := 4300

/-- Why a text is no integer. -/
inductive IntegerFault
  /-- It has more digits than are read. -/
  | tooManyDigits (count : Nat)
  /-- It is not written as an integer. -/
  | notAnInteger
deriving DecidableEq, Repr

/-- The digits at the start of a text, single underscores between them left out. `none` if an underscore
follows another one or ends the digits. -/
def takeDigitGroups : List Char → Option (List Char × List Char)
  | [] => some ([], [])
  | '_' :: r =>
    match r with
    | c :: _ => if isDigit c then takeDigitGroups r else none
    | [] => none
  | c :: r => if isDigit c then (takeDigitGroups r).map fun (ds, rest) => (c :: ds, rest) else some ([], c :: r)

/-- Reads an integer that fills the text. The number of digits is judged before what follows them. -/
def readInteger (text : List Char) : Except IntegerFault Int :=
  let (negative, s) := takeSign (trimWhiteSpace text)
  match s with
  | '_' :: _ => .error .notAnInteger
  | _ =>
    match takeDigitGroups s with
    | none => .error .notAnInteger
    | some (ds, rest) =>
      if maxIntegerDigits < ds.length then .error (.tooManyDigits ds.length)
      else if ds.isEmpty || !rest.isEmpty then .error .notAnInteger
      else .ok (if negative then -(digitsValue ds : Int) else digitsValue ds)

end LabLang.Number
