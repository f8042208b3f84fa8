import LabLang.Payload.Basic
import LabLang.Number.Numeral
import LabLang.Scalar.Machine
import LabLang.Text.Word

/-! # Reading payloads

The text form of payloads: the usual notation of objects, lists, texts, numbers, `true`, `false` and `null`,
and the three special numbers `NaN`, `Infinity` and `-Infinity`. A number with neither a fraction nor an
exponent is an integer. When a field of an object is repeated, the last value counts and the first place. -/

namespace LabLang.Payload

open Number Text

/-- Why a text is no payload. -/
inductive Unreadable
  /-- It is not in the notation. -/
  | malformed
  /-- It holds an integer with more digits than are read. -/
  | digits (count : Nat)
deriving DecidableEq, Repr

/-- The text is not in the notation. -/
def refuse {α : Type} : Except Unreadable α := .error .malformed

/-- Blanks between the parts of the notation. -/
def isSpace (c : Char) : Bool := c == ' ' || c == '\t' || c == '\n' || c == '\r'

/-- The text without the blanks at its start. -/
def skipSpace (s : List Char) : List Char := s.dropWhile isSpace

/-! ### Numbers -/

/-- Digits of the Latin script at the start of a text. -/
def takeLatinDigits (s : List Char) : List Char × List Char :=
  (s.takeWhile Char.isDigit, s.dropWhile Char.isDigit)

/-- A fraction at the start of a text; without digits there is none. -/
def takeFraction (s : List Char) : Option (List Char) × List Char :=
  match s with
  | '.' :: r =>
    match takeLatinDigits r with
    | ([], _) => (none, s)
    | (ds, rest) => (some ds, rest)
  | _ => (none, s)

/-- An exponent at the start of a text; without digits there is none. -/
def takePower (s : List Char) : Option Int × List Char :=
  match s with
  | c :: r =>
    if c == 'e' || c == 'E' then
      let (negative, r) := takeSign r
      match takeLatinDigits r with
      | ([], _) => (none, s)
      | (ds, rest) =>
        let n : Int := Text.digitsValue ds
        (some (if negative then -n else n), rest)
    else (none, s)
  | [] => (none, s)

/-- The digits before the point: a lone zero, or digits that start with another one. -/
def takeWhole (s : List Char) : Option (List Char × List Char) :=
  match s with
  | '0' :: r => some (['0'], r)
  | _ =>
    match takeLatinDigits s with
    | ([], _) => none
    | (ds, rest) => some (ds, rest)

/-- A number. -/
def readNumber (s : List Char) : Except Unreadable (Payload Float × List Char) :=
  let (negative, r) := match s with
    | '-' :: r => (true, r)
    | r => (false, r)
  match takeWhole r with
  | none => refuse
  | some (whole, r) =>
    let (fraction, r) := takeFraction r
    let (power, r) := takePower r
    if fraction.isNone && power.isNone then
      if maxIntegerDigits < whole.length then .error (.digits whole.length)
      else
        let n : Int := Text.digitsValue whole
        .ok (.int (if negative then -n else n), r)
    else
      let digits := whole ++ fraction.getD []
      let x := ofDecimal (Text.digitsValue digits) (power.getD 0 - (fraction.getD []).length)
      .ok (.real (if negative then -x else x), r)

/-! ### Texts -/

/-- The value of four hexadecimal digits at the start of a text. -/
def takeHex (s : List Char) : Option (Nat × List Char) :=
  let value (c : Char) : Option Nat :=
    if c.isDigit then some (c.toNat - 48)
    else if 'a' ≤ c ∧ c ≤ 'f' then some (c.toNat - 87)
    else if 'A' ≤ c ∧ c ≤ 'F' then some (c.toNat - 55)
    else none
  match s with
  | a :: b :: c :: d :: r => do
    let a ← value a
    let b ← value b
    let c ← value c
    let d ← value d
    some (((a * 16 + b) * 16 + c) * 16 + d, r)
  | _ => none

/-- The character of an escape by its code; two halves of a pair are combined. -/
def takeCode (s : List Char) : Option (Char × List Char) := do
  let (high, r) ← takeHex s
  if 0xD800 ≤ high && high < 0xDC00 then
    match r with
    | '\\' :: 'u' :: r' =>
      match takeHex r' with
      | some (low, r') =>
        if 0xDC00 ≤ low && low < 0xE000 then
          some (Char.ofNat (0x10000 + (high - 0xD800) * 0x400 + (low - 0xDC00)), r')
        else some ('\uFFFD', r)
      | none => none
    | _ => some ('\uFFFD', r)
  else if 0xDC00 ≤ high && high < 0xE000 then some ('\uFFFD', r)
  else some (Char.ofNat high, r)

/-- The characters that stand for themselves after a backslash, or for a control character. -/
def escapes : List (Char × Char) :=
  [('"', '"'), ('\\', '\\'), ('/', '/'), ('b', '\x08'), ('f', '\x0c'), ('n', '\n'), ('r', '\r'), ('t', '\t')]

/-- The rest of a text after its opening quotation mark. The fuel bounds the number of characters. -/
def readChars : Nat → List Char → List Char → Except Unreadable (String × List Char)
  | 0, _, _ => refuse
  | fuel + 1, done, s =>
    match s with
    | '"' :: r => .ok (String.ofList done.reverse, r)
    | '\\' :: 'u' :: r =>
      match takeCode r with
      | some (c, r) => readChars fuel (c :: done) r
      | none => refuse
    | '\\' :: c :: r =>
      match escapes.lookup c with
      | some d => readChars fuel (d :: done) r
      | none => refuse
    | c :: r => if c.toNat < 32 || c == '\\' then refuse else readChars fuel (c :: done) r
    | [] => refuse

/-- A text. -/
def readText (s : List Char) : Except Unreadable (String × List Char) :=
  match s with
  | '"' :: r => readChars (r.length + 1) [] r
  | _ => refuse

/-! ### Words -/

/-- The words of the notation and their meaning. -/
def words : List (String × Payload Float) :=
  [("null", .null), ("true", .bool true), ("false", .bool false), ("NaN", .real Machine.nan),
    ("Infinity", .real Machine.infinity), ("-Infinity", .real (-Machine.infinity))]

/-- A word of the notation, or a number. -/
def readScalar (s : List Char) : Except Unreadable (Payload Float × List Char) :=
  match words.findSome? fun (w, p) => (dropWord w.toList s).map fun r => (p, r) with
  | some found => .ok found
  | none => readNumber s

/-! ### Lists and objects -/

/-- A list or an object of which some parts have been read. -/
inductive Frame
  | list (done : List (Payload Float))
  | object (done : List (String × Payload Float)) (name : String)

/-- What stands at the start of a value: a complete one, or the opening of a list or an object. -/
inductive Opening
  | complete (p : Payload Float)
  | opened (f : Frame)

/-- The name of a field and the colon behind it. -/
def readName (s : List Char) : Except Unreadable (String × List Char) := do
  let (name, r) ← readText s
  match skipSpace r with
  | ':' :: r => pure (name, skipSpace r)
  | _ => refuse

/-- The start of a value. -/
def readOpening (s : List Char) : Except Unreadable (Opening × List Char) :=
  match s with
  | '[' :: r =>
    match skipSpace r with
    | ']' :: r => .ok (.complete (.list []), r)
    | r => .ok (.opened (.list []), r)
  | '\x7b' :: r =>
    match skipSpace r with
    | '\x7d' :: r => .ok (.complete (.object []), r)
    | r => do
      let (name, r) ← readName r
      pure (.opened (.object [] name), r)
  | '"' :: _ => do
    let (t, r) ← readText s
    pure (.complete (.text t), r)
  | _ => do
    let (p, r) ← readScalar s
    pure (.complete p, r)

/-- Puts a complete value into the innermost frame: the frame waits for another part, or is complete. -/
def Frame.add (f : Frame) (p : Payload Float) (s : List Char) : Except Unreadable (Opening × List Char) :=
  match f, skipSpace s with
  | .list done, ',' :: r => .ok (.opened (.list (p :: done)), skipSpace r)
  | .list done, ']' :: r => .ok (.complete (.list (p :: done).reverse), r)
  | .object done name, ',' :: r => do
    let (next, r) ← readName (skipSpace r)
    pure (.opened (.object ((name, p) :: done) next), r)
  | .object done name, '\x7d' :: r =>
    .ok (.complete (.object (Table.ofPairs ((name, p) :: done).reverse)), r)
  | _, _ => refuse

/-- Reads on until the outermost value is complete. The open frames are given from the inside; the fuel bounds
the number of values. -/
def readOn : Nat → List Frame → Opening → List Char → Except Unreadable (Payload Float × List Char)
  | 0, _, _, _ => refuse
  | _ + 1, [], .complete p, s => .ok (p, s)
  | fuel + 1, f :: fs, .complete p, s => do
    let (next, r) ← f.add p s
    readOn fuel fs next r
  | fuel + 1, fs, .opened f, s => do
    let (next, r) ← readOpening s
    readOn fuel (f :: fs) next r

/-- Reads a payload that fills the text. -/
def read (text : String) : Except Unreadable (Payload Float) := do
  let s := skipSpace text.toList
  let (first, r) ← readOpening s
  let (p, r) ← readOn (2 * s.length + 2) [] first r
  if (skipSpace r).isEmpty then pure p else refuse

end LabLang.Payload
