import LabLang.Number.Bounded
import LabLang.Scalar.Basic
import LabLang.Table
import LabLang.Text.Column
import LabLang.Text.Quoted

/-! # Counts of outcomes

Counts become shares of their total, either by outcome or as a vector over all bitstrings of a width. The
distance of two distributions is half the sum of the differences of their shares: zero for equal ones, one
for distributions that share no outcome. A total that is not positive leaves no shares. -/

namespace LabLang

/-- The counts of outcomes. -/
abbrev Counts := Table Int

namespace Counts

open Scalar Number Text

/-- The sum of all counts. -/
def total (c : Counts) : Int := c.foldr (fun entry sum => entry.2 + sum) 0

section

variable {R : Type} [Scalar R]

/-- The share of each outcome in the total. -/
def shares (c : Counts) : Table R :=
  if c.total ≤ 0 then [] else Table.mapValues (fun n => ratio n c.total.toNat) c

/-! ### Vectors over bitstrings -/

/-- Why counts are not counts of bitstrings of a width. -/
inductive WidthFault
  | notBits (width : Nat) (outcome : String)
  /-- There is no bitstring of width zero. -/
  | noBits
deriving DecidableEq, Repr

def WidthFault.message : WidthFault → String
  | notBits width outcome => "Expected a " ++ intText width ++ "-bit outcome, got " ++ quote outcome
  | noBits => "invalid literal for int() with base 2: ''"

/-- The number that a bitstring writes, the last bit being the lowest. -/
def bitsValue (bits : List Char) : Nat := bits.foldl (fun n c => 2 * n + if c = '1' then 1 else 0) 0

/-- The place of an outcome in a vector. -/
def place (width : Nat) (outcome : String) : Except WidthFault Nat :=
  let bits := outcome.toList
  if bits.length ≠ width || bits.any (fun c => c != '0' && c != '1') then .error (.notBits width outcome)
  else if bits.isEmpty then .error .noBits
  else .ok (bitsValue bits)

/-- The share of each bitstring of a width in the total. Without a positive total the counts are left as they
are. -/
def vector (c : Counts) (width : Nat) : Except WidthFault (List R) := do
  let entries ← c.mapM fun (outcome, n) => do pure (← place width outcome, n)
  let written : Array R :=
    entries.foldl (fun v (i, n) => v.setIfInBounds i (int n)) (Array.replicate (twoPow width) zero)
  pure (if 0 < c.total then written.toList.map (· / int c.total) else written.toList)

/-! ### Distances -/

/-- The sum of the terms in order. -/
def plainSum (terms : List R) : R := terms.foldl (· + ·) zero

/-- One half. -/
def oneHalf : R := ratio 1 2

/-- The outcomes of two distributions, each once. -/
def outcomesOf (p q : Table R) : List String :=
  p.keys ++ q.keys.filter fun k => !p.has k

/-- The share of an outcome; that of an outcome which is not listed is zero. -/
def shareOf (p : Table R) (outcome : String) : R := (p.get? outcome).getD zero

/-- The distance of two distributions by outcome. -/
def distance (p q : Table R) : R :=
  oneHalf * plainSum ((outcomesOf p q).map fun k => abs (shareOf p k - shareOf q k))

/-- Two vectors whose places cannot be matched. -/
structure ShapeFault where
  left : Nat
  right : Nat
deriving DecidableEq, Repr

def ShapeFault.message (fault : ShapeFault) : String :=
  "operands could not be broadcast together with shapes (" ++ intText fault.left ++ ",) ("
    ++ intText fault.right ++ ",) "

/-- The places of two vectors, matched. A vector of length one stands for one of any length. -/
def align (p q : List R) : Except ShapeFault (List (R × R)) :=
  if p.length = q.length then .ok (p.zip q)
  else
    match p, q with
    | [x], _ => .ok (q.map fun y => (x, y))
    | _, [y] => .ok (p.map fun x => (x, y))
    | _, _ => .error ⟨p.length, q.length⟩

/-- The distance of two distributions as vectors. -/
def vectorDistance (p q : List R) : Except ShapeFault R :=
  (align p q).map fun pairs => oneHalf * plainSum (pairs.map fun (x, y) => abs (x - y))

/-- The distance of two tables of counts. -/
def countsDistance (a b : Counts) : R := distance (shares a : Table R) (shares b)

/-- The distance that sampling alone leads to: `1.5 · √(outcomes / (2 · shots))`, at most one. -/
def expectedDistance (shots outcomes : Int) : R :=
  if shots ≤ 0 || outcomes ≤ 0 then one
  else
    let d : R := ratio 3 2 * sqrt (int outcomes / (nat 2 * int shots))
    if lt d one then d else one

end

/-! ### Tables -/

/-- The outcomes, the most frequent ones first and equally frequent ones in ascending order. -/
def ranked (c : Counts) : Counts :=
  c.mergeSort fun a b => decide (b.2 < a.2) || (a.2 == b.2 && decide (a.1 ≤ b.1))

/-- Why a table of counts cannot be written. -/
inductive TableFault
  /-- The outcome has no share, because the total is not positive. -/
  | noShare (outcome : String)
  | unwritten (fault : WriteFault)
deriving DecidableEq, Repr

def TableFault.message : TableFault → String
  | noShare outcome => quote outcome
  | unwritten fault => fault.message

/-- The width of the column of outcomes. -/
def outcomeWidth (c : Counts) : Nat := (c.keys.map String.length).foldl max "Outcome".length

/-- A count as it stands in a table. -/
def countText (n : Int) : Except TableFault String := (bounded groupedText n).mapError .unwritten

/-- The line of an outcome. -/
def outcomeLine {R : Type} [Scalar R] (width : Nat) (outcome count : String) (share : R) : String :=
  padRight width outcome ++ " " ++ padLeft 10 count ++ " " ++ padLeft 10 (fixedText 4 (binary share))

/-- The line of an outcome and its count, with its share in the total. -/
def entryLine (R : Type) [Scalar R] (c : Counts) (entry : String × Int) : Except TableFault String := do
  let count ← countText entry.2
  match (shares c : Table R).get? entry.1 with
  | some share => pure (outcomeLine c.outcomeWidth entry.1 count share)
  | none => throw (.noShare entry.1)

/-- The lines above the outcomes, with the total as it is written. -/
def headLines (c : Counts) (total : String) : List String :=
  ["Total shots: " ++ total, "Unique outcomes: " ++ intText c.length, "",
    padRight c.outcomeWidth "Outcome" ++ " " ++ padLeft 10 "Count" ++ " " ++ padLeft 10 "Prob",
    rule '-' (c.outcomeWidth + 22)]

/-- The line below the outcomes, if some are not shown. -/
def hiddenLines (c : Counts) (top : Nat) : List String :=
  if top < c.length then ["... and " ++ intText (c.length - top) ++ " more outcomes"] else []

/-- The table of the most frequent outcomes. -/
def table (R : Type) [Scalar R] (c : Counts) (top : Nat) : Except TableFault (List String) := do
  let total ← countText c.total
  let lines ← (c.ranked.take top).mapM (entryLine R c)
  pure (c.headLines total ++ lines ++ c.hiddenLines top)

/-- The number of outcomes that a table shows. -/
def tableSize : Nat := 10

end Counts

end LabLang
