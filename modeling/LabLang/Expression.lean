import LabLang.Literal
import LabLang.Random.Stream
import LabLang.Store
import LabLang.Text.Call

/-! # Branch expressions

An expression is a literal, a name, a call of a built-in function or one binary operation between two
operands, with blanks around the operator; an operand is a literal or a name. Any other text stands for
itself. -/

namespace LabLang.Expression

open Text Scalar

variable {R : Type} [Scalar R]

/-- The value of a literal or a bound name; none if the text is neither. -/
def operand? (vars : Table (Value R)) (text : List Char) : Except (Cause R) (Option (Value R)) := do
  let s := trim text
  match ← Literal.read? s with
  | some v => pure (some v)
  | none =>
    if isName s then
      match vars.get? (String.ofList s) with
      | some v => pure (some v)
      | none => throw (.undefined .variableUse (String.ofList s))
    else pure none

/-! ### Binary operations -/

/-- A numeric operation on uncertain quantities. -/
def combine (op : Char) (a b : Quantity R) : Except (Cause R) (Quantity R) :=
  if op = '+' then a.add b
  else if op = '-' then a.subtract b
  else if op = '*' then a.multiply b
  else a.divide b

/-- A numeric operation on plain numbers. -/
def arithmetic (op : Char) (a b : R) : Except (Cause R) R :=
  if op = '+' then .ok (a + b)
  else if op = '-' then .ok (a - b)
  else if op = '*' then .ok (a * b)
  else if eq b zero then .error (.numeric .divisionByZero)
  else .ok (a / b)

/-- Applies an operator: texts can be joined, numbers and uncertain quantities combined. -/
def applyOperator (op : Char) (left right : Value R) : Except (Cause R) (Value R) :=
  match left, right with
  | .number a, .number b => (arithmetic op a b).map .number
  | _, _ =>
    if left.isNumeric && right.isNumeric then do
      let a ← left.quantity
      let b ← right.quantity
      let q ← combine op a b
      pure (.uncertain q none)
    else
      match left, right with
      | .text a, .text b =>
        if op = '+' then .ok (.text (a ++ b))
        else .error (.numeric (.operands op left.kind right.kind))
      | _, _ => .error (.numeric (.operands op left.kind right.kind))

/-- The character is an operator. -/
def isOperator (c : Char) : Bool := ['-', '+', '*', '/'].contains c

/-- An operator between blanks at the start of a text, with what follows it on one line. -/
def takeOperator (s : List Char) : Option (Char × List Char) :=
  match trimLeft s with
  | op :: c :: r =>
    let right := trimLeft r
    if isOperator op && isBlank c && !right.isEmpty && !right.contains '\n' then some (op, right) else none
  | _ => none

/-- The first place where a text splits into a left side on one line, an operator between blanks and a right
side. The left side read so far is given in reverse. -/
def splitOperator : List Char → List Char → Option (List Char × Char × List Char)
  | _, [] => none
  | left, c :: r =>
    match (if isBlank c && !left.isEmpty then takeOperator (c :: r) else none) with
    | some (op, right) => some (left.reverse, op, right)
    | none => if c = '\n' then none else splitOperator (c :: left) r

/-! ### Built-in functions -/

/-- The number of points in the unit circle among the next `n` points of the square, added to `hits`. -/
def countHits : Nat → Nat → Random.Stream → Nat × Random.Stream
  | 0, hits, g => (hits, g)
  | n + 1, hits, g =>
    let (x, g) : R × Random.Stream := g.uniform
    let (y, g) : R × Random.Stream := g.uniform
    countHits n (if le (x * x + y * y) one then hits + 1 else hits) g

/-- The same for points that are drawn in batches of a given size. -/
def countInBatches (batch remaining hits : Nat) (g : Random.Stream) : Nat × Random.Stream :=
  if remaining = 0 || batch = 0 then (hits, g)
  else
    let size := min remaining batch
    let (hits, g) := countHits (R := R) size hits g
    countInBatches batch (remaining - size) hits g
termination_by remaining
decreasing_by simp_all; omega

/-- Points that are drawn at a time. -/
def batchSize : Nat := 1000000

/-- The estimate of pi from the hits among `n` points. -/
def estimate (hits n : Nat) : Except (Cause R) (Value R) := do
  let p : R := ratio hits n
  let q ← Quantity.make (nat 4 * p) (nat 4 * sqrt (p * (one - p) / nat n))
  pure (.uncertain q none)

/-- Estimates pi from random points. -/
def estimatePi (g : Random.Stream) (args : List (Value R)) : Except (Cause R) (Value R) :=
  match args with
  | [.number samples] =>
    if isInteger samples && lt zero samples && le samples (nat maxSamples) then
      let n := (floor samples).toNat
      estimate (countInBatches (R := R) batchSize n 0 g).1 n
    else .error (.numeric (.estimateSamples samples))
  | _ => .error (.numeric .estimateArguments)

/-- The mean of values: of plain numbers a number, otherwise an uncertain quantity. -/
def meanValue (values : List (Value R)) : Except (Cause R) (Value R) :=
  match values.mapM Value.number? with
  | some xs => do
    let x ← Quantity.total xs
    pure (.number (x / nat xs.length))
  | none => do
    let qs ← values.mapM Value.quantity
    let q ← Quantity.mean qs
    pure (.uncertain q none)

/-- The mean of the arguments. -/
def average (args : List (Value R)) : Except (Cause R) (Value R) :=
  if args.isEmpty then .error (.numeric .averageOfNothing)
  else if !args.all Value.isNumeric then .error (.numeric .averageOfOthers)
  else meanValue args

/-- The built-in functions. -/
inductive Builtin
  | estimatePi | average
deriving DecidableEq, Repr

/-- The built-in function of a name. -/
def Builtin.ofName? (name : List Char) : Option Builtin :=
  if name = "estimate_pi".toList then some .estimatePi
  else if name = "average".toList || name = "mean".toList then some .average
  else none

/-- Calls a built-in function. -/
def Builtin.call (b : Builtin) (g : Random.Stream) (args : List (Value R)) :
    Except (Cause R) (Value R) :=
  match b with
  | .estimatePi => Expression.estimatePi g args
  | .average => Expression.average args

/-! ### Evaluation -/

/-- The values of all operands, up to the first one that is none. -/
def operands? (vars : Table (Value R)) : List (List Char) → Except (Cause R) (Option (List (Value R)))
  | [] => .ok (some [])
  | text :: rest => do
    match ← operand? vars text with
    | none => pure none
    | some v =>
      let vs ← operands? vars rest
      pure (vs.map (v :: ·))

/-- The value of a call. A call whose arguments are not all operands stands for itself. -/
def evaluateCall (vars : Table (Value R)) (g : Random.Stream) (s name inner : List Char) :
    Except (Cause R) (Value R) :=
  match Builtin.ofName? name with
  | none => .error (.undefined .functionUse (String.ofList name))
  | some b => do
    match ← operands? vars (arguments inner) with
    | some args => b.call g args
    | none => pure (.raw (String.ofList s))

/-- The value of a text that is neither an operand nor a call. -/
def evaluateBinary (vars : Table (Value R)) (s : List Char) : Except (Cause R) (Value R) :=
  match splitOperator [] s with
  | none => .ok (.raw (String.ofList s))
  | some (left, op, right) => do
    let left ← operand? vars left
    let right ← operand? vars right
    match left, right with
    | some a, some b => applyOperator op a b
    | _, _ => pure (.raw (String.ofList s))

/-- The value of an expression, given the bindings and a random stream. -/
def evaluate (vars : Table (Value R)) (g : Random.Stream) (text : String) : Except (Cause R) (Value R) := do
  let s := trim text.toList
  match ← operand? vars s with
  | some v => pure v
  | none =>
    match splitCall s with
    | some (name, inner) => evaluateCall vars g s name inner
    | none => evaluateBinary vars s

end LabLang.Expression
