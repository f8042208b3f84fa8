import LabLang.Expression
import LabLang.Result.Basic

/-! # Combining the outcomes of branches

Failed branches and branches without a number are passed over. Plain numbers are combined to a plain number;
as soon as one of the outcomes is uncertain, all are taken as uncertain quantities. -/

namespace LabLang

open Scalar

/-- The ways of combining outcomes. -/
inductive Aggregation
  | mean | sum | least | greatest
deriving DecidableEq, Repr

namespace Aggregation

/-- The way of a name. -/
def ofName? (name : String) : Option Aggregation :=
  [mean, sum, least, greatest].zip aggregationNames |>.findSome? fun (a, n) => if n = name then some a else none

variable {R : Type} [Scalar R]

/-- The first of the elements that no other one precedes. -/
def first {α : Type} (precedes : α → α → Bool) (x : α) (xs : List α) : α :=
  xs.foldl (fun best y => if precedes y best then y else best) x

/-- The first of the least or the greatest elements by a key. -/
def extreme {α : Type} (greatest : Bool) (key : α → R) (x : α) (xs : List α) : α :=
  first (fun a b => if greatest then lt (key b) (key a) else lt (key a) (key b)) x xs

/-- The sum of independent quantities, added up from the left. -/
def addAll (q : Quantity R) (qs : List (Quantity R)) : Except (Cause R) (Quantity R) :=
  qs.foldlM Quantity.add q

/-- Combines plain numbers. -/
def ofNumbers (a : Aggregation) (x : R) (xs : List R) : Except (Cause R) R :=
  match a with
  | mean => (Quantity.total (x :: xs)).map (· / nat (x :: xs).length)
  | sum => Quantity.total (x :: xs)
  | least => .ok (extreme false id x xs)
  | greatest => .ok (extreme true id x xs)

/-- Combines uncertain quantities. -/
def ofQuantities (a : Aggregation) (q : Quantity R) (qs : List (Quantity R)) :
    Except (Cause R) (Quantity R) :=
  match a with
  | mean => Quantity.mean (q :: qs)
  | sum => addAll q qs
  | least => .ok (extreme false Quantity.nominal q qs)
  | greatest => .ok (extreme true Quantity.nominal q qs)

/-- The numeric values among the outcomes. -/
def numeric (outcomes : Table (Outcome R)) : List (Value R) :=
  (outcomes.filterMap (·.2.value?)).filter Value.isNumeric

/-- Combines values. -/
def ofValues (a : Aggregation) (values : List (Value R)) : Except (Cause R) (Value R) :=
  match values.mapM Value.number? with
  | some (x :: xs) => (a.ofNumbers x xs).map .number
  | some [] => .error (.numeric .nothingToAggregate)
  | none => do
    match ← values.mapM Value.quantity with
    | q :: qs => (a.ofQuantities q qs).map (.uncertain · none)
    | [] => throw (.numeric .nothingToAggregate)

/-- Combines the outcomes of branches. -/
def apply (a : Aggregation) (outcomes : Table (Outcome R)) : Except (Cause R) (Value R) :=
  a.ofValues (numeric outcomes)

end Aggregation

/-- Combines the outcomes of branches in a way given by its name. -/
def aggregate {R : Type} [Scalar R] (outcomes : Table (Outcome R)) (how : String) :
    Except (Cause R) (Value R) :=
  match Aggregation.ofName? how with
  | some a => a.apply outcomes
  | none => .error (.internal (.unknownAggregation how))

end LabLang
