import LabLang.Failure

/-! # Uncertain quantities

A nominal value with a standard uncertainty, and first-order propagation of independent uncertainties:
sums and differences combine absolute uncertainties in quadrature, products and quotients relative ones.
`Quantity.make` admits finite nominals with finite uncertainties that are not negative, and no others. -/

namespace LabLang

/-- The operations that derive a quantity from others. -/
inductive Operation
  | add | subtract | multiply | divide | scale | mean
deriving DecidableEq, Repr

def Operation.name : Operation → String
  | add => "add"
  | subtract => "subtract"
  | multiply => "multiply"
  | divide => "divide"
  | scale => "scale"
  | mean => "mean"

/-- What an operation was applied to: a quantity or the factor of a scaling. -/
inductive Operand (R : Type)
  | quantity (nominal uncertainty : R)
  | factor (value : R)
deriving DecidableEq

/-- How a quantity was computed. -/
structure Derivation (R : Type) where
  operation : Operation
  operands : List (Operand R)
deriving DecidableEq

/-- A nominal value with a standard uncertainty: two finite numbers, the second one not negative. Declared
quantities have no derivation. -/
structure Quantity (R : Type) [Scalar R] where
  nominal : R
  uncertainty : R
  derivation : Option (Derivation R) := none
  finite : (Scalar.isFinite nominal && Scalar.isFinite uncertainty) = true
  nonnegative : Scalar.lt uncertainty Scalar.zero = false
deriving DecidableEq

namespace Quantity

open Scalar

variable {R : Type} [Scalar R]

/-- A quantity, if its numbers are finite and its uncertainty is not negative. -/
def make (nominal uncertainty : R) (derivation : Option (Derivation R) := none) :
    Except (Cause R) (Quantity R) :=
  if finite : isFinite nominal && isFinite uncertainty then
    if negative : lt uncertainty zero then .error (.numeric (.negativeUncertainty uncertainty))
    else .ok ⟨nominal, uncertainty, derivation, finite, Bool.eq_false_iff.mpr negative⟩
  else .error (.numeric (.notFinite nominal uncertainty))

/-- A number without uncertainty. -/
def exact (value : R) : Except (Cause R) (Quantity R) := make value zero

/-- The quantity as an operand. -/
def operand (q : Quantity R) : Operand R := .quantity q.nominal q.uncertainty

/-- The sum of several terms, or the reason why there is none. -/
def total (terms : List R) : Except (Cause R) R :=
  match sum terms with
  | .ok x => .ok x
  | .error fault => .error (.internal (.sum fault))

/-- The root of the sum of the squares. -/
def quadrature (terms : List R) : Except (Cause R) R := do
  let squares ← total (terms.map fun t => t * t)
  pure (sqrt squares)

/-- The uncertainty in proportion to the magnitude of the nominal value. -/
def relative (q : Quantity R) : Except (Cause R) R :=
  if eq q.nominal zero then .error (.numeric .relativeToZero)
  else .ok (q.uncertainty / abs q.nominal)

/-- A result whose uncertainty combines those of two operands in quadrature. -/
def combineAbsolute (operation : Operation) (nominal : R) (a b : Quantity R) :
    Except (Cause R) (Quantity R) := do
  let uncertainty ← quadrature [a.uncertainty, b.uncertainty]
  make nominal uncertainty (some ⟨operation, [a.operand, b.operand]⟩)

/-- A result whose relative uncertainty combines those of two operands in quadrature. -/
def combineRelative (operation : Operation) (nominal : R) (a b : Quantity R) :
    Except (Cause R) (Quantity R) := do
  let ra ← a.relative
  let rb ← b.relative
  let r ← quadrature [ra, rb]
  make nominal (r * abs nominal) (some ⟨operation, [a.operand, b.operand]⟩)

/-- The sum of independent quantities. -/
def add (a b : Quantity R) : Except (Cause R) (Quantity R) :=
  combineAbsolute .add (a.nominal + b.nominal) a b

/-- The difference of independent quantities. -/
def subtract (a b : Quantity R) : Except (Cause R) (Quantity R) :=
  combineAbsolute .subtract (a.nominal - b.nominal) a b

/-- The product of independent quantities with non-zero nominal values. -/
def multiply (a b : Quantity R) : Except (Cause R) (Quantity R) :=
  combineRelative .multiply (a.nominal * b.nominal) a b

/-- The quotient of independent quantities with non-zero nominal values. -/
def divide (a b : Quantity R) : Except (Cause R) (Quantity R) :=
  if eq b.nominal zero then .error (.numeric .uncertainDivisionByZero)
  else combineRelative .divide (a.nominal / b.nominal) a b

/-- The quantity times an exact factor. -/
def scale (q : Quantity R) (factor : R) : Except (Cause R) (Quantity R) :=
  make (q.nominal * factor) (q.uncertainty * abs factor)
    (some ⟨.scale, [q.operand, .factor factor]⟩)

/-- The mean of independent quantities. -/
def mean (qs : List (Quantity R)) : Except (Cause R) (Quantity R) :=
  if qs.isEmpty then .error (.numeric .emptyMean)
  else do
    let nominal ← total (qs.map (·.nominal))
    let uncertainty ← quadrature (qs.map (·.uncertainty))
    make (nominal / nat qs.length) (uncertainty / nat qs.length) (some ⟨.mean, qs.map operand⟩)

/-- Both numbers agree; how the quantities were computed does not matter. -/
def agrees (a b : Quantity R) : Bool :=
  eq a.nominal b.nominal && eq a.uncertainty b.uncertainty

end Quantity

end LabLang
