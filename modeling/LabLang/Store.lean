import LabLang.Circuit.Library
import LabLang.Value

/-! # The store of a program

Names are bound to values, in the order of their first binding; circuits are kept in a table of their own,
and a value of kind circuit refers to them by name. Rebinding a name does not touch the circuits. -/

namespace LabLang

/-- The bindings and the circuits of a program. -/
structure Store (R : Type) [Scalar R] where
  vars : Table (Value R) := []
  circuits : Table (Circuit R) := []

namespace Store

variable {R : Type} [Scalar R]

/-- The store without bindings and circuits. -/
def empty : Store R := {}

/-- Binds a name to a value. -/
def bind (s : Store R) (name : String) (value : Value R) : Store R :=
  { s with vars := s.vars.put name value }

/-- Binds several names, the first one first. -/
def bindAll (s : Store R) (pairs : List (String × Value R)) : Store R :=
  { s with vars := s.vars.putAll pairs }

/-- Keeps a circuit and binds its name to it. -/
def define (s : Store R) (c : Circuit R) : Store R :=
  { s with circuits := s.circuits.put c.name c }.bind c.name (.circuit c.name)

/-- The value of a name, if it is bound. -/
def lookup (s : Store R) (name : String) : Option (Value R) := s.vars.get? name

/-- The value of a name. -/
def get (s : Store R) (name : String) : Except (Cause R) (Value R) :=
  match s.lookup name with
  | some v => .ok v
  | none => .error (.undefined .variableUse name)

/-- The name is bound. -/
def contains (s : Store R) (name : String) : Bool := s.vars.has name

/-- The bound names, in the order of their first binding. -/
def names (s : Store R) : List String := s.vars.keys

/-- The number of bound names. -/
def size (s : Store R) : Nat := s.vars.length

/-- Removes all bindings and all circuits. -/
def clear (s : Store R) : Store R := { s with vars := [], circuits := [] }

/-- The circuit of a name, if the program has defined one. -/
def circuit? (s : Store R) (name : String) : Option (Circuit R) := s.circuits.get? name

/-- The circuit of a name: one that the program has defined, or else a well-known one. -/
def runnable? (s : Store R) (name : String) : Option (Circuit R) :=
  (s.circuit? name).or (Circuit.wellKnown? name)

end Store

end LabLang
