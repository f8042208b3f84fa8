import LabLang.Store

/-! # Stores in memory

A store that is at work keeps its bindings in a table that is written in place, so that whoever holds this table sees
every later write. A snapshot is for those who must not see them, such as the branches of a parallel block: it is a
table of its own, with the bindings of the moment. -/

namespace LabLang.Store

variable {R : Type} [Scalar R]

/-- What is done to a store. -/
inductive Operation (R : Type) [Scalar R]
  | bind (name : String) (value : Value R)
  | define (c : Circuit R)
  | clear
  | snapshot

/-- The store after an operation. A snapshot leaves it alone. -/
def apply (s : Store R) : Operation R → Store R
  | .bind name value => s.bind name value
  | .define c => s.define c
  | .clear => s.clear
  | .snapshot => s

/-- A new store after several operations, the first one first. -/
def after (ops : List (Operation R)) : Store R := ops.foldl apply empty

/-- The tables of bindings that there are, by place, and the circuits of the store. One of the tables is the own one
of the store; the others are its snapshots. -/
structure Memory (R : Type) [Scalar R] where
  tables : List (Table (Value R))
  own : Nat
  circuits : Table (Circuit R)
  own_lt : own < tables.length

namespace Memory

/-- A new store. -/
def new : Memory R := ⟨[[]], 0, [], Nat.one_pos⟩

/-- The table at a place. -/
def read? (m : Memory R) (place : Nat) : Option (Table (Value R)) := m.tables[place]?

/-- The store as it is at the moment. -/
def store (m : Memory R) : Store R := ⟨m.tables.get ⟨m.own, m.own_lt⟩, m.circuits⟩

/-- Writes the own table in place. -/
def write (m : Memory R) (f : Table (Value R) → Table (Value R)) : Memory R :=
  { m with tables := m.tables.modify m.own f, own_lt := by rw [List.length_modify]; exact m.own_lt }

/-- Binds a name to a value. -/
def bind (m : Memory R) (name : String) (value : Value R) : Memory R := m.write fun t => t.put name value

/-- Keeps a circuit and binds its name to it. -/
def define (m : Memory R) (c : Circuit R) : Memory R :=
  { m with circuits := m.circuits.put c.name c }.bind c.name (.circuit c.name)

/-- Removes all bindings and all circuits. -/
def clear (m : Memory R) : Memory R := { m.write fun _ => [] with circuits := [] }

/-- Copies the bindings to a new table: its place, and the memory with it. -/
def snapshot (m : Memory R) : Nat × Memory R :=
  (m.tables.length, { m with
    tables := m.tables ++ [m.store.vars]
    own_lt := by rw [List.length_append]; exact Nat.lt_add_right _ m.own_lt })

/-- The memory after an operation. -/
def apply (m : Memory R) : Operation R → Memory R
  | .bind name value => m.bind name value
  | .define c => m.define c
  | .clear => m.clear
  | .snapshot => m.snapshot.2

/-- The memory of a new store after several operations, the first one first. -/
def after (ops : List (Operation R)) : Memory R := ops.foldl apply new

end Memory

end LabLang.Store
