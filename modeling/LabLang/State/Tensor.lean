import LabLang.Number.Power

/-! # Tensors

Arrays all of whose axes have length two: the form in which gates meet states. An entry has an index of as
many numbers, zero or one, as there are axes; as a vector the entries stand in the order in which the last
number changes fastest. -/

namespace LabLang.State

/-- The sum of `f 0, …, f (n - 1)`, in this order. -/
def sumTo {A : Type} [Zero A] [Add A] : Nat → (Nat → A) → A
  | 0, _ => 0
  | n + 1, f => sumTo n f + f n

/-- The value of bit `q` of a number. -/
def bit (i q : Nat) : Nat := i >>> q % 2

/-- A tensor: the number of its axes and its entries. -/
structure Tensor (A : Type) where
  rank : Nat
  entry : List Nat → A

namespace Tensor

variable {A : Type}

/-! ### Vectors -/

/-- The place of an entry in the vector. -/
def place (index : List Nat) : Nat := index.foldl (fun p b => 2 * p + b) 0

/-- The index of the entry at a place of the vector. -/
def indexAt (rank p : Nat) : List Nat := (List.range rank).map fun a => bit p (rank - 1 - a)

/-- The tensor with the given entries. -/
def ofVector [Zero A] (rank : Nat) (v : Array A) : Tensor A :=
  ⟨rank, fun index => v.getD (place index) 0⟩

/-- The entries in order. -/
def toVector (t : Tensor A) : Array A :=
  Array.ofFn fun p : Fin (twoPow t.rank) => t.entry (indexAt t.rank p)

/-! ### Axes -/

/-- The axes that are not listed, in order. -/
def otherAxes (rank : Nat) (axes : List Nat) : List Nat :=
  (List.range rank).filter fun a => !axes.contains a

/-- The tensor with its axes in another order: axis `j` of the result is axis `order[j]` of the tensor. -/
def transpose (order : List Nat) (t : Tensor A) : Tensor A :=
  let places := (List.range t.rank).map fun a => order.idxOf a
  ⟨t.rank, fun index => t.entry (places.map fun p => index.getD p 0)⟩

/-- The moves of axes to places, by ascending place: each with its place and the axis that goes there. -/
def moves (source destination : List Nat) : List (Nat × Nat) :=
  (destination.zip source).mergeSort fun a b => a.1 ≤ b.1

/-- The order of axes in which axis `source[j]` stands at place `destination[j]`, while the other axes keep
their order. -/
def movedOrder (rank : Nat) (source destination : List Nat) : List Nat :=
  (moves source destination).foldl (fun order m => order.insertIdx m.1 m.2) (otherAxes rank source)

/-- Moves axes to other places. -/
def moveAxes (source destination : List Nat) (t : Tensor A) : Tensor A :=
  t.transpose (movedOrder t.rank source destination)

/-- Contracts axes of two tensors with each other. The result has the other axes of the first tensor, followed
by those of the second one. -/
def contract [Zero A] [Add A] [Mul A] (axes axes' : List Nat) (t t' : Tensor A) : Tensor A :=
  let rest := otherAxes t.rank axes
  let rest' := otherAxes t'.rank axes'
  let left := t.transpose (rest ++ axes)
  let right := t'.transpose (axes' ++ rest')
  ⟨rest.length + rest'.length, fun index =>
    sumTo (twoPow axes.length) fun c =>
      let shared := indexAt axes.length c
      left.entry (index.take rest.length ++ shared) * right.entry (shared ++ index.drop rest.length)⟩

end Tensor

end LabLang.State
