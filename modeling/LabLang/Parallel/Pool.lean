import LabLang.Parallel.Run

/-! # Pools of workers

A block may be evaluated by several workers. The jobs wait in a queue, in the order of declaration; a worker that
is free takes the next one, and jobs finish in any order. A run of a pool is the list of what happens, one `Move`
after the other. -/

namespace LabLang.Parallel

variable {R : Type} [Scalar R]

/-- How far a pool has come: the number of jobs that have been taken from the queue, the positions of those that
workers are busy with, and the slots. -/
structure Pool (R : Type) [Scalar R] where
  started : Nat := 0
  busy : List Nat := []
  slots : Slots R

/-- What can happen in a pool. -/
inductive Move
  /-- A worker takes the next job. -/
  | start
  /-- The job at a position has been carried out. -/
  | finish (i : Nat)
deriving DecidableEq, Repr

namespace Pool

/-- The pool before anything has happened. -/
def idle (js : List Job) : Pool R := { slots := List.replicate js.length none }

/-- The pool after a move, if the move is possible with at most `limit` workers. -/
def move (vars : Table (Value R)) (js : List Job) (limit : Nat) (p : Pool R) : Move → Option (Pool R)
  | .start =>
    if p.started < js.length ∧ p.busy.length < limit then
      some { p with started := p.started + 1, busy := p.started :: p.busy }
    else none
  | .finish i =>
    if i ∈ p.busy then some { p with busy := p.busy.erase i, slots := fillOne vars js p.slots i } else none

/-- The pool after several moves, if all of them are possible. -/
def play (vars : Table (Value R)) (js : List Job) (limit : Nat) (p : Pool R) (moves : List Move) :
    Option (Pool R) :=
  moves.foldlM (move vars js limit) p

/-- All jobs have been carried out. -/
def isDone (js : List Job) (p : Pool R) : Bool := p.started == js.length && p.busy.isEmpty

end Pool

/-- Runs a block on a pool of at most `limit` workers: the outcomes, if the moves are possible and all jobs have been
carried out after them. -/
def runOnPool (limit : Nat) (moves : List Move) (vars : Table (Value R)) (seed : Random.Seed) (b : Block) :
    Option (Table (Outcome R)) :=
  match (Pool.idle (jobs seed b)).play vars (jobs seed b) limit moves with
  | some p => if p.isDone (jobs seed b) then some (collect b p.slots) else none
  | none => none

end LabLang.Parallel
