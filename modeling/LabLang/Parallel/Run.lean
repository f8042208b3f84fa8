import LabLang.Expression
import LabLang.Parallel.Block
import LabLang.Result.Basic

/-! # Running parallel blocks

Every branch is evaluated against the same bindings, with a random stream of its own: the branch at position
`i` uses child `i` of the seed of the block. Each outcome goes into the slot of its branch, so it does not
matter in which order the branches are evaluated: `fill` carries them out in any order. -/

namespace LabLang.Parallel

variable {R : Type} [Scalar R]

/-- A branch with its random stream. -/
structure Job where
  branch : Branch
  stream : Random.Stream

/-- The branches of a block with their streams. -/
def jobs (seed : Random.Seed) (b : Block) : List Job :=
  b.branches.zipIdx.map fun (branch, i) => ⟨branch, .ofSeed (seed.child i)⟩

/-- Evaluates a branch. A failure is reported at the line of the branch. -/
def Job.run (vars : Table (Value R)) (j : Job) : Outcome R :=
  match Expression.evaluate vars j.stream j.branch.expression with
  | .ok v => .value v
  | .error cause => .failed (.ofFailure ⟨cause, j.branch.line⟩)

/-- The slots for the outcomes; an empty slot belongs to a branch that has not been evaluated yet. -/
abbrev Slots (R : Type) [Scalar R] := List (Option (Outcome R))

/-- Evaluates the job at a position and fills its slot. -/
def fillOne (vars : Table (Value R)) (js : List Job) (slots : Slots R) (i : Nat) : Slots R :=
  match js[i]? with
  | some j => slots.set i (some (j.run vars))
  | none => slots

/-- Evaluates jobs in a given order of positions. -/
def fill (vars : Table (Value R)) (js : List Job) (order : List Nat) : Slots R :=
  order.foldl (fillOne vars js) (List.replicate js.length none)

/-- The outcomes by label, in the order of declaration. -/
def collect (b : Block) (slots : Slots R) : Table (Outcome R) :=
  .ofPairs ((b.branches.zip slots).filterMap fun (branch, slot) => slot.map fun o => (branch.label, o))

/-- The message of a block with these outcomes. -/
def summary (outcomes : Table (Outcome R)) : String :=
  let failed := (outcomes.filter (·.2.isFailed)).length
  Number.intText outcomes.length ++ " branch(es) evaluated"
    ++ if failed = 0 then "" else ", " ++ Number.intText failed ++ " failed"

/-- Runs a block, evaluating its branches in a given order of positions. -/
def runInOrder (order : List Nat) (vars : Table (Value R)) (seed : Random.Seed) (b : Block) : Table (Outcome R) :=
  collect b (fill vars (jobs seed b) order)

/-- Runs a block. -/
def run (vars : Table (Value R)) (seed : Random.Seed) (b : Block) : Table (Outcome R) :=
  runInOrder (List.range b.branches.length) vars seed b

/-- The outcomes as a result. -/
def result (outcomes : Table (Outcome R)) : Result R := .parallel outcomes (summary outcomes)

/-- The number of branches that may be evaluated at a time, if it is limited. -/
def checkWorkers (workers : Option Int) : Except Internal Unit :=
  match workers with
  | some n => if n < 1 then .error (.workers n) else .ok ()
  | none => .ok ()

end LabLang.Parallel
