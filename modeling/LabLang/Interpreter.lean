import LabLang.Assignment
import LabLang.Circuit.Definition
import LabLang.Parallel.Run
import LabLang.Random.Sample
import LabLang.RunCommand

/-! # The interpreter

A program is carried out statement by statement. A statement reads and changes the state of the execution, and
gives a result or fails; the first failure ends the program and is its result. Otherwise the result is that of
the last statement that is not a literal.

Every `run` statement that comes to measuring and every parallel block takes the next child of the seed of the
execution; nothing else has an influence on the random streams. -/

namespace LabLang

/-- The settings of an interpreter: the seed, or none for a fresh one in every execution; the number of shots
of commands that give none; and the number of branches that are evaluated at a time, if it is limited. -/
structure Settings where
  seed : Option Int := none
  defaultShots : Int := 1000
  workers : Option Int := none
deriving DecidableEq, Repr

/-- The settings, if the numbers in them are positive. -/
def Settings.make (seed : Option Int) (defaultShots : Int) (workers : Option Int) :
    Except Internal Settings :=
  if defaultShots ≤ 0 then .error (.defaultShots defaultShots)
  else (Parallel.checkWorkers workers).map fun _ => ⟨seed, defaultShots, workers⟩

/-- The seed of an execution; `fresh` is used where the settings give none. -/
def Settings.root (s : Settings) (fresh : Nat) : Except Internal Random.Seed :=
  match s.seed with
  | some n => if n < 0 then .error .negativeSeed else .ok ⟨n.toNat, []⟩
  | none => .ok ⟨fresh, []⟩

namespace Interpreter

variable {R : Type} [Scalar R]

/-- How far an execution has come: the store, the number of children that have been taken from the seed, and
the result so far. -/
structure State (R : Type) [Scalar R] where
  store : Store R
  drawn : Nat := 0
  result : Option (Result R) := none

/-- An action on the state of an execution. It gives a value or fails, and what it has done to the state by then
stays done. -/
abbrev Action (R : Type) [Scalar R] (α : Type) := EStateM (Failure R) (State R) α

namespace Action

/-- Gives a value or fails, and leaves the state alone. -/
def ofExcept {α : Type} : Except (Failure R) α → Action R α
  | .ok a => pure a
  | .error f => throw f

/-- Changes the store. -/
def modifyStore (f : Store R → Store R) : Action R Unit :=
  modify fun st => { st with store := f st.store }

/-- Takes the child of the seed that is due. -/
def nextChild (root : Random.Seed) : Action R Random.Seed :=
  modifyGet fun st => (root.child st.drawn, { st with drawn := st.drawn + 1 })

end Action

/-! ### Statements -/

/-- The result of an assignment. -/
def bindingResult (b : Binding R) : Result R :=
  match b.declared, b.value with
  | true, .uncertain q _ => .uncertain b.display q.nominal q.uncertainty
  | _, _ => .success b.display

/-- Carries out an assignment. -/
def assignment (text : String) (line : Option Nat) : Action R (Result R) := do
  let b ← Action.ofExcept (Assignment.read text line)
  Action.modifyStore fun store => store.bind b.name b.value
  pure (bindingResult b)

/-- Carries out an assignment on a store alone. -/
def assign (store : Store R) (text : String) (line : Option Nat) : Except (Failure R) (Store R × Result R) :=
  match (assignment text line).run { store } with
  | .ok r st => .ok (st.store, r)
  | .error f _ => .error f

/-- Defines a circuit. -/
def define (s : Statement) : Action R (Result R) := do
  let c ← Action.ofExcept (Circuit.ofStatement s)
  Action.modifyStore fun store => store.define c
  pure (.circuit c.name c.qubits (.uncounted .null) "Quantum circuit defined")

/-- The result of measuring a circuit. -/
def measurement (c : Circuit R) (shots : Int) (counts : Table Nat) : Result R :=
  .circuit c.name c.qubits (.tallied ⟨counts.mapValues Int.ofNat, .int shots⟩) "Simulated locally"

/-- Measures a circuit. -/
def runCircuit (root : Random.Seed) (defaultShots : Int) (s : Statement) : Action R (Result R) := do
  let command ← Action.ofExcept (RunCommand.read s.text s.line)
  let shots := command.shots.getD defaultShots
  match (← get).store.runnable? command.circuit with
  | none => throw ⟨.undefined .circuitUse command.circuit, s.line⟩
  | some c =>
    let child ← Action.nextChild root
    let counts ← Action.ofExcept ((Random.measure c shots (.ofSeed child)).mapError (⟨·, none⟩))
    pure (measurement c shots counts)

/-- Binds the labels of the branches that have not failed to their values. -/
def bindOutcomes (store : Store R) (outcomes : Table (Outcome R)) : Store R :=
  store.bindAll (outcomes.filterMap fun (label, o) => o.value?.map fun v => (label, v))

/-- Runs a parallel block. -/
def runBlock (root : Random.Seed) (s : Statement) : Action R (Result R) := do
  let block ← Action.ofExcept (Parallel.Block.ofStatement s)
  let child ← Action.nextChild root
  let outcomes := Parallel.run (← get).store.vars child block
  Action.modifyStore fun store => bindOutcomes store outcomes
  pure (Parallel.result outcomes)

/-- Carries out a statement. Literals have no effect. -/
def carryOut (root : Random.Seed) (defaultShots : Int) (s : Statement) : Action R (Result R) :=
  match Source.classify s.text with
  | .circuit => define s
  | .parallel => runBlock root s
  | .run => runCircuit root defaultShots s
  | .assignment => assignment s.text s.line
  | .literal => pure (.success s.text)

/-- One step of an execution. A failure that has no line yet gets the line of the statement; literals do not
count for the result. -/
def step (root : Random.Seed) (defaultShots : Int) (s : Statement) : Action R Unit := do
  let r ← (carryOut root defaultShots s).adaptExcept (·.withLine s.line)
  if Source.classify s.text = .literal then pure ()
  else modify fun st => { st with result := some r }

/-! ### Programs -/

/-- Carries out statements up to the first failure. -/
def runStatements (root : Random.Seed) (defaultShots : Int) (program : List Statement) : Action R Unit :=
  program.forM (step root defaultShots)

/-- The result of an execution without a failure. -/
def State.answer (st : State R) : Result R := st.result.getD (.success completionMessage)

/-- Executes a program on a store, with the given seed: the result and the store it leaves. -/
def runProgram (root : Random.Seed) (defaultShots : Int) (store : Store R) (source : String) :
    Result R × Store R :=
  match (runStatements root defaultShots (Source.statements source)).run { store } with
  | .ok _ st => (st.answer, st.store)
  | .error f st => (.failure (.ofFailure f), st.store)

/-- Executes a program on a store. -/
def execute (settings : Settings) (fresh : Nat) (store : Store R) (source : String) :
    Except Internal (Result R × Store R) :=
  (settings.root fresh).map fun root => runProgram root settings.defaultShots store source

end Interpreter

end LabLang
