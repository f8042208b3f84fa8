import LabLang.Proofs.Actions
import LabLang.Proofs.Renumbering
import LabLang.Proofs.Schedules

/-! # Runs of renumbered programs

The interpreter follows the numbers of lines as the readers do.  `Action.Follows f φ a a'` compares two actions that
are started in the same state but for the lines that the result so far names: the action `a'` gives what `φ` makes of
the value of `a`, or the renumbered failure, and leaves the same store.  It is kept by sequencing; hence a step, a list
of statements and a program that are renumbered answer the renumbered result (`execute_renumber`). -/

namespace LabLang

variable {R : Type} (f : Nat → Nat)

/-! ### Results -/

/-- The report at another line, if it is at any. -/
def Report.renumber (r : Report R) : Report R :=
  { r with line := match r.line with
      | .int n => .int (f n.toNat)
      | p => p }

variable [Scalar R]

/-- The outcome with the report, if the branch has failed, at another line. -/
def Outcome.renumber : Outcome R → Outcome R
  | .value v => .value v
  | .failed report => .failed (report.renumber f)

/-- The result with all its reports, that of a failure or those of branches, at other lines. -/
def Result.renumber : Result R → Result R
  | .parallel branches message => .parallel (branches.mapValues (Outcome.renumber f)) message
  | .failure report => .failure (report.renumber f)
  | r => r

theorem Report.renumber_ofFailure (g : Failure R) : (ofFailure g).renumber f = ofFailure (g.renumber f) := by
  obtain ⟨cause, line⟩ := g
  cases line <;> rfl

omit [Scalar R] in
theorem Failure.renumber_withLine (g : Failure R) (line : Nat) :
    (g.withLine line).renumber f = (g.renumber f).withLine (f line) := by
  obtain ⟨cause, own⟩ := g
  cases own <;> rfl

theorem Interpreter.bindOutcomes_renumber (store : Store R) (outcomes : Table (Outcome R)) :
    bindOutcomes store (outcomes.mapValues (Outcome.renumber f)) = bindOutcomes store outcomes := by
  have hvalue (o : Outcome R) : (o.renumber f).value? = o.value? := by cases o <;> rfl
  unfold bindOutcomes Table.mapValues
  rw [List.filterMap_map]
  simp only [Function.comp_def, hvalue]

/-! ### Parallel blocks -/

namespace Parallel

/-- The job with another number for the line of its branch. -/
def Job.renumber (j : Job) : Job := { j with branch := j.branch.renumber f }

/-- The value of a branch does not depend on numbers. -/
theorem Job.run_renumber (vars : Table (Value R)) (j : Job) :
    (j.renumber f).run vars = (j.run vars).renumber f := by
  unfold Job.run
  dsimp only [Job.renumber, Branch.renumber]
  cases Expression.evaluate vars j.stream j.branch.expression with
  | ok v => rfl
  | error cause => exact congrArg Outcome.failed (Report.renumber_ofFailure f ⟨cause, some j.branch.line⟩).symm

theorem jobs_renumber (seed : Random.Seed) (b : Block) :
    jobs seed (b.renumber f) = (jobs seed b).map (Job.renumber f) := by
  unfold jobs Block.renumber
  rw [List.zipIdx_map, List.map_map, List.map_map]
  rfl

theorem slotsOf_renumber (vars : Table (Value R)) (seed : Random.Seed) (b : Block) :
    slotsOf vars seed (b.renumber f) = (slotsOf vars seed b).mapValues (Outcome.renumber f) := by
  unfold slotsOf Table.mapValues
  rw [jobs_renumber, List.map_map, List.map_map]
  refine List.map_congr_left fun j _ => ?_
  rw [Function.comp_apply, Function.comp_apply, Job.run_renumber]
  dsimp only [Job.renumber, Branch.renumber]

omit [Scalar R] in
theorem labels_renumber (b : Block) : (b.renumber f).labels = b.labels := by
  simp [Block.labels, Block.renumber, Branch.renumber, Function.comp_def]

theorem run_renumber (vars : Table (Value R)) (seed : Random.Seed) {b : Block} (h : b.labels.Nodup) :
    run vars seed (b.renumber f) = (run vars seed b).mapValues (Outcome.renumber f) := by
  rw [run_eq_slotsOf vars seed h, run_eq_slotsOf vars seed (by rwa [labels_renumber]), slotsOf_renumber]

theorem summary_renumber (outcomes : Table (Outcome R)) :
    summary (outcomes.mapValues (Outcome.renumber f)) = summary outcomes := by
  have hfailed (o : Outcome R) : (o.renumber f).isFailed = o.isFailed := by cases o <;> rfl
  unfold summary Table.mapValues
  simp only [List.filter_map, List.length_map, Function.comp_def, hfailed]

theorem result_renumber (outcomes : Table (Outcome R)) :
    (result outcomes).renumber f = result (outcomes.mapValues (Outcome.renumber f)) := by
  unfold result
  rw [summary_renumber]
  rfl

end Parallel

namespace Interpreter

/-! ### Actions that follow the numbers -/

/-- The state with the lines that the result so far names renumbered. -/
def State.renumber (st : State R) : State R := { st with result := st.result.map (Result.renumber f) }

@[simp] theorem State.renumber_store (st : State R) : (st.renumber f).store = st.store := rfl

/-- Started in the renumbered state, the second action gives what `φ` makes of the value of the first one or the
renumbered failure, and leaves the renumbered state. -/
def Action.Follows {α β : Type} (f : Nat → Nat) (φ : α → β) (a : Action R α) (a' : Action R β) : Prop :=
  ∀ st, a'.run (st.renumber f) = match a.run st with
    | .ok x st' => .ok (φ x) (st'.renumber f)
    | .error g st' => .error (g.renumber f) (st'.renumber f)

namespace Action

section rules

variable {α β γ δ : Type} {f} {φ : α → β} {ψ : γ → δ} {a : Action R α} {a' : Action R β}

theorem Follows.bind {b : α → Action R γ} {b' : β → Action R δ} (h : a.Follows f φ a')
    (hb : ∀ x, (b x).Follows f ψ (b' (φ x))) : Follows f ψ (a >>= b) (a' >>= b') := by
  intro st
  rw [run_bind, run_bind, h st]
  cases a.run st with
  | ok x st' => exact hb x st'
  | error g st' => rfl

theorem follows_pure {x : α} {y : β} (h : φ x = y) : Follows (R := R) f φ (pure x) (pure y) := by
  subst h
  exact fun _ => rfl

theorem follows_throw (g : Failure R) : Follows f φ (throw g) (throw (g.renumber f)) := fun _ => rfl

theorem follows_get : Follows (R := R) f (State.renumber f) get get := fun _ => rfl

theorem follows_modifyStore (m : Store R → Store R) : Follows f id (modifyStore m) (modifyStore m) := fun _ => rfl

theorem follows_nextChild (root : Random.Seed) : Follows (R := R) f id (nextChild root) (nextChild root) := fun _ => rfl

/-- What follows a reader is compared only for values that the reader gives. -/
theorem follows_ofExcept_bind {x : Except (Failure R) α} {y : Except (Failure R) β} {b : α → Action R γ}
    {b' : β → Action R δ} (h : LabLang.Follows f φ x y) (hb : ∀ r, x = .ok r → (b r).Follows f ψ (b' (φ r))) :
    Follows f ψ (ofExcept x >>= b) (ofExcept y >>= b') := by
  cases h with
  | ok r => exact hb r rfl
  | error g => exact fun _ => rfl

/-- A line is added to both failures, or both have one already. -/
theorem Follows.withLine (h : a.Follows f φ a') (line : Nat) :
    Follows f φ (EStateM.adaptExcept (·.withLine line) a) (EStateM.adaptExcept (·.withLine (f line)) a') := by
  intro st
  rw [run_adaptExcept, run_adaptExcept, h st]
  cases a.run st with
  | ok x st' => rfl
  | error g st' =>
      dsimp only
      rw [g.renumber_withLine]

end rules

end Action

open LabLang.Interpreter.Action

/-! ### Statements -/

section statements

variable (root : Random.Seed) (shots : Int) (s : Statement)

theorem follows_assign (text : String) (line : Nat) :
    (assignment text line : Action R _).Follows f (Result.renumber f) (assignment text (f line)) := by
  refine follows_ofExcept_bind (follows_assignment f text line) fun b _ => ?_
  refine (follows_modifyStore _).bind fun _ => follows_pure ?_
  obtain ⟨name, value, declared⟩ := b
  cases declared <;> cases value <;> rfl

theorem follows_define : (define s : Action R _).Follows f (Result.renumber f) (define (s.renumber f)) := by
  refine follows_ofExcept_bind (follows_circuit f s) fun c _ => ?_
  exact (follows_modifyStore _).bind fun _ => follows_pure rfl

theorem follows_runCircuit :
    (runCircuit root shots s : Action R _).Follows f (Result.renumber f) (runCircuit root shots (s.renumber f)) := by
  refine follows_ofExcept_bind (follows_command f s.text s.line) fun command _ => ?_
  refine follows_get.bind fun st => ?_
  rw [State.renumber_store, id_eq]
  cases st.store.runnable? command.circuit with
  | none => exact follows_throw ⟨_, some s.line⟩
  | some c =>
      refine (follows_nextChild root).bind fun child => ?_
      -- a failure to measure has no line of its own
      have hmeasure : LabLang.Follows (R := R) f id
          ((Random.measure c (command.shots.getD shots) (.ofSeed child)).mapError (⟨·, none⟩))
          ((Random.measure c (command.shots.getD shots) (.ofSeed child)).mapError (⟨·, none⟩)) := by
        cases Random.measure c (command.shots.getD shots) (.ofSeed child) with
        | ok counts => exact .ok counts
        | error cause => exact .error ⟨cause, none⟩
      exact follows_ofExcept_bind hmeasure fun counts _ => follows_pure rfl

theorem follows_runBlock :
    (runBlock root s : Action R _).Follows f (Result.renumber f) (runBlock root (s.renumber f)) := by
  refine follows_ofExcept_bind (follows_block f s) fun block hblock => ?_
  have hnodup := Parallel.nodup_labels_of_ofStatement hblock
  refine (follows_nextChild root).bind fun child => follows_get.bind fun st => ?_
  show Action.Follows f _ _ (modifyStore (bindOutcomes · (Parallel.run st.store.vars child (block.renumber f))) >>=
    fun _ => pure (Parallel.result (Parallel.run st.store.vars child (block.renumber f))))
  rw [Parallel.run_renumber f st.store.vars child hnodup]
  simp only [bindOutcomes_renumber]
  exact (follows_modifyStore _).bind fun _ => follows_pure (Parallel.result_renumber f _)

theorem follows_carryOut :
    (carryOut root shots s : Action R _).Follows f (Result.renumber f) (carryOut root shots (s.renumber f)) := by
  unfold carryOut
  rw [Statement.renumber_text]
  cases Source.classify s.text with
  | circuit => exact follows_define f s
  | parallel => exact follows_runBlock f root s
  | run => exact follows_runCircuit f root shots s
  | assignment => exact follows_assign f s.text s.line
  | literal => exact follows_pure rfl

/-! ### Programs -/

theorem follows_step : (step root shots s : Action R _).Follows f id (step root shots (s.renumber f)) := by
  unfold step
  refine Action.Follows.bind ((follows_carryOut f root shots s).withLine s.line) fun r => ?_
  show Action.Follows f id _ (if Source.classify s.text = .literal then _ else _)
  split
  · exact follows_pure rfl
  · exact fun _ => rfl

theorem follows_runStatements (program : List Statement) :
    (runStatements root shots program : Action R _).Follows f id
      (runStatements root shots (program.map (Statement.renumber f))) := by
  induction program with
  | nil => exact follows_pure rfl
  | cons s rest ih => exact (follows_step f root shots s).bind fun _ => ih

end statements

theorem State.answer_renumber (st : State R) : (st.renumber f).answer = st.answer.renumber f := by
  obtain ⟨store, drawn, result⟩ := st
  cases result <;> rfl

/-- A program whose lines have other numbers leaves the same store and gives the result with those numbers. -/
theorem runProgram_renumber (root : Random.Seed) (shots : Int) (store : Store R) {source source' : String}
    (h : Source.normalize source' = (Source.normalize source).map (SourceLine.renumber f)) :
    runProgram root shots store source' =
      ((runProgram root shots store source).1.renumber f, (runProgram root shots store source).2) := by
  have hstatements : Source.statements source' = (Source.statements source).map (Statement.renumber f) := by
    unfold Source.statements
    rw [h, Source.group_renumber]
  have hrun : (runStatements root shots (Source.statements source')).run { store } = _ :=
    hstatements ▸ follows_runStatements (R := R) f root shots (Source.statements source) { store }
  unfold runProgram
  rw [hrun]
  cases (runStatements root shots (Source.statements source)).run { store } with
  | ok _ st => exact congrArg (·, st.store) (st.answer_renumber f)
  | error g st => exact congrArg (·, st.store) (congrArg Result.failure (Report.renumber_ofFailure f g).symm)

theorem execute_renumber (settings : Settings) (fresh : Nat) (store : Store R) {source source' : String}
    (h : Source.normalize source' = (Source.normalize source).map (SourceLine.renumber f)) :
    execute settings fresh store source' =
      (execute settings fresh store source).map fun (r, final) => (r.renumber f, final) := by
  unfold execute
  cases settings.root fresh with
  | error fault => rfl
  | ok root => exact congrArg Except.ok (runProgram_renumber f root settings.defaultShots store h)

end Interpreter

end LabLang
