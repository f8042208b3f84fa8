import LabLang.Proofs.Actions

/-! # Executions

What a step and a whole execution can do, said once.  A step carries out its statement and, unless that is a
literal, keeps the result (`run_step_ok`, `run_step_error`).  A program either succeeds throughout or has a first
statement that fails (`runStatements_spec`).  Hence the result of an execution is the report of a failure, what some
statement has given, or the completion message (`execute_result`). -/

namespace LabLang.Interpreter

open LabLang.Interpreter.Action

variable {R : Type} [Scalar R] {root : Random.Seed} {shots : Int}

/-! ### Statements -/

/-- What a statement gives when it succeeds, and the state it leaves. -/
inductive Gives (root : Random.Seed) (shots : Int) (s : Statement) (st : State R) : Result R → State R → Prop
  | circuit {c : Circuit R} (kind : Source.classify s.text = .circuit) (read : Circuit.ofStatement s = .ok c) :
      Gives root shots s st (.circuit c.name c.qubits (.uncounted .null) "Quantum circuit defined")
        { st with store := st.store.define c }
  | parallel {block : Parallel.Block} {outcomes : Table (Outcome R)}
      (kind : Source.classify s.text = .parallel) (read : Parallel.Block.ofStatement (R := R) s = .ok block)
      (run : Parallel.run st.store.vars (root.child st.drawn) block = outcomes) :
      Gives root shots s st (Parallel.result outcomes)
        { st with store := bindOutcomes st.store outcomes, drawn := st.drawn + 1 }
  | run {command : RunCommand} {c : Circuit R} {counts : Table Nat} (kind : Source.classify s.text = .run)
      (read : RunCommand.read (R := R) s.text s.line = .ok command)
      (runnable : st.store.runnable? command.circuit = some c)
      (measured : Random.measure c (command.shots.getD shots) (.ofSeed (root.child st.drawn)) = .ok counts) :
      Gives root shots s st (measurement c (command.shots.getD shots) counts) { st with drawn := st.drawn + 1 }
  | assignment {b : Binding R} (kind : Source.classify s.text = .assignment)
      (read : Assignment.read s.text s.line = .ok b) :
      Gives root shots s st (bindingResult b) { st with store := st.store.bind b.name b.value }
  | literal (kind : Source.classify s.text = .literal) : Gives root shots s st (.success s.text) st

theorem gives_of_run {s : Statement} {st st' : State R} {r : Result R}
    (h : (carryOut root shots s).run st = .ok r st') : Gives root shots s st r st' := by
  unfold carryOut at h
  cases kind : Source.classify s.text with
  | circuit =>
      rw [kind] at h
      obtain ⟨c, read, h⟩ := ok_of_run_ofExcept_bind h
      cases h
      exact .circuit kind read
  | parallel =>
      rw [kind] at h
      obtain ⟨block, read, h⟩ := ok_of_run_ofExcept_bind h
      cases h
      exact .parallel kind read rfl
  | run =>
      rw [kind] at h
      obtain ⟨command, read, h⟩ := ok_of_run_ofExcept_bind h
      dsimp only at h
      rw [run_get_bind] at h
      cases runnable : st.store.runnable? command.circuit with
      | none => rw [runnable] at h; cases h
      | some c =>
          rw [runnable] at h
          dsimp only at h
          rw [run_nextChild_bind] at h
          obtain ⟨counts, measured, h⟩ := ok_of_run_ofExcept_bind h
          cases hm : Random.measure c (command.shots.getD shots) (.ofSeed (root.child st.drawn)) with
          | error cause => rw [hm] at measured; cases measured
          | ok counts' =>
              rw [hm] at measured
              cases measured
              cases h
              exact .run kind read runnable hm
  | assignment =>
      rw [kind] at h
      obtain ⟨b, read, h⟩ := ok_of_run_ofExcept_bind h
      cases h
      exact .assignment kind read
  | literal =>
      rw [kind] at h
      cases h
      exact .literal kind

/-- In this state the statement is a command to measure a circuit so many times. -/
inductive Measures (defaultShots : Int) (s : Statement) (st : State R) (c : Circuit R) : Int → Prop
  | command (command : RunCommand) (kind : Source.classify s.text = .run)
      (read : RunCommand.read (R := R) s.text s.line = .ok command)
      (runnable : st.store.runnable? command.circuit = some c) :
      Measures defaultShots s st c (command.shots.getD defaultShots)

/-- A command takes the next child of the seed for its measurement, whether that succeeds or not. -/
theorem Measures.run {s : Statement} {st : State R} {c : Circuit R} {count : Int} (h : Measures shots s st c count) :
    (carryOut root shots s).run st =
      match Random.measure c count (.ofSeed (root.child st.drawn)) with
      | .ok counts => .ok (measurement c count counts) { st with drawn := st.drawn + 1 }
      | .error cause => .error ⟨cause, none⟩ { st with drawn := st.drawn + 1 } := by
  obtain ⟨command, kind, read, runnable⟩ := h
  unfold carryOut runCircuit
  rw [kind]
  dsimp only
  rw [read, run_ofExcept_bind, run_get_bind, runnable]
  dsimp only
  rw [run_nextChild_bind]
  cases Random.measure c _ (.ofSeed (root.child st.drawn)) <;> rfl

/-! ### Steps -/

/-- A step carries out its statement.  If that fails, the failure is given the line of the statement; the result of a
literal is dropped. -/
theorem run_step (s : Statement) (st : State R) :
    (step root shots s).run st = match (carryOut root shots s).run st with
      | .ok r mid => .ok () (if Source.classify s.text = .literal then mid else { mid with result := some r })
      | .error f mid => .error (f.withLine s.line) mid := by
  unfold step
  rw [run_bind, run_adaptExcept]
  cases (carryOut root shots s).run st with
  | error f mid => rfl
  | ok r mid =>
      dsimp only
      split <;> rfl

/-- A step that succeeds has carried out its statement; the result is the one before or that of the statement. -/
theorem run_step_ok {s : Statement} {st st' : State R} (h : (step root shots s).run st = .ok () st') :
    ∃ r mid, Gives root shots s st r mid ∧
      ((Source.classify s.text = .literal ∧ st' = mid) ∨
        (Source.classify s.text ≠ .literal ∧ st' = { mid with result := some r })) := by
  rw [run_step] at h
  cases hc : (carryOut root shots s).run st with
  | error f mid => rw [hc] at h; cases h
  | ok r mid =>
      rw [hc] at h
      obtain ⟨-, rfl⟩ := EStateM.Result.ok.inj h
      refine ⟨r, mid, gives_of_run hc, ?_⟩
      by_cases hl : Source.classify s.text = .literal
      · exact .inl ⟨hl, if_pos hl⟩
      · exact .inr ⟨hl, if_neg hl⟩

/-- A step that fails has failed to carry out its statement. -/
theorem run_step_error {s : Statement} {st st' : State R} {f : Failure R}
    (h : (step root shots s).run st = .error f st') :
    ∃ g, (carryOut root shots s).run st = .error g st' ∧ f = g.withLine s.line := by
  rw [run_step] at h
  cases hc : (carryOut root shots s).run st with
  | ok r mid => rw [hc] at h; cases h
  | error g mid =>
      rw [hc] at h
      cases h
      exact ⟨g, rfl, rfl⟩

/-! ### Programs -/

/-- The statements succeed one after the other and lead from a state to another one. -/
inductive Succeed (root : Random.Seed) (shots : Int) : State R → List Statement → State R → Prop
  | nil (st : State R) : Succeed root shots st [] st
  | cons {st mid st' : State R} {s : Statement} {rest : List Statement}
      (head : (step root shots s).run st = .ok () mid) (tail : Succeed root shots mid rest st') :
      Succeed root shots st (s :: rest) st'

theorem runStatements_cons (s : Statement) (rest : List Statement) :
    (runStatements root shots (s :: rest) : Action R Unit) =
      (step root shots s >>= fun _ => runStatements root shots rest) := rfl

/-- Statements that succeed one after the other are a program that does. -/
theorem Succeed.run {st st' : State R} {program : List Statement} (h : Succeed root shots st program st') :
    (runStatements root shots program).run st = .ok () st' := by
  induction h with
  | nil st => rfl
  | cons head _ ih =>
      rw [runStatements_cons, run_bind, head]
      exact ih

/-- A program either succeeds throughout, or statement `k` is the first one to fail. -/
theorem runStatements_spec (root : Random.Seed) (shots : Int) (program : List Statement) (st : State R) :
    match (runStatements root shots program).run st with
    | .ok _ st' => Succeed root shots st program st'
    | .error f st' => ∃ k s before, program[k]? = some s ∧ Succeed root shots st (program.take k) before ∧
        (step root shots s).run before = .error f st' := by
  induction program generalizing st with
  | nil => exact .nil st
  | cons s rest ih =>
      rw [runStatements_cons, run_bind]
      cases hs : (step root shots s).run st with
      | error f st' => exact ⟨0, s, st, rfl, .nil st, hs⟩
      | ok _ mid =>
          have h := ih mid
          dsimp only
          cases hr : (runStatements root shots rest).run mid with
          | ok _ st' =>
              rw [hr] at h
              exact .cons hs h
          | error f st' =>
              rw [hr] at h
              obtain ⟨k, s', before, hk, hbefore, hs'⟩ := h
              exact ⟨k + 1, s', before, hk, .cons hs hbefore, hs'⟩

/-! ### Results -/

/-- Some statement has given the result. -/
def Given (r : Result R) : Prop :=
  ∃ (root : Random.Seed) (shots : Int) (s : Statement) (st st' : State R), Gives root shots s st r st'

/-- Carrying out a statement does not touch the result so far. -/
theorem Gives.result {s : Statement} {st st' : State R} {r : Result R} (h : Gives root shots s st r st') :
    st'.result = st.result := by
  cases h <;> rfl

theorem Succeed.result {st st' : State R} {program : List Statement} (h : Succeed root shots st program st') :
    st'.result = st.result ∨ ∃ r, st'.result = some r ∧ Given r := by
  induction h with
  | nil st => exact .inl rfl
  | @cons st mid st' s rest head _ ih =>
      rcases ih with ih | ih
      · obtain ⟨r, mid', hrun, h⟩ := run_step_ok head
        rcases h with ⟨_, rfl⟩ | ⟨_, rfl⟩
        · rw [ih]
          exact .inl hrun.result
        · exact .inr ⟨r, ih, root, shots, s, st, mid', hrun⟩
      · exact .inr ih

omit [Scalar R] in
/-- An execution starts from a seed unless the settings give one that is negative. -/
theorem exists_root_iff {settings : Settings} {fresh : Nat} :
    (∃ root, settings.root fresh = .ok root) ↔ ∀ n, settings.seed = some n → 0 ≤ n := by
  unfold Settings.root
  cases settings.seed with
  | none => simp
  | some n =>
      dsimp only
      split
      · rename_i hn
        exact iff_of_false (by simp) fun h => absurd (h n rfl) (Int.not_le.mpr hn)
      · rename_i hn
        exact iff_of_true ⟨_, rfl⟩ fun _ h => Option.some.inj h ▸ Int.not_lt.mp hn

/-- The result of an execution is the report of a failure, what a statement has given, or the completion
message. -/
theorem execute_result {settings : Settings} {fresh : Nat} {store final : Store R} {source : String} {r : Result R}
    (h : execute settings fresh store source = .ok (r, final)) :
    (∃ f, r = .failure (.ofFailure f)) ∨ Given r ∨ r = .success completionMessage := by
  unfold execute at h
  cases hroot : settings.root fresh with
  | error e => rw [hroot] at h; cases h
  | ok root =>
      rw [hroot] at h
      simp only [Except.map, Except.ok.injEq, runProgram] at h
      have spec := runStatements_spec root settings.defaultShots (Source.statements source) { store }
      cases hrun : (runStatements root settings.defaultShots (Source.statements source)).run { store } with
      | error f st =>
          rw [hrun] at h
          cases h
          exact .inl ⟨f, rfl⟩
      | ok _ st =>
          rw [hrun] at h spec
          cases h
          unfold State.answer
          rcases spec.result with hst | ⟨r, hr, hgiven⟩
          · rw [hst]
            exact .inr (.inr rfl)
          · rw [hr]
            exact .inr (.inl hgiven)

end LabLang.Interpreter
