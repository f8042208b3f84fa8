import LabLang.Proofs.Concatenation
import LabLang.Proofs.FailFast
import LabLang.Proofs.RenumberedRuns
import LabLang.Proofs.StreamPositions
import LabLang.Session

/-! # Sessions compose

A session carries nothing but its store from one execution to the next.  The random streams of an execution start again
from the seed, but they decide only what measurements count and what estimates give: whether a statement succeeds and
what it does to the store is the same for all streams if no branch estimates (`endAlike_carryOut`).  So a program leaves
the same store wherever its streams come from (`endAlike_runStatements`), and executing two programs one after the other
is executing their concatenation (`execute_append`). -/

namespace LabLang

/-! ### Streams without influence -/

namespace Expression

open Text

variable {R : Type} [Scalar R]

/-- The text is a call of `estimate_pi`, with arguments that are operands under some bindings. -/
def Estimates (R : Type) [Scalar R] (text : String) : Prop :=
  ∃ inner, splitCall (trim text.toList) = some ("estimate_pi".toList, inner) ∧
    ∃ (vars : Table (Value R)) (args : List (Value R)), operands? vars (arguments inner) = .ok (some args)

theorem Builtin.eq_of_ofName? {name : List Char} (h : ofName? name = some .estimatePi) :
    name = "estimate_pi".toList := by
  unfold ofName? at h
  split at h
  · assumption
  · split at h <;> cases h

/-- Only estimates depend on the stream. -/
theorem evaluate_of_not_estimates {text : String} (h : ¬ Estimates R text) (vars : Table (Value R))
    (g g' : Random.Stream) : evaluate vars g text = evaluate vars g' text := by
  have call (name inner : List Char) (hcall : splitCall (trim text.toList) = some (name, inner)) :
      evaluateCall vars g (trim text.toList) name inner = evaluateCall vars g' (trim text.toList) name inner := by
    unfold evaluateCall
    cases hb : Builtin.ofName? name with
    | none => rfl
    | some b =>
        dsimp only
        cases hargs : operands? vars (arguments inner) with
        | error cause => rfl
        | ok args =>
            cases args with
            | none => rfl
            | some args =>
                cases b with
                | average => rfl
                | estimatePi => exact absurd ⟨inner, Builtin.eq_of_ofName? hb ▸ hcall, vars, args, hargs⟩ h
  unfold evaluate
  dsimp only
  cases operand? vars (trim text.toList) with
  | error cause => rfl
  | ok v =>
      cases v with
      | some v => rfl
      | none =>
          dsimp only [Bind.bind, Except.bind]
          cases hcall : splitCall (trim text.toList) with
          | none => rfl
          | some parts => exact call parts.1 parts.2 hcall

end Expression

/-- Whether a measurement succeeds, and why it does not, is the same for all streams. -/
theorem Random.measure_or_error {R : Type} [Scalar R] (c : Circuit R) (shots : Int) :
    (∀ g, ∃ counts, measure c shots g = .ok counts) ∨ ∃ cause, ∀ g, measure c shots g = .error cause := by
  unfold measure sample
  cases outcomes c with
  | error cause => exact .inr ⟨cause, fun _ => rfl⟩
  | ok probs =>
      cases hchances : checkChances probs shots with
      | error fault => exact .inr ⟨.internal fault, fun g => by simp [Bind.bind, Except.bind, hchances]; rfl⟩
      | ok _ => exact .inl fun g => ⟨_, by simp [Bind.bind, Except.bind, hchances]; rfl⟩

namespace Interpreter

open LabLang.Interpreter.Action

variable {R : Type} [Scalar R]

/-- If the statement is a parallel block, none of its branches estimates. -/
def EstimatesNothing (R : Type) [Scalar R] (s : Statement) : Prop :=
  ∀ block, Opens R s block → ∀ branch ∈ block.branches, ¬ Expression.Estimates R branch.expression

/-- Numbers of lines have no part in it. -/
theorem EstimatesNothing.renumber {s : Statement} (h : EstimatesNothing R s) (f : Nat → Nat) :
    EstimatesNothing R (s.renumber f) := by
  intro block opens branch hbranch
  have hread := follows_block (R := R) f s
  rw [opens.read] at hread
  generalize hx : Parallel.Block.ofStatement (R := R) s = x at hread
  cases hread with
  | ok block =>
      obtain ⟨branch, hb, rfl⟩ := List.mem_map.mp hbranch
      exact h block ⟨opens.kind, hx⟩ branch hb

theorem run_of_estimatesNothing {s : Statement} {block : Parallel.Block} (h : EstimatesNothing R s)
    (opens : Opens R s block) (vars : Table (Value R)) (seed seed' : Random.Seed) :
    Parallel.run vars seed block = Parallel.run vars seed' block := by
  have hnodup := Parallel.nodup_labels_of_ofStatement opens.read
  rw [Parallel.run_eq_slotsOf vars seed hnodup, Parallel.run_eq_slotsOf vars seed' hnodup]
  unfold Parallel.slotsOf Parallel.jobs
  rw [List.map_map, List.map_map]
  refine List.map_congr_left fun ⟨branch, i⟩ hmem => ?_
  have hbranch : branch ∈ block.branches := List.fst_mem_of_mem_zipIdx hmem
  dsimp only [Function.comp_apply, Parallel.Job.run]
  rw [Expression.evaluate_of_not_estimates (h block opens branch hbranch) vars _ (.ofSeed (seed'.child i))]

/-! ### Runs that end alike -/

/-- Both runs succeed or both fail for the same reason, and they leave the same store. -/
inductive EndAlike {α β : Type} :
    EStateM.Result (Failure R) (State R) α → EStateM.Result (Failure R) (State R) β → Prop
  | ok {x : α} {y : β} {st st' : State R} (store : st.store = st'.store) : EndAlike (.ok x st) (.ok y st')
  | error {f : Failure R} {st st' : State R} (store : st.store = st'.store) : EndAlike (.error f st) (.error f st')

section alike

variable (root root' : Random.Seed) (shots : Int) {s : Statement} {st st' : State R}

theorem endAlike_assignment (store : st.store = st'.store) (text : String) (line : Option Nat) :
    EndAlike ((assignment text line).run st) ((assignment text line).run st') := by
  unfold assignment
  cases Assignment.read (R := R) text line with
  | error f => exact .error store
  | ok b => exact .ok (congrArg (·.bind b.name b.value) store)

theorem endAlike_define (store : st.store = st'.store) : EndAlike ((define s).run st) ((define s).run st') := by
  unfold define
  cases Circuit.ofStatement (R := R) s with
  | error f => exact .error store
  | ok c => exact .ok (congrArg (·.define c) store)

theorem endAlike_runCircuit (store : st.store = st'.store) :
    EndAlike ((runCircuit root shots s).run st) ((runCircuit root' shots s).run st') := by
  unfold runCircuit
  cases RunCommand.read (R := R) s.text s.line with
  | error f => exact .error store
  | ok command =>
      rw [run_ofExcept_bind, run_ofExcept_bind, run_get_bind, run_get_bind, store]
      cases st'.store.runnable? command.circuit with
      | none => exact .error store
      | some c =>
          dsimp only
          rw [run_nextChild_bind, run_nextChild_bind]
          rcases Random.measure_or_error c (command.shots.getD shots) with hmeasure | ⟨cause, hmeasure⟩
          · obtain ⟨counts, hcounts⟩ := hmeasure (.ofSeed (root.child st.drawn))
            obtain ⟨counts', hcounts'⟩ := hmeasure (.ofSeed (root'.child st'.drawn))
            rw [hcounts, hcounts']
            exact .ok store
          · rw [hmeasure, hmeasure]
            exact .error store

theorem endAlike_runBlock (kind : Source.classify s.text = .parallel) (steady : EstimatesNothing R s)
    (store : st.store = st'.store) :
    EndAlike ((runBlock root s).run st) ((runBlock root' s).run st') := by
  unfold runBlock
  cases read : Parallel.Block.ofStatement (R := R) s with
  | error f => exact .error store
  | ok block =>
      rw [run_ofExcept_bind, run_ofExcept_bind, run_nextChild_bind, run_nextChild_bind, run_get_bind, run_get_bind]
      dsimp only
      rw [store, run_of_estimatesNothing steady ⟨kind, read⟩ _ _ (root'.child st'.drawn)]
      exact .ok rfl

/-- A statement without estimates does to the store what it does, whatever its streams are. -/
theorem endAlike_carryOut (steady : EstimatesNothing R s) (store : st.store = st'.store) :
    EndAlike ((carryOut root shots s).run st) ((carryOut root' shots s).run st') := by
  unfold carryOut
  cases kind : Source.classify s.text with
  | circuit => exact endAlike_define store
  | parallel => exact endAlike_runBlock root root' kind steady store
  | run => exact endAlike_runCircuit root root' shots store
  | assignment => exact endAlike_assignment store s.text s.line
  | literal => exact .ok store

theorem endAlike_step (steady : EstimatesNothing R s) (store : st.store = st'.store) :
    EndAlike ((step root shots s).run st) ((step root' shots s).run st') := by
  have h := endAlike_carryOut root root' shots steady store
  rw [run_step, run_step]
  generalize (carryOut root shots s).run st = end₁ at h ⊢
  generalize (carryOut root' shots s).run st' = end₂ at h ⊢
  cases h with
  | error store => exact .error store
  | ok store =>
      dsimp only
      split
      · exact .ok store
      · exact .ok store

/-- **A program without estimates leaves the same store, whatever its streams are.** -/
theorem endAlike_runStatements {program : List Statement} (steady : ∀ s ∈ program, EstimatesNothing R s)
    (store : st.store = st'.store) :
    EndAlike ((runStatements root shots program).run st) ((runStatements root' shots program).run st') := by
  induction program generalizing st st' with
  | nil => exact .ok store
  | cons s rest ih =>
      have h := endAlike_step root root' shots (steady s List.mem_cons_self) store
      rw [runStatements_cons, runStatements_cons, run_bind, run_bind]
      generalize (step root shots s).run st = end₁ at h ⊢
      generalize (step root' shots s).run st' = end₂ at h ⊢
      cases h with
      | error store => exact .error store
      | ok store => exact ih (fun s' hs' => steady s' (List.mem_cons_of_mem s hs')) store

end alike

/-! ### Programs one after the other -/

section programs

/-- Statements before others are carried out first. -/
theorem run_runStatements_append (root : Random.Seed) (shots : Int) (program rest : List Statement) (st : State R) :
    (runStatements root shots (program ++ rest)).run st = match (runStatements root shots program).run st with
      | .ok _ mid => (runStatements root shots rest).run mid
      | .error f mid => .error f mid := by
  induction program generalizing st with
  | nil => rfl
  | cons s program ih =>
      rw [List.cons_append, runStatements_cons, runStatements_cons, run_bind, run_bind]
      cases (step root shots s).run st with
      | ok _ mid => exact ih mid
      | error f mid => rfl

/-- Behind another program, with other numbers and other streams, a program without estimates does what it does alone.
-/
theorem run_renumbered_alike (root root' : Random.Seed) (shots : Int) (f : Nat → Nat) {program : List Statement}
    (steady : ∀ s ∈ program, EstimatesNothing R s) (st : State R) :
    match (runStatements root' shots program).run { store := st.store } with
    | .ok _ last => ∃ final, (runStatements root shots (program.map (Statement.renumber f))).run st = .ok () final ∧
        final.store = last.store
    | .error g last => ∃ final, (runStatements root shots (program.map (Statement.renumber f))).run st =
        .error (g.renumber f) final ∧ final.store = last.store := by
  have steady' : ∀ s ∈ program.map (Statement.renumber f), EstimatesNothing R s := by
    intro s hs
    obtain ⟨s, hmem, rfl⟩ := List.mem_map.mp hs
    exact (steady s hmem).renumber f
  have alike := endAlike_runStatements root root' shots steady'
    (show st.store = State.store { store := st.store } from rfl)
  have follows : (runStatements root' shots (program.map (Statement.renumber f))).run { store := st.store } = _ :=
    follows_runStatements f root' shots program { store := st.store }
  rw [follows] at alike
  generalize (runStatements root shots (program.map (Statement.renumber f))).run st = ending at alike ⊢
  cases hrun : (runStatements root' shots program).run { store := st.store } with
  | ok _ last =>
      rw [hrun] at alike
      cases alike with
      | ok store => exact ⟨_, rfl, store⟩
  | error g last =>
      rw [hrun] at alike
      cases alike with
      | error store => exact ⟨_, rfl, store⟩

variable {root : Random.Seed} {shots : Int}

/-- A block whose brace is not closed cannot be carried out. -/
theorem Gives.terminated {s : Statement} {st st' : State R} {r : Result R} (h : Gives root shots s st r st')
    (block : Source.classify s.text = .parallel) : s.terminated = true := by
  cases h with
  | parallel _ read _ =>
      unfold Parallel.Block.ofStatement at read
      obtain ⟨_, read⟩ := ok_of_test read
      obtain ⟨hterminated, _⟩ := ok_of_test read
      simpa using hterminated
  | circuit kind _ | run kind _ _ _ | assignment kind _ | literal kind => rw [kind] at block; cases block

/-- A program that has succeeded has closed its braces. -/
theorem Succeed.terminated {st st' : State R} {program : List Statement} (h : Succeed root shots st program st') :
    ∀ s ∈ program, Source.classify s.text = .parallel → s.terminated = true := by
  induction h with
  | nil st => exact fun s hs => absurd hs List.not_mem_nil
  | cons head _ ih =>
      intro s hs block
      rcases List.mem_cons.mp hs with rfl | hs
      · obtain ⟨r, mid, hgives, -⟩ := run_step_ok head
        exact hgives.terminated block
      · exact ih s hs block

/-- The answer to a program that has succeeded is no failure. -/
theorem Succeed.isFailure_answer {store : Store R} {st : State R} {program : List Statement}
    (h : Succeed root shots { store } program st) : st.answer.isFailure = false := by
  unfold State.answer
  rcases h.result with hr | ⟨r, hr, given⟩
  · rw [hr]
    rfl
  · rw [hr]
    exact given.isFailure

/-- A program without a failure has succeeded throughout. -/
theorem succeed_of_runProgram {store : Store R} {source : String}
    (h : (runProgram root shots store source).1.isFailure = false) :
    ∃ st, (runStatements root shots (Source.statements source)).run { store } = .ok () st ∧
      Succeed root shots { store } (Source.statements source) st ∧
      (runProgram root shots store source).2 = st.store := by
  have spec := runStatements_spec root shots (Source.statements source) { store }
  unfold runProgram at h ⊢
  cases hrun : (runStatements root shots (Source.statements source)).run { store } with
  | error f st =>
      rw [hrun] at h
      cases h
  | ok _ st =>
      rw [hrun] at spec
      exact ⟨st, rfl, spec, rfl⟩

/-- Two programs one after the other, each of them with streams of its own, leave the store that they leave together. -/
theorem exists_runProgram_append (root root₂ : Random.Seed) {root₁ : Random.Seed} {store : Store R}
    {first second : String}
    (steady : ∀ s ∈ Source.statements first, EstimatesNothing R s)
    (steady' : ∀ s ∈ Source.statements second, EstimatesNothing R s)
    (indent : ∀ l ∈ (Source.normalize second).head?, l.indent = 0)
    (succeeds : (runProgram root₁ shots store first).1.isFailure = false) :
    ∃ (k : Nat) (whole last : Result R) (final : Store R),
      runProgram root shots store (first ++ "\n" ++ second) = (whole, final) ∧
      runProgram root₂ shots (runProgram root₁ shots store first).2 second = (last, final) ∧
      whole.isFailure = last.isFailure ∧
      ∀ report, last = .failure report → whole = .failure (report.renumber (· + k)) := by
  obtain ⟨st₁, hrun₁, succeed₁, hstore₁⟩ := succeed_of_runProgram succeeds
  obtain ⟨k, hstatements⟩ : ∃ k, Source.statements (first ++ "\n" ++ second) =
      Source.statements first ++ (Source.statements second).map (Statement.renumber (· + k)) := by
    refine Source.exists_statements_append (fun s hs => ?_) indent
    cases hterminated : s.terminated with
    | true => rfl
    | false =>
        have block := Source.classify_of_unterminated hs hterminated
        rw [succeed₁.terminated s hs block] at hterminated
        cases hterminated
  -- the first program, with the streams of the whole one
  obtain ⟨st, hrun, hst⟩ : ∃ st, (runStatements root shots (Source.statements first)).run { store } = .ok () st ∧
      st₁.store = st.store := by
    have h := endAlike_runStatements root₁ root shots steady (Eq.refl (State.store { store }))
    rw [hrun₁] at h
    generalize (runStatements root shots (Source.statements first)).run { store } = ending at h
    cases h with
    | ok h => exact ⟨_, rfl, h⟩
  have alike := run_renumbered_alike root root₂ shots (· + k) steady' st
  have hwhole := run_runStatements_append root shots (Source.statements first)
    ((Source.statements second).map (Statement.renumber (· + k))) { store }
  have spec := runStatements_spec root shots (Source.statements (first ++ "\n" ++ second)) { store }
  rw [hrun] at hwhole
  dsimp only at hwhole
  rw [hstore₁, hst]
  unfold runProgram
  rw [hstatements] at spec ⊢
  cases hlast : (runStatements root₂ shots (Source.statements second)).run { store := st.store } with
  | ok _ last =>
      rw [hlast] at alike
      obtain ⟨final, hfinal, hstore⟩ := alike
      have succeed := runStatements_spec root₂ shots (Source.statements second) { store := st.store }
      rw [hlast] at succeed
      rw [hfinal] at hwhole
      rw [hwhole] at spec ⊢
      have hanswer : last.answer.isFailure = false := succeed.isFailure_answer
      refine ⟨k, final.answer, last.answer, last.store, ?_, rfl, ?_, fun report hreport => ?_⟩
      · exact congrArg (final.answer, ·) hstore
      · exact spec.isFailure_answer.trans hanswer.symm
      · rw [hreport] at hanswer
        cases hanswer
  | error g last =>
      rw [hlast] at alike
      obtain ⟨final, hfinal, hstore⟩ := alike
      rw [hfinal] at hwhole
      rw [hwhole]
      refine ⟨k, .failure (.ofFailure (g.renumber (· + k))), .failure (.ofFailure g), last.store, ?_, rfl, rfl,
        fun report hreport => ?_⟩
      · exact congrArg (Result.failure (.ofFailure (g.renumber (· + k))), ·) hstore
      · cases hreport
        rw [Report.renumber_ofFailure]

end programs

end Interpreter

namespace Session

open Interpreter

variable {R : Type} [Scalar R]

/-- An execution of a session that has a store and a seed. -/
theorem execute_eq {settings : Settings} {store : Store R} {fresh : Nat} {root : Random.Seed}
    (h : settings.root fresh = .ok root) (source : String) :
    execute ⟨settings, some store⟩ fresh source =
      ((runProgram root settings.defaultShots store source).1,
        ⟨settings, some (runProgram root settings.defaultShots store source).2⟩) := by
  unfold execute Interpreter.execute
  rw [h]
  rfl

/-- **Sessions compose.**  Let no branch of two programs estimate, let the first one end without a failure in a session
that keeps its store, and let the second one start without indentation.  Then the session that executes both, one after
the other, is the session that executes them as one text with a line feed between them, and the second program fails
exactly if the whole text does: for the same reason, at a line that has a greater number. -/
theorem execute_append (s : Session R) (persistent : s.isPersistent = true) {first second : String}
    (steady : ∀ s ∈ Source.statements first, EstimatesNothing R s)
    (steady' : ∀ s ∈ Source.statements second, EstimatesNothing R s)
    (indent : ∀ l ∈ (Source.normalize second).head?, l.indent = 0) {fresh : Nat}
    (succeeds : (s.execute fresh first).1.isFailure = false) (fresh' fresh'' : Nat) :
    ∃ (k : Nat) (whole last : Result R) (final : Session R),
      s.execute fresh'' (first ++ "\n" ++ second) = (whole, final) ∧
      (s.execute fresh first).2.execute fresh' second = (last, final) ∧
      whole.isFailure = last.isFailure ∧
      ∀ report, last = .failure report → whole = .failure (report.renumber (· + k)) := by
  obtain ⟨settings, store⟩ := s
  cases store with
  | none => cases persistent
  | some store =>
      cases hroot : settings.root fresh with
      | error fault =>
          unfold execute Interpreter.execute at succeeds
          rw [hroot] at succeeds
          cases succeeds
      | ok root =>
          have seed := exists_root_iff.mp ⟨root, hroot⟩
          obtain ⟨root', hroot'⟩ := exists_root_iff.mpr seed
          obtain ⟨root'', hroot''⟩ := exists_root_iff.mpr seed
          rw [execute_eq hroot] at succeeds ⊢
          obtain ⟨k, whole, last, final, hwhole, hlast, failure, report⟩ :=
            exists_runProgram_append root'' root' steady steady' indent succeeds
          refine ⟨k, whole, last, ⟨settings, some final⟩, ?_, ?_, failure, report⟩
          · rw [execute_eq hroot'', hwhole]
          · rw [execute_eq hroot', hlast]

/-- A block without a brace at the end of the first program; the second one measures a circuit of the first one, reads
the binding of its branch and fails. -/
theorem execute_append_open_block :
    ∃ (s : Session Float) (first second : String), s = start ⟨some 7, 1000, none⟩ true ∧
      first = "quantum circuit c:\n  qubits: 1\n  X(0)\nparallel:\n  branch A: \"x\"" ∧
      second = "run c\nparallel \x7b\n  branch B: A\n\x7d\nz = = 2" ∧
      s.isPersistent = true ∧ (∀ s ∈ Source.statements first, EstimatesNothing Float s) ∧
      (∀ s ∈ Source.statements second, EstimatesNothing Float s) ∧
      (∀ l ∈ (Source.normalize second).head?, l.indent = 0) ∧ (s.execute 0 first).1.isFailure = false ∧
      ∃ (k : Nat) (whole last : Result Float) (final : Session Float),
        s.execute 0 (first ++ "\n" ++ second) = (whole, final) ∧
        (s.execute 0 first).2.execute 0 second = (last, final) ∧
        whole.isFailure = last.isFailure ∧
        ∀ report, last = .failure report → whole = .failure (report.renumber (· + k)) := by
  obtain ⟨first, hfirst⟩ : ∃ first : String,
      first = "quantum circuit c:\n  qubits: 1\n  X(0)\nparallel:\n  branch A: \"x\"" := ⟨_, rfl⟩
  obtain ⟨second, hsecond⟩ : ∃ second : String,
      second = "run c\nparallel \x7b\n  branch B: A\n\x7d\nz = = 2" := ⟨_, rfl⟩
  -- a block with a single branch that is no call
  have single {s : Statement} (label text : String) (line head : Nat) (h : Parallel.Block.ofStatement (R := Float) s =
      .ok ⟨[⟨label, text, line⟩], head⟩) (hcall : Text.splitCall (Text.trim text.toList) = none) :
      EstimatesNothing Float s := by
    intro block opens branch hbranch
    rw [opens.read] at h
    cases h
    cases List.mem_singleton.mp hbranch
    rintro ⟨inner, hinner, -⟩
    rw [hcall] at hinner
    cases hinner
  have other {s : Statement} (h : Source.classify s.text ≠ .parallel) : EstimatesNothing Float s :=
    fun block opens => absurd opens.kind h
  have steady : ∀ s ∈ Source.statements first, EstimatesNothing Float s := by
    have hstatements : Source.statements first =
        [⟨1, "quantum circuit c:", [⟨2, 2, "qubits: 1"⟩, ⟨3, 2, "X(0)"⟩], true⟩,
        ⟨4, "parallel:", [⟨5, 2, "branch A: \"x\""⟩], true⟩] := by
      rw [hfirst]
      decide +kernel
    rw [hstatements]
    intro s hs
    rcases List.mem_pair.mp hs with rfl | rfl
    · exact other (by decide +kernel)
    · exact single "A" "\"x\"" 5 4 (by rfl) (by decide +kernel)
  have steady' : ∀ s ∈ Source.statements second, EstimatesNothing Float s := by
    have hstatements : Source.statements second = [⟨1, "run c", [], true⟩,
        ⟨2, "parallel \x7b", [⟨3, 2, "branch B: A"⟩], true⟩, ⟨5, "z = = 2", [], true⟩] := by
      rw [hsecond]
      decide +kernel
    rw [hstatements]
    intro s hs
    simp only [List.mem_cons, List.not_mem_nil, or_false] at hs
    rcases hs with rfl | rfl | rfl
    · exact other (by decide +kernel)
    · exact single "B" "A" 3 2 (by rfl) (by decide +kernel)
    · exact other (by decide +kernel)
  have indent : ∀ l ∈ (Source.normalize second).head?, l.indent = 0 := by
    rw [hsecond]
    decide +kernel
  have succeeds : ((start ⟨some 7, 1000, none⟩ true : Session Float).execute 0 first).1.isFailure = false := by
    rw [hfirst]
    decide +kernel
  exact ⟨start ⟨some 7, 1000, none⟩ true, first, second, rfl, hfirst, hsecond, rfl, steady, steady', indent, succeeds,
    execute_append _ rfl steady steady' indent succeeds 0 0⟩

end Session

end LabLang
