import LabLang.Proofs.Execution

/-! # Literals have no effect

A statement that is a literal succeeds in every state and leaves it as it is (`run_step_of_literal`).  So a program can do
without its literals: its result, the state that it leaves and the seeds that its statements take stay the same.  If no
statement fails, the result is that of the last statement that is no literal (`literals_have_no_effect`). -/

namespace LabLang.Interpreter

open LabLang.Interpreter.Action

variable {R : Type} [Scalar R] {root : Random.Seed} {shots : Int}

/-- The statement is no literal. -/
def isMeaningful (s : Statement) : Bool := Source.classify s.text != .literal

/-- The statements of a program that are no literals. -/
def meaningful (program : List Statement) : List Statement := program.filter isMeaningful

/-! ### Steps -/

/-- A literal succeeds and leaves the state as it is. -/
theorem run_step_of_literal {s : Statement} (h : isMeaningful s = false) (st : State R) :
    (step root shots s).run st = .ok () st := by
  have kind : Source.classify s.text = .literal := by simpa [isMeaningful] using h
  have hcarry : (carryOut root shots s).run st = .ok (.success s.text) st := by
    unfold carryOut
    rw [kind]
    rfl
  rw [run_step, hcarry]
  exact congrArg (EStateM.Result.ok ()) (if_pos kind)

/-- Any other statement that succeeds gives the result so far. -/
theorem exists_of_run_step {s : Statement} (h : isMeaningful s = true) {st st' : State R}
    (hrun : (step root shots s).run st = .ok () st') :
    ∃ r mid, (carryOut root shots s).run st = .ok r mid ∧ st' = { mid with result := some r } := by
  have kind : Source.classify s.text ≠ .literal := bne_iff_ne.mp h
  rw [run_step] at hrun
  cases hcarry : (carryOut root shots s).run st with
  | error f mid => rw [hcarry] at hrun; cases hrun
  | ok r mid =>
      rw [hcarry] at hrun
      obtain ⟨-, rfl⟩ := EStateM.Result.ok.inj hrun
      exact ⟨r, mid, rfl, if_neg kind⟩

/-! ### Seeds -/

/-- The children of the seed that a statement takes between two states. -/
def seedsBetween (root : Random.Seed) (s : Statement) (st st' : State R) : List (Statement × Random.Seed) :=
  (List.range' st.drawn (st'.drawn - st.drawn)).map fun i => (s, root.child i)

/-- The seeds that are taken while statements are carried out up to the first failure, with the statements that take
them. -/
def seedsTaken (root : Random.Seed) (shots : Int) : State R → List Statement → List (Statement × Random.Seed)
  | _, [] => []
  | st, s :: rest =>
    match (step root shots s).run st with
    | .ok _ mid => seedsBetween root s st mid ++ seedsTaken root shots mid rest
    | .error _ mid => seedsBetween root s st mid

theorem seedsBetween_self (s : Statement) (st : State R) : seedsBetween root s st st = [] := by
  unfold seedsBetween
  rw [Nat.sub_self]
  rfl

/-! ### Programs -/

theorem meaningful_cons_of_literal {s : Statement} (h : isMeaningful s = false) (rest : List Statement) :
    meaningful (s :: rest) = meaningful rest :=
  List.filter_cons_of_neg (Bool.eq_false_iff.mp h)

theorem meaningful_cons {s : Statement} (h : isMeaningful s = true) (rest : List Statement) :
    meaningful (s :: rest) = s :: meaningful rest :=
  List.filter_cons_of_pos h

/-- A program runs as it does without its literals. -/
theorem runStatements_meaningful (program : List Statement) (st : State R) :
    (runStatements root shots (meaningful program)).run st = (runStatements root shots program).run st := by
  induction program generalizing st with
  | nil => rfl
  | cons s rest ih =>
      rw [runStatements_cons, run_bind]
      cases hs : isMeaningful s with
      | false =>
          rw [meaningful_cons_of_literal hs, run_step_of_literal hs]
          exact ih st
      | true =>
          rw [meaningful_cons hs, runStatements_cons, run_bind]
          cases (step root shots s).run st with
          | error f mid => rfl
          | ok _ mid => exact ih mid

/-- Literals take no seeds, and the other statements take the same ones without them. -/
theorem seedsTaken_meaningful (program : List Statement) (st : State R) :
    seedsTaken root shots st (meaningful program) = seedsTaken root shots st program := by
  induction program generalizing st with
  | nil => rfl
  | cons s rest ih =>
      rw [seedsTaken]
      cases hs : isMeaningful s with
      | false =>
          rw [meaningful_cons_of_literal hs, run_step_of_literal hs]
          dsimp only
          rw [seedsBetween_self, List.nil_append, ih]
      | true =>
          rw [meaningful_cons hs, seedsTaken]
          cases (step root shots s).run st with
          | error f mid => rfl
          | ok _ mid => exact congrArg (_ ++ ·) (ih mid)

/-- The last statement of a program that is no literal gives `r`, in the state that those before it have led to, and
leaves the state `last`. -/
def GivesLast (root : Random.Seed) (shots : Int) (st : State R) (program : List Statement) (r : Result R)
    (last : State R) : Prop :=
  ∃ before s after mid, program = before ++ s :: after ∧ isMeaningful s = true ∧ meaningful after = [] ∧
    Succeed root shots st before mid ∧ (carryOut root shots s).run mid = .ok r last

/-- Statements that succeed leave the result of the last one that is no literal. -/
theorem Succeed.givesLast {st st' : State R} {program : List Statement} (h : Succeed root shots st program st') :
    (meaningful program = [] ∧ st' = st) ∨
      ∃ r last, GivesLast root shots st program r last ∧ st' = { last with result := some r } := by
  induction h with
  | nil st => exact .inl ⟨rfl, rfl⟩
  | @cons st mid st' s rest head tail ih =>
      rcases ih with ⟨hrest, rfl⟩ | ⟨r, last, ⟨before, s', after, mid', hprogram, hs', hafter, hbefore, hgives⟩, rfl⟩
      · cases hs : isMeaningful s with
        | false =>
            rw [run_step_of_literal hs] at head
            cases head
            exact .inl ⟨(meaningful_cons_of_literal hs rest).trans hrest, rfl⟩
        | true =>
            obtain ⟨r, last, hgives, rfl⟩ := exists_of_run_step hs head
            exact .inr ⟨r, last, ⟨[], s, rest, st, rfl, hs, hrest, .nil st, hgives⟩, rfl⟩
      · refine .inr ⟨r, last, ⟨s :: before, s', after, mid', ?_, hs', hafter, .cons head hbefore, hgives⟩, rfl⟩
        rw [hprogram, List.cons_append]

/-! ### Results -/

/-- What becomes of a program that is carried out on a store: its result, and the state that it leaves. -/
def conclusion (root : Random.Seed) (shots : Int) (store : Store R) (program : List Statement) : Result R × State R :=
  match (runStatements root shots program).run { store } with
  | .ok _ st => (st.answer, st)
  | .error f st => (.failure (.ofFailure f), st)

theorem runProgram_eq_conclusion (root : Random.Seed) (shots : Int) (store : Store R) (source : String) :
    runProgram root shots store source = ((conclusion root shots store (Source.statements source)).1,
      (conclusion root shots store (Source.statements source)).2.store) := by
  unfold runProgram conclusion
  cases (runStatements root shots (Source.statements source)).run { store } <;> rfl

/-- A program that succeeds is concluded by the state that it leaves. -/
theorem Succeed.conclusion_eq {store : Store R} {program : List Statement} {st : State R}
    (h : Succeed root shots { store } program st) : conclusion root shots store program = (st.answer, st) := by
  unfold conclusion
  rw [h.run]

/-- **Literals have no effect.**  Without its literals a program has the same result, leaves the same state and takes the
same seeds for the same statements.  If all of its statements succeed, the result is that of the last one that is no
literal, or tells that the program has been carried out if there is none. -/
theorem literals_have_no_effect (root : Random.Seed) (shots : Int) (store : Store R) (program : List Statement) :
    conclusion root shots store (meaningful program) = conclusion root shots store program ∧
    seedsTaken root shots { store } (meaningful program) = seedsTaken root shots { store } program ∧
    (∀ st, Succeed root shots { store } program st →
      (meaningful program = [] ∧
        conclusion root shots store program = (.success "Execution completed", { store })) ∨
      ∃ r last, GivesLast root shots { store } program r last ∧
        conclusion root shots store program = (r, { last with result := some r })) ∧
    (∀ source, Source.statements source = program → runProgram root shots store source =
      ((conclusion root shots store (meaningful program)).1, (conclusion root shots store (meaningful program)).2.store))
    := by
  have hconclusion : conclusion root shots store (meaningful program) = conclusion root shots store program := by
    unfold conclusion
    rw [runStatements_meaningful]
  refine ⟨hconclusion, seedsTaken_meaningful program _, fun st succeeded => ?_, ?_⟩
  · rcases succeeded.givesLast with ⟨hnone, rfl⟩ | ⟨r, last, hlast, rfl⟩
    · exact .inl ⟨hnone, succeeded.conclusion_eq⟩
    · exact .inr ⟨r, last, hlast, succeeded.conclusion_eq⟩
  · rintro source rfl
    rw [hconclusion]
    exact runProgram_eq_conclusion root shots store source

end LabLang.Interpreter
