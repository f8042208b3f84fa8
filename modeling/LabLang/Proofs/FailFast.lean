import LabLang.Proofs.Execution
import LabLang.Proofs.FailureLines
import LabLang.Scalar.Machine

/-! # Programs end at the first failure

Every statement is carried out completely or not at all: if it fails, the store is the one it was given
(`allOrNothing_carryOut`), although its handler writes to the store while it runs.  Hence an execution that ends with
a failure leaves the store of the statements before the failing one, and its report has the number of a line of that
statement (`execute_stops_at_first_failure`). -/

namespace LabLang.Interpreter

open LabLang.Interpreter.Action

variable {R : Type} [Scalar R]

/-! ### Statements -/

/-- An action that, if it fails, names no line or an owned one and leaves the store as it was. -/
def AllOrNothing (owned : Nat → Prop) (a : Action R (Result R)) : Prop :=
  ∀ store : Store R, a.Meets (fun st => st.store = store) (fun _ _ => True)
    fun f st => st.store = store ∧ ∀ n, f.line = some n → owned n

/-- Reading what a statement says does not touch the store. -/
theorem meets_read {α : Type} {owned : Nat → Prop} {x : Except (Failure R) α} (h : FailsIn owned x)
    (store : Store R) :
    (ofExcept x).Meets (fun st => st.store = store) (fun _ st => st.store = store)
      fun f st => st.store = store ∧ ∀ n, f.line = some n → owned n :=
  meets_ofExcept (fun _ _ _ hst => hst) fun f _ hf hst => ⟨hst, h f hf⟩

/-- Taking a child of the seed does not touch the store. -/
theorem meets_draw {E : Failure R → State R → Prop} (root : Random.Seed) (store : Store R) :
    (nextChild root).Meets (fun st => st.store = store) (fun _ st => st.store = store) E :=
  meets_nextChild root fun _ hst => hst

/-- The writes at the end of a statement cannot fail. -/
theorem meets_commit {P : State R → Prop} {E : Failure R → State R → Prop} (g : Store R → Store R) (r : Result R) :
    (do modifyStore g; pure r : Action R (Result R)).Meets P (fun _ _ => True) E :=
  fun _ _ => trivial

theorem allOrNothing_assignment {owned : Nat → Prop} {line : Option Nat} (text : String)
    (h : ∀ n, line = some n → owned n) : AllOrNothing owned (assignment (R := R) text line) := by
  intro store
  unfold assignment
  refine meets_bind (meets_read (failsIn_assignment text h) store) fun b => ?_
  exact meets_commit _ (bindingResult b)

theorem allOrNothing_define (s : Statement) : AllOrNothing s.Owns (define (R := R) s) := by
  intro store
  unfold define
  refine meets_bind (meets_read (failsIn_circuit s) store) fun c => ?_
  exact meets_commit _ _

theorem allOrNothing_runCircuit (root : Random.Seed) (shots : Int) (s : Statement) :
    AllOrNothing s.Owns (runCircuit (R := R) root shots s) := by
  have head : ∀ n, some s.line = some n → s.Owns n := fun n hn => Option.some.inj hn ▸ s.owns_head
  intro store
  unfold runCircuit
  refine meets_bind (meets_read (failsIn_command s.text head) store) fun command => ?_
  refine meets_bind (Q := fun _ st => st.store = store) ?_ fun before => ?_
  · exact meets_get fun _ hst => hst
  · split
    · exact meets_throw _ fun _ hst => ⟨hst, head⟩
    · rename_i c hc
      refine meets_bind (meets_draw root store) fun child => ?_
      refine meets_bind (Q := fun _ _ => True) ?_ fun counts => ?_
      · refine meets_ofExcept (fun _ _ _ _ => trivial) fun f st hf hst => ⟨hst, fun n hn => ?_⟩
        -- what goes wrong in a measurement is reported without a line
        cases hm : Random.measure c (command.shots.getD shots) (.ofSeed child) with
        | ok t => rw [hm] at hf; cases hf
        | error cause => rw [hm] at hf; cases hf; cases hn
      · exact meets_pure _ fun _ _ => trivial

theorem allOrNothing_runBlock (root : Random.Seed) (s : Statement) :
    AllOrNothing s.Owns (runBlock (R := R) root s) := by
  intro store
  unfold runBlock
  refine meets_bind (meets_read (failsIn_block s) store) fun block => ?_
  refine meets_bind (meets_draw root store) fun child => ?_
  refine meets_bind (Q := fun _ _ => True) ?_ fun before => ?_
  · exact meets_get fun _ _ => trivial
  · exact meets_commit _ _

/-- **Statements are atomic**, whatever their kind. -/
theorem allOrNothing_carryOut (root : Random.Seed) (shots : Int) (s : Statement) :
    AllOrNothing s.Owns (carryOut (R := R) root shots s) := by
  unfold carryOut
  cases Source.classify s.text with
  | circuit => exact allOrNothing_define s
  | parallel => exact allOrNothing_runBlock root s
  | run => exact allOrNothing_runCircuit root shots s
  | assignment => exact allOrNothing_assignment s.text fun n hn => Option.some.inj hn ▸ s.owns_head
  | literal => exact fun store => meets_pure _ fun _ _ => trivial

/-- What a statement gives is no failure. -/
theorem Given.isFailure {r : Result R} (h : Given r) : r.isFailure = false := by
  obtain ⟨root, shots, s, st, st', h⟩ := h
  cases h with
  | assignment kind read =>
      unfold bindingResult
      split <;> rfl
  | _ => rfl

/-- A failed step leaves the store as it was and names a line of its statement. -/
theorem failed_step {root : Random.Seed} {shots : Int} {s : Statement} {st st' : State R} {f : Failure R}
    (h : (step root shots s).run st = .error f st') :
    st'.store = st.store ∧ ∃ n, f.line = some n ∧ s.Owns n := by
  obtain ⟨g, hg, rfl⟩ := run_step_error h
  obtain ⟨hstore, hline⟩ := (allOrNothing_carryOut root shots s st.store).error rfl hg
  refine ⟨hstore, ?_⟩
  cases hl : g.line with
  | none => exact ⟨s.line, by simp [Failure.withLine, hl], s.owns_head⟩
  | some n => exact ⟨n, by simp [Failure.withLine, hl], hline n hl⟩

/-! ### Programs -/

/-- A failure ended the program `source`: its statement `k` failed and all those before it succeeded; the store is
the one that these have left, and the report names a line of statement `k` as it stands in the text. -/
structure StoppedAt (root : Random.Seed) (shots : Int) (store : Store R) (source : String) (report : Report R)
    (final : Store R) (k : Nat) (s : Statement) (before after : State R) (f : Failure R) : Prop where
  statement : (Source.statements source)[k]? = some s
  succeeded : Succeed root shots { store } ((Source.statements source).take k) before
  failed : (step root shots s).run before = .error f after
  reported : report = .ofFailure f
  unchanged : final = before.store
  line : ∃ (n : Nat) (text : String), report.line = .int n ∧ (n, text) ∈ s.lines ∧ Source.IsLine source n text

/-- **A program ends at its first failure, and statements are atomic.**  With a seed that is not negative every
execution has a result.  If it is a failure, some statement `k` has failed, the statements before it have
succeeded, and the store is what they have left.  If it is anything else, every statement has succeeded. -/
theorem execute_stops_at_first_failure (settings : Settings) (fresh : Nat) (store : Store R) (source : String)
    (seed : ∀ n, settings.seed = some n → 0 ≤ n) :
    ∃ root result final, settings.root fresh = .ok root ∧
      execute settings fresh store source = .ok (result, final) ∧
      (∀ report, result = .failure report → ∃ k s before after f,
        StoppedAt root settings.defaultShots store source report final k s before after f) ∧
      (result.isFailure = false → ∃ st,
        Succeed root settings.defaultShots { store } (Source.statements source) st ∧ final = st.store) := by
  obtain ⟨root, hroot⟩ : ∃ root, settings.root fresh = .ok root := by
    unfold Settings.root
    cases hs : settings.seed with
    | none => exact ⟨_, rfl⟩
    | some n => exact ⟨_, if_neg (Int.not_lt.mpr (seed n hs))⟩
  have spec := runStatements_spec root settings.defaultShots (Source.statements source) { store }
  unfold execute runProgram
  rw [hroot]
  cases hrun : (runStatements root settings.defaultShots (Source.statements source)).run { store } with
  | ok _ st =>
      rw [hrun] at spec
      have answer : st.answer.isFailure = false := by
        unfold State.answer
        rcases spec.result with hr | ⟨r, hr, given⟩
        · rw [hr]; rfl
        · rw [hr]; exact given.isFailure
      refine ⟨root, st.answer, st.store, rfl, by simp [Except.map, hrun], ?_, fun _ => ⟨st, spec, rfl⟩⟩
      intro report hreport
      rw [hreport] at answer
      cases answer
  | error f after =>
      rw [hrun] at spec
      obtain ⟨k, s, before, hk, hbefore, hfail⟩ := spec
      obtain ⟨hstore, n, hn, text, howned⟩ := failed_step hfail
      have hline := Source.isLine_of_mem_statements (List.mem_of_getElem? hk) howned
      refine ⟨root, .failure (.ofFailure f), after.store, rfl, by simp [Except.map, hrun], ?_, fun h => by cases h⟩
      intro report hreport
      cases hreport
      refine ⟨k, s, before, after, f, hk, hbefore, hfail, rfl, hstore, n, text, ?_, howned, hline⟩
      simp [Report.ofFailure, Report.lineOf, hn]

/-- A program whose second statement is malformed: the first one has bound its name. -/
theorem execute_stops_at_second_equals_sign :
    ((execute (R := Float) ⟨some 7, 1000, none⟩ 0 .empty "x = 1\ny = = 2\nz = 3").toOption.map
        fun p => (p.1.display.toOption, p.2.vars.keys)) =
      some (some "SyntaxError: Invalid assignment syntax (line 2)", ["x"]) ∧
    (∀ n, (⟨some 7, 1000, none⟩ : Settings).seed = some n → 0 ≤ n) ∧
    ∃ root result final, (⟨some 7, 1000, none⟩ : Settings).root 0 = .ok root ∧
      execute (R := Float) ⟨some 7, 1000, none⟩ 0 .empty "x = 1\ny = = 2\nz = 3" = .ok (result, final) ∧
      (∀ report, result = .failure report → ∃ k s before after f,
        StoppedAt root 1000 .empty "x = 1\ny = = 2\nz = 3" report final k s before after f) ∧
      (result.isFailure = false → ∃ st,
        Succeed root 1000 { store := .empty } (Source.statements "x = 1\ny = = 2\nz = 3") st ∧
          final = st.store) := by
  have seed : ∀ n, (⟨some 7, 1000, none⟩ : Settings).seed = some n → 0 ≤ n := by
    intro n hn
    cases hn
    decide
  refine ⟨by decide +kernel, seed, ?_⟩
  exact execute_stops_at_first_failure ⟨some 7, 1000, none⟩ 0 .empty "x = 1\ny = = 2\nz = 3" seed

end LabLang.Interpreter
