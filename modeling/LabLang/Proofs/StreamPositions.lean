import LabLang.Proofs.Execution
import LabLang.Proofs.Schedules
import LabLang.Scalar.Machine

/-! # Random streams are assigned by position

An execution takes one child of its seed for every run command that comes to measuring and for every parallel block, and
none for anything else (`Succeed.drawn`).  So the stream of a statement is known from the seed and from the number of
such statements before it: whatever these did, and whatever program they belong to, a command gets the same counts and a
branch has the same outcome at the same position (`streams_by_position`). -/

namespace LabLang

/-! ### Bindings that agree -/

namespace Expression

variable {R : Type} [Scalar R] {vars vars' : Table (Value R)}

/-- Of the bindings only the values of names have an influence on an expression. -/
theorem evaluate_congr (h : ∀ name, vars.get? name = vars'.get? name) (g : Random.Stream) (text : String) :
    evaluate vars g text = evaluate vars' g text := by
  have operand (s : List Char) : operand? vars s = operand? vars' s := by
    unfold operand?
    simp only [h]
  have operands (texts : List (List Char)) : operands? vars texts = operands? vars' texts := by
    induction texts with
    | nil => rfl
    | cons text rest ih => rw [operands?, operands?, operand, ih]
  unfold evaluate evaluateCall evaluateBinary
  simp only [operand, operands]

end Expression

namespace Interpreter

open LabLang.Interpreter.Action

variable {R : Type} [Scalar R] {root : Random.Seed} {shots : Int}

/-! ### Streams that are taken -/

/-- The statement takes a random stream if it succeeds. -/
def takesStream (s : Statement) : Bool :=
  match Source.classify s.text with
  | .run | .parallel => true
  | .circuit | .assignment | .literal => false

/-- The number of streams that statements take if they succeed. -/
def streamsTaken (program : List Statement) : Nat := program.countP takesStream

theorem streamsTaken_cons (s : Statement) (rest : List Statement) :
    streamsTaken (s :: rest) = streamsTaken rest + if takesStream s then 1 else 0 :=
  List.countP_cons

theorem Gives.drawn {s : Statement} {st st' : State R} {r : Result R} (h : Gives root shots s st r st') :
    st'.drawn = st.drawn + if takesStream s then 1 else 0 := by
  unfold takesStream
  cases h with
  | circuit kind _ | parallel kind _ _ | run kind _ _ _ | assignment kind _ | literal kind => rw [kind]; rfl

/-- A step takes at most one stream, and none for a definition, an assignment or a literal. -/
theorem drawn_of_step {s : Statement} {st st' : State R} (h : (step root shots s).run st = .ok () st') :
    st'.drawn = st.drawn + if takesStream s then 1 else 0 := by
  obtain ⟨r, mid, hgives, ⟨-, rfl⟩ | ⟨-, rfl⟩⟩ := run_step_ok h
  · exact hgives.drawn
  · exact hgives.drawn

/-- Statements that succeed take as many streams as there are run commands and parallel blocks among them. -/
theorem Succeed.drawn {program : List Statement} {st st' : State R} (h : Succeed root shots st program st') :
    st'.drawn = st.drawn + streamsTaken program := by
  induction h with
  | nil st => rfl
  | cons head _ ih =>
      rw [ih, drawn_of_step head, streamsTaken_cons]
      omega

/-! ### What statements give -/

/-- What an action gives when it is started in a state; the state that it leaves is left out. -/
def Action.value {α : Type} (a : Action R α) (st : State R) : Except (Failure R) α :=
  match a.run st with
  | .ok x _ => .ok x
  | .error f _ => .error f

/-- What a command obtains with the stream of a seed: the counts of a measurement, or the failure of the measurement. -/
def obtained (c : Circuit R) (shots : Int) (seed : Random.Seed) : Except (Failure R) (Result R) :=
  ((Random.measure c shots (.ofSeed seed)).map (measurement c shots)).mapError (⟨·, none⟩)

theorem Measures.value {s : Statement} {st : State R} {c : Circuit R} {count : Int} (h : Measures shots s st c count) :
    (carryOut root shots s).value st = obtained c count (root.child st.drawn) := by
  unfold Action.value obtained
  rw [h.run]
  cases Random.measure c count (.ofSeed (root.child st.drawn)) <;> rfl

/-- The statement is a parallel block. -/
structure Opens (R : Type) (s : Statement) (block : Parallel.Block) : Prop where
  kind : Source.classify s.text = .parallel
  read : Parallel.Block.ofStatement (R := R) s = .ok block

theorem Opens.value {s : Statement} {block : Parallel.Block} (h : Opens R s block) (st : State R) :
    (carryOut root shots s).value st =
      .ok (Parallel.result (Parallel.run st.store.vars (root.child st.drawn) block)) := by
  unfold Action.value carryOut runBlock
  rw [h.kind, h.read]
  rfl

/-- The slot of a branch depends on its expression and line, on the values of names, and on the seed and the position. -/
theorem Opens.slot {s : Statement} {block : Parallel.Block} (h : Opens R s block) {vars vars' : Table (Value R)}
    (agree : ∀ name, vars.get? name = vars'.get? name) (seed : Random.Seed) {i : Nat}
    {branch branch' : Parallel.Branch} (at_i : block.branches[i]? = some branch)
    (expression : branch.expression = branch'.expression) (line : branch.line = branch'.line) :
    (Parallel.run vars seed block)[i]? =
      some (branch.label, Parallel.Job.run vars' ⟨branch', .ofSeed (seed.child i)⟩) := by
  rw [Parallel.run_eq_slotsOf vars seed (Parallel.nodup_labels_of_ofStatement h.read),
    Parallel.getElem?_slotsOf vars seed at_i, Parallel.Job.run_congr _ expression line]
  unfold Parallel.Job.run
  dsimp only
  rw [Expression.evaluate_congr agree]

/-! ### Executions -/

/-- What an execution is started with. -/
structure Launch (R : Type) [Scalar R] where
  settings : Settings
  fresh : Nat
  store : Store R
  source : String

namespace Launch

/-- The number of streams that have been taken before statement `k`, when all statements before it have succeeded. -/
def position (l : Launch R) (k : Nat) : Nat := streamsTaken ((Source.statements l.source).take k)

/-- The execution has the seed `root` and comes to statement `k`, which it finds in the state `st`. -/
structure Reaches (l : Launch R) (root : Random.Seed) (k : Nat) (s : Statement) (st : State R) : Prop where
  seed : l.settings.root l.fresh = .ok root
  statement : (Source.statements l.source)[k]? = some s
  succeeded : (runStatements root l.settings.defaultShots ((Source.statements l.source).take k)).run
    { store := l.store } = .ok () st

/-- What the execution obtains from a statement in a state. -/
def obtains (l : Launch R) (root : Random.Seed) (s : Statement) (st : State R) : Except (Failure R) (Result R) :=
  (carryOut root l.settings.defaultShots s).value st

/-- The streams have been taken one after the other. -/
theorem Reaches.drawn {l : Launch R} {k : Nat} {s : Statement} {st : State R} (h : l.Reaches root k s st) :
    st.drawn = l.position k := by
  have spec := runStatements_spec root l.settings.defaultShots ((Source.statements l.source).take k)
    { store := l.store }
  rw [h.succeeded] at spec
  rw [spec.drawn]
  exact Nat.zero_add _

/-- With a seed in the settings this seed is used. -/
theorem Reaches.root_eq {l : Launch R} {k : Nat} {s : Statement} {st : State R} (h : l.Reaches root k s st) {n : Nat}
    (seed : l.settings.seed = some (n : Int)) : root = ⟨n, []⟩ := by
  have hroot := h.seed
  unfold Settings.root at hroot
  rw [seed] at hroot
  dsimp only at hroot
  rw [if_neg (by omega), Int.toNat_natCast] at hroot
  exact (Except.ok.inj hroot).symm

/-- An execution comes to a statement if those before it succeed. -/
theorem Reaches.of_run {l : Launch R} {k : Nat} {s : Statement} (seed : l.settings.root l.fresh = .ok root)
    (statement : (Source.statements l.source)[k]? = some s) {α : Type} (f : State R → α) {a : α}
    (run : (match (runStatements root l.settings.defaultShots ((Source.statements l.source).take k)).run
      { store := l.store } with
      | .ok _ st => some (f st)
      | .error _ _ => none) = some a) :
    ∃ st, l.Reaches root k s st ∧ f st = a := by
  split at run
  · rename_i st succeeded
    exact ⟨st, ⟨seed, statement, succeeded⟩, Option.some.inj run⟩
  · cases run

end Launch

/-- **Random streams are assigned by position only.**  Take any two executions with the same seed, which is not negative,
and a statement of each that comes after the same number `j` of run commands and parallel blocks.  If both are commands
to measure the same circuit equally often, they obtain the same: what a measurement with child `j` of the seed gives.  If
both are parallel blocks, a branch of each at the same position `i`, with the same expression and line and with the same
values of names, has the same outcome: the one that grandchild `(j, i)` of the seed gives. -/
theorem streams_by_position {n : Nat} {l l' : Launch R} (seed : l.settings.seed = some (n : Int))
    (seed' : l'.settings.seed = some (n : Int)) {root root' : Random.Seed} {k k' : Nat} {s s' : Statement}
    {st st' : State R} (reached : l.Reaches root k s st) (reached' : l'.Reaches root' k' s' st') {j : Nat}
    (position : l.position k = j) (position' : l'.position k' = j) :
    (∀ c count, Measures l.settings.defaultShots s st c count → Measures l'.settings.defaultShots s' st' c count →
      l.obtains root s st = obtained c count ⟨n, [j]⟩ ∧ l'.obtains root' s' st' = obtained c count ⟨n, [j]⟩) ∧
    (∀ block block', Opens R s block → Opens R s' block' →
      ∃ outcomes outcomes', l.obtains root s st = .ok (Parallel.result outcomes) ∧
        l'.obtains root' s' st' = .ok (Parallel.result outcomes') ∧
        ∀ i branch branch', block.branches[i]? = some branch → block'.branches[i]? = some branch' →
          branch.expression = branch'.expression → branch.line = branch'.line →
          (∀ name, st.store.lookup name = st'.store.lookup name) →
          ∃ o, outcomes[i]? = some (branch.label, o) ∧ outcomes'[i]? = some (branch'.label, o) ∧
            o = Parallel.Job.run st.store.vars ⟨branch, .ofSeed ⟨n, [j, i]⟩⟩) := by
  have hchild : root.child st.drawn = ⟨n, [j]⟩ := by
    rw [reached.root_eq seed, reached.drawn, position]
    rfl
  have hchild' : root'.child st'.drawn = ⟨n, [j]⟩ := by
    rw [reached'.root_eq seed', reached'.drawn, position']
    rfl
  refine ⟨fun c count measures measures' => ?_, fun block block' opens opens' => ?_⟩
  · rw [← hchild]
    refine ⟨measures.value, ?_⟩
    rw [hchild, ← hchild']
    exact measures'.value
  · refine ⟨_, _, opens.value st, opens'.value st', ?_⟩
    rw [hchild, hchild']
    intro i branch branch' hbranch hbranch' expression line agree
    refine ⟨_, opens.slot (fun _ => rfl) _ hbranch rfl rfl, ?_, rfl⟩
    exact opens'.slot (fun name => (agree name).symm) _ hbranch' expression.symm line.symm

/-- Two programs that come to a block after one stream and to a command after two.  What they do before is different:
one of them defines a circuit, another block fails in part and has more branches, and the shots are given or are the
default. -/
theorem streams_by_position_after_blocks :
    ∃ (l l' : Launch Float) (s s' t t' : Statement) (st st' mid mid' : State Float),
      l = ⟨⟨some 7, 1000, none⟩, 0, .empty,
        "# one\n\nparallel:\n  branch A: \"x\"\nparallel:\n  branch B: estimate_pi(3)\nrun bell \x7b shots: 5 \x7d"⟩ ∧
      l' = ⟨⟨some 7, 5, some 2⟩, 9, .empty,
        "A = \"x\"\nparallel:\n  branch C: 1 / 0\n  branch A: A\nparallel:\n  branch D: estimate_pi(3)\n" ++
        "  branch E: estimate_pi(8)\nquantum circuit c:\n  qubits: 1\n  X(0)\nrun bell"⟩ ∧
      l.Reaches ⟨7, []⟩ 1 s st ∧ l'.Reaches ⟨7, []⟩ 2 s' st' ∧ l.position 1 = 1 ∧ l'.position 2 = 1 ∧
      (∃ outcomes outcomes' o, l.obtains ⟨7, []⟩ s st = .ok (Parallel.result outcomes) ∧
        l'.obtains ⟨7, []⟩ s' st' = .ok (Parallel.result outcomes') ∧ outcomes[0]? = some ("B", o) ∧
        outcomes'[0]? = some ("D", o)) ∧
      l.Reaches ⟨7, []⟩ 2 t mid ∧ l'.Reaches ⟨7, []⟩ 4 t' mid' ∧ l.position 2 = 2 ∧ l'.position 4 = 2 ∧
      l.obtains ⟨7, []⟩ t mid = obtained Circuit.bell 5 ⟨7, [2]⟩ ∧
      l'.obtains ⟨7, []⟩ t' mid' = obtained Circuit.bell 5 ⟨7, [2]⟩ := by
  obtain ⟨l, hl⟩ : ∃ l : Launch Float, l = ⟨⟨some 7, 1000, none⟩, 0, .empty,
        "# one\n\nparallel:\n  branch A: \"x\"\nparallel:\n  branch B: estimate_pi(3)\nrun bell \x7b shots: 5 \x7d"⟩ :=
    ⟨_, rfl⟩
  obtain ⟨l', hl'⟩ : ∃ l : Launch Float, l = ⟨⟨some 7, 5, some 2⟩, 9, .empty,
        "A = \"x\"\nparallel:\n  branch C: 1 / 0\n  branch A: A\nparallel:\n  branch D: estimate_pi(3)\n" ++
        "  branch E: estimate_pi(8)\nquantum circuit c:\n  qubits: 1\n  X(0)\nrun bell"⟩ := ⟨_, rfl⟩
  have hseed : l.settings.root l.fresh = .ok ⟨7, []⟩ := hl ▸ rfl
  have hseed' : l'.settings.root l'.fresh = .ok ⟨7, []⟩ := hl' ▸ rfl
  have hprogram : Source.statements l.source = [⟨3, "parallel:", [⟨4, 2, "branch A: \"x\""⟩], true⟩,
      ⟨5, "parallel:", [⟨6, 2, "branch B: estimate_pi(3)"⟩], true⟩, ⟨7, "run bell \x7b shots: 5 \x7d", [], true⟩] := by
    rw [hl]
    decide +kernel
  have hprogram' : Source.statements l'.source = [⟨1, "A = \"x\"", [], true⟩,
      ⟨2, "parallel:", [⟨3, 2, "branch C: 1 / 0"⟩, ⟨4, 2, "branch A: A"⟩], true⟩,
      ⟨5, "parallel:", [⟨6, 2, "branch D: estimate_pi(3)"⟩, ⟨7, 2, "branch E: estimate_pi(8)"⟩], true⟩,
      ⟨8, "quantum circuit c:", [⟨9, 2, "qubits: 1"⟩, ⟨10, 2, "X(0)"⟩], true⟩, ⟨11, "run bell", [], true⟩] := by
    rw [hl']
    decide +kernel
  have position : l.position 1 = 1 ∧ l.position 2 = 2 := by
    unfold Launch.position
    rw [hprogram]
    decide +kernel
  have position' : l'.position 2 = 1 ∧ l'.position 4 = 2 := by
    unfold Launch.position
    rw [hprogram']
    decide +kernel
  obtain ⟨st, hst, hvars⟩ := Launch.Reaches.of_run (k := 1) hseed (by rw [hprogram]; rfl) (fun st => st.store.vars)
    (a := [("A", .text "x")]) (by rw [hprogram, hl]; decide +kernel)
  obtain ⟨st', hst', hvars'⟩ := Launch.Reaches.of_run (k := 2) hseed' (by rw [hprogram']; rfl) (fun st => st.store.vars)
    (a := [("A", .text "x")]) (by rw [hprogram', hl']; decide +kernel)
  obtain ⟨mid, hmid, hbell⟩ := Launch.Reaches.of_run (k := 2) hseed (by rw [hprogram]; rfl)
    (fun st => (st.store.circuit? "bell").isNone) (a := true) (by rw [hprogram, hl]; decide +kernel)
  obtain ⟨mid', hmid', hbell'⟩ := Launch.Reaches.of_run (k := 4) hseed' (by rw [hprogram']; rfl)
    (fun st => (st.store.circuit? "bell").isNone) (a := true) (by rw [hprogram', hl']; decide +kernel)
  have agree (name : String) : st.store.lookup name = st'.store.lookup name := by
    unfold Store.lookup
    rw [hvars, hvars']
  have seed : l.settings.seed = some ((7 : ℕ) : Int) := hl ▸ rfl
  have seed' : l'.settings.seed = some ((7 : ℕ) : Int) := hl' ▸ rfl
  obtain ⟨outcomes, outcomes', hblock, hblock', hslots⟩ :=
    (streams_by_position seed seed' hst hst' position.1 position'.1).2
      ⟨[⟨"B", "estimate_pi(3)", 6⟩], 5⟩ ⟨[⟨"D", "estimate_pi(3)", 6⟩, ⟨"E", "estimate_pi(8)", 7⟩], 5⟩
      ⟨by decide +kernel, by rfl⟩ ⟨by decide +kernel, by rfl⟩
  obtain ⟨o, ho, ho', -⟩ := hslots 0 _ _ rfl rfl rfl rfl agree
  have runnable {store : Store Float} (h : (store.circuit? "bell").isNone = true) :
      store.runnable? "bell" = some Circuit.bell := by
    unfold Store.runnable?
    rw [Option.isNone_iff_eq_none.mp h, Option.none_or]
    rfl
  obtain ⟨hrun, hrun'⟩ := (streams_by_position seed seed' hmid hmid' position.2 position'.2).1 Circuit.bell 5
    (.command ⟨"bell", some 5⟩ (by decide +kernel) (by rfl) (runnable hbell)) (by
      rw [hl']
      exact .command ⟨"bell", none⟩ (by decide +kernel) (by rfl) (runnable hbell'))
  exact ⟨l, l', _, _, _, _, st, st', mid, mid', hl, hl', hst, hst', position.1, position'.1,
    ⟨outcomes, outcomes', o, hblock, hblock', ho, ho'⟩, hmid, hmid', position.2, position'.2, hrun, hrun'⟩

end Interpreter

end LabLang
