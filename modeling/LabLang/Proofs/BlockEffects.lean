import LabLang.Proofs.Grouping
import LabLang.Proofs.StoreInvariant

/-! # What a parallel block does to the store

The branches of a block are evaluated first, all of them on the bindings as they are before the block; only then are the
labels bound.  So a label that is the name of a sibling stands for its old value, or for none (`run_of_isName`).
Afterwards the label of every branch that has not failed is bound to its value, in the place that it had or behind the
names that there were, in the order of the branches; nothing else in the store has changed (`block_effect`). -/

namespace LabLang

open Text

variable {R : Type} [Scalar R]

namespace Parallel

/-! ### Heads -/

/-- A text that may follow the word in a head does not continue the word. -/
theorem isWord_of_isHeadEnd {c : Char} {r : List Char} (h : isHeadEnd (trimLeft (c :: r)) = true) :
    isWord c = false := by
  by_contra hword
  rw [Bool.not_eq_false] at hword
  have htrim : trimLeft (c :: r) = c :: r :=
    trimLeft_of_head (List.cons_ne_nil c r) (isBlank_eq_false_of_isWord hword)
  rw [htrim] at h
  unfold isHeadEnd at h
  split at h
  · rename_i heq
    cases heq
  · rename_i heq
    cases heq
    exact absurd hword (by decide)
  · rename_i heq
    cases heq
    exact absurd hword (by decide)
  · cases h

theorem isParallelHead_of_isHead {text : String} (h : isHead text = true) : Source.isParallelHead text.toList = true := by
  unfold isHead at h
  unfold Source.isParallelHead Source.startsWithWord
  cases hdrop : dropWord "parallel".toList text.toList with
  | none => rw [hdrop] at h; cases h
  | some r =>
      rw [hdrop] at h
      cases r with
      | nil => rfl
      | cons c r =>
          dsimp only
          rw [isWord_of_isHeadEnd h]
          rfl

omit [Scalar R] in
/-- What is read as a block is carried out as one. -/
theorem classify_of_ofStatement {s : Statement} {b : Block} (h : Block.ofStatement (R := R) s = .ok b) :
    Source.classify s.text = .parallel := by
  unfold Block.ofStatement at h
  obtain ⟨hhead, -⟩ := ok_of_test h
  refine Source.classify_eq_parallel.mpr (isParallelHead_of_isHead ?_)
  simpa using hhead

/-! ### Branches -/

/-- A branch whose expression is a name has the value that the name is bound to before the block. -/
theorem Job.run_of_isName (vars : Table (Value R)) {j : Job} (h : isName j.branch.expression.toList = true) :
    j.run vars = match vars.get? j.branch.expression with
      | some v => .value v
      | none => .failed ⟨"NameError", "Undefined variable: " ++ j.branch.expression, .int j.branch.line⟩ := by
  unfold Job.run
  rw [Expression.evaluate_of_isName vars j.stream h]
  cases vars.get? j.branch.expression with
  | some v => rfl
  | none => rfl

end Parallel

namespace Interpreter

variable {root : Random.Seed} {shots : Int}

/-- A block takes a child of the seed, evaluates its branches and binds their labels. -/
theorem run_of_ofStatement {s : Statement} {b : Parallel.Block} (parsed : Parallel.Block.ofStatement (R := R) s = .ok b)
    (st : State R) : (carryOut root shots s).run st =
      .ok (Parallel.result (Parallel.slotsOf st.store.vars (root.child st.drawn) b))
        { st with store := bindOutcomes st.store (Parallel.slotsOf st.store.vars (root.child st.drawn) b),
                  drawn := st.drawn + 1 } := by
  unfold carryOut
  rw [Parallel.classify_of_ofStatement parsed]
  unfold runBlock
  dsimp only
  rw [parsed, Action.run_ofExcept_bind, Action.run_nextChild_bind, Action.run_get_bind]
  dsimp only
  rw [Parallel.run_eq_slotsOf _ _ (Parallel.nodup_labels_of_ofStatement parsed)]
  rfl

/-! ### Binding the labels -/

theorem vars_bindOutcomes (store : Store R) (outcomes : Table (Outcome R)) :
    (bindOutcomes store outcomes).vars = store.vars.putAll (outcomes.chooseValues Outcome.value?) := rfl

/-- A name stands for the outcome of the branch of this label, unless that has failed or there is none. -/
theorem lookup_bindOutcomes (store : Store R) {outcomes : Table (Outcome R)} (distinct : outcomes.keys.Nodup)
    (name : String) :
    (bindOutcomes store outcomes).lookup name = ((outcomes.get? name).bind Outcome.value?).or (store.lookup name) := by
  unfold Store.lookup
  rw [vars_bindOutcomes, Table.get?_putAll (Table.nodup_chooseValues _ distinct), Table.get?_chooseValues _ distinct]

/-- Of the labels that are bound, those that are new come behind the names that there were. -/
theorem keys_bindOutcomes (store : Store R) {outcomes : Table (Outcome R)} (distinct : outcomes.keys.Nodup) :
    (bindOutcomes store outcomes).vars.keys = store.vars.keys ++
      Table.keys (outcomes.filter fun slot => !slot.2.isFailed && !store.vars.has slot.1) := by
  have hsome (slot : String × Outcome R) : slot.2.value?.isSome = !slot.2.isFailed := by
    obtain ⟨label, o⟩ := slot
    cases o <;> rfl
  rw [vars_bindOutcomes, Table.keys_putAll (Table.nodup_chooseValues _ distinct),
    Table.keys_filter_chooseValues _ fun name => !store.vars.has name]
  simp only [hsome]

/-- **What a parallel block does to the store.**  Every branch is evaluated on the bindings as they are before the block,
with a random stream of its own; if it is a name, it has the value of this name there, or fails if there is none.
Afterwards the labels of the branches that have not failed are bound to their values, those of the others and all other
names as before.  The circuits are the same, and so are the places of the names; new labels are behind them in the order
of the branches. -/
theorem block_effect {s : Statement} {b : Parallel.Block} (parsed : Parallel.Block.ofStatement (R := R) s = .ok b)
    (root : Random.Seed) (shots : Int) (st : State R) :
    ∃ (outcomes : Table (Outcome R)) (store : Store R),
      (carryOut root shots s).run st =
        .ok (Parallel.result outcomes) { st with store := store, drawn := st.drawn + 1 } ∧
      outcomes.keys = b.labels ∧
      (∀ (i : Nat) (branch : Parallel.Branch), b.branches[i]? = some branch → ∃ o,
        outcomes[i]? = some (branch.label, o) ∧
        o = Parallel.Job.run st.store.vars ⟨branch, .ofSeed ((root.child st.drawn).child i)⟩ ∧
        (isName branch.expression.toList = true → o = match st.store.lookup branch.expression with
          | some v => .value v
          | none => .failed ⟨"NameError", "Undefined variable: " ++ branch.expression, .int branch.line⟩) ∧
        (∀ v, o = .value v → store.lookup branch.label = some v) ∧
        (o.isFailed = true → store.lookup branch.label = st.store.lookup branch.label)) ∧
      (∀ name, name ∉ b.labels → store.lookup name = st.store.lookup name) ∧
      store.circuits = st.store.circuits ∧
      store.vars.keys = st.store.vars.keys ++
        Table.keys (outcomes.filter fun slot => !slot.2.isFailed && !st.store.vars.has slot.1) := by
  have hkeys := Parallel.keys_slotsOf st.store.vars (root.child st.drawn) b
  have hdistinct := hkeys ▸ Parallel.nodup_labels_of_ofStatement parsed
  refine ⟨_, _, run_of_ofStatement parsed st, hkeys, fun i branch hbranch => ?_, fun name hname => ?_, rfl,
    keys_bindOutcomes st.store hdistinct⟩
  · have hslot := Parallel.getElem?_slotsOf st.store.vars (root.child st.drawn) hbranch
    have hget := Table.get?_of_mem hdistinct (List.mem_of_getElem? hslot)
    refine ⟨_, hslot, rfl, fun hname => Parallel.Job.run_of_isName st.store.vars hname, fun v hv => ?_, fun hfailed => ?_⟩
    · rw [lookup_bindOutcomes _ hdistinct, hget, Option.bind_some, hv]
      rfl
    · rw [lookup_bindOutcomes _ hdistinct, hget, Option.bind_some]
      cases ho : Parallel.Job.run st.store.vars ⟨branch, .ofSeed ((root.child st.drawn).child i)⟩ with
      | value v => rw [ho] at hfailed; cases hfailed
      | failed report => rfl
  · have hnone : Table.get? (Parallel.slotsOf st.store.vars (root.child st.drawn) b) name = none :=
      Table.get?_eq_none_iff.mpr (hkeys ▸ hname)
    rw [lookup_bindOutcomes _ hdistinct, hnone, Option.bind_none, Option.none_or]

/-- A block whose branches name their siblings. -/
def siblings : Statement :=
  ⟨1, "parallel \x7b", [⟨2, 1, "branch A: 1 / 0"⟩, ⟨3, 1, "branch B: A"⟩, ⟨4, 1, "branch c: 2 * 2"⟩,
    ⟨5, 1, "branch D: c"⟩, ⟨6, 1, "branch E: B"⟩], true⟩

/-- What is bound before the block. -/
def siblingsBefore : State Float := { store := { vars := [("c", .number 7), ("A", .text "old")] } }

/-- The branch `A` fails and keeps its old value, which `B` has as well; `D` has the value of `c` from before the block;
`E` fails, since `B` is not bound before the block. -/
theorem block_effect_siblings :
    ∃ (outcomes : Table (Outcome Float)) (store : Store Float),
      (carryOut ⟨11, []⟩ 1000 siblings).run siblingsBefore =
        .ok (Parallel.result outcomes) { siblingsBefore with store := store, drawn := 1 } ∧
      outcomes[4]? = some ("E", .failed ⟨"NameError", "Undefined variable: B", .int 6⟩) ∧
      store.lookup "A" = some (.text "old") ∧ store.lookup "B" = some (.text "old") ∧
      store.lookup "D" = some (.number 7) ∧ store.lookup "E" = none ∧ store.vars.keys = ["c", "A", "B", "D"] := by
  have parsed : Parallel.Block.ofStatement (R := Float) siblings =
      .ok ⟨[⟨"A", "1 / 0", 2⟩, ⟨"B", "A", 3⟩, ⟨"c", "2 * 2", 4⟩, ⟨"D", "c", 5⟩, ⟨"E", "B", 6⟩], 1⟩ := rfl
  obtain ⟨outcomes, store, hrun, -, hbranches, -, -, hkeys⟩ := block_effect parsed ⟨11, []⟩ 1000 siblingsBefore
  have houtcomes := (Result.parallel.inj (EStateM.Result.ok.inj (hrun.symm.trans (run_of_ofStatement parsed _))).1).1
  obtain ⟨_, -, hA, -, -, keptA⟩ := hbranches 0 _ rfl
  obtain ⟨_, -, -, hB, boundB, -⟩ := hbranches 1 _ rfl
  obtain ⟨_, -, -, hD, boundD, -⟩ := hbranches 3 _ rfl
  obtain ⟨_, slotE, -, hE, -, keptE⟩ := hbranches 4 _ rfl
  have failedE := hE rfl
  refine ⟨outcomes, store, hrun, slotE.trans (by rw [failedE]; rfl), keptA (by rw [hA]; decide +kernel),
    boundB _ (hB rfl), boundD _ (hD rfl), keptE (by rw [failedE]; rfl), ?_⟩
  rw [hkeys, houtcomes]
  decide +kernel

end Interpreter

end LabLang
