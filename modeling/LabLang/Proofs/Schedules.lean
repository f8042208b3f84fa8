import LabLang.Parallel.Pool
import LabLang.Proofs.Readers
import LabLang.Proofs.Tables
import LabLang.Scalar.Machine

/-! # Schedules of parallel blocks

However the branches of a block are evaluated, one after the other in any order or by a pool of workers of any size,
each of them ends up with the outcome that its expression, its line, its position, the bindings and the seed give
(`run_schedule_independent`).  The proofs follow what fills the slots: a list of positions (`filled_fill`) or the
moves of a pool, for which `Pool.Sound` is the invariant.  No slot is filled twice, since the labels of a block are
distinct (`branchesAfter_eq_ok`). -/

namespace LabLang.Parallel

variable {R : Type} [Scalar R] {vars : Table (Value R)} {js : List Job}

/-! ### Slots -/

/-- The slots at the positions that are done hold the outcomes of their jobs. -/
def Filled (vars : Table (Value R)) (js : List Job) (done : Nat → Prop) (slots : Slots R) : Prop :=
  slots.length = js.length ∧ ∀ i j, js[i]? = some j → done i → slots[i]? = some (some (j.run vars))

theorem filled_empty (vars : Table (Value R)) (js : List Job) :
    Filled vars js (fun _ => False) (List.replicate js.length none) :=
  ⟨List.length_replicate, fun _ _ _ h => h.elim⟩

/-- Evaluating a job fills its slot and touches no other one. -/
theorem Filled.fillOne {done done' : Nat → Prop} {slots : Slots R} (h : Filled vars js done slots) (i : Nat)
    (hdone : ∀ k, done' k → done k ∨ k = i) : Filled vars js done' (fillOne vars js slots i) := by
  obtain ⟨hlength, hslots⟩ := h
  unfold Parallel.fillOne
  cases hi : js[i]? with
  | none =>
      refine ⟨hlength, fun k j hj hk => ?_⟩
      rcases hdone k hk with hk | rfl
      · exact hslots k j hj hk
      · rw [hi] at hj; cases hj
  | some ji =>
      refine ⟨by rw [List.length_set, hlength], fun k j hj hk => ?_⟩
      by_cases hki : k = i
      · subst hki
        rw [hi] at hj
        cases hj
        have hlt : k < slots.length := by
          rw [hlength]
          exact (List.getElem?_eq_some_iff.mp hi).1
        exact List.getElem?_set_self hlt
      · rw [List.getElem?_set_ne (Ne.symm hki)]
        exact hslots k j hj ((hdone k hk).resolve_right hki)

/-- When every position is done, the slots are the outcomes of the jobs. -/
theorem Filled.complete {done : Nat → Prop} {slots : Slots R} (h : Filled vars js done slots)
    (hdone : ∀ i < js.length, done i) : slots = js.map fun j => some (j.run vars) := by
  obtain ⟨hlength, hslots⟩ := h
  apply List.ext_getElem?
  intro i
  rw [List.getElem?_map]
  cases hi : js[i]? with
  | none =>
      have hge : js.length ≤ i := List.getElem?_eq_none_iff.mp hi
      rw [Option.map_none, List.getElem?_eq_none_iff, hlength]
      exact hge
  | some j =>
      have hlt : i < js.length := (List.getElem?_eq_some_iff.mp hi).1
      rw [Option.map_some]
      exact hslots i j hi (hdone i hlt)

/-- After any order the slots of its positions are filled. -/
theorem filled_fill (vars : Table (Value R)) (js : List Job) (order : List Nat) :
    Filled vars js (fun i => i ∈ order) (fill vars js order) := by
  have h (done : Nat → Prop) (slots : Slots R) (hslots : Filled vars js done slots) :
      Filled vars js (fun i => done i ∨ i ∈ order) (order.foldl (fillOne vars js) slots) := by
    induction order generalizing done slots with
    | nil => exact ⟨hslots.1, fun i j hj hi => hslots.2 i j hj (hi.resolve_right List.not_mem_nil)⟩
    | cons i order ih =>
        have hone : Filled vars js (fun k => done k ∨ k = i) (Parallel.fillOne vars js slots i) :=
          hslots.fillOne i fun _ hk => hk
        have hall := ih _ _ hone
        refine ⟨hall.1, fun k j hj hk => hall.2 k j hj ?_⟩
        rcases hk with hk | hk
        · exact .inl (.inl hk)
        · rcases List.mem_cons.mp hk with rfl | hk
          · exact .inl (.inr rfl)
          · exact .inr hk
  have hfill := h _ _ (filled_empty vars js)
  exact ⟨hfill.1, fun i j hj hi => hfill.2 i j hj (.inr hi)⟩

/-! ### Pools -/

/-- What holds in a pool at all times, after `count` moves: the jobs in progress are distinct and have been taken from
the queue, there are at most as many as workers, and the slots of the other jobs that have been taken are filled. -/
structure Pool.Sound (vars : Table (Value R)) (js : List Job) (limit count : Nat) (p : Pool R) : Prop where
  started : p.started ≤ js.length
  taken : ∀ i ∈ p.busy, i < p.started
  distinct : p.busy.Nodup
  workers : p.busy.length ≤ limit
  moves : count + p.busy.length = 2 * p.started
  filled : Filled vars js (fun i => i < p.started ∧ i ∉ p.busy) p.slots

theorem Pool.sound_idle (vars : Table (Value R)) (js : List Job) (limit : Nat) :
    (Pool.idle js : Pool R).Sound vars js limit 0 where
  started := Nat.zero_le _
  taken := fun _ h => absurd h List.not_mem_nil
  distinct := List.nodup_nil
  workers := Nat.zero_le _
  moves := rfl
  filled := ⟨List.length_replicate, fun _ _ _ h => absurd h.1 (Nat.not_lt_zero _)⟩

/-- Every move keeps a pool sound. -/
theorem Pool.Sound.move {limit count : Nat} {p p' : Pool R} (h : p.Sound vars js limit count) (m : Move)
    (hm : p.move vars js limit m = some p') : p'.Sound vars js limit (count + 1) := by
  cases m with
  | start =>
      unfold Pool.move at hm
      dsimp only at hm
      by_cases hfree : p.started < js.length ∧ p.busy.length < limit
      · rw [if_pos hfree] at hm
        cases hm
        refine ⟨hfree.1, ?_, ?_, hfree.2, ?_, ?_⟩
        · intro i hi
          rcases List.mem_cons.mp hi with rfl | hi
          · exact Nat.lt_succ_self _
          · exact Nat.lt_succ_of_lt (h.taken i hi)
        · exact List.nodup_cons.mpr ⟨fun hi => Nat.lt_irrefl _ (h.taken _ hi), h.distinct⟩
        · have := h.moves
          rw [List.length_cons]
          dsimp only
          omega
        · refine ⟨h.filled.1, fun i j hj hi => h.filled.2 i j hj ?_⟩
          have hlt : i < p.started + 1 := hi.1
          obtain ⟨hne, hbusy⟩ := not_or.mp fun h => hi.2 (List.mem_cons.mpr h)
          exact ⟨by omega, hbusy⟩
      · rw [if_neg hfree] at hm; cases hm
  | finish i =>
      unfold Pool.move at hm
      dsimp only at hm
      by_cases hbusy : i ∈ p.busy
      · rw [if_pos hbusy] at hm
        cases hm
        have hlength := List.length_erase_of_mem hbusy
        have hpos := List.length_pos_of_mem hbusy
        refine ⟨h.started, fun k hk => h.taken k (List.mem_of_mem_erase hk), h.distinct.erase i, ?_, ?_, ?_⟩
        · have := h.workers
          dsimp only
          omega
        · have := h.moves
          dsimp only
          omega
        · refine h.filled.fillOne i fun k hk => ?_
          obtain ⟨hlt, hnot⟩ := hk
          by_cases hki : k = i
          · exact .inr hki
          · exact .inl ⟨hlt, fun hk => hnot ((List.mem_erase_of_ne hki).mpr hk)⟩
      · rw [if_neg hbusy] at hm; cases hm

/-- A pool is sound after all of its moves. -/
theorem Pool.Sound.play {limit count : Nat} {p p' : Pool R} {moves : List Move} (h : p.Sound vars js limit count)
    (hp : p.play vars js limit moves = some p') : p'.Sound vars js limit (count + moves.length) := by
  induction moves generalizing p count with
  | nil =>
      cases hp
      exact h
  | cons m moves ih =>
      unfold Pool.play at hp ih
      rw [List.foldlM_cons] at hp
      cases hm : p.move vars js limit m with
      | none => rw [hm] at hp; cases hp
      | some q =>
          rw [hm] at hp
          have := ih (h.move m hm) hp
          rwa [Nat.add_right_comm, Nat.add_assoc, ← List.length_cons] at this

/-- A pool with at least one worker is not stuck before all jobs are done. -/
theorem Pool.Sound.progress {limit count : Nat} {p : Pool R} (h : p.Sound vars js limit count) (hlimit : 0 < limit) :
    p.isDone js = true ∨ ∃ m, (p.move vars js limit m).isSome = true := by
  cases hbusy : p.busy with
  | cons i rest =>
      refine .inr ⟨.finish i, ?_⟩
      unfold Pool.move
      rw [hbusy]
      dsimp only
      rw [if_pos (List.mem_cons_self ..)]
      rfl
  | nil =>
      rcases Nat.lt_or_ge p.started js.length with hlt | hge
      · refine .inr ⟨.start, ?_⟩
        unfold Pool.move
        rw [hbusy]
        dsimp only
        rw [if_pos ⟨hlt, hlimit⟩]
        rfl
      · left
        have : p.started = js.length := Nat.le_antisymm h.started hge
        unfold Pool.isDone
        rw [this, hbusy, beq_self_eq_true]
        rfl

/-! ### Blocks -/

/-- The line declares the branch. -/
def Branch.IsDeclaredBy (l : SourceLine) (b : Branch) : Prop :=
  declaration? l.text = some (b.label, b.expression) ∧ b.line = l.number

omit [Scalar R] in
/-- What reading the first line comes to. -/
theorem branchesAfter_cons {labels : List String} {l : SourceLine} {rest : List SourceLine} {branches : List Branch} :
    branchesAfter (R := R) labels (l :: rest) = .ok branches ↔ ∃ b tail, branches = b :: tail ∧ b.IsDeclaredBy l ∧
      b.label ∉ labels ∧ branchesAfter (R := R) (b.label :: labels) rest = .ok tail := by
  constructor
  · intro h
    unfold branchesAfter at h
    cases hd : declaration? l.text with
    | none =>
        rw [hd] at h
        cases h
    | some d =>
        obtain ⟨label, expression⟩ := d
        rw [hd] at h
        obtain ⟨hlabel, h⟩ := ok_of_test h
        obtain ⟨tail, hrest, rfl⟩ := ok_of_map h
        exact ⟨_, tail, rfl, ⟨hd, rfl⟩, by simpa using hlabel, hrest⟩
  · rintro ⟨b, tail, rfl, ⟨hd, hline⟩, hnew, hrest⟩
    rw [branchesAfter, hd]
    dsimp only
    rw [if_neg (by simpa using hnew), hrest, ← hline]
    rfl

omit [Scalar R] in
/-- Lines are read as branches if each of them declares one, with labels that are new and distinct. -/
theorem branchesAfter_eq_ok {labels : List String} {lines : List SourceLine} {branches : List Branch} :
    branchesAfter (R := R) labels lines = .ok branches ↔ List.Forall₂ Branch.IsDeclaredBy lines branches ∧
      (branches.map (·.label)).Nodup ∧ ∀ b ∈ branches, b.label ∉ labels := by
  constructor
  · intro h
    induction lines generalizing labels branches with
    | nil =>
        cases h
        exact ⟨.nil, List.nodup_nil, fun _ hb => absurd hb List.not_mem_nil⟩
    | cons l rest ih =>
        obtain ⟨b, tail, rfl, hl, hb, hrest⟩ := branchesAfter_cons.mp h
        obtain ⟨hdeclared, hnodup, hnew⟩ := ih hrest
        refine ⟨.cons hl hdeclared, List.nodup_cons.mpr ⟨fun hmem => ?_, hnodup⟩, List.forall_mem_cons.mpr
          ⟨hb, fun branch hbranch hmem => hnew branch hbranch (List.mem_cons_of_mem b.label hmem)⟩⟩
        obtain ⟨branch, hbranch, hlabel⟩ := List.mem_map.mp hmem
        exact hnew branch hbranch (hlabel ▸ List.mem_cons_self)
  · rintro ⟨hdeclared, hnodup, hnew⟩
    induction hdeclared generalizing labels with
    | nil => rfl
    | @cons l b rest tail hl _ ih =>
        obtain ⟨hb, htail⟩ := List.forall_mem_cons.mp hnew
        obtain ⟨hfirst, hnodup⟩ := List.nodup_cons.mp hnodup
        have hrest : ∀ branch ∈ tail, branch.label ∉ b.label :: labels := fun branch hmem =>
          List.not_mem_cons_of_ne_of_not_mem (fun heq => hfirst (List.mem_map.mpr ⟨branch, hmem, heq⟩)) (htail branch hmem)
        exact branchesAfter_cons.mpr ⟨b, tail, rfl, hl, hb, ih hnodup hrest⟩

omit [Scalar R] in
/-- The branches of a block that is read from a program have distinct labels. -/
theorem nodup_labels_of_ofStatement {s : Statement} {b : Block} (h : Block.ofStatement (R := R) s = .ok b) :
    b.labels.Nodup := by
  unfold Block.ofStatement at h
  obtain ⟨_, h⟩ := ok_of_test h
  obtain ⟨_, h⟩ := ok_of_test h
  obtain ⟨branches, hbranches, rfl⟩ := ok_of_map h
  exact (branchesAfter_eq_ok.mp hbranches).2.1

theorem length_jobs (seed : Random.Seed) (b : Block) : (jobs seed b).length = b.branches.length := by
  unfold jobs
  rw [List.length_map, List.length_zipIdx]

theorem getElem?_jobs (seed : Random.Seed) (b : Block) (i : Nat) :
    (jobs seed b)[i]? = b.branches[i]?.map fun branch => ⟨branch, .ofSeed (seed.child i)⟩ := by
  unfold jobs
  rw [List.getElem?_map, List.getElem?_zipIdx]
  cases b.branches[i]? with
  | none => rfl
  | some branch => simp

theorem map_branch_jobs (seed : Random.Seed) (b : Block) : (jobs seed b).map (·.branch) = b.branches := by
  apply List.ext_getElem?
  intro i
  rw [List.getElem?_map, getElem?_jobs]
  cases b.branches[i]? <;> rfl

/-- What becomes of the branches of a block, by label. -/
def slotsOf (vars : Table (Value R)) (seed : Random.Seed) (b : Block) : Table (Outcome R) :=
  (jobs seed b).map fun j => (j.branch.label, j.run vars)

theorem keys_slotsOf (vars : Table (Value R)) (seed : Random.Seed) (b : Block) :
    (slotsOf vars seed b).keys = b.labels := by
  unfold slotsOf Table.keys Block.labels
  rw [List.map_map]
  conv_rhs => rw [← map_branch_jobs seed b, List.map_map]
  rfl

/-- With all slots filled the outcomes are those of the branches. -/
theorem collect_complete (vars : Table (Value R)) (seed : Random.Seed) {b : Block} (h : b.labels.Nodup) :
    collect b ((jobs seed b).map fun j => some (j.run vars)) = slotsOf vars seed b := by
  unfold collect
  conv_lhs => rw [← map_branch_jobs seed b]
  rw [List.zip_map', List.filterMap_map]
  have hpairs := congrFun (List.filterMap_eq_map (f := fun j : Job => (j.branch.label, j.run vars))) (jobs seed b)
  refine (congrArg Table.ofPairs hpairs).trans (Table.ofPairs_of_nodup ?_)
  exact (keys_slotsOf vars seed b).symm ▸ h

/-! ### Independence -/

section independence

variable {b : Block}

theorem runInOrder_eq_slotsOf (vars : Table (Value R)) (seed : Random.Seed) (h : b.labels.Nodup) {order : List Nat}
    (horder : ∀ i < b.branches.length, i ∈ order) : runInOrder order vars seed b = slotsOf vars seed b := by
  unfold runInOrder
  rw [(filled_fill vars (jobs seed b) order).complete fun i hi => horder i (by rwa [length_jobs] at hi)]
  exact collect_complete vars seed h

theorem run_eq_slotsOf (vars : Table (Value R)) (seed : Random.Seed) (h : b.labels.Nodup) :
    run vars seed b = slotsOf vars seed b :=
  runInOrder_eq_slotsOf vars seed h fun _ hi => List.mem_range.mpr hi

theorem runOnPool_eq_slotsOf {limit : Nat} {moves : List Move} {seed : Random.Seed} {outcomes : Table (Outcome R)}
    (h : b.labels.Nodup) (hrun : runOnPool limit moves vars seed b = some outcomes) :
    outcomes = slotsOf vars seed b := by
  unfold runOnPool at hrun
  cases hplay : (Pool.idle (jobs seed b)).play vars (jobs seed b) limit moves with
  | none => rw [hplay] at hrun; cases hrun
  | some p =>
      rw [hplay] at hrun
      dsimp only at hrun
      by_cases hdone : p.isDone (jobs seed b) = true
      · rw [if_pos hdone] at hrun
        cases hrun
        unfold Pool.isDone at hdone
        rw [Bool.and_eq_true, beq_iff_eq, List.isEmpty_iff] at hdone
        have hsound := (Pool.sound_idle vars (jobs seed b) limit).play hplay
        rw [hsound.filled.complete fun i hi => ⟨by rwa [hdone.1], by rw [hdone.2]; exact List.not_mem_nil⟩]
        exact collect_complete vars seed h
      · rw [if_neg hdone] at hrun; cases hrun

/-- The slot of a branch. -/
theorem getElem?_slotsOf (vars : Table (Value R)) (seed : Random.Seed) {i : Nat} {branch : Branch}
    (h : b.branches[i]? = some branch) :
    (slotsOf vars seed b)[i]? =
      some (branch.label, Job.run vars ⟨branch, .ofSeed (seed.child i)⟩) := by
  unfold slotsOf
  rw [List.getElem?_map, getElem?_jobs, h]
  rfl

/-- The label of a branch has no influence on its outcome. -/
theorem Job.run_congr {branch branch' : Branch} (stream : Random.Stream)
    (hexpression : branch'.expression = branch.expression) (hline : branch'.line = branch.line) :
    Job.run vars ⟨branch', stream⟩ = Job.run vars ⟨branch, stream⟩ := by
  unfold Job.run
  rw [hexpression, hline]

/-- A branch fails at its line. -/
theorem Job.line_of_failed {j : Job} {report : Report R} (h : j.run vars = .failed report) :
    report.line = .int j.branch.line := by
  unfold Job.run at h
  cases he : Expression.evaluate vars j.stream j.branch.expression with
  | ok v => rw [he] at h; cases h
  | error cause =>
      rw [he] at h
      cases h
      rfl

/-- **Parallel blocks do not depend on schedules, and branches do not disturb each other.**  Every order of the
branches and every run of a pool that carries them all out give the outcomes of `run`; a pool with a worker gets there
in twice as many moves as there are branches.  There is one slot for every branch, in order, and it is the same in
every block that has the same expression and line at its position.  Failures carry the line of their branch. -/
theorem run_schedule_independent {s : Statement} (parsed : Block.ofStatement (R := R) s = .ok b)
    (vars : Table (Value R)) (seed : Random.Seed) :
    (∀ order : List Nat, (∀ i < b.branches.length, i ∈ order) → runInOrder order vars seed b = run vars seed b) ∧
    (∀ limit moves outcomes, runOnPool limit moves vars seed b = some outcomes → outcomes = run vars seed b) ∧
    (∀ limit moves p, 0 < limit → (Pool.idle (jobs seed b)).play vars (jobs seed b) limit moves = some p →
      moves.length ≤ 2 * b.branches.length ∧
        (p.isDone (jobs seed b) = true ∨ ∃ m, (p.move vars (jobs seed b) limit m).isSome = true)) ∧
    (run vars seed b).keys = b.labels ∧ b.labels.Nodup ∧
    (∀ b' : Block, b'.labels.Nodup → ∀ (i : Nat) (branch branch' : Branch), b.branches[i]? = some branch →
      b'.branches[i]? = some branch' → branch'.expression = branch.expression → branch'.line = branch.line →
      ∃ o, (run vars seed b)[i]? = some (branch.label, o) ∧ (run vars seed b')[i]? = some (branch'.label, o)) ∧
    (∀ (i : Nat) (branch : Branch) (label : String) (report : Report R), b.branches[i]? = some branch →
      (run vars seed b)[i]? = some (label, .failed report) → report.line = .int branch.line) := by
  have hnodup := nodup_labels_of_ofStatement parsed
  have hrun := run_eq_slotsOf vars seed hnodup
  refine ⟨?_, ?_, ?_, ?_, hnodup, ?_, ?_⟩
  · intro order horder
    rw [hrun]
    exact runInOrder_eq_slotsOf vars seed hnodup horder
  · intro limit moves outcomes h
    rw [hrun]
    exact runOnPool_eq_slotsOf hnodup h
  · intro limit moves p hlimit hplay
    have hsound := (Pool.sound_idle vars (jobs seed b) limit).play hplay
    refine ⟨?_, hsound.progress hlimit⟩
    have hmoves := hsound.moves
    have hstarted := hsound.started
    rw [length_jobs] at hstarted
    omega
  · rw [hrun, keys_slotsOf]
  · intro b' hnodup' i branch branch' h h' hexpression hline
    refine ⟨Job.run vars ⟨branch, .ofSeed (seed.child i)⟩, ?_, ?_⟩
    · rw [hrun]
      exact getElem?_slotsOf vars seed h
    · rw [run_eq_slotsOf vars seed hnodup', getElem?_slotsOf vars seed h', Job.run_congr _ hexpression hline]
  · intro i branch label report h hfailed
    rw [hrun, getElem?_slotsOf vars seed h, Option.some.injEq, Prod.mk.injEq] at hfailed
    exact Job.line_of_failed hfailed.2

/-- A block of two branches, the first of which fails, in reverse order and on a pool of two workers. -/
theorem run_division_by_zero_schedule_independent :
    (Block.ofStatement (R := Float)
        ⟨1, "parallel \x7b", [⟨2, 2, "branch A: 1 / 0"⟩, ⟨3, 2, "branch B: 2 * 2"⟩], true⟩ =
        .ok ⟨[⟨"A", "1 / 0", 2⟩, ⟨"B", "2 * 2", 3⟩], 1⟩) ∧
      runInOrder [1, 0] ([] : Table (Value Float)) ⟨11, []⟩ ⟨[⟨"A", "1 / 0", 2⟩, ⟨"B", "2 * 2", 3⟩], 1⟩ =
        run [] ⟨11, []⟩ ⟨[⟨"A", "1 / 0", 2⟩, ⟨"B", "2 * 2", 3⟩], 1⟩ ∧
      ∃ outcomes, runOnPool 2 [.start, .start, .finish 1, .finish 0] ([] : Table (Value Float)) ⟨11, []⟩
          ⟨[⟨"A", "1 / 0", 2⟩, ⟨"B", "2 * 2", 3⟩], 1⟩ = some outcomes ∧
        outcomes = run [] ⟨11, []⟩ ⟨[⟨"A", "1 / 0", 2⟩, ⟨"B", "2 * 2", 3⟩], 1⟩ := by
  have parsed : Block.ofStatement (R := Float)
      ⟨1, "parallel \x7b", [⟨2, 2, "branch A: 1 / 0"⟩, ⟨3, 2, "branch B: 2 * 2"⟩], true⟩ =
        .ok ⟨[⟨"A", "1 / 0", 2⟩, ⟨"B", "2 * 2", 3⟩], 1⟩ := by rfl
  have independent := run_schedule_independent parsed [] ⟨11, []⟩
  refine ⟨parsed, independent.1 [1, 0] (by decide), ?_⟩
  obtain ⟨outcomes, hpool⟩ := Option.isSome_iff_exists.mp (show
    (runOnPool 2 [.start, .start, .finish 1, .finish 0] ([] : Table (Value Float)) ⟨11, []⟩
      ⟨[⟨"A", "1 / 0", 2⟩, ⟨"B", "2 * 2", 3⟩], 1⟩).isSome = true from by decide +kernel)
  exact ⟨outcomes, hpool, independent.2.1 2 _ outcomes hpool⟩

end independence

end LabLang.Parallel
