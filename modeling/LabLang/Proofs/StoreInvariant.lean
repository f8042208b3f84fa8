import LabLang.Proofs.Assignments
import LabLang.Proofs.FailFast
import LabLang.Proofs.Schedules
import LabLang.Proofs.ValidCircuit

/-! # What holds in every store

Names are bound to values by assignments, definitions and parallel blocks, and circuits are kept in a table of their
own.  Whatever programs have been executed since the store was empty, successful or not, its names are identifiers, its
circuits have been checked and stand under their own names, and its values are sound: a text has no quotation mark in it,
a quantity is finite with an uncertainty that is not negative, and a circuit that a value refers to is in the table
(`Store.IsSound`).  One statement keeps this (`Gives.isSound`), since expressions have sound values if the bindings are
sound (`isSound_of_evaluate`); by induction so does a program (`Succeed.isSound`), and a failed statement writes
nothing. -/

namespace LabLang

open Text

variable {R : Type} [Scalar R]

/-! ### Values -/

/-- The value is well formed, and a circuit that it refers to is known. -/
def Value.IsSound (known : String → Prop) : Value R → Prop
  | number _ | raw _ => True
  | text t => '"' ∉ t.toList
  | uncertain q _ => Scalar.isFinite q.nominal = true ∧ Scalar.isFinite q.uncertainty = true ∧
      Scalar.lt q.uncertainty Scalar.zero = false
  | circuit name => known name

variable {known : String → Prop}

theorem Value.IsSound.mono {known' : String → Prop} {v : Value R} (h : v.IsSound known)
    (hknown : ∀ name, known name → known' name) : v.IsSound known' := by
  cases v with
  | circuit name => exact hknown name h
  | number _ | raw _ | text _ | uncertain _ _ => exact h

/-- Quantities are made with finite numbers only. -/
theorem Value.isSound_uncertain (q : Quantity R) (source : Option (String × String)) :
    (Value.uncertain q source).IsSound known :=
  ⟨(Bool.and_eq_true_iff.mp q.finite).1, (Bool.and_eq_true_iff.mp q.finite).2, q.nonnegative⟩

/-- All entries of a table have sound values. -/
def AreSound (known : String → Prop) (vars : Table (Value R)) : Prop := ∀ entry ∈ vars, entry.2.IsSound known

/-! ### Literals -/

namespace Literal

theorem isSound_ofTokens {nominal uncertainty : Token} {v : Value R} (h : ofTokens nominal uncertainty = .ok v) :
    v.IsSound known := by
  unfold ofTokens at h
  obtain ⟨q, _, h⟩ := ok_of_bind h
  cases h
  exact Value.isSound_uncertain q _

theorem isSound_text? {s : List Char} {inner : List Char} (h : text? s = some inner) :
    (Value.text (String.ofList inner) : Value R).IsSound known := by
  show '"' ∉ (String.ofList inner).toList
  rw [String.toList_ofList]
  exact (text?_eq_some.mp h).2

theorem isSound_uncertain? {s : List Char} {v : Value R} (h : uncertain? s = .ok (some v)) : v.IsSound known := by
  unfold uncertain? at h
  split at h
  · obtain ⟨w, hw, hv⟩ := ok_of_map h
    cases hv
    exact isSound_ofTokens hw
  · cases h

theorem isSound_read? {s : List Char} {v : Value R} (h : read? s = .ok (some v)) : v.IsSound known := by
  unfold read? at h
  split at h
  · obtain ⟨w, hw, hv⟩ := ok_of_map h
    cases hv
    exact isSound_ofTokens hw
  · split at h
    · cases h
      trivial
    · rw [Except.ok.injEq, Option.map_eq_some_iff] at h
      obtain ⟨inner, hinner, rfl⟩ := h
      exact isSound_text? hinner

end Literal

/-! ### Assignments -/

namespace Assignment

theorem isSound_plainValue (s : List Char) : (plainValue s : Value R).IsSound known := by
  unfold plainValue
  split
  · trivial
  · split
    · rename_i hinner
      exact Literal.isSound_text? hinner
    · trivial

theorem isSound_declaredValue {s : List Char} {line : Option Nat} {v : Value R} (h : declaredValue s line = .ok v) :
    v.IsSound known := by
  unfold declaredValue at h
  split at h
  · rename_i hread
    cases h
    exact Literal.isSound_uncertain? hread
  · cases h
  · cases h

/-- An assignment binds an identifier to a sound value. -/
theorem isSound_read {text : String} {line : Option Nat} {b : Binding R} (h : read text line = .ok b) :
    isName b.name.toList = true ∧ b.value.IsSound known := by
  obtain ⟨hname, target, expression, -, hvalue⟩ := exists_of_read h
  refine ⟨hname, ?_⟩
  unfold valueOf at hvalue
  split at hvalue
  · exact isSound_declaredValue hvalue
  · exact Except.ok.inj hvalue ▸ isSound_plainValue expression

end Assignment

/-! ### Expressions -/

namespace Expression

variable {vars : Table (Value R)}

theorem isSound_of_operand? (hvars : AreSound known vars) {s : List Char} {v : Value R}
    (h : operand? vars s = .ok (some v)) : v.IsSound known := by
  unfold operand? at h
  obtain ⟨literal, hliteral, h⟩ := ok_of_bind h
  split at h
  · cases h
    exact Literal.isSound_read? hliteral
  · split at h
    · split at h
      · rename_i hget
        cases h
        exact hvars _ (Table.mem_of_get? hget)
      · cases h
    · cases h

theorem isSound_of_applyOperator {op : Char} {left right v : Value R} (hleft : left.IsSound known)
    (hright : right.IsSound known) (h : applyOperator op left right = .ok v) : v.IsSound known := by
  unfold applyOperator at h
  split at h
  · obtain ⟨x, _, rfl⟩ := ok_of_map h
    trivial
  · split at h
    · obtain ⟨a, _, h⟩ := ok_of_bind h
      obtain ⟨b, _, h⟩ := ok_of_bind h
      obtain ⟨q, _, h⟩ := ok_of_bind h
      cases h
      exact Value.isSound_uncertain q none
    · split at h
      · split at h
        · cases h
          show '"' ∉ (_ ++ _ : String).toList
          rw [String.toList_append, List.mem_append, not_or]
          exact ⟨hleft, hright⟩
        · cases h
      · cases h

theorem isSound_of_estimatePi {g : Random.Stream} {args : List (Value R)} {v : Value R}
    (h : estimatePi g args = .ok v) : v.IsSound known := by
  unfold estimatePi at h
  split at h
  · split at h
    · obtain ⟨q, _, h⟩ := ok_of_bind h
      cases h
      exact Value.isSound_uncertain q none
    · cases h
  · cases h

theorem isSound_of_average {args : List (Value R)} {v : Value R} (h : average args = .ok v) : v.IsSound known := by
  unfold average at h
  obtain ⟨_, h⟩ := ok_of_test h
  obtain ⟨_, h⟩ := ok_of_test h
  unfold meanValue at h
  split at h
  · obtain ⟨x, _, h⟩ := ok_of_bind h
    cases h
    trivial
  · obtain ⟨qs, _, h⟩ := ok_of_bind h
    obtain ⟨q, _, h⟩ := ok_of_bind h
    cases h
    exact Value.isSound_uncertain q none

theorem isSound_of_call {b : Builtin} {g : Random.Stream} {args : List (Value R)} {v : Value R}
    (h : b.call g args = .ok v) : v.IsSound known := by
  cases b with
  | estimatePi => exact isSound_of_estimatePi h
  | average => exact isSound_of_average h

/-- **Expressions have sound values**, if the names in them have. -/
theorem isSound_of_evaluate (hvars : AreSound known vars) {g : Random.Stream} {text : String} {v : Value R}
    (h : evaluate vars g text = .ok v) : v.IsSound known := by
  unfold evaluate at h
  obtain ⟨operand, hoperand, h⟩ := ok_of_bind h
  split at h
  · cases h
    exact isSound_of_operand? hvars hoperand
  · split at h
    · unfold evaluateCall at h
      split at h
      · cases h
      · obtain ⟨args?, _, h⟩ := ok_of_bind h
        split at h
        · exact isSound_of_call h
        · cases h
          trivial
    · unfold evaluateBinary at h
      split at h
      · cases h
        trivial
      · obtain ⟨left, hleft, h⟩ := ok_of_bind h
        obtain ⟨right, hright, h⟩ := ok_of_bind h
        split at h
        · exact isSound_of_applyOperator (isSound_of_operand? hvars hleft) (isSound_of_operand? hvars hright) h
        · cases h
          trivial

end Expression

/-! ### Parallel blocks -/

namespace Parallel

theorem isName_of_declaration? {text label expression : String} (h : declaration? text = some (label, expression)) :
    isName label.toList = true := by
  unfold declaration? at h
  obtain ⟨r, _, h⟩ := Option.bind_eq_some_iff.mp h
  obtain ⟨⟨taken, rest⟩, htake, h⟩ := Option.bind_eq_some_iff.mp h
  dsimp only at h
  split at h
  · split at h
    · cases h
    · cases h
      rw [String.toList_ofList]
      exact isName_of_takeName htake
  · cases h

theorem isName_of_declared {lines : List SourceLine} {branches : List Branch}
    (h : List.Forall₂ Branch.IsDeclaredBy lines branches) : ∀ b ∈ branches, isName b.label.toList = true := by
  induction h with
  | nil => exact fun _ hb => absurd hb List.not_mem_nil
  | cons hl _ ih => exact List.forall_mem_cons.mpr ⟨isName_of_declaration? hl.1, ih⟩

omit [Scalar R] in
/-- The labels of a block are identifiers. -/
theorem isName_of_mem_labels {s : Statement} {b : Block} (h : Block.ofStatement (R := R) s = .ok b) :
    ∀ label ∈ b.labels, isName label.toList = true := by
  unfold Block.ofStatement at h
  obtain ⟨_, h⟩ := ok_of_test h
  obtain ⟨_, h⟩ := ok_of_test h
  obtain ⟨branches, hbranches, rfl⟩ := ok_of_map h
  intro label hlabel
  obtain ⟨branch, hbranch, rfl⟩ := List.mem_map.mp hlabel
  exact isName_of_declared (branchesAfter_eq_ok.mp hbranches).1 branch hbranch

/-- The values of a block that is run on sound bindings are sound. -/
theorem isSound_of_mem_run {vars : Table (Value R)} (hvars : AreSound known vars) {seed : Random.Seed} {b : Block}
    (hnodup : b.labels.Nodup) {label : String} {v : Value R} (h : (label, .value v) ∈ run vars seed b) :
    label ∈ b.labels ∧ v.IsSound known := by
  rw [run_eq_slotsOf vars seed hnodup] at h
  refine ⟨?_, ?_⟩
  · rw [← keys_slotsOf vars seed b]
    exact List.mem_map.mpr ⟨_, h, rfl⟩
  · obtain ⟨j, _, hj⟩ := List.mem_map.mp h
    have hrun : j.run vars = .value v := (Prod.mk.inj hj).2
    unfold Job.run at hrun
    split at hrun
    · rename_i heval
      cases hrun
      exact Expression.isSound_of_evaluate hvars heval
    · cases hrun

end Parallel

/-! ### Stores -/

/-- Names are identifiers, values are sound and refer to circuits of the store, and circuits have been checked and stand
under their own names. -/
structure Store.IsSound (s : Store R) : Prop where
  names : ∀ name ∈ s.vars.keys, isName name.toList = true
  values : AreSound (fun name => ∃ c, s.circuit? name = some c) s.vars
  circuits : ∀ entry ∈ s.circuits, entry.2.name = entry.1 ∧ entry.2.IsDefined

namespace Store

variable {s : Store R}

theorem isSound_empty : (empty : Store R).IsSound :=
  ⟨fun _ h => absurd h List.not_mem_nil, fun _ h => absurd h List.not_mem_nil, fun _ h => absurd h List.not_mem_nil⟩

theorem IsSound.bindAll (h : s.IsSound) {pairs : Table (Value R)}
    (names : ∀ entry ∈ pairs, isName entry.1.toList = true)
    (values : AreSound (fun name => ∃ c, s.circuit? name = some c) pairs) : (s.bindAll pairs).IsSound := by
  refine ⟨fun name hname => ?_, fun entry hentry => ?_, h.circuits⟩
  · obtain ⟨entry, hentry, rfl⟩ := List.mem_map.mp hname
    rcases Table.mem_of_mem_putAll hentry with hold | hnew
    · exact h.names _ (List.mem_map.mpr ⟨entry, hold, rfl⟩)
    · exact names entry hnew
  · exact (Table.mem_of_mem_putAll hentry).elim (h.values entry) (values entry)

theorem IsSound.bind (h : s.IsSound) {name : String} {v : Value R} (hname : isName name.toList = true)
    (hv : v.IsSound fun name => ∃ c, s.circuit? name = some c) : (s.bind name v).IsSound :=
  show (s.bindAll [(name, v)]).IsSound from h.bindAll (by simpa using hname) (by simpa [AreSound] using hv)

/-- Defining a circuit keeps the circuits that values refer to in the table, if under this name another one. -/
theorem IsSound.define (h : s.IsSound) {c : Circuit R} (hc : c.IsDefined) : (s.define c).IsSound := by
  have known (name : String) (hname : ∃ c, s.circuit? name = some c) :
      ∃ c', (s.circuits.put c.name c).get? name = some c' := by
    by_cases hne : c.name = name
    · exact ⟨c, hne ▸ Table.get?_put_self ..⟩
    · rw [Table.get?_put_of_ne _ _ hne]
      exact hname
  have hcircuits : ({ s with circuits := s.circuits.put c.name c } : Store R).IsSound := by
    refine ⟨h.names, fun entry hentry => (h.values entry hentry).mono known, fun entry hentry => ?_⟩
    rcases Table.mem_of_mem_put hentry with hold | rfl
    · exact h.circuits entry hold
    · exact ⟨rfl, hc⟩
  exact hcircuits.bind hc.name ⟨c, Table.get?_put_self ..⟩

/-- What is found under a name has been checked when it was defined under this name. -/
theorem IsSound.circuit? (h : s.IsSound) {name : String} {c : Circuit R} (hc : s.circuit? name = some c) :
    c.name = name ∧ c.IsDefined :=
  h.circuits _ (Table.mem_of_get? hc)

end Store

/-! ### Executions -/

namespace Interpreter

variable {root : Random.Seed} {shots : Int}

theorem isSound_bindOutcomes {store : Store R} (h : store.IsSound) {s : Statement} {block : Parallel.Block}
    (read : Parallel.Block.ofStatement (R := R) s = .ok block) (seed : Random.Seed) :
    (bindOutcomes store (Parallel.run store.vars seed block)).IsSound := by
  have houtcome {label : String} {v : Value R}
      (hpair : (label, v) ∈ (Parallel.run store.vars seed block).filterMap fun slot =>
        slot.2.value?.map fun v => (slot.1, v)) :
      label ∈ block.labels ∧ v.IsSound fun name => ∃ c, store.circuit? name = some c := by
    obtain ⟨⟨l, o⟩, hmem, hvalue⟩ := List.mem_filterMap.mp hpair
    cases o with
    | failed report => cases hvalue
    | value w =>
        cases hvalue
        exact Parallel.isSound_of_mem_run h.values (Parallel.nodup_labels_of_ofStatement read) hmem
  exact h.bindAll (fun entry hentry => Parallel.isName_of_mem_labels read _ (houtcome hentry).1)
    fun entry hentry => (houtcome hentry).2

/-- Every statement keeps a store sound. -/
theorem Gives.isSound {s : Statement} {st st' : State R} {r : Result R} (h : Gives root shots s st r st')
    (hst : st.store.IsSound) : st'.store.IsSound := by
  cases h with
  | circuit kind read => exact hst.define (Circuit.isDefined_of_ofStatement read)
  | parallel kind read run =>
      subst run
      exact isSound_bindOutcomes hst read _
  | run kind read runnable measured => exact hst
  | assignment kind read =>
      obtain ⟨hname, hvalue⟩ := Assignment.isSound_read read
      exact hst.bind hname hvalue
  | literal kind => exact hst

/-- So does every list of statements that succeed. -/
theorem Succeed.isSound {st st' : State R} {program : List Statement} (h : Succeed root shots st program st')
    (hst : st.store.IsSound) : st'.store.IsSound := by
  induction h with
  | nil st => exact hst
  | cons head tail ih =>
      obtain ⟨r, mid, hgives, hmid⟩ := run_step_ok head
      refine ih ?_
      rcases hmid with ⟨_, rfl⟩ | ⟨_, rfl⟩
      · exact hgives.isSound hst
      · exact hgives.isSound hst

/-- A program keeps the store sound, whether it fails or not. -/
theorem isSound_of_execute {settings : Settings} {fresh : Nat} {store final : Store R} {source : String}
    {r : Result R} (hstore : store.IsSound) (h : execute settings fresh store source = .ok (r, final)) :
    final.IsSound := by
  unfold execute at h
  obtain ⟨root, _, h⟩ := ok_of_map h
  unfold runProgram at h
  have spec := runStatements_spec root settings.defaultShots (Source.statements source) { store }
  split at h
  · rename_i hrun
    rw [hrun] at spec
    cases h
    exact spec.isSound hstore
  · rename_i hrun
    rw [hrun] at spec
    cases h
    -- the failed statement has left the store of those before it
    obtain ⟨k, s, before, _, hbefore, hfail⟩ := spec
    rw [(failed_step hfail).1]
    exact hbefore.isSound hstore

end Interpreter

namespace Store

/-- The stores that executions and clearing lead to, starting with an empty one. -/
inductive Reachable : Store R → Prop
  | empty : Reachable .empty
  | execute {settings : Settings} {fresh : Nat} {store final : Store R} {source : String} {r : Result R}
      (before : Reachable store) (run : Interpreter.execute settings fresh store source = .ok (r, final)) :
      Reachable final
  | clear {store : Store R} (before : Reachable store) : Reachable .empty

theorem Reachable.isSound {store : Store R} (h : store.Reachable) : store.IsSound := by
  induction h with
  | empty => exact isSound_empty
  | execute before run ih => exact Interpreter.isSound_of_execute ih run
  | clear before ih => exact isSound_empty

/-- **What holds in every store that programs lead to.**  Its names are identifiers, and a value that refers to a circuit
refers to one of the table.  Circuits stand under their own names, have a register of bounded size, gates under the names
they are registered by that fit it, and measure some of its qubits, listed in ascending order.  Texts are free of
quotation marks, and uncertain quantities are finite with an uncertainty that is not negative. -/
theorem reachable_store_invariant {store : Store R} (h : store.Reachable) :
    (∀ name ∈ store.vars.keys, isName name.toList = true) ∧
    (∀ name target, (name, .circuit target) ∈ store.vars → ∃ c, store.circuit? target = some c) ∧
    (∀ name c, (name, c) ∈ store.circuits → c.name = name ∧ 1 ≤ c.qubits ∧ c.qubits ≤ maxQubits ∧
      (∀ g ∈ c.gates, ∃ kind, g.name = kind.name ∧ g.Fits c.qubits kind) ∧
      c.measured ≠ [] ∧ c.measured.Pairwise (· < ·) ∧ ∀ q ∈ c.measured, q < c.qubits) ∧
    (∀ name t, (name, .text t) ∈ store.vars → '"' ∉ t.toList) ∧
    (∀ name q source, (name, .uncertain q source) ∈ store.vars →
      Scalar.isFinite q.nominal = true ∧ Scalar.isFinite q.uncertainty = true ∧
        Scalar.lt q.uncertainty Scalar.zero = false) := by
  have sound := h.isSound
  refine ⟨sound.names, fun name target hmem => sound.values _ hmem, fun name c hmem => ?_,
    fun name t hmem => sound.values _ hmem, fun name q source hmem => sound.values _ hmem⟩
  obtain ⟨hname, hc⟩ := sound.circuits _ hmem
  exact ⟨hname, hc.valid.positive, hc.bounded, fun g hg => hc.gate hg, hc.valid.nonempty, hc.valid.ascending,
    hc.valid.inRange⟩

/-- A branch copies the reference to a circuit, whose name is then bound to a text; the program ends with a failure. -/
theorem reachable_store_invariant_copied :
    ∃ store : Store Float, store.Reachable ∧ store.vars.keys = ["c", "copy", "x"] ∧ store.circuits.keys = ["c"] ∧
      (∀ name ∈ store.vars.keys, isName name.toList = true) ∧
      (∀ name target, (name, .circuit target) ∈ store.vars → ∃ c, store.circuit? target = some c) ∧
      (∀ name c, (name, c) ∈ store.circuits → c.name = name ∧ 1 ≤ c.qubits ∧ c.qubits ≤ maxQubits ∧
        (∀ g ∈ c.gates, ∃ kind, g.name = kind.name ∧ g.Fits c.qubits kind) ∧
        c.measured ≠ [] ∧ c.measured.Pairwise (· < ·) ∧ ∀ q ∈ c.measured, q < c.qubits) ∧
      (∀ name t, (name, .text t) ∈ store.vars → '"' ∉ t.toList) ∧
      (∀ name q source, (name, .uncertain q source) ∈ store.vars →
        Scalar.isFinite q.nominal = true ∧ Scalar.isFinite q.uncertainty = true ∧
          Scalar.lt q.uncertainty Scalar.zero = false) := by
  obtain ⟨source, hsource⟩ : ∃ source, source = "quantum circuit c:\n  qubits: 2\n  CNOT(1, 0)\n  measure(1)\n" ++
    "parallel \x7b\n branch copy: c\n\x7d\nc = \"text\"\nuncertain x = 1 ± 0.5\ny = = 2" := ⟨_, rfl⟩
  have shown : ((Interpreter.execute (R := Float) ⟨some 7, 1000, none⟩ 0 .empty source).toOption.map fun p =>
      (p.2.vars.keys, p.2.circuits.keys)) = some (["c", "copy", "x"], ["c"]) := by
    rw [hsource]
    decide +kernel
  cases hrun : Interpreter.execute (R := Float) ⟨some 7, 1000, none⟩ 0 .empty source with
  | error fault => rw [hrun] at shown; cases shown
  | ok p =>
      rw [hrun] at shown
      have keys := Prod.mk.inj (Option.some.inj shown)
      have reachable : p.2.Reachable := .execute .empty hrun
      exact ⟨p.2, reachable, keys.1, keys.2, reachable_store_invariant reachable⟩

end Store

end LabLang
