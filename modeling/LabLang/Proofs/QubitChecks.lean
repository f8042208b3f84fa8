import LabLang.Circuit.Definition
import LabLang.Proofs.GateCheck
import LabLang.Scalar.Machine

/-! # Which qubits of a definition are checked

A line of a definition that is accepted has been read as what its kind says: `Draft.Adds` lists all that one line can
do to the draft of a circuit, and `Draft.Collects` what the lines of a body do together.  The indices in gate lines are
always checked; those in measure lines are checked unless some line measures all qubits, in which case they have no
influence whatsoever (`ofStatement_checks_qubits`). -/

namespace LabLang.Circuit

open Text Number

variable {R : Type}

/-! ### Kinds of lines -/

/-- The line declares the number of qubits. -/
def isCountLine (l : SourceLine) : Bool := (declaredCount? l.text).isSome

/-- The line starts with the word for measurements, in any case. -/
def startsMeasure (l : SourceLine) : Bool := (dropWord "measure".toList (l.text.toList.map Char.toLower)).isSome

/-- The line measures qubits. -/
def isMeasureLine (l : SourceLine) : Bool := !isCountLine l && startsMeasure l

/-- The line applies a gate. -/
def isGateLine (l : SourceLine) : Bool := !isCountLine l && !startsMeasure l

theorem isMeasureLine_iff {l : SourceLine} :
    isMeasureLine l = true ↔ declaredCount? l.text = none ∧ startsMeasure l = true := by
  simp [isMeasureLine, isCountLine]

theorem isGateLine_iff {l : SourceLine} :
    isGateLine l = true ↔ declaredCount? l.text = none ∧ startsMeasure l = false := by
  simp [isGateLine, isCountLine]

/-! ### One line -/

/-- A declaration that is accepted gives the integer that it writes, which is the size of a register. -/
theorem declaration_ok {name : String} {declared : Bool} {value : List Char} {line : Nat} {n : Int}
    (h : declaration (R := R) name declared value line = .ok n) :
    readInteger value = .ok n ∧ 0 < n ∧ n ≤ maxQubits := by
  unfold declaration at h
  obtain ⟨_, h⟩ := ok_of_unless h
  obtain ⟨_, h⟩ := ok_of_unless h
  obtain ⟨count, hcount, h⟩ := ok_of_bind h
  obtain ⟨hpos, h⟩ := ok_of_unless h
  obtain ⟨hmax, h⟩ := ok_of_unless h
  cases h
  refine ⟨?_, by omega, by omega⟩
  unfold integer at hcount
  cases hread : readInteger value with
  | error fault => rw [hread] at hcount; cases hcount
  | ok m =>
      rw [hread] at hcount
      cases hcount
      rfl

variable [Scalar R]

/-- What a line of the body does to the draft, by its kind. -/
inductive Draft.Adds (name : String) (d : Draft R) (l : SourceLine) : Draft R → Prop
  | count {value : List Char} {n : Int} (kind : declaredCount? l.text = some value)
      (read : declaration (R := R) name d.qubits.isSome value l.number = .ok n) :
      Adds name d l { d with qubits := some n }
  | all (kind : isMeasureLine l = true) (read : measure (R := R) l = .ok none) :
      Adds name d l { d with all := true }
  | measure {qubits : List Int} (kind : isMeasureLine l = true)
      (read : Circuit.measure (R := R) l = .ok (some qubits)) :
      Adds name d l { d with measured := d.measured ++ qubits }
  | gate {g : Gate R} (kind : isGateLine l = true) (read : Circuit.gate l = .ok g) :
      Adds name d l { d with gates := d.gates ++ [g] }

theorem Draft.adds_of_add {name : String} {d d' : Draft R} {l : SourceLine} (h : d.add name l = .ok d') :
    d.Adds name l d' := by
  unfold Draft.add at h
  cases hcount : declaredCount? l.text with
  | some value =>
      rw [hcount] at h
      obtain ⟨n, hn, h⟩ := ok_of_bind h
      cases h
      exact .count hcount hn
  | none =>
      rw [hcount] at h
      dsimp only at h
      split at h
      · rename_i hmeasure
        have kind := isMeasureLine_iff.mpr ⟨hcount, hmeasure⟩
        obtain ⟨targets, hread, h⟩ := ok_of_bind h
        cases targets with
        | none => cases h; exact .all kind hread
        | some qubits => cases h; exact .measure kind hread
      · rename_i hmeasure
        have kind := isGateLine_iff.mpr ⟨hcount, Bool.eq_false_iff.mpr hmeasure⟩
        obtain ⟨g, hread, h⟩ := ok_of_bind h
        cases h
        exact .gate kind hread

/-- What a line does to the draft is done when it is taken in. -/
theorem Draft.Adds.add {name : String} {d d' : Draft R} {l : SourceLine} (h : d.Adds name l d') :
    d.add name l = .ok d' := by
  unfold Draft.add
  cases h with
  | count kind read =>
      rw [kind]
      dsimp only
      rw [read]
      rfl
  | all kind read =>
      obtain ⟨hcount, hmeasure⟩ := isMeasureLine_iff.mp kind
      unfold startsMeasure at hmeasure
      rw [hcount, if_pos hmeasure, read]
      rfl
  | measure kind read =>
      obtain ⟨hcount, hmeasure⟩ := isMeasureLine_iff.mp kind
      unfold startsMeasure at hmeasure
      rw [hcount, if_pos hmeasure, read]
      rfl
  | gate kind read =>
      obtain ⟨hcount, hmeasure⟩ := isGateLine_iff.mp kind
      unfold startsMeasure at hmeasure
      rw [hcount, hmeasure, if_neg Bool.false_ne_true, read]
      rfl

/-- A line that names qubits to measure is accepted whichever they are. -/
theorem Draft.add_measure {name : String} (d : Draft R) {l : SourceLine} {qubits : List Int}
    (kind : isMeasureLine l = true) (read : Circuit.measure (R := R) l = .ok (some qubits)) :
    d.add name l = .ok { d with measured := d.measured ++ qubits } :=
  (Adds.measure kind read).add

/-! ### The lines of a body -/

/-- The qubits that measure lines name. -/
def named (targets : List (Option (List Int))) : List Int := targets.flatMap (·.getD [])

/-- What the lines of a body add to a draft: `gates` has been read from the gate lines, in order, and `targets` from the
measure lines. -/
structure Draft.Collects (d : Draft R) (ls : List SourceLine) (d' : Draft R) (gates : List (Gate R))
    (targets : List (Option (List Int))) : Prop where
  gateLines : (ls.filter isGateLine).mapM Circuit.gate = .ok gates
  measureLines : (ls.filter isMeasureLine).mapM (measure (R := R)) = .ok targets
  gates : d'.gates = d.gates ++ gates
  measured : d'.measured = d.measured ++ named targets
  all : d'.all = (d.all || targets.contains none)
  qubits : ∀ n, d'.qubits = some n → d.qubits = some n ∨
    ∃ l ∈ ls, ∃ value, declaredCount? l.text = some value ∧ readInteger value = .ok n

theorem Draft.Collects.append {d mid d' : Draft R} {ls ls' : List SourceLine} {gates gates' : List (Gate R)}
    {targets targets' : List (Option (List Int))} (h : d.Collects ls mid gates targets)
    (h' : mid.Collects ls' d' gates' targets') :
    d.Collects (ls ++ ls') d' (gates ++ gates') (targets ++ targets') where
  gateLines := by
    rw [List.filter_append, List.mapM_append, h.gateLines, h'.gateLines]
    rfl
  measureLines := by
    rw [List.filter_append, List.mapM_append, h.measureLines, h'.measureLines]
    rfl
  gates := by rw [h'.gates, h.gates, List.append_assoc]
  measured := by rw [h'.measured, h.measured, named, named, named, List.flatMap_append, List.append_assoc]
  all := by rw [h'.all, h.all, List.contains_append, Bool.or_assoc]
  qubits n hn := by
    rcases h'.qubits n hn with hmid | ⟨l, hl, hread⟩
    · rcases h.qubits n hmid with hd | ⟨l, hl, hread⟩
      · exact .inl hd
      · exact .inr ⟨l, List.mem_append_left _ hl, hread⟩
    · exact .inr ⟨l, List.mem_append_right _ hl, hread⟩

/-- One line that has been read. -/
theorem Draft.Adds.collects {name : String} {d d' : Draft R} {l : SourceLine} (h : d.Adds name l d') :
    ∃ gates targets, d.Collects [l] d' gates targets := by
  cases h with
  | @count value n kind read =>
      have hmeasure : isMeasureLine l = false := by simp [isMeasureLine, isCountLine, kind]
      have hgate : isGateLine l = false := by simp [isGateLine, isCountLine, kind]
      refine ⟨[], [], ?_⟩
      constructor
      case qubits =>
        intro m hm
        cases hm
        exact .inr ⟨l, List.mem_singleton.mpr rfl, value, kind, (declaration_ok read).1⟩
      all_goals simp [hmeasure, hgate, named, pure, Except.pure]
  | all kind read =>
      have hgate : isGateLine l = false := by simp [isGateLine, (isMeasureLine_iff.mp kind).2]
      refine ⟨[], [none], ?_⟩
      constructor
      case qubits => exact fun m hm => .inl hm
      all_goals simp [hgate, kind, read, named, bind, Except.bind, pure, Except.pure]
  | @measure qubits kind read =>
      have hgate : isGateLine l = false := by simp [isGateLine, (isMeasureLine_iff.mp kind).2]
      refine ⟨[], [some qubits], ?_⟩
      constructor
      case qubits => exact fun m hm => .inl hm
      all_goals simp [hgate, kind, read, named, bind, Except.bind, pure, Except.pure]
  | @gate g kind read =>
      have hmeasure : isMeasureLine l = false := by simp [isMeasureLine, (isGateLine_iff.mp kind).2]
      refine ⟨[g], [], ?_⟩
      constructor
      case qubits => exact fun m hm => .inl hm
      all_goals simp [hmeasure, kind, read, named, bind, Except.bind, pure, Except.pure]

/-- The lines of a body that has been read. -/
theorem Draft.collects_of_foldlM {name : String} {ls : List SourceLine} {d d' : Draft R}
    (h : ls.foldlM (Draft.add name) d = .ok d') : ∃ gates targets, d.Collects ls d' gates targets := by
  induction ls generalizing d with
  | nil =>
      cases h
      exact ⟨[], [], rfl, rfl, by simp, by simp [named], by simp, fun n hn => .inl hn⟩
  | cons l rest ih =>
      rw [List.foldlM_cons] at h
      obtain ⟨mid, hadd, h⟩ := ok_of_bind h
      obtain ⟨gates, targets, hl⟩ := (Draft.adds_of_add hadd).collects
      obtain ⟨gates', targets', hrest⟩ := ih h
      exact ⟨gates ++ gates', targets ++ targets', hl.append hrest⟩

/-! ### Circuits -/

/-- The numbers are those of distinct qubits of the circuit. -/
def AreDistinctQubits (c : Circuit R) (qubits : List Int) : Prop := qubits.Nodup ∧ ∀ q ∈ qubits, 0 ≤ q ∧ q < c.qubits

omit [Scalar R] in
/-- Qubits to measure that pass the check are distinct qubits of the register, and are put in ascending order; if there
are none, all qubits are measured. -/
theorem checkMeasured_parts {name : String} {count : Nat} {measured : List Int} {chosen : List Nat}
    (h : checkMeasured (R := R) name count measured = .ok chosen) :
    (measured = [] ∧ chosen = List.range count) ∨
      (measured ≠ [] ∧ measured.Nodup ∧ (∀ q ∈ measured, 0 ≤ q ∧ q < count) ∧
        chosen = (List.range count).filter fun q : Nat => measured.contains (q : Int)) := by
  unfold checkMeasured at h
  by_cases hnil : measured.isEmpty = true
  · rw [if_pos hnil] at h
    cases h
    exact .inl ⟨List.isEmpty_iff.mp hnil, rfl⟩
  · rw [if_neg hnil] at h
    cases hrange : measured.find? fun q => !isQubit count q with
    | some q => rw [hrange] at h; cases h
    | none =>
        rw [hrange] at h
        dsimp only at h
        by_cases hdistinct : distinct measured = true
        · rw [if_pos hdistinct] at h
          cases h
          refine .inr ⟨fun h => hnil (List.isEmpty_iff.mpr h), distinct_iff.mp hdistinct, fun q hq => ?_, rfl⟩
          have := List.find?_eq_none.mp hrange q hq
          simpa [isQubit] using this
        · rw [if_neg hdistinct] at h
          cases h

omit [Scalar R] in
/-- Distinct qubits of the register pass the check. -/
theorem checkMeasured_eq_ok (name : String) {count : Nat} {measured : List Int} (nonempty : measured ≠ [])
    (distinct : measured.Nodup) (inRange : ∀ q ∈ measured, 0 ≤ q ∧ q < count) :
    checkMeasured (R := R) name count measured =
      .ok ((List.range count).filter fun q : Nat => measured.contains (q : Int)) := by
  unfold checkMeasured
  rw [List.isEmpty_eq_false_iff.mpr nonempty, find?_isQubit inRange]
  simp [distinct_iff.mpr distinct]

omit [Scalar R] in
theorem checkMeasured_ok {name : String} {count : Nat} {measured : List Int} {chosen : List Nat}
    (h : checkMeasured (R := R) name count measured = .ok chosen) :
    measured.Nodup ∧ ∀ q ∈ measured, 0 ≤ q ∧ q < count := by
  rcases checkMeasured_parts h with ⟨rfl, -⟩ | ⟨-, hnodup, hrange, -⟩
  · simp
  · exact ⟨hnodup, hrange⟩

/-- What the constructor accepts has passed its checks and is taken over. -/
theorem make_parts {name : String} {count : Int} {gates : List (Gate R)} {measured : List Int} {c : Circuit R}
    (h : make name count gates measured = .ok c) :
    0 < count ∧ (∀ g ∈ gates, checkGate name count.toNat g = .ok ()) ∧
      ∃ chosen, checkMeasured (R := R) name count.toNat measured = .ok chosen ∧
        c = ⟨name, count.toNat, gates, chosen⟩ := by
  unfold make at h
  obtain ⟨hpos, h⟩ := ok_of_unless h
  obtain ⟨⟨⟩, hgates, h⟩ := ok_of_bind h
  obtain ⟨chosen, hmeasured, h⟩ := ok_of_bind h
  cases h
  exact ⟨by omega, ok_of_forM hgates, chosen, hmeasured, rfl⟩

/-- The constructor checks all gates, and all qubits that it is given to measure. -/
theorem make_ok {name : String} {count : Int} {gates : List (Gate R)} {measured : List Int} {c : Circuit R}
    (h : make name count gates measured = .ok c) :
    (c.qubits : Int) = count ∧ (∀ g ∈ gates, c.AreDistinctQubits g.qubits) ∧ c.AreDistinctQubits measured := by
  obtain ⟨hpos, hgates, chosen, hmeasured, rfl⟩ := make_parts h
  refine ⟨by dsimp only; omega, fun g hg => ?_, checkMeasured_ok hmeasured⟩
  obtain ⟨kind, hfits⟩ := fits_of_checkGate (hgates g hg)
  exact ⟨hfits.distinct, hfits.inRange⟩

/-- A draft becomes a circuit if its count has been declared and the constructor accepts what has been read; measured
qubits are passed on to it only if no line measures all. -/
theorem Draft.circuit_eq_ok_iff {name : String} {line : Nat} {d : Draft R} {c : Circuit R} :
    d.circuit name line = .ok c ↔ ∃ count, d.qubits = some count ∧
      make name count d.gates (if d.all then [] else d.measured) = .ok c := by
  unfold Draft.circuit
  cases d.qubits with
  | none => simp
  | some count =>
      simp only [Option.some.injEq, exists_eq_left']
      split <;> simp_all

/-- The parts of a definition that is accepted: the name in its head, and the draft that its body makes. -/
theorem ofStatement_eq_ok_iff {s : Statement} {c : Circuit R} :
    ofStatement s = .ok c ↔ ∃ name d, headName? s.text = some name ∧
      s.body.foldlM (Draft.add name) ({} : Draft R) = .ok d ∧ d.circuit name s.line = .ok c := by
  unfold ofStatement
  cases headName? s.text with
  | none => simp [throw, throwThe, MonadExceptOf.throw]
  | some name =>
      cases hbody : s.body.foldlM (Draft.add name) ({} : Draft R) with
      | error f => simp [hbody, bind, Except.bind]
      | ok d => simp [hbody, bind, Except.bind]

/-- What is known of the qubits in a definition of the circuit `c`, from whose gate lines `gates` has been read and from
whose measure lines `targets`; a line that measures all qubits names none. -/
structure QubitsChecked (s : Statement) (c : Circuit R) (gates : List (Gate R)) (targets : List (Option (List Int))) :
    Prop where
  gateLines : (s.body.filter isGateLine).mapM gate = .ok gates
  measureLines : (s.body.filter isMeasureLine).mapM (measure (R := R)) = .ok targets
  declared : ∃ l ∈ s.body, ∃ value, declaredCount? l.text = some value ∧ readInteger value = .ok (c.qubits : Int)
  inGates : ∀ g ∈ gates, c.AreDistinctQubits g.qubits
  inMeasures : none ∉ targets → c.AreDistinctQubits (named targets)
  unchecked : none ∈ targets → ∀ l qubits, isMeasureLine l = true → measure (R := R) l = .ok (some qubits) →
    ofStatement { s with body := s.body ++ [l] } = .ok c

/-- **Which qubits of a definition are checked.**  In a definition that is accepted each gate line names distinct qubits
of the declared register.  So do the measure lines together, if none of them measures all qubits; beside one that does
they are not checked: a further one is accepted whatever it names, and changes nothing. -/
theorem ofStatement_checks_qubits {s : Statement} {c : Circuit R} (h : ofStatement s = .ok c) :
    ∃ gates targets, QubitsChecked s c gates targets := by
  obtain ⟨name, d, hname, hbody, hcircuit⟩ := ofStatement_eq_ok_iff.mp h
  obtain ⟨gates, targets, hd⟩ := Draft.collects_of_foldlM hbody
  obtain ⟨count, hcount, hmake⟩ := Draft.circuit_eq_ok_iff.mp hcircuit
  obtain ⟨hqubits, hgates, hmeasured⟩ := make_ok hmake
  have hall : d.all = targets.contains none := by simpa using hd.all
  refine ⟨gates, targets, hd.gateLines, hd.measureLines, ?_, ?_, ?_, ?_⟩
  · rcases hd.qubits count hcount with hnone | hdeclared
    · cases hnone
    · rwa [hqubits]
  · intro g hg
    exact hgates g (by simpa [hd.gates] using hg)
  · intro hnone
    rw [hall, List.contains_eq_mem, decide_eq_false hnone] at hmeasured
    simpa [hd.measured] using hmeasured
  · intro hnone l qubits kind read
    rw [List.contains_eq_mem, decide_eq_true hnone] at hall
    refine ofStatement_eq_ok_iff.mpr ⟨name, { d with measured := d.measured ++ qubits }, hname, ?_, ?_⟩
    · rw [List.foldlM_append, hbody]
      show [l].foldlM (Draft.add name) d = _
      rw [List.foldlM_cons, d.add_measure kind read]
      rfl
    · -- the draft has taken the qubits in, but the constructor does not see them
      rw [hall, if_pos rfl] at hmake
      refine Draft.circuit_eq_ok_iff.mpr ⟨count, hcount, ?_⟩
      rw [hall, if_pos rfl]
      exact hmake

/-- A definition with two measure lines, one of which measures all qubits; the other names one that the circuit does
not have. -/
theorem ofStatement_checks_qubits_beside_all :
    ∃ c : Circuit Float, ofStatement ⟨1, "quantum circuit c:", [⟨2, 2, "qubits: 2"⟩, ⟨3, 2, "CNOT(1, 0)"⟩,
        ⟨4, 2, "measure(5)"⟩, ⟨5, 2, "measure(all)"⟩], true⟩ = .ok c ∧ c.measured = [0, 1] ∧
      ∃ gates targets, QubitsChecked ⟨1, "quantum circuit c:", [⟨2, 2, "qubits: 2"⟩, ⟨3, 2, "CNOT(1, 0)"⟩,
        ⟨4, 2, "measure(5)"⟩, ⟨5, 2, "measure(all)"⟩], true⟩ c gates targets := by
  have shown : (ofStatement (R := Float) ⟨1, "quantum circuit c:", [⟨2, 2, "qubits: 2"⟩, ⟨3, 2, "CNOT(1, 0)"⟩,
      ⟨4, 2, "measure(5)"⟩, ⟨5, 2, "measure(all)"⟩], true⟩).toOption.map (·.measured) = some [0, 1] := by
    decide +kernel
  cases h : ofStatement (R := Float) ⟨1, "quantum circuit c:", [⟨2, 2, "qubits: 2"⟩, ⟨3, 2, "CNOT(1, 0)"⟩,
      ⟨4, 2, "measure(5)"⟩, ⟨5, 2, "measure(all)"⟩], true⟩ with
  | error f => rw [h] at shown; cases shown
  | ok c =>
      rw [h] at shown
      exact ⟨c, rfl, Option.some.inj shown, ofStatement_checks_qubits h⟩

end LabLang.Circuit
