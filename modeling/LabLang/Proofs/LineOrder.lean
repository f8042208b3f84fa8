import LabLang.Proofs.QubitChecks
import LabLang.Proofs.Renumbering

/-! # The order of the lines of a definition

A line of a definition is read on its own: what it does to a draft is to be joined to it, and only a second count is refused
(`Draft.add_eq_ok_iff`).  So the draft of a body is that of its lines put together (`Draft.foldlM_eq_ok_iff`), and in a
draft that is put together from the same parts in another order nothing but the gates and the qubits to measure can be in
another order, of which the constructor looks at the latter as at a set (`checkMeasured_perm`).  Hence only the order of the
gate lines matters (`ofStatement_reordered`). -/

namespace LabLang.Circuit

variable {R : Type}

/-! ### Drafts put together -/

namespace Draft

/-- Several drafts as one: the first count, and the gates and the measured qubits of all. -/
def join (parts : List (Draft R)) : Draft R where
  qubits := (parts.filterMap (·.qubits)).head?
  gates := parts.flatMap (·.gates)
  measured := parts.flatMap (·.measured)
  all := parts.any (·.all)

/-- The counts that have been declared. -/
def counts (parts : List (Draft R)) : List Int := parts.filterMap (·.qubits)

theorem join_singleton (d : Draft R) : join [d] = d := by
  obtain ⟨qubits, gates, measured, all⟩ := d
  cases qubits <;> simp [join]

theorem join_pair (d e : Draft R) :
    join [d, e] = ⟨d.qubits.or e.qubits, d.gates ++ e.gates, d.measured ++ e.measured, d.all || e.all⟩ := by
  obtain ⟨qubits, gates, measured, all⟩ := d
  obtain ⟨qubits', gates', measured', all'⟩ := e
  cases qubits <;> cases qubits' <;> simp [join]

theorem join_cons (d e : Draft R) (parts : List (Draft R)) :
    join (join [d, e] :: parts) = join (d :: e :: parts) := by
  obtain ⟨qubits, gates, measured, all⟩ := d
  obtain ⟨qubits', gates', measured', all'⟩ := e
  rw [join_pair]
  cases qubits <;> cases qubits' <;> simp [join, Bool.or_assoc]

/-- There is one count at most if the second draft adds none to that of the first one and there is one at most then. -/
theorem length_counts_cons (d e : Draft R) (parts : List (Draft R)) :
    (counts (d :: e :: parts)).length ≤ 1 ↔
      (e.qubits.isSome = true → d.qubits = none) ∧ (counts (join [d, e] :: parts)).length ≤ 1 := by
  obtain ⟨qubits, gates, measured, all⟩ := d
  obtain ⟨qubits', gates', measured', all'⟩ := e
  rw [join_pair]
  cases qubits <;> cases qubits' <;> simp [counts]

end Draft

/-! ### Reading a body -/

/-- A count is read alike whether there has been one or not, except that a second one is refused. -/
theorem declaration_eq_ok_iff {name : String} {declared : Bool} {value : List Char} {line : Nat} {n : Int} :
    declaration (R := R) name declared value line = .ok n ↔
      declared = false ∧ declaration (R := R) name false value line = .ok n := by
  cases declared with
  | false => simp
  | true => exact iff_of_false (fun h => nomatch h) (fun h => nomatch h.1)

namespace Draft

variable [Scalar R]

/-- The draft of a single line. -/
def ofLine (name : String) (l : SourceLine) : Except (Failure R) (Draft R) := Draft.add name {} l

/-- To take in a line is to join its draft, if this adds no second count. -/
theorem add_eq_ok_iff {name : String} {d d' : Draft R} {l : SourceLine} :
    d.add name l = .ok d' ↔
      ∃ e, ofLine name l = .ok e ∧ (e.qubits.isSome = true → d.qubits = none) ∧ d' = join [d, e] := by
  have uncounted (h : (none : Option Int).isSome = true) : d.qubits = none := by cases h
  constructor
  · intro h
    cases adds_of_add h with
    | @count value n kind read =>
        obtain ⟨hnone, read⟩ := declaration_eq_ok_iff.mp read
        rw [Option.isSome_eq_false_iff, Option.isNone_iff_eq_none] at hnone
        exact ⟨{ qubits := some n }, (Adds.count kind read).add, fun _ => hnone, by simp [join_pair, hnone]⟩
    | all kind read => exact ⟨{ all := true }, (Adds.all kind read).add, uncounted, by simp [join_pair]⟩
    | @measure qubits kind read =>
        exact ⟨{ measured := qubits }, (Adds.measure kind read).add, uncounted, by simp [join_pair]⟩
    | @gate g kind read =>
        exact ⟨{ gates := [g] }, (Adds.gate kind read).add, uncounted, by simp [join_pair]⟩
  · rintro ⟨e, hline, hcount, rfl⟩
    rw [join_pair]
    cases adds_of_add hline with
    | @count value n kind read =>
        have hnone := hcount rfl
        have hadds := Adds.count (d := d) kind (declaration_eq_ok_iff.mpr ⟨by rw [hnone]; rfl, read⟩)
        simpa [hnone] using hadds.add
    | all kind read => simpa using (Adds.all (d := d) kind read).add
    | measure kind read => simpa using (Adds.measure (d := d) kind read).add
    | gate kind read => simpa using (Adds.gate (d := d) kind read).add

/-- To take in the lines of a body is to join their drafts, if there is not more than one count among them. -/
theorem foldlM_eq_ok_iff {name : String} {d d' : Draft R} {ls : List SourceLine} :
    ls.foldlM (Draft.add name) d = .ok d' ↔
      ∃ parts, ls.mapM (ofLine name) = .ok parts ∧ (counts (d :: parts)).length ≤ 1 ∧ d' = join (d :: parts) := by
  induction ls generalizing d with
  | nil =>
      rw [List.foldlM_nil, List.mapM_nil]
      constructor
      · intro h
        obtain rfl := Except.ok.inj h
        exact ⟨[], rfl, List.length_filterMap_le _ [d], (join_singleton d).symm⟩
      · rintro ⟨parts, hparts, -, rfl⟩
        obtain rfl := Except.ok.inj hparts
        rw [join_singleton]
        rfl
  | cons l ls ih =>
      rw [List.foldlM_cons, List.mapM_cons]
      constructor
      · intro h
        obtain ⟨mid, hadd, hrest⟩ := ok_of_bind h
        obtain ⟨e, hline, hcount, rfl⟩ := add_eq_ok_iff.mp hadd
        obtain ⟨parts, hparts, hlength, rfl⟩ := ih.mp hrest
        refine ⟨e :: parts, ?_, (length_counts_cons d e parts).mpr ⟨hcount, hlength⟩, join_cons d e parts⟩
        rw [hline, hparts]
        rfl
      · rintro ⟨parts, hparts, hlength, rfl⟩
        obtain ⟨e, hline, hrest⟩ := ok_of_bind hparts
        obtain ⟨rest, hlines, heq⟩ := ok_of_bind hrest
        obtain rfl := Except.ok.inj heq
        obtain ⟨hcount, hlength⟩ := (length_counts_cons d e rest).mp hlength
        rw [add_eq_ok_iff.mpr ⟨e, hline, hcount, rfl⟩]
        exact ih.mpr ⟨rest, hlines, hlength, (join_cons d e rest).symm⟩

/-- The draft of a body. -/
theorem foldlM_lines_eq_ok_iff {name : String} {d : Draft R} {ls : List SourceLine} :
    ls.foldlM (Draft.add name) {} = .ok d ↔
      ∃ parts, ls.mapM (ofLine name) = .ok parts ∧ (counts parts).length ≤ 1 ∧ d = join parts := by
  have hjoin (parts : List (Draft R)) : join ({} :: parts) = join parts := by simp [join]
  simp only [foldlM_eq_ok_iff, hjoin]
  rfl

/-! ### Lines with the same text -/

/-- Neither the number nor the indentation of a line matters. -/
theorem ofLine_of_text {name : String} {l l' : SourceLine} {e : Draft R} (h : ofLine name l = .ok e)
    (text : l'.text = l.text) : ofLine name l' = .ok e := by
  have hsame : ofLine (R := R) name l' = ofLine name (l.renumber fun _ => l'.number) := by
    obtain ⟨number, indent, text'⟩ := l'
    cases text
    rfl
  have hfollows := follows_draft_add (fun _ => l'.number) name ({} : Draft R) l
  unfold ofLine at h
  rw [h] at hfollows
  exact hsame.trans hfollows.of_ok

/-- The draft of a line that has a text, if it can be read. -/
def ofText (name text : String) : Draft R := (ofLine (R := R) name ⟨0, 0, text⟩).toOption.getD {}

theorem ofText_eq {name : String} {l : SourceLine} {e : Draft R} (h : ofLine name l = .ok e) :
    ofText name l.text = e := by
  have hline : ofLine (R := R) name ⟨0, 0, l.text⟩ = .ok e := ofLine_of_text h rfl
  unfold ofText
  rw [hline]
  rfl

theorem mapM_ofLine_eq_ok_iff {name : String} {ls : List SourceLine} {parts : List (Draft R)} :
    ls.mapM (ofLine name) = .ok parts ↔
      (∀ l ∈ ls, ofLine name l = .ok (ofText (R := R) name l.text)) ∧ parts = (ls.map (·.text)).map (ofText name) := by
  rw [List.map_map]
  constructor
  · intro h
    have hread : ∀ l ∈ ls, ofLine name l = .ok (ofText (R := R) name l.text) := by
      intro l hl
      obtain ⟨e, he⟩ := (ok_of_mapM h).2 l hl
      rw [ofText_eq he, he]
    exact ⟨hread, Except.ok.inj (h.symm.trans (mapM_eq_ok hread))⟩
  · rintro ⟨hread, rfl⟩
    exact mapM_eq_ok hread

/-- A line of another kind adds no gates. -/
theorem gates_of_ofLine {name : String} {l : SourceLine} {e : Draft R} (h : ofLine name l = .ok e)
    (hgate : isGateLine l = false) : e.gates = [] := by
  cases adds_of_add h with
  | count kind read | all kind read | measure kind read => rfl
  | gate kind read =>
      rw [hgate] at kind
      cases kind

/-- Only gate lines add gates. -/
theorem flatMap_gates {name : String} {ls : List SourceLine}
    (read : ∀ l ∈ ls, ofLine name l = .ok (ofText (R := R) name l.text)) :
    ((ls.map (·.text)).map (ofText name)).flatMap (·.gates) =
      ((ls.filter isGateLine).map (·.text)).flatMap fun text => (ofText (R := R) name text).gates := by
  induction ls with
  | nil => rfl
  | cons l ls ih =>
      obtain ⟨hl, hls⟩ := List.forall_mem_cons.mp read
      rw [List.map_cons, List.map_cons, List.flatMap_cons, ih hls]
      cases hgate : isGateLine l with
      | true => rw [List.filter_cons_of_pos hgate, List.map_cons, List.flatMap_cons]
      | false => rw [List.filter_cons_of_neg (by simp [hgate]), gates_of_ofLine hl hgate, List.nil_append]

end Draft

/-! ### Other orders -/

variable [Scalar R]

omit [Scalar R] in
/-- In which order the qubits to measure are given does not matter. -/
theorem checkMeasured_perm {name : String} {count : Nat} {measured measured' : List Int} {chosen : List Nat}
    (h : checkMeasured (R := R) name count measured = .ok chosen) (perm : measured'.Perm measured) :
    checkMeasured (R := R) name count measured' = .ok chosen := by
  rcases checkMeasured_parts h with ⟨rfl, rfl⟩ | ⟨nonempty, distinct, inRange, rfl⟩
  · rw [perm.eq_nil]
    rfl
  · have nonempty' : measured' ≠ [] := by
      rintro rfl
      exact nonempty perm.nil_eq.symm
    rw [checkMeasured_eq_ok name nonempty' (perm.nodup_iff.mpr distinct) fun q hq => inRange q (perm.subset hq)]
    simp only [perm.contains_eq]

theorem make_perm {name : String} {count : Int} {gates : List (Gate R)} {measured measured' : List Int} {c : Circuit R}
    (h : make name count gates measured = .ok c) (perm : measured'.Perm measured) :
    make name count gates measured' = .ok c := by
  obtain ⟨hpos, hgates, chosen, hmeasured, rfl⟩ := make_parts h
  unfold make
  rw [if_neg (by omega), forM_eq_ok hgates, checkMeasured_perm hmeasured perm]
  rfl

/-- The same parts in another order make the same circuit if they have the gates in the same order. -/
theorem Draft.circuit_perm {name : String} {line : Nat} {parts parts' : List (Draft R)} {c : Circuit R}
    (h : (join parts).circuit name line = .ok c) (single : (counts parts).length ≤ 1) (perm : parts'.Perm parts)
    (gates : parts'.flatMap (·.gates) = parts.flatMap (·.gates)) : (join parts').circuit name line = .ok c := by
  have hcounts : counts parts' = counts parts := by
    have hperm : (counts parts').Perm (counts parts) := perm.filterMap _
    match hlist : counts parts, single with
    | [], _ => exact (hlist ▸ hperm).eq_nil
    | [n], _ => exact List.perm_singleton.mp (hlist ▸ hperm)
  have hall : (join parts').all = (join parts).all := perm.any_eq
  have hmeasured : (join parts').measured.Perm (join parts).measured := perm.flatMap_right _
  obtain ⟨count, hcount, hmake⟩ := circuit_eq_ok_iff.mp h
  refine circuit_eq_ok_iff.mpr ⟨count, (congrArg List.head? hcounts).trans hcount, ?_⟩
  have hgates : (join parts').gates = (join parts).gates := gates
  rw [hall, hgates]
  refine make_perm hmake ?_
  split
  · exact List.Perm.refl []
  · exact hmeasured

/-- **Only the order of the gate lines matters.**  In a definition that is accepted the line that declares the qubits and the
lines that measure some may be moved anywhere in the body: a definition with the same lines in another order, and with its
gate lines in the same order, is accepted and gives the same circuit.  The lines are the same if their texts are; their
numbers and indentations may be those of the new order. -/
theorem ofStatement_reordered {s : Statement} {c : Circuit R} (accepted : ofStatement s = .ok c) {body : List SourceLine}
    (lines : (body.map (·.text)).Perm (s.body.map (·.text)))
    (gates : (body.filter isGateLine).map (·.text) = (s.body.filter isGateLine).map (·.text)) :
    ofStatement { s with body } = .ok c := by
  obtain ⟨name, d, hname, hbody, hcircuit⟩ := ofStatement_eq_ok_iff.mp accepted
  obtain ⟨parts, hparts, single, rfl⟩ := Draft.foldlM_lines_eq_ok_iff.mp hbody
  obtain ⟨read, rfl⟩ := Draft.mapM_ofLine_eq_ok_iff.mp hparts
  -- every line of the new body has the text of one that has been read
  have read' : ∀ l ∈ body, Draft.ofLine name l = .ok (Draft.ofText (R := R) name l.text) := by
    intro l hl
    obtain ⟨l', hl', htext⟩ := List.mem_map.mp (lines.subset (List.mem_map_of_mem hl))
    rw [← htext]
    exact Draft.ofLine_of_text (read l' hl') htext.symm
  have perm := lines.map (Draft.ofText (R := R) name)
  have single' : (Draft.counts ((body.map (·.text)).map (Draft.ofText (R := R) name))).length ≤ 1 :=
    Nat.le_trans (Nat.le_of_eq (perm.filterMap _).length_eq) single
  have sameGates : ((body.map (·.text)).map (Draft.ofText name)).flatMap (·.gates) =
      ((s.body.map (·.text)).map (Draft.ofText (R := R) name)).flatMap (·.gates) := by
    rw [Draft.flatMap_gates read', Draft.flatMap_gates read, gates]
  exact ofStatement_eq_ok_iff.mpr ⟨name, _, hname,
    Draft.foldlM_lines_eq_ok_iff.mpr ⟨_, Draft.mapM_ofLine_eq_ok_iff.mpr ⟨read', rfl⟩, single', rfl⟩,
    Draft.circuit_perm hcircuit single perm sameGates⟩

/-- The body begins with a measurement and declares its qubits last. -/
theorem ofStatement_reordered_measurements :
    ∃ (c : Circuit Float) (body body' : List SourceLine),
      body = [⟨2, 2, "qubits: 2"⟩, ⟨3, 2, "H(0)"⟩, ⟨4, 2, "CNOT(0, 1)"⟩, ⟨5, 2, "measure(0)"⟩,
        ⟨6, 2, "measure(1)"⟩] ∧
      body' = [⟨2, 4, "measure(1)"⟩, ⟨3, 4, "H(0)"⟩, ⟨4, 4, "measure(0)"⟩, ⟨5, 4, "CNOT(0, 1)"⟩,
        ⟨7, 4, "qubits: 2"⟩] ∧
      ofStatement ⟨1, "quantum circuit c:", body, true⟩ = .ok c ∧
      ofStatement ⟨1, "quantum circuit c:", body', true⟩ = .ok c ∧ c.measured = [0, 1] := by
  obtain ⟨body, hbody⟩ : ∃ body : List SourceLine, body =
    [⟨2, 2, "qubits: 2"⟩, ⟨3, 2, "H(0)"⟩, ⟨4, 2, "CNOT(0, 1)"⟩, ⟨5, 2, "measure(0)"⟩, ⟨6, 2, "measure(1)"⟩] := ⟨_, rfl⟩
  obtain ⟨body', hbody'⟩ : ∃ body' : List SourceLine, body' =
    [⟨2, 4, "measure(1)"⟩, ⟨3, 4, "H(0)"⟩, ⟨4, 4, "measure(0)"⟩, ⟨5, 4, "CNOT(0, 1)"⟩, ⟨7, 4, "qubits: 2"⟩] := ⟨_, rfl⟩
  have lines : (body'.map (·.text)).Perm (body.map (·.text)) := by
    rw [hbody, hbody']
    decide
  have gates : (body'.filter isGateLine).map (·.text) = (body.filter isGateLine).map (·.text) := by
    rw [hbody, hbody']
    decide +kernel
  have shown : (ofStatement (R := Float) ⟨1, "quantum circuit c:", body, true⟩).toOption.map (·.measured) =
      some [0, 1] := by
    rw [hbody]
    decide +kernel
  cases accepted : ofStatement (R := Float) ⟨1, "quantum circuit c:", body, true⟩ with
  | error f => rw [accepted] at shown; cases shown
  | ok c =>
      rw [accepted] at shown
      exact ⟨c, body, body', hbody, hbody', accepted, ofStatement_reordered accepted lines gates, Option.some.inj shown⟩

end LabLang.Circuit
