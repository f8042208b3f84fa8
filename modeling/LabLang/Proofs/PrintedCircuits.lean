import LabLang.Proofs.Grouping
import LabLang.Proofs.ShortestDecimals
import LabLang.Proofs.ValidCircuit
import LabLang.Proofs.WrittenCalls

/-! # Printed circuits are read back

A circuit is printed as a definition: a head with its name, the number of its qubits, its gates as they show
themselves, and the qubits that it measures.  Each line of the body is taken in as what it was printed for: a gate
with the angles and qubits that it was written with (`IsPrintable.adds`), and no line for another one.  So the body
makes a draft of the parts of the circuit (`foldlM_bodyTexts`), of which the constructor makes the circuit
(`ofStatement_eq_ok`).  The head and the lines behind any indentation are one statement (`group_definition`). -/

namespace LabLang

open Text Number

/-! ### The text -/

namespace Circuit

/-- The line that declares the number of qubits. -/
def countText (c : Circuit Float) : String := "qubits: " ++ intText c.qubits

/-- The line that names the measured qubits. -/
def measureText (c : Circuit Float) : String := writeCall "measure" (c.measured.map fun (q : Nat) => intText q)

/-- The lines of the body. -/
def bodyTexts (c : Circuit Float) : List String := c.countText :: (c.gates.map Gate.text ++ [c.measureText])

/-- The line above the body. -/
def headText (c : Circuit Float) : String := "quantum circuit " ++ c.name ++ ":"

/-- The lines of the definition of a circuit, the `i`-th line of the body behind the text `indent i`. -/
def printed (indent : Nat → String) (c : Circuit Float) : List String :=
  c.headText :: c.bodyTexts.mapIdx fun i text => indent i ++ text

/-! ### Numbers of qubits -/

theorem toList_intText (n : Nat) : (intText n).toList = natDigits n := by
  unfold intText
  rw [if_neg (by omega), String.toList_ofList, Int.natAbs_natCast]

theorem isArgument_natDigits (n : Nat) : IsArgument (natDigits n) :=
  isArgument_of_isWord (natDigits_ne_nil n) fun _ hc => (isDigit_and_isWord_of_mem hc).2

/-- The qubits of a register are few, so that their numbers are short. -/
theorem length_natDigits_of_le {n : Nat} (h : n ≤ maxQubits) : (natDigits n).length ≤ maxIntegerDigits :=
  (length_natDigits_le (k := 2) (by decide) (h.trans_lt (by decide))).trans (by decide)

theorem ne_minus_of_natDigits (n : Nat) (r : List Char) : natDigits n ≠ '-' :: r := by
  intro h
  have hminus : '-' ∈ natDigits n := h ▸ List.mem_cons_self
  exact absurd (isDigit_and_isWord_of_mem hminus).1 (by decide)

theorem isSignedDigits_natDigits (n : Nat) : isSignedDigits (natDigits n) = true := by
  have hdigits : (natDigits n).all isDigit = true :=
    List.all_eq_true.mpr fun _ hc => (isDigit_and_isWord_of_mem hc).1
  unfold isSignedDigits
  split
  · rename_i heq
    exact absurd heq (ne_minus_of_natDigits n _)
  · rw [hdigits, Bool.and_true]
    simp [natDigits_ne_nil]

theorem integer_natDigits {n : Nat} (h : n ≤ maxQubits) : integer (R := Float) (natDigits n) = .ok n := by
  unfold integer
  rw [readInteger_natDigits (length_natDigits_of_le h)]

/-- The number of a qubit is read back. -/
theorem qubit_intText {n : Nat} (h : n ≤ maxQubits) (line : Option Nat) :
    qubit (R := Float) (intText n) line = .ok n := by
  unfold qubit
  rw [toList_intText, (isArgument_natDigits n).trim]
  dsimp only
  rw [if_pos (isSignedDigits_natDigits n), integer_natDigits h]

/-! ### Angles -/

/-- The text of a finite number can stand as an argument. -/
theorem isArgument_shortText {x : Float} (finite : x.isFinite = true) :
    IsArgument (shortText (Scalar.binary x)).toList := by
  obtain ⟨negative, m, q, hx⟩ := Machine.ofFloat_of_isFinite finite
  have hmarks : (shortText (Scalar.binary x)).toList.all isNumberMark = true := by
    show (shortText (Binary.ofFloat x)).toList.all isNumberMark = true
    rw [hx]
    exact all_shortText
  refine ⟨fun hnil => ?_, fun c hc => clean_of_isNumberMark (List.all_eq_true.mp hmarks c hc)⟩
  obtain ⟨_, _, _, hread, -⟩ := exists_readNumeral_shortText finite
  rw [hnil] at hread
  cases hread

/-- The text of an angle is read back. -/
theorem angle_shortText {x : Float} (finite : Scalar.isFinite x = true) (line : Option Nat) :
    angle (shortText (Scalar.binary x)) line = .ok x := by
  obtain ⟨negative, digits, exponent, hread, hvalue⟩ := exists_readNumeral_shortText finite
  have hnumeral : finiteNumeral (.decimal negative digits exponent) = some x := congrArg some hvalue
  unfold angle
  rw [(isArgument_shortText finite).trim]
  dsimp only
  rw [hread]
  dsimp only
  rw [hnumeral, Option.filter_some_pos finite]

/-! ### Calls -/

theorem call?_writeCall {name : String} {args : List String} (hname : isName name.toList = true) (hne : args ≠ [])
    (hargs : ∀ a ∈ args, IsArgument a.toList) : call? (writeCall name args) = some (name, args) := by
  have hlists : ∀ a ∈ args.map String.toList, IsArgument a := List.forall_mem_map.mpr hargs
  unfold call?
  rw [toList_writeCall, splitCall_callText hname hlists, Option.map_some]
  dsimp only
  rw [arguments_argumentText (by simpa using hne) hlists, String.ofList_toList, List.map_map]
  simp

/-! ### Gates -/

/-- What is asked of a gate so that it is read back: it is named as it is registered, and fits the register. -/
structure IsPrintable (g : Gate Float) (count : Nat) (kind : GateKind) : Prop where
  name : g.name = kind.name
  fits : g.Fits count kind

theorem IsDefined.printable {c : Circuit Float} (hc : c.IsDefined) {g : Gate Float} (hg : g ∈ c.gates) :
    ∃ kind, IsPrintable g c.qubits kind := by
  obtain ⟨kind, hname, hfits⟩ := hc.gate hg
  exact ⟨kind, hname, hfits⟩

/-- The arguments of a gate as they are written: angles, then qubits. -/
def argumentTexts (g : Gate Float) : List String :=
  g.params.map (fun p => shortText (Scalar.binary p)) ++ g.qubits.map intText

theorem text_eq (g : Gate Float) : g.text = writeCall g.name (argumentTexts g) := rfl

namespace IsPrintable

variable {g : Gate Float} {kind : GateKind} {n : Nat} (h : IsPrintable g n kind)
include h

theorem isName : isName g.name.toList = true := by
  rw [h.name]
  cases kind <;> decide +kernel

/-- The qubits of the gate are the numbers of qubits of its register. -/
theorem exists_of_mem_qubits {q : Int} (hq : q ∈ g.qubits) : ∃ k : Nat, q = k ∧ k < n := by
  obtain ⟨hnonneg, hlt⟩ := h.fits.inRange q hq
  exact ⟨q.toNat, by omega, by omega⟩

theorem isArgument : ∀ a ∈ argumentTexts g, IsArgument a.toList := by
  unfold argumentTexts
  simp only [List.forall_mem_append, List.forall_mem_map]
  refine ⟨fun p hp => isArgument_shortText (h.fits.finite p hp), fun q hq => ?_⟩
  obtain ⟨k, rfl, -⟩ := h.exists_of_mem_qubits hq
  rw [toList_intText]
  exact isArgument_natDigits k

/-- The gate is the content of a line. -/
theorem isContent : Source.IsContent g.text.toList := by
  rw [text_eq, toList_writeCall]
  exact isContent_callText h.isName (List.forall_mem_map.mpr h.isArgument)

/-- The gate is read back from its text. -/
theorem gate_text (hn : n ≤ maxQubits) (number indent : Nat) : gate ⟨number, indent, g.text⟩ = .ok g := by
  have hparams : (g.params.map fun p => shortText (Scalar.binary p)).length = kind.angleCount := by
    rw [List.length_map, h.fits.params]
  have hlength : (argumentTexts g).length = kind.angleCount + kind.qubitCount := by
    rw [argumentTexts, List.length_append, hparams, List.length_map, h.fits.qubits]
  have hne : argumentTexts g ≠ [] := by
    rw [Ne, ← List.length_eq_zero_iff, hlength]
    cases kind <;> decide
  have hangles : (g.params.map fun p => shortText (Scalar.binary p)).mapM (angle · number) = .ok g.params :=
    mapM_map_eq_ok fun p hp => angle_shortText (h.fits.finite p hp) number
  have hqubits : (g.qubits.map intText).mapM (qubit (R := Float) · number) = .ok g.qubits := by
    refine mapM_map_eq_ok fun q hq => ?_
    obtain ⟨k, rfl, hk⟩ := h.exists_of_mem_qubits hq
    exact qubit_intText (by omega) number
  have hkind : GateKind.ofName? g.name = some kind := h.fits.known
  unfold gate
  rw [text_eq, call?_writeCall h.isName hne h.isArgument]
  dsimp only
  rw [hkind]
  dsimp only
  rw [if_neg (not_not.mpr hlength), argumentTexts, List.take_left' hparams, List.drop_left' hparams, hangles, hqubits,
    ← h.name]
  rfl

/-- The line of a gate is not taken for another one: no gate is named like the words that start the others. -/
theorem isGateLine_text (number indent : Nat) : isGateLine ⟨number, indent, g.text⟩ = true := by
  obtain ⟨rest, hrest⟩ : ∃ rest, g.text.toList = kind.name.toList ++ '(' :: rest :=
    ⟨_, by rw [text_eq, toList_writeCall, h.name]; rfl⟩
  have hcount : declaredCount? g.text = none := by
    unfold declaredCount?
    rw [hrest]
    cases kind <;> rfl
  have hmeasure : startsMeasure ⟨number, indent, g.text⟩ = false := by
    unfold startsMeasure
    rw [hrest]
    cases kind <;> rfl
  exact isGateLine_iff.mpr ⟨hcount, hmeasure⟩

/-- The line of a gate adds the gate to any draft. -/
theorem adds (hn : n ≤ maxQubits) (name : String) (d : Draft Float) (number indent : Nat) :
    d.Adds name ⟨number, indent, g.text⟩ { d with gates := d.gates ++ [g] } :=
  .gate (h.isGateLine_text number indent) (h.gate_text hn number indent)

end IsPrintable

/-! ### The other lines -/

section lines

variable {c : Circuit Float} (number indent : Nat)

theorem toList_countText (c : Circuit Float) : c.countText.toList = "qubits: ".toList ++ natDigits c.qubits := by
  rw [countText, String.toList_append, toList_intText]

theorem declaredCount?_countText (c : Circuit Float) : declaredCount? c.countText = some (natDigits c.qubits) := by
  have hdigits := isArgument_natDigits c.qubits
  have hword : dropWord "qubits".toList c.countText.toList = some (": ".toList ++ natDigits c.qubits) := by
    rw [toList_countText]
    rfl
  have hmark : dropMark ':' (": ".toList ++ natDigits c.qubits) = some (natDigits c.qubits) := by
    show some (trimLeft (natDigits c.qubits)) = _
    rw [hdigits.trimLeft]
  have hblank : (natDigits c.qubits).any isBlank = false :=
    List.any_eq_false.mpr fun x hx => by simp [(hdigits.clean x hx).1]
  unfold declaredCount?
  rw [hword]
  simp only [Option.bind_eq_bind, Option.bind_some, hmark, hdigits.trimRight, hblank]
  simp [natDigits_ne_nil]

theorem declaration_natDigits {n : Nat} (positive : 0 < n) (hn : n ≤ maxQubits) (name : String) (line : Nat) :
    declaration (R := Float) name false (natDigits n) line = .ok n := by
  have hpositive : n ≠ 0 := Nat.ne_of_gt positive
  have hbounded : ¬ (maxQubits : Int) < n := by omega
  unfold declaration
  rw [integer_natDigits hn, isSignedDigits_natDigits]
  simp [hpositive, hbounded, bind, Except.bind, pure, Except.pure]

/-- Digits have no case. -/
theorem foldLetter_of_isDigit {x : Char} (h : x.isDigit = true) : foldLetter x = x :=
  of_isNumberMark (p := fun x => x.isDigit = true → foldLetter x = x) (by decide +kernel) (by simp [isNumberMark, h]) h

theorem isArgument_of_mem_measured (c : Circuit Float) :
    ∀ a ∈ c.measured.map (fun (q : Nat) => intText q), IsArgument a.toList := by
  rw [List.forall_mem_map]
  intro q _
  rw [toList_intText]
  exact isArgument_natDigits q

theorem toList_measureText (c : Circuit Float) :
    c.measureText.toList = "measure".toList ++ '(' :: (argumentText (c.measured.map natDigits) ++ [')']) := by
  unfold measureText
  rw [toList_writeCall, List.map_map]
  simp only [Function.comp_def, toList_intText]
  rfl

/-- A line that names qubits does not measure all of them. -/
theorem measuresAll_measureText (nonempty : c.measured ≠ []) : measuresAll c.measureText = false := by
  obtain ⟨digit, rest, hdigit, hblank, hargs⟩ : ∃ digit rest, digit.isDigit = true ∧ isBlank digit = false ∧
      argumentText (c.measured.map natDigits) = digit :: rest := by
    obtain ⟨q, later, hmeasured⟩ := List.exists_cons_of_ne_nil nonempty
    obtain ⟨digit, ds, hds⟩ := List.exists_cons_of_ne_nil (natDigits_ne_nil q)
    obtain ⟨r, hr⟩ := exists_argumentText_cons (natDigits q) (later.map natDigits)
    have hmem : digit ∈ natDigits q := hds ▸ List.mem_cons_self
    refine ⟨digit, ds ++ r, isDigit_of_mem_natDigits hmem, ((isArgument_natDigits q).clean digit hmem).1, ?_⟩
    rw [hmeasured, List.map_cons, hr, hds, List.cons_append]
  obtain ⟨folded, hfolded⟩ : ∃ folded, c.measureText.toList.map foldLetter =
      "measure".toList ++ '(' :: digit :: folded := by
    refine ⟨(rest ++ [')']).map foldLetter, ?_⟩
    rw [toList_measureText, hargs, List.map_append, List.map_cons, List.cons_append, List.map_cons,
      foldLetter_of_isDigit hdigit]
    rfl
  have hall : dropWord "all".toList (digit :: folded) = none := by
    refine if_neg ?_
    rintro rfl
    cases hdigit
  have hmark : dropMark '(' ('(' :: digit :: folded) = some (digit :: folded) :=
    congrArg some (List.dropWhile_cons_of_neg (by simp [hblank]))
  have hword : dropWord "measure".toList ("measure".toList ++ '(' :: digit :: folded) =
      some ('(' :: digit :: folded) := rfl
  have hspaced : Source.dropWordAndBlanks "" ('(' :: digit :: folded) = none := rfl
  unfold measuresAll
  rw [hfolded, hword]
  dsimp only
  rw [hmark, Option.bind_some, hall, hspaced]
  rfl

/-- The line that names the measured qubits is read back. -/
theorem measure_measureText (nonempty : c.measured ≠ []) (bounded : ∀ q ∈ c.measured, q ≤ maxQubits) :
    measure (R := Float) ⟨number, indent, c.measureText⟩ = .ok (some (c.measured.map Int.ofNat)) := by
  have hne : c.measured.map (fun (q : Nat) => intText q) ≠ [] := by simpa using nonempty
  have hcall : call? c.measureText = some ("measure", c.measured.map fun (q : Nat) => intText q) :=
    call?_writeCall (by decide +kernel) hne (isArgument_of_mem_measured c)
  have hqubits : (c.measured.map fun (q : Nat) => intText q).mapM (qubit (R := Float) · number) =
      .ok (c.measured.map Int.ofNat) := by
    have hmap : (c.measured.map fun (q : Nat) => intText q) = (c.measured.map Int.ofNat).map intText := by
      rw [List.map_map]
      rfl
    rw [hmap]
    exact mapM_map_eq_ok (List.forall_mem_map.mpr fun q hq => qubit_intText (bounded q hq) number)
  have hlower : "measure".map Char.toLower = "measure" := by decide +kernel
  unfold measure
  rw [measuresAll_measureText nonempty, hcall, if_neg Bool.false_ne_true]
  dsimp only
  rw [if_neg (not_not.mpr hlower), List.isEmpty_eq_false_iff.mpr hne, hqubits]
  rfl

theorem isMeasureLine_measureText : isMeasureLine ⟨number, indent, c.measureText⟩ = true := by
  have hcount : declaredCount? c.measureText = none := by
    unfold declaredCount?
    rw [toList_measureText]
    rfl
  have hmeasure : startsMeasure ⟨number, indent, c.measureText⟩ = true := by
    unfold startsMeasure
    rw [toList_measureText]
    rfl
  exact isMeasureLine_iff.mpr ⟨hcount, hmeasure⟩

end lines

/-! ### The body -/

section body

variable {c : Circuit Float} {ls : List SourceLine}

/-- Gate lines add their gates to any draft. -/
theorem foldlM_gates {name : String} {gates : List (Gate Float)} {n : Nat} (hn : n ≤ maxQubits)
    (texts : ls.map SourceLine.text = gates.map Gate.text) (h : ∀ g ∈ gates, ∃ kind, IsPrintable g n kind)
    (d : Draft Float) :
    ls.foldlM (Draft.add name) d = .ok { d with gates := d.gates ++ gates } := by
  induction gates generalizing ls d with
  | nil =>
      rw [List.map_nil, List.map_eq_nil_iff] at texts
      rw [texts, List.append_nil]
      rfl
  | cons g gates ih =>
      obtain ⟨⟨number, indent, text⟩, rest, rfl, rfl, hrest⟩ := List.map_eq_cons_iff.mp texts
      rw [List.forall_mem_cons] at h
      obtain ⟨⟨kind, hg⟩, hgates⟩ := h
      rw [List.foldlM_cons, (hg.adds hn name d number indent).add]
      show rest.foldlM (Draft.add name) { d with gates := d.gates ++ [g] } = _
      rw [ih hrest hgates, List.append_assoc]
      rfl

/-- The draft that the body of a printed circuit makes. -/
theorem foldlM_bodyTexts (hc : c.IsDefined) (texts : ls.map SourceLine.text = c.bodyTexts) :
    ls.foldlM (Draft.add c.name) {} = .ok ⟨some c.qubits, c.gates, c.measured.map Int.ofNat, false⟩ := by
  obtain ⟨⟨number, indent, text⟩, rest, rfl, rfl, hrest⟩ := List.map_eq_cons_iff.mp texts
  obtain ⟨gateLines, measureLines, rfl, hgates, hmeasure⟩ := List.map_eq_append_iff.mp hrest
  obtain ⟨⟨number', indent', text'⟩, rfl, rfl⟩ := List.map_eq_singleton_iff.mp hmeasure
  have hcount : Draft.Adds c.name ({} : Draft Float) ⟨number, indent, c.countText⟩
      { qubits := some (c.qubits : Int) } :=
    .count (declaredCount?_countText c) (declaration_natDigits hc.valid.positive hc.bounded c.name number)
  have hread := measure_measureText number' indent' hc.valid.nonempty fun q hq =>
    (hc.valid.inRange q hq).le.trans hc.bounded
  have hmeasured : Draft.Adds c.name (⟨some (c.qubits : Int), c.gates, [], false⟩ : Draft Float)
      ⟨number', indent', c.measureText⟩ ⟨some (c.qubits : Int), c.gates, c.measured.map Int.ofNat, false⟩ :=
    .measure (isMeasureLine_measureText number' indent') hread
  rw [List.foldlM_cons, hcount.add]
  show (gateLines ++ [_]).foldlM (Draft.add c.name) { qubits := some (c.qubits : Int) } = _
  rw [List.foldlM_append, foldlM_gates hc.bounded hgates fun g hg => hc.printable hg]
  show [_].foldlM (Draft.add c.name) ⟨some (c.qubits : Int), c.gates, [], false⟩ = _
  rw [List.foldlM_cons, hmeasured.add]
  rfl

theorem toList_headText (c : Circuit Float) :
    c.headText.toList = "quantum circuit ".toList ++ (c.name.toList ++ [':']) := by
  show ("quantum circuit " ++ c.name ++ ":").toList = _
  rw [String.toList_append, String.toList_append, List.append_assoc]
  rfl

theorem headName?_headText (h : isName c.name.toList = true) : headName? c.headText = some c.name := by
  have hne : c.name.toList ≠ [] := by
    obtain ⟨first, rest, hsplit, -, -⟩ := isName_iff.mp h
    exact hsplit ▸ List.cons_ne_nil first rest
  have hquantum : Source.dropWordAndBlanks "quantum" c.headText.toList =
      some ("circuit ".toList ++ (c.name.toList ++ [':'])) := by
    rw [toList_headText]
    rfl
  have hcircuit : Source.dropWordAndBlanks "circuit" ("circuit ".toList ++ (c.name.toList ++ [':'])) =
      some (c.name.toList ++ [':']) := by
    show some (trimLeft (c.name.toList ++ [':'])) = _
    rw [trimLeft_of_head (List.append_ne_nil_of_left_ne_nil hne _)]
    rw [List.head_append_of_ne_nil hne]
    exact isBlank_eq_false_of_isWord (isWord_of_mem_name h _ (List.head_mem hne))
  have htake : takeName (c.name.toList ++ [':']) = some (c.name.toList, [':']) := takeName_append h fun x hx => by
    cases hx
    decide
  unfold headName?
  rw [hquantum]
  simp only [Option.bind_eq_bind, Option.bind_some, hcircuit, htake]
  show some (String.ofList c.name.toList) = _
  rw [String.ofList_toList]

/-- A statement with the head and the body of a printed circuit defines that circuit. -/
theorem ofStatement_eq_ok {s : Statement} (hc : c.IsDefined) (head : s.text = c.headText)
    (texts : s.body.map SourceLine.text = c.bodyTexts) : ofStatement s = .ok c := by
  refine ofStatement_eq_ok_iff.mpr ⟨c.name, _, ?_, foldlM_bodyTexts hc texts, ?_⟩
  · rw [head, headName?_headText hc.name]
  · exact Draft.circuit_eq_ok_iff.mpr ⟨c.qubits, rfl, make_of_isValid hc.valid⟩

end body

end Circuit

/-! ### The program -/

namespace Source

/-- The text indents what stands behind it: spaces and tabs, at least one. -/
structure IsIndentation (s : String) : Prop where
  nonempty : s.toList ≠ []
  blank : ∀ c ∈ s.toList, c = ' ' ∨ c = '\t'

/-- Spaces and tabs are spelled as spaces. -/
theorem exists_expandTabs {s : List Char} (hs : ∀ c ∈ s, c = ' ' ∨ c = '\t') {text : List Char} (htext : '\t' ∉ text)
    (column : Nat) : ∃ w, s.length ≤ w ∧ expandTabs column (s ++ text) = List.replicate w ' ' ++ text := by
  induction s generalizing column with
  | nil => exact ⟨0, Nat.le_refl 0, expandTabs_of_notMem htext column⟩
  | cons c s ih =>
      rw [List.forall_mem_cons] at hs
      obtain ⟨rfl | rfl, hs⟩ := hs
      · obtain ⟨w, hw, h⟩ := ih hs (column + 1)
        refine ⟨w + 1, by simpa using hw, ?_⟩
        rw [List.cons_append, expandTabs, h]
        · rfl
        · decide
      · have hwidth : 0 < tabWidth - column % tabWidth := Nat.sub_pos_of_lt (Nat.mod_lt _ (by decide))
        obtain ⟨w, hw, h⟩ := ih hs (column + (tabWidth - column % tabWidth))
        refine ⟨tabWidth - column % tabWidth + w, by rw [List.length_cons]; omega, ?_⟩
        rw [List.cons_append, expandTabs, h, ← List.append_assoc, List.replicate_append_replicate]

/-- Content is read back behind any indentation. -/
theorem exists_content?_indented {s : String} (hs : IsIndentation s) {text : List Char} (h : IsContent text) :
    ∃ w, 0 < w ∧ content? (s.toList ++ text) = some (w, text) := by
  obtain ⟨w, hw, htabs⟩ := exists_expandTabs hs.blank (fun ht => (h.clean _ ht).2.1 rfl) 0
  have hmark : '#' ∉ s.toList ++ text := by
    rw [List.mem_append]
    rintro (hc | hc)
    · exact absurd (hs.blank _ hc) (by decide)
    · exact (h.clean _ hc).1 rfl
  refine ⟨w, (List.length_pos_iff.mpr hs.nonempty).trans_le hw, content?_of_expandTabs h ?_⟩
  rw [stripComment_of_notMem hmark, htabs]

/-- Indented lines are numbered with their content and with some indentation. -/
theorem number_indented {indent : Nat → String} (hindent : ∀ i, IsIndentation (indent i)) {texts : List String}
    (htexts : ∀ text ∈ texts, IsContent text.toList) (first : Nat) :
    (number first ((texts.mapIdx fun i text => indent i ++ text).map String.toList)).map SourceLine.text = texts ∧
      ∀ l ∈ number first ((texts.mapIdx fun i text => indent i ++ text).map String.toList), 0 < l.indent := by
  induction texts generalizing indent first with
  | nil => exact ⟨rfl, by simp [number]⟩
  | cons text texts ih =>
      rw [List.forall_mem_cons] at htexts
      obtain ⟨w, hw, hcontent⟩ := exists_content?_indented (hindent 0) htexts.1
      obtain ⟨hrest, hpositive⟩ := ih (fun i => hindent (i + 1)) htexts.2 (first + 1)
      rw [List.mapIdx_cons, List.map_cons, String.toList_append, number, hcontent]
      dsimp only
      rw [List.map_cons, hrest, String.ofList_toList, List.forall_mem_cons]
      exact ⟨rfl, hw, hpositive⟩

/-- A head of a circuit definition without indentation and the indented lines below it are one statement. -/
theorem group_definition {head : SourceLine} {body : List SourceLine} (circuit : isCircuitHead head.text.toList = true)
    (indent : head.indent = 0) (indented : ∀ l ∈ body, 0 < l.indent) :
    group (head :: body) = [⟨head.number, head.text, body, true⟩] := by
  obtain ⟨p, later, rfl, howns, hbody, hgroup⟩ := exists_group_indented body (.inl (classify_eq_circuit.mpr circuit))
  obtain ⟨hown, hclosing, hterminated⟩ := howns.indented (.inl (classify_eq_circuit.mpr circuit))
  have hindent : p.indent = 0 := indent
  have hall : body.takeWhile (fun l => p.indent < l.indent) = body :=
    List.takeWhile_eq_self_iff.mpr fun l hl => by simpa [hindent] using indented l hl
  rw [hall] at hown
  have hlater : later = [] := by simpa [Portion.taken, hown, hclosing] using hbody
  rw [hgroup, hlater, ← hown, ← hterminated]
  rfl

end Source

namespace Circuit

open Source

variable {c : Circuit Float}

/-! ### The lines of the text -/

theorem isContent_headText (h : isName c.name.toList = true) : IsContent c.headText.toList := by
  have hliteral : ∀ x ∈ "quantum circuit ".toList ++ [':'], x ≠ '#' ∧ x ≠ '\t' ∧ isLineBreak x = false :=
    clean_of_all (by decide +kernel)
  rw [toList_headText]
  refine ⟨List.append_ne_nil_of_left_ne_nil (by decide) _, rfl, ?_, fun x hx => ?_⟩
  · simp only [← List.append_assoc, List.getLast_concat]
    decide
  · simp only [List.mem_append] at hx hliteral
    obtain hx | hx | hx := hx
    · exact hliteral x (.inl hx)
    · exact clean_of_isWord (isWord_of_mem_name h x hx)
    · exact hliteral x (.inr hx)

theorem isContent_countText (c : Circuit Float) : IsContent c.countText.toList := by
  have hdigits := isArgument_natDigits c.qubits
  have hliteral : ∀ x ∈ "qubits: ".toList, x ≠ '#' ∧ x ≠ '\t' ∧ isLineBreak x = false :=
    clean_of_all (by decide +kernel)
  rw [toList_countText]
  refine ⟨List.append_ne_nil_of_left_ne_nil (by decide) _, rfl, ?_, fun x hx => ?_⟩
  · simp only [List.getLast_append_of_ne_nil _ hdigits.nonempty]
    exact (hdigits.clean _ (List.getLast_mem _)).1
  · obtain hx | hx := List.mem_append.mp hx
    · exact hliteral x hx
    · exact clean_of_isWord (isDigit_and_isWord_of_mem hx).2

theorem isContent_of_mem_bodyTexts (hc : c.IsDefined) : ∀ text ∈ c.bodyTexts, IsContent text.toList := by
  simp only [bodyTexts, List.forall_mem_cons, List.forall_mem_append, List.forall_mem_map]
  refine ⟨isContent_countText c, fun g hg => ?_, ?_, by simp⟩
  · obtain ⟨kind, h⟩ := hc.printable hg
    exact h.isContent
  · rw [measureText, toList_writeCall]
    have hname : isName "measure".toList = true := by decide +kernel
    exact isContent_callText hname (List.forall_mem_map.mpr (isArgument_of_mem_measured c))

theorem isCircuitHead_headText (c : Circuit Float) : isCircuitHead c.headText.toList = true := by
  rw [toList_headText]
  rfl

/-- The lines of the text have no line ends in them, and none is empty. -/
theorem clean_of_mem_printed (hc : c.IsDefined) {indent : Nat → String} (hindent : ∀ i, IsIndentation (indent i)) :
    ∀ l ∈ c.printed indent, l.toList ≠ [] ∧ ∀ x ∈ l.toList, isLineBreak x = false := by
  rw [printed, List.forall_mem_cons]
  refine ⟨?_, fun l hl => ?_⟩
  · have hhead := isContent_headText hc.name
    exact ⟨hhead.nonempty, fun x hx => (hhead.clean x hx).2.2⟩
  · obtain ⟨i, hi, rfl⟩ := List.mem_mapIdx.mp hl
    have htext := isContent_of_mem_bodyTexts hc _ (List.getElem_mem hi)
    rw [String.toList_append]
    refine ⟨List.append_ne_nil_of_right_ne_nil _ htext.nonempty, fun x hx => ?_⟩
    rcases List.mem_append.mp hx with hx | hx
    · obtain rfl | rfl := (hindent i).blank x hx <;> decide
    · exact (htext.clean x hx).2.2

/-- **Printed circuits are read back.**  Take a valid circuit that is named by an identifier, is not too large and names
its gates as they are registered.  A program whose lines are those of its printed definition, behind any indentation, is
one statement, which defines that circuit again.  The lines with line feeds between them are such a program. -/
theorem ofStatement_of_printed (hc : c.IsDefined) {indent : Nat → String} (hindent : ∀ i, IsIndentation (indent i)) :
    lines ("\n".intercalate (c.printed indent)).toList = (c.printed indent).map String.toList ∧
    ∀ source : String, lines source.toList = (c.printed indent).map String.toList →
      ∃ s, statements source = [s] ∧ ofStatement s = .ok c := by
  refine ⟨?_, fun source hlines => ?_⟩
  · rw [String.toList_intercalate]
    exact lines_intercalate (List.cons_ne_nil _ _)
      (List.forall_mem_map.mpr (clean_of_mem_printed hc hindent))
  · have hhead : content? c.headText.toList = some (0, c.headText.toList) :=
      content?_spaces (isContent_headText hc.name) 0
    obtain ⟨htexts, hindented⟩ := number_indented hindent (isContent_of_mem_bodyTexts hc) 2
    refine ⟨⟨1, c.headText, _, true⟩, ?_, ofStatement_eq_ok hc rfl htexts⟩
    unfold statements Source.normalize
    rw [hlines, printed, List.map_cons, number, hhead]
    dsimp only
    rw [String.ofList_toList]
    exact group_definition (isCircuitHead_headText c) rfl hindented

/-- A circuit with angles of all spellings: plain, below `10 ^ -4`, and negative beyond `10 ^ 16`. -/
def rotations : Circuit Float :=
  ⟨"rotations", 3, [⟨"RX", [0], [Scalar.decimal 5 (-1)]⟩, ⟨"RY", [1], [Scalar.decimal 1 (-5)]⟩,
    ⟨"RZ", [2], [-(Scalar.decimal 15 299)]⟩, ⟨"CNOT", [2, 0], []⟩], [0, 2]⟩

theorem isDefined_rotations : rotations.IsDefined := by
  have hgates : ∀ g ∈ rotations.gates, ∃ kind, IsPrintable g 3 kind := by
    simp only [rotations, List.forall_mem_cons, List.not_mem_nil, false_imp_iff, implies_true, and_true]
    refine ⟨⟨.rx, rfl, ?_⟩, ⟨.ry, rfl, ?_⟩, ⟨.rz, rfl, ?_⟩, ⟨.cnot, rfl, ?_⟩⟩
    all_goals exact ⟨by decide +kernel, rfl, rfl, by simp <;> decide +kernel, by decide, by decide⟩
  have hvalid : rotations.IsValid :=
    ⟨by decide, fun g hg => (hgates g hg).imp fun _ h => h.fits, by decide, by decide, by decide⟩
  exact ⟨by decide +kernel, hvalid, by decide, fun g hg => (hgates g hg).imp fun _ h => h.name⟩

/-- Printed with tabs. -/
theorem ofStatement_of_printed_rotations :
    rotations.printed (fun _ => "\t") = ["quantum circuit rotations:", "\tqubits: 3", "\tRX(0.5, 0)",
      "\tRY(1e-05, 1)", "\tRZ(-1.5e+300, 2)", "\tCNOT(2, 0)", "\tmeasure(0, 2)"] ∧
    lines ("\n".intercalate (rotations.printed fun _ => "\t")).toList =
      (rotations.printed fun _ => "\t").map String.toList ∧
    ∀ source : String, lines source.toList = (rotations.printed fun _ => "\t").map String.toList →
      ∃ s, statements source = [s] ∧ ofStatement s = .ok rotations :=
  ⟨by decide +kernel, ofStatement_of_printed isDefined_rotations fun _ => ⟨by decide, by simp⟩⟩

end Circuit

end LabLang
