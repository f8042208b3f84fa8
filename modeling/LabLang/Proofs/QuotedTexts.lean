import LabLang.Proofs.Assignments
import LabLang.Proofs.RunStored

/-! # Quoted texts in assignments

A program of one line that assigns a quoted text binds the name to what stands between the quotation marks, whatever
blanks it has, once the tabs of the line have been spelled out (`assign_quoted_text`).  The tab stops are counted from
the start of the line, not from that of the text.  So a text is kept character for character if and only if it holds no
tab (`expandTabs_eq_self`). -/

namespace LabLang

open Text

namespace Text

/-! ### Tabs -/

theorem expandTabs_append (column : Nat) (s t : List Char) :
    expandTabs column (s ++ t) = expandTabs column s ++ expandTabs (column + (expandTabs column s).length) t := by
  fun_induction expandTabs column s with
  | case1 column => rfl
  | case2 column r width ih =>
      rw [List.cons_append, expandTabs, List.append_assoc, List.length_append, List.length_replicate, ← Nat.add_assoc]
      exact congrArg _ ih
  | case3 column c r hc ih =>
      rw [List.cons_append, expandTabs, ih, List.length_cons, List.cons_append, Nat.add_right_comm, Nat.add_assoc]
      exact hc

/-- Nothing but tabs is changed. -/
theorem expandTabs_eq_self {column : Nat} {s : List Char} : expandTabs column s = s ↔ '\t' ∉ s := by
  refine ⟨fun h hmem => ?_, fun h => expandTabs_of_notMem h column⟩
  rw [← h] at hmem
  rcases mem_expandTabs hmem with heq | ⟨-, hne⟩
  · exact absurd heq (by decide)
  · exact hne rfl

end Text

/-! ### The line -/

namespace Assignment

/-- The line that assigns a quoted text to a name. -/
def quotedLine (name text : List Char) : List Char := name ++ ' ' :: '=' :: ' ' :: Literal.quoted text

/-- The text as it is stored: the line holds the name and four more characters in front of it. -/
def storedText (name text : String) : String := String.ofList (expandTabs (name.length + 4) text.toList)

theorem toList_quotedLine (name text : String) :
    (name ++ " = \"" ++ text ++ "\"").toList = quotedLine name.toList text.toList := by
  unfold quotedLine Literal.quoted
  simp [String.toList_append]

variable {name text : List Char}

/-- Tabs are spelled out in the text alone, which starts behind the name and four more characters. -/
theorem expandTabs_quotedLine (hname : isName name = true) :
    expandTabs 0 (quotedLine name text) = quotedLine name (expandTabs (name.length + 4) text) := by
  have hclean : '\t' ∉ name ++ [' ', '=', ' ', '"'] := by
    intro hmem
    rcases List.mem_append.mp hmem with hmem | hmem
    · exact (clean_of_isWord (isWord_of_mem_name hname _ hmem)).2.1 rfl
    · exact absurd hmem (by decide)
  have hsplit : ∀ t, quotedLine name t = (name ++ [' ', '=', ' ', '"']) ++ (t ++ ['"']) := by
    intro t
    unfold quotedLine Literal.quoted
    simp
  have hquote : ∀ column, expandTabs column ['"'] = ['"'] := expandTabs_of_notMem (by decide)
  rw [hsplit, hsplit, expandTabs_append, expandTabs_of_notMem hclean, expandTabs_append, hquote, List.length_append,
    Nat.zero_add]
  rfl

theorem mem_quotedLine {c : Char} (h : c ∈ quotedLine name text) : c ∈ name ∨ c ∈ text ∨ c ∈ [' ', '=', '"'] := by
  unfold quotedLine Literal.quoted at h
  simp only [List.mem_append, List.mem_cons] at h ⊢
  tauto

theorem isContent_quotedLine (hname : isName name = true)
    (htext : ∀ c ∈ text, c ≠ '#' ∧ c ≠ '\t' ∧ isLineBreak c = false) : Source.IsContent (quotedLine name text) := by
  have hword := isWord_of_mem_name hname
  have hne : name ≠ [] := by
    rintro rfl
    cases hname
  refine ⟨List.append_ne_nil_of_left_ne_nil hne _, ?_, ?_, fun c hc => ?_⟩
  · unfold quotedLine
    rw [List.head_append_of_ne_nil hne]
    exact isBlank_eq_false_of_isWord (hword _ (List.head_mem hne))
  · have hlast : (quotedLine name text).getLast? = some '"' := by
      unfold quotedLine
      rw [List.getLast?_append_of_ne_nil _ (List.cons_ne_nil _ _)]
      simp [List.getLast?_cons, Literal.getLast?_quoted]
    rw [List.getLast_of_getLast?_eq_some hlast]
    decide
  · rcases mem_quotedLine hc with hmem | hmem | hmem
    · exact clean_of_isWord (hword c hmem)
    · exact htext c hmem
    · exact Source.clean_of_all (by decide) c hmem

/-- What is left of the line once its comment is gone, its tabs are spelled out and its ends are trimmed. -/
theorem content?_quotedLine (hname : isName name = true) (htext : ∀ c ∈ text, c ≠ '#' ∧ isLineBreak c = false) :
    Source.content? (quotedLine name text) = some (0, quotedLine name (expandTabs (name.length + 4) text)) := by
  have hspelled : ∀ c ∈ expandTabs (name.length + 4) text, c ≠ '#' ∧ c ≠ '\t' ∧ isLineBreak c = false := by
    intro c hc
    rcases mem_expandTabs hc with rfl | ⟨hc, htab⟩
    · decide
    · exact ⟨(htext c hc).1, htab, (htext c hc).2⟩
  have hmark : '#' ∉ quotedLine name text := by
    intro hmem
    rcases mem_quotedLine hmem with hmem | hmem | hmem
    · exact (clean_of_isWord (isWord_of_mem_name hname _ hmem)).1 rfl
    · exact (htext _ hmem).1 rfl
    · exact absurd hmem (by decide)
  refine Source.content?_of_expandTabs (isContent_quotedLine hname hspelled) ?_
  rw [Source.stripComment_of_notMem hmark, expandTabs_quotedLine hname]
  rfl

/-! ### The kind of the line -/

/-- A keyword at the start of the line is the whole name. -/
theorem startsWithWord_quotedLine {word : String} (hword : ∀ c ∈ word.toList, isWord c = true)
    (hname : isName name = true) (h : Source.startsWithWord word (quotedLine name text) = true) :
    name = word.toList := by
  unfold Source.startsWithWord at h
  split at h
  case h_1 c r hdrop =>
    have hc : isWord c = false := by simpa using h
    exact (append_cons_inj (isWord_of_mem_name hname) hword rfl hc (eq_append_of_dropWord hdrop)).1
  case h_2 hdrop =>
    have hmem : ' ' ∈ quotedLine name text := by simp [quotedLine]
    rw [eq_append_of_dropWord hdrop, List.append_nil] at hmem
    exact absurd (hword _ hmem) (by decide)
  case h_3 => cases h

/-- What follows the name is no second keyword. -/
theorem isCircuitHead_quotedLine (hname : isName name = true) :
    Source.isCircuitHead (quotedLine name text) = false := by
  unfold Source.isCircuitHead Source.dropWordAndBlanks
  cases hdrop : dropWord "quantum".toList (quotedLine name text) with
  | none => rfl
  | some r =>
      cases r with
      | nil => rfl
      | cons c r =>
          by_cases hblank : isBlank c = true
          · have hc : isWord c = false := by
              rw [Bool.eq_false_iff]
              intro hc
              rw [isBlank_eq_false_of_isWord hc] at hblank
              cases hblank
            obtain ⟨-, rfl, rfl⟩ := append_cons_inj (isWord_of_mem_name hname)
              (forall_mem_of_all (by decide)) rfl hc
              (eq_append_of_dropWord hdrop)
            rfl
          · simp [hblank]

theorem isParallelHead_quotedLine (hname : isName name = true) (hparallel : name ≠ "parallel".toList) :
    Source.isParallelHead (quotedLine name text) = false :=
  Bool.eq_false_iff.mpr fun h => hparallel (startsWithWord_quotedLine (forall_mem_of_all (by decide)) hname h)

theorem classify_quotedLine (hname : isName name = true) (hrun : name ≠ "run".toList)
    (hparallel : name ≠ "parallel".toList) :
    Source.classify (String.ofList (quotedLine name text)) = .assignment := by
  have hnoRun : Source.startsWithWord "run" (quotedLine name text) = false :=
    Bool.eq_false_iff.mpr fun h => hrun (startsWithWord_quotedLine (forall_mem_of_all (by decide)) hname h)
  have hequals : '=' ∈ quotedLine name text := by simp [quotedLine]
  unfold Source.classify
  rw [String.toList_ofList]
  simp [isCircuitHead_quotedLine hname, isParallelHead_quotedLine hname hparallel, hnoRun, hequals]

/-! ### Reading the line -/

variable {R : Type} [Scalar R]

theorem read_quotedLine (hname : isName name = true) (htext : '"' ∉ text ∧ '=' ∉ text) (line : Option Nat) :
    read (R := R) (String.ofList (quotedLine name text)) line =
      .ok ⟨String.ofList name, .text (String.ofList text), false⟩ := by
  have hwrite : String.ofList (quotedLine name text) =
      write false (String.ofList name) (String.ofList (Literal.quoted text)) := by
    rw [← String.toList_inj, toList_write]
    simp [quotedLine, target]
  have hequals : '=' ∉ (String.ofList (Literal.quoted text)).toList := by
    simp [Literal.quoted, htext.2]
  have htrim : trim (String.ofList (Literal.quoted text)).toList = Literal.quoted text := by
    rw [String.toList_ofList, Literal.trim_quoted]
  have hname' : isName (String.ofList name).toList = true := by rwa [String.toList_ofList]
  have hne : trim (String.ofList (Literal.quoted text)).toList ≠ [] := by
    rw [htrim]
    exact Literal.quoted_ne_nil text
  have hvalue : valueOf (R := R) false (Literal.quoted text) line = .ok (.text (String.ofList text)) :=
    congrArg Except.ok (plainValue_quoted htext.1)
  rw [hwrite, read_write hname' hequals hne, htrim, hvalue]
  rfl

end Assignment

/-! ### A program of one line -/

namespace Interpreter

open LabLang.Interpreter.Action

variable {R : Type} [Scalar R]

/-- A text without tabs of its own that is assigned to a name. -/
theorem carryOut_quotedLine {root : Random.Seed} {shots : Int} {store : Store R} {name text : List Char}
    (hname : isName name = true) (hrun : name ≠ "run".toList) (hparallel : name ≠ "parallel".toList)
    (htext : '"' ∉ text ∧ '=' ∉ text) :
    (carryOut root shots { line := 1, text := String.ofList (Assignment.quotedLine name text) }).run { store } =
      .ok (.success (String.ofList name ++ " = \"" ++ String.ofList text ++ "\""))
        { store := store.bind (String.ofList name) (.text (String.ofList text)) } := by
  unfold carryOut
  dsimp only
  rw [Assignment.classify_quotedLine hname hrun hparallel]
  dsimp only
  unfold assignment
  rw [Assignment.read_quotedLine hname htext]
  have hdisplay : String.ofList name ++ " = \"" ++ String.ofList text ++ "\"" =
      String.ofList name ++ " = " ++ ("\"" ++ String.ofList text ++ "\"") := by
    rw [← String.toList_inj]
    simp [String.toList_append]
  rw [hdisplay]
  rfl

/-- **A quoted text is stored with its tabs spelled out, and otherwise character for character.**  Take any name but the
two keywords that begin a statement with one word, and any text without quotation marks, comment marks, equals signs and
line ends.  The program of one line that assigns the text to the name succeeds, with every seed that is accepted, on
every store: the name is bound to the text in which each tab has become spaces up to the next tab stop of the line, and
the result echoes the assignment of this text.  It is the text itself if and only if that holds no tab. -/
theorem assign_quoted_text (settings : Settings) (seed : ∀ n, settings.seed = some n → 0 ≤ n) (fresh : Nat)
    (store : Store R) {name text : String} (hname : isName name.toList = true) (hrun : name ≠ "run")
    (hparallel : name ≠ "parallel")
    (htext : ∀ c ∈ text.toList, c ≠ '"' ∧ c ≠ '#' ∧ c ≠ '=' ∧ isLineBreak c = false) :
    execute settings fresh store (name ++ " = \"" ++ text ++ "\"") =
      .ok (.success (name ++ " = \"" ++ Assignment.storedText name text ++ "\""),
        store.bind name (.text (Assignment.storedText name text))) ∧
    (store.bind name (.text (Assignment.storedText name text))).lookup name =
      some (.text (Assignment.storedText name text)) ∧
    (Assignment.storedText name text = text ↔ '\t' ∉ text.toList) := by
  obtain ⟨spelled, hspelled⟩ : ∃ spelled, expandTabs (name.toList.length + 4) text.toList = spelled := ⟨_, rfl⟩
  have hstored : Assignment.storedText name text = String.ofList spelled := by
    rw [← hspelled, String.length_toList]
    rfl
  have hkept : ∀ c ∈ spelled, c ≠ '"' ∧ c ≠ '=' := by
    intro c hc
    rcases mem_expandTabs (hspelled ▸ hc) with rfl | ⟨hc, -⟩
    · decide
    · exact ⟨(htext c hc).1, (htext c hc).2.2.1⟩
  refine ⟨?_, Table.get?_put_self _ _ _, ?_⟩
  · obtain ⟨root, hroot⟩ := exists_root seed fresh
    have hrun' : name.toList ≠ "run".toList := fun h => hrun (String.toList_inj.mp h)
    have hparallel' : name.toList ≠ "parallel".toList := fun h => hparallel (String.toList_inj.mp h)
    have hcontent := Assignment.content?_quotedLine hname fun c hc => ⟨(htext c hc).2.1, (htext c hc).2.2.2⟩
    rw [hspelled] at hcontent
    have hraw : Assignment.quotedLine name.toList text.toList ≠ [] := by simp [Assignment.quotedLine]
    have hline : ∀ c ∈ Assignment.quotedLine name.toList text.toList, isLineBreak c = false := by
      intro c hc
      rcases Assignment.mem_quotedLine hc with hc | hc | hc
      · exact (clean_of_isWord (isWord_of_mem_name hname c hc)).2.2
      · exact (htext c hc).2.2.2
      · exact (Source.clean_of_all (by decide) c hc).2.2
    have hstatements := Source.statements_of_content? hraw hline hcontent
      (Assignment.isCircuitHead_quotedLine hname) (Assignment.isParallelHead_quotedLine hname hparallel')
    have hkind : Source.classify (String.ofList (Assignment.quotedLine name.toList spelled)) ≠ .literal := by
      rw [Assignment.classify_quotedLine hname hrun' hparallel']
      decide
    have hprogram : runProgram root settings.defaultShots store _ = _ := runProgram_of_statement hstatements hkind
      (carryOut_quotedLine hname hrun' hparallel' ⟨fun h => (hkept _ h).1 rfl, fun h => (hkept _ h).2 rfl⟩)
    rw [← Assignment.toList_quotedLine, String.ofList_toList, String.ofList_toList] at hprogram
    unfold execute
    rw [hroot, hstored]
    exact congrArg Except.ok hprogram
  · rw [hstored, ← hspelled, ← String.toList_inj, String.toList_ofList]
    exact expandTabs_eq_self

/-- A tab between two letters: it leads to the next tab stop of the line. -/
theorem assign_quoted_text_tab :
    execute (R := ℝ) ⟨some 7, 1000, none⟩ 0 .empty "x = \"a\tb\"" =
      .ok (.success "x = \"a  b\"", Store.empty.bind "x" (.text "a  b")) ∧
    (Store.empty.bind "x" (.text "a  b") : Store ℝ).lookup "x" = some (.text "a  b") ∧ "a  b" ≠ "a\tb" := by
  have hname : isName "x".toList = true := by decide
  have htext : ∀ c ∈ "a\tb".toList, c ≠ '"' ∧ c ≠ '#' ∧ c ≠ '=' ∧ isLineBreak c = false :=
    forall_mem_of_all (by decide)
  obtain ⟨hexecute, hlookup, -⟩ := assign_quoted_text (R := ℝ) ⟨some 7, 1000, none⟩ (by simp) 0 .empty hname
    (by decide) (by decide) htext
  exact ⟨hexecute, hlookup, by decide⟩

end Interpreter

end LabLang
