import LabLang.Source
import Mathlib.Tactic.SplitIfs

/-! # How statements divide the lines

Grouping reads the lines once and puts each of them in one place.  A statement forgets how far its head is indented
and which line closed it; a `Portion` is a statement with these two, so that its lines are lines of the program again.
`exists_group_cons` says what the first statement takes of the lines behind its head, and that it leaves the rest to
grouping.  Hence the lines of the portions, one portion after the other, are the lines of the program, and every
portion has taken exactly what its kind owns (`statements_divide_lines`). -/

namespace LabLang.Source

open Text

/-! ### Kinds of heads -/

/-- The text ends with an opening brace. -/
def opensBrace (text : String) : Bool := text.toList.getLast? == some '{'

/-- The line closes a block that a brace has opened. -/
def closesBrace (l : SourceLine) : Bool := l.text = "\x7d"

/-- The two keywords of blocks differ in their first letter. -/
theorem isCircuitHead_eq_false {s : List Char} (h : isParallelHead s = true) : isCircuitHead s = false := by
  cases s with
  | nil => rfl
  | cons c r =>
      by_cases hc : 'p' = c
      · subst hc
        rfl
      · simp [isParallelHead, startsWithWord, dropWord, hc] at h

theorem isParallelHead_eq_false {s : List Char} (h : isCircuitHead s = true) : isParallelHead s = false := by
  rw [Bool.eq_false_iff]
  intro hp
  rw [isCircuitHead_eq_false hp] at h
  cases h

theorem classify_eq_circuit {text : String} : classify text = .circuit ↔ isCircuitHead text.toList = true := by
  unfold classify
  by_cases hc : isCircuitHead text.toList = true
  · simp [hc]
  · simp only [if_neg hc]
    split_ifs <;> simp [hc]

theorem classify_eq_parallel {text : String} : classify text = .parallel ↔ isParallelHead text.toList = true := by
  unfold classify
  by_cases hp : isParallelHead text.toList = true
  · simp [hp, isCircuitHead_eq_false hp]
  · simp only [if_neg hp]
    split_ifs <;> simp [hp]

/-! ### Blocks -/

/-- An open block with a brace takes the lines before the first closing brace, and that line with them. -/
theorem exists_groupAfter_braced (ls : List SourceLine) (b : OpenBlock) (h : b.braced = true) :
    ∃ later, ls = ls.takeWhile (fun l => !closesBrace l) ++ (ls.find? closesBrace).toList ++ later ∧
      groupAfter (some b) ls =
        ⟨b.head.number, b.head.text, b.body ++ ls.takeWhile (fun l => !closesBrace l),
          (ls.find? closesBrace).isSome⟩ :: groupAfter none later := by
  induction ls generalizing b with
  | nil => exact ⟨[], rfl, by simp [groupAfter, OpenBlock.close, h]⟩
  | cons l rest ih =>
      by_cases hl : l.text = "\x7d"
      · refine ⟨rest, by simp [closesBrace, hl], ?_⟩
        simp [groupAfter, OpenBlock.close, closesBrace, h, hl]
      · obtain ⟨later, hrest, hgroup⟩ := ih { b with body := b.body ++ [l] } h
        refine ⟨later, ?_, ?_⟩
        · simpa [closesBrace, hl] using hrest
        · simpa [groupAfter, closesBrace, h, hl] using hgroup

/-- Any other open block takes the lines that are indented deeper than its head, up to the first that is not. -/
theorem exists_groupAfter_indented (ls : List SourceLine) (b : OpenBlock) (h : b.braced = false) :
    ∃ later, ls = ls.takeWhile (fun l => b.head.indent < l.indent) ++ later ∧
      groupAfter (some b) ls =
        ⟨b.head.number, b.head.text, b.body ++ ls.takeWhile (fun l => b.head.indent < l.indent), true⟩
          :: groupAfter none later := by
  induction ls generalizing b with
  | nil => exact ⟨[], rfl, by simp [groupAfter, OpenBlock.close, h]⟩
  | cons l rest ih =>
      by_cases hl : b.head.indent < l.indent
      · obtain ⟨later, hrest, hgroup⟩ := ih { b with body := b.body ++ [l] } h
        refine ⟨later, ?_, ?_⟩
        · simpa [hl] using hrest
        · simpa [groupAfter, h, hl] using hgroup
      · refine ⟨l :: rest, by simp [hl], ?_⟩
        simp [groupAfter, OpenBlock.close, h, hl]

/-! ### Portions -/

/-- A statement with what it forgets of its lines: the indentation of its head, and the line that closed it. -/
structure Portion where
  statement : Statement
  indent : Nat
  closing : Option SourceLine := none

namespace Portion

/-- The line of the head. -/
def head (p : Portion) : SourceLine := ⟨p.statement.line, p.indent, p.statement.text⟩

/-- What the portion has taken of the lines behind its head. -/
def taken (p : Portion) : List SourceLine := p.statement.body ++ p.closing.toList

/-- The lines of the portion. -/
def lines (p : Portion) : List SourceLine := p.head :: p.taken

/-- The head begins a block that ends where its indentation does. -/
def IsIndented (p : Portion) : Prop :=
  classify p.statement.text = .circuit ∨ classify p.statement.text = .parallel ∧ opensBrace p.statement.text = false

/-- The head begins a block that ends with a brace. -/
def IsBraced (p : Portion) : Prop :=
  classify p.statement.text = .parallel ∧ opensBrace p.statement.text = true

/-- What a statement owns of the lines that follow its head. -/
structure Owns (p : Portion) (following : List SourceLine) : Prop where
  single : classify p.statement.text ≠ .circuit → classify p.statement.text ≠ .parallel →
    p.statement.body = [] ∧ p.closing = none ∧ p.statement.terminated = true
  indented : p.IsIndented → p.statement.body = following.takeWhile (fun l => p.indent < l.indent) ∧
    p.closing = none ∧ p.statement.terminated = true
  braced : p.IsBraced → p.statement.body = following.takeWhile (fun l => !closesBrace l) ∧
    p.closing = following.find? closesBrace ∧
    (p.statement.terminated = false ↔ ∀ l ∈ following, l.text ≠ "\x7d")

end Portion

/-- A head whose block ends with a brace. -/
theorem exists_group_braced {l : SourceLine} (rest : List SourceLine) (kind : classify l.text = .parallel)
    (brace : opensBrace l.text = true) :
    ∃ (p : Portion) (later : List SourceLine), p.head = l ∧ p.Owns rest ∧ rest = p.taken ++ later ∧
      group (l :: rest) = p.statement :: group later := by
  have hstart : start l = ([], some { head := l, braced := true }) := by
    have hlast : (l.text.toList.getLast? == some '{') = true := brace
    simp [start, classify_eq_parallel.mp kind, hlast]
  obtain ⟨later, hrest, hgroup⟩ := exists_groupAfter_braced rest { head := l, braced := true } rfl
  refine ⟨⟨⟨l.number, l.text, rest.takeWhile fun m => !closesBrace m, (rest.find? closesBrace).isSome⟩,
    l.indent, rest.find? closesBrace⟩, later, rfl, ⟨?_, ?_, ?_⟩, hrest, ?_⟩
  · intro _ h
    exact absurd kind h
  · rintro (h | ⟨_, h⟩)
    · simp [kind] at h
    · simp [brace] at h
  · intro _
    exact ⟨rfl, rfl, by simp [closesBrace]⟩
  · simpa [group, groupAfter, hstart] using hgroup

/-- A head whose block ends where its indentation does. -/
theorem exists_group_indented {l : SourceLine} (rest : List SourceLine)
    (kind : classify l.text = .circuit ∨ classify l.text = .parallel ∧ opensBrace l.text = false) :
    ∃ (p : Portion) (later : List SourceLine), p.head = l ∧ p.Owns rest ∧ rest = p.taken ++ later ∧
      group (l :: rest) = p.statement :: group later := by
  have hstart : start l = ([], some { head := l, braced := false }) := by
    rcases kind with hc | ⟨hp, hlast⟩
    · have hcircuit := classify_eq_circuit.mp hc
      simp [start, hcircuit, isParallelHead_eq_false hcircuit]
    · replace hlast : (l.text.toList.getLast? == some '{') = false := hlast
      simp [start, classify_eq_parallel.mp hp, hlast]
  obtain ⟨later, hrest, hgroup⟩ := exists_groupAfter_indented rest { head := l, braced := false } rfl
  refine ⟨⟨⟨l.number, l.text, rest.takeWhile fun m => l.indent < m.indent, true⟩, l.indent, none⟩, later, rfl,
    ⟨?_, ?_, ?_⟩, ?_, ?_⟩
  · intro hc hp
    simp [hc, hp] at kind
  · intro _
    exact ⟨rfl, rfl, rfl⟩
  · rintro ⟨hp, h⟩
    simp only [hp, reduceCtorEq, true_and, false_or] at kind
    simp [kind] at h
  · simpa [Portion.taken] using hrest
  · simpa [group, groupAfter, hstart] using hgroup

/-- A line that begins no block. -/
theorem exists_group_single {l : SourceLine} (rest : List SourceLine) (circuit : classify l.text ≠ .circuit)
    (parallel : classify l.text ≠ .parallel) :
    ∃ (p : Portion) (later : List SourceLine), p.head = l ∧ p.Owns rest ∧ rest = p.taken ++ later ∧
      group (l :: rest) = p.statement :: group later := by
  have hstart : start l = ([{ line := l.number, text := l.text }], none) := by
    rw [ne_eq, classify_eq_circuit] at circuit
    rw [ne_eq, classify_eq_parallel] at parallel
    simp [start, circuit, parallel]
  refine ⟨⟨{ line := l.number, text := l.text }, l.indent, none⟩, rest, rfl, ⟨?_, ?_, ?_⟩, rfl, ?_⟩
  · intro _ _
    exact ⟨rfl, rfl, rfl⟩
  · rintro (h | ⟨h, _⟩)
    · exact absurd h circuit
    · exact absurd h parallel
  · rintro ⟨h, _⟩
    exact absurd h parallel
  · simp [group, groupAfter, hstart]

/-- The first statement takes what it owns of the lines behind its head, and grouping goes on behind that. -/
theorem exists_group_cons (l : SourceLine) (rest : List SourceLine) :
    ∃ (p : Portion) (later : List SourceLine), p.head = l ∧ p.Owns rest ∧ rest = p.taken ++ later ∧
      group (l :: rest) = p.statement :: group later := by
  by_cases circuit : classify l.text = .circuit
  · exact exists_group_indented rest (.inl circuit)
  · by_cases parallel : classify l.text = .parallel
    · cases brace : opensBrace l.text with
      | true => exact exists_group_braced rest parallel brace
      | false => exact exists_group_indented rest (.inr ⟨parallel, brace⟩)
    · exact exists_group_single rest circuit parallel

/-! ### Programs -/

/-- The statements, with what they forget, divide the lines: every line is in one portion, and every portion has
taken what it owns of the lines behind its head. -/
theorem exists_portions (ls : List SourceLine) :
    ∃ ps : List Portion, ps.map Portion.statement = group ls ∧ ps.flatMap Portion.lines = ls ∧
      ∀ before p after, ps = before ++ p :: after → p.Owns (p.taken ++ after.flatMap Portion.lines) := by
  -- the lines behind a portion are fewer, however many it has taken
  induction hn : ls.length using Nat.strongRecOn generalizing ls with
  | ind n ih =>
      cases ls with
      | nil => exact ⟨[], rfl, rfl, by simp⟩
      | cons l rest =>
          obtain ⟨p, later, hhead, howns, hrest, hgroup⟩ := exists_group_cons l rest
          have hshorter : later.length < n := by
            have := congrArg List.length hrest
            simp only [List.length_append] at this
            simp only [List.length_cons] at hn
            omega
          obtain ⟨ps, hstatements, hlines, hps⟩ := ih later.length hshorter later rfl
          refine ⟨p :: ps, by simp [hstatements, hgroup], ?_, ?_⟩
          · rw [List.flatMap_cons, hlines, Portion.lines, hhead, hrest, List.cons_append]
          · intro before q after heq
            cases before with
            | nil =>
                obtain ⟨rfl, rfl⟩ : p = q ∧ ps = after := by simpa using heq
                rwa [hlines, ← hrest]
            | cons p' before =>
                obtain ⟨_, htail⟩ : p = p' ∧ ps = before ++ q :: after := by simpa using heq
                exact hps before q after htail

/-- **Statements divide the lines.**  The heads, the bodies and the closing braces of the statements, in order, are
the lines of the program, each of them once.  A line that begins no block is a statement of its own; a block that ends
with its indentation owns the longest run of lines below its head that are indented deeper; a block with a brace owns
the lines before the first closing brace, and is unterminated exactly if there is none. -/
theorem statements_divide_lines (source : String) :
    ∃ ps : List Portion, ps.map Portion.statement = statements source ∧
      ps.flatMap Portion.lines = normalize source ∧
      ∀ before p after, ps = before ++ p :: after → p.Owns (p.taken ++ after.flatMap Portion.lines) :=
  exists_portions (normalize source)

end LabLang.Source
