import LabLang.Text.Blank
import LabLang.Text.Line
import LabLang.Text.Word

/-! # Program text

A program is cut into lines; comments, blank lines and blanks around a line have no meaning, but the width
of the indentation is kept. Lines are then grouped into statements: a circuit definition owns the lines
below it that are indented deeper, a parallel block those up to its closing brace, or the deeper ones if
it opens no brace, and any other line stands for itself. -/

namespace LabLang

open Text

/-- A line of the program: its number in the text, the width of its indentation and its content. -/
structure SourceLine where
  number : Nat
  indent : Nat
  text : String
deriving DecidableEq, Repr

/-- A statement: its line, or the head and the body of a block. `terminated` is false for a block whose
closing brace is missing. -/
structure Statement where
  line : Nat
  text : String
  body : List SourceLine := []
  terminated : Bool := true
deriving DecidableEq, Repr

namespace Source

/-- The line up to the first comment mark. -/
def stripComment (s : List Char) : List Char := s.takeWhile (· != '#')

/-- The content of a line, with its indentation; nothing if the line is blank. -/
def content? (raw : List Char) : Option (Nat × List Char) :=
  let line := trimRight (expandTabs 0 (stripComment raw))
  match trimLeft line with
  | [] => none
  | text => some (line.length - text.length, text)

/-- The lines that are not blank, numbered from `first`. -/
def number (first : Nat) : List (List Char) → List SourceLine
  | [] => []
  | raw :: rest =>
    match content? raw with
    | some (indent, text) => ⟨first, indent, String.ofList text⟩ :: number (first + 1) rest
    | none => number (first + 1) rest

/-- The lines of a program that have a meaning. -/
def normalize (source : String) : List SourceLine := number 1 (lines source.toList)

/-! ### Keywords -/

/-- What follows a word and at least one blank, and the blanks after it. -/
def dropWordAndBlanks (word : String) (s : List Char) : Option (List Char) :=
  match dropWord word.toList s with
  | some (c :: r) => if isBlank c then some (trimLeft r) else none
  | _ => none

/-- The text starts with a word that ends there. -/
def startsWithWord (word : String) (s : List Char) : Bool :=
  match dropWord word.toList s with
  | some (c :: _) => !isWord c
  | some [] => true
  | none => false

/-- The text starts like the head of a circuit definition. -/
def isCircuitHead (s : List Char) : Bool :=
  match dropWordAndBlanks "quantum" s with
  | some r => startsWithWord "circuit" r
  | none => false

/-- The text starts like the head of a parallel block. -/
def isParallelHead (s : List Char) : Bool := startsWithWord "parallel" s

/-- The kinds of statements. -/
inductive StatementKind
  | circuit | parallel | run | assignment | literal
deriving DecidableEq, Repr

/-- The name of a kind of statement. -/
def StatementKind.name : StatementKind → String
  | circuit => "circuit"
  | parallel => "parallel"
  | run => "run"
  | assignment => "assignment"
  | literal => "literal"

/-- The kind of a statement, by the first rule that applies: keywords come before the equals sign. -/
def classify (text : String) : StatementKind :=
  let s := text.toList
  if isCircuitHead s then .circuit
  else if isParallelHead s then .parallel
  else if startsWithWord "run" s then .run
  else if s.contains '=' then .assignment
  else .literal

/-! ### Grouping -/

/-- A block that may still receive lines. -/
structure OpenBlock where
  head : SourceLine
  braced : Bool
  body : List SourceLine := []

/-- The statement of a block. -/
def OpenBlock.close (b : OpenBlock) (terminated : Bool) : Statement :=
  ⟨b.head.number, b.head.text, b.body, terminated⟩

/-- What a line starts: a statement that is complete with it, or an open block. -/
def start (l : SourceLine) : List Statement × Option OpenBlock :=
  let s := l.text.toList
  if isParallelHead s then ([], some { head := l, braced := s.getLast? == some '{' })
  else if isCircuitHead s then ([], some { head := l, braced := false })
  else ([{ line := l.number, text := l.text }], none)

/-- Groups lines into statements, given the block that the lines before have left open. -/
def groupAfter : Option OpenBlock → List SourceLine → List Statement
  | none, [] => []
  | some b, [] => [b.close (!b.braced)]
  | none, l :: rest => (start l).1 ++ groupAfter (start l).2 rest
  | some b, l :: rest =>
    if b.braced then
      if l.text = "\x7d" then b.close true :: groupAfter none rest
      else groupAfter (some { b with body := b.body ++ [l] }) rest
    else if b.head.indent < l.indent then groupAfter (some { b with body := b.body ++ [l] }) rest
    else b.close true :: ((start l).1 ++ groupAfter (start l).2 rest)

/-- Groups the lines of a program into statements. -/
def group (ls : List SourceLine) : List Statement := groupAfter none ls

/-- The statements of a program. -/
def statements (source : String) : List Statement := group (normalize source)

end Source

end LabLang
