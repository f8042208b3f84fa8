import LabLang.Failure
import LabLang.Source

/-! # Parallel blocks

A block has a head `parallel`, optionally followed by a colon, an opening brace or a pair of braces, and a body
of lines `branch <label>: <expression>` with distinct labels. -/

namespace LabLang.Parallel

open Text Source

variable {R : Type}

/-- A branch: its label, its expression and its line. -/
structure Branch where
  label : String
  expression : String
  line : Nat
deriving DecidableEq, Repr

/-- A block: its branches in order, and the line of its head. -/
structure Block where
  branches : List Branch
  line : Nat
deriving DecidableEq, Repr

/-- What may follow the word in the head of a block. -/
def isHeadEnd (s : List Char) : Bool :=
  match s with
  | [] => true
  | [':'] => true
  | '\x7b' :: r => r.all isBlank || (match r.reverse with | '\x7d' :: r => r.all isBlank | _ => false)
  | _ => false

/-- The text is the head of a block. -/
def isHead (text : String) : Bool :=
  match dropWord "parallel".toList text.toList with
  | some r => isHeadEnd (trimLeft r)
  | none => false

/-- The label and the expression that a line declares. -/
def declaration? (text : String) : Option (String × String) := do
  let r ← dropWordAndBlanks "branch" text.toList
  let (label, r) ← takeName r
  match trimLeft r with
  | ':' :: r =>
    let expression := trimLeft r
    if expression.isEmpty || expression.contains '\n' then none
    else some (String.ofList label, String.ofList (trim expression))
  | _ => none

/-- The branches that lines declare, after branches with the given labels. -/
def branchesAfter (labels : List String) : List SourceLine → Except (Failure R) (List Branch)
  | [] => .ok []
  | l :: rest =>
    match declaration? l.text with
    | none => .error (.ofMalformed (.branch l.text) l.number)
    | some (label, expression) =>
      if labels.contains label then .error (.ofMalformed (.repeatedLabel label) l.number)
      else (branchesAfter (label :: labels) rest).map (⟨label, expression, l.number⟩ :: ·)

/-- The block that a statement declares. -/
def Block.ofStatement (s : Statement) : Except (Failure R) Block :=
  if !isHead s.text then .error (.ofMalformed (.parallelHeader s.text) s.line)
  else if !s.terminated then .error (.ofMalformed .unclosedParallel s.line)
  else (branchesAfter [] s.body).map fun branches => ⟨branches, s.line⟩

/-- The labels of the branches. -/
def Block.labels (b : Block) : List String := b.branches.map (·.label)

end LabLang.Parallel
