import LabLang.Payload.Basic
import LabLang.Value

/-! # Results

What an execution answers: exactly one `Result`. A failure is a result like any other; in a parallel block
it takes the place of the value of its branch and leaves the other branches alone.

Where a result comes from a service, the line of a report and the number of shots are kept as they were sent;
results of the interpreter have integers there, or null for a line that is not known. Such data may be too long to be
written, and then the result has no display. -/

namespace LabLang

open Number (WriteFault bounded intText)

/-- A failure as data. -/
structure Report (R : Type) where
  kind : String
  message : String
  line : Payload R := .null

/-- What became of a branch. -/
inductive Outcome (R : Type) [Scalar R]
  | value (value : Value R)
  | failed (report : Report R)

/-- The counts of a number of measurements, by outcome. -/
structure Tally (R : Type) where
  counts : Table Int
  shots : Payload R

/-- What is known of the measurements of a circuit. -/
inductive Measurements (R : Type)
  | tallied (tally : Tally R)
  /-- There are no counts, and null or whatever was sent for the number of shots. -/
  | uncounted (shots : Payload R)

/-- The result of an execution. A circuit without counts has been defined but not measured. -/
inductive Result (R : Type) [Scalar R]
  | success (value : String)
  | uncertain (value : String) (nominal uncertainty : R)
  | circuit (name : String) (qubits : Int) (measured : Measurements R) (message : String)
  | parallel (branches : Table (Outcome R)) (message : String)
  | failure (report : Report R)

/-- The message of a program that had nothing else to report. -/
def completionMessage : String := "Execution completed"

namespace Report

variable {R : Type} [Scalar R]

/-- The line of a report. -/
def lineOf : Option Nat → Payload R
  | some n => .int n
  | none => .null

/-- The report of a failure. -/
def ofFailure (f : Failure R) : Report R := ⟨f.cause.kind.name, f.cause.message, lineOf f.line⟩

/-- Where the report belongs. -/
def place (r : Report R) : Except WriteFault String :=
  if r.line.isNull then .ok "" else r.line.display.map fun line => " (line " ++ line ++ ")"

/-- The report as it is shown. -/
def display (r : Report R) : Except WriteFault String :=
  r.place.map fun place => r.kind ++ ": " ++ r.message ++ place

end Report

namespace Outcome

variable {R : Type} [Scalar R]

/-- The branch has failed. -/
def isFailed : Outcome R → Bool
  | failed _ => true
  | value _ => false

/-- The value of a branch that has not failed. -/
def value? : Outcome R → Option (Value R)
  | value v => some v
  | failed _ => none

/-- What became of the branch, as it is shown. -/
def display : Outcome R → Except WriteFault String
  | value v => .ok v.display
  | failed r => r.display

end Outcome

namespace Result

variable {R : Type} [Scalar R]

/-- The result is a failure. -/
def isFailure : Result R → Bool
  | failure _ => true
  | _ => false

/-- The labels of the branches that have failed. -/
def failedLabels : Result R → List String
  | parallel branches _ => (branches.filter (·.2.isFailed)).map (·.1)
  | _ => []

/-- The counts by outcome, in one line. -/
def countsLine (counts : Table Int) : Except WriteFault String := do
  let parts ← counts.mapM fun (outcome, n) => (bounded intText n).map (outcome ++ ": " ++ ·)
  pure (", ".intercalate parts)

/-- The outcomes by label, each behind its label. -/
def branchParts (branches : Table (Outcome R)) : Except WriteFault (List String) :=
  branches.mapM fun (label, o) => o.display.map (label ++ ": " ++ ·)

/-- The result in one line. -/
def display : Result R → Except WriteFault String
  | success value => .ok value
  | uncertain value _ _ => .ok value
  | circuit name qubits (.uncounted _) _ =>
    (bounded intText qubits).map fun count => "circuit " ++ name ++ " (" ++ count ++ " qubits)"
  | circuit name _ (.tallied t) _ => do
    let counts ← countsLine t.counts
    let shots ← t.shots.display
    pure (name ++ " [" ++ shots ++ " shots] \x7b" ++ counts ++ "\x7d")
  | parallel branches _ => do
    let parts ← branchParts branches
    pure (if parts.isEmpty then "parallel (no branches)" else "; ".intercalate parts)
  | failure report => report.display

end Result

end LabLang
