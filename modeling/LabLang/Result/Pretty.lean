import LabLang.Counts
import LabLang.Result.Basic

/-! # Results for reading

The form of results for human readers: measurements as a table, the branches of a parallel block line by line,
uncertain quantities with their relative uncertainty, and any other result as its display. There is none for a table
that cannot be made and for integers that are too long. -/

namespace LabLang

open Number Scalar

variable {R : Type} [Scalar R]

/-- A number as a percentage with two places. -/
def percentText (x : R) : String := fixedText 2 (binary (x * nat 100)) ++ "%"

/-- The relative uncertainty. -/
def relativeText (nominal uncertainty : R) : String :=
  if eq nominal zero then "undefined" else percentText (abs (uncertainty / nominal))

namespace Result

/-- The line above the table of a measurement. -/
def measurementHead (name : String) (qubits : Int) (message : String) : Except WriteFault String :=
  (bounded intText qubits).map fun count =>
    name ++ " (" ++ count ++ " qubits)" ++ if message.isEmpty then "" else " - " ++ message

/-- The lines of a result. -/
def prettyLines : Result R → Except Counts.TableFault (List String)
  | circuit name qubits (.tallied t) message => do
    let head ← (measurementHead name qubits message).mapError .unwritten
    let lines ← Counts.table R t.counts Counts.tableSize
    pure (head :: lines)
  | parallel branches message => do
    let parts ← (branchParts branches).mapError .unwritten
    pure ((if message.isEmpty then "parallel" else message) :: parts.map ("  " ++ ·))
  | uncertain value nominal uncertainty =>
    .ok [value ++ "  (relative " ++ relativeText nominal uncertainty ++ ")"]
  | r => (r.display.mapError .unwritten).map fun line => [line]

/-- The result for reading. -/
def pretty (r : Result R) : Except Counts.TableFault String := r.prettyLines.map ("\n".intercalate ·)

end Result

end LabLang
