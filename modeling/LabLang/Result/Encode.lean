import LabLang.Result.Basic

/-! # Results as payloads

The protocol form of results: an object with the field `type` and the fields of its kind. Fields that say
nothing are left out: an unknown line, an empty message, and the counts and shots of a circuit without counts. -/

namespace LabLang

variable {R : Type} [Scalar R]

/-- The fields of a value behind its type and its display. -/
def Value.fields : Value R → List (String × Payload R)
  | .number x => [("value", .real x)]
  | .text s => [("value", .text s)]
  | .uncertain q _ =>
    [("nominal", .real q.nominal), ("uncertainty", .real q.uncertainty)]
      ++ (q.derivation.map fun d => ("derived_from", .text d.operation.name)).toList
  | .circuit name => [("name", .text name)]
  | .raw s => [("value", .text s)]

/-- A value in protocol form. -/
def Value.encode (v : Value R) : Payload R :=
  .object (("type", .text v.kind) :: ("display", .text v.display) :: v.fields)

/-- A field that is left out when it is null. -/
def knownField (name : String) (p : Payload R) : List (String × Payload R) :=
  if p.isNull then [] else [(name, p)]

/-- A field that is left out when it is empty. -/
def messageField (message : String) : List (String × Payload R) :=
  if message.isEmpty then [] else [("message", .text message)]

/-- A report in protocol form. -/
def Report.encode (r : Report R) : Payload R :=
  .object ([("type", .text "error"), ("kind", .text r.kind), ("message", .text r.message)]
    ++ knownField "line" r.line)

/-- What became of a branch, in protocol form. -/
def Outcome.encode : Outcome R → Payload R
  | .value v => v.encode
  | .failed r => r.encode

/-- The fields of a tally. -/
def Tally.fields (t : Tally R) : List (String × Payload R) :=
  [("counts", .object (t.counts.mapValues .int)), ("shots", t.shots)]

/-- The fields of measurements. -/
def Measurements.fields : Measurements R → List (String × Payload R)
  | .tallied t => t.fields
  | .uncounted _ => []

/-- A result in protocol form. -/
def Result.encode : Result R → Payload R
  | .success value => .object [("type", .text "success"), ("value", .text value)]
  | .uncertain value nominal uncertainty =>
    .object [("type", .text "uncertain"), ("value", .text value), ("nominal", .real nominal),
      ("uncertainty", .real uncertainty)]
  | .circuit name qubits measured message =>
    .object ([("type", .text "quantum_circuit"), ("circuit_name", .text name), ("qubits", .int qubits)]
      ++ measured.fields ++ messageField message)
  | .parallel branches message =>
    .object ([("type", .text "parallel"), ("branches", .object (branches.mapValues Outcome.encode))]
      ++ messageField message)
  | .failure report => report.encode

end LabLang
