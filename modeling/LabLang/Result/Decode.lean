import LabLang.Counts
import LabLang.Payload.Number
import LabLang.Result.Basic

/-! # Results from payloads

`Result.decode` reads the protocol form of results, and the wider form that services send: fields may be
wrapped in an object named `data`, branches may be bare numbers or texts, and texts may be any data, which is
then shown as text. A payload that does not fit is refused with the reason. Data may be nested to any depth: that an
interpreter may run out of stack on the way down is no part of this. -/

namespace LabLang

/-- The fields of an object. -/
abbrev Fields := Table (Payload Float)

/-- A field that must be there. -/
def Fields.need (fields : Fields) (name : String) : Except Misfit (Payload Float) :=
  match fields.get? name with
  | some p => .ok p
  | none => .error (.missing name)

/-- The text of the first of the named fields that is there, or a default. -/
def Fields.textOr (fields : Fields) (names : List String) (default : String) : Except Misfit String :=
  match names.findSome? fields.get? with
  | some p => p.toText
  | none => .ok default

/-- The real number of a field, or its default. -/
def Fields.realOr (fields : Fields) (name : String) (default : Float) : Except Misfit Float :=
  match fields.get? name with
  | some p => p.toReal
  | none => .ok default

/-- The real number of a field that must be there. -/
def Fields.real (fields : Fields) (name : String) : Except Misfit Float := do
  (← fields.need name).toReal

/-! ### Values and branches -/

/-- The quantity of two numbers that were sent. -/
def Fields.quantity (fields : Fields) : Except Misfit (Value Float) := do
  let nominal ← fields.real "nominal"
  let uncertainty ← fields.real "uncertainty"
  match Quantity.make nominal uncertainty with
  | .ok q => pure (.uncertain q none)
  | .error cause => throw (.quantity cause)

/-- A value. A type that is not known makes it a raw text: its display, or else its value. -/
def Value.ofFields (fields : Fields) : Except Misfit (Value Float) := do
  match fields.get? "type" with
  | some (.text "number") => pure (.number (← fields.real "value"))
  | some (.text "text") => pure (.text (← (← fields.need "value").toText))
  | some (.text "uncertain") => fields.quantity
  | some (.text "circuit") => pure (.circuit (← (← fields.need "name").toText))
  | _ => pure (.raw (← fields.textOr ["display", "value"] ""))

/-- Reads the protocol form of a value. -/
def Value.decode : Payload Float → Except Misfit (Value Float)
  | .object fields => Value.ofFields fields
  | p => .error (.noObject p.typeName "get")

/-- A report; the line is kept as it was sent. -/
def Report.ofFields (fields : Fields) : Except Misfit (Report Float) := do
  let kind ← fields.textOr ["kind"] Kind.internal.name
  let message ← fields.textOr ["message"] ""
  pure ⟨kind, message, (fields.get? "line").getD .null⟩

/-- Data that says nothing about its kind is a raw text. -/
def Outcome.ofRaw (p : Payload Float) : Except Misfit (Outcome Float) := p.toText.map fun text => .value (.raw text)

mutual

/-- What became of a branch: a report, a value, or bare data; an object without a type may hold it as its
result. -/
def Outcome.decode : Payload Float → Except Misfit (Outcome Float)
  | .object fields =>
    match Table.get? fields "type" with
    | some (.text "error") => (Report.ofFields fields).map .failed
    | some _ => (Value.ofFields fields).map .value
    | none =>
      match Outcome.decodeResult? fields with
      | some outcome => outcome
      | none => Outcome.ofRaw (.object fields)
  | .bool b => .ok (.value (.raw (if b then "true" else "false")))
  | .int n => (Payload.int n).toReal.map fun x => .value (.number x)
  | .real x => .ok (.value (.number x))
  | .text s => .ok (.value (.text s))
  | .null => Outcome.ofRaw .null
  | .list items => Outcome.ofRaw (.list items)

/-- The branch that is held as a result. -/
def Outcome.decodeResult? : List (String × Payload Float) → Option (Except Misfit (Outcome Float))
  | [] => none
  | (name, p) :: rest => if name = "result" then some (Outcome.decode p) else Outcome.decodeResult? rest

end

/-! ### Results -/

namespace Result

/-- The fields of an envelope: those of a nested `data` object and those beside it, which prevail. Data that
is no object stands for a missing value. -/
def merge (fields : Fields) : Fields :=
  match fields.get? "data" with
  | some (.object data) => Table.putAll data (fields.filter (·.1 != "data"))
  | some .null | none => fields
  | some p => if fields.has "value" then fields else fields.put "value" p

/-- An uncertain number that was sent as a mean with its uncertainty. -/
def ofAnalysis (fields : Fields) : Except Misfit (Result Float) := do
  let nominal ← fields.real "mean"
  let uncertainty ← fields.realOr "uncertainty" Scalar.zero
  pure (.uncertain (Value.spread (Value.numberDisplay nominal) (Value.numberDisplay uncertainty)) nominal
    uncertainty)

/-- A success. -/
def decodeSuccess (fields : Fields) : Except Misfit (Result Float) :=
  let plain : Except Misfit (Result Float) := (fields.textOr ["value", "message"] completionMessage).map .success
  match fields.get? "result" with
  | some (.object nested) => if Table.has nested "mean" then ofAnalysis nested else plain
  | _ => plain

/-- The binding of an uncertain quantity. -/
def decodeUncertain (fields : Fields) : Except Misfit (Result Float) := do
  let value ← (← fields.need "value").toText
  let nominal ← fields.realOr "nominal" Machine.nan
  let uncertainty ← fields.realOr "uncertainty" Machine.nan
  pure (.uncertain value nominal uncertainty)

/-- The number of shots is not the total. If one of them cannot be written, this is the fault. -/
def shotsMisfit (total : Int) (given : Payload Float) : Misfit :=
  match (Payload.int total).toText, given.toText with
  | .ok total, .ok given => .shots total given
  | .error fault, _ | _, .error fault => fault

/-- Counts: without fractions no count is negative, and the number of shots, where it is given, is their sum. -/
def decodeTally (counts : Payload Float) (shots : Option (Payload Float)) : Except Misfit (Tally Float) := do
  match counts with
  | .object entries =>
    let counts ← Table.readValues Payload.toInteger entries
    if counts.any (·.2 < 0) then throw .negativeCount
    let total := Counts.total counts
    match shots.getD .null with
    | .null => pure ⟨counts, .int total⟩
    | given =>
      if (← given.toInteger) ≠ total then throw (shotsMisfit total given)
      pure ⟨counts, given⟩
  | p => throw (.noObject p.typeName "items")

/-- The counts and the number of shots. Where there are no counts, the number of shots is kept unread. -/
def decodeMeasurements (fields : Fields) : Except Misfit (Measurements Float) :=
  match fields.get? "counts" with
  | none | some .null => .ok (.uncounted ((fields.get? "shots").getD .null))
  | some counts => (decodeTally counts (fields.get? "shots")).map .tallied

/-- A circuit, with counts if it was measured. -/
def decodeCircuit (fields : Fields) : Except Misfit (Result Float) := do
  let measured ← decodeMeasurements fields
  let name ← (← fields.need "circuit_name").toText
  let qubits ← ((fields.get? "qubits").getD (.int 0)).toInteger
  let message ← fields.textOr ["message"] ""
  pure (.circuit name qubits measured message)

/-- The outcomes of branches. -/
def decodeParallel (fields : Fields) : Except Misfit (Result Float) := do
  let branches := (fields.get? "branches").getD .null
  let outcomes ←
    if branches.isEmpty then pure []
    else
      match branches with
      | .object entries => Table.readValues Outcome.decode entries
      | p => throw (.noObject p.typeName "items")
  let message ← fields.textOr ["message"] ""
  pure (.parallel outcomes message)

/-- The reader of a type of results. -/
def decoder? (type : String) : Option (Fields → Except Misfit (Result Float)) :=
  if type = "success" then some decodeSuccess
  else if type = "uncertain" then some decodeUncertain
  else if type = "quantum_circuit" then some decodeCircuit
  else if type = "parallel" then some decodeParallel
  else if type = "error" then some fun fields => (Report.ofFields fields).map .failure
  else none

/-- Why a payload is no result. -/
inductive Refusal
  | unknownType (type : Payload Float)
  | malformed (type : String) (fault : Misfit)
  /-- The payload has the right shape, or is no object at all. -/
  | outside (fault : Misfit)

def Refusal.message : Refusal → String
  | .unknownType type =>
    match type.shown with
    | .ok text => "Unknown result type: " ++ text
    | .error fault => fault.message
  | .malformed type fault => "Malformed " ++ type ++ " result: " ++ fault.message
  | .outside fault => fault.message

/-- A result of a type, from its fields. -/
def ofFields (fields : Fields) : Except Refusal (Result Float) :=
  let type := (fields.get? "type").getD .null
  match type with
  | .text name =>
    match decoder? name with
    | none => .error (.unknownType type)
    | some decode =>
      match decode fields with
      | .ok r => .ok r
      | .error fault => .error (if fault.isRange then .outside fault else .malformed name fault)
  | _ => .error (.unknownType type)

/-- Reads the protocol form of a result. -/
def decode : Payload Float → Except Refusal (Result Float)
  | .object fields => ofFields (merge fields)
  | p => .error (.outside (.noObject p.typeName "get"))

/-- Fields with a known type are read by its reader. -/
theorem ofFields_eq {fields : Fields} {name : String} {reader : Fields → Except Misfit (Result Float)}
    (type : fields.get? "type" = some (.text name)) (hreader : decoder? name = some reader) :
    ofFields fields = (reader fields).mapError fun fault =>
      if fault.isRange then .outside fault else .malformed name fault := by
  unfold ofFields
  rw [type]
  simp only [Option.getD_some, hreader]
  cases reader fields <;> rfl

/-- An object that is no envelope is read by the reader of its type. -/
theorem decode_object_eq {fields : Fields} {name : String} {reader : Fields → Except Misfit (Result Float)}
    (data : fields.get? "data" = none) (type : fields.get? "type" = some (.text name))
    (hreader : decoder? name = some reader) :
    decode (.object fields) = (reader fields).mapError fun fault =>
      if fault.isRange then .outside fault else .malformed name fault := by
  have hmerge : merge fields = fields := by
    unfold merge
    rw [data]
  unfold decode
  dsimp only
  rw [hmerge, ofFields_eq type hreader]

end Result

end LabLang
