import LabLang.Circuit.Gate
import LabLang.Number.Bounded
import LabLang.Text.Quoted

/-! # Failures

Why a program, or an operation on its values, fails. A `Cause` says what is wrong and belongs to one
`Kind`; its message is written by `Cause.message`. A `Failure` adds the line of the program, once it is
known: the innermost line wins. -/

namespace LabLang

open Text (quote)
open Number (intText naming shortText generalText)

/-! ### Kinds -/

/-- The kinds of failures that results report. -/
inductive Kind
  | malformed | undefined | circuit | numeric | timeout | unavailable | internal
deriving DecidableEq, Repr

/-- The name of the kind in results. -/
def Kind.name : Kind → String
  | malformed => "SyntaxError"
  | undefined => "NameError"
  | circuit => "CircuitError"
  | numeric => "NumericError"
  | timeout => "BackendTimeout"
  | unavailable => "BackendUnavailable"
  | internal => "InternalError"

/-! ### Malformed statements -/

/-- What is malformed, with the offending text where it is shown. -/
inductive Malformed
  | assignment
  | variableName (name : String)
  | uncertainValue (text : String)
  | run (text : String)
  | runOption (item : String)
  | unknownRunOption (key : String)
  | shots (value : String)
  | circuitHeader (text : String)
  | qubitsTwice (circuit : String)
  | qubitCount (value : String)
  | angle (text : String)
  | qubit (text : String)
  | gate (text : String)
  | measure (text : String)
  | emptyMeasure
  | parallelHeader (text : String)
  | unclosedParallel
  | branch (text : String)
  | repeatedLabel (label : String)
deriving DecidableEq, Repr

def Malformed.message : Malformed → String
  | assignment => "Invalid assignment syntax"
  | variableName name => "Invalid variable name: " ++ quote name
  | uncertainValue text =>
    "Uncertain value must look like '<value> ± <uncertainty>', got " ++ quote text
  | run text => "Invalid run syntax: " ++ quote text
  | runOption item => "Invalid run option: " ++ quote item
  | unknownRunOption key => "Unknown run option: " ++ key
  | shots value => "shots must be a positive integer, got " ++ quote value
  | circuitHeader text => "Invalid quantum circuit syntax: " ++ quote text
  | qubitsTwice circuit => "Circuit '" ++ circuit ++ "' declares qubits twice"
  | qubitCount value => "Invalid qubit count: " ++ quote value
  | angle text => "Invalid angle: " ++ quote text
  | qubit text => "Invalid qubit index: " ++ quote text
  | gate text => "Invalid gate statement: " ++ quote text
  | measure text => "Invalid measure statement: " ++ quote text
  | emptyMeasure => "measure() needs 'all' or at least one qubit"
  | parallelHeader text => "Invalid parallel block syntax: " ++ quote text
  | unclosedParallel => "Parallel block is missing its closing '\x7d'"
  | branch text => "Invalid branch declaration: " ++ quote text
  | repeatedLabel label => "Duplicate branch label: " ++ label

/-! ### Undefined names -/

/-- What a name was expected to stand for. -/
inductive NameUse
  | variableUse | functionUse | circuitUse
deriving DecidableEq, Repr

def NameUse.word : NameUse → String
  | variableUse => "variable"
  | functionUse => "function"
  | circuitUse => "circuit"

/-! ### Invalid circuits -/

/-- The largest circuit that is simulated. -/
def maxQubits : Nat := 24

/-- What is wrong with a circuit. -/
inductive CircuitFault (R : Type)
  | angleNotFinite (text : String)
  | unknownGate (name : String)
  | argumentCount (kind : GateKind) (given : Nat)
  | noQubits (circuit : String) (count : Int)
  | tooManyQubits (circuit : String) (count : Int)
  | undeclaredQubits (circuit : String)
  | gateQubitCount (kind : GateKind) (given : Nat)
  | gateAngleCount (kind : GateKind) (given : Nat)
  | paramNotFinite (gate : Gate R)
  | gateOutOfRange (gate : Gate R) (qubit : Int) (circuit : String) (count : Nat)
  | measureOutOfRange (qubit : Int) (circuit : String) (count : Nat)
  | repeatedQubit (gate : Gate R)
  | measuredTwice (circuit : String)

section

variable {R : Type} [Scalar R]

/-- A qubit that the circuit does not have. -/
def outOfRangeText (user : String) (qubit : Int) (circuit : String) (count : Nat) : String :=
  user ++ " targets qubit " ++ intText qubit ++ ", but circuit '" ++ circuit ++ "' has " ++ intText count
    ++ " qubit(s)"

def CircuitFault.message : CircuitFault R → String
  | angleNotFinite text => "Gate angle must be finite, got " ++ quote text
  | unknownGate name => "Unknown gate: " ++ name
  | argumentCount kind given =>
    kind.name ++ " expects " ++ intText (kind.angleCount + kind.qubitCount) ++ " argument(s), got "
      ++ intText given
  | noQubits circuit count =>
    "Circuit '" ++ circuit ++ "' must have a positive qubit count, got " ++ intText count
  | tooManyQubits circuit count =>
    "Circuit '" ++ circuit ++ "' has " ++ intText count ++ " qubits; the local simulator supports at most "
      ++ intText maxQubits
  | undeclaredQubits circuit => "Circuit '" ++ circuit ++ "' does not declare a qubit count"
  | gateQubitCount kind given =>
    kind.name ++ " acts on " ++ intText kind.qubitCount ++ " qubit(s), got " ++ intText given
  | gateAngleCount kind given =>
    kind.name ++ " takes " ++ intText kind.angleCount ++ " parameter(s), got " ++ intText given
  | paramNotFinite gate => gate.text ++ " has a non-finite parameter"
  | gateOutOfRange gate qubit circuit count => outOfRangeText gate.text qubit circuit count
  | measureOutOfRange qubit circuit count => outOfRangeText "measure" qubit circuit count
  | repeatedQubit gate => gate.text ++ " uses the same qubit twice"
  | measuredTwice circuit => "Circuit '" ++ circuit ++ "' measures a qubit twice"

end

/-! ### Undefined arithmetic -/

/-- The most samples that one estimate draws. -/
def maxSamples : Nat := 10000000

/-- Which operation is undefined for its operands. -/
inductive NumericFault (R : Type)
  | notFinite (nominal uncertainty : R)
  | negativeUncertainty (uncertainty : R)
  | relativeToZero
  | uncertainDivisionByZero
  | emptyMean
  | estimateArguments
  | estimateSamples (samples : R)
  | averageOfNothing
  | averageOfOthers
  | operands (op : Char) (left right : String)
  | divisionByZero
  | nothingToAggregate

section

variable {R : Type} [Scalar R]

/-- A number in a message. -/
def numberText (x : R) : String := shortText (Scalar.binary x)

def NumericFault.message : NumericFault R → String
  | notFinite nominal uncertainty =>
    "Uncertain quantity must be finite, got " ++ numberText nominal ++ " ± " ++ numberText uncertainty
  | negativeUncertainty uncertainty => "Uncertainty must be non-negative, got " ++ numberText uncertainty
  | relativeToZero => "Relative uncertainty is undefined for a zero nominal value"
  | uncertainDivisionByZero => "Division by an uncertain quantity with zero nominal value"
  | emptyMean => "Mean of an empty set of quantities is undefined"
  | estimateArguments => "estimate_pi expects one numeric argument"
  | estimateSamples samples =>
    "estimate_pi samples must be an integer in [1, " ++ intText maxSamples ++ "], got "
      ++ generalText (Scalar.binary samples)
  | averageOfNothing => "average expects at least one argument"
  | averageOfOthers => "average expects numeric arguments"
  | operands op left right =>
    "Unsupported operand types for " ++ String.singleton op ++ ": " ++ left ++ " and " ++ right
  | divisionByZero => "Division by zero"
  | nothingToAggregate => "No numeric branch outcomes to aggregate"

end

/-! ### Below the language -/

/-- The ways of combining the outcomes of branches. -/
def aggregationNames : List String := ["mean", "sum", "min", "max"]

/-- A fault that programs have no word for: a limit of the machine or a misused operation. -/
inductive Internal
  | sum (fault : SumFault)
  | integer (fault : Number.IntegerFault) (text : String)
  | negativeSeed
  | shotsTooLarge
  | shotsNotPositive (shots : Int)
  | probabilityRange
  | probabilitySum
  | noProbabilities
  | notNumeric (kind : String)
  | unknownAggregation (name : String)
  | defaultShots (given : Int)
  | workers (given : Int)
deriving DecidableEq, Repr

/-- The message about a text that is no integer. -/
def integerFaultText (fault : Number.IntegerFault) (text : String) : String :=
  match fault with
  | .tooManyDigits count =>
    "Exceeds the limit (" ++ intText Number.maxIntegerDigits
      ++ " digits) for integer string conversion: value has " ++ intText count
      ++ " digits; use sys.set_int_max_str_digits() to increase the limit"
  | .notAnInteger => "invalid literal for int() with base 10: " ++ quote text

/-- The message about a sum without a value. -/
def sumFaultText : SumFault → String
  | .overflow => "intermediate overflow in fsum"
  | .opposedInfinities => "-inf + inf in fsum"

def Internal.message : Internal → String
  | sum fault => sumFaultText fault
  | integer fault text => integerFaultText fault text
  | negativeSeed => "expected non-negative integer"
  | shotsTooLarge => "Python int too large to convert to C long"
  | shotsNotPositive shots => naming shots ("shots must be positive, got " ++ ·)
  | probabilityRange => "pvals < 0, pvals > 1 or pvals contains NaNs"
  | probabilitySum => "sum(pvals[:-1]) > 1.0"
  | noProbabilities =>
    "pvals must have at least 1 dimension and the last dimension of pvals must be greater than 0."
  | notNumeric kind => kind ++ " value is not numeric"
  | unknownAggregation name =>
    "Unknown aggregation " ++ quote name ++ "; expected one of ("
      ++ ", ".intercalate (aggregationNames.map quote) ++ ")"
  | defaultShots given => naming given ("default_shots must be positive, got " ++ ·)
  | workers given => naming given ("max_workers must be positive, got " ++ ·)

/-! ### Causes and failures -/

/-- Why something fails. -/
inductive Cause (R : Type)
  | malformed (fault : Malformed)
  | undefined (use : NameUse) (name : String)
  | circuit (fault : CircuitFault R)
  | numeric (fault : NumericFault R)
  | internal (fault : Internal)

/-- The kind of a cause. -/
def Cause.kind {R : Type} : Cause R → Kind
  | malformed _ => .malformed
  | undefined _ _ => .undefined
  | circuit _ => .circuit
  | numeric _ => .numeric
  | internal _ => .internal

/-- The message of a cause. -/
def Cause.message {R : Type} [Scalar R] : Cause R → String
  | malformed fault => fault.message
  | undefined use name => "Undefined " ++ use.word ++ ": " ++ name
  | circuit fault => fault.message
  | numeric fault => fault.message
  | internal fault => fault.message

/-- A cause and the line of the program it was found in, when that is known. -/
structure Failure (R : Type) where
  cause : Cause R
  line : Option Nat := none

namespace Failure

variable {R : Type}

/-- Adds a line unless one is known already. -/
def withLine (f : Failure R) (line : Nat) : Failure R :=
  { f with line := f.line.or (some line) }

/-- A malformed statement. -/
def ofMalformed (fault : Malformed) (line : Option Nat := none) : Failure R := ⟨.malformed fault, line⟩

/-- An invalid circuit. -/
def ofCircuit (fault : CircuitFault R) (line : Option Nat := none) : Failure R := ⟨.circuit fault, line⟩

end Failure

end LabLang
