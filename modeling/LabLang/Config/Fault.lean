import LabLang.Payload.Basic
import LabLang.Scalar.Machine

/-! # Durations and faults of configurations

A duration is a number of seconds and is shown as it was given: `5` is told apart from `5.0`. A timeout has to be
positive; `ConfigFault` lists what else a configuration can be refused for. -/

namespace LabLang

open Number (intText)
open Text (quote)

/-- A number of seconds, given as an integer or as a real number. -/
inductive Seconds
  | whole (seconds : Int)
  | real (seconds : Float)
deriving DecidableEq

namespace Seconds

/-- The duration as it was given. -/
def text : Seconds → String
  | whole n => intText n
  | real x => numberText x

/-- The duration is zero or negative. A NaN is neither. -/
def isNotPositive : Seconds → Bool
  | whole n => n ≤ 0
  | real x => Scalar.le x Scalar.zero

/-- The duration is zero. -/
def isZero : Seconds → Bool
  | whole n => n == 0
  | real x => Scalar.eq x Scalar.zero

/-- The duration as data. -/
def encode : Seconds → Payload Float
  | whole n => .int n
  | real x => .real x

end Seconds

/-- Why a configuration is refused. -/
inductive ConfigFault
  /-- No mode of execution has this name. -/
  | mode (name : String)
  /-- The environment names a mode that does not exist. -/
  | modeVariable (name : String)
  | notInteger (text : String)
  | notNumber (text : String)
  | timeout (given : Seconds)
  | noEndpoint
  | settings (fault : Internal)

def ConfigFault.message : ConfigFault → String
  | mode name => quote name ++ " is not a valid ExecutionMode"
  | modeVariable name => "SYNAPSE_MODE must be 'local' or 'remote', got " ++ quote name
  | notInteger text => "Expected an integer, got " ++ quote text
  | notNumber text => "Expected a number, got " ++ quote text
  | timeout given => "timeout must be positive, got " ++ given.text
  | noEndpoint =>
    "endpoint is required. Set SYNAPSE_ENDPOINT environment variable or pass endpoint parameter."
  | settings fault => fault.message

end LabLang
