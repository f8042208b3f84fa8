import LabLang.Config.Basic
import LabLang.Text.LowerCase

/-! # Configurations from the environment

The variables of the environment that configure executions. A variable that is unset or blank leaves the
default in place; any other text has to be a number or a flag, as the variable demands. -/

namespace LabLang

open Text

/-- The variables of an environment. -/
abbrev Environment := Table String

/-- The value of a variable that is set and not blank, with and without the blanks around it. -/
def setValue (value : Option String) : Option (String × List Char) :=
  match value with
  | some v => if isBlankText v.toList then none else some (v, trim v.toList)
  | none => none

/-- The texts that switch a flag on. -/
def onTexts : List String := ["1", "true", "yes", "on"]

/-- Reads a flag: any text that does not switch it on switches it off. -/
def readFlag (value : Option String) (default : Bool) : Bool :=
  match setValue value with
  | some (_, s) => onTexts.contains (String.ofList (lower s))
  | none => default

/-- Reads an integer. -/
def readIntegerVariable (value : Option String) (default : Option Int) : Except ConfigFault (Option Int) :=
  match setValue value with
  | some (v, s) =>
    match Number.readInteger s with
    | .ok n => .ok (some n)
    | .error _ => .error (.notInteger v)
  | none => .ok default

/-- Reads a real number. -/
def readRealVariable (value : Option String) (default : Float) : Except ConfigFault Float :=
  match setValue value with
  | some (v, s) =>
    match Number.readNumeral s with
    | some n => .ok (Machine.ofNumeral n)
    | none => .error (.notNumber v)
  | none => .ok default

/-- A text that is not empty. -/
def nonEmpty (s : String) : Option String := if s.isEmpty then none else some s

namespace Config

/-- The mode that an environment asks for. -/
def loadMode (env : Environment) : Except ConfigFault Mode :=
  let name := String.ofList (lower (trim ((env.get? "SYNAPSE_MODE").getD "").toList))
  if name.isEmpty then .ok .inProcess
  else
    match Mode.ofName? name with
    | some m => .ok m
    | none => .error (.modeVariable name)

/-- The configuration that an environment asks for. -/
def load (env : Environment) : Except ConfigFault Config := do
  let mode ← loadMode env
  let timeout ← readRealVariable (env.get? "SYNAPSE_TIMEOUT") Client.defaultSeconds
  let seed ← readIntegerVariable (env.get? "SYNAPSE_SEED") none
  let shots ← readIntegerVariable (env.get? "SYNAPSE_SHOTS") (some ({} : Config).defaultShots)
  let workers ← readIntegerVariable (env.get? "SYNAPSE_MAX_WORKERS") none
  check {
    mode
    endpoint := (nonEmpty (trimString ((env.get? "SYNAPSE_ENDPOINT").getD ""))).getD Client.publicEndpoint
    apiKey := (env.get? "SYNAPSE_API_KEY").bind nonEmpty
    timeout := .real timeout
    seed
    defaultShots := shots.getD ({} : Config).defaultShots
    workers
    verify := readFlag (env.get? "SYNAPSE_VERIFY_SSL") true }

/-! ### The default configuration -/

/-- The configuration that is used where none is given: it is loaded when it is first asked for, and kept. -/
structure Default where
  env : Environment
  kept : Option Config := none

/-- The default configuration. One that cannot be loaded is not kept. -/
def Default.get (d : Default) : Except ConfigFault (Config × Default) :=
  match d.kept with
  | some c => .ok (c, d)
  | none => (load d.env).map fun c => (c, { d with kept := some c })

end Config

/-- The fields of a client that are given; the others come from the environment or are defaults. -/
structure ClientFields where
  endpoint : Option String := none
  apiKey : Option String := none
  timeout : Option Seconds := none
  retries : Option Int := none
  backoff : Option Seconds := none
  verify : Option Bool := none

namespace Client

/-- A client with an address and a credential; the other fields are given or defaults. -/
def ofFields (endpoint : String) (apiKey : Option String) (f : ClientFields) : Except ConfigFault Client :=
  check ⟨endpoint, apiKey, f.timeout.getD defaultTimeout, f.retries.getD defaultRetries,
    f.backoff.getD defaultBackoff, f.verify.getD true⟩

/-- A client whose address and credential come from the environment unless they are given. -/
def ofEnvironment (env : Environment) (f : ClientFields) : Except ConfigFault Client :=
  ofFields ((f.endpoint.bind nonEmpty).getD ((env.get? "SYNAPSE_ENDPOINT").getD publicEndpoint))
    ((f.apiKey.bind nonEmpty).or ((env.get? "SYNAPSE_API_KEY").bind nonEmpty)) f

end Client

end LabLang
