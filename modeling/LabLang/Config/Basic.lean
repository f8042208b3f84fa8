import LabLang.Interpreter
import LabLang.Service.Client

/-! # Configurations

A configuration says where programs are executed, in the process or by the compute service, and with which
settings. The credential is never shown. -/

namespace LabLang

/-- Where programs are executed. -/
inductive Mode
  | inProcess
  | remote
deriving DecidableEq, Repr

namespace Mode

def name : Mode → String
  | inProcess => "local"
  | remote => "remote"

/-- The mode of a name. -/
def ofName? (name : String) : Option Mode :=
  if name = "local" then some inProcess else if name = "remote" then some remote else none

end Mode

/-- A configuration. -/
structure Config where
  mode : Mode := .inProcess
  endpoint : String := Client.publicEndpoint
  apiKey : Option String := none
  timeout : Seconds := Client.defaultTimeout
  seed : Option Int := none
  defaultShots : Int := 1000
  workers : Option Int := none
  retries : Int := Client.defaultRetries
  verify : Bool := true
deriving DecidableEq

/-- Changes to a configuration; what is absent stays as it is. -/
structure Changes where
  mode : Option String := none
  endpoint : Option String := none
  apiKey : Option String := none
  timeout : Option Seconds := none
  seed : Option Int := none
  defaultShots : Option Int := none
  workers : Option Int := none
  retries : Option Int := none
  verify : Option Bool := none
deriving DecidableEq

namespace Config

/-- The configuration, if its numbers are positive. -/
def check (c : Config) : Except ConfigFault Config :=
  if c.timeout.isNotPositive then .error (.timeout c.timeout)
  else
    match Settings.make c.seed c.defaultShots c.workers with
    | .ok _ => .ok c
    | .error fault => .error (.settings fault)

/-- The mode of a name that was given, or else a default. -/
def modeOr (default : Mode) : Option String → Except ConfigFault Mode
  | none => .ok default
  | some name =>
    match Mode.ofName? name with
    | some m => .ok m
    | none => .error (.mode name)

/-- The configuration with changes. -/
def change (c : Config) (d : Changes) : Except ConfigFault Config := do
  let mode ← modeOr c.mode d.mode
  check {
    mode
    endpoint := d.endpoint.getD c.endpoint
    apiKey := d.apiKey.or c.apiKey
    timeout := d.timeout.getD c.timeout
    seed := d.seed.or c.seed
    defaultShots := d.defaultShots.getD c.defaultShots
    workers := d.workers.or c.workers
    retries := d.retries.getD c.retries
    verify := d.verify.getD c.verify }

/-- The configuration with changes, which is checked only if there are any. -/
def override (c : Config) (d : Changes) : Except ConfigFault Config := if d = {} then .ok c else c.change d

/-- The client of the compute service. -/
def client (c : Config) : Except ConfigFault Client :=
  Client.check ⟨c.endpoint, c.apiKey, c.timeout, c.retries, Client.defaultBackoff, c.verify⟩

/-- What is shown in place of a credential. -/
def redacted : String := "[REDACTED]"

/-- The credential as it is shown. -/
def shownKey (c : Config) : Option String := (c.apiKey.filter fun k => !k.isEmpty).map fun _ => redacted

/-- The configuration as data. -/
def encode (c : Config) : Payload Float :=
  .object [("mode", .text c.mode.name), ("endpoint", .text c.endpoint), ("api_key", .ofText? c.shownKey),
    ("timeout", c.timeout.encode), ("seed", .ofInt? c.seed), ("default_shots", .int c.defaultShots),
    ("max_workers", .ofInt? c.workers), ("retry_attempts", .int c.retries), ("verify_ssl", .bool c.verify)]

/-- The lines that show the configuration. -/
def lines (c : Config) : List String :=
  ["Mode:            " ++ c.mode.name, "Endpoint:        " ++ c.endpoint,
    "API key:         " ++ c.shownKey.getD "(not set)", "Timeout:         " ++ c.timeout.text ++ "s",
    "Seed:            " ++ c.seed.elim "(random)" Number.intText,
    "Default shots:   " ++ Number.intText c.defaultShots,
    "Max workers:     " ++ c.workers.elim "(auto)" Number.intText,
    "Retry attempts:  " ++ Number.intText c.retries,
    "Verify SSL:      " ++ if c.verify then "True" else "False"]

end Config

end LabLang
