import LabLang.Backend
import LabLang.Circuit.Library
import LabLang.Payload.Writer
import LabLang.Result.Encode
import LabLang.Result.Pretty

/-! # The command line

Four commands: `run` and `eval` execute a program from a file or from the command line, `circuits` lists the
well-known circuits, and `config` shows the configuration that the environment asks for. Options may stand
anywhere behind the command and may be repeated, the last one prevails; `--` ends them. What a command writes
is computed here and written by the caller. -/

namespace LabLang.CommandLine

open Text

/-! ### Arguments -/

/-- The form in which results are written. -/
inductive Format
  | pretty | json
deriving DecidableEq, Repr

/-- A command with its options. -/
inductive Command
  | run (file : String) (changes : Changes) (format : Format)
  | eval (source : String) (changes : Changes) (format : Format)
  | circuits (format : Format)
  | config (format : Format)
deriving DecidableEq

/-- The argument is an option: a dash and something behind it. -/
def isOption (arg : String) : Bool :=
  match arg.toList with
  | '-' :: _ :: _ => true
  | _ => false

/-- The name of an option and the value behind an equals sign. -/
def splitOption (arg : String) : String × Option String :=
  let s := arg.toList
  (String.ofList (s.takeWhile (· != '=')),
    match s.dropWhile (· != '=') with
    | _ :: value => some (String.ofList value)
    | [] => none)

/-- Options with their values in order, and the other arguments. -/
structure Scanned where
  options : List (String × String) := []
  others : List String := []

/-- Adds an option in front. -/
def Scanned.withOption (s : Scanned) (name value : String) : Scanned :=
  { s with options := (name, value) :: s.options }

/-- Tells options from other arguments. Every option takes a value, behind an equals sign or as the next
argument. -/
def scan (known : List String) : List String → Option Scanned
  | [] => some {}
  | arg :: rest =>
    if arg = "--" then some { others := rest }
    else if isOption arg then
      if known.contains (splitOption arg).1 then
        match (splitOption arg).2, rest with
        | some value, rest => (scan known rest).map (·.withOption (splitOption arg).1 value)
        | none, value :: rest => (scan known rest).map (·.withOption (splitOption arg).1 value)
        | none, [] => none
      else none
    else (scan known rest).map fun s => { s with others := arg :: s.others }

/-- The form of a name. -/
def readFormat : String → Option Format
  | "pretty" => some .pretty
  | "json" => some .json
  | _ => none

/-- What options ask for. -/
structure Asked where
  changes : Changes := {}
  format : Format := .pretty

/-- An integer. -/
def readInt (value : String) : Option Int := (Number.readInteger value.toList).toOption

/-- A number of shots. -/
def readShots (value : String) : Option Int := (readInt value).filter (1 ≤ ·)

/-- A timeout. -/
def readTimeout (value : String) : Option Seconds :=
  ((Number.readNumeral value.toList).map fun n => Seconds.real (Machine.ofNumeral n)).filter
    fun t => !t.isNotPositive

/-- Takes in one option. -/
def Asked.add (a : Asked) (o : String × String) : Option Asked :=
  let value := o.2
  match o.1 with
  | "--mode" => (Mode.ofName? value).map fun _ => { a with changes := { a.changes with mode := some value } }
  | "--endpoint" => some { a with changes := { a.changes with endpoint := some value } }
  | "--api-key" => some { a with changes := { a.changes with apiKey := some value } }
  | "--seed" => (readInt value).map fun n => { a with changes := { a.changes with seed := some n } }
  | "--shots" =>
    (readShots value).map fun n => { a with changes := { a.changes with defaultShots := some n } }
  | "--timeout" =>
    (readTimeout value).map fun t => { a with changes := { a.changes with timeout := some t } }
  | "--format" => (readFormat value).map fun f => { a with format := f }
  | _ => none

/-- The options with the last value of each. -/
def lastValues (options : List (String × String)) : List (String × String) := Table.ofPairs options

/-- What scanned options ask for. -/
def Scanned.asked (s : Scanned) : Option Asked := (lastValues s.options).foldlM Asked.add {}

/-- The options of commands that execute programs. -/
def executeOptions : List String :=
  ["--mode", "--endpoint", "--api-key", "--seed", "--shots", "--timeout", "--format"]

/-- A command that executes a program. -/
def executing (make : String → Changes → Format → Command) (args : List String) : Option Command := do
  let s ← scan executeOptions args
  let a ← s.asked
  match s.others with
  | [source] => some (make source a.changes a.format)
  | _ => none

/-- A command without arguments. -/
def showing (make : Format → Command) (args : List String) : Option Command := do
  let s ← scan ["--format"] args
  let a ← s.asked
  if s.others.isEmpty then some (make a.format) else none

/-- The arguments from the command on. Before it only the flag for more messages may stand. -/
def dropFlags : List String → Option (List String)
  | [] => none
  | arg :: rest =>
    if arg = "--" then some rest
    else if isOption arg then
      if arg = "--verbose" || (arg.toList.drop 1).all (· == 'v') then dropFlags rest else none
    else some (arg :: rest)

/-- Reads the arguments; none if they are not as they should be. -/
def Command.read (args : List String) : Option Command := do
  match ← dropFlags args with
  | "run" :: rest => executing .run rest
  | "eval" :: rest => executing .eval rest
  | "circuits" :: rest => showing .circuits rest
  | "config" :: rest => showing .config rest
  | _ => none

/-! ### Execution -/

/-- A fault that a command does not report but hands on. -/
inductive Escape
  | config (fault : ConfigFault)
  | table (fault : Counts.TableFault)
  | unwritten (fault : Number.WriteFault)

/-- What a command leads to: the exit code, what it writes, the requests that were sent, and a fault that it
hands on. -/
structure Output where
  exit : Nat
  stdout : String := ""
  stderr : String := ""
  requests : List Request := []
  escape : Option Escape := none

/-- The outside of a command: the variables of the environment, the files and the standard input, and what an
execution needs. -/
structure Surroundings where
  env : Environment
  file : String → Option String
  stdin : String
  world : Backend.World

/-- Makes all ends of lines line feeds. -/
def unifyLineEnds : List Char → List Char
  | [] => []
  | '\r' :: '\n' :: r => '\n' :: unifyLineEnds r
  | c :: r => (if c = '\r' then '\n' else c) :: unifyLineEnds r

/-- The text of a program file; a dash stands for the standard input. -/
def Surroundings.read (s : Surroundings) (file : String) : Option String :=
  (if file = "-" then some s.stdin else s.file file).map fun text => String.ofList (unifyLineEnds text.toList)

/-- The output of a command whose configuration is refused. -/
def refused (fault : ConfigFault) : Output :=
  { exit := 1, stderr := "Error: Invalid configuration: " ++ fault.message ++ "\n" }

/-- The output of a result. Failures are written apart from other results, except as data. -/
def written (format : Format) (r : Result Float) (requests : List Request) : Output :=
  let exit := if r.isFailure then 1 else 0
  match format with
  | .json =>
    match r.encode.write with
    | .ok text => { exit, stdout := text ++ "\n", requests }
    | .error fault => { exit := 1, requests, escape := some (.unwritten fault) }
  | .pretty =>
    match r.pretty with
    | .ok text =>
      if r.isFailure then { exit, stderr := text ++ "\n", requests }
      else { exit, stdout := text ++ "\n", requests }
    | .error fault => { exit := 1, requests, escape := some (.table fault) }

/-- Executes a program with the configuration of the environment and changes to it. -/
def execute (s : Surroundings) (changes : Changes) (format : Format) (source : String) : Output :=
  match Config.load s.env >>= fun c => c.override changes with
  | .error fault => refused fault
  | .ok config =>
    match Backend.create config with
    | .error fault => { exit := 1, escape := some (.config fault) }
    | .ok backend =>
      let (r, requests) := backend.execute s.world source
      written format r requests

/-- A circuit as data. -/
def encodeCircuit (c : Circuit Float) : Payload Float :=
  .object [("name", .text c.name), ("qubits", .int c.qubits),
    ("gates", .list (c.gates.map fun g =>
      .object ([("name", .text g.name), ("qubits", .list (g.qubits.map .int))]
        ++ if g.params.isEmpty then [] else [("params", .list (g.params.map .real))]))),
    ("measured", .list (c.measured.map fun (q : Nat) => .int q))]

/-- The output of data. -/
def writtenData (p : Payload Float) : Output :=
  match p.write with
  | .ok text => { exit := 0, stdout := text ++ "\n" }
  | .error fault => { exit := 1, escape := some (.unwritten fault) }

/-- The output of the list of the well-known circuits. -/
def circuitOutput : Format → Output
  | .json => writtenData (.list ((Circuit.wellKnown (R := Float)).map encodeCircuit))
  | .pretty =>
    let rows := unlines (tableLines ["Name", "Qubits", "Gates"]
      ((Circuit.wellKnown (R := Float)).map fun c =>
        [c.name, Number.intText c.qubits, "; ".intercalate (c.gates.map Gate.text)])
      "Well-known circuits")
    { exit := 0, stdout := rows }

/-- The output of the configuration. -/
def configOutput (env : Environment) (format : Format) : Output :=
  match Config.load env with
  | .error fault => refused fault
  | .ok c =>
    match format with
    | .json => writtenData c.encode
    | .pretty => { exit := 0, stdout := unlines c.lines }

/-- Carries out a command; none if it names a file that is not there. -/
def Command.carryOut (s : Surroundings) : Command → Option Output
  | .run file changes format => (s.read file).map (execute s changes format)
  | .eval source changes format => some (execute s changes format source)
  | .circuits format => some (circuitOutput format)
  | .config format => some (configOutput s.env format)

/-- Carries out the command of a list of arguments. None stands for arguments that are not as they should be,
or that name a file which is not there. -/
def main? (s : Surroundings) (args : List String) : Option Output :=
  (Command.read args).bind (Command.carryOut s)

/-- The exit code of a command that was not understood. -/
def usageExit : Nat := 2

end LabLang.CommandLine
