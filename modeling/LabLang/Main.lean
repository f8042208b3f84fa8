import LabLang.CommandLine

/-! # The program

Connects the command line with the process: arguments, environment, files and standard streams. No transport
to the compute service is built in. -/

namespace LabLang.CommandLine

/-- The variables that configure executions. -/
def variableNames : List String :=
  ["SYNAPSE_MODE", "SYNAPSE_ENDPOINT", "SYNAPSE_API_KEY", "SYNAPSE_TIMEOUT", "SYNAPSE_SEED", "SYNAPSE_SHOTS",
    "SYNAPSE_MAX_WORKERS", "SYNAPSE_VERIFY_SSL"]

/-- Reads the variables that are set. -/
def readEnvironment : IO Environment :=
  variableNames.filterMapM fun name => do
    return (← IO.getEnv name).map fun value => (name, value)

/-- The program text that a command asks for, if it is there. -/
def readProgram : Command → IO (Option String)
  | .run "-" _ _ => do return some (← (← IO.getStdin).readToEnd)
  | .run file _ _ => do
    try return some (← IO.FS.readFile file) catch _ => return none
  | _ => return none

/-- Carries out a command of the process. -/
def runCommand (command : Command) : IO (Option Output) := do
  let text ← readProgram command
  let fresh ← IO.rand 0 (twoPow 64 - 1)
  return command.carryOut {
    env := ← readEnvironment
    file := fun _ => text
    stdin := text.getD ""
    world := { fresh, transport := fun _ => .unreachable "no transport" } }

/-- The message about arguments that are not as they should be. -/
def usage : String := "Usage: synapse [--verbose] (run FILE | eval SOURCE | circuits | config) [OPTIONS]"

/-- The message of a fault that a command hands on. -/
def Escape.message : Escape → String
  | .config fault => fault.message
  | .table fault => fault.message
  | .unwritten fault => fault.message

/-- Writes the output of a command. -/
def writeOutput (out : Output) : IO UInt32 := do
  IO.print out.stdout
  IO.eprint out.stderr
  if let some escape := out.escape then IO.eprintln escape.message
  return out.exit.toUInt32

end LabLang.CommandLine

open LabLang.CommandLine in
/-- The entry point. -/
def main (args : List String) : IO UInt32 := do
  let out ← match Command.read args with
    | some command => runCommand command
    | none => pure none
  match out with
  | some out => writeOutput out
  | none =>
    IO.eprintln usage
    return usageExit.toUInt32
