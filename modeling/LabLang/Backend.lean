import LabLang.Config.Environment
import LabLang.Service.Exchange
import LabLang.Session

/-! # Backends

A backend executes programs, in the process or by the compute service, as a configuration says. -/

namespace LabLang

/-- A backend. -/
inductive Backend
  | session (session : Session Float)
  | client (client : Client)

namespace Backend

/-- The backend of a configuration. -/
def create (c : Config) : Except ConfigFault Backend :=
  match c.mode with
  | .inProcess =>
    match Settings.make c.seed c.defaultShots c.workers with
    | .ok settings => .ok (.session (.start settings))
    | .error fault => .error (.settings fault)
  | .remote => c.client.map .client

/-- The mode of a backend. -/
def mode : Backend → Mode
  | session _ => .inProcess
  | client _ => .remote

/-- What the world outside supplies to an execution: a fresh seed, and the replies of the service. -/
structure World where
  fresh : Nat
  transport : Request → Reply

/-- Executes a program: the result, and the requests that were sent. -/
def execute (b : Backend) (w : World) (source : String) : Result Float × List Request :=
  match b with
  | session s => ((s.execute w.fresh source).1, [])
  | client c => c.execute w.transport none source

end Backend

/-- Executes a program once, with a configuration and a mode and a seed that take its place where they are
given. -/
def executeOnce (w : Backend.World) (c : Config) (mode : Option String) (seed : Option Int) (source : String) :
    Except ConfigFault (Result Float × List Request) := do
  let backend ← Backend.create (← c.override { mode, seed })
  pure (backend.execute w source)

end LabLang
