import LabLang.Config.Fault

/-! # Clients of the compute service

What a client needs to know to reach the service: its address, a credential, the timeout and how often and how
soon to try again. -/

namespace LabLang

/-- The configuration of a client. -/
structure Client where
  endpoint : String
  apiKey : Option String
  timeout : Seconds
  retries : Int
  backoff : Seconds
  verify : Bool
deriving DecidableEq

namespace Client

/-- The address of the public service. -/
def publicEndpoint : String := "https://api.synapse-lang.com/v1"

/-- The seconds of the timeout unless another one is given. -/
def defaultSeconds : Float := 30.0

/-- The timeout unless another one is given. -/
def defaultTimeout : Seconds := .real defaultSeconds

/-- The number of further attempts unless another one is given. -/
def defaultRetries : Int := 3

/-- The pause before a further attempt unless another one is given. -/
def defaultBackoff : Seconds := .real 0.5

/-- The client, if it has an address and a positive timeout. -/
def check (c : Client) : Except ConfigFault Client :=
  if c.endpoint.isEmpty then .error .noEndpoint
  else if c.timeout.isNotPositive then .error (.timeout c.timeout)
  else .ok c

end Client

end LabLang
