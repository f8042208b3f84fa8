import LabLang.Payload.Reader
import LabLang.Result.Decode
import LabLang.Service.Client

/-! # Exchanges with the compute service

A program is sent to the service in one request, and its reply becomes a result: the one that the service has
sent, or a failure that tells a timeout, a service that is not available and a fault of the client apart. -/

namespace LabLang

open Number (intText)

/-- A request to the service. -/
structure Request where
  method : String
  url : String
  source : String
  timeout : Seconds
  verify : Bool
  headers : List (String × String)
  retries : Int
  backoff : Seconds

/-- The data that a request carries. -/
def Request.body (r : Request) : Payload Float := .object [("source", .text r.source)]

/-- What comes back: an answer, no answer in time, no connection, another fault of the connection, or a fault
that has nothing to do with it. -/
inductive Reply
  | answer (status : Int) (body : String)
  | timeout
  | unreachable (text : String)
  | refused (text : String)
  | crashed (text : String)
deriving DecidableEq, Repr

/-- What a transport makes of a request: it answers, it fails, or a fault that is none of its own ends it. A failure is
one of time, one of connecting, both at once or neither. -/
inductive Delivery
  | answered (status : Int) (body : String)
  | failed (late unconnected : Bool) (text : String)
  | crashed (text : String)
deriving DecidableEq, Repr

/-- What comes back from a delivery. A failure to connect in time is one of time. -/
def Delivery.reply : Delivery → Reply
  | answered status body => .answer status body
  | failed true _ _ => .timeout
  | failed false true text => .unreachable text
  | failed false false text => .refused text
  | crashed text => .crashed text

/-- The path below the address of the service. -/
def executePath : String := "/execute"

namespace Client

/-- The address without the slashes at its end. -/
def base (c : Client) : String :=
  String.ofList ((c.endpoint.toList.reverse.dropWhile (· == '/')).reverse)

/-- The headers of requests. A credential is sent if there is one. -/
def headers (c : Client) : List (String × String) :=
  [("Content-Type", "application/json"), ("Accept", "application/json"), ("User-Agent", "synapse-engine/1.0")]
    ++ ((c.apiKey.filter fun k => !k.isEmpty).map fun k => ("Authorization", "Bearer " ++ k)).toList

/-- The timeout of a call: its own, unless there is none or it is zero. -/
def callTimeout (c : Client) (given : Option Seconds) : Seconds :=
  match given with
  | some t => if t.isZero then c.timeout else t
  | none => c.timeout

/-- The request that sends a program. -/
def request (c : Client) (timeout : Option Seconds) (source : String) : Request :=
  { method := "POST", url := c.base ++ executePath, source, timeout := c.callTimeout timeout, verify := c.verify,
    headers := c.headers, retries := c.retries, backoff := c.backoff }

/-! ### Replies -/

/-- A failure of a kind, without a line. -/
def report (kind : Kind) (message : String) : Report Float := ⟨kind.name, message, .null⟩

/-- No answer within a time. -/
def timedOut (timeout : Seconds) (detail : String) : Report Float :=
  report .timeout ("Remote execution timed out after " ++ timeout.text ++ "s"
    ++ if detail.isEmpty then "" else ": " ++ detail)

/-- The reason that an answer gives for its status: its field `detail`, or else its text. -/
def detail (body : String) : Except Misfit String :=
  match Payload.read body with
  | .ok (.object fields) => Fields.textOr fields ["detail"] body
  | _ => .ok body

/-- The failure that an error status stands for, with its reason. -/
def errorReport (c : Client) (status : Int) (detail : String) : Report Float :=
  if status = 408 || status = 504 then timedOut c.timeout detail
  else if status = 401 then report .unavailable ("Authentication failed: " ++ detail)
  else if status = 403 then report .unavailable ("Access denied: " ++ detail)
  else report .unavailable ("Compute service error (" ++ intText status ++ "): " ++ detail)

/-- The failure that a status stands for, from 400 to 599. A reason that cannot be written would be a fault of the
client. -/
def statusFailure (c : Client) (status : Int) (body : String) : Option (Report Float) :=
  if status < 400 || 600 ≤ status then none
  else
    match detail body with
    | .ok detail => some (c.errorReport status detail)
    | .error fault => some (report .internal fault.message)

/-- The result in the body of an answer. -/
def bodyResult (body : String) : Result Float :=
  match Payload.read body with
  | .error _ => .failure (report .unavailable "Compute service returned invalid JSON")
  | .ok (.object fields) =>
    match Result.ofFields (Result.merge fields) with
    | .ok r => r
    | .error (.outside fault) => .failure (report .internal fault.message)
    | .error refusal =>
      .failure (report .unavailable ("Invalid response from compute service: " ++ refusal.message))
  | .ok _ => .failure (report .unavailable "Compute service returned a non-object body")

/-- The result that a reply to a request becomes. -/
def result (c : Client) (r : Request) : Reply → Result Float
  | .timeout => .failure (timedOut r.timeout (r.method ++ " " ++ executePath))
  | .unreachable text =>
    .failure (report .unavailable ("Connection error to compute service " ++ c.endpoint ++ ": " ++ text))
  | .refused text =>
    .failure (report .unavailable ("Request failed: " ++ r.method ++ " " ++ executePath ++ ": " ++ text))
  | .crashed text => .failure (report .internal text)
  | .answer status body =>
    match c.statusFailure status body with
    | some failure => .failure failure
    | none => bodyResult body

/-- Has a program executed by the service: the result, and the requests that were sent. -/
def execute (c : Client) (transport : Request → Reply) (timeout : Option Seconds) (source : String) :
    Result Float × List Request :=
  let r := c.request timeout source
  (c.result r (transport r), [r])

end Client

end LabLang
