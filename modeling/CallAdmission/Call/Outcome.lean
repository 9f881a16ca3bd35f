import CallAdmission.Json.Value
import CallAdmission.Text.Layout

/-!
# CallAdmission.Call.Outcome

How far a call has come (`Status`), what can go wrong with it (`CallError`), and how it ended as
its submitter sees it (`Outcome`).
-/

namespace CallAdmission

/-! ## status -/

/-- How far a call has come. -/
inductive Status where
  | queued
  | running
  | succeeded
  | failed
  | canceled
deriving DecidableEq, Repr, Inhabited

namespace Status

/-- A call with such a status has ended. -/
def isTerminal : Status → Bool
  | .queued | .running => false
  | .succeeded | .failed | .canceled => true

/-- The word for the status. -/
def word : Status → String
  | .queued => "queued"
  | .running => "running"
  | .succeeded => "succeeded"
  | .failed => "failed"
  | .canceled => "canceled"

/-- The status that a word stands for. -/
def ofWord? : String → Option Status
  | "queued" => some .queued
  | "running" => some .running
  | "succeeded" => some .succeeded
  | "failed" => some .failed
  | "canceled" => some .canceled
  | _ => none

/-- The status for diagnostics. -/
def layout : Status → Text.Layout
  | .queued => .plain "Queued"
  | .running => .plain "Running"
  | .succeeded => .plain "Succeeded"
  | .failed => .plain "Failed"
  | .canceled => .plain "Canceled"

/-- The status as JSON: its word. -/
def toJson (s : Status) : Json.Value := .text s.word

/-- A status is read from its word, or from an object whose one member is the word with `null`. -/
def ofJson? : Json.Value → Option Status
  | .string s => (Json.toText? s).bind ofWord?
  | .object [(key, .null)] => (Json.toText? key).bind ofWord?
  | _ => none

end Status

/-! ## errors -/

/-- What a call's own work, or the executor running it, reports as an error. -/
inductive CallError where
  | failed (message : String)
  | canceled
  /-- the call was dropped without a report -/
  | abandoned
deriving DecidableEq, Repr

namespace CallError

/-- The wording of the error. -/
def message : CallError → String
  | .failed message => message
  | .canceled => "Call canceled"
  | .abandoned => "Call abandoned by executor"

/-- The error for diagnostics. -/
def layout : CallError → Text.Layout
  | .failed message => .wrapper "Failed" [.quoted message]
  | .canceled => .plain "Canceled"
  | .abandoned => .plain "Abandoned"

end CallError

/-- What a call's work comes to: nothing, or an error. -/
abbrev Result := Except CallError Unit

/-- A result for diagnostics. -/
def Result.layout : Result → Text.Layout
  | .ok () => .wrapper "Ok" [.plain "()"]
  | .error e => .wrapper "Err" [e.layout]

/-! ## outcomes -/

/-- How a call ended. -/
inductive Outcome where
  | succeeded
  | failed (message : String)
  | canceled
deriving DecidableEq, Repr

namespace Outcome

/-- The outcome of a result: a cancellation is an outcome of its own, every other error a failure
with the error's wording. -/
def ofResult : Result → Outcome
  | .ok () => .succeeded
  | .error .canceled => .canceled
  | .error e => .failed e.message

/-- The status of a call that ended so. -/
def status : Outcome → Status
  | .succeeded => .succeeded
  | .failed _ => .failed
  | .canceled => .canceled

/-- The outcome for diagnostics. -/
def layout : Outcome → Text.Layout
  | .succeeded => .plain "Succeeded"
  | .failed message => .wrapper "Failed" [.quoted message]
  | .canceled => .plain "Canceled"

/-- An outcome's status is terminal. -/
theorem isTerminal_status (o : Outcome) : o.status.isTerminal = true := by
  cases o <;> rfl

end Outcome

end CallAdmission
