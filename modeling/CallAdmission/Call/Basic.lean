import CallAdmission.Call.Outcome
import CallAdmission.Host

/-!
# CallAdmission.Call.Basic

A call as its submitter sees it: where it goes, how far it has come, whether cancellation was
asked for, and the message of its first failure.

The three changing parts follow rules of their own. `Call.setRunning` moves a queued call only;
`Call.setFinished` sets the status whatever it was and keeps the first failure message;
`Call.cancel` touches nothing but its own mark.
-/

namespace CallAdmission

/-- A call that is yet to be submitted. A duplex call is exempt from the per-host limit. -/
structure Request where
  host : Host
  duplex : Bool
deriving DecidableEq, Repr

/-- The request for diagnostics; the work it carries is left out. -/
def Request.layout (r : Request) : Text.Layout :=
  .record "CallRequest" [("host", r.host.layout), ("duplex", .truth r.duplex)] true

/-- A submitted call. -/
structure Call where
  host : Host
  duplex : Bool
  status : Status
  canceled : Bool := false
  error : Option String := none
deriving DecidableEq, Repr

namespace Call

/-- The call is running now, if it was queued. -/
def setRunning (c : Call) : Call :=
  if c.status = .queued then { c with status := .running } else c

/-- The call has ended so. Only the first failure message is kept. -/
def setFinished (c : Call) (o : Outcome) : Call :=
  let error :=
    match o with
    | .failed message => c.error <|> some message
    | _ => c.error
  { c with status := o.status, error }

/-- Cancellation is asked for. -/
def cancel (c : Call) : Call := { c with canceled := true }

/-- The outcome that a waiting submitter gets, once there is one. -/
def outcome? (c : Call) : Option Outcome :=
  match c.status with
  | .queued | .running => none
  | .succeeded => some .succeeded
  | .canceled => some .canceled
  | .failed => some (.failed (c.error.getD "Unknown error"))

/-- The call for diagnostics, under the written form of its identifier. -/
def layout (id : Text.Layout) (c : Call) : Text.Layout :=
  .record "Call"
    [("id", .wrapper "CallId" [id]), ("host", c.host.layout), ("duplex", .truth c.duplex),
      ("status", c.status.layout)] false

end Call

end CallAdmission
