import CallAdmission.Ledger

/-!
# CallAdmission.Scenario.Answer

Scenarios drive the library step by step. Here are the answers that steps can give, and the steps
that act on one call.
-/

namespace CallAdmission.Scenario

/-- What a step answers. -/
inductive Answer where
  | nothing
  /-- a change was made -/
  | accepted
  | label (t : Ticket)
  | labels (ts : List Ticket)
  | limits (l : Limits)
  | counts (queued running : Nat)
  | truth (b : Bool)
  | text (s : String)
  /-- the outcome, if there is one yet -/
  | outcome (o : Option Outcome)
  | call (c : Call)
  | admitted (ts : List Ticket) (idle : Bool)
  | snapshot (s : Snapshot)
  /-- a run goes on -/
  | pending
  /-- the run of an admitted call has ended -/
  | ready
  /-- the run of a sync call has ended; the value goes with a good end -/
  | readySync (r : Result) (value : Json.Value)
  | refused (e : DispatchError)
  | panicked (message : String)
  /-- nothing of the needed kind is kept under the label -/
  | notHeld
  | noSuchCall
  | badStep
  /-- the event loop is gone -/
  | noLoop
  /-- the step took more turns than its player was given -/
  | exhausted

/-! ## steps on one call -/

/-- What can be done to one call. -/
inductive CallStep where
  | setRunning
  | setFinished (r : Result)
  | cancel
  /-- cancel through the call's token, and ask the token -/
  | cancelToken
  | wait
  | info
  | debug (pretty : Bool)
  /-- no known step -/
  | unknown (name : String)
deriving Repr

namespace CallStep

/-- The name of the step. -/
def name : CallStep → String
  | .setRunning => "set_running"
  | .setFinished _ => "set_finished"
  | .cancel => "cancel"
  | .cancelToken => "cancel_token"
  | .wait => "wait"
  | .info => "info"
  | .debug _ => "debug_call"
  | .unknown name => name

/-- The call after the step. -/
def apply (c : Call) : CallStep → Call
  | .setRunning => c.setRunning
  | .setFinished r => c.setFinished (.ofResult r)
  | .cancel | .cancelToken => c.cancel
  | .wait | .info | .debug _ | .unknown _ => c

/-- What the step answers, on the call as it is after the step. -/
def answer (t : Ticket) (c : Call) : CallStep → Answer
  | .setRunning | .setFinished _ | .cancel => .nothing
  | .cancelToken => .truth c.canceled
  | .wait => .outcome c.outcome?
  | .info => .call c
  | .debug pretty => .text ((c.layout (.plain (Ticket.label t))).write pretty)
  | .unknown _ => .badStep

end CallStep

/-- Take steps on one call; for each step its answer and the call after it. -/
def playCall (c : Call) : List CallStep → List (Answer × Call)
  | [] => []
  | s :: rest =>
    let c := s.apply c
    (s.answer 0 c, c) :: playCall c rest

end CallAdmission.Scenario
