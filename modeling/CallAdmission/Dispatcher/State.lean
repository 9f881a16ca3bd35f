import CallAdmission.Ledger

/-!
# CallAdmission.Dispatcher.State

A dispatcher between two steps. Beside the ledger there are

* the latch of the promotion pass: whether a pass is under way, and whether another one is wanted;
* the tokens of running calls: admitted calls that the executor holds, runs of admitted calls,
  guards of sync calls, and runs of sync calls; a call is ended by the token that it has;
* the stack of activities that have handed control to code outside the dispatcher: the executor,
  the idle callback, or a call's task.
-/

namespace CallAdmission.Dispatcher

/-! ## replies and events -/

/-- What an operation comes to. -/
inductive Reply where
  | done
  | submitted (t : Ticket)
  /-- a run has ended so -/
  | ready (r : Result)
  /-- a run goes on -/
  | pending
  | refused (e : DispatchError)
  /-- the operation did not end: it was left by a panic -/
  | panicked (message : String)
deriving Repr

/-- Something that happens in a step. -/
inductive Event where
  | said (n : Notice)
  /-- a promotion pass is wanted -/
  | passRequested
  | passStarted
  /-- the executor is given a call -/
  | handedOver (t : Ticket)
  | idleInvoked (idle : Callback)
  /-- the call's work is asked for its task -/
  | taskOpened (t : Ticket)
  | taskPolled (t : Ticket)
  /-- the call's task is dropped before it ended -/
  | taskDropped (t : Ticket)
  /-- a call's cancellation is asked for, for the first time -/
  | canceled (t : Ticket)
deriving Repr

/-! ## activities -/

/-- An activity that has handed control to code outside the dispatcher. An activity of a pass
carries the reply of the operation that started the pass. -/
inductive Frame where
  /-- the executor has been given a call; further calls of the pass follow, then the callback -/
  | execute (t : Ticket) (rest : List Ticket) (idle : Option Callback) (reply : Reply)
  | idle (idle : Callback) (reply : Reply)
  /-- the call's work makes its task -/
  | openTask (t : Ticket)
  | pollTask (t : Ticket)
  /-- the work of a sync call is polled -/
  | pollSync (t : Ticket)
deriving Repr

/-- The activity belongs to a promotion pass. -/
def Frame.isPass : Frame → Bool
  | .execute .. | .idle .. => true
  | .openTask _ | .pollTask _ | .pollSync _ => false

/-! ## runs -/

/-- A run of an admitted call. -/
structure Run where
  call : Ticket
  /-- the run was polled before -/
  started : Bool
deriving DecidableEq, Repr

/-- A run of a sync call. The call is submitted when the run is polled for the first time. -/
structure SyncRun where
  call : Ticket
  host : Host
  started : Bool
deriving DecidableEq, Repr

end Dispatcher

/-- A dispatcher between two steps. -/
structure Dispatcher where
  ledger : Ledger
  /-- a promotion pass is under way -/
  promoting : Bool := false
  /-- a promotion pass is wanted -/
  pending : Bool := false
  /-- the next call's ticket -/
  next : Ticket := 0
  /-- the admitted calls that the executor holds -/
  held : List Ticket := []
  runs : List Dispatcher.Run := []
  guards : List Ticket := []
  syncRuns : List Dispatcher.SyncRun := []
  /-- the activities outside the dispatcher, the innermost first -/
  stack : List Dispatcher.Frame := []
deriving Repr

namespace Dispatcher

/-- A dispatcher for valid limits, and what is said of it. -/
def create (limits : Limits) : Except DispatchError (Dispatcher × List Notice) := do
  limits.validate
  return ({ ledger := { queue := { limits } } }, [.created limits])

/-! ## for diagnostics -/

/-- The dispatcher for diagnostics. -/
def layout (d : Dispatcher) : Text.Layout :=
  .record "Dispatcher" [("snapshot", d.ledger.queue.snapshot.layout)] false

/-- A call for diagnostics. -/
def callLayout? (d : Dispatcher) (t : Ticket) : Option Text.Layout :=
  (d.ledger.call? t).map (·.layout (.plain (Ticket.label t)))

/-- A guard for diagnostics. -/
def guardLayout? (d : Dispatcher) (t : Ticket) : Option Text.Layout :=
  if d.guards.contains t then
    (d.callLayout? t).map fun call => .record "SyncCallGuard" [("call", call)] false
  else none

/-- A held call for diagnostics; its task is left out. -/
def heldLayout? (d : Dispatcher) (t : Ticket) : Option Text.Layout :=
  if d.held.contains t then
    (d.callLayout? t).map fun call => .record "AdmittedCall" [("call", call)] true
  else none

/-- The part of a held call that reports its result, for diagnostics. -/
def completionLayout? (d : Dispatcher) (t : Ticket) : Option Text.Layout :=
  if d.held.contains t then
    (d.callLayout? t).map fun call =>
      .record "Completion" [("call", call), ("reported", .truth false)] false
  else none

end Dispatcher

end CallAdmission
