import CallAdmission.Dispatcher.Step
import CallAdmission.Scenario.EventLoop
import CallAdmission.Scenario.Script

/-!
# CallAdmission.Scenario.Stage

What a scenario on a dispatcher works with: the dispatcher, the scripts of its calls and of its idle
callbacks, the executor, and a record of what happens. `Stage.take` takes an action and records the
events of the step.
-/

namespace CallAdmission.Scenario

/-- What happens in a scenario, as it is recorded. -/
inductive Happening where
  /-- the executor receives a call -/
  | execute (t : Ticket)
  /-- a task starts -/
  | task (t : Ticket) (canceled : Bool)
  | taskEnd (t : Ticket)
  | taskDrop (t : Ticket)
  | idle (tag : String)
  /-- a step of a script was taken -/
  | nested (name : String) (answer : Answer)
  | log (n : Notice)

/-- Which executor the dispatcher has. -/
inductive Executor where
  /-- the scripts say what is done with each call -/
  | manual
  /-- each call's run becomes a task -/
  | eventLoop
deriving DecidableEq, Repr

/-- How far a call's task has come. -/
inductive Phase where
  | fresh
  | asleep
  /-- the steps are taken; pending for so many polls -/
  | spinning (polls : Nat)
  /-- waits for the call's cancellation -/
  | waiting
  | over
deriving DecidableEq, Repr

/-- The script of a call. -/
structure Plan where
  handling : Handling Step := {}
  work : Work Step := {}
  value : Json.Value := .null
  phase : Phase := .fresh

/-- An idle callback, with the number of times it was invoked. -/
structure IdlePlan where
  script : IdleScript Step
  invoked : Nat := 0

/-- What a scenario works with. -/
structure Stage where
  dispatcher : Dispatcher
  executor : Executor
  /-- notices are recorded -/
  trace : Bool
  /-- the scripts of calls, by ticket -/
  plans : Array Plan := #[]
  callbacks : Array IdlePlan := #[]
  /-- the calls that the executor is dealing with -/
  inHand : List Ticket := []
  eventLoop : EventLoop := {}
  /-- the event loop was shut down -/
  shutDown : Bool := false
  /-- what has happened in the step at hand -/
  happenings : Array Happening := #[]

namespace Stage

/-- The ledger of the dispatcher. -/
def ledger (s : Stage) : Ledger := s.dispatcher.ledger

/-- The calls that the executor keeps. -/
def kept (s : Stage) : List Ticket := s.dispatcher.held.filter fun t => !s.inHand.contains t

/-- The runs that the scenario keeps; an event loop keeps those of admitted calls to itself. -/
def openRuns (s : Stage) : List Ticket :=
  match s.executor with
  | .manual => s.dispatcher.runs.map (·.call)
  | .eventLoop => []

/-- The runs of sync calls that the scenario keeps. -/
def openSyncRuns (s : Stage) : List Ticket := s.dispatcher.syncRuns.map (·.call)

/-- The run of a sync call was polled before. -/
def isStarted (s : Stage) (t : Ticket) : Bool :=
  s.dispatcher.syncRuns.any fun r => r.call == t && r.started

/-- The script of a call. -/
def plan (s : Stage) (t : Ticket) : Plan := s.plans.getD t {}

/-- Note how far a call's task has come. -/
def setPhase (s : Stage) (t : Ticket) (phase : Phase) : Stage :=
  { s with plans := s.plans.modify t fun p => { p with phase } }

/-- Note what happens. -/
def note (s : Stage) (h : Happening) : Stage := { s with happenings := s.happenings.push h }

/-- Take an event of the dispatcher into account. -/
def observe (s : Stage) : Dispatcher.Event → Stage
  | .said n => if s.trace then s.note (.log n) else s
  | .canceled t => { s with eventLoop := s.eventLoop.wake t }
  | .taskDropped t =>
    let s := { s with eventLoop := s.eventLoop.forget t }
    match (s.plan t).phase with
    | .fresh | .over => s
    | .asleep | .spinning _ | .waiting => (s.setPhase t .over).note (.taskDrop t)
  | .passRequested | .passStarted | .handedOver _ | .idleInvoked _ | .taskOpened _
  | .taskPolled _ => s

/-- Take an action; the stage and the turn after it. -/
def take (s : Stage) (a : Dispatcher.Action) :
    Except Dispatcher.Refusal (Stage × Dispatcher.Turn) := do
  let turn ← s.dispatcher.step a
  return (turn.events.foldl observe { s with dispatcher := turn.dispatcher }, turn)

/-- A dispatcher with a given executor; one on an event loop cannot do without the loop. -/
def create (limits : Limits) (executor : Executor) (hasLoop trace : Bool) :
    Except DispatchError Stage := do
  if executor = .eventLoop ∧ !hasLoop then throw .noRuntime
  let (dispatcher, notices) ← Dispatcher.create limits
  return (notices.map .said).foldl observe { dispatcher, executor, trace }

end Stage

end CallAdmission.Scenario
