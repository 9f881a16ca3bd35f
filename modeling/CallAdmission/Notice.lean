import CallAdmission.Host
import CallAdmission.Limits.Basic

/-!
# CallAdmission.Notice

What the library has to say about its work: one constructor for each kind of notice, with what the
notice tells. `Notice.level`, `Notice.source`, `Notice.message` and `Notice.fields` give the parts
of a log line.

Calls are told apart by their `Ticket`s, numbers in the order of submission.
-/

namespace CallAdmission

/-- The number that tells a call from all others of its dispatcher. -/
abbrev Ticket := Nat

/-- How a ticket is written in messages. -/
def Ticket.label (t : Ticket) : String := "#" ++ toString t

/-! ## parts of a log line -/

/-- How much a notice matters. -/
inductive Level where
  | error
  | warn
  | info
  | debug
  | trace
deriving DecidableEq, Repr

namespace Level

/-- The rank of a level: the less a notice matters, the higher. -/
def rank : Level → Nat
  | .error => 1
  | .warn => 2
  | .info => 3
  | .debug => 4
  | .trace => 5

/-- The word for the level. -/
def word : Level → String
  | .error => "ERROR"
  | .warn => "WARN"
  | .info => "INFO"
  | .debug => "DEBUG"
  | .trace => "TRACE"

end Level

/-- The part of the program that a notice comes from. -/
inductive Source where
  | counter
  | queue
  | dispatcher
  | completion
  | simulation
deriving DecidableEq, Repr

/-- The name under which a part of the program logs. -/
def Source.target : Source → String
  | .counter => "callgate::host"
  | .queue => "callgate::queue"
  | .dispatcher => "callgate::dispatcher"
  | .completion => "callgate::completion"
  | .simulation => "callgate_sim"

/-- A value that goes with a notice. -/
inductive Field where
  | number (n : Nat)
  | truth (b : Bool)
  | text (s : String)
  | call (t : Ticket)
deriving DecidableEq, Repr

/-! ## notices -/

/-- What is said about the work. -/
inductive Notice where
  /-- a call waits; so many calls hold a slot of its host's counter -/
  | enqueued (call : Ticket) (host : Host) (duplex : Bool) (hostRunning : Nat)
  | syncStarted (call : Ticket) (host : Host)
  | promoted (call : Ticket) (host : Host) (hostRunning : Nat)
  | finished (call : Ticket) (host : Host) (hostRunning : Nat)
  | syncFinished (call : Ticket)
  | notInFlight (call : Ticket)
  | syncNotInFlight (call : Ticket)
  | limitUpdated (limit : Limit) (value : UInt64)
  /-- an operation panicked while it held the lock of the queue; the lock is taken all the same -/
  | lockRecovered
  | belowZero
  | created (limits : Limits)
  | idle
  | cancelingAll (calls : Nat)
  | canceledBeforeStart (call : Ticket)
  | dropped (call : Ticket) (host : Host)
  | simulationStarted (calls hosts : Nat) (limits : Limits)
  /-- all calls of a simulation are submitted; the dispatcher stands as the text shows -/
  | allSubmitted (snapshot : String)
deriving DecidableEq, Repr

namespace Notice

/-- How much the notice matters. -/
def level : Notice → Level
  | .enqueued .. | .syncStarted .. | .promoted .. | .finished .. | .syncFinished _ => .debug
  | .notInFlight _ | .syncNotInFlight _ | .lockRecovered | .dropped .. => .error
  | .limitUpdated .. | .cancelingAll _ | .simulationStarted .. | .allSubmitted _ => .info
  | .belowZero => .warn
  | .created _ | .idle | .canceledBeforeStart _ => .debug

/-- The part of the program that says it. -/
def source : Notice → Source
  | .enqueued .. | .syncStarted .. | .promoted .. | .finished .. | .syncFinished _
  | .notInFlight _ | .syncNotInFlight _ | .limitUpdated .. | .lockRecovered => .queue
  | .belowZero => .counter
  | .created _ | .idle | .cancelingAll _ => .dispatcher
  | .canceledBeforeStart _ | .dropped .. => .completion
  | .simulationStarted .. | .allSubmitted _ => .simulation

/-- The wording. -/
def message : Notice → String
  | .enqueued .. => "Call enqueued"
  | .syncStarted .. => "Sync call started"
  | .promoted .. => "Call promoted"
  | .finished .. => "Call finished"
  | .syncFinished _ => "Sync call finished"
  | .notInFlight _ => "Async call finished but was not in flight"
  | .syncNotInFlight _ => "Sync call finished but was not in flight"
  | .limitUpdated .total _ => "Global limit updated"
  | .limitUpdated .perHost _ => "Per-host limit updated"
  | .lockRecovered => "Dispatcher state mutex poisoned - recovering"
  | .belowZero => "Host counter decremented below zero, ignoring"
  | .created _ => "Dispatcher created"
  | .idle => "Dispatcher idle"
  | .cancelingAll _ => "Canceling all calls"
  | .canceledBeforeStart _ => "Call canceled before start"
  | .dropped .. => "Completion dropped without reporting an outcome"
  | .simulationStarted .. => "Starting simulation"
  | .allSubmitted _ => "All calls submitted"

/-- The values of both limits. -/
def limitFields (l : Limits) : List (String × Field) :=
  [(Limit.total.name, .number l.maxRequests.toNat),
    (Limit.perHost.name, .number l.maxPerHost.toNat)]

/-- The values that go with the notice. -/
def fields : Notice → List (String × Field)
  | .enqueued call host duplex hostRunning =>
    [("call_id", .call call), ("host", .text host.name), ("duplex", .truth duplex),
      ("host_running", .number hostRunning)]
  | .promoted call host hostRunning | .finished call host hostRunning =>
    [("call_id", .call call), ("host", .text host.name), ("host_running", .number hostRunning)]
  | .syncStarted call host | .dropped call host =>
    [("call_id", .call call), ("host", .text host.name)]
  | .syncFinished call | .notInFlight call | .syncNotInFlight call | .canceledBeforeStart call =>
    [("call_id", .call call)]
  | .limitUpdated limit value => [(limit.name, .number value.toNat)]
  | .created limits => limitFields limits
  | .cancelingAll calls => [("calls", .number calls)]
  | .simulationStarted calls hosts limits =>
    [("calls", .number calls), ("hosts", .number hosts)] ++ limitFields limits
  | .allSubmitted snapshot => [("snapshot", .text snapshot)]
  | .lockRecovered | .belowZero | .idle => []

/-- One of the notice's values, or its wording, has the name. -/
def hasField (n : Notice) (name : String) : Bool :=
  name == "message" || n.fields.any (·.1 == name)

/-- The notice is about one call. -/
def isAboutCall (n : Notice) : Bool :=
  n.fields.any fun f => match f.2 with
    | .call _ => true
    | _ => false

end Notice

end CallAdmission
