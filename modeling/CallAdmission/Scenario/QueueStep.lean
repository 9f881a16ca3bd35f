import CallAdmission.Scenario.Answer

/-!
# CallAdmission.Scenario.QueueStep

Steps on an admission queue. Calls are labelled in the order in which they are enqueued. The queue
itself takes any ticket (`step`, `turns`); a scenario only names calls that there are, and other
labels are sorted out before (`play`).

The queue is behind a lock. An operation that panics while it holds the lock poisons it; from then on
it is taken all the same, and every time this is said. A scenario does not report that.
-/

namespace CallAdmission.Scenario

/-- What can be done to a queue. -/
inductive QueueStep where
  | enqueue (r : Request) (count : Nat)
  | enqueueSync (host : Host)
  | promote
  /-- give back the slot of an admitted call -/
  | finish (t : Ticket)
  | finishSync (t : Ticket)
  | setLimit (limit : Limit) (n : UInt64)
  | limits
  | setIdle (on : Bool)
  | allCalls
  | queuedCalls
  | runningCalls
  /-- how many calls wait, and how many run -/
  | counts
  | snapshot
  /-- an arrival that panics behind the lock, when one of its steps is to be taken -/
  | brokenArrival (r : Request) (step : Ledger.ArrivalStep) (message : String)
  | onCall (t : Ticket) (s : CallStep)
deriving Repr

namespace QueueStep

/-- An arrival that panics when it is announced. A scenario tells no more of it than the message. -/
def abortedArrival (message : String) : QueueStep :=
  .brokenArrival ⟨default, false⟩ .announce message

/-- The call that a step names. -/
def named? : QueueStep → Option Ticket
  | .finish t | .finishSync t | .onCall t _ => some t
  | _ => none

end QueueStep

/-- A queue, with the label of the next call. -/
structure QueueStage where
  ledger : Ledger
  next : Ticket := 0
  /-- an operation panicked while it held the lock -/
  poisoned : Bool := false
deriving DecidableEq, Repr

/-- What a step does. -/
structure QueueTurn where
  stage : QueueStage
  answer : Answer
  notices : List Notice := []
  /-- what is said of the poisoned lock -/
  recovery : List Notice := []

namespace QueueStage

/-- A queue with given limits, valid or not. -/
def create (limits : Limits) : QueueStage := { ledger := { queue := { limits } } }

/-- Enqueue a request a number of times. -/
def enqueueMany (s : QueueStage) (r : Request) : Nat → QueueStage × List Notice
  | 0 => (s, [])
  | count + 1 =>
    let (ledger, notices) := s.ledger.enqueue s.next r
    let (s, more) := enqueueMany { s with ledger, next := s.next + 1 } r count
    (s, notices ++ more)

/-- Answer a step that changes nothing. -/
def reply (s : QueueStage) (answer : Answer) : QueueTurn := { stage := s, answer }

/-- A step that gives back a slot. A call that has none to give back is a bug of whoever ends it. -/
def finishWith (s : QueueStage) (t : Ticket) : Option Ledger × List Notice → QueueTurn
  | (none, notices) => { s.reply (.panicked (Ledger.notInFlightMessage t)) with notices }
  | (some ledger, notices) => { stage := { s with ledger }, answer := .nothing, notices }

/-- An arrival panics when one of its steps is to be taken; the steps before were taken. -/
def breakOff (s : QueueStage) (r : Request) (step : Ledger.ArrivalStep) (message : String) :
    QueueTurn :=
  let a := s.ledger.breakOff s.next r step
  { stage := { s with ledger := a.ledger, poisoned := true }
    answer := .panicked message
    notices := a.notices }

/-- How often a step takes the lock. A limit is checked before that; a call is behind a lock of its
own. -/
def lockings : QueueStep → Nat
  | .enqueue _ count => count
  | .limits | .counts => 2
  | .setLimit limit n => if (Limits.check limit n).isOk then 1 else 0
  | .onCall .. => 0
  | .enqueueSync _ | .promote | .finish _ | .finishSync _ | .setIdle _ | .allCalls | .queuedCalls
  | .runningCalls | .snapshot | .brokenArrival .. => 1

/-- Take the lock for a step, poisoned or not. -/
def recovery (s : QueueStage) (step : QueueStep) : List Notice :=
  if s.poisoned then List.replicate (lockings step) .lockRecovered else []

/-- Take a step behind the lock. -/
def perform (s : QueueStage) : QueueStep → QueueTurn
  | .enqueue r count =>
    let (stage, notices) := s.enqueueMany r count
    { stage, answer := .label s.next, notices }
  | .enqueueSync host =>
    let (ledger, notices) := s.ledger.enqueueSync s.next host
    { stage := { s with ledger, next := s.next + 1 }, answer := .label s.next, notices }
  | .promote =>
    let p := s.ledger.promote
    { stage := { s with ledger := p.ledger }
      answer := .admitted p.admitted p.idle.isSome
      notices := p.notices }
  | .finish t => s.finishWith t (s.ledger.release t)
  | .finishSync t => s.finishWith t (s.ledger.releaseSync t)
  | .setLimit limit n =>
    match s.ledger.setLimit limit n with
    | .error e => s.reply (.refused e)
    | .ok (ledger, notices) => { stage := { s with ledger }, answer := .accepted, notices }
  | .limits => s.reply (.limits s.ledger.queue.limits)
  | .setIdle on =>
    let idle := if on then some 0 else none
    reply { s with ledger := s.ledger.setIdle idle } .nothing
  | .allCalls => s.reply (.labels s.ledger.queue.allCalls)
  | .queuedCalls => s.reply (.labels s.ledger.queue.queuedCalls)
  | .runningCalls => s.reply (.labels s.ledger.queue.runningCalls)
  | .counts => s.reply (.counts s.ledger.queue.queuedCount s.ledger.queue.runningCount)
  | .snapshot => s.reply (.snapshot s.ledger.queue.snapshot)
  | .brokenArrival r step message => s.breakOff r step message
  | .onCall t c =>
    match s.ledger.call? t with
    | none => s.reply .noSuchCall
    | some call =>
      let ledger := s.ledger.updateCall t c.apply
      reply { s with ledger } (c.answer t (c.apply call))

/-- Take a step. -/
def step (s : QueueStage) (step : QueueStep) : QueueTurn :=
  { s.perform step with recovery := s.recovery step }

/-- Take steps; for each step what it does. -/
def turns (s : QueueStage) : List QueueStep → List QueueTurn
  | [] => []
  | step :: rest =>
    let turn := s.step step
    turn :: turn.stage.turns rest

/-- Take a step of a scenario. Scenarios name calls by labels; a label that no call has is answered
without the queue. -/
def stepNamed (s : QueueStage) (step : QueueStep) : QueueTurn :=
  if step.named?.all fun t => (s.ledger.call? t).isSome then s.step step else s.reply .noSuchCall

/-- Take the steps of a scenario; for each step what it does. -/
def play (s : QueueStage) : List QueueStep → List QueueTurn
  | [] => []
  | step :: rest =>
    let turn := s.stepNamed step
    turn :: turn.stage.play rest

end QueueStage

/-! ## a counter on its own -/

/-- What can be done to a counter. -/
inductive CounterStep where
  | increment
  | decrement
  | get
  | text
  | debug
deriving DecidableEq, Repr

/-- What a step on a counter answers. -/
inductive CounterAnswer where
  | number (n : Nat)
  | text (s : String)
deriving DecidableEq, Repr

/-- Take a step on a counter: the counter after it, the answer, and what is said. -/
def CounterStep.apply (c : Counter) : CounterStep → Counter × CounterAnswer × List Notice
  | .increment => (c.increment, .number c.increment.running, [])
  | .decrement => (c.decrement, .number c.decrement.running, c.decrementNotices)
  | .get => (c, .number c.running, [])
  | .text => (c, .text c.text, [])
  | .debug => (c, .text c.layout.inline, [])

/-- Take steps on a counter: the last counter, the answers, and what is said. -/
def playCounter (c : Counter) : List CounterStep → Counter × List CounterAnswer × List Notice
  | [] => (c, [], [])
  | s :: rest =>
    let (c, answer, notices) := s.apply c
    let (c, answers, more) := playCounter c rest
    (c, answer :: answers, notices ++ more)

end CallAdmission.Scenario
