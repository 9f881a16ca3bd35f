import CallAdmission.Dispatcher.Pass

/-!
# CallAdmission.Dispatcher.Step

The steps of a dispatcher. An `Action` is either an operation, which any code may ask for at any
time, or the way in which the innermost activity outside the dispatcher goes on. `step` is total
and never runs foreign code: where the executor, the callback or a task is to run, it puts a frame
on the stack and returns without a reply.

A run of an admitted call looks at the cancel mark first at every poll, and only then at the task.
-/

namespace CallAdmission.Dispatcher

/-! ## actions -/

/-- What is asked of a dispatcher. -/
inductive Action where
  | submit (r : Request)
  /-- submit a sync call and keep its guard -/
  | submitSync (host : Host)
  /-- make a run of a sync call, without polling it -/
  | executeSync (host : Host)
  /-- report the result of a held call -/
  | report (t : Ticket) (r : Result)
  /-- drop a held call -/
  | abandon (t : Ticket)
  /-- make a run of a held call, without polling it -/
  | openRun (t : Ticket)
  | pollRun (t : Ticket)
  | dropRun (t : Ticket)
  | pollSyncRun (t : Ticket)
  | dropSyncRun (t : Ticket)
  | finishGuard (t : Ticket) (r : Result)
  | dropGuard (t : Ticket)
  | setLimit (limit : Limit) (n : UInt64)
  | setIdle (idle : Option Callback)
  | cancel (t : Ticket)
  | cancelAll
  /-- the executor, the callback, or the making of a task returns -/
  | leave
  /-- the polled task is not ready -/
  | suspend
  /-- the polled task is ready -/
  | resolve (r : Result)
  /-- the innermost activity panics -/
  | panic (message : String)
deriving Repr

/-- Why an action cannot be taken. -/
inductive Refusal where
  /-- there is no such token -/
  | notHeld
  /-- there is no such call -/
  | noSuchCall
  /-- no activity outside the dispatcher goes on like this -/
  | noSuchActivity
deriving DecidableEq, Repr

/-! ## tokens -/

/-- Take a held call. -/
def takeHeld (d : Dispatcher) (t : Ticket) : Except Refusal Dispatcher :=
  if d.held.contains t then .ok { d with held := d.held.erase t } else .error .notHeld

/-- Take a guard. -/
def takeGuard (d : Dispatcher) (t : Ticket) : Except Refusal Dispatcher :=
  if d.guards.contains t then .ok { d with guards := d.guards.erase t } else .error .notHeld

/-- Take a run of an admitted call. -/
def takeRun (d : Dispatcher) (t : Ticket) : Except Refusal (Run × Dispatcher) :=
  match d.runs.find? (·.call == t) with
  | none => .error .notHeld
  | some r => .ok (r, { d with runs := d.runs.eraseP (·.call == t) })

/-- Take a run of a sync call. -/
def takeSyncRun (d : Dispatcher) (t : Ticket) : Except Refusal (SyncRun × Dispatcher) :=
  match d.syncRuns.find? (·.call == t) with
  | none => .error .notHeld
  | some r => .ok (r, { d with syncRuns := d.syncRuns.eraseP (·.call == t) })

/-! ## operations -/

/-- Submit a request. -/
def submit (d : Dispatcher) (r : Request) : Turn :=
  let t := d.next
  let (ledger, notices) := d.ledger.enqueue t r
  (requestPass { d with ledger, next := t + 1 } (.submitted t)).after (notices.map .said)

/-- Register a sync call that takes its slot now. -/
def register (d : Dispatcher) (t : Ticket) (host : Host) : Turn :=
  let (ledger, notices) := d.ledger.enqueueSync t host
  { dispatcher := { d with ledger }, events := notices.map .said }

/-- Submit a sync call and keep its guard. -/
def submitSync (d : Dispatcher) (host : Host) : Turn :=
  let t := d.next
  let r := register { d with next := t + 1, guards := d.guards ++ [t] } t host
  (r.dispatcher.answer (.submitted t)).after r.events

/-- Make a run of a sync call. -/
def executeSync (d : Dispatcher) (host : Host) : Turn :=
  let t := d.next
  answer { d with next := t + 1, syncRuns := d.syncRuns ++ [⟨t, host, false⟩] } (.submitted t)

/-- Poll the run of an admitted call, which was taken out before. -/
def poll (d : Dispatcher) (r : Run) : Turn :=
  let t := r.call
  match r.started, d.ledger.isCanceled t with
  | false, true =>
    (d.complete t .canceled (.ready (.ok ()))).after [.said (.canceledBeforeStart t)]
  | false, false => d.enter (.openTask t) [.taskOpened t]
  | true, true => (d.complete t .canceled (.ready (.ok ()))).after [.taskDropped t]
  | true, false => d.enter (.pollTask t) [.taskPolled t]

/-- Drop the run of an admitted call, which was taken out before. -/
def dropTaken (d : Dispatcher) (r : Run) : Turn :=
  (d.abandon r.call .done).after (if r.started then [.taskDropped r.call] else [])

/-- Poll the run of a sync call, which was taken out before. -/
def pollSync (d : Dispatcher) (r : SyncRun) : Turn :=
  let t := r.call
  match r.started with
  | false =>
    let s := d.register t r.host
    (s.dispatcher.enter (.pollSync t) [.taskPolled t]).after s.events
  | true =>
    if d.ledger.isCanceled t then
      (d.completeSync t .canceled (.ready (.error .canceled))).after [.taskDropped t]
    else d.enter (.pollSync t) [.taskPolled t]

/-- Drop the run of a sync call, which was taken out before. -/
def dropTakenSync (d : Dispatcher) (r : SyncRun) : Turn :=
  if r.started then (d.dropSlot r.call .done).after [.taskDropped r.call] else d.answer .done

/-- Change a limit. -/
def setLimit (d : Dispatcher) (limit : Limit) (n : UInt64) : Turn :=
  match d.ledger.setLimit limit n with
  | .error e => d.answer (.refused e)
  | .ok (ledger, notices) => (requestPass { d with ledger } .done).after (notices.map .said)

/-- Ask for the cancellation of every call that waits or runs. -/
def cancelAll (d : Dispatcher) : Turn :=
  let calls := d.ledger.queue.allCalls
  let r := d.markAllCanceled calls
  (r.dispatcher.answer .done).after (.said (.cancelingAll calls.length) :: r.events)

/-! ## the innermost activity -/

/-- The innermost activity returns. -/
def leave (d : Dispatcher) : Except Refusal Turn :=
  match d.stack with
  | .execute _ rest idle reply :: stack => .ok (resume { d with stack } rest idle reply)
  | .idle _ reply :: stack => .ok (round { d with stack } reply)
  | .openTask t :: stack =>
    let d := { d with stack }
    .ok (if d.ledger.isCanceled t then
        (d.complete t .canceled (.ready (.ok ()))).after [.taskDropped t]
      else d.enter (.pollTask t) [.taskPolled t])
  | _ => .error .noSuchActivity

/-- The polled task is not ready. -/
def suspend (d : Dispatcher) : Except Refusal Turn :=
  match d.stack with
  | .pollTask t :: stack =>
    .ok (answer { d with stack, runs := d.runs ++ [⟨t, true⟩] } .pending)
  | .pollSync t :: stack =>
    let run : SyncRun := ⟨t, d.ledger.host t, true⟩
    .ok (answer { d with stack, syncRuns := d.syncRuns ++ [run] } .pending)
  | _ => .error .noSuchActivity

/-- The polled task is ready. -/
def resolve (d : Dispatcher) (r : Result) : Except Refusal Turn :=
  match d.stack with
  | .pollTask t :: stack => .ok (complete { d with stack } t (.ofResult r) (.ready (.ok ())))
  | .pollSync t :: stack => .ok (completeSync { d with stack } t (.ofResult r) (.ready r))
  | _ => .error .noSuchActivity

/-- The innermost activity panics. -/
def panic (d : Dispatcher) (message : String) : Except Refusal Turn :=
  match d.stack with
  | .execute _ rest _ _ :: stack => .ok (unwind { d with stack } rest message)
  | .idle _ _ :: stack => .ok (unwind { d with stack } [] message)
  | .openTask t :: stack => .ok (abandon { d with stack } t (.panicked message))
  | .pollTask t :: stack =>
    .ok ((abandon { d with stack } t (.panicked message)).after [.taskDropped t])
  | .pollSync t :: stack =>
    .ok ((dropSlot { d with stack } t (.panicked message)).after [.taskDropped t])
  | [] => .error .noSuchActivity

/-! ## one step -/

/-- Take an action. -/
def step (d : Dispatcher) : Action → Except Refusal Turn
  | .submit r => .ok (d.submit r)
  | .submitSync host => .ok (d.submitSync host)
  | .executeSync host => .ok (d.executeSync host)
  | .report t r => return (← d.takeHeld t).complete t (.ofResult r) .done
  | .abandon t => return (← d.takeHeld t).abandon t .done
  | .openRun t => do
    let d ← d.takeHeld t
    return answer { d with runs := d.runs ++ [⟨t, false⟩] } .done
  | .pollRun t => do
    let (r, d) ← d.takeRun t
    return d.poll r
  | .dropRun t => do
    let (r, d) ← d.takeRun t
    return d.dropTaken r
  | .pollSyncRun t => do
    let (r, d) ← d.takeSyncRun t
    return d.pollSync r
  | .dropSyncRun t => do
    let (r, d) ← d.takeSyncRun t
    return d.dropTakenSync r
  | .finishGuard t r => return (← d.takeGuard t).completeSync t (.ofResult r) .done
  | .dropGuard t => return (← d.takeGuard t).dropSlot t .done
  | .setLimit limit n => .ok (d.setLimit limit n)
  | .setIdle idle => .ok (answer { d with ledger := d.ledger.setIdle idle } .done)
  | .cancel t =>
    if (d.ledger.call? t).isNone then .error .noSuchCall
    else
      let r := d.markCanceled t
      .ok ((r.dispatcher.answer .done).after r.events)
  | .cancelAll => .ok d.cancelAll
  | .leave => d.leave
  | .suspend => d.suspend
  | .resolve r => d.resolve r
  | .panic message => d.panic message

end CallAdmission.Dispatcher
