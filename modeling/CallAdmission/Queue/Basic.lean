import CallAdmission.Queue.Counter

/-!
# CallAdmission.Queue.Basic

The admission queue. Calls wait in arrival order; `promote` admits those that the limits allow.
A waiting call whose host is full is passed over and keeps its place. Sync calls, which their
submitters carry out themselves, never wait: they take a slot of the total limit and no more.

The queue is not told how many calls to a host are running; it reads that off the counter that the
calls share.

* `scan` — the promotion scan, by recursion on the waiting calls.
-/

namespace CallAdmission

/-- The number that tells an idle callback from all others. -/
abbrev Callback := Nat

/-- A call in the queue. -/
structure Entry where
  call : Ticket
  host : Host
  duplex : Bool
  /-- the name of the call's counter -/
  counter : Ticket
deriving DecidableEq, Repr

/-- The admission queue. -/
structure Queue where
  limits : Limits
  /-- the calls that wait, in order of arrival -/
  ready : List Entry := []
  /-- the admitted calls, in order of admission -/
  running : List Entry := []
  /-- the running sync calls -/
  sync : List Ticket := []
  counters : Counters := {}
  /-- what is called when nothing runs any more -/
  idle : Option Callback := none
  /-- something has run since the idle callback was last due -/
  busy : Bool := false
deriving DecidableEq, Repr

namespace Queue

/-- How many calls run. -/
def runningCount (q : Queue) : Nat := q.running.length + q.sync.length

/-- How many calls wait. -/
def queuedCount (q : Queue) : Nat := q.ready.length

/-- The calls that wait. -/
def queuedCalls (q : Queue) : List Ticket := q.ready.map (·.call)

/-- The calls that run, sync calls first. -/
def runningCalls (q : Queue) : List Ticket := q.sync ++ q.running.map (·.call)

/-- All calls: those that wait, those that were admitted, sync calls. -/
def allCalls (q : Queue) : List Ticket := q.queuedCalls ++ q.running.map (·.call) ++ q.sync

/-! ## arrival -/

/-- The entry counts against the host's limit. -/
def isLimited (host : Host) (e : Entry) : Bool := !e.duplex && e.host == host

/-- The counter that the calls to a host share, if there is any such call. -/
def sharedCounter (q : Queue) (host : Host) : Option Ticket :=
  ((q.running ++ q.ready).find? (isLimited host)).map (·.counter)

/-- The name of the counter that a new call uses. -/
def counterFor (q : Queue) (call : Ticket) (host : Host) (duplex : Bool) : Ticket :=
  if duplex then call else (q.sharedCounter host).getD call

/-- Put a call behind those that wait. -/
@[simp] def push (q : Queue) (e : Entry) : Queue := { q with ready := q.ready ++ [e] }

/-- A call arrives and waits. -/
def enqueue (q : Queue) (call : Ticket) (host : Host) (duplex : Bool) : Queue :=
  q.push ⟨call, host, duplex, q.counterFor call host duplex⟩

/-- A sync call arrives and runs. -/
def enqueueSync (q : Queue) (call : Ticket) : Queue :=
  { q with sync := q.sync ++ [call], busy := true }

/-! ## promotion -/

/-- There is room under the total limit. -/
def hasRoom (q : Queue) : Bool := q.runningCount < q.limits.maxRequests.toNat

/-- The call's host is full, and the call counts against its limit. -/
def isSaturated (q : Queue) (e : Entry) : Bool :=
  !e.duplex && q.limits.maxPerHost.toNat ≤ (q.counters.get e.counter).running

/-- A call that leaves the waiting ones for the running ones. -/
structure Admission where
  entry : Entry
  /-- the call's counter with the call in it -/
  hostRunning : Nat
deriving DecidableEq, Repr

/-- Let a call run. -/
def letIn (q : Queue) (e : Entry) : Queue :=
  { q with
    running := q.running ++ [e]
    counters := q.counters.set e.counter (q.counters.get e.counter).increment }

/-- The counter of a call that is about to run, with the call in it. -/
def admission (q : Queue) (e : Entry) : Admission :=
  ⟨e, (q.counters.get e.counter).increment.running⟩

/-- Go through waiting calls from the first on while there is room: admit a call unless its host
is full. The result is the queue with the admitted calls running, the admissions, and the calls
that go on waiting. -/
def scan (q : Queue) : List Entry → Queue × List Admission × List Entry
  | [] => (q, [], [])
  | e :: rest =>
    if q.hasRoom then
      if q.isSaturated e then
        let r := scan q rest
        (r.1, r.2.1, e :: r.2.2)
      else
        let r := scan (q.letIn e) rest
        (r.1, q.admission e :: r.2.1, r.2.2)
    else (q, [], e :: rest)

/-- The idle callback, if it is due: nothing runs, and something has run since it was last due. -/
def dueIdle (q : Queue) : Option Callback :=
  if q.runningCount = 0 ∧ q.busy then q.idle else none

/-- Nothing is due any more. -/
def settle (q : Queue) : Queue :=
  if q.runningCount = 0 then { q with busy := false } else q

/-- What a promotion pass comes to. -/
structure Promotion where
  queue : Queue
  admitted : List Admission
  idle : Option Callback
deriving DecidableEq, Repr

/-- Admit every call that the limits allow, and see whether the idle callback is due. -/
def promote (q : Queue) : Promotion :=
  let r := q.scan q.ready
  let q' : Queue := { r.1 with ready := r.2.2, busy := r.1.busy || !r.2.1.isEmpty }
  ⟨q'.settle, r.2.1, q'.dueIdle⟩

/-! ## departure -/

/-- A call that leaves the running ones. -/
structure Departure where
  queue : Queue
  entry : Entry
  /-- the call's counter before it left -/
  counter : Counter
deriving DecidableEq, Repr

/-- An admitted call has ended; there is no departure if it was not running. -/
def finish? (q : Queue) (call : Ticket) : Option Departure := do
  let e ← q.running.find? (·.call == call)
  let c := q.counters.get e.counter
  return {
    queue :=
      { q with
        running := q.running.eraseP (·.call == call)
        counters := q.counters.set e.counter c.decrement }
    entry := e
    counter := c }

/-- A sync call has ended; there is no queue if it was not running. -/
def finishSync? (q : Queue) (call : Ticket) : Option Queue :=
  if q.sync.contains call then some { q with sync := q.sync.erase call } else none

/-! ## settings -/

/-- Change a limit; a value below one is refused. -/
def setLimit (q : Queue) (limit : Limit) (n : UInt64) : Except DispatchError Queue := do
  Limits.check limit n
  return { q with limits := q.limits.set limit n }

/-- Replace the idle callback. -/
def setIdle (q : Queue) (idle : Option Callback) : Queue := { q with idle }

end Queue

end CallAdmission
