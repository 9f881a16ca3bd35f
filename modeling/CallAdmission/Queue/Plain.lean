import CallAdmission.Queue.Snapshot

/-!
# CallAdmission.Queue.Plain

The rules of admission without counters: how many calls to a host are running is counted in the list
of running calls. `Queue.plain` forgets the counters of a queue.
-/

namespace CallAdmission

/-- A call of a queue. -/
structure Member where
  call : Ticket
  host : Host
  duplex : Bool
deriving DecidableEq, Repr

/-- The member that an entry stands for. -/
def Entry.member (e : Entry) : Member := ⟨e.call, e.host, e.duplex⟩

/-- An admission queue without counters. -/
structure PlainQueue where
  limits : Limits
  ready : List Member := []
  running : List Member := []
  sync : List Ticket := []
  idle : Option Callback := none
  busy : Bool := false
deriving DecidableEq, Repr

/-- A queue without its counters. -/
def Queue.plain (q : Queue) : PlainQueue where
  limits := q.limits
  ready := q.ready.map (·.member)
  running := q.running.map (·.member)
  sync := q.sync
  idle := q.idle
  busy := q.busy

namespace PlainQueue

/-! ## counts -/

/-- How many calls run. -/
def runningCount (q : PlainQueue) : Nat := q.running.length + q.sync.length

/-- The calls to a host that run and are not duplex, in number. -/
def hostCount (q : PlainQueue) (host : Host) : Nat :=
  q.running.countP fun m => !m.duplex && m.host == host

/-- The calls that wait. -/
def queuedCalls (q : PlainQueue) : List Ticket := q.ready.map (·.call)

/-- The calls that run, sync calls first. -/
def runningCalls (q : PlainQueue) : List Ticket := q.sync ++ q.running.map (·.call)

/-- All calls: those that wait, those that were admitted, sync calls. -/
def allCalls (q : PlainQueue) : List Ticket := q.queuedCalls ++ q.running.map (·.call) ++ q.sync

/-! ## the queue's operations -/

/-- A call arrives and waits. -/
def enqueue (q : PlainQueue) (call : Ticket) (host : Host) (duplex : Bool) : PlainQueue :=
  { q with ready := q.ready ++ [⟨call, host, duplex⟩] }

/-- A sync call arrives and runs. -/
def enqueueSync (q : PlainQueue) (call : Ticket) : PlainQueue :=
  { q with sync := q.sync ++ [call], busy := true }

/-- A waiting call may run: it is duplex, or its host has room. -/
def mayRun (q : PlainQueue) (m : Member) : Bool :=
  m.duplex || q.hostCount m.host < q.limits.maxPerHost.toNat

/-- Go through waiting calls from the first on while there is room under the total limit. The result
is the queue with the admitted calls running, the admitted calls, and the calls that go on
waiting. -/
def scan (q : PlainQueue) : List Member → PlainQueue × List Member × List Member
  | [] => (q, [], [])
  | m :: rest =>
    if q.runningCount < q.limits.maxRequests.toNat then
      if q.mayRun m then
        let r := scan { q with running := q.running ++ [m] } rest
        (r.1, m :: r.2.1, r.2.2)
      else
        let r := scan q rest
        (r.1, r.2.1, m :: r.2.2)
    else (q, [], m :: rest)

/-- What a promotion pass comes to: the queue, the admitted calls, and the idle callback if it is
due. -/
def promote (q : PlainQueue) : PlainQueue × List Ticket × Option Callback :=
  let r := q.scan q.ready
  let q' : PlainQueue := { r.1 with ready := r.2.2, busy := r.1.busy || !r.2.1.isEmpty }
  let admitted := r.2.1.map (·.call)
  if q'.runningCount = 0 ∧ q'.busy then ({ q' with busy := false }, admitted, q'.idle)
  else (q', admitted, none)

/-- An admitted call has ended; there is no queue if it was not running. -/
def finish? (q : PlainQueue) (call : Ticket) : Option PlainQueue :=
  if call ∈ q.running.map (·.call) then
    some { q with running := q.running.eraseP (·.call == call) }
  else none

/-- A sync call has ended; there is no queue if it was not running. -/
def finishSync? (q : PlainQueue) (call : Ticket) : Option PlainQueue :=
  if call ∈ q.sync then some { q with sync := q.sync.erase call } else none

/-- Change a limit; a value below one is refused. -/
def setLimit (q : PlainQueue) (limit : Limit) (n : UInt64) : Except DispatchError PlainQueue :=
  if n < 1 then .error (.invalidLimit limit n)
  else .ok { q with limits := q.limits.set limit n }

/-- Replace the idle callback. -/
def setIdle (q : PlainQueue) (idle : Option Callback) : PlainQueue := { q with idle }

/-! ## the queue in numbers -/

/-- The load of a host. -/
def load (q : PlainQueue) (host : Host) : HostLoad where
  queued := q.ready.countP (·.host == host)
  running := q.hostCount host
  duplex := q.running.countP fun m => m.duplex && m.host == host

/-- The queue in numbers. -/
def snapshot (q : PlainQueue) : Snapshot where
  limits := q.limits
  queued := q.ready.length
  runningAsync := q.running.length
  runningSync := q.sync.length
  hosts := (Host.sortUnique ((q.ready ++ q.running).map (·.host))).map fun h => (h, q.load h)

end PlainQueue

end CallAdmission
