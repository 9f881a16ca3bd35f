import CallAdmission.Limits.Json
import CallAdmission.Queue.Basic

/-!
# CallAdmission.Queue.Snapshot

The queue at one moment, in numbers: its limits, how many calls wait and run, and the load of each
host that has a call waiting or admitted. Hosts stand in their order. Sync calls are counted in the
total and at no host.
-/

namespace CallAdmission

/-- The calls of a host, in numbers. -/
structure HostLoad where
  queued : Nat
  /-- the running calls that count against the host's limit -/
  running : Nat
  /-- the running duplex calls -/
  duplex : Nat
deriving DecidableEq, Repr

namespace HostLoad

/-- The load for diagnostics. -/
def layout (h : HostLoad) : Text.Layout :=
  .record "HostLoad"
    [("queued", .number h.queued), ("running", .number h.running), ("duplex", .number h.duplex)]
    false

/-- The load as JSON. -/
def toJson (h : HostLoad) : Json.Value :=
  .record [("queued", .natural h.queued), ("running", .natural h.running),
    ("duplex", .natural h.duplex)]

end HostLoad

/-- The queue in numbers. -/
structure Snapshot where
  limits : Limits
  queued : Nat
  runningAsync : Nat
  runningSync : Nat
  hosts : List (Host × HostLoad)
deriving DecidableEq, Repr

namespace Snapshot

/-- How many calls run. -/
def running (s : Snapshot) : Nat := s.runningAsync + s.runningSync

/-- Nothing runs. -/
def isIdle (s : Snapshot) : Bool := s.running == 0

/-- The snapshot for diagnostics. -/
def layout (s : Snapshot) : Text.Layout :=
  .record "DispatcherSnapshot"
    [(Limit.total.name, .number s.limits.maxRequests.toNat),
      (Limit.perHost.name, .number s.limits.maxPerHost.toNat),
      ("queued", .number s.queued), ("running_async", .number s.runningAsync),
      ("running_sync", .number s.runningSync),
      ("hosts", .table (s.hosts.map fun h => (Text.quote h.1.name, h.2.layout)))] false

/-- The snapshot as JSON. -/
def toJson (s : Snapshot) : Json.Value :=
  .record
    [(Limit.total.name, .natural s.limits.maxRequests.toNat),
      (Limit.perHost.name, .natural s.limits.maxPerHost.toNat),
      ("queued", .natural s.queued), ("running_async", .natural s.runningAsync),
      ("running_sync", .natural s.runningSync),
      ("hosts", .record (s.hosts.map fun h => (h.1.name, h.2.toJson)))]

end Snapshot

namespace Queue

/-- The hosts that have a call waiting or admitted, in order. -/
def hosts (q : Queue) : List Host := Host.sortUnique ((q.ready ++ q.running).map (·.host))

/-- The load of a host. -/
def load (q : Queue) (host : Host) : HostLoad where
  queued := q.ready.countP (·.host == host)
  running := q.running.countP (isLimited host)
  duplex := q.running.countP fun e => e.duplex && e.host == host

/-- The queue in numbers. -/
def snapshot (q : Queue) : Snapshot where
  limits := q.limits
  queued := q.ready.length
  runningAsync := q.running.length
  runningSync := q.sync.length
  hosts := q.hosts.map fun h => (h, q.load h)

end Queue

end CallAdmission
