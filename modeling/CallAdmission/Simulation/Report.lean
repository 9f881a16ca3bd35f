import CallAdmission.Queue.Snapshot
import CallAdmission.Simulation.Plan

/-!
# CallAdmission.Simulation.Report

What a simulation measures, and what it reports. A `Gauge` counts calls that are under way and
keeps the highest count.
-/

namespace CallAdmission.Simulation

/-! ## gauges -/

/-- How many calls are under way, and how many were at most. -/
structure Gauge where
  current : Nat := 0
  peak : Nat := 0
deriving DecidableEq, Repr, Inhabited

namespace Gauge

/-- A call is under way. -/
def enter (g : Gauge) : Gauge := ⟨g.current + 1, max g.peak (g.current + 1)⟩

/-- A call is over. -/
def exit (g : Gauge) : Gauge := { g with current := g.current - 1 }

end Gauge

/-- The gauges of a simulation. -/
structure Gauges where
  total : Gauge := {}
  /-- of the calls that are not duplex, by host -/
  hosts : List (Host × Gauge)
deriving DecidableEq, Repr

namespace Gauges

/-- Gauges at rest. -/
def ofHosts (hosts : List Host) : Gauges where
  hosts := hosts.map fun h => (h, {})

/-- Change the gauges that a call counts at. -/
def update (g : Gauges) (j : Job) (f : Gauge → Gauge) : Gauges where
  total := f g.total
  hosts := if j.duplex then g.hosts else
    g.hosts.map fun h => if h.1 = j.host then (h.1, f h.2) else h

end Gauges

/-! ## the report -/

/-- How many calls ended in which way. -/
structure Outcomes where
  succeeded : Nat := 0
  failed : Nat := 0
  canceled : Nat := 0
deriving DecidableEq, Repr

namespace Outcomes

/-- Count one more outcome. -/
def add (c : Outcomes) : Outcome → Outcomes
  | .succeeded => { c with succeeded := c.succeeded + 1 }
  | .failed _ => { c with failed := c.failed + 1 }
  | .canceled => { c with canceled := c.canceled + 1 }

end Outcomes

/-- The report of a simulation. -/
structure Report where
  limits : Limits
  calls : Nat
  outcomes : Outcomes
  peak : Nat
  hostPeaks : List (Host × Nat)
  /-- in milliseconds -/
  elapsed : Nat
  final : Snapshot
deriving DecidableEq, Repr

namespace Report

/-- The report as JSON. -/
def toJson (r : Report) : Json.Value :=
  .record
    [("config", r.limits.toJson), ("calls", .natural r.calls),
      ("outcomes", .record [("succeeded", .natural r.outcomes.succeeded),
        ("failed", .natural r.outcomes.failed), ("canceled", .natural r.outcomes.canceled)]),
      ("peak_running", .natural r.peak),
      ("peak_running_per_host", .record (r.hostPeaks.map fun h => (h.1.name, .natural h.2))),
      ("elapsed_ms", .natural r.elapsed), ("final_state", r.final.toJson)]

/-- The report as it is printed. -/
def text (r : Report) : String := r.toJson.pretty ++ "\n"

end Report

/-! ## errors -/

/-- Why a simulation fails. -/
inductive RunError where
  /-- the environment gives no limits -/
  | environment (e : DispatchError)
  /-- there is no dispatcher for the limits -/
  | creation (e : DispatchError)
  | totalExceeded (peak : Nat) (limit : UInt64)
  | hostExceeded (host : Host) (peak : Nat) (limit : UInt64)
  /-- there is no room for so many calls -/
  | tooManyCalls
  /-- not every call ended -/
  | stalled
deriving DecidableEq, Repr

/-- The wording of the error, with its cause. -/
def RunError.message : RunError → String
  | .environment e => "reading limits from environment: " ++ e.message
  | .creation e => "creating dispatcher: " ++ e.message
  | .totalExceeded peak limit =>
    "global limit exceeded: " ++ toString peak ++ " > " ++ toString limit.toNat
  | .hostExceeded host peak limit =>
    "per-host limit exceeded for " ++ host.name ++ ": " ++ toString peak ++ " > " ++
      toString limit.toNat
  | .tooManyCalls => "capacity overflow"
  | .stalled => "not every call ended"

/-- The peaks of a report keep to its limits. -/
def Report.check (r : Report) : Except RunError Unit :=
  if r.limits.maxRequests.toNat < r.peak then
    .error (.totalExceeded r.peak r.limits.maxRequests)
  else
    match r.hostPeaks.find? fun h => r.limits.maxPerHost.toNat < h.2 with
    | none => .ok ()
    | some (host, peak) => .error (.hostExceeded host peak r.limits.maxPerHost)

end CallAdmission.Simulation
