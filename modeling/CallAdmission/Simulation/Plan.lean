import CallAdmission.Call.Basic
import CallAdmission.Simulation.Options

/-!
# CallAdmission.Simulation.Plan

The calls of a simulation. Call number `n` goes to the host whose place is `n` modulo the number of
hosts, in the order of the host names. The last call of each period is the one that fails, or is
duplex.
-/

namespace CallAdmission.Simulation

/-- The name of a host, by its number. -/
def hostName (h : Nat) : Host := ⟨"host-" ++ toString h ++ ".example"⟩

/-- A call of a simulation. -/
structure Job where
  number : Nat
  host : Host
  duplex : Bool
  fails : Bool
  /-- in milliseconds -/
  latency : Nat
deriving DecidableEq, Repr

/-- The call is the last one of its period. -/
def endsPeriod (every : Option UInt64) (n : Nat) : Bool :=
  every.any fun k => n % k.toNat == k.toNat - 1

namespace Options

/-- The hosts of a simulation, in order. -/
def hostList (o : Options) : List Host :=
  ((List.range o.hosts.toNat).map hostName).mergeSort Host.le

/-- A call of a simulation, by its number, where the hosts are given. -/
def job (o : Options) (hosts : List Host) (n : Nat) : Job where
  number := n
  host := hosts.getD (n % hosts.length) default
  duplex := endsPeriod o.duplexEvery n
  fails := endsPeriod o.failEvery n
  latency := o.latency.toNat * (1 + n % 3)

/-- The calls of a simulation. -/
def jobs (o : Options) : List Job := (List.range o.calls.toNat).map (o.job o.hostList)

end Options

/-- What a call of a simulation comes to. -/
def Job.result (j : Job) : Result :=
  if j.fails then .error (.failed ("simulated failure for call " ++ toString j.number)) else .ok ()

end CallAdmission.Simulation
