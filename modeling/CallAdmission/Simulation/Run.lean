import CallAdmission.Dispatcher.Step
import CallAdmission.Limits.Environment
import CallAdmission.Scheduler
import CallAdmission.Simulation.Report

/-!
# CallAdmission.Simulation.Run

The run of a simulation: all calls are submitted to a dispatcher whose executor makes a task of each
call, then the tasks run under a paused clock until nothing is left to do. While a call's latency
passes the call counts at the gauges.

The number of turns that a run may take is computed from the number of calls.
-/

namespace CallAdmission.Simulation

open Dispatcher (Action Reply Turn)

/-! ## the state of a run -/

/-- A simulation under way. -/
structure State where
  dispatcher : Dispatcher
  scheduler : Scheduler := {}
  gauges : Gauges
  /-- the calls whose latency passes -/
  asleep : List Ticket := []
  /-- the idle callback was invoked -/
  rested : Bool := false
  /-- what was said, the latest first -/
  notices : List Notice := []

/-- A part of a run; it fails where no run gets to. -/
abbrev Progress := StateT State Option

/-- Say something. -/
def say (n : Notice) : Progress Unit := modify fun s => { s with notices := n :: s.notices }

/-- Take an action. -/
def act (a : Action) : Progress Turn := do
  match (← get).dispatcher.step a with
  | .error _ => failure
  | .ok turn =>
    modify fun s => { s with dispatcher := turn.dispatcher }
    turn.events.forM fun
      | .said n => say n
      | _ => return
    return turn

/-! ## the work of a call -/

/-- A call's latency is over, or there is none. -/
def finishWork (j : Job) : Progress Action := do
  modify fun s => { s with gauges := s.gauges.update j .exit }
  return .resolve j.result

/-- A call's task is polled. -/
def work (jobs : List Job) (t : Ticket) : Progress Action := do
  match jobs[t]? with
  | none => failure
  | some j =>
    if (← get).asleep.contains t then
      modify fun s => { s with asleep := s.asleep.erase t }
      finishWork j
    else
      modify fun s => { s with gauges := s.gauges.update j .enter }
      if j.latency = 0 then finishWork j
      else
        modify fun s =>
          { s with asleep := t :: s.asleep, scheduler := s.scheduler.sleep t j.latency }
        return .suspend

/-! ## the run -/

/-- Let code outside the dispatcher run until the operation replies. -/
def settle (jobs : List Job) (turns : Nat) (turn : Turn) : Progress Reply :=
  match turns with
  | 0 => failure
  | turns + 1 => do
    match turn.reply, turn.dispatcher.stack with
    | some reply, _ => return reply
    | none, .execute t .. :: _ =>
      let _ ← act (.openRun t)
      modify fun s => { s with scheduler := s.scheduler.spawn t }
      settle jobs turns (← act .leave)
    | none, .idle .. :: _ =>
      modify fun s => { s with rested := true }
      settle jobs turns (← act .leave)
    | none, .openTask _ :: _ => settle jobs turns (← act .leave)
    | none, .pollTask t :: _ => settle jobs turns (← act (← work jobs t))
    | none, _ => failure

/-- Submit calls. -/
def submitAll (jobs : List Job) (turns : Nat) : List Job → Progress Unit
  | [] => return
  | j :: rest => do
    let _ ← settle jobs turns (← act (.submit ⟨j.host, j.duplex⟩))
    submitAll jobs turns rest

/-- Run tasks, and let time pass when none can run, until no task is left. -/
def runTasks (jobs : List Job) (turns : Nat) : Progress Unit :=
  match turns with
  | 0 => failure
  | turns + 1 => do
    let s ← get
    match s.scheduler.take? with
    | some (t, scheduler) =>
      set { s with scheduler }
      match ← settle jobs turns (← act (.pollRun t)) with
      | .pending => modify fun s => { s with scheduler := s.scheduler.suspend t }
      | _ => modify fun s => { s with scheduler := s.scheduler.stop t }
      runTasks jobs turns
    | none =>
      match s.scheduler.nextDue? with
      | some due =>
        set { s with scheduler := s.scheduler.jump due }
        runTasks jobs turns
      | none => return

/-- Enough turns for a number of calls. -/
def turnsFor (calls : Nat) : Nat := 4 * calls + 16

/-- The outcome of every call, if every call has one. -/
def outcomes? (l : Ledger) (calls : Nat) : Option (List Outcome) :=
  (List.range calls).mapM fun t => (l.call? t).bind (·.outcome?)

/-- Submit the calls, let them run, and make a report. -/
def simulate (limits : Limits) (hosts : List Host) (jobs : List Job) : Progress Report := do
  let turns := turnsFor jobs.length
  let _ ← act (.setIdle (some 0))
  say (.simulationStarted jobs.length hosts.length limits)
  submitAll jobs turns jobs
  say (.allSubmitted (← get).dispatcher.ledger.queue.snapshot.layout.inline)
  runTasks jobs turns
  let s ← get
  if !jobs.isEmpty && !s.rested then failure
  let outcomes ← outcomes? s.dispatcher.ledger jobs.length
  return {
    limits
    calls := jobs.length
    outcomes := outcomes.foldl .add {}
    peak := s.gauges.total.peak
    hostPeaks := s.gauges.hosts.map fun h => (h.1, h.2.peak)
    elapsed := s.scheduler.now
    final := s.dispatcher.ledger.queue.snapshot }

/-! ## from options to a report -/

/-- What a simulation says, reports and fails with. -/
structure Run where
  notices : List Notice := []
  report : Option Report := none
  error : Option RunError := none
deriving DecidableEq, Repr

/-- The limits of a simulation: those of the environment, replaced by those of the options. -/
def Options.resolve (o : Options) (e : Environment) : Except RunError Limits := do
  let l ← (Limits.ofEnvironment e).mapError .environment
  return l.override o.limits

/-- There is no room for more calls: their handles, of eight bytes each, take up half of the memory
that there can be. -/
def maxCalls : Nat := UInt64.size / 2 / 8 - 1

/-- A simulation with given options in an environment. -/
def run (o : Options) (e : Environment) : Run :=
  match o.resolve e with
  | .error error => { error }
  | .ok limits =>
    match Dispatcher.create limits with
    | .error error => { error := some (.creation error) }
    | .ok (dispatcher, notices) =>
      let hosts := o.hostList
      if maxCalls < o.calls.toNat then
        { notices := notices ++ [.simulationStarted o.calls.toNat hosts.length limits]
          error := some .tooManyCalls }
      else
        let jobs := o.jobs
        match simulate limits hosts jobs { dispatcher, gauges := .ofHosts hosts, notices } with
        | none => { error := some .stalled }
        | some (report, s) =>
          { notices := s.notices.reverse
            report := some report
            error := match report.check with
              | .ok () => none
              | .error error => some error }

end CallAdmission.Simulation
