import CallAdmission.Scenario.Answer

/-!
# CallAdmission.Scenario.Script

Steps on a dispatcher, together with scripts for the code that a dispatcher calls: how an executor
deals with a call, what a call's task does, and what an idle callback does. Scripts hold steps of
their own, which are taken while that code runs.

`Step.weight` bounds the number of turns that a step can lead to.
-/

namespace CallAdmission.Scenario

/-! ## scripts over steps -/

/-- What an executor does with a call in the end. -/
inductive Ending where
  | hold
  | report (r : Result)
  /-- drop the call without a report -/
  | drop
  /-- make a run of the call and poll it once -/
  | run
  /-- panic with the call in hand -/
  | panic (message : String)
  /-- hold the call, then panic -/
  | holdPanic (message : String)
deriving Repr

/-- How an executor deals with a call. -/
structure Handling (σ : Type) where
  steps : List σ := []
  ending : Ending := .hold

/-- How a task ends. -/
inductive TaskEnd where
  | result (r : Result)
  | panic (message : String)
  | never
  /-- wait until the call's cancellation is asked for, then fail -/
  | token
deriving Repr

/-- What a call's task does: sleep, take steps, cancel its own call, be pending for some polls, and
end. -/
structure Work (σ : Type) where
  sleep : Nat := 0
  steps : List σ := []
  cancelSelf : Bool := false
  polls : Nat := 0
  ending : TaskEnd := .result (.ok ())

/-- What an idle callback does. -/
structure IdleScript (σ : Type) where
  tag : String
  steps : List σ := []
  panic : Option String := none
  /-- how many times the callback does more than to be noticed -/
  times : Nat := 1

/-! ## steps -/

/-- What can be written for diagnostics. -/
inductive Subject where
  | dispatcher
  | guard
  | admitted
  | completion
deriving DecidableEq, Repr

/-- What can be done to a dispatcher. -/
inductive Step where
  | submit (r : Request) (count : Nat) (handling : Handling Step) (work : Work Step)
  | submitSync (host : Host)
  | executeSync (host : Host) (work : Work Step) (value : Json.Value)
  | finish (t : Ticket) (r : Result)
  | finishSync (t : Ticket) (r : Result)
  | drop (t : Ticket)
  | run (t : Ticket)
  | poll (t : Ticket)
  | cancelAll
  | setLimit (limit : Limit) (n : UInt64)
  | limits
  | counts
  | setIdle (script : Option (IdleScript Step))
  | snapshot
  | debug (subject : Subject) (t : Ticket) (pretty : Bool)
  | advance (ms : Nat)
  | shutdown
  | onCall (t : Ticket) (s : CallStep)

instance : Inhabited Step := ⟨.cancelAll⟩

namespace Step

/-- The name of the step. -/
def name : Step → String
  | .submit .. => "submit"
  | .submitSync _ => "submit_sync"
  | .executeSync .. => "execute_sync"
  | .finish .. => "finish"
  | .finishSync .. => "finish_sync"
  | .drop _ => "drop"
  | .run _ => "run"
  | .poll _ => "poll"
  | .cancelAll => "cancel_all"
  | .setLimit .total _ => "set_max_requests"
  | .setLimit .perHost _ => "set_max_per_host"
  | .limits => "limits"
  | .counts => "counts"
  | .setIdle _ => "set_idle"
  | .snapshot => "snapshot"
  | .debug .. => "debug"
  | .advance _ => "advance"
  | .shutdown => "shutdown"
  | .onCall _ s => s.name

mutual

/-- A bound on the turns that a step can lead to. -/
def weight : Step → Nat
  | .submit _ count ⟨steps, _⟩ ⟨_, workSteps, _, polls, _⟩ =>
    8 + count * (64 + weightAll steps + weightAll workSteps + polls)
  | .executeSync _ ⟨_, steps, _, polls, _⟩ _ => 64 + weightAll steps + polls
  | .setIdle (some ⟨_, steps, _, times⟩) => 16 + (times + 1) * weightAll steps
  | .advance _ => 512
  | _ => 8

/-- The weight of several steps. -/
def weightAll : List Step → Nat
  | [] => 0
  | s :: rest => weight s + weightAll rest

end

end Step

end CallAdmission.Scenario
