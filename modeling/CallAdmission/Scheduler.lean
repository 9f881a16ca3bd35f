import CallAdmission.Notice

/-!
# CallAdmission.Scheduler

Tasks on one thread under a paused clock. Tasks that can run form one queue, first come, first
served, in which a task stands at most once. Time stands still while a task can run and then jumps
to the next timer; timers that are due together wake their tasks in the order in which they were
set, all of them before any of the tasks runs.

A task is named by the ticket of the call that it works for. Milliseconds count from the start.
-/

namespace CallAdmission

/-- A sleeping task, and when it is to be woken. -/
structure Timer where
  due : Nat
  task : Ticket
deriving DecidableEq, Repr

/-- The tasks of a thread. -/
structure Scheduler where
  now : Nat := 0
  /-- the tasks that have not ended, the oldest first -/
  alive : List Ticket := []
  /-- the tasks that are to be polled -/
  ready : List Ticket := []
  /-- in the order in which they were set -/
  timers : List Timer := []
  /-- the task that is being polled -/
  current : Option Ticket := none
  /-- the task that is being polled was woken in the meantime -/
  woken : Bool := false
deriving DecidableEq, Repr, Inhabited

namespace Scheduler

/-! ## tasks -/

/-- Start a task. -/
def spawn (s : Scheduler) (t : Ticket) : Scheduler :=
  { s with alive := s.alive ++ [t], ready := s.ready ++ [t] }

/-- The task goes on and does not stand in line yet. -/
def isResting (s : Scheduler) (t : Ticket) : Bool := s.alive.contains t && !s.ready.contains t

/-- Wake a task. The task that is being polled gets in line again when it is suspended. -/
def wake (s : Scheduler) (t : Ticket) : Scheduler :=
  if s.current = some t then { s with woken := true }
  else if s.isResting t then { s with ready := s.ready ++ [t] }
  else s

/-- Take the next task to be polled. -/
def take? (s : Scheduler) : Option (Ticket × Scheduler) :=
  match s.ready with
  | [] => none
  | t :: ready => some (t, { s with ready, current := some t, woken := false })

/-- The task that is being polled goes on later. -/
def suspend (s : Scheduler) (t : Ticket) : Scheduler :=
  let s' := { s with current := none, woken := false }
  if s.woken then s'.wake t else s'

/-- A task has ended. -/
def stop (s : Scheduler) (t : Ticket) : Scheduler :=
  { s with
    alive := s.alive.erase t
    ready := s.ready.erase t
    timers := s.timers.filter (·.task != t)
    current := if s.current = some t then none else s.current
    woken := false }

/-! ## time -/

/-- The far future of the runtime's clock: thirty years of 365 days from now. A longer sleep ends
there. That is seen where sleeps of 4398046511107 ms and of a few more begin together: they end
together, too, while shorter ones that differ as little do not. -/
def longestSleep : Nat := 30 * 365 * 24 * 60 * 60 * 1000

/-- When a sleep that begins now is over. -/
def dueAfter (s : Scheduler) (ms : Nat) : Nat := s.now + min ms longestSleep

/-- The task that is being polled, or another one, is to be woken after some time. -/
def sleep (s : Scheduler) (t : Ticket) (ms : Nat) : Scheduler :=
  { s with timers := s.timers ++ [⟨s.dueAfter ms, t⟩] }

/-- When the next timer is due. -/
def nextDue? (s : Scheduler) : Option Nat := (s.timers.map (·.due)).min?

/-- Let time pass until a moment, and wake the tasks whose timers are due then. -/
def jump (s : Scheduler) (moment : Nat) : Scheduler :=
  (s.timers.filter (·.due ≤ moment)).foldl (fun s timer => s.wake timer.task)
    { s with now := moment, timers := s.timers.filter (moment < ·.due) }

end Scheduler

end CallAdmission
