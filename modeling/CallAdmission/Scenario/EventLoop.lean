import CallAdmission.Scheduler

/-!
# CallAdmission.Scenario.EventLoop

An event loop that a scenario enters from time to time. It runs tasks under a paused clock, as a
`Scheduler` does, while the scenario is inside; the rest of the time it stands still.

Whoever enters and leaves, or asks for much in one poll, can tell four things about such a loop that
nobody else can.

* Tasks that are started or woken from outside stand in a line of their own. A turn goes to the
  first task of the inner line and, if there is none, of the outer one; at every 31st turn the outer
  line comes first. Turns are counted from the start, and a look for a task that finds none is a
  turn too.
* The clock comes to a far timer by several stops, each of which takes an idle turn. Counting in
  base 64, it makes the first digit right that is wrong, then the next. There are six digits, the
  first of which goes round.
* The clock stands still for one idle turn if the loop was stirred since the clock was last looked
  at: a task got in line, or an operation was put off.
* A poll of a task may see only so many operations ready at once. It is given credit for them; when
  the credit is used up, every further operation is put off, ready or not.
-/

namespace CallAdmission.Scenario

/-- What the scenario waits for inside the loop. -/
inductive Wait where
  /-- a moment -/
  | moment (moment : Nat)
  /-- so many rounds, in each of which all tasks run that can -/
  | rounds (count : Nat)
deriving DecidableEq, Repr

/-- The moment that the scenario waits for. -/
def Wait.due? : Wait → Option Nat
  | .moment m => some m
  | .rounds _ => none

/-- An event loop that is entered and left. -/
structure EventLoop where
  tasks : Scheduler := {}
  /-- the tasks that were started or woken from outside and are to be polled -/
  arrivals : List Ticket := []
  /-- the scenario is inside -/
  entered : Bool := false
  /-- how often a task was looked for -/
  turns : Nat := 0
  /-- how many turns are left until the clock is looked at even though tasks can run -/
  burst : Nat := 0
  /-- a task got in line, or an operation was put off, since the clock was last looked at -/
  stirred : Bool := false
  /-- how many operations the poll of a task may still see ready; outside of polls there is no
  bound -/
  credit : Option Nat := none
deriving DecidableEq, Repr, Inhabited

namespace EventLoop

/-! ## tasks -/

/-- Start a task. -/
def spawn (l : EventLoop) (t : Ticket) : EventLoop :=
  if l.entered then { l with tasks := l.tasks.spawn t, stirred := true }
  else
    { l with
      tasks := { l.tasks with alive := l.tasks.alive ++ [t] }
      arrivals := l.arrivals ++ [t]
      stirred := true }

/-- Wake a task. -/
def wake (l : EventLoop) (t : Ticket) : EventLoop :=
  if l.tasks.current = some t then { l with tasks := l.tasks.wake t }
  else if l.arrivals.contains t || !l.tasks.isResting t then l
  else if l.entered then { l with tasks := l.tasks.wake t, stirred := true }
  else { l with arrivals := l.arrivals ++ [t], stirred := true }

/-- The credit that each poll is given. -/
def creditPerPoll : Nat := 128

/-- A task is taken out of its line, to be polled. -/
def beginPoll (l : EventLoop) (t : Ticket) : EventLoop :=
  { l with
    tasks := { l.tasks with current := some t, woken := false }
    credit := some creditPerPoll }

/-- The task that is being polled goes on later. If it was woken in the meantime it gets in line. -/
def suspend (l : EventLoop) (t : Ticket) : EventLoop :=
  { l with
    tasks := l.tasks.suspend t
    stirred := l.stirred || l.tasks.woken
    credit := none }

/-- A task has ended. -/
def stop (l : EventLoop) (t : Ticket) : EventLoop :=
  { l with tasks := l.tasks.stop t, arrivals := l.arrivals.erase t, credit := none }

/-- At every so many turns the outer line comes first. -/
def outerFirst : Nat := 31

/-- Look for the task whose turn it is. -/
def take (l : EventLoop) : Option Ticket × EventLoop :=
  let l := { l with turns := l.turns + 1 }
  let outer : Option (Ticket × EventLoop) :=
    match l.arrivals with
    | [] => none
    | t :: arrivals => some (t, { l with arrivals }.beginPoll t)
  let inner : Option (Ticket × EventLoop) :=
    l.tasks.take?.map fun (t, tasks) => (t, { l with tasks }.beginPoll t)
  match if l.turns % outerFirst = 0 then outer <|> inner else inner <|> outer with
  | none => (none, l)
  | some (t, l) => (some t, l)

/-! ## operations within a poll -/

/-- The credit is used up. -/
def isSpent (l : EventLoop) : Bool := l.credit == some 0

/-- An operation was ready. -/
def spend (l : EventLoop) : EventLoop := { l with credit := l.credit.map (· - 1) }

/-- An operation is put off. -/
def putOff (l : EventLoop) : EventLoop := { l with stirred := true }

/-! ## the clock -/

/-- The place of the first digit. -/
def firstPlace : Nat := 5

/-- Where the clock stops first on its way to a moment: at the first time that the first digit that
is wrong becomes right, and the digits after it are zero. -/
def firstStop (now due : Nat) : Nat :=
  let unit := Nat.pow 64 (min firstPlace (Nat.log2 (now ^^^ due) / 6))
  let passed := now / unit
  (passed + 1 + (due / unit - passed - 1) % 64) * unit

/-- The next stop of the clock. -/
def nextStop? (l : EventLoop) (w : Wait) : Option Nat :=
  ((w.due?.toList ++ l.tasks.timers.map (·.due)).map (firstStop l.tasks.now)).min?

/-- How many turns pass until the clock is looked at even though tasks can run. -/
def burstLength : Nat := 61

/-- Look at the clock. -/
def lookAtClock (l : EventLoop) (stirred : Bool) : EventLoop :=
  { l with burst := burstLength, stirred }

/-- A task is to be woken after some time. -/
def sleep (l : EventLoop) (t : Ticket) (ms : Nat) : EventLoop :=
  { l with tasks := l.tasks.sleep t ms }

/-- A task sleeps. -/
def isAsleep (l : EventLoop) (t : Ticket) : Bool := l.tasks.timers.any (·.task == t)

/-- Forget a task's timers. -/
def forget (l : EventLoop) (t : Ticket) : EventLoop :=
  { l with tasks := { l.tasks with timers := l.tasks.timers.filter (·.task != t) } }

/-! ## inside -/

/-- How many rounds follow a wait for a moment. -/
def settlingRounds : Nat := 200

/-- Enter the loop to wait for some time. -/
def enter (l : EventLoop) (ms : Nat) : EventLoop × Wait :=
  ({ l with entered := true, burst := burstLength },
    if ms = 0 then .rounds settlingRounds else .moment (l.tasks.dueAfter ms))

/-- Leave the loop. -/
def leave (l : EventLoop) : EventLoop := { l with entered := false }

/-- A turn was used. Look at the clock, if it is time for that: it stands still, and a round is
over. The next round begins with the scenario, which has got in line. -/
def afterTurn (l : EventLoop) (w : Wait) : EventLoop × Wait :=
  if l.burst ≤ 1 then
    match w with
    | .moment _ => (l.lookAtClock false, w)
    | .rounds n => (l.lookAtClock true, .rounds (n - 1))
  else ({ l with burst := l.burst - 1 }, w)

/-- No task can run. A round is over, or the clock moves to its next stop, unless the loop was
stirred since it was last looked at. -/
def afterIdleTurn (l : EventLoop) (w : Wait) : EventLoop × Wait :=
  match w with
  | .rounds n => (l.lookAtClock true, .rounds (n - 1))
  | .moment m =>
    if l.stirred then (l.lookAtClock false, w)
    else
      let stop := (l.nextStop? w).getD m
      let l := { l with tasks := l.tasks.jump stop }
      if m ≤ stop then (l.lookAtClock true, .rounds settlingRounds)
      else (l.lookAtClock !l.tasks.ready.isEmpty, w)

end EventLoop

end CallAdmission.Scenario
