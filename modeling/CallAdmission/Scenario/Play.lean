import CallAdmission.Scenario.Stage

/-!
# CallAdmission.Scenario.Play

The player of scenarios on a dispatcher. It takes one action at a time and, whenever control leaves
the dispatcher, does what the scripts say. The dispatcher itself is driven through `Stage.take`
alone.

All functions of the player share a number of turns that they may take; the number that `play`
gives them is computed from the steps.
-/

namespace CallAdmission.Scenario

open Dispatcher (Action Frame Reply Turn)

/-- Why code of a scenario stops short. -/
inductive Stop where
  | panic (message : String)
  /-- no turns are left -/
  | exhausted

/-- Code of a scenario. -/
abbrev Play := ExceptT Stop (StateM Stage)

namespace Play

/-! ## small parts -/

/-- Note what happens. -/
def note (h : Happening) : Play Unit := modify (·.note h)

/-- Change the event loop. -/
def onLoop (f : EventLoop → EventLoop) : Play Unit :=
  modify fun s => { s with eventLoop := f s.eventLoop }

/-- Change the event loop and what is waited for. -/
def onWait (f : EventLoop → EventLoop × Wait) : Play Wait := do
  let (eventLoop, w) := f (← get).eventLoop
  modify fun s => { s with eventLoop }
  return w

/-- A panic. -/
def panicWith {α : Type} (message : String) : Play α := throw (.panic message)

/-- Do something, and something more if it panics; the panic goes on. -/
def onPanic {α : Type} (p : Play α) (clean : Play Unit) : Play α :=
  tryCatch p fun
    | .panic message => do clean; panicWith message
    | .exhausted => throw .exhausted

/-- Do something that answers with an action; a panic is an action too. -/
def orPanic (p : Play Action) : Play Action :=
  tryCatch p fun
    | .panic message => return .panic message
    | .exhausted => throw .exhausted

/-- Do something, whether it panics or not; say whether it did not. -/
def survive {α : Type} (p : Play α) : Play (Option α) :=
  tryCatch (some <$> p) fun
    | .panic _ => return none
    | .exhausted => throw .exhausted

/-- Take an action, if the dispatcher does not refuse it. -/
def act (a : Action) : Play (Option Turn) := do
  match (← get).take a with
  | .error _ => return none
  | .ok (s, turn) =>
    set s
    return some turn

/-- The answer to an operation that has nothing more to say; without a reply there was nothing to
operate on. -/
def answerOf : Option Reply → Answer
  | none => .notHeld
  | some .done => .nothing
  | some (.submitted t) => .label t
  | some (.ready _) => .ready
  | some .pending => .pending
  | some (.refused e) => .refused e
  | some (.panicked message) => .panicked message

/-- The answer to a poll of a sync call's run. -/
def answerSync (value : Json.Value) : Option Reply → Answer
  | some (.ready r) => .readySync r value
  | reply => answerOf reply

/-- What is written about a subject for diagnostics. -/
def describe (s : Stage) (subject : Subject) (t : Ticket) (pretty : Bool) : Answer :=
  match subject with
  | .dispatcher => .text (s.dispatcher.layout.write pretty)
  | .guard => found .nothing (s.dispatcher.guardLayout? t)
  | .admitted => found .notHeld (if s.inHand.contains t then none else s.dispatcher.heldLayout? t)
  | .completion =>
    found .notHeld (if s.inHand.contains t then none else s.dispatcher.completionLayout? t)
where
  found (missing : Answer) : Option Text.Layout → Answer
    | none => missing
    | some layout => .text (layout.write pretty)

/-- A step on one call. The dispatcher is told of a cancellation; the other steps change or read the
call alone. A wait may be put off. -/
def onCall (t : Ticket) (c : CallStep) : Play Answer := do
  match (← get).ledger.call? t with
  | none => return .noSuchCall
  | some call =>
    match c with
    | .cancel | .cancelToken => let _ ← act (.cancel t)
    | .wait =>
      if (← get).eventLoop.isSpent then
        onLoop (·.putOff)
        return .outcome none
      if call.outcome?.isSome then onLoop (·.spend)
    | c =>
      modify fun s =>
        { s with
          dispatcher := { s.dispatcher with ledger := s.ledger.updateCall t c.apply } }
    match (← get).ledger.call? t with
    | none => return .noSuchCall
    | some call => return c.answer t call

/-- The scripts of a new call. -/
def addPlan (plan : Plan) : Play Unit := modify fun s => { s with plans := s.plans.push plan }

/-- A new idle callback. -/
def addCallback (script : IdleScript Step) : Play Callback := do
  let s ← get
  set { s with callbacks := s.callbacks.push { script } }
  return s.callbacks.size

/-- The executor has done with a call. -/
def letGo (t : Ticket) : Play Unit := modify fun s => { s with inHand := s.inHand.erase t }

/-- A task's own end. -/
def endTask (t : Ticket) (ending : TaskEnd) : Play Action := do
  match ending with
  | .result r => finish r
  | .panic message => panicWith message
  | .never => wait
  | .token =>
    if (← get).ledger.isCanceled t then finish (.error (.failed "")) else wait
where
  finish (r : Result) : Play Action := do
    modify (·.setPhase t .over)
    note (.taskEnd t)
    return .resolve r
  wait : Play Action := do
    modify (·.setPhase t .waiting)
    return .suspend

/-- A task that has taken its steps is pending for some polls and then ends. It wakes itself at each
of these polls, and also at the one at which it goes on. -/
def spin (t : Ticket) (polls : Nat) (ending : TaskEnd) : Play Action := do
  onLoop (·.wake t)
  match polls with
  | 0 => endTask t ending
  | polls + 1 =>
    modify (·.setPhase t (.spinning polls))
    return .suspend

/-! ## the player -/

mutual

/-- Take an action and let all code run that it calls, until the operation replies. -/
def operate (turns : Nat) (a : Action) : Play (Option Reply) :=
  match turns with
  | 0 => throw .exhausted
  | turns + 1 => do
    match ← act a with
    | none => return none
    | some turn => some <$> settle turns turn

/-- Let code run until the operation replies. -/
def settle (turns : Nat) (turn : Turn) : Play Reply :=
  match turns with
  | 0 => throw .exhausted
  | turns + 1 => do
    match turn.reply, turn.dispatcher.stack with
    | some (.panicked message), _ => panicWith message
    | some reply, _ => return reply
    | none, [] => throw .exhausted
    | none, frame :: _ =>
      match ← act (← orPanic (outside turns frame)) with
      | none => throw .exhausted
      | some turn => settle turns turn

/-- Run the code that has been called, and say how it went on. -/
def outside (turns : Nat) (frame : Frame) : Play Action :=
  match turns with
  | 0 => throw .exhausted
  | turns + 1 =>
    match frame with
    | .execute t .. => do
      handle turns t
      return .leave
    | .idle callback _ => do
      invoke turns callback
      return .leave
    | .openTask _ => return .leave
    | .pollTask t => work turns t
    | .pollSync t => do
      if (← get).eventLoop.isSpent then
        onLoop (·.putOff)
        return .suspend
      work turns t

/-- The executor receives a call. -/
def handle (turns : Nat) (t : Ticket) : Play Unit :=
  match turns with
  | 0 => throw .exhausted
  | turns + 1 => do
    match (← get).executor with
    | .eventLoop =>
      let _ ← operate turns (.openRun t)
      if (← get).shutDown then
        let _ ← operate turns (.dropRun t)
      else onLoop (·.spawn t)
    | .manual =>
      note (.execute t)
      modify fun s => { s with inHand := t :: s.inHand }
      let handling := ((← get).plan t).handling
      onPanic (performAll turns handling.steps) do
        letGo t
        let _ ← operate turns (.abandon t)
      letGo t
      match handling.ending with
      | .hold => return
      | .report r =>
        let _ ← operate turns (.report t r)
      | .drop =>
        let _ ← operate turns (.abandon t)
      | .run =>
        let _ ← operate turns (.openRun t)
        let _ ← operate turns (.pollRun t)
      | .panic message =>
        let _ ← operate turns (.abandon t)
        panicWith message
      | .holdPanic message => panicWith message

/-- The idle callback is invoked. -/
def invoke (turns : Nat) (callback : Callback) : Play Unit :=
  match turns with
  | 0 => throw .exhausted
  | turns + 1 => do
    match (← get).callbacks[callback]? with
    | none => return
    | some plan =>
      note (.idle plan.script.tag)
      modify fun s =>
        { s with
          callbacks := s.callbacks.modify callback fun p => { p with invoked := p.invoked + 1 } }
      if plan.invoked < plan.script.times then
        performAll turns plan.script.steps
        match plan.script.panic with
        | none => return
        | some message => panicWith message

/-- A call's task is polled. -/
def work (turns : Nat) (t : Ticket) : Play Action :=
  match turns with
  | 0 => throw .exhausted
  | turns + 1 => do
    let s ← get
    let plan := s.plan t
    match plan.phase with
    | .fresh =>
      note (.task t (s.ledger.isCanceled t))
      if plan.work.sleep > 0 ∧ s.executor = .eventLoop then
        modify (·.setPhase t .asleep)
        onLoop (·.sleep t plan.work.sleep)
        sleepOn turns t plan.work
      else wakeUp turns t plan.work
    | .asleep => sleepOn turns t plan.work
    | .spinning polls => spin t polls plan.work.ending
    | .waiting => endTask t plan.work.ending
    | .over => return .suspend

/-- A call's task sleeps until its timer has fired. -/
def sleepOn (turns : Nat) (t : Ticket) (w : Work Step) : Play Action :=
  match turns with
  | 0 => throw .exhausted
  | turns + 1 => do
    if (← get).eventLoop.isAsleep t then return .suspend
    onLoop (·.spend)
    wakeUp turns t w

/-- A call's task goes on after its sleep. -/
def wakeUp (turns : Nat) (t : Ticket) (w : Work Step) : Play Action :=
  match turns with
  | 0 => throw .exhausted
  | turns + 1 => do
    modify (·.setPhase t (.spinning w.polls))
    performAll turns w.steps
    if w.cancelSelf then
      let _ ← operate turns (.cancel t)
    if w.polls = 0 then endTask t w.ending else spin t w.polls w.ending

/-- Take the steps of a script. -/
def performAll (turns : Nat) (steps : List Step) : Play Unit :=
  match turns, steps with
  | 0, _ => throw .exhausted
  | _, [] => return
  | turns + 1, step :: rest => do
    note (.nested step.name (← perform turns step))
    performAll turns rest

/-- Submit a request a number of times. -/
def submitMany (turns : Nat) (r : Request) (plan : Plan) (count : Nat) : Play Unit :=
  match turns, count with
  | 0, _ => throw .exhausted
  | _, 0 => return
  | turns + 1, count + 1 => do
    addPlan plan
    let _ ← operate turns (.submit r)
    submitMany turns r plan count

/-- Run the tasks of the event loop until what is waited for has come. -/
def runTasks (turns : Nat) (w : Wait) : Play Unit :=
  match turns, w with
  | 0, _ => throw .exhausted
  | _, .rounds 0 => return
  | turns + 1, w => do
    let (next, eventLoop) := (← get).eventLoop.take
    modify fun s => { s with eventLoop }
    match next with
    | some t =>
      match ← survive (operate turns (.pollRun t)) with
      | some (some .pending) => onLoop (·.suspend t)
      | _ => onLoop (·.stop t)
      runTasks turns (← onWait (·.afterTurn w))
    | none => runTasks turns (← onWait (·.afterIdleTurn w))

/-- Drop tasks of the event loop. -/
def dropTasks (turns : Nat) (ts : List Ticket) : Play Unit :=
  match turns, ts with
  | 0, _ => throw .exhausted
  | _, [] => return
  | turns + 1, t :: ts => do
    let _ ← survive (operate turns (.dropRun t))
    onLoop (·.stop t)
    dropTasks turns ts

/-- Take a step. -/
def perform (turns : Nat) (step : Step) : Play Answer :=
  match turns with
  | 0 => throw .exhausted
  | turns + 1 => do
    let s ← get
    match step with
    | .submit r count handling work =>
      submitMany turns r { handling, work } count
      return .label s.dispatcher.next
    | .submitSync host =>
      addPlan {}
      return answerOf (← operate turns (.submitSync host))
    | .executeSync host work value =>
      addPlan { work, value }
      return answerOf (← operate turns (.executeSync host))
    | .finish t r =>
      if s.kept.contains t then return answerOf (← operate turns (.report t r))
      else return .notHeld
    | .finishSync t r => return answerOf (← operate turns (.finishGuard t r))
    | .drop t =>
      if s.kept.contains t then return answerOf (← operate turns (.abandon t))
      else if s.dispatcher.guards.contains t then
        return answerOf (← operate turns (.dropGuard t))
      else if s.openRuns.contains t then return answerOf (← operate turns (.dropRun t))
      else return answerOf (← operate turns (.dropSyncRun t))
    | .run t =>
      if s.kept.contains t then
        let _ ← operate turns (.openRun t)
        return answerOf (← operate turns (.pollRun t))
      else return .notHeld
    | .poll t =>
      if s.openRuns.contains t then return answerOf (← operate turns (.pollRun t))
      else if s.eventLoop.isSpent && s.isStarted t then
        onLoop (·.putOff)
        return .pending
      else return answerSync (s.plan t).value (← operate turns (.pollSyncRun t))
    | .cancelAll => return answerOf (← operate turns .cancelAll)
    | .setLimit limit n =>
      match ← operate turns (.setLimit limit n) with
      | some (.refused e) => return .refused e
      | _ => return .accepted
    | .limits => return .limits s.ledger.queue.limits
    | .counts => return .counts s.ledger.queue.queuedCount s.ledger.queue.runningCount
    | .setIdle none => return answerOf (← operate turns (.setIdle none))
    | .setIdle (some script) =>
      return answerOf (← operate turns (.setIdle (some (← addCallback script))))
    | .snapshot => return .snapshot s.ledger.queue.snapshot
    | .debug subject t pretty => return describe s subject t pretty
    | .advance ms =>
      if s.executor = .eventLoop ∧ !s.shutDown then
        runTasks turns (← onWait (·.enter ms))
        onLoop (·.leave)
        return .nothing
      else return .noLoop
    | .shutdown =>
      if s.executor = .eventLoop ∧ !s.shutDown then
        set { s with shutDown := true }
        dropTasks turns s.eventLoop.tasks.alive
        return .nothing
      else return .noLoop
    | .onCall t c => onCall t c

end

/-! ## scenarios -/

/-- Take a step of a scenario, on a stage without happenings. -/
def playStep (turns : Nat) (s : Stage) (step : Step) : Answer × Stage :=
  match (perform turns step).run { s with happenings := #[] } with
  | (.ok answer, s) => (answer, s)
  | (.error (.panic message), s) => (.panicked message, s)
  | (.error .exhausted, s) => (.exhausted, s)

/-- Take steps; for each step its answer and the stage after it. -/
def playAll (turns : Nat) (s : Stage) : List Step → List (Answer × Stage)
  | [] => []
  | step :: rest =>
    let r := playStep turns s step
    r :: playAll turns r.2 rest

/-- The turns that steps are given: more than they can lead to. -/
def turnsFor (steps : List Step) : Nat :=
  (Step.weightAll steps + 64) * (Step.weightAll steps + 64)

/-- Play a scenario. -/
def play (s : Stage) (steps : List Step) : List (Answer × Stage) :=
  playAll (turnsFor steps) s steps

end Play

end CallAdmission.Scenario
