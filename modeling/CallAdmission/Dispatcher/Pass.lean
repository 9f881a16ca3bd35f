import CallAdmission.Dispatcher.State

/-!
# CallAdmission.Dispatcher.Pass

Promotion passes. Every change of state asks for a pass. While one is under way the request is
noted, and the pass goes round once more before it ends, so the stack never holds two passes.

A pass promotes, then hands the admitted calls to the executor one after the other, then invokes
the idle callback if it is due. At each of these points control leaves the dispatcher; `resume`
takes the pass up again, and `unwind` ends it when that code panics: the calls that were admitted
and not handed over are abandoned, and the latch is opened.
-/

namespace CallAdmission.Dispatcher

/-- What a step comes to. There is no reply while code outside the dispatcher has control. -/
structure Turn where
  dispatcher : Dispatcher
  events : List Event := []
  reply : Option Reply := none
deriving Repr

/-- The turn with events before its own. -/
def Turn.after (t : Turn) (events : List Event) : Turn := { t with events := events ++ t.events }

/-- Answer an operation. -/
def answer (d : Dispatcher) (reply : Reply) : Turn := { dispatcher := d, reply := some reply }

/-- Hand control to code outside. -/
def enter (d : Dispatcher) (f : Frame) (events : List Event) : Turn :=
  { dispatcher := { d with stack := f :: d.stack }, events }

/-! ## the pass -/

/-- Hand over the next admitted call, or invoke the callback, or end the pass. -/
def offer (d : Dispatcher) (rest : List Ticket) (idle : Option Callback) (reply : Reply) : Turn :=
  match rest, idle with
  | t :: rest, idle =>
    enter { d with held := d.held ++ [t] } (.execute t rest idle reply) [.handedOver t]
  | [], some callback => d.enter (.idle callback reply) [.said .idle, .idleInvoked callback]
  | [], none => answer { d with promoting := false } reply

/-- Promote if a pass is wanted, else end the pass. -/
def round (d : Dispatcher) (reply : Reply) : Turn :=
  if d.pending then
    let p := d.ledger.promote
    (offer { d with ledger := p.ledger, pending := false } p.admitted p.idle reply).after
      (.passStarted :: p.notices.map .said)
  else answer { d with promoting := false } reply

/-- Ask for a pass; it starts at once unless one is under way. -/
def requestPass (d : Dispatcher) (reply : Reply) : Turn :=
  let d := { d with pending := true }
  Turn.after (if d.promoting then d.answer reply else round { d with promoting := true } reply)
    [.passRequested]

/-- Take up a pass again after a hand-over. -/
def resume (d : Dispatcher) (rest : List Ticket) (idle : Option Callback) (reply : Reply) : Turn :=
  match rest, idle with
  | [], none => d.round reply
  | rest, idle => d.offer rest idle reply

/-! ## the end of a call -/

/-- An admitted call has ended: its slot is given back, its outcome is recorded, and a pass is
asked for. -/
def complete (d : Dispatcher) (t : Ticket) (o : Outcome) (reply : Reply) : Turn :=
  match d.ledger.release t with
  | (none, notices) =>
    (d.answer (.panicked (Ledger.notInFlightMessage t))).after (notices.map .said)
  | (some ledger, notices) =>
    (requestPass { d with ledger := ledger.updateCall t (·.setFinished o) } reply).after
      (notices.map .said)

/-- A sync call has ended, likewise. -/
def completeSync (d : Dispatcher) (t : Ticket) (o : Outcome) (reply : Reply) : Turn :=
  match d.ledger.releaseSync t with
  | (none, notices) =>
    (d.answer (.panicked (Ledger.notInFlightMessage t))).after (notices.map .said)
  | (some ledger, notices) =>
    (requestPass { d with ledger := ledger.updateCall t (·.setFinished o) } reply).after
      (notices.map .said)

/-- An admitted call is dropped without a report. -/
def abandon (d : Dispatcher) (t : Ticket) (reply : Reply) : Turn :=
  (d.complete t (.ofResult (.error .abandoned)) reply).after [.said (.dropped t (d.ledger.host t))]

/-- Abandon calls one after the other. -/
def abandonAll (d : Dispatcher) : List Ticket → Turn
  | [] => { dispatcher := d }
  | t :: rest =>
    let r := d.abandon t .done
    (abandonAll r.dispatcher rest).after r.events

/-- A panic leaves a pass: the calls that were not handed over are abandoned, and the latch is
opened. A pass that is wanted stays wanted. -/
def unwind (d : Dispatcher) (rest : List Ticket) (message : String) : Turn :=
  let r := d.abandonAll rest
  { dispatcher := { r.dispatcher with promoting := false }
    events := r.events
    reply := some (.panicked message) }

/-- Ask for a call's cancellation. -/
def markCanceled (d : Dispatcher) (t : Ticket) : Turn :=
  { dispatcher := { d with ledger := d.ledger.cancel t }
    events := if d.ledger.isCanceled t then [] else [.canceled t] }

/-- Ask for the cancellation of calls one after the other. -/
def markAllCanceled (d : Dispatcher) : List Ticket → Turn
  | [] => { dispatcher := d }
  | t :: rest =>
    let r := d.markCanceled t
    (markAllCanceled r.dispatcher rest).after r.events

/-- A sync call's guard is dropped: the call is canceled. -/
def dropSlot (d : Dispatcher) (t : Ticket) (reply : Reply) : Turn :=
  let r := d.markCanceled t
  (r.dispatcher.completeSync t .canceled reply).after r.events

end CallAdmission.Dispatcher
