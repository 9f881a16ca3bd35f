import CallAdmission.Call.Basic
import CallAdmission.Queue.Snapshot

/-!
# CallAdmission.Ledger

The queue together with the calls themselves. Every operation of the queue is done here with what
it does to the calls, and with the notices it gives.

An arrival takes several steps and can be broken off before any of them; until the last one, which
stores the call, nothing is changed (`Arrival`).

Ending a call takes two steps: `release` gives its slot back, `Call.setFinished` records the
outcome. A call that is not running has no slot, and `release` changes nothing.
-/

namespace CallAdmission

/-- The queue and the calls that were ever put into it. -/
structure Ledger where
  queue : Queue
  /-- the calls, the latest first -/
  calls : List (Ticket × Call) := []
deriving DecidableEq, Repr

namespace Ledger

/-! ## calls -/

/-- The first call of a ticket in a list. -/
def find? (t : Ticket) : List (Ticket × Call) → Option Call
  | [] => none
  | (u, c) :: rest => if u = t then some c else find? t rest

/-- Change the first call of a ticket in a list. -/
def modify (f : Call → Call) (t : Ticket) : List (Ticket × Call) → List (Ticket × Call)
  | [] => []
  | (u, c) :: rest => if u = t then (u, f c) :: rest else (u, c) :: modify f t rest

/-- The call of a ticket. -/
def call? (l : Ledger) (t : Ticket) : Option Call := find? t l.calls

/-- Change the call of a ticket. -/
def updateCall (l : Ledger) (t : Ticket) (f : Call → Call) : Ledger :=
  { l with calls := modify f t l.calls }

theorem find?_modify (f : Call → Call) (t u : Ticket) (calls : List (Ticket × Call)) :
    find? u (modify f t calls) = if u = t then (find? u calls).map f else find? u calls := by
  induction calls with
  | nil => simp [modify, find?]
  | cons p rest ih =>
    obtain ⟨v, c⟩ := p
    by_cases hv : v = t
    · subst hv
      by_cases hu : u = v
      · subst hu; simp [modify, find?]
      · simp [modify, find?, hu, Ne.symm hu]
    · by_cases hu : v = u
      · subst hu; simp [modify, find?, hv]
      · simp [modify, find?, hv, hu, ih]

/-- Changing a call changes that call alone. -/
theorem call?_updateCall (l : Ledger) (t u : Ticket) (f : Call → Call) :
    (l.updateCall t f).call? u = if u = t then (l.call? u).map f else l.call? u :=
  find?_modify f t u l.calls

/-! ## arrival -/

/-- What the arrival of a request takes. -/
inductive ArrivalStep where
  /-- see which counter the call uses -/
  | lookUp
  /-- say that the call has arrived, and what its counter shows -/
  | announce
  /-- put the call into the queue -/
  | store
deriving DecidableEq, Repr

/-- An arrival under way. -/
structure Arrival where
  ledger : Ledger
  /-- the name of the call's counter: the call's own, until another one is found -/
  counter : Ticket
  notices : List Notice := []
deriving DecidableEq, Repr

/-- Take a step of the arrival of a request. -/
def Arrival.take (t : Ticket) (r : Request) (a : Arrival) : ArrivalStep → Arrival
  | .lookUp => { a with counter := a.ledger.queue.counterFor t r.host r.duplex }
  | .announce =>
    let load := (a.ledger.queue.counters.get a.counter).running
    { a with notices := a.notices ++ [.enqueued t r.host r.duplex load] }
  | .store =>
    { a with
      ledger :=
        { queue := a.ledger.queue.push ⟨t, r.host, r.duplex, a.counter⟩
          calls := (t, { host := r.host, duplex := r.duplex, status := .queued }) ::
            a.ledger.calls } }

/-- Take steps of the arrival of a request. -/
def arrive (l : Ledger) (t : Ticket) (r : Request) (steps : List ArrivalStep) : Arrival :=
  steps.foldl (Arrival.take t r) { ledger := l, counter := t }

/-- A whole arrival. -/
def arrivalSteps : List ArrivalStep := [.lookUp, .announce, .store]

/-- The arrival of a request, broken off when one of its steps is to be taken. -/
def breakOff (l : Ledger) (t : Ticket) (r : Request) (step : ArrivalStep) : Arrival :=
  l.arrive t r (arrivalSteps.takeWhile (· != step))

/-! ## the queue's operations -/

/-- A request arrives and waits. -/
def enqueue (l : Ledger) (t : Ticket) (r : Request) : Ledger × List Notice :=
  let a := l.arrive t r arrivalSteps
  (a.ledger, a.notices)

/-- A sync call arrives and runs. -/
def enqueueSync (l : Ledger) (t : Ticket) (host : Host) : Ledger × List Notice :=
  ({ queue := l.queue.enqueueSync t
     calls := (t, { host, duplex := false, status := .running }) :: l.calls },
    [.syncStarted t host])

/-- What a promotion pass comes to. -/
structure Promotion where
  ledger : Ledger
  admitted : List Ticket
  idle : Option Callback
  notices : List Notice
deriving DecidableEq, Repr

/-- Admit every call that the limits allow; the admitted calls are running from then on. -/
def promote (l : Ledger) : Promotion :=
  let p := l.queue.promote
  let admitted := p.admitted.map (·.entry.call)
  { ledger := admitted.foldl (fun l t => l.updateCall t .setRunning) { l with queue := p.queue }
    admitted
    idle := p.idle
    notices := p.admitted.map fun a => .promoted a.entry.call a.entry.host a.hostRunning }

/-- Give back the slot of an admitted call, if it has one. -/
def release (l : Ledger) (t : Ticket) : Option Ledger × List Notice :=
  match l.queue.finish? t with
  | none => (none, [.notInFlight t])
  | some d =>
    (some { l with queue := d.queue },
      d.counter.decrementNotices ++ [.finished t d.entry.host d.counter.decrement.running])

/-- Give back the slot of a sync call, if it has one. -/
def releaseSync (l : Ledger) (t : Ticket) : Option Ledger × List Notice :=
  match l.queue.finishSync? t with
  | none => (none, [.syncNotInFlight t])
  | some queue => (some { l with queue }, [.syncFinished t])

/-- What is said when a call has no slot to give back. -/
def notInFlightMessage (t : Ticket) : String := "call " ++ Ticket.label t ++ " wasn't in flight"

/-- Change a limit; a value below one is refused. -/
def setLimit (l : Ledger) (limit : Limit) (n : UInt64) :
    Except DispatchError (Ledger × List Notice) := do
  let queue ← l.queue.setLimit limit n
  return ({ l with queue }, [.limitUpdated limit n])

/-- Replace the idle callback. -/
def setIdle (l : Ledger) (idle : Option Callback) : Ledger :=
  { l with queue := l.queue.setIdle idle }

/-! ## cancellation -/

/-- Ask for a call's cancellation. -/
def cancel (l : Ledger) (t : Ticket) : Ledger := l.updateCall t .cancel

/-- Cancellation of a call was asked for. -/
def isCanceled (l : Ledger) (t : Ticket) : Bool := (l.call? t).any (·.canceled)

/-- The host of a call. -/
def host (l : Ledger) (t : Ticket) : Host := ((l.call? t).map (·.host)).getD default

end Ledger

end CallAdmission
