import CallAdmission.Ledger
import CallAdmission.Queue.Plain

/-!
# CallAdmission.Proofs.Queue.History

Histories of an admission queue: what can be asked of it, what it answers, and what it shows after
each operation. Queues of different make have an `Interface` in common, so one history can be played
on each of them; `counted` is that of the queue with counters, `plainly` that of the queue without.

Operations that fail are part of a history: a limit below one is refused, the end of a call that
does not run panics, and so does an arrival that is broken off; none of them changes the queue.

* `run_induction` — what every operation keeps holds after every history;
* `play_eq_of_simulation` — queues whose operations agree cannot be told apart by any history.
-/

namespace CallAdmission.Queue

/-! ## operations and answers -/

/-- What can be asked of a queue. -/
inductive Operation where
  | enqueue (host : Host) (duplex : Bool)
  | enqueueSync (host : Host)
  | promote
  | finish (t : Ticket)
  | finishSync (t : Ticket)
  | setLimit (limit : Limit) (n : UInt64)
  | setIdle (idle : Option Callback)
  /-- an arrival that panics before the call is stored -/
  | abortedArrival (message : String)
deriving DecidableEq, Repr

/-- What a queue answers. -/
inductive Answer where
  | arrived (t : Ticket)
  | promoted (admitted : List Ticket) (idle : Option Callback)
  | done
  | refused (e : DispatchError)
  | panicked (message : String)
deriving DecidableEq, Repr

/-- What a queue shows. -/
structure View where
  queuedCalls : List Ticket
  runningCalls : List Ticket
  allCalls : List Ticket
  queuedCount : Nat
  runningCount : Nat
  snapshot : Snapshot
deriving DecidableEq, Repr

/-- A queue of some make: its operations, and what it shows. -/
structure Interface (σ : Type) where
  enqueue : σ → Ticket → Host → Bool → σ
  enqueueSync : σ → Ticket → Host → σ
  promote : σ → σ × List Ticket × Option Callback
  finish? : σ → Ticket → Option σ
  finishSync? : σ → Ticket → Option σ
  setLimit : σ → Limit → UInt64 → Except DispatchError σ
  setIdle : σ → Option Callback → σ
  view : σ → View

/-- The queue that reads the load of a host off a counter. -/
def counted : Interface Queue where
  enqueue := Queue.enqueue
  enqueueSync q t _ := q.enqueueSync t
  promote q := (q.promote.queue, q.promote.admitted.map (·.entry.call), q.promote.idle)
  finish? q t := (q.finish? t).map (·.queue)
  finishSync? := Queue.finishSync?
  setLimit := Queue.setLimit
  setIdle := Queue.setIdle
  view q := ⟨q.queuedCalls, q.runningCalls, q.allCalls, q.queuedCount, q.runningCount, q.snapshot⟩

/-- The queue that counts the running calls of a host. -/
def plainly : Interface PlainQueue where
  enqueue := PlainQueue.enqueue
  enqueueSync q t _ := q.enqueueSync t
  promote := PlainQueue.promote
  finish? := PlainQueue.finish?
  finishSync? := PlainQueue.finishSync?
  setLimit := PlainQueue.setLimit
  setIdle := PlainQueue.setIdle
  view q :=
    ⟨q.queuedCalls, q.runningCalls, q.allCalls, q.ready.length, q.runningCount, q.snapshot⟩

/-! ## histories -/

/-- A queue, and the ticket of the next call. -/
structure Ticketed (σ : Type) where
  queue : σ
  next : Ticket := 0
deriving DecidableEq, Repr

namespace Interface

variable {σ τ : Type}

/-- The end of a call; the queue is the same if the call did not run. -/
def depart (s : Ticketed σ) (t : Ticket) : Option σ → Ticketed σ × Answer
  | none => (s, .panicked (Ledger.notInFlightMessage t))
  | some queue => ({ s with queue }, .done)

/-- Take an operation. -/
def step (I : Interface σ) (s : Ticketed σ) : Operation → Ticketed σ × Answer
  | .enqueue host duplex =>
    (⟨I.enqueue s.queue s.next host duplex, s.next + 1⟩, .arrived s.next)
  | .enqueueSync host => (⟨I.enqueueSync s.queue s.next host, s.next + 1⟩, .arrived s.next)
  | .promote =>
    let p := I.promote s.queue
    ({ s with queue := p.1 }, .promoted p.2.1 p.2.2)
  | .finish t => depart s t (I.finish? s.queue t)
  | .finishSync t => depart s t (I.finishSync? s.queue t)
  | .setLimit limit n =>
    match I.setLimit s.queue limit n with
    | .error e => (s, .refused e)
    | .ok queue => ({ s with queue }, .done)
  | .setIdle idle => ({ s with queue := I.setIdle s.queue idle }, .done)
  | .abortedArrival message => (s, .panicked message)

/-- The queue after a history. -/
def run (I : Interface σ) (s : Ticketed σ) : List Operation → Ticketed σ
  | [] => s
  | op :: ops => run I (I.step s op).1 ops

/-- Play a history: the answer to each operation, and what the queue shows after it. -/
def play (I : Interface σ) (s : Ticketed σ) : List Operation → List (Answer × View)
  | [] => []
  | op :: ops => ((I.step s op).2, I.view (I.step s op).1.queue) :: play I (I.step s op).1 ops

/-- What every operation keeps holds after every history. -/
theorem run_induction {I : Interface σ} {P : Ticketed σ → Prop}
    (hstep : ∀ s op, P s → P (I.step s op).1) {s : Ticketed σ} (hs : P s) (ops : List Operation) :
    P (I.run s ops) := by
  induction ops generalizing s with
  | nil => exact hs
  | cons op ops ih => exact ih (hstep s op hs)

/-- Queues that answer and show the same at every step cannot be told apart by a history. -/
theorem play_eq_of_simulation {I : Interface σ} {J : Interface τ}
    {R : Ticketed σ → Ticketed τ → Prop}
    (hstep : ∀ s t op, R s t →
      R (I.step s op).1 (J.step t op).1 ∧ (I.step s op).2 = (J.step t op).2)
    (hview : ∀ s t, R s t → I.view s.queue = J.view t.queue)
    {s : Ticketed σ} {t : Ticketed τ} (hR : R s t) (ops : List Operation) :
    I.play s ops = J.play t ops := by
  induction ops generalizing s t with
  | nil => rfl
  | cons op ops ih =>
    obtain ⟨hnext, hanswer⟩ := hstep s t op hR
    simp only [play]
    rw [hanswer, hview _ _ hnext, ih hnext]

end Interface

end CallAdmission.Queue
