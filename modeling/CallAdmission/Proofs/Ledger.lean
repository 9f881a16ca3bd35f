import CallAdmission.Ledger
import Mathlib.Logic.Function.Iterate

/-!
# CallAdmission.Proofs.Ledger

What the operations of a ledger do to its queue. Each is the operation of the queue by that name;
what is done to the calls themselves leaves the queue alone.

* `queue_promote` — a promotion pass;
* `release_eq_some`, `releaseSync_eq_some` — the end of a call;
* `canceled_finish`, `canceled_promote` — neither marks a call, nor takes a mark off one;
* `ledger_breakOff` — an arrival that is broken off leaves nothing behind.
-/

namespace CallAdmission.Ledger

variable {l l' : Ledger} {t : Ticket} {notices : List Notice}

@[simp] theorem queue_updateCall (l : Ledger) (t : Ticket) (f : Call → Call) :
    (l.updateCall t f).queue = l.queue := rfl

/-- Calls that are set running leave the queue alone. -/
theorem queue_foldl_updateCall (ts : List Ticket) (f : Call → Call) (l : Ledger) :
    (ts.foldl (fun l t => l.updateCall t f) l).queue = l.queue := by
  induction ts generalizing l with
  | nil => rfl
  | cons t ts ih => rw [List.foldl_cons, ih, queue_updateCall]

@[simp] theorem queue_promote (l : Ledger) : l.promote.ledger.queue = l.queue.promote.queue := by
  simp only [promote, queue_foldl_updateCall]

/-- Where an admitted call gives its slot back, the queue lets it depart. -/
theorem release_eq_some (h : l.release t = (some l', notices)) :
    ∃ d, l.queue.finish? t = some d ∧ l' = { l with queue := d.queue } := by
  unfold release at h
  split at h
  · cases h
  · next d hd =>
    cases h
    exact ⟨d, hd, rfl⟩

/-- Where a sync call gives its slot back, the queue lets it depart. -/
theorem releaseSync_eq_some (h : l.releaseSync t = (some l', notices)) :
    ∃ q, l.queue.finishSync? t = some q ∧ l' = { l with queue := q } := by
  unfold releaseSync at h
  split at h
  · cases h
  · next q hq =>
    cases h
    exact ⟨q, hq, rfl⟩

/-- Where a limit is changed, the queue changes it. -/
theorem setLimit_eq_ok {limit : Limit} {n : UInt64} (h : l.setLimit limit n = .ok (l', notices)) :
    ∃ q, l.queue.setLimit limit n = .ok q ∧ l' = { l with queue := q } ∧
      notices = [.limitUpdated limit n] := by
  unfold setLimit at h
  cases hq : l.queue.setLimit limit n with
  | error e => simp [hq, bind, Except.bind] at h
  | ok q =>
    simp only [hq] at h
    cases h
    exact ⟨q, rfl, rfl, rfl⟩

/-- Where an admitted call has no slot to give back, it does not run. -/
theorem release_eq_none (h : l.release t = (none, notices)) : l.queue.finish? t = none := by
  unfold release at h
  split at h
  · next hd => exact hd
  · cases h

/-- Where a sync call has no slot to give back, it does not run. -/
theorem releaseSync_eq_none (h : l.releaseSync t = (none, notices)) :
    l.queue.finishSync? t = none := by
  unfold releaseSync at h
  split at h
  · next hq => exact hq
  · cases h

/-- Two changes of a call are one. -/
theorem updateCall_updateCall (l : Ledger) (t : Ticket) (f g : Call → Call) :
    (l.updateCall t g).updateCall t f = l.updateCall t (f ∘ g) := by
  have hcalls : ∀ calls, modify f t (modify g t calls) = modify (f ∘ g) t calls := by
    intro calls
    induction calls with
    | nil => rfl
    | cons p rest ih =>
      obtain ⟨u, c⟩ := p
      by_cases hu : u = t
      · simp [modify, hu]
      · simp [modify, hu, ih]
  simp [updateCall, hcalls]

/-- Calls that are changed one after the other are changed as often as they stand in the list. -/
theorem call?_foldl_updateCall (ts : List Ticket) (f : Call → Call) (l : Ledger) (u : Ticket) :
    (ts.foldl (fun l t => l.updateCall t f) l).call? u = (l.call? u).map f^[ts.count u] := by
  induction ts generalizing l with
  | nil => simp
  | cons t ts ih =>
    rw [List.foldl_cons, ih, call?_updateCall, List.count_cons]
    by_cases hu : u = t
    · simp [hu, Function.comp_def]
    · simp [hu, Ne.symm hu]

/-- What leaves the mark on a call alone. -/
theorem canceled_updateCall {f : Call → Call} (hf : ∀ c, (f c).canceled = c.canceled)
    (t u : Ticket) :
    ((l.updateCall t f).call? u).map (·.canceled) = (l.call? u).map (·.canceled) := by
  rw [call?_updateCall]
  split
  · simp [Function.comp_def, hf]
  · rfl

theorem canceled_foldl_updateCall {f : Call → Call} (hf : ∀ c, (f c).canceled = c.canceled)
    (ts : List Ticket) (u : Ticket) :
    ((ts.foldl (fun l t => l.updateCall t f) l).call? u).map (·.canceled) =
      (l.call? u).map (·.canceled) := by
  induction ts generalizing l with
  | nil => rfl
  | cons t ts ih => rw [List.foldl_cons, ih, canceled_updateCall hf]

/-- The end of a call leaves the marks alone. -/
theorem canceled_finish (l : Ledger) (queue : Queue) (t : Ticket) (o : Outcome) (u : Ticket) :
    ((({ l with queue } : Ledger).updateCall t (·.setFinished o)).call? u).map (·.canceled) =
      (l.call? u).map (·.canceled) :=
  canceled_updateCall (l := { l with queue }) (f := (·.setFinished o)) (fun _ => rfl) t u

/-- A pass leaves the marks alone. -/
theorem canceled_promote (l : Ledger) (u : Ticket) :
    (l.promote.ledger.call? u).map (·.canceled) = (l.call? u).map (·.canceled) := by
  have hrunning : ∀ c : Call, c.setRunning.canceled = c.canceled := by
    intro c
    unfold Call.setRunning
    split <;> rfl
  exact canceled_foldl_updateCall (l := { l with queue := l.queue.promote.queue }) hrunning _ u

/-- A call is canceled if it bears the mark. -/
theorem isCanceled_congr
    (h : (l'.call? t).map (·.canceled) = (l.call? t).map (·.canceled)) :
    l'.isCanceled t = l.isCanceled t := by
  have hmark : ∀ c? : Option Call, c?.any (·.canceled) = (c?.map (·.canceled)).any id := by
    intro c?
    cases c? <;> rfl
  rw [isCanceled, hmark, h, ← hmark, isCanceled]

/-! ## arrivals -/

/-- What an arrival comes to. -/
theorem enqueue_eq (l : Ledger) (t : Ticket) (r : Request) :
    l.enqueue t r =
      ({ queue := l.queue.enqueue t r.host r.duplex
         calls := (t, { host := r.host, duplex := r.duplex, status := .queued }) :: l.calls },
        [.enqueued t r.host r.duplex
          (l.queue.counters.get (l.queue.counterFor t r.host r.duplex)).running]) := rfl

/-- Until the call is stored, an arrival leaves the ledger alone. -/
theorem ledger_foldl_take {steps : List ArrivalStep} (h : .store ∉ steps) (t : Ticket) (r : Request)
    (a : Arrival) : (steps.foldl (Arrival.take t r) a).ledger = a.ledger := by
  induction steps generalizing a with
  | nil => rfl
  | cons step steps ih =>
    obtain ⟨hstep, hsteps⟩ := List.ne_and_not_mem_of_not_mem_cons h
    rw [List.foldl_cons, ih hsteps]
    cases step with
    | lookUp | announce => rfl
    | store => exact absurd rfl hstep

/-- An arrival that is broken off, wherever it is, leaves the ledger as it was. -/
theorem ledger_breakOff (l : Ledger) (t : Ticket) (r : Request) (step : ArrivalStep) :
    (l.breakOff t r step).ledger = l := by
  have hstore : .store ∉ arrivalSteps.takeWhile (· != step) := by cases step <;> decide
  exact ledger_foldl_take hstore t r _

/-- A call that arrives is new; the others are as before. -/
theorem call?_enqueue (l : Ledger) (t : Ticket) (r : Request) (u : Ticket) :
    (l.enqueue t r).1.call? u =
      if u = t then some { host := r.host, duplex := r.duplex, status := .queued }
      else l.call? u := by
  simp [enqueue_eq, call?, find?, eq_comm]

theorem call?_enqueueSync (l : Ledger) (t : Ticket) (host : Host) (u : Ticket) :
    (l.enqueueSync t host).1.call? u =
      if u = t then some { host, duplex := false, status := .running } else l.call? u := by
  simp [enqueueSync, call?, find?, eq_comm]

end CallAdmission.Ledger
