import CallAdmission.Proofs.Dispatcher.Move
import CallAdmission.Proofs.Ledger
import CallAdmission.Proofs.Queue.Settled

/-!
# CallAdmission.Proofs.Dispatcher.Gate

What decides whether a call that waits is looked at again: the queue, the latch of the pass, and the
passes that are under way. `Moment.gate` forgets the rest of a moment. There are many moves, and
seven ways in which they change the gate.

* `Gate.Change` — the ways in which a gate changes;
* `Move.change` — every move changes the gate in one of them.
-/

namespace CallAdmission.Dispatcher

/-! ## requests that wait -/

/-- Whether a pass is owed after an event. -/
def Event.owes (owed : Bool) : Event → Bool
  | .passRequested => true
  | .passStarted => false
  | _ => owed

/-- A pass is owed after the events: none has started since the last request. -/
def owed (es : List Event) : Bool := es.foldl Event.owes false

/-- Among the events is neither a request for a pass nor the start of one. -/
def Quiet (es : List Event) : Prop := ∀ b, es.foldl Event.owes b = b

theorem Quiet.nil : Quiet [] := fun _ => rfl

theorem Quiet.append {es es' : List Event} (h : Quiet es) (h' : Quiet es') : Quiet (es ++ es') := by
  intro b
  rw [List.foldl_append, h, h']

/-- Notices are no requests. -/
theorem Quiet.said (notices : List Notice) : Quiet (notices.map .said) := by
  intro b
  induction notices with
  | nil => rfl
  | cons n notices ih => exact ih

theorem owed_append_of_quiet {es es' : List Event} (h : Quiet es') :
    owed (es ++ es') = owed es := by
  rw [owed, List.foldl_append, h, owed]

theorem owed_append_passRequested (es : List Event) : owed (es ++ [.passRequested]) = true := by
  rw [owed, List.foldl_append]
  rfl

theorem owed_append_passStarted {es es' : List Event} (h : Quiet es') :
    owed (es ++ .passStarted :: es') = false := by
  rw [owed, List.foldl_append, List.foldl_cons, h]
  rfl

/-! ## the gate -/

/-- The part of a dispatcher that passes depend on. -/
structure Gate where
  queue : Queue
  next : Ticket
  promoting : Bool
  pending : Bool
  /-- how many passes are under way -/
  passes : Nat

/-- The gate of a dispatcher within a step. -/
def Moment.gate (m : Moment) : Gate where
  queue := m.dispatcher.ledger.queue
  next := m.dispatcher.next
  promoting := m.dispatcher.promoting
  pending := m.dispatcher.pending
  passes := m.dispatcher.stack.countP Frame.isPass + m.phase.passes

/-- A panic is leaving a pass. -/
def Phase.isLeaving : Phase → Bool
  | .leaving _ => true
  | .outside | .passing .. => false

/-- A change of the queue after which a pass is asked for. -/
inductive Alters (q : Queue) (next : Ticket) : Queue → Ticket → Prop where
  | enqueue (host : Host) (duplex : Bool) : Alters q next (q.enqueue next host duplex) (next + 1)
  | finish {t : Ticket} {d : Queue.Departure} (h : q.finish? t = some d) :
    Alters q next d.queue next
  | finishSync {t : Ticket} {q' : Queue} (h : q.finishSync? t = some q') : Alters q next q' next
  | setLimit {limit : Limit} {n : UInt64} {q' : Queue} (h : q.setLimit limit n = .ok q') :
    Alters q next q' next

namespace Gate

/-- The gate after a request. -/
def request (g : Gate) (q : Queue) (next : Ticket) : Gate where
  queue := q
  next := next
  promoting := true
  pending := true
  passes := if g.promoting then g.passes else g.passes + 1

/-- While a pass is under way, a request leaves the latch as it is. -/
theorem request_of_promoting {g : Gate} (h : g.promoting = true) (q : Queue) (next : Ticket) :
    g.request q next = { g with queue := q, next, pending := true } := by
  simp [request, h]

/-- The gate after the end of a pass. -/
def unlatch (g : Gate) : Gate := { g with promoting := false, passes := g.passes - 1 }

/-- The ways in which a gate changes, while a panic leaves a pass or not. -/
inductive Change (leaving : Bool) (g : Gate) : List Event → Gate → Prop where
  /-- nothing changes but tokens and tickets -/
  | tokens {es next} (hn : g.next ≤ next) (hes : Quiet es) : Change leaving g es { g with next }
  /-- a sync call takes a slot -/
  | startSync {es t next} (hn : g.next ≤ next) (hes : Quiet es) :
    Change leaving g es { g with queue := g.queue.enqueueSync t, next }
  | setIdle (idle : Option Callback) : Change leaving g [] { g with queue := g.queue.setIdle idle }
  | request {es q next} (h : Alters g.queue g.next q next) (hes : Quiet es) :
    Change leaving g (es ++ [.passRequested]) (g.request q next)
  | promote {es} (h : g.pending = true) (hes : Quiet es) :
    Change leaving g (.passStarted :: es)
      { g with queue := g.queue.promote.queue, pending := false }
  /-- a pass ends by itself -/
  | close (h : g.pending = false) : Change leaving g [] g.unlatch
  /-- a pass ends by a panic, whether another one is wanted or not -/
  | panic (h : leaving = true) : Change leaving g [] g.unlatch

end Gate

/-! ## moves and the gate -/

variable {a : Action} {d d₁ : Dispatcher} {t : Ticket} {o : Outcome} {es : List Event}

/-- Remarks are no requests. -/
theorem Quiet.remarks (h : ∀ e ∈ es, e.isRemark = true) : Quiet es := by
  intro b
  induction es with
  | nil => rfl
  | cons e es ih =>
    obtain ⟨he, hes⟩ := List.forall_mem_cons.1 h
    rw [List.foldl_cons]
    cases e <;> first | exact ih hes | cases he

/-- Cancellation is no matter of the gate. -/
theorem gate_markCanceled (d : Dispatcher) (t : Ticket) (phase : Phase) :
    Moment.gate ⟨(d.markCanceled t).dispatcher, phase⟩ = Moment.gate ⟨d, phase⟩ := rfl

theorem gate_markAllCanceled (d : Dispatcher) (ts : List Ticket) (phase : Phase) :
    Moment.gate ⟨(d.markAllCanceled ts).dispatcher, phase⟩ = Moment.gate ⟨d, phase⟩ := by
  induction ts generalizing d with
  | nil => rfl
  | cons t ts ih => exact (ih _).trans (gate_markCanceled d t phase)

/-- The token of a call is no matter of the gate. -/
theorem Ends.gate (h : Ends a d es t o d₁) :
    Moment.gate ⟨d₁, .outside⟩ = Moment.gate ⟨d, .outside⟩ ∧ Quiet es := by
  refine ⟨?_, Quiet.remarks h.remarks⟩
  cases h with
  | report h | abandon h =>
    obtain ⟨-, rfl⟩ := takeHeld_eq_ok h
    rfl
  | cancelUnstarted h | cancelStarted h | dropRun h =>
    obtain ⟨-, rfl⟩ := takeRun_eq_ok h
    rfl
  | cancelOpened h | resolve h | panicOpening h | panicPolled h =>
    simp [Moment.gate, h, Frame.isPass]

/-- The token of a sync call is no matter of the gate. -/
theorem EndsSync.gate (h : EndsSync a d es t o d₁) :
    Moment.gate ⟨d₁, .outside⟩ = Moment.gate ⟨d, .outside⟩ ∧ Quiet es := by
  refine ⟨?_, Quiet.remarks h.remarks⟩
  cases h with
  | finishGuard h | dropGuard h =>
    obtain ⟨-, rfl⟩ := takeGuard_eq_ok h
    rfl
  | cancelStarted h | dropRun h =>
    obtain ⟨-, rfl⟩ := takeSyncRun_eq_ok h
    rfl
  | resolve h => simp [Moment.gate, h, Frame.isPass]
  | panicPolled h =>
    rw [gate_markCanceled]
    simp [Moment.gate, h, Frame.isPass]

/-- A request changes the gate of a dispatcher whose queue was changed. -/
theorem gate_request (d : Dispatcher) :
    (request d).gate = (Moment.gate ⟨d, .outside⟩).request d.ledger.queue d.next := by
  cases hp : d.promoting <;> simp [Moment.gate, request, Gate.request, Phase.passes, hp]

/-- The gate may stay as it is. -/
theorem Gate.Change.of_eq {g g' : Gate} {leaving : Bool} (h : g' = g) (hes : Quiet es) :
    g.Change leaving es g' :=
  h.symm ▸ Gate.Change.tokens (Nat.le_refl g.next) hes

/-- Every move changes the gate in one of the seven ways. -/
theorem Move.change {m m₁ : Moment} (h : Move a m es m₁) :
    m.gate.Change m.phase.isLeaving es m₁.gate := by
  cases h with
  | @submit d r ha =>
    rw [gate_request]
    exact Gate.Change.request (Alters.enqueue r.host r.duplex) (Quiet.said _)
  | submitSync ha => exact Gate.Change.startSync (Nat.le_succ _) (Quiet.said _)
  | reserveSync ha => exact Gate.Change.tokens (Nat.le_succ _) Quiet.nil
  | startSync ha h hs =>
    obtain ⟨-, rfl⟩ := takeSyncRun_eq_ok h
    exact Gate.Change.startSync (Nat.le_refl _) ((Quiet.said _).append fun _ => rfl)
  | dropUnstarted ha h hs =>
    obtain ⟨-, rfl⟩ := takeSyncRun_eq_ok h
    exact Gate.Change.of_eq rfl Quiet.nil
  | openRun ha h =>
    obtain ⟨-, rfl⟩ := takeHeld_eq_ok h
    exact Gate.Change.of_eq rfl Quiet.nil
  | openTask ha h hs hc | pollTask ha h hs hc =>
    obtain ⟨-, rfl⟩ := takeRun_eq_ok h
    exact Gate.Change.of_eq rfl fun _ => rfl
  | pollSync ha h hs hc =>
    obtain ⟨-, rfl⟩ := takeSyncRun_eq_ok h
    exact Gate.Change.of_eq rfl fun _ => rfl
  | pollOpened ha h hc =>
    exact Gate.Change.of_eq (by simp [Moment.gate, h, Frame.isPass]) fun _ => rfl
  | suspend ha h | suspendSync ha h =>
    exact Gate.Change.of_eq (by simp [Moment.gate, h, Frame.isPass]) Quiet.nil
  | complete h hr =>
    obtain ⟨hgate, hes⟩ := h.gate
    obtain ⟨dep, hdep, rfl⟩ := Ledger.release_eq_some hr
    rw [gate_request, ← hgate]
    exact Gate.Change.request (Alters.finish hdep) (hes.append (Quiet.said _))
  | miss h hr => exact Gate.Change.of_eq h.gate.1 (h.gate.2.append (Quiet.said _))
  | completeSync h hr =>
    obtain ⟨hgate, hes⟩ := h.gate
    obtain ⟨q, hq, rfl⟩ := Ledger.releaseSync_eq_some hr
    rw [gate_request, ← hgate]
    exact Gate.Change.request (Alters.finishSync hq) (hes.append (Quiet.said _))
  | missSync h hr => exact Gate.Change.of_eq h.gate.1 (h.gate.2.append (Quiet.said _))
  | setLimit ha h =>
    obtain ⟨q, hq, rfl, -⟩ := Ledger.setLimit_eq_ok h
    rw [gate_request]
    exact Gate.Change.request (Alters.setLimit hq) (Quiet.said _)
  | @setIdle d idle ha => exact Gate.Change.setIdle idle
  | cancel ha =>
    exact Gate.Change.of_eq (gate_markCanceled _ _ _) (Quiet.remarks (remarks_markCanceled _ _))
  | cancelAll ha =>
    refine Gate.Change.of_eq (gate_markAllCanceled _ _ _) (Quiet.remarks ?_)
    exact List.forall_mem_cons.2 ⟨rfl, remarks_markAllCanceled _ _⟩
  | @promote d hp =>
    have hchange : (Moment.gate ⟨d, .passing [] none⟩).Change false _ _ :=
      Gate.Change.promote hp (Quiet.said d.ledger.promote.notices)
    rw [Moment.gate, ← Ledger.queue_promote] at hchange
    exact hchange
  | handOver reply | invoke reply =>
    exact Gate.Change.of_eq (by simp [Moment.gate, Phase.passes, Frame.isPass, List.countP_cons])
      fun _ => rfl
  | close hp => exact Gate.Change.close hp
  | resume ha h | resumeIdle ha h | fail ha h | failIdle ha h =>
    exact Gate.Change.of_eq (by simp [Moment.gate, h, Phase.passes, Frame.isPass, List.countP_cons])
      Quiet.nil
  | @abandon d t rest l notices hp hr =>
    obtain ⟨dep, hdep, rfl⟩ := Ledger.release_eq_some hr
    -- the request is folded into the pass that is about to end
    have hes : Quiet (.said (.dropped t (d.ledger.host t)) :: notices.map .said) :=
      Quiet.said (.dropped t (d.ledger.host t) :: notices)
    have hchange : (Moment.gate ⟨d, .leaving (t :: rest)⟩).Change true _ _ :=
      Gate.Change.request (Alters.finish hdep) hes
    rw [Gate.request_of_promoting hp] at hchange
    exact hchange
  | abandonMiss hr => exact Gate.Change.of_eq rfl (Quiet.said _)
  | unlatch => exact Gate.Change.panic rfl

end CallAdmission.Dispatcher
