import CallAdmission.Proofs.Dispatcher.Course

/-!
# CallAdmission.Proofs.Dispatcher.Service

Whether a call that may run is left waiting. A request that comes while a pass is under way is only
noted, so the pass has to look again before it ends. It does when it ends by itself; when a panic
ends it, the note stays where it is and nobody looks.

* `Gate.Sound.change` — as long as no pass is wanted, no call that may run waits;
* `settled_of_atRest` — without panics, at rest, no call that may run waits;
* `served_iff_of_atRest` — with panics, exactly the requests that were noted and not answered can
  leave one waiting.
-/

namespace CallAdmission.Dispatcher

variable {limits : Limits} {notices : List Notice} {d₀ d : Dispatcher} {actions : List Action}
  {before es : List Event}

/-! ## changes of the queue -/

/-- The queue stays coherent when it is altered. -/
theorem Alters.coherent {q q' : Queue} {next next' : Ticket} (h : Alters q next q' next')
    (hq : q.Coherent next) : q'.Coherent next' := by
  cases h with
  | enqueue host duplex => exact hq.enqueue host duplex
  | finish h => exact hq.finish h
  | finishSync h =>
    obtain ⟨-, rfl⟩ := Queue.finishSync?_eq_some h
    exact hq.frame rfl rfl rfl
  | setLimit h =>
    obtain ⟨-, rfl⟩ := Queue.setLimit_eq_ok_iff.1 h
    exact hq.frame rfl rfl rfl

/-- The limits stay valid when the queue is altered. -/
theorem Alters.validate {q q' : Queue} {next next' : Ticket} (h : Alters q next q' next')
    (hq : q.limits.validate = .ok ()) : q'.limits.validate = .ok () := by
  rw [Limits.validate_eq_ok_iff] at hq ⊢
  cases h with
  | enqueue host duplex => exact hq
  | finish h =>
    obtain ⟨-, -, front, back, -, hqueue⟩ := Queue.finish?_eq_some h
    rw [hqueue]
    exact hq
  | finishSync h =>
    obtain ⟨-, rfl⟩ := Queue.finishSync?_eq_some h
    exact hq
  | @setLimit limit n q' h =>
    obtain ⟨hn, rfl⟩ := Queue.setLimit_eq_ok_iff.1 h
    cases limit with
    | total => exact ⟨hn, hq.2⟩
    | perHost => exact ⟨hq.1, hn⟩

/-! ## what a gate keeps -/

/-- The queue is coherent and its limits valid; the latch notes whether a pass is owed; and if none
is, the queue is served. -/
structure Gate.Sound (g : Gate) (es : List Event) : Prop where
  coherent : g.queue.Coherent g.next
  valid : g.queue.limits.validate = .ok ()
  owed : g.pending = owed es
  served : g.pending = false → g.queue.Served

/-- What is no matter of passes leaves a gate sound. -/
theorem Gate.Sound.append {g : Gate} (hg : g.Sound before) (hes : Quiet es) :
    g.Sound (before ++ es) :=
  ⟨hg.coherent, hg.valid, hg.owed.trans (owed_append_of_quiet hes).symm, hg.served⟩

/-- However a gate changes, it stays sound. -/
theorem Gate.Sound.change {g g' : Gate} {leaving : Bool} (hg : g.Sound before)
    (h : g.Change leaving es g') : g'.Sound (before ++ es) := by
  cases h with
  | tokens hn hes =>
    have hsound := hg.append hes
    exact ⟨hsound.coherent.mono hn, hsound.valid, hsound.owed, hsound.served⟩
  | @startSync es t next hn hes =>
    have hsound := hg.append hes
    exact ⟨(hsound.coherent.enqueueSync t).mono hn, hsound.valid, hsound.owed,
      fun hp => (hsound.served hp).enqueueSync t⟩
  | setIdle idle =>
    have hsound := hg.append Quiet.nil
    exact ⟨hsound.coherent.frame rfl rfl rfl, hsound.valid, hsound.owed,
      fun hp => (hsound.served hp).setIdle idle⟩
  | request h hes =>
    refine ⟨h.coherent hg.coherent, h.validate hg.valid, ?_, nofun⟩
    rw [← List.append_assoc, owed_append_passRequested]
    rfl
  | promote hp hes =>
    refine ⟨hg.coherent.promote, ?_, (owed_append_passStarted hes).symm,
      fun _ => hg.coherent.served_promote⟩
    rw [Queue.promote_limits]
    exact hg.valid
  | close | panic =>
    -- the end of a pass touches the latch alone; what a panic leaves wanted stays wanted
    have hsound := hg.append Quiet.nil
    exact ⟨hsound.coherent, hsound.valid, hsound.owed, hsound.served⟩

/-- A dispatcher starts with a sound gate. -/
theorem sound_create (h : create limits = .ok (d, notices)) :
    (Moment.gate ⟨d, .outside⟩).Sound [] := by
  obtain ⟨hvalid, rfl⟩ := create_eq_ok h
  exact ⟨Queue.coherent_empty limits 0, limits.validate_eq_ok_iff.2 hvalid, rfl,
    fun _ => Queue.served_empty limits⟩

/-- After every course the gate is sound. -/
theorem sound_of_follow (hcreate : create limits = .ok (d₀, notices))
    (h : d₀.follow actions = .ok (d, es)) : (Moment.gate ⟨d, .outside⟩).Sound es :=
  follow_create (P := fun es m => m.gate.Sound es)
    (fun _ _ _ _ _ _ hsound hmove => hsound.change hmove.change) hcreate (sound_create hcreate) h

/-! ## courses without panics -/

/-- No panic is leaving a pass, and a pass is wanted only while one is under way. -/
structure Moment.Calm (m : Moment) : Prop where
  isLeaving : m.phase.isLeaving = false
  promoting : m.dispatcher.pending = true → m.dispatcher.promoting = true

theorem isLeaving_request (d : Dispatcher) : (request d).phase.isLeaving = false := by
  unfold request
  dsimp only
  split <;> rfl

/-- Only a panic makes a pass be left. -/
theorem Move.isLeaving {a : Action} {m m₁ : Moment} (h : Move a m es m₁)
    (ha : ∀ message, a ≠ .panic message) (hm : m.phase.isLeaving = false) :
    m₁.phase.isLeaving = false := by
  cases h with
  | submit | complete | completeSync | setLimit => exact isLeaving_request _
  | fail hp | failIdle hp => exact absurd hp (ha _)
  | abandon | abandonMiss => contradiction
  | _ => rfl

/-- Unless a panic leaves a pass, a pass is wanted only while one is under way. -/
theorem Gate.Change.promoting {g g' : Gate} {leaving : Bool} (h : g.Change leaving es g')
    (hleaving : leaving = false) (hg : g.pending = true → g.promoting = true) :
    g'.pending = true → g'.promoting = true := by
  cases h with
  | tokens | startSync | setIdle => exact hg
  | request => exact fun _ => rfl
  | promote => exact nofun
  | close hp => exact fun hp' => absurd (hp.symm.trans hp') nofun
  | panic hl => exact absurd (hleaving.symm.trans hl) nofun

theorem Move.calm {a : Action} {m m₁ : Moment} (h : Move a m es m₁)
    (ha : ∀ message, a ≠ .panic message) (hm : m.Calm) : m₁.Calm :=
  ⟨h.isLeaving ha hm.isLeaving, h.change.promoting hm.isLeaving hm.promoting⟩

/-- After a course without panics no pass is wanted unless one is under way. -/
theorem calm_of_follow (hcreate : create limits = .ok (d₀, notices))
    (h : d₀.follow actions = .ok (d, es)) (hcalm : ∀ message, .panic message ∉ actions) :
    Moment.Calm ⟨d, .outside⟩ := by
  have hstart : Moment.Calm ⟨d₀, .outside⟩ := by
    obtain ⟨-, rfl⟩ := create_eq_ok hcreate
    exact ⟨rfl, nofun⟩
  refine follow_create (P := fun _ m => m.Calm) ?_ hcreate hstart h
  intro a ha before m es m₁ hm hmove
  exact hmove.calm (fun message hp => hcalm message (hp ▸ ha)) hm

/-- **No stranded call without panics.** However operations are nested, at rest the latch is down
and no pass is wanted; no slot is free, or every waiting call counts against the limit of a full
host; and if nothing runs, no call waits. -/
theorem settled_of_atRest (hcreate : create limits = .ok (d₀, notices))
    (h : d₀.follow actions = .ok (d, es)) (hcalm : ∀ message, .panic message ∉ actions)
    (hrest : d.AtRest) :
    d.promoting = false ∧ d.pending = false ∧ d.ledger.queue.Settled ∧
      (d.ledger.queue.runningCount = 0 → d.ledger.queue.ready = []) := by
  have hsound := sound_of_follow hcreate h
  have hpromoting := promoting_eq_false_of_atRest (latched_of_follow hcreate h) hrest
  have hpending : d.pending = false := by
    cases hp : d.pending with
    | false => rfl
    | true =>
      have hup := (calm_of_follow hcreate h hcalm).promoting hp
      exact absurd (hpromoting.symm.trans hup) nofun
  have hsettled := (hsound.served hpending).settled
  obtain ⟨htotal, hhost⟩ := (Limits.validate_eq_ok_iff _).1 hsound.valid
  exact ⟨hpromoting, hpending, hsettled, hsettled.ready_eq_nil htotal hhost⟩

/-- A course of nested operations, and one more call after them. -/
def nestedCourse : List Action :=
  [.submit ⟨⟨"a"⟩, false⟩,
    -- the executor submits two calls and reports the one that it was given
    .submit ⟨⟨"a"⟩, false⟩, .submit ⟨⟨"b"⟩, true⟩, .report 0 (.ok ()), .leave,
    -- it lowers the limit, which comes too late for the other call of the same promotion
    .setLimit .total 1, .leave, .leave,
    .submit ⟨⟨"c"⟩, false⟩]

/-- The call that is left waiting has to wait: two calls run, and one may. -/
theorem settled_of_nestedCourse :
    ∃ d₀ notices d es, create ⟨2, 1⟩ = .ok (d₀, notices) ∧ d₀.follow nestedCourse = .ok (d, es) ∧
      (∀ message, .panic message ∉ nestedCourse) ∧ d.AtRest ∧
      d.ledger.queue.queuedCalls = [3] ∧ d.ledger.queue.runningCalls = [1, 2] ∧
      d.promoting = false ∧ d.pending = false ∧ d.ledger.queue.Settled ∧
      (d.ledger.queue.runningCount = 0 → d.ledger.queue.ready = []) := by
  obtain ⟨d₀, notices, d, es, hcreate, hcourse, hstack, hqueued, hrunning⟩ :
      ∃ d₀ notices d es, create ⟨2, 1⟩ = .ok (d₀, notices) ∧ d₀.follow nestedCourse = .ok (d, es) ∧
        d.stack = [] ∧ d.ledger.queue.queuedCalls = [3] ∧
        d.ledger.queue.runningCalls = [1, 2] :=
    ⟨_, _, _, _, rfl, rfl, rfl, rfl, rfl⟩
  have hcalm : ∀ message, .panic message ∉ nestedCourse := by simp [nestedCourse]
  have hrest : d.AtRest := atRest_of_stack_eq_nil hstack
  exact ⟨d₀, notices, d, es, hcreate, hcourse, hcalm, hrest, hqueued, hrunning,
    settled_of_atRest hcreate hcourse hcalm hrest⟩

/-! ## courses with panics -/

/-- **What a panic leaves behind.** At rest, whatever has panicked, no call that may run waits and
no idle callback is due, exactly if no pass is owed, or the pass that is owed would do nothing. -/
theorem served_iff_of_atRest (hcreate : create limits = .ok (d₀, notices))
    (h : d₀.follow actions = .ok (d, es)) (hrest : d.AtRest) :
    d.promoting = false ∧ d.pending = owed es ∧
      (d.ledger.queue.Served ↔
        (owed es = true → d.ledger.queue.promote.queue = d.ledger.queue)) := by
  have hsound := sound_of_follow hcreate h
  refine ⟨promoting_eq_false_of_atRest (latched_of_follow hcreate h) hrest, hsound.owed, ?_⟩
  have hiff : d.ledger.queue.Served ↔ _ := hsound.coherent.served_iff_promote_eq
  constructor
  · exact fun hserved _ => hiff.1 hserved
  · intro hpass
    cases hp : owed es with
    | true => exact hiff.2 (hpass hp)
    | false => exact hsound.served (hsound.owed.trans hp)

/-- The idle callback panics, and nothing was asked for meanwhile. -/
def idlePanicCourse : List Action :=
  [.setIdle (some 7), .submit ⟨⟨"a"⟩, false⟩, .report 0 (.ok ()), .leave,
    .panic "idle callback failed"]

theorem served_of_idlePanicCourse :
    ∃ d₀ notices d es, create ⟨1, 1⟩ = .ok (d₀, notices) ∧
      d₀.follow idlePanicCourse = .ok (d, es) ∧ d.AtRest ∧ owed es = false ∧
      d.promoting = false ∧ d.pending = owed es ∧
      (d.ledger.queue.Served ↔
        (owed es = true → d.ledger.queue.promote.queue = d.ledger.queue)) := by
  obtain ⟨d₀, notices, d, es, hcreate, hcourse, hstack, howed⟩ :
      ∃ d₀ notices d es, create ⟨1, 1⟩ = .ok (d₀, notices) ∧
        d₀.follow idlePanicCourse = .ok (d, es) ∧ d.stack = [] ∧ owed es = false :=
    ⟨_, _, _, _, rfl, rfl, rfl, rfl⟩
  have hrest : d.AtRest := atRest_of_stack_eq_nil hstack
  exact ⟨d₀, notices, d, es, hcreate, hcourse, hrest, howed,
    served_iff_of_atRest hcreate hcourse hrest⟩

/-- While the executor has the one call that may run, another one is submitted; then the executor
drops its call and panics. -/
def executorPanicCourse : List Action :=
  [.submit ⟨⟨"a"⟩, false⟩, .submit ⟨⟨"b"⟩, false⟩, .abandon 0, .panic "executor rejected call"]

/-- The second call waits while nothing runs, and the idle callback stays due. -/
theorem stranded_of_executorPanicCourse :
    ∃ d₀ notices d es, create ⟨1, 5⟩ = .ok (d₀, notices) ∧
      d₀.follow executorPanicCourse = .ok (d, es) ∧ d.AtRest ∧
      d.ledger.queue.runningCount = 0 ∧ d.ledger.queue.queuedCalls = [1] ∧
      ¬ d.ledger.queue.Settled ∧
      ¬ (d.ledger.queue.runningCount = 0 → d.ledger.queue.busy = false) := by
  obtain ⟨d₀, notices, d, es, hcreate, hcourse, hstack, hrunning, hqueued, hlimits, hbusy⟩ :
      ∃ d₀ notices d es, create ⟨1, 5⟩ = .ok (d₀, notices) ∧
        d₀.follow executorPanicCourse = .ok (d, es) ∧ d.stack = [] ∧
        d.ledger.queue.runningCount = 0 ∧ d.ledger.queue.queuedCalls = [1] ∧
        d.ledger.queue.limits = ⟨1, 5⟩ ∧ d.ledger.queue.busy = true :=
    ⟨_, _, _, _, rfl, rfl, rfl, rfl, rfl, rfl, rfl⟩
  refine ⟨d₀, notices, d, es, hcreate, hcourse, atRest_of_stack_eq_nil hstack, hrunning, hqueued,
    fun hsettled => ?_, fun hquiet => ?_⟩
  · have htotal : 1 ≤ d.ledger.queue.limits.maxRequests := by rw [hlimits]; decide
    have hhost : 1 ≤ d.ledger.queue.limits.maxPerHost := by rw [hlimits]; decide
    have hready := hsettled.ready_eq_nil htotal hhost hrunning
    rw [Queue.queuedCalls, hready] at hqueued
    contradiction
  · exact absurd (hbusy.symm.trans (hquiet hrunning)) nofun

end CallAdmission.Dispatcher
