import CallAdmission.Proofs.Dispatcher.Account
import Mathlib.Data.List.ReduceOption

/-!
# CallAdmission.Proofs.Dispatcher.Notification

When the idle callback is invoked. A busy period begins with an admission or with a sync call, and
ends at the first pass that finds nothing running. Then the callback that is registered is invoked,
once; at no other time is any callback invoked.

* `Custody.Step.busy`, `Custody.Step.invocations` — what a step does to the busy latch, and what it
  invokes;
* `periods` — the busy periods of a course;
* `notification_of_follow` — how callbacks are invoked in every course.
-/

namespace CallAdmission.Dispatcher

/-! ## what marks tell -/

/-- The callback that is invoked. -/
def Mark.callback? : Mark → Option Callback
  | .invokes idle => some idle
  | .waits _ | .runs _ | .ends _ | .misses _ | .passes => none

/-- A call is admitted, or a sync call is submitted. -/
def Mark.isRun : Mark → Bool
  | .runs _ => true
  | .waits _ | .ends _ | .misses _ | .passes | .invokes _ => false

/-- The idle callbacks that are invoked, in order. -/
def invocations (ms : List Mark) : List Callback := ms.filterMap Mark.callback?

/-- Since the last invocation of a callback a call was admitted, or a sync call was submitted. -/
def Stirred (ms : List Mark) : Prop :=
  ∃ front t back, ms = front ++ .runs t :: back ∧ invocations back = []

section Marks

variable {ms ms' : List Mark}

@[simp] theorem invocations_append :
    invocations (ms ++ ms') = invocations ms ++ invocations ms' := List.filterMap_append

theorem Stirred.append (h : Stirred ms) (h' : invocations ms' = []) : Stirred (ms ++ ms') := by
  obtain ⟨front, t, back, rfl, hback⟩ := h
  exact ⟨front, t, back ++ ms', by simp, by rw [invocations_append, hback, h']; rfl⟩

/-- Nothing but an admission or a sync call stirs. -/
theorem stirred_of_any (h : ms'.any Mark.isRun = true) (h' : invocations ms' = []) :
    Stirred (ms ++ ms') := by
  obtain ⟨m, hm, hrun⟩ := List.any_eq_true.1 h
  obtain ⟨front, back, rfl⟩ := List.append_of_mem hm
  cases m with
  | runs t =>
    refine ⟨ms ++ front, t, back, by simp, ?_⟩
    rw [invocations_append] at h'
    exact (List.append_eq_nil_iff.1 h').2
  | waits | ends | misses | passes | invokes => cases hrun

theorem invocations_promotionMarks (p : Ledger.Promotion) :
    invocations (promotionMarks p) = p.idle.toList := by
  have hruns : invocations (p.admitted.map .runs) = [] := by
    simp [invocations, List.filterMap_map, Mark.callback?, Function.comp_def]
  have hinvokes : invocations (p.idle.toList.map .invokes) = p.idle.toList := by
    cases p.idle <;> rfl
  rw [promotionMarks, invocations_append, hruns, hinvokes]
  rfl

/-- The marks of a pass after those of the deed that led to it. -/
theorem any_pass (ms : List Mark) (l : Ledger) :
    (ms ++ .passes :: promotionMarks l.promote).any Mark.isRun =
      (ms.any Mark.isRun || !l.queue.promote.admitted.isEmpty) := by
  have hinvokes : (l.promote.idle.toList.map Mark.invokes).any Mark.isRun = false := by
    cases l.promote.idle <;> rfl
  have hruns : (l.promote.admitted.map Mark.runs).any Mark.isRun =
      !l.queue.promote.admitted.isEmpty := by
    simp only [Ledger.promote]
    cases l.queue.promote.admitted <;> rfl
  rw [List.any_append, List.any_cons, promotionMarks, List.any_append, hinvokes, hruns,
    Bool.or_false]
  rfl

theorem still_marks (h : ∀ m ∈ ms, m.isStill = true) :
    ms.any Mark.isRun = false ∧ invocations ms = [] ∧ ms.contains .passes = false := by
  induction ms with
  | nil => exact ⟨rfl, rfl, rfl⟩
  | cons m ms ih =>
    obtain ⟨hm, hms⟩ := List.forall_mem_cons.1 h
    cases m with
    | waits | ends | misses => exact ih hms
    | runs | passes | invokes => cases hm

end Marks

/-! ## one step -/

section Step

variable {q q' : Queue} {next next' : Ticket} {ms : List Mark}

/-- No deed is a pass, or invokes a callback; a sync call makes the queue busy. -/
theorem Effect.busy (h : Effect q next ms q' next') :
    q'.busy = (q.busy || ms.any Mark.isRun) ∧ invocations ms = [] ∧
      ms.contains .passes = false := by
  cases h with
  | keep hms =>
    obtain ⟨hrun, hstill⟩ := still_marks hms
    exact ⟨by rw [hrun, Bool.or_false], hstill⟩
  | alters hms h =>
    obtain ⟨hrun, hstill⟩ := still_marks hms
    exact ⟨by rw [hrun, Bool.or_false, h.busy.1], hstill⟩
  | enqueueSync t => exact ⟨(Bool.or_true _).symm, rfl, rfl⟩
  | setIdle idle => exact ⟨(Bool.or_false _).symm, rfl, rfl⟩

/-- Whatever runs has been noticed, and is noticed after a deed. -/
theorem Effect.noticed (h : Effect q next ms q' next') (hq : 0 < q.runningCount → q.busy = true)
    (hcount : 0 < q'.runningCount) : q'.busy = true := by
  cases h with
  | keep => exact hq hcount
  | alters hms h =>
    rw [h.busy.1]
    obtain ⟨hrunning, hsync⟩ := h.sublist
    exact hq (Nat.lt_of_lt_of_le hcount (Nat.add_le_add hrunning.length_le hsync.length_le))
  | enqueueSync t => rfl
  | setIdle idle => exact hq hcount

end Step

namespace Custody

variable {c c' : Custody} {ends : List (Ticket × Ending)} {ms : List Mark}

theorem Deeds.busy (h : c.Deeds ends ms c') :
    c'.ledger.queue.busy = (c.ledger.queue.busy || ms.any Mark.isRun) ∧ invocations ms = [] ∧
      ms.contains .passes = false := by
  induction h with
  | nil c => exact ⟨(Bool.or_false _).symm, rfl, rfl⟩
  | cons hdeed _ ih =>
    obtain ⟨hbusy, hinvocations, hpasses⟩ := hdeed.effect.busy
    obtain ⟨hbusy', hinvocations', hpasses'⟩ := ih
    refine ⟨?_, by rw [invocations_append, hinvocations, hinvocations']; rfl, ?_⟩
    · rw [hbusy', hbusy, List.any_append, Bool.or_assoc]
    · rw [List.contains_append, hpasses, hpasses']
      rfl

/-- A step makes the queue busy if a call begins to run in it, and ends the busy period if it is a
pass that finds nothing running. -/
theorem Step.busy (h : c.Step ends ms c') :
    c'.ledger.queue.busy =
      ((c.ledger.queue.busy || ms.any Mark.isRun) &&
        !(ms.contains .passes && decide (c'.ledger.queue.runningCount = 0))) := by
  cases h with
  | deeds hdeeds =>
    obtain ⟨hbusy, -, hpasses⟩ := hdeeds.busy
    rw [hbusy, hpasses]
    simp
  | @pass ms c₁ hdeed hq =>
    obtain ⟨hbusy, -, -⟩ := hdeed.effect.busy
    have hpasses : (ms ++ .passes :: promotionMarks c₁.ledger.promote).contains .passes = true := by
      simp
    rw [promote_queue, any_pass, hpasses, Queue.promote_busy, hbusy, Bool.true_and, Bool.or_assoc,
      decide_not]

/-- Only the end of a busy period invokes a callback: the one that is registered, once. -/
theorem Step.invocations (h : c.Step ends ms c') :
    invocations ms =
      if c.ledger.queue.busy && !c'.ledger.queue.busy then c.ledger.queue.idle.toList else [] := by
  cases h with
  | deeds hdeeds =>
    obtain ⟨hbusy, hinvocations, -⟩ := hdeeds.busy
    rw [hinvocations, hbusy]
    cases c.ledger.queue.busy <;> simp
  | @pass ms c₁ hdeed hq =>
    obtain ⟨-, hinvocations, -⟩ := hdeed.effect.busy
    obtain ⟨hbusy, hregistered⟩ := hq.busy
    have hidle : c₁.ledger.promote.idle = c₁.ledger.queue.promote.idle := rfl
    have hpass : Dispatcher.invocations (.passes :: promotionMarks c₁.ledger.promote) =
        c₁.ledger.promote.idle.toList := invocations_promotionMarks c₁.ledger.promote
    rw [invocations_append, hinvocations, List.nil_append, hpass, hidle, promote_queue,
      Queue.promote_idle, hbusy, hregistered]
    split <;> rfl

theorem Deeds.noticed (h : c.Deeds ends ms c')
    (hc : 0 < c.ledger.queue.runningCount → c.ledger.queue.busy = true) :
    0 < c'.ledger.queue.runningCount → c'.ledger.queue.busy = true := by
  induction h with
  | nil c => exact hc
  | cons hdeed _ ih => exact ih fun hcount => hdeed.effect.noticed hc hcount

/-- As long as anything runs, the queue is busy. -/
theorem Step.noticed (h : c.Step ends ms c')
    (hc : 0 < c.ledger.queue.runningCount → c.ledger.queue.busy = true) :
    0 < c'.ledger.queue.runningCount → c'.ledger.queue.busy = true := by
  cases h with
  | deeds hdeeds => exact hdeeds.noticed hc
  | @pass ms c₁ hdeed hq =>
    intro hcount
    rw [promote_queue] at hcount ⊢
    exact Queue.busy_promote (hdeed.effect.noticed hc) hcount

/-- A busy period begins with the first call that begins to run. -/
theorem Step.begins (h : c.Step ends ms c') (hbusy : c.ledger.queue.busy = false) :
    c'.ledger.queue.busy = ms.any Mark.isRun := by
  cases h with
  | deeds hdeeds => rw [hdeeds.busy.1, hbusy, Bool.false_or]
  | @pass ms c₁ hdeed hq =>
    have hbusy₁ : c₁.ledger.queue.busy = false := hq.busy.1.trans hbusy
    have hdeed₁ := hdeed.effect.busy.1
    rw [hbusy, Bool.false_or, hbusy₁] at hdeed₁
    rw [promote_queue, Queue.promote_busy, hbusy₁, Bool.false_or, any_pass, ← hdeed₁, Bool.false_or]
    cases hadmitted : c₁.ledger.queue.promote.admitted with
    | nil => rfl
    | cons e rest =>
      have hcount : c₁.ledger.queue.promote.queue.runningCount ≠ 0 := by
        intro h0
        rw [Queue.admitted_eq_nil_of_runningCount h0] at hadmitted
        cases hadmitted
      simp [hcount]

/-- At the end of a busy period no call runs and none waits. -/
theorem Step.quiet (h : c.Step ends ms c') (hcoherent : c.ledger.queue.Coherent c.next)
    (hvalid : c.ledger.queue.limits.validate = .ok ()) (hbusy : c.ledger.queue.busy = true)
    (hbusy' : c'.ledger.queue.busy = false) :
    c'.ledger.queue.runningCount = 0 ∧ c'.ledger.queue.ready = [] := by
  cases h with
  | deeds hdeeds =>
    rw [hdeeds.busy.1, hbusy, Bool.true_or] at hbusy'
    cases hbusy'
  | @pass ms c₁ hdeed hq =>
    obtain ⟨next, hcoherent₁⟩ := hq.coherent hcoherent
    have hbusy₁ : c₁.ledger.queue.busy = true := hq.busy.1.trans hbusy
    rw [promote_queue] at hbusy' ⊢
    have hcount : c₁.ledger.queue.promote.queue.runningCount = 0 := by
      rw [Queue.promote_busy, hbusy₁, Bool.true_or, Bool.true_and] at hbusy'
      simpa using hbusy'
    obtain ⟨htotal, hhost⟩ := (Limits.validate_eq_ok_iff _).1 (hq.validate hvalid)
    rw [← Queue.promote_limits] at htotal hhost
    exact ⟨hcount, hcoherent₁.settled_promote.ready_eq_nil htotal hhost hcount⟩

end Custody

/-! ## between two invocations -/

/-- Where a mark stands in two series of marks. -/
theorem exists_split_of_append {ms ms' front back : List Mark} {m : Mark}
    (h : ms ++ ms' = front ++ m :: back) :
    (∃ mid, ms = front ++ m :: mid) ∨ ∃ mid, front = ms ++ mid ∧ ms' = mid ++ m :: back := by
  rcases List.append_eq_append_iff.1 h with ⟨mid, rfl, hmid⟩ | ⟨mid, rfl, hmid⟩
  · exact .inr ⟨mid, rfl, hmid⟩
  · cases mid with
    | nil => exact .inr ⟨[], by simp, by simpa using hmid.symm⟩
    | cons m' mid =>
      obtain ⟨rfl, -⟩ := List.cons.inj hmid
      exact .inl ⟨mid, rfl⟩

/-- Something has begun to run before each invocation, and since the last one if the queue is
busy. -/
structure Custody.Paced (ms : List Mark) (c : Custody) : Prop where
  busy : c.ledger.queue.busy = true → Stirred ms
  invoked : ∀ front callback back, ms = front ++ .invokes callback :: back → Stirred front

theorem Custody.Paced.step {c c' : Custody} {ends : List (Ticket × Ending)} {ms ms' : List Mark}
    (h : c.Paced ms) (hstep : c.Step ends ms' c') : c'.Paced (ms ++ ms') := by
  have hbusy' := hstep.busy
  have hinvocations := hstep.invocations
  refine ⟨fun hbusy => ?_, fun front callback back hsplit => ?_⟩
  · rw [hbusy, Bool.not_true, Bool.and_false, if_neg (by simp)] at hinvocations
    rw [hbusy] at hbusy'
    have hstirred := (Bool.and_eq_true_iff.1 hbusy'.symm).1
    rcases Bool.or_eq_true_iff.1 hstirred with hb | hruns
    · exact (h.busy hb).append hinvocations
    · exact stirred_of_any hruns hinvocations
  · rcases exists_split_of_append hsplit with ⟨mid, hmid⟩ | ⟨mid, rfl, hmid⟩
    · exact h.invoked front callback mid hmid
    · -- a step invokes one callback at most, and only at the end of a busy period
      have hone : invocations mid ++ callback :: invocations back =
          if c.ledger.queue.busy && !c'.ledger.queue.busy then c.ledger.queue.idle.toList
          else [] := by
        rw [← hinvocations, hmid, invocations_append]
        rfl
      cases hb : c.ledger.queue.busy with
      | false => simp [hb] at hone
      | true =>
        have hnone : invocations mid = [] := by
          have hlength := congrArg List.length hone
          have hle : c.ledger.queue.idle.toList.length ≤ 1 := by
            cases c.ledger.queue.idle <;> simp
          simp only [List.length_append, List.length_cons, apply_ite List.length,
            List.length_nil] at hlength
          exact List.eq_nil_of_length_eq_zero (by split at hlength <;> omega)
        exact (h.busy hb).append hnone

/-! ## courses -/

variable {limits : Limits} {notices : List Notice} {d₀ d : Dispatcher} {actions : List Action}
  {es : List Event} {callback : Callback}

/-- The busy periods that come to their end in a course, each with the callback that is registered
then, if any. -/
def periods (d : Dispatcher) (actions : List Action) : List (Option Callback) :=
  gather (fun d _ turn =>
    if d.ledger.queue.busy && !turn.dispatcher.ledger.queue.busy then [d.ledger.queue.idle] else [])
    d actions

/-- What a step has to do with busy periods. -/
structure Notifies (d : Dispatcher) (turn : Turn) : Prop where
  /-- a busy period begins when a call is admitted or a sync call is submitted -/
  begins : d.ledger.queue.busy = false →
    (turn.dispatcher.ledger.queue.busy = true ↔ ∃ t, .runs t ∈ marks turn.events)
  /-- it ends at the first pass that finds nothing running -/
  ends : d.ledger.queue.busy = true →
    (turn.dispatcher.ledger.queue.busy = false ↔
      .passStarted ∈ turn.events ∧ turn.dispatcher.ledger.queue.runningCount = 0)
  /-- then the callback that is registered is invoked, once; no other callback ever is -/
  invocations : invocations (marks turn.events) =
    if d.ledger.queue.busy && !turn.dispatcher.ledger.queue.busy then d.ledger.queue.idle.toList
    else []
  /-- when a callback is invoked, no call runs and none waits -/
  quiet : ∀ callback, .idleInvoked callback ∈ turn.events →
    turn.dispatcher.ledger.queue.runningCount = 0 ∧ turn.dispatcher.ledger.queue.ready = []

theorem mem_invocations (h : .idleInvoked callback ∈ es) : callback ∈ invocations (marks es) :=
  List.mem_filterMap.2 ⟨.invokes callback, List.mem_filterMap.2 ⟨_, h, rfl⟩, rfl⟩

theorem mem_marks_passes_iff (es : List Event) : .passes ∈ marks es ↔ .passStarted ∈ es := by
  constructor
  · intro hmem
    obtain ⟨e, he, hmark⟩ := List.mem_filterMap.1 hmem
    cases e with
    | passStarted => exact he
    | said n => cases n <;> cases hmark
    | _ => cases hmark
  · exact fun hmem => List.mem_filterMap.2 ⟨_, hmem, rfl⟩

theorem any_isRun_iff (ms : List Mark) : ms.any Mark.isRun = true ↔ ∃ t, .runs t ∈ ms := by
  rw [List.any_eq_true]
  constructor
  · rintro ⟨m, hm, hrun⟩
    cases m with
    | runs t => exact ⟨t, hm⟩
    | waits | ends | misses | passes | invokes => cases hrun
  · rintro ⟨t, ht⟩
    exact ⟨_, ht, rfl⟩

theorem step_notifies (hcreate : create limits = .ok (d₀, notices))
    (h : d₀.follow actions = .ok (d, es)) {a : Action} {turn : Turn} (hstep : d.step a = .ok turn) :
    Notifies d turn := by
  have hturn := step_custody_of_follow hcreate h hstep
  have hsound := sound_of_follow hcreate h
  refine ⟨fun hbusy => ?_, fun hbusy => ?_, hturn.invocations, fun callback hinvoked => ?_⟩
  · rw [← any_isRun_iff, ← hturn.begins hbusy]
    rfl
  · have hends : turn.dispatcher.ledger.queue.busy =
        ((d.ledger.queue.busy || (marks turn.events).any Mark.isRun) &&
          !((marks turn.events).contains .passes &&
            decide (turn.dispatcher.ledger.queue.runningCount = 0))) := hturn.busy
    rw [hends, hbusy, Bool.true_or, Bool.true_and, Bool.not_eq_false', Bool.and_eq_true,
      decide_eq_true_eq, List.contains_iff_mem, mem_marks_passes_iff]
  · have hmem := mem_invocations hinvoked
    rw [hturn.invocations] at hmem
    split at hmem
    · next hends =>
      rw [Bool.and_eq_true, Bool.not_eq_true'] at hends
      exact hturn.quiet hsound.coherent hsound.valid hends.1 hends.2
    · exact absurd hmem List.not_mem_nil

/-- Something has begun to run before each invocation in a course, and since the last one if the
queue is busy after it. -/
theorem paced_of_follow (hcreate : create limits = .ok (d₀, notices))
    (h : d₀.follow actions = .ok (d, es)) :
    Custody.Paced (marks es) (Moment.custody ⟨d, .outside⟩) := by
  have hstart : Custody.Paced [] (Moment.custody ⟨d₀, .outside⟩) := by
    obtain ⟨-, rfl⟩ := create_eq_ok hcreate
    exact ⟨nofun, fun front _ _ hsplit => by cases front <;> cases hsplit⟩
  exact custody_induction (P := fun _ ms c => c.Paced ms)
    (fun _ _ _ _ _ _ hpaced hstep => hpaced.step hstep) hcreate hstart h

/-- As long as anything runs, the queue is busy. -/
theorem noticed_of_follow (hcreate : create limits = .ok (d₀, notices))
    (h : d₀.follow actions = .ok (d, es)) :
    0 < d.ledger.queue.runningCount → d.ledger.queue.busy = true := by
  refine custody_induction
    (P := fun _ _ c => 0 < c.ledger.queue.runningCount → c.ledger.queue.busy = true)
    (fun _ _ _ _ _ _ hnoticed hstep => hstep.noticed hnoticed) hcreate ?_ h
  obtain ⟨-, rfl⟩ := create_eq_ok hcreate
  exact nofun

theorem periods_concat {a : Action} {turn : Turn} (h : d₀.follow actions = .ok (d, es))
    (hstep : d.step a = .ok turn) :
    d₀.periods (actions ++ [a]) = d₀.periods actions ++
      if d.ledger.queue.busy && !turn.dispatcher.ledger.queue.busy then [d.ledger.queue.idle]
      else [] :=
  gather_concat h hstep

/-- The callbacks that are invoked in a course are those that its busy periods end with. -/
theorem invocations_of_follow (hcreate : create limits = .ok (d₀, notices))
    (h : d₀.follow actions = .ok (d, es)) :
    invocations (marks es) = (d₀.periods actions).reduceOption := by
  induction actions using List.reverseRecOn generalizing d es with
  | nil =>
    cases h
    rfl
  | append_singleton actions a ih =>
    obtain ⟨d₁, es₁, turn, hfollow, hstep, rfl, rfl⟩ := follow_concat_eq_ok h
    rw [marks_append, invocations_append, ih hfollow, periods_concat hfollow hstep,
      List.reduceOption_append, (step_notifies hcreate hfollow hstep).invocations]
    congr 1
    split
    · cases d₁.ledger.queue.idle <;> rfl
    · rfl

theorem marks_idleInvoked {front back : List Event} :
    marks (front ++ .idleInvoked callback :: back) =
      marks front ++ .invokes callback :: marks back := by
  rw [marks_append]
  rfl

/-- **Idle notification.** Whatever is nested and whatever panics: each step begins and ends busy
periods as it must; a call has been admitted or a sync call submitted before each invocation, since
the invocation before it; whatever runs is noticed; and the callbacks that are invoked are those
that the busy periods of the course end with, in this order. If nothing panics and nothing runs at
rest, the last busy period has ended, and no step invokes a callback. -/
theorem notification_of_follow (hcreate : create limits = .ok (d₀, notices))
    (h : d₀.follow actions = .ok (d, es)) :
    (∀ a turn, d.step a = .ok turn → Notifies d turn) ∧
      (∀ front callback back, es = front ++ .idleInvoked callback :: back →
        Stirred (marks front)) ∧
      (0 < d.ledger.queue.runningCount → d.ledger.queue.busy = true) ∧
      invocations (marks es) = (d₀.periods actions).reduceOption ∧
      ((∀ message, .panic message ∉ actions) → d.AtRest → d.ledger.queue.runningCount = 0 →
        d.ledger.queue.busy = false ∧
          ∀ a turn, d.step a = .ok turn → invocations (marks turn.events) = []) := by
  refine ⟨fun a turn hstep => step_notifies hcreate h hstep, fun front callback back hsplit => ?_,
    noticed_of_follow hcreate h, invocations_of_follow hcreate h, fun hcalm hrest hcount => ?_⟩
  · rw [hsplit] at h
    exact (paced_of_follow hcreate h).invoked _ callback _ marks_idleInvoked
  · have hsound := sound_of_follow hcreate h
    have hpending : d.pending = false := by
      cases hp : d.pending with
      | false => rfl
      | true =>
        have hup := (calm_of_follow hcreate h hcalm).promoting hp
        have hdown := promoting_eq_false_of_atRest (latched_of_follow hcreate h) hrest
        exact absurd (hdown.symm.trans hup) nofun
    have hbusy : d.ledger.queue.busy = false := (hsound.served hpending).quiet hcount
    refine ⟨hbusy, fun a turn hstep => ?_⟩
    rw [(step_notifies hcreate h hstep).invocations, hbusy]
    rfl

/-- Two busy periods. The first one goes on while calls end inside a pass. -/
def busyCourse : List Action :=
  [.setIdle (some 7), .submit ⟨⟨"a"⟩, false⟩,
    -- the executor reports the call that it was given, and submits another one
    .report 0 (.ok ()), .submit ⟨⟨"b"⟩, false⟩, .leave, .openRun 1, .leave,
    .setIdle (some 8), .dropRun 1,
    -- the callback submits a sync call and takes itself back
    .submitSync ⟨"c"⟩, .setIdle none, .leave, .finishGuard 2 (.ok ()),
    .setIdle (some 9), .setLimit .total 3]

/-- The first busy period is answered by the callback that replaced another one, the second one by
none, for none is registered. -/
theorem notification_of_busyCourse :
    ∃ d₀ notices d es, create ⟨1, 1⟩ = .ok (d₀, notices) ∧ d₀.follow busyCourse = .ok (d, es) ∧
      d₀.periods busyCourse = [some 8, none] ∧ invocations (marks es) = [8] ∧
      (∀ message, .panic message ∉ busyCourse) ∧ d.AtRest ∧
      d.ledger.queue.runningCount = 0 ∧
      (∀ a turn, d.step a = .ok turn → Notifies d turn) ∧
      (∀ front callback back, es = front ++ .idleInvoked callback :: back →
        Stirred (marks front)) ∧
      d.ledger.queue.busy = false ∧
      ∀ a turn, d.step a = .ok turn → invocations (marks turn.events) = [] := by
  obtain ⟨d₀, notices, d, es, hcreate, hcourse, hstack, hcount, hperiods⟩ :
      ∃ d₀ notices d es, create ⟨1, 1⟩ = .ok (d₀, notices) ∧ d₀.follow busyCourse = .ok (d, es) ∧
        d.stack = [] ∧ d.ledger.queue.runningCount = 0 ∧
        d₀.periods busyCourse = [some 8, none] :=
    ⟨_, _, _, _, rfl, rfl, rfl, rfl, rfl⟩
  have hcalm : ∀ message, .panic message ∉ busyCourse := by simp [busyCourse]
  have hrest : d.AtRest := atRest_of_stack_eq_nil hstack
  obtain ⟨hnotifies, hstirred, -, hinvocations, hidle⟩ := notification_of_follow hcreate hcourse
  obtain ⟨hbusy, hnone⟩ := hidle hcalm hrest hcount
  rw [hperiods] at hinvocations
  exact ⟨d₀, notices, d, es, hcreate, hcourse, hperiods, hinvocations, hcalm, hrest, hcount,
    hnotifies, hstirred, hbusy, hnone⟩

end CallAdmission.Dispatcher
