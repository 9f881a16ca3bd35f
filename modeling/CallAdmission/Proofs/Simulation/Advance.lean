import CallAdmission.Proofs.Simulation.Tended

/-!
# CallAdmission.Proofs.Simulation.Advance

The turns of a simulation. In each of them the first task in line is suspended, or it ends and a
pass follows; or no task can run and time passes. Between turns a simulation is `Steady`: every
running call has a task, which is in line or has a timer, but not both.

A call costs three turns at most: one in which its task is suspended, one in which its timer is due,
and one in which it ends. So there is an end, and it is reached with the turns that there are.

* `Advance` — one turn;
* `Steady.exists_advance`, `Steady.advance` — as long as there is a task there is a turn, and every
  turn keeps a simulation steady;
* `exists_leads_submitAll`, `exists_leads_runTasks` — what is kept by the submissions and by each
  turn holds in the end, when no task is left.
-/

namespace CallAdmission

namespace Scheduler

variable {s : Scheduler} {t : Ticket} {ts : List Ticket} {timers : List Timer}

/-! ## tasks that start, end and are woken -/

/-- Tasks that are started get in line one after the other. -/
theorem foldl_spawn (s : Scheduler) (ts : List Ticket) :
    ts.foldl spawn s = { s with alive := s.alive ++ ts, ready := s.ready ++ ts } := by
  induction ts generalizing s with
  | nil => simp
  | cons t ts ih =>
    rw [List.foldl_cons, ih]
    simp [spawn]

/-- It does not matter whether a task ends before others are started or after. -/
theorem stop_foldl_spawn (halive : t ∈ s.alive) (hts : t ∉ ts) :
    (ts.foldl spawn s).stop t = ts.foldl spawn (s.stop t) := by
  have hready : (s.ready ++ ts).erase t = s.ready.erase t ++ ts := by
    by_cases ht : t ∈ s.ready
    · exact List.erase_append_left ts ht
    · rw [List.erase_append_right ts ht, List.erase_of_not_mem ht, List.erase_of_not_mem hts]
  simp only [foldl_spawn, stop, List.erase_append_left ts halive, hready]

/-- Tasks that rest get in line when they are woken. -/
theorem foldl_wake (hcurrent : s.current = none)
    (htimers : ∀ timer ∈ timers, timer.task ∈ s.alive ∧ timer.task ∉ s.ready)
    (hnodup : (timers.map (·.task)).Nodup) :
    timers.foldl (fun s timer => s.wake timer.task) s =
      { s with ready := s.ready ++ timers.map (·.task) } := by
  induction timers generalizing s with
  | nil => simp
  | cons timer timers ih =>
    obtain ⟨⟨halive, hready⟩, hrest⟩ := List.forall_mem_cons.1 htimers
    obtain ⟨hnew, hnodup⟩ := List.nodup_cons.1 hnodup
    have hwake : s.wake timer.task = { s with ready := s.ready ++ [timer.task] } := by
      simp [wake, isResting, hcurrent, halive, hready]
    rw [List.foldl_cons, hwake, ih (s := { s with ready := s.ready ++ [timer.task] }) hcurrent ?_
      hnodup]
    · simp
    · intro other hother
      refine ⟨(hrest other hother).1, ?_⟩
      rw [List.mem_append, List.mem_singleton, not_or]
      exact ⟨(hrest other hother).2, fun heq => hnew (List.mem_map.2 ⟨other, hother, heq⟩)⟩

/-- When the next timer is due, at least one is. -/
theorem exists_due {due : Nat} (h : s.nextDue? = some due) : ∃ timer ∈ s.timers, timer.due = due :=
  List.mem_map.1 (List.min?_mem h)

end Scheduler

namespace Simulation

variable {jobs : List Job} {limits : Limits} {s s₁ s' : State} {t : Ticket} {j : Job}
  {ready : List Ticket} {departure : Queue.Departure} {turns : Nat}

/-! ## tasks and calls -/

/-- The calls that run. -/
def State.running (s : State) : List Ticket := s.dispatcher.ledger.queue.running.map (·.call)

/-- The tasks are those of the running calls. Each of them is in line or has a timer; those that
have one are asleep. -/
structure Lined (s : State) : Prop where
  current : s.scheduler.current = none
  woken : s.scheduler.woken = false
  alive : s.scheduler.alive.Perm s.running
  line : (s.scheduler.ready ++ s.scheduler.timers.map (·.task)).Perm s.running
  asleep : s.asleep.Nodup
  asleep_running : ∀ t ∈ s.asleep, t ∈ s.running
  timers_asleep : ∀ timer ∈ s.scheduler.timers, timer.task ∈ s.asleep

theorem running_pass (s : State) :
    s.pass.running = s.running ++ s.dispatcher.ledger.promote.admitted := by
  have hqueue : s.dispatcher.passed.ledger.queue = s.dispatcher.ledger.queue.promote.queue :=
    s.dispatcher.ledger.queue_promote
  simp only [State.running, State.pass, hqueue, Queue.promote_running_eq_append, List.map_append,
    List.map_map]
  rfl

/-- The tasks of the calls that a pass admits get in line. -/
theorem Lined.pass (h : Lined s) : Lined s.pass := by
  have hscheduler : s.pass.scheduler = { s.scheduler with
      alive := s.scheduler.alive ++ s.dispatcher.ledger.promote.admitted
      ready := s.scheduler.ready ++ s.dispatcher.ledger.promote.admitted } :=
    s.scheduler.foldl_spawn _
  refine ⟨?_, ?_, ?_, ?_, h.asleep, ?_, ?_⟩
  · rw [hscheduler]
    exact h.current
  · rw [hscheduler]
    exact h.woken
  · rw [hscheduler, running_pass]
    exact h.alive.append_right _
  · rw [hscheduler, running_pass]
    have hline := h.line.append_right s.dispatcher.ledger.promote.admitted
    refine List.Perm.trans ?_ hline
    rw [List.append_assoc, List.append_assoc]
    exact List.perm_append_comm.append_left _
  · intro t ht
    rw [running_pass]
    exact List.mem_append_left _ (h.asleep_running t ht)
  · rw [hscheduler]
    exact h.timers_asleep

/-- A running call that departs is the only one to go. -/
theorem running_finish {q : Queue} (hq : q.finish? t = some departure) :
    (q.running.map (·.call)).Perm (t :: departure.queue.running.map (·.call)) := by
  obtain ⟨rfl, -, front, back, hrunning, hqueue⟩ := Queue.finish?_eq_some hq
  rw [hrunning, hqueue, List.map_append, List.map_cons, List.map_append]
  exact List.perm_middle

theorem ready_finish {q : Queue} (hq : q.finish? t = some departure) :
    departure.queue.ready = q.ready := by
  obtain ⟨-, -, front, back, -, hqueue⟩ := Queue.finish?_eq_some hq
  rw [hqueue]

/-! ## turns -/

/-- The first task in line is suspended: the latency of its call begins to pass. -/
def State.dozed (s : State) (t : Ticket) (ready : List Ticket) (j : Job) : State :=
  (State.doze { s.polling t ready with dispatcher := { s.dispatcher with
    runs := s.dispatcher.runs.eraseP (·.call == t) ++ [⟨t, true⟩] } } t j).polled t .pending

theorem dozed_scheduler (s : State) (t : Ticket) (ready : List Ticket) (j : Job) :
    (s.dozed t ready j).scheduler = { s.scheduler with
      ready
      timers := s.scheduler.timers ++ [⟨s.scheduler.dueAfter j.latency, t⟩]
      current := none
      woken := false } := rfl

/-- The first task in line ends: its call has given its slot back, and a pass is to follow. -/
def State.ended (s : State) (t : Ticket) (ready : List Ticket) (j : Job)
    (departure : Queue.Departure) : State :=
  (State.finishWork { s.polling t ready with dispatcher := { s.dispatcher with
    runs := s.dispatcher.runs.eraseP (·.call == t)
    ledger := { s.dispatcher.ledger with queue := departure.queue }.updateCall t
      (·.setFinished (.ofResult j.result)) } } t j).polled t (.ready (.ok ()))

/-- What happens in one turn. -/
inductive Advance (jobs : List Job) : State → State → Prop where
  | doze {s : State} {t : Ticket} {ready : List Ticket} {run : Dispatcher.Run} {j : Job}
    (hready : s.scheduler.ready = t :: ready)
    (hrun : s.dispatcher.runs.find? (·.call == t) = some run) (hj : jobs[t]? = some j)
    (ht : t ∉ s.asleep) (hlatency : j.latency ≠ 0) : Advance jobs s (s.dozed t ready j)
  | finish {s : State} {t : Ticket} {ready : List Ticket} {run : Dispatcher.Run} {j : Job}
    {departure : Queue.Departure} (hready : s.scheduler.ready = t :: ready)
    (hrun : s.dispatcher.runs.find? (·.call == t) = some run) (hj : jobs[t]? = some j)
    (ht : t ∈ s.asleep ∨ j.latency = 0)
    (hq : s.dispatcher.ledger.queue.finish? t = some departure) :
    Advance jobs s (s.ended t ready j departure).pass
  | jump {s : State} {due : Nat} (hready : s.scheduler.ready = [])
    (hdue : s.scheduler.nextDue? = some due) :
    Advance jobs s { s with scheduler := s.scheduler.jump due }

/-! ### what a turn does to the tasks -/

namespace Lined

/-- A task stands in line once, and has no timer then. -/
theorem nodup (h : Lined s) (hnodup : s.running.Nodup) (hready : s.scheduler.ready = t :: ready) :
    t ∉ ready ∧ t ∉ s.scheduler.timers.map (·.task) := by
  have hline := h.line.nodup_iff.2 hnodup
  rw [hready, List.cons_append, List.nodup_cons, List.mem_append, not_or] at hline
  exact hline.1

theorem mem_running (h : Lined s) (hready : s.scheduler.ready = t :: ready) : t ∈ s.running := by
  refine h.line.mem_iff.1 (List.mem_append_left _ ?_)
  rw [hready]
  exact List.mem_cons_self

theorem dozed (h : Lined s) (hready : s.scheduler.ready = t :: ready) (ht : t ∉ s.asleep)
    (j : Job) : Lined (s.dozed t ready j) where
  current := rfl
  woken := rfl
  alive := h.alive
  line := by
    have hline := h.line
    rw [hready] at hline
    rw [dozed_scheduler, List.map_append, List.map_singleton, ← List.append_assoc]
    exact (List.perm_append_singleton t _).trans hline
  asleep := List.nodup_cons.2 ⟨ht, h.asleep⟩
  asleep_running := List.forall_mem_cons.2 ⟨h.mem_running hready, h.asleep_running⟩
  timers_asleep := by
    rw [dozed_scheduler, List.forall_mem_append, List.forall_mem_singleton]
    exact ⟨fun timer htimer => List.mem_cons_of_mem t (h.timers_asleep timer htimer),
      List.mem_cons_self⟩

theorem ended (h : Lined s) (hnodup : s.running.Nodup) (hready : s.scheduler.ready = t :: ready)
    (hq : s.dispatcher.ledger.queue.finish? t = some departure) (j : Job) :
    Lined (s.ended t ready j departure) := by
  obtain ⟨hready', htimers⟩ := h.nodup hnodup hready
  have hrunning : s.running.Perm (t :: (s.ended t ready j departure).running) := running_finish hq
  have hrest : s.scheduler.timers.filter (·.task != t) = s.scheduler.timers := by
    rw [List.filter_eq_self]
    intro timer htimer
    simpa using fun heq => htimers (List.mem_map.2 ⟨timer, htimer, heq⟩)
  refine ⟨?_, rfl, ?_, ?_, h.asleep.erase t, ?_, ?_⟩
  · show (if some t = some t then none else some t) = none
    exact if_pos rfl
  · show (s.scheduler.alive.erase t).Perm _
    have halive := (h.alive.trans hrunning).erase t
    rwa [List.erase_cons_head] at halive
  · show (ready.erase t ++ (s.scheduler.timers.filter (·.task != t)).map (·.task)).Perm _
    have hline := h.line.trans hrunning
    rw [hready] at hline
    rw [hrest, List.erase_of_not_mem hready']
    exact (List.perm_cons t).1 hline
  · intro u hu
    obtain ⟨hne, hu⟩ := h.asleep.mem_erase_iff.1 hu
    exact (List.mem_cons.1 (hrunning.mem_iff.1 (h.asleep_running u hu))).resolve_left hne
  · show ∀ timer ∈ s.scheduler.timers.filter (·.task != t), timer.task ∈ s.asleep.erase t
    rw [hrest]
    intro timer htimer
    refine h.asleep.mem_erase_iff.2 ⟨fun heq => htimers ?_, h.timers_asleep timer htimer⟩
    exact List.mem_map.2 ⟨timer, htimer, heq⟩

/-- The tasks whose timers are due get in line. -/
theorem jump_eq (h : Lined s) (hnodup : s.running.Nodup) (hready : s.scheduler.ready = [])
    (due : Nat) :
    s.scheduler.jump due = { s.scheduler with
      now := due
      ready := (s.scheduler.timers.filter (·.due ≤ due)).map (·.task)
      timers := s.scheduler.timers.filter (due < ·.due) } := by
  have hline := h.line
  rw [hready, List.nil_append] at hline
  have htimers := hline.nodup_iff.2 hnodup
  rw [Scheduler.jump, Scheduler.foldl_wake (s := { s.scheduler with
    now := due, timers := s.scheduler.timers.filter (due < ·.due) }) h.current]
  · rw [hready, List.nil_append]
  · intro timer htimer
    rw [hready]
    refine ⟨h.alive.mem_iff.2 (hline.mem_iff.1 ?_), List.not_mem_nil⟩
    exact List.mem_map_of_mem (List.mem_of_mem_filter htimer)
  · exact htimers.sublist (List.filter_sublist.map _)

theorem jump (h : Lined s) (hnodup : s.running.Nodup) (hready : s.scheduler.ready = [])
    (due : Nat) : Lined { s with scheduler := s.scheduler.jump due } := by
  rw [h.jump_eq hnodup hready]
  refine ⟨h.current, h.woken, h.alive, ?_, h.asleep, h.asleep_running, ?_⟩
  · have hline := h.line
    rw [hready, List.nil_append] at hline
    refine List.Perm.trans ?_ hline
    rw [← List.map_append]
    have hsplit := List.filter_append_perm (fun timer : Timer => decide (timer.due ≤ due))
      s.scheduler.timers
    have hlater : (fun timer : Timer => !decide (timer.due ≤ due)) =
        fun timer => decide (due < timer.due) := by
      funext timer
      rw [← decide_not, decide_eq_decide, Nat.not_le]
    rw [hlater] at hsplit
    exact hsplit.map _
  · intro timer htimer
    exact h.timers_asleep timer (List.mem_of_mem_filter htimer)

end Lined

/-! ## steady simulations -/

/-- A simulation between two turns. -/
structure Steady (jobs : List Job) (limits : Limits) (s : State) : Prop where
  tended : s.dispatcher.Tended jobs limits
  served : s.dispatcher.ledger.queue.Served
  lined : Lined s
  /-- once a call was submitted, a call runs, or the idle callback was invoked -/
  rested : 0 < s.dispatcher.next → s.running ≠ [] ∨ s.rested = true

/-- After a pass a simulation is steady. -/
theorem steady_pass (htended : s.dispatcher.Tended jobs limits) (hlined : Lined s)
    (hbusy : s.pass.running = [] → s.dispatcher.ledger.queue.busy = true) :
    Steady jobs limits s.pass where
  tended := htended.passed
  served := htended.served_passed
  lined := hlined.pass
  rested _ := by
    by_cases hrunning : s.pass.running = []
    · have hidle := htended.isSome_idle (hbusy hrunning) (List.map_eq_nil_iff.1 hrunning)
      simp [State.pass, hidle]
    · exact .inl hrunning

/-- The calls that a pass admits have waited before. -/
theorem admitted_perm (l : Ledger) :
    (l.promote.admitted ++ l.promote.ledger.queue.queuedCalls).Perm l.queue.queuedCalls := by
  rw [Ledger.queue_promote, Queue.queuedCalls, Queue.promote_ready]
  have hperm := (Queue.scan_perm l.queue l.queue.ready).map (·.call)
  rwa [List.map_append, List.map_map] at hperm

theorem length_admitted (l : Ledger) :
    l.promote.admitted.length + l.promote.ledger.queue.ready.length = l.queue.ready.length := by
  have hlength := (admitted_perm l).length_eq
  rwa [List.length_append, Queue.queuedCalls, Queue.queuedCalls, List.length_map,
    List.length_map] at hlength

namespace Steady

/-- Every turn keeps a simulation steady. -/
theorem advance (h : Steady jobs limits s) (hturn : Advance jobs s s₁) : Steady jobs limits s₁ := by
  cases hturn with
  | doze hready hrun hj ht =>
    exact ⟨h.tended.suspend hrun, h.served, h.lined.dozed hready ht _, h.rested⟩
  | @finish t ready run j departure hready hrun hj ht hq =>
    have htended := h.tended.complete hrun hj hq
    refine steady_pass htended (h.lined.ended h.tended.running_nodup hready hq j) fun _ => ?_
    obtain ⟨-, -, front, back, hrunning, hqueue⟩ := Queue.finish?_eq_some hq
    have hcount : 0 < s.dispatcher.ledger.queue.runningCount := by
      rw [h.tended.runningCount_eq, hrunning, List.length_append, List.length_cons]
      omega
    show departure.queue.busy = true
    rw [hqueue]
    exact h.tended.busy hcount
  | jump hready =>
    exact ⟨h.tended, h.served, h.lined.jump h.tended.running_nodup hready _, h.rested⟩

/-- As long as a task is left, a turn can be taken. -/
theorem exists_advance (h : Steady jobs limits s) :
    (s.scheduler.ready = [] ∧ s.scheduler.timers = []) ∨ ∃ s₁, Advance jobs s s₁ := by
  cases hready : s.scheduler.ready with
  | nil =>
    cases hdue : s.scheduler.nextDue? with
    | none =>
      have htimers : s.scheduler.timers.map (·.due) = [] := List.min?_eq_none_iff.1 hdue
      exact .inl ⟨rfl, List.map_eq_nil_iff.1 htimers⟩
    | some due => exact .inr ⟨_, .jump hready hdue⟩
  | cons t ready =>
    have ht := h.lined.mem_running hready
    obtain ⟨run, hrun⟩ := h.tended.exists_find?_runs ht
    obtain ⟨departure, -, hq, -⟩ := Dispatcher.Tended.exists_release ht
    obtain ⟨e, he, rfl⟩ := List.mem_map.1 ht
    obtain ⟨j, hj, -, -⟩ := h.tended.planned e (List.mem_append_left _ he)
    by_cases hdoze : e.call ∈ s.asleep ∨ j.latency = 0
    · exact .inr ⟨_, .finish hready hrun hj hdoze hq⟩
    · rw [not_or] at hdoze
      exact .inr ⟨_, .doze hready hrun hj hdoze.1 hdoze.2⟩

end Steady

/-! ## the turns that there are -/

/-- The turns are enough for what is left to do. -/
def State.Affords (s : State) (turns : Nat) : Prop :=
  3 * (s.dispatcher.ledger.queue.ready.length + s.running.length) + s.scheduler.timers.length + 8 ≤
    turns + 2 * s.asleep.length

theorem Lined.length_asleep_le (h : Lined s) : s.asleep.length ≤ s.running.length :=
  (h.asleep.subperm h.asleep_running).length_le

/-- A pass neither adds a call nor takes one away. -/
theorem length_pass (s : State) :
    s.pass.dispatcher.ledger.queue.ready.length + s.pass.running.length =
      s.dispatcher.ledger.queue.ready.length + s.running.length := by
  have hlength := length_admitted s.dispatcher.ledger
  rw [running_pass, List.length_append]
  have hqueue : s.pass.dispatcher.ledger.queue = s.dispatcher.ledger.promote.ledger.queue := rfl
  rw [hqueue]
  omega

/-- A turn takes one of the turns that there are. -/
theorem Steady.affords (h : Steady jobs limits s) (hturn : Advance jobs s s₁)
    (hs : s.Affords (turns + 1)) : s₁.Affords turns := by
  unfold State.Affords at hs ⊢
  cases hturn with
  | @doze t ready run j hready hrun hj ht =>
    have htimers : (s.dozed t ready j).scheduler.timers.length = s.scheduler.timers.length + 1 := by
      rw [dozed_scheduler, List.length_append, List.length_singleton]
    have hasleep : (s.dozed t ready j).asleep.length = s.asleep.length + 1 := rfl
    have hrunning : (s.dozed t ready j).running = s.running := rfl
    have hwaiting : (s.dozed t ready j).dispatcher.ledger = s.dispatcher.ledger := rfl
    rw [htimers, hasleep, hrunning, hwaiting]
    omega
  | @finish t ready run j departure hready hrun hj ht hq =>
    have hrunning : s.running.length = (s.ended t ready j departure).running.length + 1 :=
      (running_finish hq).length_eq
    have hwaiting : (s.ended t ready j departure).dispatcher.ledger.queue.ready =
        s.dispatcher.ledger.queue.ready := ready_finish hq
    have hasleep : s.asleep.length ≤ (s.ended t ready j departure).pass.asleep.length + 1 := by
      show s.asleep.length ≤ (s.asleep.erase t).length + 1
      rw [List.length_erase]
      split <;> omega
    have htimers : (s.ended t ready j departure).pass.scheduler.timers.length ≤
        s.scheduler.timers.length := by
      rw [State.pass, Scheduler.foldl_spawn]
      exact List.length_filter_le _ _
    rw [length_pass, hwaiting]
    omega
  | @jump due hready hdue =>
    obtain ⟨timer, htimer, rfl⟩ := Scheduler.exists_due hdue
    have hfewer : (s.scheduler.timers.filter (timer.due < ·.due)).length <
        s.scheduler.timers.length := by
      rw [List.length_filter_lt_length_iff_exists]
      exact ⟨timer, htimer, by simp⟩
    rw [h.lined.jump_eq h.tended.running_nodup hready]
    show 3 * (s.dispatcher.ledger.queue.ready.length + s.running.length) +
      (s.scheduler.timers.filter (timer.due < ·.due)).length + 8 ≤ turns + 2 * s.asleep.length
    omega

/-! ## runs -/

/-- It does not matter whether a task ends before a pass or after, unless the pass admits its
call. -/
theorem polled_pass (halive : t ∈ s.scheduler.alive)
    (ht : t ∉ s.dispatcher.ledger.promote.admitted) (r : Result) :
    s.pass.polled t (.ready r) = (s.polled t (.ready r)).pass := by
  simp only [State.pass, State.polled, Scheduler.stop_foldl_spawn halive ht]

/-- What happens in a turn is what a run does in a turn. -/
theorem Steady.leads (h : Steady jobs limits s) (hturn : Advance jobs s s₁)
    (hs : s.Affords (turns + 1)) (hrest : Leads (runTasks jobs turns) s₁ () s') :
    Leads (runTasks jobs (turns + 1)) s () s' := by
  have hasleep := h.lined.length_asleep_le
  unfold State.Affords at hs
  cases hturn with
  | @doze t ready run j hready hrun hj ht hlatency =>
    have hnext := h.tended.lt_of_mem_running (h.lined.mem_running hready)
    have hpoll := leads_suspend (s := s.polling t ready) hrun (h.tended.isCanceled_eq_false hnext)
      hj ht hlatency (by omega : 3 ≤ turns)
    exact leads_runTasks_poll hready hpoll hrest
  | @finish t ready run j departure hready hrun hj ht hq =>
    have hmem := h.lined.mem_running hready
    have hnext := h.tended.lt_of_mem_running hmem
    have halive : t ∈ s.scheduler.alive := h.lined.alive.mem_iff.2 hmem
    -- the ledger that the pass finds, when the call has given its slot back
    let l : Ledger := { s.dispatcher.ledger with queue := departure.queue }.updateCall t
      (·.setFinished (.ofResult j.result))
    have hwaiting : l.queue.ready = s.dispatcher.ledger.queue.ready := ready_finish hq
    have hfresh : t ∉ l.promote.admitted := by
      intro hadmitted
      have hwaits := (admitted_perm l).mem_iff.1 (List.mem_append_left _ hadmitted)
      rw [Queue.queuedCalls, hwaiting] at hwaits
      exact h.tended.not_mem_queuedCalls hmem hwaits
    have hlength := length_admitted l
    rw [hwaiting] at hlength
    obtain ⟨departure', notices, hq', hrelease⟩ := Dispatcher.Tended.exists_release hmem
    obtain rfl := Option.some.inj (hq.symm.trans hq')
    have henough : l.promote.admitted.length + 4 ≤ turns := by omega
    have hpoll := leads_resolve (s := s.polling t ready) h.tended.still hrun
      (h.tended.isCanceled_eq_false hnext) hj ht hrelease henough
    refine leads_runTasks_poll hready hpoll ?_
    rw [polled_pass]
    · exact hrest
    · exact halive
    · exact hfresh
  | jump hready hdue => exact leads_runTasks_jump hready hdue hrest

/-- **A run comes to its end.** What every turn keeps holds when no task is left. -/
theorem exists_leads_runTasks {P : State → Prop}
    (hP : ∀ s s₁, Steady jobs limits s → P s → Advance jobs s s₁ → P s₁)
    (h : Steady jobs limits s) (hs : P s) (hturns : s.Affords turns) :
    ∃ s', Leads (runTasks jobs turns) s () s' ∧ Steady jobs limits s' ∧ P s' ∧
      s'.scheduler.ready = [] ∧ s'.scheduler.timers = [] := by
  induction turns generalizing s with
  | zero =>
    have hasleep := h.lined.length_asleep_le
    unfold State.Affords at hturns
    omega
  | succ turns ih =>
    rcases h.exists_advance with ⟨hready, htimers⟩ | ⟨s₁, hturn⟩
    · exact ⟨s, leads_runTasks_done hready htimers, h, hs, hready, htimers⟩
    · obtain ⟨s', hrest, hend⟩ :=
        ih (h.advance hturn) (hP s s₁ h hs hturn) (h.affords hturn hturns)
      exact ⟨s', h.leads hturn hturns hrest, hend⟩

/-! ## submissions -/

/-- A call was submitted, and a pass has followed. -/
def State.submitted (s : State) (j : Job) : State :=
  State.pass { s with dispatcher := { s.dispatcher with
    ledger := (s.dispatcher.ledger.enqueue s.dispatcher.next ⟨j.host, j.duplex⟩).1
    next := s.dispatcher.next + 1 } }

theorem allCalls_submitted (s : State) (j : Job) :
    (s.submitted j).dispatcher.ledger.queue.allCalls.Perm
      (s.dispatcher.next :: s.dispatcher.ledger.queue.allCalls) := by
  have hqueue : (s.submitted j).dispatcher.ledger.queue =
      (s.dispatcher.ledger.queue.enqueue s.dispatcher.next j.host j.duplex).promote.queue :=
    Ledger.queue_promote _
  rw [hqueue]
  exact (Queue.allCalls_promote _).trans (Queue.allCalls_enqueue _ _ _ _)

/-- A submission keeps a simulation steady. -/
theorem Steady.submit (h : Steady jobs limits s)
    (hlimits : 1 ≤ limits.maxRequests ∧ 1 ≤ limits.maxPerHost)
    (hj : jobs[s.dispatcher.next]? = some j) : Steady jobs limits (s.submitted j) := by
  have htended := h.tended.submit hj
  refine steady_pass htended ⟨h.lined.current, h.lined.woken, h.lined.alive, h.lined.line,
    h.lined.asleep, h.lined.asleep_running, h.lined.timers_asleep⟩ fun hrunning => ?_
  -- the call that was submitted waits or runs, so some call runs
  have hnone := htended.passed.allCalls_eq_nil htended.served_passed hlimits
    (List.map_eq_nil_iff.1 hrunning)
  have hmem := (allCalls_submitted s j).mem_iff.2 List.mem_cons_self
  rw [show (s.submitted j).dispatcher.ledger.queue.allCalls = [] from hnone] at hmem
  exact absurd hmem List.not_mem_nil

/-- No pass admits more calls than are planned. -/
theorem length_admitted_le {d : Dispatcher} (h : d.Tended jobs limits)
    (hj : jobs[d.next]? = some j) :
    (d.ledger.enqueue d.next ⟨j.host, j.duplex⟩).1.promote.admitted.length ≤ jobs.length := by
  have hadmitted := length_admitted (d.ledger.enqueue d.next ⟨j.host, j.duplex⟩).1
  have hcalls := (h.submit hj).length_allCalls_le
  simp only [Queue.allCalls, Queue.queuedCalls, List.length_append, List.length_map] at hcalls
  refine Nat.le_trans (Nat.le_trans ?_ hcalls) (List.getElem?_eq_some_iff.1 hj).1
  omega

/-- **All calls are submitted.** What every submission keeps holds in the end. -/
theorem exists_leads_submitAll {P : State → Prop} {front rest : List Job}
    (hP : ∀ s j, Steady jobs limits s → P s → jobs[s.dispatcher.next]? = some j → P (s.submitted j))
    (hlimits : 1 ≤ limits.maxRequests ∧ 1 ≤ limits.maxPerHost) (h : Steady jobs limits s) (hs : P s)
    (hjobs : jobs = front ++ rest) (hnext : s.dispatcher.next = front.length)
    (hturns : jobs.length + 2 ≤ turns) :
    ∃ s', Leads (submitAll jobs turns rest) s () s' ∧ Steady jobs limits s' ∧ P s' ∧
      s'.dispatcher.next = jobs.length := by
  induction rest generalizing s front with
  | nil =>
    refine ⟨s, leads_pure () s, h, hs, ?_⟩
    rw [hjobs, hnext, List.append_nil]
  | cons j rest ih =>
    have hj : jobs[s.dispatcher.next]? = some j := by
      rw [hjobs, hnext, List.getElem?_append_right (Nat.le_refl _), Nat.sub_self]
      rfl
    have hjobs' : jobs = (front ++ [j]) ++ rest := by simp [hjobs]
    have hnext' : (s.submitted j).dispatcher.next = (front ++ [j]).length := by
      rw [List.length_append, List.length_singleton, ← hnext]
      rfl
    obtain ⟨s', hrest, hend⟩ := ih (h.submit hlimits hj) (hP s j h hs hj) hjobs' hnext'
    have henough := Nat.add_le_add_right (length_admitted_le h.tended hj) 2
    refine ⟨s', ?_, hend⟩
    rw [submitAll, ← bind_assoc]
    exact (leads_submit h.tended.still _ (Nat.le_trans henough hturns)).bind hrest

end Simulation

end CallAdmission
