import CallAdmission.Simulation.Run

/-!
# CallAdmission.Proofs.Simulation.Progress

What the parts of a simulation lead to. A part that `Leads` to a state gets there whatever was said
before; it does not fail, and it does not run out of turns.

Between two turns of a simulation the dispatcher is `Still`: no activity is on its stack, and no
pass is under way or wanted. A pass over a still dispatcher hands all the calls that it admits to
the executor, one after the other, and each of them gets a run and a task.

* `Leads.bind` — parts that follow one another;
* `settles_requestPass` — a pass that is asked for;
* `leads_submit`, `leads_suspend`, `leads_resolve` — what comes of a submission and of a poll;
* `leads_runTasks_poll`, `leads_runTasks_jump`, `leads_runTasks_done` — the turns of a run.
-/

namespace CallAdmission

open Dispatcher (Reply Turn Action)

namespace Dispatcher

variable {d : Dispatcher} {t : Ticket} {rest : List Ticket} {idle : Option Callback}
  {reply : Reply}

/-! ## dispatchers between two turns -/

/-- No activity is on the stack, the executor holds no call, and no pass is under way or wanted. -/
structure Still (d : Dispatcher) : Prop where
  stack : d.stack = []
  held : d.held = []
  promoting : d.promoting = false
  pending : d.pending = false

/-- The dispatcher after a pass, with a run of each call that the pass admits. -/
def passed (d : Dispatcher) : Dispatcher :=
  { d with
    ledger := d.ledger.promote.ledger
    runs := d.runs ++ d.ledger.promote.admitted.map (⟨·, false⟩) }

/-- The executor makes a run of the only call that it holds. -/
theorem step_openRun (h : d.held = [t]) :
    d.step (.openRun t) =
      .ok (answer { d with held := [], runs := d.runs ++ [⟨t, false⟩] } .done) := by
  simp [step, takeHeld, h, bind, Except.bind, pure, Except.pure]

/-- Where no other pass is wanted, a pass that is taken up again goes on with what is left. -/
theorem resume_eq_offer (h : d.pending = false) :
    d.resume rest idle reply = d.offer rest idle reply := by
  cases rest <;> cases idle <;> simp [resume, offer, round, h]

/-- The executor returns, and the pass goes on. -/
theorem step_leave_execute {stack : List Frame} (h : d.stack = .execute t rest idle reply :: stack)
    (hpending : d.pending = false) :
    d.step .leave = .ok (offer { d with stack } rest idle reply) := by
  rw [← resume_eq_offer (d := { d with stack }) hpending]
  simp only [step, leave, h]

/-- The callback returns, and the pass ends. -/
theorem step_leave_idle {callback : Callback} {stack : List Frame}
    (h : d.stack = .idle callback reply :: stack) (hpending : d.pending = false) :
    d.step .leave = .ok (answer { d with stack, promoting := false } reply) := by
  simp [step, leave, h, round, hpending]

/-- A run that is not canceled is polled: its task is made first if it was never polled. -/
theorem step_pollRun {run : Run} (hrun : d.runs.find? (·.call == t) = some run)
    (hcanceled : d.ledger.isCanceled t = false) :
    d.step (.pollRun t) =
      .ok (if run.started then
          enter { d with runs := d.runs.eraseP (·.call == t) } (.pollTask t) [.taskPolled t]
        else
          enter { d with runs := d.runs.eraseP (·.call == t) } (.openTask t) [.taskOpened t]) := by
  have hcall : run.call = t := by simpa using List.find?_some hrun
  cases hstarted : run.started <;>
    simp [step, takeRun, hrun, poll, hstarted, hcall, hcanceled, bind, Except.bind, pure,
      Except.pure]

/-- The task is made, and polled. -/
theorem step_leave_openTask {stack : List Frame} (h : d.stack = .openTask t :: stack)
    (hcanceled : d.ledger.isCanceled t = false) :
    d.step .leave = .ok (enter { d with stack } (.pollTask t) [.taskPolled t]) := by
  simp [step, leave, h, hcanceled]

/-- The task is ready: the call gives its slot back, and a pass is asked for. -/
theorem step_resolve {stack : List Frame} {r : Result} {l : Ledger} {notices : List Notice}
    (h : d.stack = .pollTask t :: stack) (hrelease : d.ledger.release t = (some l, notices)) :
    d.step (.resolve r) =
      .ok ((requestPass { d with stack, ledger := l.updateCall t (·.setFinished (.ofResult r)) }
        (.ready (.ok ()))).after (notices.map .said)) := by
  simp [step, resolve, h, complete, hrelease]

end Dispatcher

namespace Simulation

variable {α β : Type} {a : α} {b : β} {s s₁ s₂ s' : State} {x : Progress α} {f : α → Progress β}

/-! ## parts of a run -/

/-- Whatever was said before, the part ends with a value and in a state, but for what is said. -/
def Leads (x : Progress α) (s : State) (a : α) (s' : State) : Prop :=
  ∀ ns, ∃ ns', x { s with notices := ns } = some (a, { s' with notices := ns' })

theorem leads_pure (a : α) (s : State) : Leads (pure a) s a s := fun ns => ⟨ns, rfl⟩

/-- One part after the other. -/
theorem Leads.bind (h : Leads x s a s₁) (h' : Leads (f a) s₁ b s₂) : Leads (x >>= f) s b s₂ := by
  intro ns
  obtain ⟨ns₁, hx⟩ := h ns
  obtain ⟨ns₂, hf⟩ := h' ns₁
  refine ⟨ns₂, ?_⟩
  simp only [Bind.bind, StateT.bind, hx]
  exact hf

/-- A change that has nothing to do with what was said. -/
theorem leads_modify {g : State → State}
    (hg : ∀ ns, g { s with notices := ns } = { g s with notices := ns }) :
    Leads (modify g) s () (g s) := by
  intro ns
  refine ⟨ns, ?_⟩
  rw [← hg]
  rfl

theorem leads_say (n : Notice) (s : State) : Leads (say n) s () s := fun ns => ⟨n :: ns, rfl⟩

/-- A part that looks at the state first. -/
theorem leads_get_bind {g : State → Progress β} (hg : ∀ ns, g { s with notices := ns } = g s)
    (h : Leads (g s) s b s') : Leads (get >>= g) s b s' := by
  intro ns
  obtain ⟨ns', hns⟩ := h ns
  rw [← hg ns] at hns
  exact ⟨ns', hns⟩

theorem set_apply (s s' : State) : (set s' : Progress Unit) s = some ((), s') := rfl

/-- To say something for each of some events. -/
theorem leads_forM {es : List Dispatcher.Event} {g : Dispatcher.Event → Progress Unit}
    (hg : ∀ e, Leads (g e) s () s) : Leads (es.forM g) s () s := by
  induction es with
  | nil => exact leads_pure () s
  | cons e es ih => exact (hg e).bind ih

/-- An action that the dispatcher can take is taken. -/
theorem leads_act {action : Action} {turn : Turn} (h : s.dispatcher.step action = .ok turn) :
    Leads (act action) s turn { s with dispatcher := turn.dispatcher } := by
  refine leads_get_bind (fun ns => rfl) ?_
  rw [h]
  refine (leads_modify (g := fun s => { s with dispatcher := turn.dispatcher })
    fun ns => rfl).bind ?_
  refine (leads_forM fun e => ?_).bind (leads_pure turn _)
  cases e with
  | said n => exact leads_say n _
  | _ => exact leads_pure () _

/-! ## until an operation replies -/

section Settle

variable {jobs : List Job} {turns : Nat} {turn turn₁ turn₂ : Turn} {d : Dispatcher} {t : Ticket}
  {rest : List Ticket} {idle : Option Callback} {reply reply' : Reply} {action : Action}
  {stack : List Dispatcher.Frame}

/-- Once a step has come to a turn, the code outside the dispatcher runs until the operation
replies. -/
def Settles (jobs : List Job) (turns : Nat) (turn : Turn) (s : State) (reply : Reply)
    (s' : State) : Prop :=
  Leads (settle jobs turns turn) { s with dispatcher := turn.dispatcher } reply s'

/-- An action is taken, and the operation replies. -/
theorem Settles.leads (h : Settles jobs turns turn s reply s')
    (hstep : s.dispatcher.step action = .ok turn) :
    Leads (do settle jobs turns (← act action)) s reply s' :=
  (leads_act hstep).bind h

/-- What has happened in a step is no matter for what is to come. -/
theorem Settles.after (h : Settles jobs turns turn s reply s') (es : List Dispatcher.Event) :
    Settles jobs turns (turn.after es) s reply s' := by
  cases turns <;> exact h

/-- The operation has replied. -/
theorem settles_answer (jobs : List Job) (turns : Nat) (d : Dispatcher) (reply : Reply)
    (s : State) : Settles jobs (turns + 1) (d.answer reply) s reply { s with dispatcher := d } :=
  leads_pure reply _

/-- The executor makes a run of the call and a task for it, and returns. -/
theorem Settles.execute
    (h : Settles jobs turns turn₂ { s with scheduler := s.scheduler.spawn t } reply s')
    (hreply : turn.reply = none)
    (hstack : turn.dispatcher.stack = .execute t rest idle reply' :: stack)
    (hopen : turn.dispatcher.step (.openRun t) = .ok turn₁)
    (hleave : turn₁.dispatcher.step .leave = .ok turn₂) :
    Settles jobs (turns + 1) turn s reply s' := by
  rw [Settles, settle, hreply, hstack]
  refine (leads_act hopen).bind ?_
  refine (leads_modify (g := fun s => { s with scheduler := s.scheduler.spawn t })
    fun ns => rfl).bind ?_
  exact (leads_act hleave).bind h

/-- The callback is invoked, and returns. -/
theorem Settles.invoke {callback : Callback}
    (h : Settles jobs turns turn₁ { s with rested := true } reply s') (hreply : turn.reply = none)
    (hstack : turn.dispatcher.stack = .idle callback reply' :: stack)
    (hleave : turn.dispatcher.step .leave = .ok turn₁) :
    Settles jobs (turns + 1) turn s reply s' := by
  rw [Settles, settle, hreply, hstack]
  refine (leads_modify (g := fun s => { s with rested := true }) fun ns => rfl).bind ?_
  exact (leads_act hleave).bind h

/-- The call's task is made. -/
theorem Settles.openTask (h : Settles jobs turns turn₁ s reply s') (hreply : turn.reply = none)
    (hstack : turn.dispatcher.stack = .openTask t :: stack)
    (hleave : turn.dispatcher.step .leave = .ok turn₁) :
    Settles jobs (turns + 1) turn s reply s' := by
  rw [Settles, settle, hreply, hstack]
  exact (leads_act hleave).bind h

/-- The call's task is polled. -/
theorem Settles.pollTask (h : Settles jobs turns turn₁ s₁ reply s') (hreply : turn.reply = none)
    (hstack : turn.dispatcher.stack = .pollTask t :: stack)
    (hwork : Leads (work jobs t) { s with dispatcher := turn.dispatcher } action s₁)
    (hstep : s₁.dispatcher.step action = .ok turn₁) :
    Settles jobs (turns + 1) turn s reply s' := by
  rw [Settles, settle, hreply, hstack]
  exact hwork.bind ((leads_act hstep).bind h)

/-! ## passes -/

/-- The executor keeps a run of each call that a pass has to hand over, and the task of each gets in
line; the callback is invoked if it is due. -/
theorem settles_offer (hheld : d.held = []) (hpending : d.pending = false)
    (hturns : rest.length + 2 ≤ turns) :
    Settles jobs turns (d.offer rest idle reply) s reply
      { s with
        dispatcher := { d with promoting := false, runs := d.runs ++ rest.map (⟨·, false⟩) }
        scheduler := rest.foldl .spawn s.scheduler
        rested := s.rested || idle.isSome } := by
  induction rest generalizing d s turns with
  | nil =>
    obtain ⟨turns, rfl⟩ := Nat.exists_eq_add_of_le' hturns
    rw [List.map_nil, List.append_nil, List.foldl_nil]
    cases idle with
    | none =>
      rw [Option.isSome_none, Bool.or_false]
      exact settles_answer jobs _ { d with promoting := false } reply s
    | some callback =>
      have hlast := settles_answer jobs turns { d with promoting := false } reply
        { s with rested := true }
      rw [Option.isSome_some, Bool.or_true]
      exact hlast.invoke rfl rfl (Dispatcher.step_leave_idle rfl hpending)
  | cons t rest ih =>
    obtain ⟨turns, rfl⟩ := Nat.exists_eq_add_of_le' (Nat.le_of_add_left_le hturns)
    rw [List.length_cons] at hturns
    -- the dispatcher after the call was taken over, and what the pass then goes on from
    let d₁ : Dispatcher :=
      { d with held := d.held ++ [t], stack := .execute t rest idle reply :: d.stack }
    let d₂ : Dispatcher := { d with held := [], runs := d.runs ++ [⟨t, false⟩] }
    have hopen : d₁.step (.openRun t) =
        .ok (Dispatcher.answer { d₁ with held := [], runs := d.runs ++ [⟨t, false⟩] } .done) :=
      Dispatcher.step_openRun (by simp [d₁, hheld])
    have hleave : Dispatcher.step { d₁ with held := [], runs := d.runs ++ [⟨t, false⟩] } .leave =
        .ok (d₂.offer rest idle reply) :=
      Dispatcher.step_leave_execute rfl hpending
    have hshort : rest.length + 2 ≤ turns + 1 := by omega
    have hrest :=
      ih (d := d₂) (s := { s with scheduler := s.scheduler.spawn t }) rfl hpending hshort
    have hlast : ({ d with
          promoting := false, runs := d.runs ++ (t :: rest).map (⟨·, false⟩) } : Dispatcher) =
        { d₂ with promoting := false, runs := d₂.runs ++ rest.map (⟨·, false⟩) } := by
      simp [d₂, hheld]
    rw [hlast]
    exact hrest.execute rfl rfl hopen hleave

/-- What a pass over a still dispatcher comes to: the calls that it admits get their runs, and their
tasks. -/
def State.pass (s : State) : State :=
  { s with
    dispatcher := s.dispatcher.passed
    scheduler := s.dispatcher.ledger.promote.admitted.foldl .spawn s.scheduler
    rested := s.rested || s.dispatcher.ledger.promote.idle.isSome }

/-- A pass that is asked for between two turns. -/
theorem settles_requestPass (hd : d.Still) (hturns : d.ledger.promote.admitted.length + 2 ≤ turns) :
    Settles jobs turns (d.requestPass reply) s reply (State.pass { s with dispatcher := d }) := by
  -- the dispatcher when the pass has admitted its calls
  let d₁ : Dispatcher :=
    { d with ledger := d.ledger.promote.ledger, promoting := true, pending := false }
  have hrequest : d.requestPass reply =
      ((d₁.offer d.ledger.promote.admitted d.ledger.promote.idle reply).after
        (.passStarted :: d.ledger.promote.notices.map .said)).after [.passRequested] := by
    simp [Dispatcher.requestPass, hd.promoting, Dispatcher.round, d₁]
  have hlast : ({ d₁ with
        promoting := false
        runs := d.runs ++ d.ledger.promote.admitted.map (⟨·, false⟩) } : Dispatcher) =
      d.passed := by
    simp only [Dispatcher.passed, hd.promoting, hd.pending, d₁]
  rw [hrequest, State.pass, ← hlast]
  exact ((settles_offer (d := d₁) hd.held rfl hturns).after _).after _

/-- A call is submitted. -/
theorem leads_submit (hd : s.dispatcher.Still) (r : Request)
    (hturns : (s.dispatcher.ledger.enqueue s.dispatcher.next r).1.promote.admitted.length + 2 ≤
      turns) :
    Leads (do settle jobs turns (← act (.submit r))) s (.submitted s.dispatcher.next)
      (State.pass { s with dispatcher := { s.dispatcher with
        ledger := (s.dispatcher.ledger.enqueue s.dispatcher.next r).1
        next := s.dispatcher.next + 1 } }) := by
  let d₁ : Dispatcher := { s.dispatcher with
    ledger := (s.dispatcher.ledger.enqueue s.dispatcher.next r).1
    next := s.dispatcher.next + 1 }
  have hd₁ : d₁.Still := ⟨hd.stack, hd.held, hd.promoting, hd.pending⟩
  have hpass : Settles jobs turns (d₁.requestPass (.submitted s.dispatcher.next)) s _
      (State.pass { s with dispatcher := d₁ }) := settles_requestPass hd₁ hturns
  exact (hpass.after _).leads rfl

end Settle

/-! ## the work of a call -/

section Work

variable {jobs : List Job} {turns : Nat} {t : Ticket} {j : Job}

/-- The call's latency begins to pass. -/
def State.doze (s : State) (t : Ticket) (j : Job) : State :=
  { s with
    gauges := s.gauges.update j .enter
    asleep := t :: s.asleep
    scheduler := s.scheduler.sleep t j.latency }

/-- The call's latency is over, or there is none. -/
def State.finishWork (s : State) (t : Ticket) (j : Job) : State :=
  { s with
    gauges := (if t ∈ s.asleep then s.gauges else s.gauges.update j .enter).update j .exit
    asleep := s.asleep.erase t }

/-- A call with a latency suspends its task when it is polled for the first time. -/
theorem leads_work_doze (hj : jobs[t]? = some j) (ht : t ∉ s.asleep) (hlatency : j.latency ≠ 0) :
    Leads (work jobs t) s .suspend (s.doze t j) := by
  rw [work, hj]
  refine leads_get_bind (fun ns => rfl) ?_
  rw [if_neg (by simpa using ht)]
  refine (leads_modify (g := fun s => { s with gauges := s.gauges.update j .enter })
    fun ns => rfl).bind ?_
  rw [if_neg hlatency]
  exact (leads_modify (g := fun s => { s with
    asleep := t :: s.asleep, scheduler := s.scheduler.sleep t j.latency }) fun ns => rfl).bind
      (leads_pure _ _)

/-- A call whose latency is over, or that has none, resolves its task. -/
theorem leads_work_resolve (hj : jobs[t]? = some j) (ht : t ∈ s.asleep ∨ j.latency = 0) :
    Leads (work jobs t) s (.resolve j.result) (s.finishWork t j) := by
  have hexit : ∀ s : State, Leads (finishWork j) s (.resolve j.result)
      { s with gauges := s.gauges.update j .exit } := fun s =>
    (leads_modify (g := fun s => { s with gauges := s.gauges.update j .exit }) fun ns => rfl).bind
      (leads_pure _ _)
  rw [work, hj]
  refine leads_get_bind (fun ns => rfl) ?_
  by_cases hmem : t ∈ s.asleep
  · rw [if_pos (by simpa using hmem), State.finishWork, if_pos hmem]
    exact (leads_modify (g := fun s => { s with asleep := s.asleep.erase t }) fun ns => rfl).bind
      (hexit _)
  · have hlatency : j.latency = 0 := ht.resolve_left hmem
    rw [if_neg (by simpa using hmem), State.finishWork, if_neg hmem, List.erase_of_not_mem hmem]
    refine (leads_modify (g := fun s => { s with gauges := s.gauges.update j .enter })
      fun ns => rfl).bind ?_
    rw [if_pos hlatency]
    exact hexit _

/-! ## polls -/

/-- A poll of a run that is not canceled comes to a poll of its task, which is made before if that
is the first poll. -/
theorem leads_poll (turns : Nat) {run : Dispatcher.Run} {action : Action} {turn : Turn}
    {reply : Reply} (hrun : s.dispatcher.runs.find? (·.call == t) = some run)
    (hcanceled : s.dispatcher.ledger.isCanceled t = false)
    (hwork : Leads (work jobs t)
      { s with dispatcher := { s.dispatcher with
        runs := s.dispatcher.runs.eraseP (·.call == t)
        stack := .pollTask t :: s.dispatcher.stack } } action s₁)
    (hstep : s₁.dispatcher.step action = .ok turn)
    (h : ∀ n, turns ≤ n → Settles jobs n turn s₁ reply s') :
    Leads (do settle jobs (turns + 2) (← act (.pollRun t))) s reply s' := by
  refine Settles.leads ?_ (Dispatcher.step_pollRun hrun hcanceled)
  cases run.started with
  | true => exact (h (turns + 1) (Nat.le_succ turns)).pollTask rfl rfl hwork hstep
  | false =>
    let d₁ : Dispatcher := { s.dispatcher with runs := s.dispatcher.runs.eraseP (·.call == t) }
    have hpolled : Settles jobs (turns + 1) (d₁.enter (.pollTask t) [.taskPolled t]) s reply s' :=
      (h turns (Nat.le_refl turns)).pollTask rfl rfl hwork hstep
    exact hpolled.openTask rfl rfl (Dispatcher.step_leave_openTask rfl hcanceled)

/-- A poll after which the call's latency begins to pass. -/
theorem leads_suspend {run : Dispatcher.Run}
    (hrun : s.dispatcher.runs.find? (·.call == t) = some run)
    (hcanceled : s.dispatcher.ledger.isCanceled t = false) (hj : jobs[t]? = some j)
    (ht : t ∉ s.asleep) (hlatency : j.latency ≠ 0) (hturns : 3 ≤ turns) :
    Leads (do settle jobs turns (← act (.pollRun t))) s .pending
      (State.doze { s with dispatcher := { s.dispatcher with
        runs := s.dispatcher.runs.eraseP (·.call == t) ++ [⟨t, true⟩] } } t j) := by
  obtain ⟨turns, rfl⟩ := Nat.exists_eq_add_of_le' hturns
  refine leads_poll (turns + 1) hrun hcanceled (leads_work_doze hj ht hlatency) rfl fun n hn => ?_
  obtain ⟨n, rfl⟩ := Nat.exists_eq_add_of_le' (Nat.le_of_add_left_le hn)
  exact settles_answer jobs _ _ .pending _

/-- A poll that ends the call: its slot is given back, and a pass follows. -/
theorem leads_resolve {run : Dispatcher.Run} {l : Ledger} {notices : List Notice}
    (hd : s.dispatcher.Still) (hrun : s.dispatcher.runs.find? (·.call == t) = some run)
    (hcanceled : s.dispatcher.ledger.isCanceled t = false) (hj : jobs[t]? = some j)
    (ht : t ∈ s.asleep ∨ j.latency = 0)
    (hrelease : s.dispatcher.ledger.release t = (some l, notices))
    (hturns : (l.updateCall t (·.setFinished (.ofResult j.result))).promote.admitted.length + 4 ≤
      turns) :
    Leads (do settle jobs turns (← act (.pollRun t))) s (.ready (.ok ()))
      (State.pass (State.finishWork { s with dispatcher := { s.dispatcher with
        runs := s.dispatcher.runs.eraseP (·.call == t)
        ledger := l.updateCall t (·.setFinished (.ofResult j.result)) } } t j)) := by
  obtain ⟨turns, rfl⟩ := Nat.exists_eq_add_of_le' (Nat.le_of_add_left_le hturns)
  refine leads_poll (turns + 2) hrun hcanceled (leads_work_resolve hj ht)
    (Dispatcher.step_resolve rfl hrelease) fun n hn => ?_
  refine Settles.after ?_ _
  have hpass := Nat.le_trans (Nat.le_of_add_le_add_right (b := 2) hturns) hn
  exact settles_requestPass ⟨hd.stack, hd.held, hd.promoting, hd.pending⟩ hpass

/-! ## turns of a run -/

/-- The first task in line is about to be polled. -/
def State.polling (s : State) (t : Ticket) (ready : List Ticket) : State :=
  { s with scheduler := { s.scheduler with ready, current := some t, woken := false } }

/-- A task that was polled is suspended or has ended. -/
def State.polled (s : State) (t : Ticket) : Reply → State
  | .pending => { s with scheduler := s.scheduler.suspend t }
  | _ => { s with scheduler := s.scheduler.stop t }

/-- A turn in which the first task in line is polled. -/
theorem leads_runTasks_poll {ready : List Ticket} {reply : Reply}
    (hready : s.scheduler.ready = t :: ready)
    (hpoll : Leads (do settle jobs turns (← act (.pollRun t))) (s.polling t ready) reply s₁)
    (h : Leads (runTasks jobs turns) (s₁.polled t reply) () s') :
    Leads (runTasks jobs (turns + 1)) s () s' := by
  intro ns
  obtain ⟨ns₁, hns₁⟩ := hpoll ns
  obtain ⟨ns', hns'⟩ := h ns₁
  obtain ⟨⟨turn, s₂⟩, hact, hsettle⟩ := Option.bind_eq_some_iff.1 hns₁
  simp only [State.polling] at hact
  have htake : s.scheduler.take? =
      some (t, { s.scheduler with ready, current := some t, woken := false }) := by
    rw [Scheduler.take?, hready]
  refine ⟨ns', ?_⟩
  rw [← hns']
  simp only [runTasks, get, getThe, MonadStateOf.get, StateT.get, bind, StateT.bind, pure,
    Option.bind, htake, set_apply, hact, hsettle]
  cases reply <;> rfl

/-- A turn in which no task can run, and time passes. -/
theorem leads_runTasks_jump {due : Nat} (hready : s.scheduler.ready = [])
    (hdue : s.scheduler.nextDue? = some due)
    (h : Leads (runTasks jobs turns) { s with scheduler := s.scheduler.jump due } () s') :
    Leads (runTasks jobs (turns + 1)) s () s' := by
  intro ns
  obtain ⟨ns', hns'⟩ := h ns
  have htake : s.scheduler.take? = none := by rw [Scheduler.take?, hready]
  refine ⟨ns', ?_⟩
  rw [← hns']
  simp only [runTasks, get, getThe, MonadStateOf.get, StateT.get, bind, StateT.bind, pure,
    Option.bind, htake, hdue, set_apply]

/-- The turn in which nothing is left to do. -/
theorem leads_runTasks_done (hready : s.scheduler.ready = []) (htimers : s.scheduler.timers = []) :
    Leads (runTasks jobs (turns + 1)) s () s := by
  intro ns
  have htake : s.scheduler.take? = none := by rw [Scheduler.take?, hready]
  have hdue : s.scheduler.nextDue? = none := by rw [Scheduler.nextDue?, htimers]; rfl
  refine ⟨ns, ?_⟩
  simp only [runTasks, get, getThe, MonadStateOf.get, StateT.get, bind, StateT.bind, pure,
    Option.bind, htake, hdue]
  rfl

end Work

end Simulation

end CallAdmission
