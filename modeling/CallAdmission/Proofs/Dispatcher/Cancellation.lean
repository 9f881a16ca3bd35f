import CallAdmission.Proofs.Dispatcher.Lifecycle

/-!
# CallAdmission.Proofs.Dispatcher.Cancellation

Cancellation is asked for, and no more. To cancel calls is to mark them: they stay where they are,
wait for their turn, and take a slot when it comes. But a call that was canceled while it waited is
never worked at. Its run looks at the mark before it looks at anything else, and reports that the
call was canceled; a run that is dropped before that leaves the call abandoned.

* `Cancels` — what a request for cancellation comes to;
* `Barred` — the call is canceled, and nobody works at it or could go on working at it;
* `Move.barred` — every move keeps a call barred;
* `Barred.endings` — how the token of a barred call can come to its end;
* `cancellation_of_follow` — after every course, for every continuation.
-/

namespace CallAdmission

namespace Ledger

variable {l : Ledger} {t u : Ticket}

/-! ## the mark -/

/-- A call that arrives takes no mark off the others. -/
theorem isCanceled_of_ne {l' : Ledger} {c : Call}
    (hcall : ∀ u, l'.call? u = if u = t then some c else l.call? u) (hu : u ≠ t)
    (h : l.isCanceled u = true) : l'.isCanceled u = true := by
  rw [isCanceled, hcall, if_neg hu]
  exact h

/-- Calls that are canceled one after the other are marked, and nothing else happens to them. -/
theorem call?_foldl_cancel (l : Ledger) (ts : List Ticket) (u : Ticket) :
    (ts.foldl cancel l).call? u = if u ∈ ts then (l.call? u).map Call.cancel else l.call? u := by
  induction ts generalizing l with
  | nil => simp
  | cons t ts ih =>
    rw [List.foldl_cons, ih, cancel, call?_updateCall]
    by_cases hu : u = t
    · cases l.call? u <;> simp [hu, Call.cancel]
    · simp [hu]

/-- After that, those are canceled that were to be, and those that were before. -/
theorem isCanceled_foldl_cancel {ts : List Ticket} (hts : ∀ t ∈ ts, (l.call? t).isSome = true)
    (u : Ticket) :
    (ts.foldl cancel l).isCanceled u = true ↔ u ∈ ts ∨ l.isCanceled u = true := by
  rw [isCanceled, call?_foldl_cancel, isCanceled]
  by_cases hu : u ∈ ts
  · obtain ⟨c, hcall⟩ := Option.isSome_iff_exists.1 (hts u hu)
    simp [hu, hcall, Call.cancel]
  · simp [hu]

/-- Those that were canceled before are so still. -/
theorem isCanceled_foldl_cancel_of_isCanceled (ts : List Ticket) (h : l.isCanceled u = true) :
    (ts.foldl cancel l).isCanceled u = true := by
  rw [isCanceled] at h ⊢
  rw [call?_foldl_cancel]
  split
  · cases hcall : l.call? u with
    | none =>
      rw [hcall] at h
      cases h
    | some c => rfl
  · exact h

/-- The queue is left alone. -/
theorem foldl_cancel_frame (l : Ledger) (ts : List Ticket) :
    ts.foldl cancel l = { l with calls := (ts.foldl cancel l).calls } := by
  induction ts generalizing l with
  | nil => rfl
  | cons t ts ih => exact ih (l.cancel t)

end Ledger

namespace Dispatcher

/-! ## requests for cancellation -/

/-- What a request for the cancellation of calls comes to. -/
structure Cancels (d : Dispatcher) (ts : List Ticket) (turn : Turn) : Prop where
  reply : turn.reply = some .done
  /-- the mark is the only thing that changes on record of the calls -/
  call? : ∀ t, turn.dispatcher.ledger.call? t =
    if t ∈ ts then (d.ledger.call? t).map Call.cancel else d.ledger.call? t
  canceled : ∀ t, turn.dispatcher.ledger.isCanceled t = true ↔
    t ∈ ts ∨ d.ledger.isCanceled t = true
  /-- the queue, the latch, the tokens and the activities are as before -/
  frame : turn.dispatcher =
    { d with ledger := { d.ledger with calls := turn.dispatcher.ledger.calls } }
  /-- no pass is asked for or begins, no call is handed over, and no callback is invoked -/
  events : ∀ e ∈ turn.events,
    (∃ t ∈ ts, e = .canceled t) ∨ e = .said (.cancelingAll ts.length)

section Requests

variable {d : Dispatcher} {ts : List Ticket} {t : Ticket}

theorem markAllCanceled_dispatcher (d : Dispatcher) (ts : List Ticket) :
    (d.markAllCanceled ts).dispatcher = { d with ledger := ts.foldl Ledger.cancel d.ledger } := by
  induction ts generalizing d with
  | nil => rfl
  | cons t ts ih => exact ih (d.markCanceled t).dispatcher

theorem exists_of_mem_markCanceled {e : Event} (h : e ∈ (d.markCanceled t).events) :
    e = .canceled t := by
  unfold markCanceled at h
  dsimp only at h
  split at h
  · cases h
  · exact List.mem_singleton.1 h

theorem exists_of_mem_markAllCanceled {e : Event} (h : e ∈ (d.markAllCanceled ts).events) :
    ∃ t ∈ ts, e = .canceled t := by
  induction ts generalizing d with
  | nil => cases h
  | cons t ts ih =>
    rcases List.mem_append.1 h with hfirst | hrest
    · exact ⟨t, List.mem_cons_self, exists_of_mem_markCanceled hfirst⟩
    · obtain ⟨u, hu, he⟩ := ih hrest
      exact ⟨u, List.mem_cons_of_mem t hu, he⟩

/-- To mark calls and reply is to cancel them. -/
theorem cancels_of_markAllCanceled {turn : Turn} (hts : ∀ t ∈ ts, (d.ledger.call? t).isSome = true)
    (hreply : turn.reply = some .done)
    (hdispatcher : turn.dispatcher = (d.markAllCanceled ts).dispatcher)
    (hevents : ∀ e ∈ turn.events,
      e ∈ (d.markAllCanceled ts).events ∨ e = .said (.cancelingAll ts.length)) :
    Cancels d ts turn := by
  rw [markAllCanceled_dispatcher] at hdispatcher
  refine ⟨hreply, fun t => ?_, fun t => ?_, ?_, fun e he => ?_⟩
  · rw [hdispatcher, Ledger.call?_foldl_cancel]
  · rw [hdispatcher, Ledger.isCanceled_foldl_cancel hts]
  · rw [hdispatcher]
    exact congrArg (fun l : Ledger => { d with ledger := l })
      (Ledger.foldl_cancel_frame d.ledger ts)
  · exact (hevents e he).imp_left exists_of_mem_markAllCanceled

/-- All calls that wait or run are canceled. -/
theorem cancels_cancelAll
    (hcalls : ∀ t ∈ d.ledger.queue.allCalls, (d.ledger.call? t).isSome = true) :
    Cancels d d.ledger.queue.allCalls d.cancelAll := by
  refine cancels_of_markAllCanceled hcalls rfl rfl fun e he => ?_
  simp only [cancelAll, Turn.after, answer, List.append_nil, List.mem_cons] at he
  exact he.symm

/-- A single call is canceled. -/
theorem cancels_cancel (hcall : (d.ledger.call? t).isSome = true) :
    ∃ turn, d.step (.cancel t) = .ok turn ∧ Cancels d [t] turn := by
  have hsome : ¬ (d.ledger.call? t).isNone = true := by
    simpa using Option.isSome_iff_ne_none.1 hcall
  refine ⟨_, if_neg hsome, cancels_of_markAllCanceled (by simpa using hcall) rfl rfl ?_⟩
  intro e he
  exact .inl he

end Requests

/-! ## calls that nobody works at -/

/-- The call that an activity works at. -/
def Frame.work? : Frame → Option Ticket
  | .openTask t | .pollTask t | .pollSync t => some t
  | .execute .. | .idle .. => none

/-- The call was canceled when it waited or later, and nobody works at it: no activity does, and no
run that was polled before would go on with it. -/
structure Barred (d : Dispatcher) (t : Ticket) : Prop where
  next : t < d.next
  canceled : d.ledger.isCanceled t = true
  runs : ⟨t, true⟩ ∉ d.runs
  guards : t ∉ d.guards
  syncRuns : ∀ run ∈ d.syncRuns, run.call ≠ t
  stack : ∀ f ∈ d.stack, f.work? ≠ some t

section Barred

variable {a : Action} {d d₁ : Dispatcher} {t u : Ticket} {o : Outcome} {es : List Event}

/-! ### tokens of other calls -/

theorem Barred.takeHeld (h : d.Barred t) (htake : d.takeHeld u = .ok d₁) : d₁.Barred t := by
  obtain ⟨-, rfl⟩ := takeHeld_eq_ok htake
  exact ⟨h.next, h.canceled, h.runs, h.guards, h.syncRuns, h.stack⟩

theorem Barred.takeGuard (h : d.Barred t) (htake : d.takeGuard u = .ok d₁) : d₁.Barred t := by
  obtain ⟨-, rfl⟩ := takeGuard_eq_ok htake
  exact ⟨h.next, h.canceled, h.runs, fun hmem => h.guards (List.mem_of_mem_erase hmem), h.syncRuns,
    h.stack⟩

/-- A run of a barred call that is taken was never polled. -/
theorem Barred.takeRun {run : Run} (h : d.Barred t) (htake : d.takeRun u = .ok (run, d₁)) :
    d₁.Barred t ∧ (run.call = t → run.started = false) := by
  obtain ⟨hfind, rfl⟩ := takeRun_eq_ok htake
  refine ⟨⟨h.next, h.canceled, fun hmem => h.runs (List.mem_of_mem_eraseP hmem), h.guards,
    h.syncRuns, h.stack⟩, ?_⟩
  rintro rfl
  cases hstarted : run.started with
  | false => rfl
  | true =>
    have hmem := List.mem_of_find?_eq_some hfind
    have hrun : run = ⟨run.call, true⟩ := by rw [← hstarted]
    rw [hrun] at hmem
    exact absurd hmem h.runs

/-- A run of a sync call is no run of a barred call. -/
theorem Barred.takeSyncRun {run : SyncRun} (h : d.Barred t)
    (htake : d.takeSyncRun u = .ok (run, d₁)) : d₁.Barred t ∧ run.call ≠ t := by
  obtain ⟨hfind, rfl⟩ := takeSyncRun_eq_ok htake
  exact ⟨⟨h.next, h.canceled, h.runs, h.guards,
    fun run hmem => h.syncRuns run (List.mem_of_mem_eraseP hmem), h.stack⟩,
    h.syncRuns run (List.mem_of_find?_eq_some hfind)⟩

/-- An activity that is left does not work at a barred call. -/
theorem Barred.pop {f : Frame} {stack : List Frame} (h : d.Barred t)
    (hstack : d.stack = f :: stack) : Barred { d with stack } t ∧ f.work? ≠ some t := by
  have hall := h.stack
  rw [hstack, List.forall_mem_cons] at hall
  exact ⟨⟨h.next, h.canceled, h.runs, h.guards, h.syncRuns, hall.2⟩, hall.1⟩

theorem Barred.push {f : Frame} (h : d.Barred t) (hf : f.work? ≠ some t) :
    Barred { d with stack := f :: d.stack } t :=
  ⟨h.next, h.canceled, h.runs, h.guards, h.syncRuns, List.forall_mem_cons.2 ⟨hf, h.stack⟩⟩

theorem Barred.withLedger {l : Ledger} (h : d.Barred t) (hl : l.isCanceled t = true) :
    Barred { d with ledger := l } t :=
  ⟨h.next, hl, h.runs, h.guards, h.syncRuns, h.stack⟩

theorem Barred.markAllCanceled (h : d.Barred t) (ts : List Ticket) :
    (d.markAllCanceled ts).dispatcher.Barred t := by
  rw [markAllCanceled_dispatcher]
  exact h.withLedger (Ledger.isCanceled_foldl_cancel_of_isCanceled ts h.canceled)

theorem Barred.markCanceled (h : d.Barred t) (u : Ticket) :
    (d.markCanceled u).dispatcher.Barred t :=
  h.markAllCanceled [u]

/-- To ask for a pass is not to work at a call. -/
theorem Barred.request (h : d.Barred t) : (request d).dispatcher.Barred t :=
  ⟨h.next, h.canceled, h.runs, h.guards, h.syncRuns, h.stack⟩

/-- The end of a token leaves calls barred. -/
theorem Ends.barred (h : Ends a d es u o d₁) (hd : d.Barred t) : d₁.Barred t := by
  cases h with
  | report h | abandon h => exact hd.takeHeld h
  | cancelUnstarted h | cancelStarted h | dropRun h => exact (hd.takeRun h).1
  | cancelOpened h | resolve h | panicOpening h | panicPolled h => exact (hd.pop h).1

theorem EndsSync.barred (h : EndsSync a d es u o d₁) (hd : d.Barred t) : d₁.Barred t := by
  cases h with
  | finishGuard h => exact hd.takeGuard h
  | dropGuard h => exact (hd.takeGuard h).markCanceled u
  | cancelStarted h => exact (hd.takeSyncRun h).1
  | dropRun h => exact (hd.takeSyncRun h).1.markCanceled _
  | resolve h => exact (hd.pop h).1
  | panicPolled h => exact (hd.pop h).1.markCanceled u

/-- What is recorded at the end of a call leaves calls barred. -/
theorem Barred.finish (h : d.Barred t) (queue : Queue) (u : Ticket) (o : Outcome) :
    Barred { d with ledger := { d.ledger with queue }.updateCall u (·.setFinished o) } t :=
  h.withLedger
    ((Ledger.isCanceled_congr (d.ledger.canceled_finish queue u o t)).trans h.canceled)

/-! ### every move -/

/-- Every move keeps a call barred, and none works at it. -/
theorem Move.barred {m m₁ : Moment} (h : Move a m es m₁) (hm : m.dispatcher.Barred t) :
    m₁.dispatcher.Barred t ∧ t ∉ works es := by
  have hne : t ≠ m.dispatcher.next := Nat.ne_of_lt hm.next
  cases h with
  | @submit d r ha =>
    have hcanceled := Ledger.isCanceled_of_ne (d.ledger.call?_enqueue d.next r) hne hm.canceled
    refine ⟨?_, by simp [Event.work?]⟩
    exact ⟨Nat.lt_succ_of_lt hm.next, hcanceled, hm.runs, hm.guards, hm.syncRuns, hm.stack⟩
  | @submitSync d host ha =>
    have hcanceled :=
      Ledger.isCanceled_of_ne (d.ledger.call?_enqueueSync d.next host) hne hm.canceled
    refine ⟨⟨Nat.lt_succ_of_lt hm.next, hcanceled, hm.runs, ?_, hm.syncRuns, hm.stack⟩, by simp⟩
    simpa [hne] using hm.guards
  | @reserveSync d host ha =>
    refine ⟨⟨Nat.lt_succ_of_lt hm.next, hm.canceled, hm.runs, hm.guards, ?_, hm.stack⟩, by simp⟩
    rw [List.forall_mem_append, List.forall_mem_singleton]
    exact ⟨hm.syncRuns, Ne.symm hne⟩
  | @startSync d d₁ u run ha h hs =>
    obtain ⟨hd₁, hcall⟩ := hm.takeSyncRun h
    have hcanceled := Ledger.isCanceled_of_ne
      (d₁.ledger.call?_enqueueSync run.call run.host) (Ne.symm hcall) hd₁.canceled
    have hwork : (Frame.pollSync run.call).work? ≠ some t := by simpa [Frame.work?] using hcall
    exact ⟨(hd₁.withLedger hcanceled).push hwork, by simpa [Event.work?] using Ne.symm hcall⟩
  | dropUnstarted ha h => exact ⟨(hm.takeSyncRun h).1, by simp⟩
  | @openRun d d₁ u ha h =>
    have hd₁ := hm.takeHeld h
    refine ⟨⟨hd₁.next, hd₁.canceled, ?_, hd₁.guards, hd₁.syncRuns, hd₁.stack⟩, by simp⟩
    simpa using hd₁.runs
  | @openTask d d₁ u run ha h hs hc | @pollTask d d₁ u run ha h hs hc =>
    obtain ⟨hd₁, -⟩ := hm.takeRun h
    have hcall : run.call ≠ t := by
      rintro rfl
      exact absurd (hd₁.canceled.symm.trans hc) nofun
    exact ⟨hd₁.push (by simpa [Frame.work?] using hcall),
      by simpa [Event.work?] using Ne.symm hcall⟩
  | @pollOpened d u stack ha h hc =>
    obtain ⟨hd, hcall⟩ := hm.pop h
    exact ⟨hd.push hcall, by simpa [Event.work?, Frame.work?, eq_comm] using hcall⟩
  | @pollSync d d₁ u run ha h hs hc =>
    obtain ⟨hd₁, hcall⟩ := hm.takeSyncRun h
    exact ⟨hd₁.push (by simpa [Frame.work?] using hcall),
      by simpa [Event.work?] using Ne.symm hcall⟩
  | @suspend d u stack ha h =>
    obtain ⟨hd, hcall⟩ := hm.pop h
    refine ⟨⟨hd.next, hd.canceled, ?_, hd.guards, hd.syncRuns, hd.stack⟩, by simp⟩
    have hu : t ≠ u := by simpa [Frame.work?, eq_comm] using hcall
    simpa [hu] using hd.runs
  | @suspendSync d u stack ha h =>
    obtain ⟨hd, hcall⟩ := hm.pop h
    refine ⟨⟨hd.next, hd.canceled, hd.runs, hd.guards, ?_, hd.stack⟩, by simp⟩
    rw [List.forall_mem_append, List.forall_mem_singleton]
    exact ⟨hd.syncRuns, by simpa [Frame.work?] using hcall⟩
  | @complete d d₁ es u o l notices h hr =>
    obtain ⟨departure, -, rfl⟩ := Ledger.release_eq_some hr
    exact ⟨((h.barred hm).finish _ u o).request, by simp [works_remarks h.remarks, Event.work?]⟩
  | @completeSync d d₁ es u o l notices h hr =>
    obtain ⟨queue, -, rfl⟩ := Ledger.releaseSync_eq_some hr
    exact ⟨((h.barred hm).finish _ u o).request, by simp [works_remarks h.remarks, Event.work?]⟩
  | miss h hr => exact ⟨h.barred hm, by simp [works_remarks h.remarks]⟩
  | missSync h hr => exact ⟨h.barred hm, by simp [works_remarks h.remarks]⟩
  | @setLimit d limit n l notices ha h =>
    obtain ⟨queue, -, rfl, -⟩ := Ledger.setLimit_eq_ok h
    have hcanceled : Ledger.isCanceled { d.ledger with queue } t = true := hm.canceled
    exact ⟨(hm.withLedger hcanceled).request, by simp [Event.work?]⟩
  | setIdle ha => exact ⟨hm.withLedger hm.canceled, by simp⟩
  | @cancel d u ha => exact ⟨hm.markCanceled u, by simp [works_remarks (remarks_markCanceled d u)]⟩
  | @cancelAll d ha =>
    refine ⟨hm.markAllCanceled _, ?_⟩
    rw [works_remarks (List.forall_mem_cons.2 ⟨rfl, remarks_markAllCanceled d _⟩)]
    exact List.not_mem_nil
  | @promote d hp =>
    have hcanceled : d.ledger.promote.ledger.isCanceled t = true :=
      (Ledger.isCanceled_congr (d.ledger.canceled_promote t)).trans hm.canceled
    refine ⟨⟨hm.next, hcanceled, hm.runs, hm.guards, hm.syncRuns, hm.stack⟩, ?_⟩
    simp [Event.work?]
  | handOver reply =>
    refine ⟨⟨hm.next, hm.canceled, hm.runs, hm.guards, hm.syncRuns, ?_⟩, by simp [Event.work?]⟩
    exact List.forall_mem_cons.2 ⟨nofun, hm.stack⟩
  | invoke reply => exact ⟨hm.push nofun, by simp [Event.work?]⟩
  | close | unlatch =>
    exact ⟨⟨hm.next, hm.canceled, hm.runs, hm.guards, hm.syncRuns, hm.stack⟩, by simp⟩
  | resume ha h | resumeIdle ha h | fail ha h | failIdle ha h => exact ⟨(hm.pop h).1, by simp⟩
  | @abandon d u rest l notices hp hr =>
    obtain ⟨departure, -, rfl⟩ := Ledger.release_eq_some hr
    have hd := hm.finish departure.queue u (.ofResult (.error .abandoned))
    refine ⟨⟨hd.next, hd.canceled, hd.runs, hd.guards, hd.syncRuns, hd.stack⟩, ?_⟩
    simp [Event.work?]
  | abandonMiss hr => exact ⟨hm, by simp [Event.work?]⟩

/-! ### every step -/

variable {turn : Turn} {d' : Dispatcher} {more : List Action}

/-- A call that waits and is canceled is barred. -/
theorem Custody.Kept.barred {ends : List (Ticket × Ending)} {ms : List Mark}
    (h : (Moment.custody ⟨d, .outside⟩).Kept ends ms) (ht : t ∈ d.ledger.queue.queuedCalls)
    (hcanceled : d.ledger.isCanceled t = true) : d.Barred t := by
  obtain ⟨s, hs⟩ := h.stage t
  have hplace : counts d.ledger.queue t = s.counts := hs.place
  have hwaiting : s = .waiting := by
    rw [mem_queuedCalls_iff, hplace] at ht
    cases s <;> first | rfl | cases ht
  subst hwaiting
  have hfresh : ¬ (d.next ≤ t ∨ t ∈ (↑d.reserved : Multiset Ticket)) := by
    intro hfresh
    have htrace := hs.trace
    rw [h.fresh t hfresh] at htrace
    cases htrace
  rw [not_or, Multiset.mem_coe] at hfresh
  have hmatched := h.matched
  have htokens : t ∉ d.tokens := by
    rw [hmatched.tokens.mem_iff, ← List.count_eq_zero]
    exact congrArg (·.2.1) hplace
  have hsync : t ∉ d.syncTokens := by
    rw [hmatched.syncTokens.mem_iff, ← List.count_eq_zero]
    exact congrArg (·.2.2) hplace
  simp only [Dispatcher.tokens, List.mem_append, not_or] at htokens
  simp only [Dispatcher.syncTokens, List.mem_append, not_or] at hsync
  obtain ⟨⟨-, hruns⟩, hstack⟩ := htokens
  obtain ⟨⟨hguards, hsyncRuns⟩, hsyncStack⟩ := hsync
  refine ⟨Nat.lt_of_not_le hfresh.1, hcanceled, fun hmem => ?_, hguards, fun run hmem hcall => ?_,
    fun f hmem hwork => ?_⟩
  · exact hruns (List.mem_map.2 ⟨_, hmem, rfl⟩)
  · -- a run that was polled has the call's guard, and one that was not has set its ticket aside
    cases hstarted : run.started with
    | true => exact hsyncRuns (List.mem_map.2 ⟨run, List.mem_filter.2 ⟨hmem, hstarted⟩, hcall⟩)
    | false =>
      exact hfresh.2 (List.mem_map.2 ⟨run, List.mem_filter.2 ⟨hmem, by simp [hstarted]⟩, hcall⟩)
  · cases f with
    | openTask u | pollTask u =>
      cases hwork
      exact hstack (List.mem_flatMap.2 ⟨_, hmem, List.mem_singleton_self t⟩)
    | pollSync u =>
      cases hwork
      exact hsyncStack (List.mem_flatMap.2 ⟨_, hmem, List.mem_singleton_self t⟩)
    | execute | idle => cases hwork

theorem Barred.step (h : d.Barred t) (hd : Moment.Latched ⟨d, .outside⟩)
    (hstep : d.step a = .ok turn) :
    Moment.Latched ⟨turn.dispatcher, .outside⟩ ∧ turn.dispatcher.Barred t ∧
      t ∉ works turn.events := by
  have hmoves : Moves a ⟨d, .outside⟩ turn.events ⟨turn.dispatcher, .outside⟩ :=
    reaches_step hd hstep
  have hbarred : turn.dispatcher.Barred t ∧ t ∉ works ([] ++ turn.events) :=
    hmoves.induction (P := fun es m => m.dispatcher.Barred t ∧ t ∉ works es)
      (fun before m es m₁ hm hmove => by
        obtain ⟨hbarred, hes⟩ := hmove.barred hm.1
        exact ⟨hbarred, by simp [hm.2, hes]⟩)
      ⟨h, List.not_mem_nil⟩
  exact ⟨hmoves.latched hd, hbarred⟩

/-- However a course goes on, the call stays barred, and is not worked at. -/
theorem Barred.follow (h : d.Barred t) (hd : Moment.Latched ⟨d, .outside⟩)
    (hfollow : d.follow more = .ok (d', es)) : d'.Barred t ∧ t ∉ works es := by
  induction more generalizing d es with
  | nil =>
    cases hfollow
    exact ⟨h, List.not_mem_nil⟩
  | cons a more ih =>
    obtain ⟨turn, es', hstep, hrest, rfl⟩ := follow_cons_eq_ok hfollow
    obtain ⟨hlatched, hbarred, hes⟩ := h.step hd hstep
    obtain ⟨hlast, hes'⟩ := ih hbarred hlatched hrest
    exact ⟨hlast, by simp [hes, hes']⟩

/-! ### the end of the call -/

theorem Barred.isStarted (h : d.Barred t) : d.isStarted t = false := by
  have hnone : d.syncRuns.find? (·.call == t) = none := by
    rw [List.find?_eq_none]
    intro run hmem
    simpa using h.syncRuns run hmem
  rw [Dispatcher.isStarted, hnone]
  rfl

/-- The token of a barred call comes to its end when its run is polled, which reports that the call
was canceled, or when it is dropped; or else the executor reports a result without a run. -/
theorem Barred.endings {e : Ending} (h : d.Barred t) (hstep : d.step a = .ok turn)
    (he : (t, e) ∈ d.endings a) :
    (a = .pollRun t ∧ e = .reported (.error .canceled)) ∨
      ((∀ u, a ≠ .pollRun u) ∧ e = .abandoned) ∨ ∃ r, a = .report t r := by
  cases a with
  | report u r =>
    cases List.mem_singleton.1 he
    exact .inr (.inr ⟨r, rfl⟩)
  | abandon u | dropRun u =>
    cases List.mem_singleton.1 he
    exact .inr (.inl ⟨by simp, rfl⟩)
  | pollRun u =>
    simp only [Dispatcher.endings, List.mem_ite_nil_right, List.mem_singleton, Prod.mk.injEq] at he
    obtain ⟨-, rfl, rfl⟩ := he
    exact .inl ⟨rfl, rfl⟩
  | finishGuard u r | dropGuard u =>
    cases List.mem_singleton.1 he
    obtain ⟨d₁, htake, -⟩ := exists_of_bind_eq_ok hstep
    exact absurd (takeGuard_eq_ok htake).1 h.guards
  | pollSyncRun u =>
    simp only [Dispatcher.endings, List.mem_ite_nil_right, List.mem_singleton, Prod.mk.injEq,
      Bool.and_eq_true] at he
    obtain ⟨⟨hstarted, -⟩, rfl, -⟩ := he
    exact absurd (hstarted.symm.trans h.isStarted) (by decide)
  | dropSyncRun u =>
    simp only [Dispatcher.endings, List.mem_ite_nil_right, List.mem_singleton,
      Prod.mk.injEq] at he
    obtain ⟨hstarted, rfl, -⟩ := he
    exact absurd (hstarted.symm.trans h.isStarted) (by decide)
  | leave =>
    simp only [Dispatcher.endings] at he
    split at he
    · next u stack hstack =>
      simp only [List.mem_ite_nil_right, List.mem_singleton, Prod.mk.injEq] at he
      obtain ⟨-, rfl, -⟩ := he
      exact absurd rfl (h.pop hstack).2
    · cases he
  | resolve r =>
    simp only [Dispatcher.endings] at he
    split at he
    · next u stack hstack =>
      cases List.mem_singleton.1 he
      exact absurd rfl (h.pop hstack).2
    · next u stack hstack =>
      cases List.mem_singleton.1 he
      exact absurd rfl (h.pop hstack).2
    · cases he
  | panic message =>
    refine .inr (.inl ⟨by simp, ?_⟩)
    simp only [Dispatcher.endings] at he
    split at he
    · obtain ⟨u, -, hu⟩ := List.mem_map.1 he
      exact (congrArg Prod.snd hu).symm
    · exact congrArg Prod.snd (List.mem_singleton.1 he)
    · exact congrArg Prod.snd (List.mem_singleton.1 he)
    · next u stack hstack =>
      cases List.mem_singleton.1 he
      exact absurd rfl (h.pop hstack).2
    · cases he
    · cases he
  | submit | submitSync | executeSync | openRun | suspend | setLimit | setIdle | cancel
  | cancelAll => cases he

/-- As long as no result is reported without a run, the token of a barred call comes to its end by a
poll of its run, or is dropped. -/
theorem Barred.endingsOf (h : d.Barred t) (hd : Moment.Latched ⟨d, .outside⟩)
    (hfollow : d.follow more = .ok (d', es)) (hreport : ∀ r, .report t r ∉ more) :
    (∀ e, (t, e) ∈ d.endingsOf more →
      (.pollRun t ∈ more ∧ e = .reported (.error .canceled)) ∨ e = .abandoned) ∧
      (.pollRun t ∈ more → (t, .reported (.error .canceled)) ∈ d.endingsOf more) := by
  induction more generalizing d es with
  | nil => simp [Dispatcher.endingsOf, gather]
  | cons a more ih =>
    obtain ⟨turn, es', hstep, hrest, rfl⟩ := follow_cons_eq_ok hfollow
    obtain ⟨hlatched, hbarred, -⟩ := h.step hd hstep
    obtain ⟨hends, hpoll⟩ := ih hbarred hlatched hrest
      fun r hmem => hreport r (List.mem_cons_of_mem a hmem)
    have hsplit : d.endingsOf (a :: more) = d.endings a ++ turn.dispatcher.endingsOf more := by
      simp only [Dispatcher.endingsOf, gather, hstep]
    rw [hsplit]
    refine ⟨fun e he => ?_, fun hmem => ?_⟩
    · rcases List.mem_append.1 he with he | he
      · rcases h.endings hstep he with ⟨rfl, rfl⟩ | ⟨-, rfl⟩ | ⟨r, rfl⟩
        · exact .inl ⟨List.mem_cons_self, rfl⟩
        · exact .inr rfl
        · exact absurd List.mem_cons_self (hreport r)
      · exact (hends e he).imp_left (And.imp_left (List.mem_cons_of_mem a))
    · rcases List.mem_cons.1 hmem with rfl | hmem
      · refine List.mem_append_left _ ?_
        simp [Dispatcher.endings, h.canceled]
      · exact List.mem_append_right _ (hpoll hmem)

/-- A call that waits, and is gone later, was admitted and ended in between. -/
theorem Stands.ended_of_left {l l' : Ledger} {ends ends' : List (Ticket × Ending)}
    {ms ms' : List Mark} {s' : Stage} (h : Stands l ends ms t .waiting)
    (h' : Stands l' (ends ++ ends') (ms ++ ms') t s') (hleft : t ∉ l'.queue.allCalls) :
    way t ms' = [.runs t, .ends t] ∧ ∃ e call, endingsAt t ends' = [e] ∧
      l'.call? t = some call ∧ call.outcome? = some e.outcome := by
  have hway := h'.trace
  rw [way_append, h.trace] at hway
  have hends := h'.token
  rw [endingsAt_append, h.token, Stage.endings, List.nil_append] at hends
  have hplace := h'.place
  rw [mem_allCalls_iff, mem_queuedCalls_iff, mem_runningCalls_iff, hplace] at hleft
  cases s' with
  | ended e =>
    obtain ⟨call, hcall, hstatus⟩ := Option.map_eq_some_iff.1 h'.status
    have hfailure := h'.failure
    rw [hcall] at hfailure
    exact ⟨(List.cons.inj hway).2, e, call, hends, hcall, outcome?_of_status hstatus hfailure⟩
  | absent | sync | syncEnded => cases hway
  | waiting | admitted => exact absurd hleft (by decide)

end Barred

/-! ## courses -/

/-- What becomes of a call that was canceled when it waited, in a course that goes on from there. -/
structure Withdrawn (d : Dispatcher) (more : List Action) (d' : Dispatcher) (es : List Event)
    (t : Ticket) : Prop where
  /-- the call's task is never made -/
  opened : .taskOpened t ∉ es
  polled : .taskPolled t ∉ es
  canceled : d'.ledger.isCanceled t = true
  /-- if the call is gone, it was admitted and then gave its slot back: it ended as canceled if its
  run was polled, and as abandoned if it was dropped before that -/
  left : t ∉ d'.ledger.queue.allCalls → way t (marks es) = [.runs t, .ends t] ∧
    ∃ call, d'.ledger.call? t = some call ∧
      ((.pollRun t ∈ more ∧ endingsAt t (d.endingsOf more) = [.reported (.error .canceled)] ∧
          call.outcome? = some .canceled) ∨
        (.pollRun t ∉ more ∧ endingsAt t (d.endingsOf more) = [.abandoned] ∧
          call.outcome? = some (.failed "Call abandoned by executor")))

variable {limits : Limits} {notices : List Notice} {d₀ d d' : Dispatcher}
  {actions more : List Action} {es es' : List Event} {t : Ticket}

/-- There is a record of each call in the queue. -/
theorem Custody.Kept.isSome_call? {ends : List (Ticket × Ending)} {ms : List Mark}
    (h : (Moment.custody ⟨d, .outside⟩).Kept ends ms) (ht : t ∈ d.ledger.queue.allCalls) :
    (d.ledger.call? t).isSome = true := by
  obtain ⟨s, hs⟩ := h.stage t
  have hplace : counts d.ledger.queue t = s.counts := hs.place
  have hstatus : (d.ledger.call? t).map (·.status) = s.status? := hs.status
  rw [mem_allCalls_iff, mem_queuedCalls_iff, mem_runningCalls_iff, hplace] at ht
  rw [← Option.isSome_map (f := (·.status)), hstatus]
  cases s with
  | absent => exact absurd ht (by decide)
  | _ => rfl

/-- A call that waits and is canceled is withdrawn, as long as nothing but its run reports on it. -/
theorem withdrawn_of_follow (hcreate : create limits = .ok (d₀, notices))
    (h : d₀.follow actions = .ok (d, es)) (ht : t ∈ d.ledger.queue.queuedCalls)
    (hcanceled : d.ledger.isCanceled t = true) (hmore : d.follow more = .ok (d', es'))
    (hreport : ∀ r, .report t r ∉ more) : Withdrawn d more d' es' t := by
  have hkept := kept_of_follow hcreate h
  have hlatched := latched_of_follow hcreate h
  have hbarred := hkept.barred ht hcanceled
  obtain ⟨hlast, hwork⟩ := hbarred.follow hlatched hmore
  obtain ⟨hopened, hpolled⟩ := not_mem_works_iff.1 hwork
  refine ⟨hopened, hpolled, hlast.canceled, fun hleft => ?_⟩
  obtain ⟨s, hs⟩ := hkept.stage t
  obtain rfl : s = .waiting := by
    have hplace : counts d.ledger.queue t = s.counts := hs.place
    rw [mem_queuedCalls_iff, hplace] at ht
    cases s <;> first | rfl | cases ht
  obtain ⟨s', hs'⟩ := (kept_of_follow hcreate (follow_append h hmore)).stage t
  rw [endingsOf, gather_append h, marks_append] at hs'
  obtain ⟨hway, e, call, hends, hcall, houtcome⟩ := Stands.ended_of_left hs hs' hleft
  refine ⟨hway, call, hcall, ?_⟩
  obtain ⟨hall, hpoll⟩ := hbarred.endingsOf hlatched hmore hreport
  have hmem : (t, e) ∈ d.endingsOf more := by
    rw [← mem_endingsAt]
    exact hends ▸ List.mem_singleton_self e
  by_cases hpolledRun : .pollRun t ∈ more
  · have hreported := mem_endingsAt.2 (hpoll hpolledRun)
    rw [endingsOf, hends, List.mem_singleton] at hreported
    subst hreported
    exact .inl ⟨hpolledRun, hends, houtcome⟩
  · rcases hall e hmem with ⟨hpolledRun', -⟩ | rfl
    · exact absurd hpolledRun' hpolledRun
    · exact .inr ⟨hpolledRun, hends, houtcome⟩

/-- **Cancellation.** After every course, to cancel all calls marks those that wait or run and does
nothing else, and likewise to cancel one call. A call that waited then is never worked at, however
the course goes on, as long as nothing but its run reports on it: if it is gone later, it was
admitted, and ended as canceled, or as abandoned if it was dropped before its run was polled. -/
theorem cancellation_of_follow (hcreate : create limits = .ok (d₀, notices))
    (h : d₀.follow actions = .ok (d, es)) :
    (d.step .cancelAll = .ok d.cancelAll ∧ Cancels d d.ledger.queue.allCalls d.cancelAll) ∧
      (∀ t, (d.ledger.call? t).isSome = true →
        ∃ turn, d.step (.cancel t) = .ok turn ∧ Cancels d [t] turn) ∧
      ∀ t ∈ d.ledger.queue.queuedCalls, ∀ a turn, a = .cancelAll ∨ a = .cancel t →
        d.step a = .ok turn → ∀ more d' es', turn.dispatcher.follow more = .ok (d', es') →
          (∀ r, .report t r ∉ more) → Withdrawn turn.dispatcher more d' es' t := by
  have hkept := kept_of_follow hcreate h
  have hall := cancels_cancelAll (d := d) fun t ht => hkept.isSome_call? ht
  refine ⟨⟨rfl, hall⟩, fun t ht => cancels_cancel ht, ?_⟩
  intro t ht a turn ha hstep more d' es' hmore hreport
  have hmem : t ∈ d.ledger.queue.allCalls := (mem_allCalls_iff _ t).2 (.inl ht)
  obtain ⟨ts, hts, hcancels⟩ : ∃ ts, t ∈ ts ∧ Cancels d ts turn := by
    rcases ha with rfl | rfl
    · cases hstep
      exact ⟨_, hmem, hall⟩
    · obtain ⟨turn', hstep', hcancels⟩ := cancels_cancel (hkept.isSome_call? hmem)
      cases hstep.symm.trans hstep'
      exact ⟨[t], List.mem_singleton_self t, hcancels⟩
  have hqueue : turn.dispatcher.ledger.queue = d.ledger.queue := by rw [hcancels.frame]
  rw [← hqueue] at ht
  exact withdrawn_of_follow hcreate (follow_concat h hstep) ht ((hcancels.canceled t).2 (.inl hts))
    hmore hreport

/-- One call is held by the executor, and two wait. -/
def crowdedCourse : List Action :=
  [.submit ⟨⟨"a"⟩, false⟩, .leave, .submit ⟨⟨"a"⟩, false⟩, .submit ⟨⟨"b"⟩, true⟩]

/-- The call that runs ends, the second is handed over and its run is polled, and the third is
handed over and dropped. -/
def drainedCourse : List Action :=
  [.report 0 (.ok ()), .openRun 1, .leave, .pollRun 1, .abandon 2, .leave]

theorem cancellation_of_crowdedCourse :
    ∃ d₀ notices d es turn d' es', create ⟨1, 1⟩ = .ok (d₀, notices) ∧
      d₀.follow crowdedCourse = .ok (d, es) ∧ d.ledger.queue.queuedCalls = [1, 2] ∧
      d.step .cancelAll = .ok turn ∧ turn.dispatcher.follow drainedCourse = .ok (d', es') ∧
      d'.ledger.queue.allCalls = [] ∧ Cancels d [1, 2, 0] turn ∧
      (d'.ledger.call? 1).bind (·.outcome?) = some .canceled ∧
      (d'.ledger.call? 2).bind (·.outcome?) = some (.failed "Call abandoned by executor") ∧
      Withdrawn turn.dispatcher drainedCourse d' es' 1 ∧
      Withdrawn turn.dispatcher drainedCourse d' es' 2 := by
  obtain ⟨d₀, notices, d, es, turn, d', es', hcreate, hcourse, hqueued, hall, hstep, hmore, hempty,
      hfirst, hsecond⟩ :
      ∃ d₀ notices d es turn d' es', create ⟨1, 1⟩ = .ok (d₀, notices) ∧
        d₀.follow crowdedCourse = .ok (d, es) ∧ d.ledger.queue.queuedCalls = [1, 2] ∧
        d.ledger.queue.allCalls = [1, 2, 0] ∧
        d.step .cancelAll = .ok turn ∧ turn.dispatcher.follow drainedCourse = .ok (d', es') ∧
        d'.ledger.queue.allCalls = [] ∧
        (d'.ledger.call? 1).bind (·.outcome?) = some .canceled ∧
        (d'.ledger.call? 2).bind (·.outcome?) = some (.failed "Call abandoned by executor") :=
    ⟨_, _, _, _, _, _, _, rfl, rfl, rfl, rfl, rfl, rfl, rfl, rfl, rfl⟩
  obtain ⟨⟨hself, hcancels⟩, -, hlater⟩ := cancellation_of_follow hcreate hcourse
  cases hself.symm.trans hstep
  rw [hall] at hcancels
  refine ⟨d₀, notices, d, es, d.cancelAll, d', es', hcreate, hcourse, hqueued, rfl, hmore, hempty,
    hcancels, hfirst, hsecond, ?_, ?_⟩
  · exact hlater 1 (by simp [hqueued]) .cancelAll _ (.inl rfl) rfl _ _ _ hmore
      (by simp [drainedCourse])
  · exact hlater 2 (by simp [hqueued]) .cancelAll _ (.inl rfl) rfl _ _ _ hmore
      (by simp [drainedCourse])

end Dispatcher

end CallAdmission
