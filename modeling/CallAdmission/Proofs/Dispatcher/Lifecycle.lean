import CallAdmission.Proofs.Dispatcher.Keeping

/-!
# CallAdmission.Proofs.Dispatcher.Lifecycle

What the submitter of a call sees. The status, the error and the outcome of a call agree with where
the call is and with the one report on it, and a call that has ended stays as it ended.

* `Truthful` — what is on record of a call agrees with what has happened to it;
* `Call.Precedes` — what may become of a call later;
* `lifecycle_of_follow` — this is so of every call, after every course.
-/

namespace CallAdmission

/-- What may become of a call later: it never goes back, and after its end it stays as it is. -/
structure Call.Precedes (c c' : Call) : Prop where
  queued : c'.status = .queued → c.status = .queued
  running : c'.status = .running → c.status = .queued ∨ c.status = .running
  ended : c.status.isTerminal = true →
    c'.status = c.status ∧ c'.error = c.error ∧ c'.outcome? = c.outcome?

namespace Dispatcher

variable {limits : Limits} {notices : List Notice} {d₀ d d' : Dispatcher}
  {actions more : List Action} {es es' : List Event} {ends ends' : List (Ticket × Ending)}
  {ms ms' : List Mark} {t : Ticket} {call call' : Call} {s s' : Stage} {l l' : Ledger}

/-- What is on record of a call, where the call is and what has happened to it agree. -/
structure Truthful (d : Dispatcher) (ends : List (Ticket × Ending)) (ms : List Mark) (t : Ticket)
    (call : Call) : Prop where
  /-- the call waits, runs and ends, or runs and ends, each of them once and in this order -/
  path : way t ms <+: [.waits t, .runs t, .ends t] ∨ way t ms <+: [.runs t, .ends t]
  queued : call.status = .queued ↔ way t ms = [.waits t]
  running : call.status = .running ↔ .runs t ∈ ms ∧ .ends t ∉ ms
  ended : call.status.isTerminal = true ↔ .ends t ∈ ms
  mem_queuedCalls : t ∈ d.ledger.queue.queuedCalls ↔ call.status = .queued
  mem_runningCalls : t ∈ d.ledger.queue.runningCalls ↔ call.status = .running
  not_mem_allCalls : t ∉ d.ledger.queue.allCalls ↔ call.status.isTerminal = true
  error : call.error.isSome = true ↔ call.status = .failed
  /-- the end of the call's token decides all that is seen of its end -/
  outcome : call.status.isTerminal = true → ∃ e, endingsAt t ends = [e] ∧
    call.status = e.outcome.status ∧ call.error = e.outcome.message? ∧
    call.outcome? = some e.outcome ∧ (e = .dropped → call.canceled = true)

/-! ## what a stage tells -/

@[simp] theorem Outcome.status_ne_queued (o : Outcome) : o.status ≠ .queued := by
  cases o <;> nofun

@[simp] theorem Outcome.status_ne_running (o : Outcome) : o.status ≠ .running := by
  cases o <;> nofun

@[simp] theorem Outcome.status_eq_failed_iff (o : Outcome) :
    o.status = .failed ↔ o.message?.isSome = true := by
  cases o <;> simp [Outcome.status, Outcome.message?]

namespace Stage

theorem way_prefix (s : Stage) (t : Ticket) :
    s.way t <+: [.waits t, .runs t, .ends t] ∨ s.way t <+: [.runs t, .ends t] := by
  cases s with
  | absent | waiting | admitted | ended => exact .inl ⟨_, rfl⟩
  | sync | syncEnded => exact .inr ⟨_, rfl⟩

variable {status : Status}

theorem queued_iff (h : s.status? = some status) : status = .queued ↔ s.way t = [.waits t] := by
  cases s <;> cases h <;> simp [way]

theorem running_iff (h : s.status? = some status) :
    status = .running ↔ .runs t ∈ s.way t ∧ .ends t ∉ s.way t := by
  cases s <;> cases h <;> simp [way]

theorem ended_iff (h : s.status? = some status) :
    status.isTerminal = true ↔ .ends t ∈ s.way t := by
  cases s with
  | absent => cases h
  | waiting | admitted | sync =>
    cases h
    simp [way, Status.isTerminal]
  | ended e | syncEnded e =>
    cases h
    simp [way, Outcome.isTerminal_status]

theorem counts_queued_iff (h : s.status? = some status) : 0 < s.counts.1 ↔ status = .queued := by
  cases s <;> cases h <;> simp [counts]

theorem counts_running_iff (h : s.status? = some status) :
    0 < s.counts.2.1 + s.counts.2.2 ↔ status = .running := by
  cases s <;> cases h <;> simp [counts]

/-- A call has failed exactly if there is a failure on record. -/
theorem failure?_iff (h : s.status? = some status) :
    s.failure?.isSome = true ↔ status = .failed := by
  cases s <;> cases h <;> simp [failure?]

/-- After the end of a call one token of it has come to its end, and this decides what is on
record. -/
theorem exists_ending (h : s.status? = some status) (hended : status.isTerminal = true) :
    ∃ e, s.endings = [e] ∧ status = e.outcome.status ∧ s.failure? = e.outcome.message? := by
  cases s with
  | absent => cases h
  | waiting | admitted | sync =>
    cases h
    cases hended
  | ended e | syncEnded e =>
    cases h
    exact ⟨e, rfl, rfl, rfl⟩

end Stage

/-! ## one moment -/

theorem mem_queuedCalls_iff (q : Queue) (t : Ticket) :
    t ∈ q.queuedCalls ↔ 0 < (counts q t).1 :=
  List.count_pos_iff.symm

theorem mem_runningCalls_iff (q : Queue) (t : Ticket) :
    t ∈ q.runningCalls ↔ 0 < (counts q t).2.1 + (counts q t).2.2 := by
  rw [Queue.runningCalls, ← List.count_pos_iff, List.count_append, Nat.add_comm]
  rfl

theorem mem_allCalls_iff (q : Queue) (t : Ticket) :
    t ∈ q.allCalls ↔ t ∈ q.queuedCalls ∨ t ∈ q.runningCalls := by
  simp only [Queue.allCalls, Queue.runningCalls, List.mem_append]
  rw [or_assoc, or_comm (b := t ∈ q.sync)]

theorem mem_way {m : Mark} (hm : m.call? = some t) : m ∈ ms ↔ m ∈ way t ms := by
  simp [way, hm]

/-- The outcome that is told after a call's end. -/
theorem outcome?_of_status {o : Outcome} (hstatus : call.status = o.status)
    (herror : call.error = o.message?) : call.outcome? = some o := by
  cases o <;> simp_all [Call.outcome?, Outcome.status, Outcome.message?]

theorem Stands.truthful (h : Stands d.ledger ends ms t s) (hcall : d.ledger.call? t = some call) :
    Truthful d ends ms t call := by
  have hstatus : s.status? = some call.status := by
    rw [← h.status, hcall]
    rfl
  have hfailure : s.failure? = call.error := by
    rw [← h.failure, hcall]
    rfl
  have hqueued : t ∈ d.ledger.queue.queuedCalls ↔ call.status = .queued := by
    rw [mem_queuedCalls_iff, h.place]
    exact Stage.counts_queued_iff hstatus
  have hrunning : t ∈ d.ledger.queue.runningCalls ↔ call.status = .running := by
    rw [mem_runningCalls_iff, h.place]
    exact Stage.counts_running_iff hstatus
  refine ⟨?_, ?_, ?_, ?_, hqueued, hrunning, ?_, ?_, fun hended => ?_⟩
  · rw [h.trace]
    exact s.way_prefix t
  · rw [h.trace]
    exact Stage.queued_iff hstatus
  · rw [mem_way (t := t) rfl, mem_way (t := t) (m := .ends t) rfl, h.trace]
    exact Stage.running_iff hstatus
  · rw [mem_way (t := t) rfl, h.trace]
    exact Stage.ended_iff hstatus
  · rw [mem_allCalls_iff, hqueued, hrunning]
    cases call.status <;> simp [Status.isTerminal]
  · rw [← hfailure]
    exact Stage.failure?_iff hstatus
  · obtain ⟨e, hends, houtcome, hmessage⟩ := Stage.exists_ending hstatus hended
    have herror := hfailure.symm.trans hmessage
    refine ⟨e, h.token.trans hends, houtcome, herror, outcome?_of_status houtcome herror, ?_⟩
    rintro rfl
    have hcanceled := h.canceled (by rw [hends]; exact List.mem_singleton_self _)
    rw [Ledger.isCanceled, hcall] at hcanceled
    exact hcanceled

/-! ## later moments -/

namespace Stage

variable {status : Status}

/-- Stages follow one another in one direction: waiting, running, ended. -/
theorem exists_status_of_prefix (h : s.status? = some status) (hway : s.way t <+: s'.way t) :
    ∃ status', s'.status? = some status' ∧ (status' = .queued → status = .queued) ∧
      (status' = .running → status = .queued ∨ status = .running) := by
  cases s <;> cases s' <;> simp_all [way, status?]

theorem eq_of_ended (hs : s.endings ≠ []) (hway : s.way t <+: s'.way t)
    (hends : s.endings <+: s'.endings) : s' = s := by
  cases s <;> cases s' <;> simp_all [way, endings]

end Stage

theorem Stands.way_prefix (h : Stands l ends ms t s)
    (h' : Stands l' (ends ++ ends') (ms ++ ms') t s') : s.way t <+: s'.way t :=
  ⟨way t ms', by rw [← h.trace, ← h'.trace, way_append]⟩

theorem Stands.endings_prefix (h : Stands l ends ms t s)
    (h' : Stands l' (ends ++ ends') (ms ++ ms') t s') : s.endings <+: s'.endings :=
  ⟨endingsAt t ends', by rw [← h.token, ← h'.token, endingsAt_append]⟩

theorem Stands.precedes (h : Stands l ends ms t s)
    (h' : Stands l' (ends ++ ends') (ms ++ ms') t s') (hcall : l.call? t = some call) :
    ∃ call', l'.call? t = some call' ∧ call.Precedes call' := by
  have hstatus : s.status? = some call.status := by
    rw [← h.status, hcall]
    rfl
  obtain ⟨status', hs', hqueued, hrunning⟩ :=
    Stage.exists_status_of_prefix hstatus (h.way_prefix h')
  obtain ⟨call', hcall', rfl⟩ := Option.map_eq_some_iff.1 (h'.status.trans hs')
  refine ⟨call', hcall', hqueued, hrunning, fun hended => ?_⟩
  obtain ⟨e, hends, -, -⟩ := Stage.exists_ending hstatus hended
  have hne : s.endings ≠ [] := by
    rw [hends]
    exact List.cons_ne_nil _ _
  obtain rfl := Stage.eq_of_ended hne (h.way_prefix h') (h.endings_prefix h')
  have hsame : call'.status = call.status := Option.some.inj (hs'.symm.trans hstatus)
  have herror : call'.error = call.error := by
    have hfailure := h.failure.trans h'.failure.symm
    rw [hcall, hcall'] at hfailure
    exact hfailure.symm
  exact ⟨hsame, herror, by rw [Call.outcome?, Call.outcome?, hsame, herror]⟩

/-! ## courses -/

/-- **Lifecycle.** After every course, whatever panics in it, there is a record of exactly the calls
that have left a mark. It agrees with what has happened to the call; and however the course goes on,
the call never goes back, and stays as it ended. -/
theorem lifecycle_of_follow (hcreate : create limits = .ok (d₀, notices))
    (h : d₀.follow actions = .ok (d, es)) (t : Ticket) :
    (d.ledger.call? t = none ↔ way t (marks es) = []) ∧
      ∀ call, d.ledger.call? t = some call →
        Truthful d (d₀.endingsOf actions) (marks es) t call ∧
          ∀ more d' es', d.follow more = .ok (d', es') →
            ∃ call', d'.ledger.call? t = some call' ∧ call.Precedes call' := by
  obtain ⟨s, hs⟩ := (kept_of_follow hcreate h).stage t
  refine ⟨?_, fun call hcall => ⟨Stands.truthful hs hcall, fun more d' es' hmore => ?_⟩⟩
  · have hnone : d.ledger.call? t = none ↔ s.status? = none := by
      rw [← hs.status, Option.map_eq_none_iff]
      rfl
    rw [hnone, hs.trace]
    cases s <;> simp [Stage.status?, Stage.way]
  · obtain ⟨s', hs'⟩ := (kept_of_follow hcreate (follow_append h hmore)).stage t
    rw [endingsOf, gather_append h, marks_append] at hs'
    exact Stands.precedes hs hs' hcall

/-- The third call of the course was admitted and never handed over, for the executor panicked. -/
theorem lifecycle_of_unwoundCourse :
    ∃ d₀ notices d es call, create ⟨3, 2⟩ = .ok (d₀, notices) ∧
      d₀.follow unwoundCourse = .ok (d, es) ∧ d.ledger.call? 2 = some call ∧
      call.status = .failed ∧ call.outcome? = some (.failed "Call abandoned by executor") ∧
      endingsAt 2 (d₀.endingsOf unwoundCourse) = [.abandoned] ∧
      (d.ledger.call? 2 = none ↔ way 2 (marks es) = []) ∧
      ∀ call, d.ledger.call? 2 = some call →
        Truthful d (d₀.endingsOf unwoundCourse) (marks es) 2 call ∧
          ∀ more d' es', d.follow more = .ok (d', es') →
            ∃ call', d'.ledger.call? 2 = some call' ∧ call.Precedes call' := by
  obtain ⟨d₀, notices, d, es, call, hcreate, hcourse, hcall, hstatus, houtcome, hends⟩ :
      ∃ d₀ notices d es call, create ⟨3, 2⟩ = .ok (d₀, notices) ∧
        d₀.follow unwoundCourse = .ok (d, es) ∧ d.ledger.call? 2 = some call ∧
        call.status = .failed ∧ call.outcome? = some (.failed "Call abandoned by executor") ∧
        endingsAt 2 (d₀.endingsOf unwoundCourse) = [.abandoned] :=
    ⟨_, _, _, _, _, rfl, rfl, rfl, rfl, rfl, rfl⟩
  exact ⟨d₀, notices, d, es, call, hcreate, hcourse, hcall, hstatus, houtcome, hends,
    lifecycle_of_follow hcreate hcourse 2⟩

end Dispatcher

end CallAdmission
