import CallAdmission.Proofs.Queue.Sharing

/-!
# CallAdmission.Proofs.Queue.Scan

What a promotion scan does to a queue. It only moves calls: those that it admits go to the end of
the running ones, those that it passes over keep their order, and none is lost. It ends when the
total limit is reached, or when every call that is left has a full host.

* `scan_running`, `scan_perm` — where the calls are after a scan;
* `scan_ends` — why a scan ends;
* `scan_of_blocked` — when a scan does nothing;
* `Coherent.promote` — a promotion pass keeps a queue coherent.
-/

namespace CallAdmission.Queue

variable {q : Queue} {e : Entry}

/-! ## admission of one call -/

@[simp] theorem letIn_running (q : Queue) (e : Entry) :
    (q.letIn e).running = q.running ++ [e] := rfl

@[simp] theorem admission_entry (q : Queue) (e : Entry) : (q.admission e).entry = e := rfl

theorem Tallied.letIn (h : q.Tallied) (e : Entry) : (q.letIn e).Tallied := by
  intro name
  have hname := h name
  simp only [Queue.letIn, Counters.get_set, List.countP_append, List.countP_singleton]
  by_cases hn : name = e.counter
  · subst hn
    simpa [Counter.increment] using hname
  · simpa [hn, Ne.symm hn] using hname

/-- A full host stays full when a call is admitted. -/
theorem isSaturated_letIn (h : q.isSaturated e = true) (f : Entry) :
    (q.letIn f).isSaturated e = true := by
  simp only [isSaturated, letIn, Counters.get_set, Bool.and_eq_true, decide_eq_true_eq] at h ⊢
  refine ⟨h.1, ?_⟩
  split
  · next hc =>
    rw [hc] at h
    exact Nat.le_succ_of_le h.2
  · exact h.2

/-! ## the scan -/

/-- Without room a scan does nothing. -/
theorem scan_of_full (h : q.hasRoom = false) (es : List Entry) : q.scan es = (q, [], es) := by
  cases es <;> simp [scan, h]

/-- A scan changes nothing but the running calls and the counters. -/
theorem scan_frame (q : Queue) (es : List Entry) :
    (q.scan es).1 =
      { q with running := (q.scan es).1.running, counters := (q.scan es).1.counters } := by
  induction q, es using scan.induct with
  | case1 q => rfl
  | case2 q e es hroom hsat ih => rw [scan, if_pos hroom, if_pos hsat]; exact ih
  | case3 q e es hroom hsat ih => rw [scan, if_pos hroom, if_neg hsat]; exact ih
  | case4 q e es hroom => rw [scan, if_neg hroom]

@[simp] theorem scan_limits (q : Queue) (es : List Entry) : (q.scan es).1.limits = q.limits := by
  rw [scan_frame]

@[simp] theorem scan_sync (q : Queue) (es : List Entry) : (q.scan es).1.sync = q.sync := by
  rw [scan_frame]

/-- The calls that a scan admits go to the end of the running ones. -/
theorem scan_running (q : Queue) (es : List Entry) :
    (q.scan es).1.running = q.running ++ (q.scan es).2.1.map (·.entry) := by
  induction q, es using scan.induct with
  | case1 q => simp [scan]
  | case2 q e es hroom hsat ih => simp [scan, hroom, hsat, ih]
  | case3 q e es hroom hsat ih => simp [scan, hroom, hsat, ih]
  | case4 q e es hroom => simp [scan, hroom]

/-- A scan loses no call: each one is admitted or left. -/
theorem scan_perm (q : Queue) (es : List Entry) :
    ((q.scan es).2.1.map (·.entry) ++ (q.scan es).2.2).Perm es := by
  induction q, es using scan.induct with
  | case1 q => simp [scan]
  | case2 q e es hroom hsat ih =>
    simp only [scan, hroom, hsat, if_true]
    exact List.perm_middle.trans (ih.cons e)
  | case3 q e es hroom hsat ih =>
    simpa [scan, hroom, hsat] using ih
  | case4 q e es hroom => simp [scan, hroom]

theorem Tallied.scan (h : q.Tallied) (es : List Entry) : (q.scan es).1.Tallied := by
  induction q, es using scan.induct with
  | case1 q => exact h
  | case2 q e es hroom hsat ih => simpa [Queue.scan, hroom, hsat] using ih h
  | case3 q e es hroom hsat ih => simpa [Queue.scan, hroom, hsat] using ih (h.letIn e)
  | case4 q e es hroom => simpa [Queue.scan, hroom] using h

/-- A full host stays full during a scan. -/
theorem isSaturated_scan (h : q.isSaturated e = true) (es : List Entry) :
    (q.scan es).1.isSaturated e = true := by
  induction q, es using scan.induct with
  | case1 q => exact h
  | case2 q f es hroom hsat ih => simpa [scan, hroom, hsat] using ih h
  | case3 q f es hroom hsat ih => simpa [scan, hroom, hsat] using ih (isSaturated_letIn h f)
  | case4 q f es hroom => simpa [scan, hroom] using h

/-- A scan ends because there is no room, or because every call that is left has a full host. -/
theorem scan_ends (q : Queue) (es : List Entry) :
    (q.scan es).1.hasRoom = false ∨
      ∀ e ∈ (q.scan es).2.2, (q.scan es).1.isSaturated e = true := by
  induction q, es using scan.induct with
  | case1 q => simp [scan]
  | case2 q e es hroom hsat ih =>
    simp only [scan, hroom, hsat, if_true, List.forall_mem_cons]
    exact ih.imp_right fun h => ⟨isSaturated_scan hsat es, h⟩
  | case3 q e es hroom hsat ih => simpa [scan, hroom, hsat] using ih
  | case4 q e es hroom => simp [scan, hroom]

/-- Where there is no room, or every call has a full host, a scan does nothing. -/
theorem scan_of_blocked {es : List Entry}
    (h : q.hasRoom = false ∨ ∀ e ∈ es, q.isSaturated e = true) : q.scan es = (q, [], es) := by
  rcases h with h | h
  · exact scan_of_full h es
  · induction es with
    | nil => rfl
    | cons e es ih =>
      have hsat : q.isSaturated e = true := h e List.mem_cons_self
      have hrest := ih fun f hf => h f (List.mem_cons_of_mem e hf)
      by_cases hroom : q.hasRoom
      · simp [scan, hroom, hsat, hrest]
      · simp [scan, hroom]

/-! ## the promotion pass -/

/-- A pass scans the waiting calls and then looks at the idle callback. -/
theorem promote_queue (q : Queue) :
    q.promote.queue =
      { (q.scan q.ready).1 with
        ready := (q.scan q.ready).2.2
        busy := q.promote.queue.busy } := by
  simp only [promote, settle]
  split <;> rfl

@[simp] theorem promote_limits (q : Queue) : q.promote.queue.limits = q.limits := by
  rw [promote_queue, scan_limits]

@[simp] theorem promote_sync (q : Queue) : q.promote.queue.sync = q.sync := by
  rw [promote_queue, scan_sync]

theorem promote_ready (q : Queue) : q.promote.queue.ready = (q.scan q.ready).2.2 := by
  rw [promote_queue]

theorem promote_running (q : Queue) : q.promote.queue.running = (q.scan q.ready).1.running := by
  rw [promote_queue]

theorem promote_counters (q : Queue) : q.promote.queue.counters = (q.scan q.ready).1.counters := by
  rw [promote_queue]

/-- A pass keeps the calls: after it the same ones hold a counter as before. -/
theorem mem_holders_promote (q : Queue) (e : Entry) :
    e ∈ q.promote.queue.holders ↔ e ∈ q.holders := by
  have hperm := (scan_perm q q.ready).mem_iff (a := e)
  simp only [holders, promote_running, promote_ready, scan_running, List.mem_append] at hperm ⊢
  rw [or_assoc, hperm]

/-- A promotion pass keeps a queue coherent. -/
theorem Coherent.promote {next : Ticket} (h : q.Coherent next) :
    q.promote.queue.Coherent next where
  sharing := h.sharing.mono fun e he => (mem_holders_promote q e).1 he
  below e he := h.below e ((mem_holders_promote q e).1 he)
  tally name := by
    rw [promote_counters, promote_running]
    exact h.tally.scan q.ready name

end CallAdmission.Queue
