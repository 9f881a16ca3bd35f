import CallAdmission.Proofs.Queue.Consistency

/-!
# CallAdmission.Proofs.Queue.Refinement

The queue that reads the load of a host off a counter does what the queue without counters does,
which counts the running calls of the host. `Queue.plain` forgets the counters; every operation
goes through it.

* `plain_scan`, `plain_promote` — a promotion pass decides by the counters as by counting;
* `plain_step` — every operation has the same answer and leaves the same queue;
* `play_counted_eq_play_plainly` — no history tells the two queues apart.
-/

namespace CallAdmission

@[simp] theorem Entry.member_call (e : Entry) : e.member.call = e.call := rfl

@[simp] theorem Entry.member_host (e : Entry) : e.member.host = e.host := rfl

@[simp] theorem Entry.member_duplex (e : Entry) : e.member.duplex = e.duplex := rfl

namespace Queue

variable {q : Queue} {t : Ticket}

/-! ## what a queue shows -/

/-- Both queues have the same room. -/
theorem runningCount_plain (q : Queue) : q.plain.runningCount = q.runningCount := by
  simp [PlainQueue.runningCount, runningCount, plain]

theorem hasRoom_plain (q : Queue) :
    q.plain.runningCount < q.plain.limits.maxRequests.toNat ↔ q.hasRoom = true := by
  rw [runningCount_plain]
  exact decide_eq_true_iff.symm

/-- Both queues know the same load of a host. -/
theorem hostCount_plain (q : Queue) (host : Host) :
    q.plain.hostCount host = q.running.countP (isLimited host) := by
  simp only [PlainQueue.hostCount, plain, List.countP_map]
  rfl

theorem load_plain (q : Queue) (host : Host) : q.plain.load host = q.load host := by
  simp only [PlainQueue.load, load, hostCount_plain]
  simp only [plain, List.countP_map]
  rfl

theorem snapshot_plain (q : Queue) : q.plain.snapshot = q.snapshot := by
  have hhosts : (q.plain.ready ++ q.plain.running).map (·.host) =
      (q.ready ++ q.running).map (·.host) := by
    simp [plain, Function.comp_def]
  simp only [PlainQueue.snapshot, snapshot, hosts, hhosts, load_plain]
  simp [plain]

/-- A queue shows the same without its counters. -/
theorem view_plain (q : Queue) : plainly.view q.plain = counted.view q := by
  have hqueued : q.plain.queuedCalls = q.queuedCalls := by
    simp [PlainQueue.queuedCalls, queuedCalls, plain, Function.comp_def]
  have hrunning : q.plain.running.map (·.call) = q.running.map (·.call) := by
    simp [plain, Function.comp_def]
  simp only [plainly, counted, PlainQueue.runningCalls, runningCalls, PlainQueue.allCalls, allCalls,
    hqueued, hrunning, runningCount_plain, snapshot_plain]
  simp [plain, queuedCount]

/-! ## arrival -/

theorem plain_enqueue (q : Queue) (t : Ticket) (host : Host) (duplex : Bool) :
    (q.enqueue t host duplex).plain = q.plain.enqueue t host duplex := by
  simp [plain, enqueue, PlainQueue.enqueue, Entry.member]

/-! ## promotion -/

/-- A waiting call may run exactly when its counter lets it. -/
theorem mayRun_plain {es : List Entry} {e : Entry} (hs : Sharing (q.running ++ es))
    (ht : q.Tallied) (he : e ∈ es) : q.plain.mayRun e.member = !q.isSaturated e := by
  cases hd : e.duplex with
  | true => simp [PlainQueue.mayRun, isSaturated, hd]
  | false =>
    have hload : (q.counters.get e.counter).running = q.running.countP (isLimited e.host) := by
      rw [ht, hs.countP_counter (fun _ => List.mem_append_left _) (List.mem_append_right _ he) hd]
    have hlimits : q.plain.limits = q.limits := rfl
    simp only [PlainQueue.mayRun, isSaturated, Entry.member_duplex, Entry.member_host, hd,
      hostCount_plain, hload, hlimits, Bool.false_or, Bool.not_false, Bool.true_and]
    rw [← decide_not, decide_eq_decide, Nat.not_le]

/-- A scan decides by the counters as it would by counting. -/
theorem plain_scan {es : List Entry} (hs : Sharing (q.running ++ es)) (ht : q.Tallied) :
    q.plain.scan (es.map (·.member)) =
      ((q.scan es).1.plain, (q.scan es).2.1.map (·.entry.member),
        (q.scan es).2.2.map (·.member)) := by
  induction q, es using scan.induct with
  | case1 q => rfl
  | case2 q e es hroom hsat ih =>
    have hmay := mayRun_plain hs ht List.mem_cons_self
    have hrest := ih (hs.mono fun f hf => by
      rcases List.mem_append.1 hf with hf | hf <;> simp [hf]) ht
    rw [List.map_cons, PlainQueue.scan, if_pos (q.hasRoom_plain.2 hroom), hmay, hsat,
      if_neg (by simp), hrest]
    simp only [scan, hroom, hsat, if_true, List.map_cons]
  | case3 q e es hroom hsat ih =>
    have hmay := mayRun_plain hs ht List.mem_cons_self
    have hrest := ih (by simpa using hs) (ht.letIn e)
    have hletIn : (q.letIn e).plain =
        { q.plain with running := q.plain.running ++ [e.member] } := by
      simp [plain, letIn]
    rw [List.map_cons, PlainQueue.scan, if_pos (q.hasRoom_plain.2 hroom), hmay,
      if_pos (by simpa using hsat), ← hletIn, hrest]
    simp [scan, hroom, hsat]
  | case4 q e es hroom =>
    rw [List.map_cons, PlainQueue.scan, if_neg (mt q.hasRoom_plain.1 hroom)]
    simp [scan, hroom]

/-- Both queues settle alike at the end of a pass, and find the same callback due. -/
theorem plain_settle (q : Queue) (admitted : List Ticket) :
    (if q.plain.runningCount = 0 ∧ q.plain.busy then
        ({ q.plain with busy := false }, admitted, q.plain.idle)
      else (q.plain, admitted, none)) = (q.settle.plain, admitted, q.dueIdle) := by
  rw [runningCount_plain]
  unfold settle dueIdle
  by_cases hcount : q.runningCount = 0
  · cases hbusy : q.busy <;> simp [plain, hcount, hbusy]
  · simp [hcount]

/-- A promotion pass admits the same calls, in the same order, and finds the same callback due. -/
theorem plain_promote (hs : Sharing q.holders) (ht : q.Tallied) :
    q.plain.promote =
      (q.promote.queue.plain, q.promote.admitted.map (·.entry.call), q.promote.idle) := by
  have hscan : q.plain.scan q.plain.ready = _ := plain_scan hs ht
  have hempty : ((q.scan q.ready).2.1.map (·.entry.member)).isEmpty =
      (q.scan q.ready).2.1.isEmpty := List.isEmpty_map
  have hcalls : ((q.scan q.ready).2.1.map (·.entry.member)).map (·.call) =
      (q.scan q.ready).2.1.map (·.entry.call) := List.map_map
  simp only [PlainQueue.promote, hscan, hempty, hcalls]
  exact plain_settle
    { (q.scan q.ready).1 with
      ready := (q.scan q.ready).2.2
      busy := (q.scan q.ready).1.busy || !(q.scan q.ready).2.1.isEmpty } _

/-! ## departure -/

/-- The same calls can depart, and leave the same queue. -/
theorem plain_finish? (q : Queue) (t : Ticket) :
    q.plain.finish? t = (q.finish? t).map (·.queue.plain) := by
  have hmem : t ∈ q.plain.running.map (·.call) ↔ (q.running.find? (·.call == t)).isSome := by
    simp [plain]
  have herase : q.plain.running.eraseP (·.call == t) =
      (q.running.eraseP (·.call == t)).map (·.member) := List.eraseP_map
  unfold PlainQueue.finish? finish?
  simp only [hmem, herase]
  cases q.running.find? (·.call == t) <;> rfl

theorem plain_finishSync? (q : Queue) (t : Ticket) :
    q.plain.finishSync? t = (q.finishSync? t).map (·.plain) := by
  unfold PlainQueue.finishSync? finishSync?
  by_cases ht : t ∈ q.sync <;> simp [plain, ht]

/-! ## settings -/

/-- Both queues refuse the same limits. -/
theorem plain_setLimit (q : Queue) (limit : Limit) (n : UInt64) :
    q.plain.setLimit limit n = (q.setLimit limit n).map (·.plain) := by
  unfold PlainQueue.setLimit setLimit Limits.check
  split <;> rfl

/-! ## histories -/

/-- Every operation has the same answer on both queues, and leaves the same queue. -/
theorem plain_step {s : Ticketed Queue} (hs : Sharing s.queue.holders) (ht : s.queue.Tallied)
    (op : Operation) :
    plainly.step ⟨s.queue.plain, s.next⟩ op =
      (⟨(counted.step s op).1.queue.plain, (counted.step s op).1.next⟩, (counted.step s op).2) := by
  cases op with
  | enqueue host duplex =>
    simp only [Interface.step, counted, plainly, plain_enqueue]
  | enqueueSync host => rfl
  | promote =>
    simp only [Interface.step, counted, plainly, plain_promote hs ht]
  | finish t =>
    simp only [Interface.step, counted, plainly, plain_finish?]
    cases s.queue.finish? t <;> rfl
  | finishSync t =>
    simp only [Interface.step, counted, plainly, plain_finishSync?]
    cases s.queue.finishSync? t <;> rfl
  | setLimit limit n =>
    simp only [Interface.step, counted, plainly, plain_setLimit]
    cases s.queue.setLimit limit n <;> rfl
  | setIdle idle => rfl
  | abortedArrival message => rfl

/-- **Refinement.** No history tells the queue with counters from the queue that counts. -/
theorem play_counted_eq_play_plainly (limits : Limits) (ops : List Operation) :
    counted.play ⟨{ limits }, 0⟩ ops = plainly.play ⟨{ limits }, 0⟩ ops := by
  apply Interface.play_eq_of_simulation (R := fun s t => Sound s ∧ t = ⟨s.queue.plain, s.next⟩)
  · rintro s _ op ⟨hs, rfl⟩
    rw [plain_step hs.coherent.sharing hs.coherent.tally]
    exact ⟨⟨hs.step op, rfl⟩, rfl⟩
  · rintro s _ ⟨-, rfl⟩
    exact (view_plain s.queue).symm
  · exact ⟨Sound.empty limits, rfl⟩

end Queue

end CallAdmission
