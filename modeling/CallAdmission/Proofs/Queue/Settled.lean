import CallAdmission.Proofs.Queue.Scan

/-!
# CallAdmission.Proofs.Queue.Settled

Queues that need no promotion pass. A queue is `Settled` when the limits let none of the waiting
calls run, and `Served` when moreover no idle callback is due. Both are stated by counting the
running calls; that they are what a pass leaves behind rests on the counters being right.

* `Coherent.settled_iff` — a queue is settled when a scan is blocked from its first call on;
* `Coherent.served_promote` — a pass leaves a queue served;
* `Coherent.served_iff_promote_eq` — a queue is served exactly when a pass changes nothing;
* `Settled.ready_eq_nil` — in a settled queue no call waits while nothing runs.
-/

namespace CallAdmission.Queue

variable {q : Queue} {next : Ticket}

/-! ## queues without a call that may run -/

/-- No slot is free, or every waiting call counts against the limit of a full host. -/
def Settled (q : Queue) : Prop :=
  q.limits.maxRequests.toNat ≤ q.runningCount ∨
    ∀ e ∈ q.ready, e.duplex = false ∧
      q.limits.maxPerHost.toNat ≤ q.running.countP (isLimited e.host)

/-- No call may run, and no idle callback is due. -/
structure Served (q : Queue) : Prop where
  settled : q.Settled
  quiet : q.runningCount = 0 → q.busy = false

/-- A queue without calls is served. -/
theorem served_empty (limits : Limits) : Served { limits } := ⟨.inr nofun, fun _ => rfl⟩

theorem hasRoom_eq_false_iff : q.hasRoom = false ↔ q.limits.maxRequests.toNat ≤ q.runningCount := by
  rw [hasRoom, decide_eq_false_iff_not, Nat.not_lt]

/-- A call is passed over exactly when it counts against the limit of a full host. -/
theorem Coherent.isSaturated_iff {e : Entry} (h : q.Coherent next) (he : e ∈ q.holders) :
    q.isSaturated e = true ↔
      e.duplex = false ∧ q.limits.maxPerHost.toNat ≤ q.running.countP (isLimited e.host) := by
  cases hd : e.duplex with
  | true => simp [isSaturated, hd]
  | false => simp [isSaturated, hd, h.load_eq he hd]

/-- A queue is settled exactly when it has no room, or would pass over every call. -/
theorem Coherent.settled_iff (h : q.Coherent next) :
    q.Settled ↔ q.hasRoom = false ∨ ∀ e ∈ q.ready, q.isSaturated e = true := by
  rw [Settled, hasRoom_eq_false_iff]
  apply or_congr_right
  apply forall₂_congr
  intro e he
  rw [h.isSaturated_iff (List.mem_append_right _ he)]

/-- In a settled queue no call waits while a slot is free and no admitted call runs. -/
theorem Settled.ready_eq_nil_of_room (h : q.Settled)
    (hroom : q.runningCount < q.limits.maxRequests.toNat) (hhost : 1 ≤ q.limits.maxPerHost)
    (hrunning : q.running = []) : q.ready = [] := by
  rw [UInt64.le_iff_toNat_le] at hhost
  rcases h with hfull | hblocked
  · exact absurd hroom (Nat.not_lt.2 hfull)
  · rw [List.eq_nil_iff_forall_not_mem]
    intro e he
    have hload := (hblocked e he).2
    rw [hrunning, List.countP_nil] at hload
    exact absurd (Nat.le_trans hhost hload) (by decide)

/-- In a settled queue no call waits while nothing runs. -/
theorem Settled.ready_eq_nil (h : q.Settled) (htotal : 1 ≤ q.limits.maxRequests)
    (hhost : 1 ≤ q.limits.maxPerHost) (hidle : q.runningCount = 0) : q.ready = [] := by
  rw [UInt64.le_iff_toNat_le] at htotal
  have hrunning : q.running = [] := by
    rw [runningCount] at hidle
    exact List.eq_nil_of_length_eq_zero (by omega)
  refine h.ready_eq_nil_of_room ?_ hhost hrunning
  rw [hidle]
  exact htotal

/-! ## what a pass leaves behind -/

/-- A pass leaves a queue settled. -/
theorem Coherent.settled_promote (h : q.Coherent next) : q.promote.queue.Settled := by
  rw [h.promote.settled_iff]
  rw [promote_queue]
  exact scan_ends q q.ready

/-- At the end of a pass no idle callback is due any more. -/
theorem busy_settle (hidle : q.settle.runningCount = 0) : q.settle.busy = false := by
  unfold settle at hidle ⊢
  split at hidle
  · next hcount => rw [if_pos hcount]
  · next hcount => exact absurd hidle hcount

/-- Where no idle callback is due, there is nothing to settle. -/
theorem settle_of_quiet (h : q.runningCount = 0 → q.busy = false) :
    q.settle = q ∧ q.dueIdle = none := by
  unfold settle dueIdle
  by_cases hcount : q.runningCount = 0
  · rw [if_pos hcount, if_neg (by simp [h hcount]), ← h hcount]
    exact ⟨rfl, rfl⟩
  · rw [if_neg hcount, if_neg (fun hdue => hcount hdue.1)]
    exact ⟨rfl, rfl⟩

/-- A pass leaves a queue served. -/
theorem Coherent.served_promote (h : q.Coherent next) : q.promote.queue.Served :=
  ⟨h.settled_promote, busy_settle⟩

/-- A pass over a served queue changes nothing, admits no call and finds no callback due. -/
theorem Coherent.promote_of_served (h : q.Coherent next) (hs : q.Served) :
    q.promote = ⟨q, [], none⟩ := by
  have hscan : q.scan q.ready = (q, [], q.ready) := scan_of_blocked (h.settled_iff.1 hs.settled)
  have hpass : q.promote = ⟨q.settle, [], q.dueIdle⟩ := by simp [Queue.promote, hscan]
  obtain ⟨hsettle, hdue⟩ := settle_of_quiet hs.quiet
  rw [hpass, hsettle, hdue]

/-- A queue is served exactly when a pass changes nothing. -/
theorem Coherent.served_iff_promote_eq (h : q.Coherent next) :
    q.Served ↔ q.promote.queue = q := by
  constructor
  · intro hs
    rw [h.promote_of_served hs]
  · intro heq
    rw [← heq]
    exact h.served_promote

/-! ## changes without a pass -/

/-- A sync call that takes a slot leaves the waiting calls where they are. -/
theorem Served.enqueueSync (h : q.Served) (t : Ticket) : (q.enqueueSync t).Served where
  settled := h.settled.imp_left fun hfull =>
    Nat.le_trans hfull (Nat.add_le_add_left (by simp [Queue.enqueueSync]) _)
  quiet hidle := by simp [runningCount, Queue.enqueueSync] at hidle

theorem Served.setIdle (h : q.Served) (idle : Option Callback) : (q.setIdle idle).Served :=
  ⟨h.settled, h.quiet⟩

end CallAdmission.Queue
