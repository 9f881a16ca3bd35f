import CallAdmission.Proofs.Queue.History
import CallAdmission.Proofs.Queue.Scan
import Mathlib.Data.List.Nodup

/-!
# CallAdmission.Proofs.Queue.Consistency

What is true of an admission queue after every history, whatever its limits: each call stands in one
of the three lists, once, and the counters are shared and show what they should.

* `allCalls_enqueue`, `allCalls_promote`, `allCalls_finish` — what an operation does to the calls of
  a queue;
* `Sound.step` — every operation, one that fails included, keeps a queue sound;
* `consistent_of_history` — a queue is consistent after every history.
-/

namespace CallAdmission.Queue

variable {q : Queue} {t : Ticket}

/-! ## the calls of a queue -/

/-- One more call waits. -/
theorem allCalls_enqueue (q : Queue) (t : Ticket) (host : Host) (duplex : Bool) :
    (q.enqueue t host duplex).allCalls.Perm (t :: q.allCalls) := by
  simp only [allCalls, queuedCalls, enqueue, push, List.map_append, List.map_singleton,
    List.append_assoc, List.singleton_append]
  exact List.perm_middle

/-- One more sync call runs. -/
theorem allCalls_enqueueSync (q : Queue) (t : Ticket) :
    (q.enqueueSync t).allCalls.Perm (t :: q.allCalls) := by
  have hsplit : (q.enqueueSync t).allCalls = q.allCalls ++ [t] := by
    simp [allCalls, queuedCalls, enqueueSync]
  rw [hsplit]
  exact List.perm_append_singleton t q.allCalls

/-- A pass has the same calls as before. -/
theorem allCalls_promote (q : Queue) : q.promote.queue.allCalls.Perm q.allCalls := by
  have hmoved := (scan_perm q q.ready).map (·.call)
  rw [List.perm_iff_count] at hmoved ⊢
  intro t
  have hcount := hmoved t
  simp only [allCalls, queuedCalls, promote_ready, promote_running, promote_sync, scan_running,
    List.map_append, List.count_append] at hcount ⊢
  omega

/-- A call that departs was there, and all others stay. -/
theorem allCalls_finish {d : Departure} (hd : q.finish? t = some d) :
    q.allCalls.Perm (t :: d.queue.allCalls) := by
  obtain ⟨rfl, -, front, back, hrun, hqueue⟩ := finish?_eq_some hd
  rw [List.perm_iff_count]
  intro u
  simp only [allCalls, queuedCalls, hqueue, hrun, List.map_append, List.map_cons,
    List.count_append, List.count_cons]
  omega

/-- A sync call that departs was there, and all others stay. -/
theorem allCalls_finishSync {q' : Queue} (hd : q.finishSync? t = some q') :
    q.allCalls.Perm (t :: q'.allCalls) := by
  obtain ⟨ht, rfl⟩ := finishSync?_eq_some hd
  exact ((List.perm_cons_erase ht).append_left _).trans List.perm_middle

/-! ## soundness -/

/-- The queue is coherent, no call stands in it twice, and every call came before the next one. -/
structure Sound (s : Ticketed Queue) : Prop where
  coherent : s.queue.Coherent s.next
  nodup : s.queue.allCalls.Nodup
  below : ∀ t ∈ s.queue.allCalls, t < s.next

namespace Sound

variable {s : Ticketed Queue}

/-- A queue without calls is sound. -/
theorem empty (limits : Limits) : Sound ⟨{ limits }, 0⟩ :=
  ⟨coherent_empty limits 0, List.nodup_nil, nofun⟩

/-- The next call comes in. -/
theorem arrive (h : Sound s) {q : Queue} (hq : q.Coherent (s.next + 1))
    (hcalls : q.allCalls.Perm (s.next :: s.queue.allCalls)) : Sound ⟨q, s.next + 1⟩ := by
  refine ⟨hq, ?_, fun t ht => ?_⟩
  · rw [hcalls.nodup_iff, List.nodup_cons]
    exact ⟨fun hmem => Nat.lt_irrefl _ (h.below _ hmem), h.nodup⟩
  · rcases List.mem_cons.1 (hcalls.mem_iff.1 ht) with rfl | ht
    · exact Nat.lt_succ_self _
    · exact Nat.lt_succ_of_lt (h.below t ht)

/-- A call goes. -/
theorem depart (h : Sound s) {q : Queue} (hq : q.Coherent s.next)
    (hcalls : s.queue.allCalls.Perm (t :: q.allCalls)) : Sound { s with queue := q } :=
  ⟨hq, (List.nodup_cons.1 (hcalls.nodup_iff.1 h.nodup)).2,
    fun _ hu => h.below _ (hcalls.mem_iff.2 (List.mem_cons_of_mem t hu))⟩

/-- Every operation keeps a queue sound. -/
theorem step (h : Sound s) (op : Operation) : Sound (counted.step s op).1 := by
  cases op with
  | enqueue host duplex =>
    exact h.arrive (h.coherent.enqueue host duplex) (allCalls_enqueue _ _ host duplex)
  | enqueueSync host =>
    have hq := h.coherent.enqueueSync s.next
    exact h.arrive (hq.mono (Nat.le_succ _)) (allCalls_enqueueSync _ _)
  | promote =>
    have hcalls := allCalls_promote s.queue
    exact ⟨h.coherent.promote, hcalls.nodup_iff.2 h.nodup,
      fun t ht => h.below t (hcalls.mem_iff.1 ht)⟩
  | finish t =>
    simp only [Interface.step, counted]
    cases hd : s.queue.finish? t with
    | none => exact h
    | some d => exact h.depart (h.coherent.finish hd) (allCalls_finish hd)
  | finishSync t =>
    simp only [Interface.step, counted]
    cases hd : s.queue.finishSync? t with
    | none => exact h
    | some q =>
      obtain ⟨-, rfl⟩ := finishSync?_eq_some hd
      exact h.depart (h.coherent.frame rfl rfl rfl) (allCalls_finishSync hd)
  | setLimit limit n =>
    simp only [Interface.step, counted]
    cases hd : s.queue.setLimit limit n with
    | error e => exact h
    | ok q =>
      obtain ⟨-, rfl⟩ := setLimit_eq_ok_iff.1 hd
      exact ⟨h.coherent.frame rfl rfl rfl, h.nodup, h.below⟩
  | setIdle idle => exact ⟨h.coherent.frame rfl rfl rfl, h.nodup, h.below⟩
  | abortedArrival message => exact h

/-- A queue is sound after every history. -/
theorem run (limits : Limits) (ops : List Operation) :
    Sound (counted.run ⟨{ limits }, 0⟩ ops) :=
  Interface.run_induction (fun _ op h => h.step op) (empty limits) ops

end Sound

/-! ## consistency -/

/-- What is true of a queue at all times. -/
structure Consistent (q : Queue) : Prop where
  /-- each call stands in one of the three lists, once -/
  nodup : q.allCalls.Nodup
  /-- two calls that are not duplex hold the same counter exactly when they go to one host -/
  counter_eq_iff : ∀ e ∈ q.holders, ∀ f ∈ q.holders, e.duplex = false → f.duplex = false →
    (e.counter = f.counter ↔ e.host = f.host)
  /-- no other call holds the counter of a duplex call -/
  eq_of_counter_eq : ∀ e ∈ q.holders, ∀ f ∈ q.holders, e.duplex = true →
    f.counter = e.counter → f = e
  /-- a counter shows how many of the running calls hold it -/
  tally : ∀ e ∈ q.holders,
    (q.counters.get e.counter).running = q.running.countP (·.counter == e.counter)
  /-- that is the number of the host's running calls that are not duplex -/
  load : ∀ e ∈ q.holders, e.duplex = false →
    (q.counters.get e.counter).running = q.running.countP (isLimited e.host)
  /-- and one or none for a duplex call -/
  load_duplex : ∀ e ∈ q.holders, e.duplex = true →
    (q.counters.get e.counter).running = if e ∈ q.running then 1 else 0

/-- A sound queue is consistent. -/
theorem Sound.consistent {s : Ticketed Queue} (h : Sound s) : s.queue.Consistent where
  nodup := h.nodup
  counter_eq_iff e he f hf hde hdf := by
    rw [h.coherent.sharing e he f hf]
    constructor
    · rintro (rfl | hr)
      · rfl
      · exact hr.2.2
    · exact fun hhost => .inr ⟨hde, hdf, hhost⟩
  eq_of_counter_eq e he f hf hde hc := by
    rcases (h.coherent.sharing f hf e he).1 hc with rfl | hr
    · rfl
    · exact absurd (hde.symm.trans hr.2.1) nofun
  tally e _ := h.coherent.tally e.counter
  load e he hd := h.coherent.load_eq he hd
  load_duplex e he hd := by
    have hnodup : s.queue.running.Nodup := by
      have hcalls := h.nodup
      simp only [allCalls, List.append_assoc, List.nodup_append] at hcalls
      exact List.Nodup.of_map _ hcalls.2.1.1
    rw [h.coherent.load_duplex he hd, hnodup.count]

/-- **Representation invariant.** A queue is consistent after every history, whatever its limits,
and a counter that is decremented then stands above zero. -/
theorem consistent_of_history (limits : Limits) (ops : List Operation) :
    let q := (counted.run ⟨{ limits }, 0⟩ ops).queue
    q.Consistent ∧ ∀ t d, q.finish? t = some d → 0 < d.counter.running :=
  have h := Sound.run limits ops
  ⟨h.consistent, fun _ _ hd => Nat.pos_of_ne_zero (h.coherent.counter_ne_zero hd)⟩

end CallAdmission.Queue
