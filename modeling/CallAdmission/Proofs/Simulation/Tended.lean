import CallAdmission.Proofs.Dispatcher.Ceiling
import CallAdmission.Proofs.Queue.Consistency
import CallAdmission.Proofs.Simulation.Progress

/-!
# CallAdmission.Proofs.Simulation.Tended

The dispatcher of a simulation between two turns. It is `Tended`: all that is in it comes from the
plan of the simulation, nobody has canceled a call, and every call that has ended was reported on as
planned. The four things that happen to it keep it so.

* `Tended.submit`, `Tended.suspend`, `Tended.complete`, `Tended.passed` — what happens to the
  dispatcher of a simulation;
* `Tended.allCalls_eq_nil`, `Tended.isSome_idle` — when no call is left;
* `Tended.outcome?_eq` — how a call has ended.
-/

namespace CallAdmission

namespace Dispatcher

open Simulation (Job)

variable {jobs : List Job} {limits : Limits} {d : Dispatcher} {t : Ticket} {j : Job} {run : Run}

/-- The dispatcher keeps to the plan of a simulation. -/
structure Tended (jobs : List Job) (limits : Limits) (d : Dispatcher) : Prop where
  still : d.Still
  sound : Queue.Sound ⟨d.ledger.queue, d.next⟩
  within : d.ledger.queue.Within
  limits_eq : d.ledger.queue.limits = limits
  sync : d.ledger.queue.sync = []
  idle : d.ledger.queue.idle = some 0
  busy : 0 < d.ledger.queue.runningCount → d.ledger.queue.busy = true
  /-- the calls in the queue are planned ones -/
  planned : ∀ e ∈ d.ledger.queue.holders, ∃ j, jobs[e.call]? = some j ∧
    j.host = e.host ∧ j.duplex = e.duplex
  /-- tokens come to their end as planned -/
  kept : ∃ ends ms, (Moment.custody ⟨d, .outside⟩).Kept ends ms ∧
    ∀ p ∈ ends, ∃ j, jobs[p.1]? = some j ∧ p.2 = .reported j.result
  /-- every call is on record, and none is canceled -/
  recorded : ∀ t < d.next, (d.ledger.call? t).map (·.canceled) = some false

namespace Tended

/-! ## what is known of the calls -/

theorem isCanceled_eq_false (h : Tended jobs limits d) (ht : t < d.next) :
    d.ledger.isCanceled t = false := by
  obtain ⟨c, hc, hcanceled⟩ := Option.map_eq_some_iff.1 (h.recorded t ht)
  rw [Ledger.isCanceled, hc]
  exact hcanceled

/-- The runs are those of the calls that run. -/
theorem runs_perm (h : Tended jobs limits d) :
    (d.runs.map (·.call)).Perm (d.ledger.queue.running.map (·.call)) := by
  obtain ⟨ends, ms, hkept, -⟩ := h.kept
  have htokens := Multiset.coe_eq_coe.1 hkept.tokens
  simpa [Moment.custody, Phase.tokens, tokens, h.still.held, h.still.stack] using htokens

/-- A call that runs has a run. -/
theorem exists_find?_runs (h : Tended jobs limits d)
    (ht : t ∈ d.ledger.queue.running.map (·.call)) :
    ∃ run, d.runs.find? (·.call == t) = some run := by
  obtain ⟨run, hrun, hcall⟩ := List.mem_map.1 (h.runs_perm.mem_iff.2 ht)
  rw [← Option.isSome_iff_exists, List.find?_isSome]
  exact ⟨run, hrun, by simpa using hcall⟩

/-- A call that runs gives its slot back. -/
theorem exists_release (ht : t ∈ d.ledger.queue.running.map (·.call)) :
    ∃ departure notices, d.ledger.queue.finish? t = some departure ∧
      d.ledger.release t = (some { d.ledger with queue := departure.queue }, notices) := by
  cases hq : d.ledger.queue.finish? t with
  | none => exact absurd ht (not_mem_running_of_finish? hq)
  | some departure => exact ⟨departure, _, rfl, by rw [Ledger.release, hq]⟩

theorem running_nodup (h : Tended jobs limits d) :
    (d.ledger.queue.running.map (·.call)).Nodup := by
  have hcalls := h.sound.nodup
  simp only [Queue.allCalls, List.append_assoc, List.nodup_append] at hcalls
  exact hcalls.2.1.1

/-- A call that runs does not wait. -/
theorem not_mem_queuedCalls (h : Tended jobs limits d)
    (ht : t ∈ d.ledger.queue.running.map (·.call)) : t ∉ d.ledger.queue.queuedCalls := by
  have hcalls := h.sound.nodup
  simp only [Queue.allCalls, List.append_assoc, List.nodup_append] at hcalls
  exact fun hwaits => hcalls.2.2 t hwaits t (List.mem_append_left _ ht) rfl

theorem runningCount_eq (h : Tended jobs limits d) :
    d.ledger.queue.runningCount = d.ledger.queue.running.length := by
  rw [Queue.runningCount, h.sync, List.length_nil, Nat.add_zero]

theorem lt_of_mem_running (h : Tended jobs limits d)
    (ht : t ∈ d.ledger.queue.running.map (·.call)) : t < d.next := by
  refine h.sound.below t ?_
  simp only [Queue.allCalls, List.mem_append]
  exact .inl (.inr ht)

/-- There are no more calls than were submitted. -/
theorem length_allCalls_le (h : Tended jobs limits d) :
    d.ledger.queue.allCalls.length ≤ d.next := by
  have hrange := h.sound.nodup.subperm fun t ht => List.mem_range.2 (h.sound.below t ht)
  rw [← List.length_range (n := d.next)]
  exact hrange.length_le

/-! ## what happens to the dispatcher -/

/-- A planned call is submitted. -/
theorem submit (h : Tended jobs limits d) (hj : jobs[d.next]? = some j) :
    Tended jobs limits { d with
      ledger := (d.ledger.enqueue d.next ⟨j.host, j.duplex⟩).1
      next := d.next + 1 } where
  still := ⟨h.still.stack, h.still.held, h.still.promoting, h.still.pending⟩
  sound := h.sound.step (.enqueue j.host j.duplex)
  within := ⟨h.within.total, h.within.perHost⟩
  limits_eq := h.limits_eq
  sync := h.sync
  idle := h.idle
  busy := h.busy
  planned e he := by
    have hholders := Queue.holders_enqueue d.ledger.queue d.next j.host j.duplex
    rcases List.mem_append.1 (hholders ▸ he) with he | he
    · exact h.planned e he
    · obtain rfl := List.mem_singleton.1 he
      exact ⟨j, hj, rfl, rfl⟩
  kept := by
    obtain ⟨ends, ms, hkept, hends⟩ := h.kept
    exact ⟨ends, _, hkept.enqueue ⟨j.host, j.duplex⟩, hends⟩
  recorded t ht := by
    rw [Ledger.call?_enqueue]
    split
    · rfl
    · next hne => exact h.recorded t (Nat.lt_of_le_of_ne (Nat.le_of_lt_succ ht) hne)

/-- The task of a running call is suspended. -/
theorem suspend (h : Tended jobs limits d) (hrun : d.runs.find? (·.call == t) = some run) :
    Tended jobs limits { d with runs := d.runs.eraseP (·.call == t) ++ [⟨t, true⟩] } where
  still := ⟨h.still.stack, h.still.held, h.still.promoting, h.still.pending⟩
  sound := h.sound
  within := h.within
  limits_eq := h.limits_eq
  sync := h.sync
  idle := h.idle
  busy := h.busy
  planned := h.planned
  kept := by
    obtain ⟨ends, ms, hkept, hends⟩ := h.kept
    have hcall : run.call = t := by simpa using List.find?_some hrun
    have hcustody : Moment.custody ⟨{ d with
          runs := d.runs.eraseP (·.call == t) ++ [⟨t, true⟩] }, .outside⟩ =
        Moment.custody ⟨d, .outside⟩ := by
      have hback : Moment.custody ⟨d, .outside⟩ = _ := custody_runs d (perm_cons_eraseP hrun)
      rw [hcall] at hback
      rw [custody_runs d (List.perm_append_singleton _ _)]
      exact hback.symm
    exact ⟨ends, ms, hcustody ▸ hkept, hends⟩
  recorded := h.recorded

/-- The task of a running call has ended as planned, and the call gives its slot back. -/
theorem complete {departure : Queue.Departure} (h : Tended jobs limits d)
    (hrun : d.runs.find? (·.call == t) = some run) (hj : jobs[t]? = some j)
    (hq : d.ledger.queue.finish? t = some departure) :
    Tended jobs limits { d with
      runs := d.runs.eraseP (·.call == t)
      ledger := { d.ledger with queue := departure.queue }.updateCall t
        (·.setFinished (.ofResult j.result)) } := by
  obtain ⟨-, -, front, back, hrunning, hqueue⟩ := Queue.finish?_eq_some hq
  have hlimits : departure.queue.limits = d.ledger.queue.limits := by rw [hqueue]
  have hsync : departure.queue.sync = d.ledger.queue.sync := by rw [hqueue]
  have hsublist : departure.queue.running.Sublist d.ledger.queue.running := by
    rw [hqueue, hrunning]
    exact (List.sublist_cons_self _ _).append_left front
  refine ⟨⟨h.still.stack, h.still.held, h.still.promoting, h.still.pending⟩,
    h.sound.depart (h.sound.coherent.finish hq) (Queue.allCalls_finish hq), ?_, ?_, ?_, ?_, ?_,
    ?_, ?_, ?_⟩
  · refine h.within.mono ?_ hsublist (hsync ▸ List.Sublist.refl _)
    rw [Ledger.queue_updateCall, hlimits]
    exact ⟨UInt64.le_refl _, UInt64.le_refl _⟩
  · exact hlimits.trans h.limits_eq
  · exact hsync.trans h.sync
  · rw [Ledger.queue_updateCall, hqueue]
    exact h.idle
  · intro hcount
    have hle : departure.queue.runningCount ≤ d.ledger.queue.runningCount :=
      Nat.add_le_add hsublist.length_le (Nat.le_of_eq (congrArg List.length hsync))
    rw [Ledger.queue_updateCall, hqueue]
    exact h.busy (Nat.lt_of_lt_of_le hcount hle)
  · intro e he
    have hready : departure.queue.ready = d.ledger.queue.ready := by rw [hqueue]
    refine h.planned e ?_
    rcases List.mem_append.1 he with he | he
    · exact List.mem_append_left _ (hsublist.subset he)
    · exact List.mem_append_right _ (hready ▸ he)
  · obtain ⟨ends, ms, hkept, hends⟩ := h.kept
    have hcall : run.call = t := by simpa using List.find?_some hrun
    have hcustody : Moment.custody ⟨d, .outside⟩ = _ := custody_runs d (perm_cons_eraseP hrun)
    rw [hcall] at hcustody
    have hlast := Custody.Kept.finish (e := .reported j.result) (hcustody ▸ hkept) hq
    rw [Ending.record_reported] at hlast
    refine ⟨_, _, hlast, fun p hp => ?_⟩
    rcases List.mem_append.1 hp with hp | hp
    · exact hends p hp
    · obtain rfl := List.mem_singleton.1 hp
      exact ⟨j, hj, rfl⟩
  · intro u hu
    exact (d.ledger.canceled_finish _ t _ u).trans (h.recorded u hu)

/-- A pass. -/
theorem passed (h : Tended jobs limits d) : Tended jobs limits d.passed := by
  have hqueue : d.passed.ledger.queue = d.ledger.queue.promote.queue := d.ledger.queue_promote
  have hsound : Queue.Sound ⟨d.ledger.queue.promote.queue, d.next⟩ := h.sound.step .promote
  refine ⟨⟨h.still.stack, h.still.held, h.still.promoting, h.still.pending⟩, ?_, ?_, ?_, ?_, ?_,
    ?_, ?_, ?_, ?_⟩
  · rw [hqueue]
    exact hsound
  · rw [hqueue]
    exact h.sound.coherent.fills_promote.within h.within
  · rw [hqueue, Queue.promote_limits]
    exact h.limits_eq
  · rw [hqueue, Queue.promote_sync]
    exact h.sync
  · rw [hqueue, Queue.promote_queue, Queue.scan_frame]
    exact h.idle
  · rw [hqueue]
    exact Queue.busy_promote h.busy
  · intro e he
    rw [hqueue, Queue.mem_holders_promote] at he
    exact h.planned e he
  · obtain ⟨ends, ms, hkept, hends⟩ := h.kept
    have hcustody : Moment.custody ⟨d.passed, .outside⟩ =
        (Moment.custody ⟨d, .outside⟩).promote := by
      simp only [custody_eq, Dispatcher.passed, Custody.promote, List.map_append, List.map_map,
        ← Multiset.coe_add, Function.comp_def, List.map_id']
      congr 1
      abel
    exact ⟨ends, _, hcustody ▸ hkept.promote, hends⟩
  · intro u hu
    exact (d.ledger.canceled_promote u).trans (h.recorded u hu)

/-! ## what is left in the end -/

theorem served_passed (h : Tended jobs limits d) : d.passed.ledger.queue.Served := by
  have hqueue : d.passed.ledger.queue = d.ledger.queue.promote.queue := d.ledger.queue_promote
  rw [hqueue]
  exact h.sound.coherent.served_promote

/-- After a pass, no call is left if none runs. -/
theorem allCalls_eq_nil (h : Tended jobs limits d) (hserved : d.ledger.queue.Served)
    (hlimits : 1 ≤ limits.maxRequests ∧ 1 ≤ limits.maxPerHost)
    (hrunning : d.ledger.queue.running = []) : d.ledger.queue.allCalls = [] := by
  rw [← h.limits_eq] at hlimits
  have hcount : d.ledger.queue.runningCount = 0 := by
    rw [h.runningCount_eq, hrunning]
    rfl
  have hready := hserved.settled.ready_eq_nil hlimits.1 hlimits.2 hcount
  simp [Queue.allCalls, Queue.queuedCalls, hready, hrunning, h.sync]

/-- A pass that finds that nothing runs any more invokes the callback. -/
theorem isSome_idle (h : Tended jobs limits d) (hbusy : d.ledger.queue.busy = true)
    (hrunning : d.passed.ledger.queue.running = []) :
    d.ledger.promote.idle.isSome = true := by
  have hqueue : d.passed.ledger.queue = d.ledger.queue.promote.queue := d.ledger.queue_promote
  have hquiet := h.served_passed.quiet
  rw [h.passed.runningCount_eq, hrunning, hqueue] at hquiet
  have hidle : d.ledger.promote.idle = d.ledger.queue.promote.idle := rfl
  rw [hidle, Queue.promote_idle, hquiet rfl, hbusy, h.idle]
  rfl

/-- A call that is gone has ended as planned. -/
theorem outcome?_eq (h : Tended jobs limits d) (ht : t < d.next)
    (hleft : t ∉ d.ledger.queue.allCalls) (hj : jobs[t]? = some j) :
    (d.ledger.call? t).bind (·.outcome?) = some (.ofResult j.result) := by
  obtain ⟨ends, ms, hkept, hends⟩ := h.kept
  obtain ⟨call, hcall, -⟩ := Option.map_eq_some_iff.1 (h.recorded t ht)
  obtain ⟨s, hs⟩ := hkept.stage t
  have htruthful := Stands.truthful hs hcall
  obtain ⟨e, he, -, -, houtcome, -⟩ := htruthful.outcome (htruthful.not_mem_allCalls.1 hleft)
  have hmem : (t, e) ∈ ends := by
    have hlast : e ∈ endingsAt t ends := he ▸ List.mem_singleton_self e
    simpa [endingsAt] using hlast
  obtain ⟨j', hj', rfl⟩ := hends _ hmem
  obtain rfl := Option.some.inj (hj.symm.trans hj')
  rw [hcall, ← Ending.outcome_reported]
  exact houtcome

end Tended

end Dispatcher

end CallAdmission
