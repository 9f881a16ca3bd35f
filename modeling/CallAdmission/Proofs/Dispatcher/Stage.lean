import CallAdmission.Proofs.Dispatcher.Account

/-!
# CallAdmission.Proofs.Dispatcher.Stage

How far a call has come. Its place in the queue, what is recorded of it, the marks on its way and
the end of its token are kept apart in the dispatcher and changed at different times. A `Stage` says
what all of them are, and every step takes a call from stage to stage.

* `Stage` — the stages of a call;
* `Stands` — the call stands at a stage, whichever way one looks at it;
* `stands_arrive`, `stands_depart`, `Stands.promote` — how a call comes to its next stage.
-/

namespace CallAdmission

/-- The message of a failure. -/
def Outcome.message? : Outcome → Option String
  | .failed message => some message
  | .succeeded | .canceled => none

namespace Dispatcher

/-! ## the way of one call -/

/-- The call that a mark is about. -/
def Mark.call? : Mark → Option Ticket
  | .waits t | .runs t | .ends t | .misses t => some t
  | .passes | .invokes _ => none

/-- The marks of one call, in order. -/
def way (t : Ticket) (ms : List Mark) : List Mark := ms.filter (·.call? = some t)

/-- How the tokens of one call came to their end, in order. -/
def endingsAt (t : Ticket) (ends : List (Ticket × Ending)) : List Ending :=
  (ends.filter (·.1 = t)).map (·.2)

section Way

variable {t u : Ticket} {ms ms' : List Mark} {ends ends' : List (Ticket × Ending)}

@[simp] theorem way_append : way t (ms ++ ms') = way t ms ++ way t ms' := List.filter_append ..

theorem way_self {m : Mark} (hm : m.call? = some t) : way t [m] = [m] := by
  simp [way, hm]

theorem way_of_ne {m : Mark} (hm : m.call? = some u) (ht : t ≠ u) : way t [m] = [] := by
  simp [way, hm, Ne.symm ht]

@[simp] theorem endingsAt_append :
    endingsAt t (ends ++ ends') = endingsAt t ends ++ endingsAt t ends' := by
  simp [endingsAt]

theorem endingsAt_singleton (t : Ticket) (p : Ticket × Ending) :
    endingsAt t [p] = if p.1 = t then [p.2] else [] := by
  by_cases h : p.1 = t <;> simp [endingsAt, h]

theorem mem_endingsAt {e : Ending} : e ∈ endingsAt t ends ↔ (t, e) ∈ ends := by
  simp [endingsAt]

/-- The marks of a promotion on the way of one call. -/
theorem way_promotionMarks (p : Ledger.Promotion) :
    way t (.passes :: promotionMarks p) = List.replicate (p.admitted.count t) (.runs t) := by
  have hinvokes : way t (p.idle.toList.map .invokes) = [] := by
    cases p.idle <;> rfl
  have hruns : way t (p.admitted.map .runs) = List.replicate (p.admitted.count t) (.runs t) := by
    induction p.admitted with
    | nil => rfl
    | cons u ts ih =>
      by_cases hu : u = t
      · subst hu
        simpa [way, Mark.call?, List.replicate_succ] using ih
      · simpa [way, Mark.call?, hu] using ih
  change way t (promotionMarks p) = _
  rw [promotionMarks, way_append, hinvokes, List.append_nil, hruns]

end Way

/-! ## stages -/

/-- How far a call has come. -/
inductive Stage where
  /-- there is no such call yet -/
  | absent
  | waiting
  | admitted
  | sync
  /-- an admitted call has ended -/
  | ended (e : Ending)
  /-- a sync call has ended -/
  | syncEnded (e : Ending)

namespace Stage

/-- The marks on the way to the stage. -/
def way (t : Ticket) : Stage → List Mark
  | .absent => []
  | .waiting => [.waits t]
  | .admitted => [.waits t, .runs t]
  | .sync => [.runs t]
  | .ended _ => [.waits t, .runs t, .ends t]
  | .syncEnded _ => [.runs t, .ends t]

/-- How the call's token came to its end. -/
def endings : Stage → List Ending
  | .ended e | .syncEnded e => [e]
  | .absent | .waiting | .admitted | .sync => []

/-- How often the call stands among those that wait, those that were admitted, and the sync calls
that run. -/
def counts : Stage → Nat × Nat × Nat
  | .waiting => (1, 0, 0)
  | .admitted => (0, 1, 0)
  | .sync => (0, 0, 1)
  | .absent | .ended _ | .syncEnded _ => (0, 0, 0)

/-- The status on record, if there is such a call. -/
def status? : Stage → Option Status
  | .absent => none
  | .waiting => some .queued
  | .admitted | .sync => some .running
  | .ended e | .syncEnded e => some e.outcome.status

/-- The failure on record. -/
def failure? : Stage → Option String
  | .ended e | .syncEnded e => e.outcome.message?
  | .absent | .waiting | .admitted | .sync => none

end Stage

theorem Ending.status_record (e : Ending) (call : Call) :
    (e.record call).status = e.outcome.status := by
  cases e <;> rfl

/-- A call that has not failed before has failed exactly if its token came to such an end. -/
theorem Ending.error_record (e : Ending) {call : Call} (h : call.error = none) :
    (e.record call).error = e.outcome.message? := by
  cases e with
  | reported r =>
    simp only [record, Call.setFinished, outcome_reported, h]
    cases Outcome.ofResult r <;> rfl
  | abandoned =>
    simp only [record, Call.setFinished, outcome, h]
    rfl
  | dropped => exact h

/-! ## places in the queue -/

/-- How often a call stands among those that wait, those that were admitted, and the sync calls. -/
def counts (q : Queue) (t : Ticket) : Nat × Nat × Nat :=
  (q.queuedCalls.count t, (q.running.map (·.call)).count t, q.sync.count t)

section Counts

variable {q q' : Queue} {t u : Ticket}

theorem counts_enqueue (q : Queue) (u : Ticket) (host : Host) (duplex : Bool) :
    (∀ t ≠ u, counts (q.enqueue u host duplex) t = counts q t) ∧
      counts (q.enqueue u host duplex) u = ((counts q u).1 + 1, (counts q u).2) := by
  refine ⟨fun t ht => ?_, ?_⟩
  · simp [counts, Queue.enqueue, Queue.queuedCalls, Ne.symm ht]
  · simp [counts, Queue.enqueue, Queue.queuedCalls]

theorem counts_enqueueSync (q : Queue) (u : Ticket) :
    (∀ t ≠ u, counts (q.enqueueSync u) t = counts q t) ∧
      counts (q.enqueueSync u) u =
        ((counts q u).1, (counts q u).2.1, (counts q u).2.2 + 1) := by
  refine ⟨fun t ht => ?_, ?_⟩
  · simp [counts, Queue.enqueueSync, Queue.queuedCalls, Ne.symm ht]
  · simp [counts, Queue.enqueueSync, Queue.queuedCalls]

theorem counts_finish {departure : Queue.Departure} (hq : q.finish? u = some departure) :
    (∀ t ≠ u, counts departure.queue t = counts q t) ∧
      counts q u = ((counts departure.queue u).1, (counts departure.queue u).2.1 + 1,
        (counts departure.queue u).2.2) := by
  obtain ⟨rfl, -, front, back, hrun, hqueue⟩ := Queue.finish?_eq_some hq
  refine ⟨fun t ht => ?_, ?_⟩
  · simp [counts, hqueue, hrun, Queue.queuedCalls, Ne.symm ht]
  · simp [counts, hqueue, hrun, Queue.queuedCalls, Nat.add_assoc]

theorem counts_finishSync (hq : q.finishSync? u = some q') :
    (∀ t ≠ u, counts q' t = counts q t) ∧
      counts q u = ((counts q' u).1, (counts q' u).2.1, (counts q' u).2.2 + 1) := by
  obtain ⟨hmem, rfl⟩ := Queue.finishSync?_eq_some hq
  refine ⟨fun t ht => ?_, ?_⟩
  · simp [counts, Queue.queuedCalls, List.count_erase_of_ne ht]
  · have hpos : 0 < q.sync.count u := List.count_pos_iff.2 hmem
    have hsync : q.sync.count u - 1 + 1 = q.sync.count u := Nat.sub_add_cancel hpos
    simp [counts, Queue.queuedCalls, hsync]

theorem not_mem_running_of_finish? (hq : q.finish? u = none) :
    u ∉ q.running.map (·.call) := by
  intro hmem
  obtain ⟨e, he, hcall⟩ := List.mem_map.1 hmem
  cases hfind : q.running.find? (·.call == u) with
  | none => exact List.find?_eq_none.1 hfind e he (by simpa using hcall)
  | some f =>
    rw [Queue.finish?, hfind] at hq
    cases hq

theorem not_mem_sync_of_finishSync? (hq : q.finishSync? u = none) : u ∉ q.sync := by
  unfold Queue.finishSync? at hq
  split at hq
  · cases hq
  · next hmem => simpa using hmem

/-- Calls that a pass admits go from those that wait to those that were admitted. -/
theorem counts_promote (q : Queue) (t : Ticket) :
    let admitted := (q.promote.admitted.map (·.entry.call)).count t
    (counts q t).1 = admitted + (counts q.promote.queue t).1 ∧
      (counts q.promote.queue t).2.1 = (counts q t).2.1 + admitted ∧
      (counts q.promote.queue t).2.2 = (counts q t).2.2 := by
  have hperm := ((Queue.scan_perm q q.ready).map (·.call)).count_eq t
  simp only [List.map_append, List.map_map, List.count_append] at hperm
  refine ⟨?_, ?_, ?_⟩
  · simp only [counts, Queue.queuedCalls, Queue.promote_ready]
    exact hperm.symm
  · simp only [counts, Queue.promote_running_eq_append, List.map_append, List.map_map,
      List.count_append]
    rfl
  · simp only [counts, Queue.promote_sync]

end Counts

/-! ## the stage of a call -/

/-- The call stands at the stage, by its way, the end of its token, its place and its record. -/
structure Stands (l : Ledger) (ends : List (Ticket × Ending)) (ms : List Mark) (t : Ticket)
    (s : Stage) : Prop where
  trace : way t ms = s.way t
  token : endingsAt t ends = s.endings
  place : counts l.queue t = s.counts
  status : (l.call? t).map (·.status) = s.status?
  failure : (l.call? t).bind (·.error) = s.failure?
  canceled : .dropped ∈ s.endings → l.isCanceled t = true

section Stands

variable {l l' : Ledger} {ends ends' : List (Ticket × Ending)} {ms ms' : List Mark}
  {t u : Ticket} {s : Stage} {e : Ending}

/-- A call that has left no mark does not exist. -/
theorem Stands.eq_absent (h : Stands l ends ms t s) (hway : way t ms = []) : s = .absent := by
  have hs := h.trace.symm.trans hway
  cases s <;> first | rfl | cases hs

/-- An admitted call that runs is at that stage. -/
theorem Stands.eq_admitted (h : Stands l ends ms t s) (hmem : t ∈ l.queue.running.map (·.call)) :
    s = .admitted := by
  have hpos : 0 < (counts l.queue t).2.1 := List.count_pos_iff.2 hmem
  rw [h.place] at hpos
  cases s <;> first | rfl | cases hpos

/-- A call that waits is at that stage. -/
theorem Stands.eq_waiting (h : Stands l ends ms t s) (hmem : t ∈ l.queue.queuedCalls) :
    s = .waiting := by
  have hpos : 0 < (counts l.queue t).1 := List.count_pos_iff.2 hmem
  rw [h.place] at hpos
  cases s <;> first | rfl | cases hpos

theorem Stands.eq_sync (h : Stands l ends ms t s) (hmem : t ∈ l.queue.sync) : s = .sync := by
  have hpos : 0 < (counts l.queue t).2.2 := List.count_pos_iff.2 hmem
  rw [h.place] at hpos
  cases s <;> first | rfl | cases hpos

/-- What does not concern a call leaves it at its stage. -/
theorem Stands.frame (h : Stands l ends ms t s) (hms : way t ms' = [])
    (hends : endingsAt t ends' = []) (hcounts : counts l'.queue t = counts l.queue t)
    (hcall : l'.call? t = l.call? t) : Stands l' (ends ++ ends') (ms ++ ms') t s where
  trace := by rw [way_append, hms, List.append_nil, h.trace]
  token := by rw [endingsAt_append, hends, List.append_nil, h.token]
  place := hcounts.trans h.place
  status := by rw [hcall, h.status]
  failure := by rw [hcall, h.failure]
  canceled hmem := by
    rw [Ledger.isCanceled, hcall]
    exact h.canceled hmem

/-- What is a matter of one call leaves the others at their stages. -/
theorem stands_of_others (h : ∀ t, ∃ s, Stands l ends ms t s) (hms : ∀ t ≠ u, way t ms' = [])
    (hends : ∀ t ≠ u, endingsAt t ends' = [])
    (hcounts : ∀ t ≠ u, counts l'.queue t = counts l.queue t)
    (hcall : ∀ t ≠ u, l'.call? t = l.call? t)
    (hu : Stands l' (ends ++ ends') (ms ++ ms') u s) :
    ∀ t, ∃ s, Stands l' (ends ++ ends') (ms ++ ms') t s := by
  intro t
  by_cases ht : t = u
  · exact ⟨s, ht ▸ hu⟩
  · obtain ⟨s, hs⟩ := h t
    exact ⟨s, hs.frame (hms t ht) (hends t ht) (hcounts t ht) (hcall t ht)⟩

/-! ### calls arrive -/

/-- A call arrives that has left no mark before. -/
theorem stands_arrive {m : Mark} {call : Call} (h : ∀ t, ∃ s, Stands l ends ms t s)
    (hu : way u ms = []) (hm : m.call? = some u) (hway : s.way u = [m]) (hends : s.endings = [])
    (hstatus : s.status? = some call.status) (hfailure : s.failure? = call.error)
    (hcounts : ∀ t ≠ u, counts l'.queue t = counts l.queue t)
    (hplace : counts l.queue u = (0, 0, 0) → counts l'.queue u = s.counts)
    (hcall : ∀ t, l'.call? t = if t = u then some call else l.call? t) :
    ∀ t, ∃ s, Stands l' ends (ms ++ [m]) t s := by
  obtain ⟨s₀, hs⟩ := h u
  obtain rfl := hs.eq_absent hu
  have hnew : Stands l' (ends ++ []) (ms ++ [m]) u s := by
    refine ⟨?_, ?_, hplace hs.place, ?_, ?_, ?_⟩
    · rw [way_append, hu, way_self hm, hway]
      rfl
    · rw [List.append_nil, hs.token, hends]
      rfl
    · rw [hcall, if_pos rfl, hstatus]
      rfl
    · rw [hcall, if_pos rfl, hfailure]
      rfl
    · rw [hends]
      exact nofun
  have hstage := stands_of_others h (fun t ht => way_of_ne hm ht) (fun _ _ => rfl) hcounts
    (fun t ht => by rw [hcall, if_neg ht]) hnew
  rwa [List.append_nil] at hstage

theorem stands_enqueue (h : ∀ t, ∃ s, Stands l ends ms t s) (hu : way u ms = []) (r : Request) :
    ∀ t, ∃ s, Stands (l.enqueue u r).1 ends (ms ++ [.waits u]) t s := by
  obtain ⟨hothers, hself⟩ := counts_enqueue l.queue u r.host r.duplex
  refine stands_arrive (s := .waiting) h hu rfl rfl rfl rfl rfl hothers (fun h0 => ?_)
    (l.call?_enqueue u r)
  rw [h0] at hself
  exact hself

theorem stands_enqueueSync (h : ∀ t, ∃ s, Stands l ends ms t s) (hu : way u ms = [])
    (host : Host) : ∀ t, ∃ s, Stands (l.enqueueSync u host).1 ends (ms ++ [.runs u]) t s := by
  obtain ⟨hothers, hself⟩ := counts_enqueueSync l.queue u
  refine stands_arrive (s := .sync) h hu rfl rfl rfl rfl rfl hothers (fun h0 => ?_)
    (l.call?_enqueueSync u host)
  rw [h0] at hself
  exact hself

/-! ### calls end -/

/-- The stage of a running call after its end. -/
def Stage.finish (e : Ending) : Stage → Stage
  | .sync => .syncEnded e
  | .absent | .waiting | .admitted | .ended _ | .syncEnded _ => .ended e

/-- A call ends that was admitted or is a sync call. -/
theorem stands_depart (h : ∀ t, ∃ s, Stands l ends ms t s) (hu : Stands l ends ms u s)
    (hs : s = .admitted ∨ s = .sync) (hcounts : ∀ t ≠ u, counts l'.queue t = counts l.queue t)
    (hplace : counts l'.queue u = (0, 0, 0))
    (hcall : ∀ t, l'.call? t = if t = u then (l.call? t).map e.record else l.call? t) :
    ∀ t, ∃ s, Stands l' (ends ++ [(u, e)]) (ms ++ [.ends u]) t s := by
  obtain ⟨call, hcallu, hstatus, hfailure⟩ :
      ∃ call, l.call? u = some call ∧ call.status = .running ∧ call.error = none := by
    have hstatus : (l.call? u).map (·.status) = some .running := by
      rw [hu.status]
      rcases hs with rfl | rfl <;> rfl
    have hfailure : (l.call? u).bind (·.error) = none := by
      rw [hu.failure]
      rcases hs with rfl | rfl <;> rfl
    obtain ⟨call, hcallu, hrunning⟩ := Option.map_eq_some_iff.1 hstatus
    rw [hcallu] at hfailure
    exact ⟨call, hcallu, hrunning, hfailure⟩
  have hrecord : l'.call? u = some (e.record call) := by rw [hcall, if_pos rfl, hcallu]; rfl
  have hnew : Stands l' (ends ++ [(u, e)]) (ms ++ [.ends u]) u (s.finish e) := by
    refine ⟨?_, ?_, ?_, ?_, ?_, ?_⟩
    · rw [way_append, hu.trace, way_self rfl]
      rcases hs with rfl | rfl <;> rfl
    · rw [endingsAt_append, hu.token, endingsAt_singleton, if_pos rfl]
      rcases hs with rfl | rfl <;> rfl
    · rw [hplace]
      rcases hs with rfl | rfl <;> rfl
    · rw [hrecord, Option.map_some, e.status_record]
      rcases hs with rfl | rfl <;> rfl
    · rw [hrecord, Option.bind_some, e.error_record hfailure]
      rcases hs with rfl | rfl <;> rfl
    · intro hdropped
      have he : e = .dropped := by
        rcases hs with rfl | rfl <;> exact (List.mem_singleton.1 hdropped).symm
      rw [Ledger.isCanceled, hrecord, he]
      rfl
  refine stands_of_others h (fun t ht => way_of_ne rfl ht) (fun t ht => ?_) hcounts
    (fun t ht => by rw [hcall, if_neg ht]) hnew
  rw [endingsAt_singleton, if_neg (Ne.symm ht)]

/-! ### calls go on -/

/-- A pass admits none but calls that wait. -/
theorem Stands.count_admitted_le (h : Stands l ends ms t s) :
    l.promote.admitted.count t ≤ s.counts.1 := by
  obtain ⟨hready, -, -⟩ := counts_promote l.queue t
  rw [← h.place, hready]
  exact Nat.le_add_right _ _

/-- A pass takes a call that it admits to the next stage, and leaves all others where they are. -/
theorem Stands.promote (h : Stands l ends ms t s) :
    ∃ s, Stands l.promote.ledger ends (ms ++ .passes :: promotionMarks l.promote) t s := by
  have hle := h.count_admitted_le
  have hcall : l.promote.ledger.call? t =
      (l.call? t).map Call.setRunning^[l.promote.admitted.count t] :=
    Ledger.call?_foldl_updateCall _ _ { l with queue := l.queue.promote.queue } t
  obtain ⟨hready, hrunning, hsync⟩ := counts_promote l.queue t
  rw [← Ledger.queue_promote] at hready hrunning hsync
  rcases Nat.eq_zero_or_pos (l.promote.admitted.count t) with hcount | hcount
  · have hplace : counts l.promote.ledger.queue t = counts l.queue t := by
      have hnone : (l.queue.promote.admitted.map (·.entry.call)).count t = 0 := hcount
      rw [hnone, Nat.zero_add] at hready
      rw [hnone, Nat.add_zero] at hrunning
      exact Prod.ext hready.symm (Prod.ext hrunning hsync)
    rw [hcount] at hcall
    have hway : way t (.passes :: promotionMarks l.promote) = [] := by
      rw [way_promotionMarks, hcount]
      rfl
    have hframe : Stands l.promote.ledger (ends ++ []) _ t s :=
      h.frame hway rfl hplace (by rw [hcall]; simp)
    rw [List.append_nil] at hframe
    exact ⟨s, hframe⟩
  · obtain rfl : s = .waiting := by
      cases s <;> first | rfl | exact absurd (Nat.lt_of_lt_of_le hcount hle) (Nat.lt_irrefl 0)
    have hone : l.promote.admitted.count t = 1 := Nat.le_antisymm hle hcount
    have hplace : counts l.promote.ledger.queue t = Stage.admitted.counts := by
      have hadmitted : (l.queue.promote.admitted.map (·.entry.call)).count t = 1 := hone
      rw [hadmitted, h.place] at hready hrunning
      rw [h.place] at hsync
      have hwaiting : (counts l.promote.ledger.queue t).1 = 0 := by
        simp only [Stage.counts] at hready
        omega
      exact Prod.ext hwaiting (Prod.ext hrunning hsync)
    obtain ⟨call, hcallt, hqueued⟩ := Option.map_eq_some_iff.1 h.status
    have hfailure := h.failure
    rw [hcallt] at hfailure
    rw [hcallt, hone] at hcall
    refine ⟨.admitted, ?_, h.token, hplace, ?_, ?_, nofun⟩
    · rw [way_append, h.trace, way_promotionMarks, hone]
      rfl
    · rw [hcall]
      simp [Call.setRunning, hqueued, Stage.status?]
    · rw [hcall]
      simpa [Call.setRunning, hqueued, Stage.failure?] using hfailure

end Stands

end Dispatcher

end CallAdmission
