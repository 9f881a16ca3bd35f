import CallAdmission.Proofs.Dispatcher.Stage

/-!
# CallAdmission.Proofs.Dispatcher.Keeping

Slots and tokens. A call that runs has a slot in the queue, and somebody has the token that gives
the slot back: nobody has a token without a slot, and no slot is left without a token, whatever
panics.

* `Custody.Kept` — running calls have their tokens, and every call stands at a stage;
* `Custody.Kept.step` — every step keeps this so;
* `matched_of_follow` — slots and tokens correspond one to one after every course.
-/

namespace CallAdmission.Dispatcher

/-- Each running call has its token, and only these have one; tickets that are set aside are those
of calls to come; every call stands at a stage. -/
structure Custody.Kept (ends : List (Ticket × Ending)) (ms : List Mark) (c : Custody) : Prop where
  tokens : c.tokens = ↑(c.ledger.queue.running.map (·.call))
  syncTokens : c.syncTokens = ↑c.ledger.queue.sync
  reserved : c.reserved.Nodup
  reserved_lt : ∀ t ∈ c.reserved, t < c.next
  fresh : ∀ t, c.next ≤ t ∨ t ∈ c.reserved → way t ms = []
  stage : ∀ t, ∃ s, Stands c.ledger ends ms t s

namespace Custody

variable {c c' : Custody} {ends ends' : List (Ticket × Ending)} {ms ms' : List Mark}
  {t u : Ticket}

theorem coe_concat (ts : List Ticket) (t : Ticket) :
    (↑(ts ++ [t]) : Multiset Ticket) = t ::ₘ ↑ts :=
  Multiset.coe_eq_coe.2 (List.perm_append_singleton t ts)

/-- The next call has left no mark, nor has one whose ticket is set aside. -/
theorem Kept.fresh_concat (h : c.Kept ends ms) {m : Mark} (hm : m.call? = some u)
    (ht : c.next ≤ t ∨ t ∈ c.reserved) (hne : t ≠ u) : way t (ms ++ [m]) = [] := by
  rw [way_append, h.fresh t ht, way_of_ne hm hne]
  rfl

/-- When the next call leaves its first mark, those that come after it have left none. -/
theorem Kept.fresh_next (h : c.Kept ends ms) {m : Mark} (hm : m.call? = some c.next)
    (ht : c.next + 1 ≤ t ∨ t ∈ c.reserved) : way t (ms ++ [m]) = [] := by
  refine h.fresh_concat hm (ht.imp_left Nat.le_of_succ_le) ?_
  rcases ht with ht | ht
  · exact Nat.ne_of_gt ht
  · exact Nat.ne_of_lt (h.reserved_lt t ht)

theorem Kept.ne_of_trace (h : c.Kept ends ms) (ht : c.next ≤ t ∨ t ∈ c.reserved) {path : List Mark}
    (hu : way u ms = path) (hpath : path ≠ []) : t ≠ u := by
  rintro rfl
  exact hpath (hu.symm.trans (h.fresh t ht))

theorem Kept.enqueue (h : c.Kept ends ms) (r : Request) :
    Kept ends (ms ++ [.waits c.next])
      { c with ledger := (c.ledger.enqueue c.next r).1, next := c.next + 1 } where
  tokens := h.tokens
  syncTokens := h.syncTokens
  reserved := h.reserved
  reserved_lt t ht := Nat.lt_succ_of_lt (h.reserved_lt t ht)
  fresh _ ht := h.fresh_next rfl ht
  stage := stands_enqueue h.stage (h.fresh _ (.inl (Nat.le_refl _))) r

theorem Kept.submitSync (h : c.Kept ends ms) (host : Host) :
    Kept ends (ms ++ [.runs c.next])
      ({ c with
        ledger := (c.ledger.enqueueSync c.next host).1
        next := c.next + 1 }.guard c.next) where
  tokens := h.tokens
  syncTokens := by
    change c.next ::ₘ c.syncTokens = ↑(c.ledger.queue.sync ++ [c.next])
    rw [h.syncTokens, coe_concat]
  reserved := h.reserved
  reserved_lt t ht := Nat.lt_succ_of_lt (h.reserved_lt t ht)
  fresh _ ht := h.fresh_next rfl ht
  stage := stands_enqueueSync h.stage (h.fresh _ (.inl (Nat.le_refl _))) host

theorem Kept.reserve (h : c.Kept ends ms) :
    Kept ends ms ({ c with next := c.next + 1 }.reserve c.next) where
  tokens := h.tokens
  syncTokens := h.syncTokens
  reserved :=
    Multiset.nodup_cons.2 ⟨fun hmem => Nat.lt_irrefl _ (h.reserved_lt _ hmem), h.reserved⟩
  reserved_lt t ht := by
    rcases Multiset.mem_cons.1 ht with rfl | ht
    · exact Nat.lt_succ_self _
    · exact Nat.lt_succ_of_lt (h.reserved_lt t ht)
  fresh t ht := by
    rcases ht with ht | ht
    · exact h.fresh t (.inl (Nat.le_of_succ_le ht))
    · rcases Multiset.mem_cons.1 ht with rfl | ht
      · exact h.fresh _ (.inl (Nat.le_refl _))
      · exact h.fresh t (.inr ht)
  stage := h.stage

/-- A sync call arrives for which a ticket was set aside. -/
theorem Kept.startSync (h : (c.reserve u).Kept ends ms) (host : Host) :
    Kept ends (ms ++ [.runs u])
      ({ c with ledger := (c.ledger.enqueueSync u host).1 }.guard u) where
  tokens := h.tokens
  syncTokens := by
    have hsync : c.syncTokens = ↑c.ledger.queue.sync := h.syncTokens
    change u ::ₘ c.syncTokens = ↑(c.ledger.queue.sync ++ [u])
    rw [hsync, coe_concat]
  reserved := (Multiset.nodup_cons.1 h.reserved).2
  reserved_lt t ht := h.reserved_lt t (Multiset.mem_cons_of_mem ht)
  fresh t ht := by
    refine h.fresh_concat rfl (ht.imp_right Multiset.mem_cons_of_mem) ?_
    rcases ht with ht | ht
    · exact Nat.ne_of_gt (Nat.lt_of_lt_of_le (h.reserved_lt u (Multiset.mem_cons_self _ _)) ht)
    · rintro rfl
      exact (Multiset.nodup_cons.1 h.reserved).1 ht
  stage := stands_enqueueSync h.stage (h.fresh _ (.inr (Multiset.mem_cons_self _ _))) host

theorem Kept.withdraw (h : (c.reserve u).Kept ends ms) : c.Kept ends ms where
  tokens := h.tokens
  syncTokens := h.syncTokens
  reserved := (Multiset.nodup_cons.1 h.reserved).2
  reserved_lt t ht := h.reserved_lt t (Multiset.mem_cons_of_mem ht)
  fresh t ht := h.fresh t (ht.imp_right Multiset.mem_cons_of_mem)
  stage := h.stage

/-! ### calls end -/

/-- A token comes to its end whose call was admitted, and the call gives its slot back. -/
theorem Kept.finish {e : Ending} {departure : Queue.Departure} (h : (c.hold u).Kept ends ms)
    (hq : c.ledger.queue.finish? u = some departure) :
    Kept (ends ++ [(u, e)]) (ms ++ [.ends u])
      { c with ledger := { c.ledger with queue := departure.queue }.updateCall u e.record } := by
  obtain ⟨hothers, hself⟩ := counts_finish hq
  obtain ⟨hcall, -, front, back, hrun, hqueue⟩ := Queue.finish?_eq_some hq
  have hmem : u ∈ c.ledger.queue.running.map (·.call) := by
    rw [hrun, ← hcall]
    simp
  obtain ⟨s, hs⟩ := h.stage u
  obtain rfl := hs.eq_admitted hmem
  have hrunning : (↑(c.ledger.queue.running.map (·.call)) : Multiset Ticket) =
      u ::ₘ ↑(departure.queue.running.map (·.call)) := by
    rw [hrun, hqueue, ← hcall, List.map_append, List.map_cons, List.map_append]
    exact Multiset.coe_eq_coe.2 List.perm_middle
  have htokens : u ::ₘ c.tokens = u ::ₘ ↑(departure.queue.running.map (·.call)) :=
    h.tokens.trans hrunning
  have hsync : c.syncTokens = ↑departure.queue.sync := by
    rw [hqueue]
    exact h.syncTokens
  refine ⟨(Multiset.cons_inj_right u).1 htokens, hsync, h.reserved, h.reserved_lt,
    fun t ht => h.fresh_concat rfl ht (h.ne_of_trace ht hs.trace nofun), ?_⟩
  have hplace := hself.symm.trans hs.place
  simp only [Stage.counts, Prod.mk.injEq] at hplace
  exact stands_depart h.stage hs (.inl rfl) hothers
    (Prod.ext hplace.1 (Prod.ext (Nat.succ.inj hplace.2.1) hplace.2.2))
    fun t => Ledger.call?_updateCall { c.ledger with queue := departure.queue } u t e.record

/-- A guard comes to its end whose call runs, and the call gives its slot back. -/
theorem Kept.finishSync {e : Ending} {queue : Queue} (h : (c.guard u).Kept ends ms)
    (hq : c.ledger.queue.finishSync? u = some queue) :
    Kept (ends ++ [(u, e)]) (ms ++ [.ends u])
      { c with ledger := { c.ledger with queue }.updateCall u e.record } := by
  obtain ⟨hothers, hself⟩ := counts_finishSync hq
  obtain ⟨hmem, rfl⟩ := Queue.finishSync?_eq_some hq
  obtain ⟨s, hs⟩ := h.stage u
  obtain rfl := hs.eq_sync hmem
  have hsync : (↑c.ledger.queue.sync : Multiset Ticket) = u ::ₘ ↑(c.ledger.queue.sync.erase u) :=
    Multiset.coe_eq_coe.2 (List.perm_cons_erase hmem)
  have htokens : u ::ₘ c.syncTokens = u ::ₘ ↑(c.ledger.queue.sync.erase u) :=
    h.syncTokens.trans hsync
  refine ⟨h.tokens, (Multiset.cons_inj_right u).1 htokens, h.reserved, h.reserved_lt,
    fun t ht => h.fresh_concat rfl ht (h.ne_of_trace ht hs.trace nofun), ?_⟩
  have hplace := hself.symm.trans hs.place
  simp only [Stage.counts, Prod.mk.injEq] at hplace
  exact stands_depart h.stage hs (.inr rfl) hothers
    (Prod.ext hplace.1 (Prod.ext hplace.2.1 (Nat.succ.inj hplace.2.2)))
    fun t => Ledger.call?_updateCall { c.ledger with queue := _ } u t e.record

/-! ### calls go on -/

/-- Settings of the queue are no matter of its calls. -/
theorem Kept.set (h : c.Kept ends ms) {queue : Queue} (hready : queue.ready = c.ledger.queue.ready)
    (hrunning : queue.running = c.ledger.queue.running)
    (hsync : queue.sync = c.ledger.queue.sync) :
    Kept ends ms { c with ledger := { c.ledger with queue } } where
  tokens := h.tokens.trans (by rw [← hrunning])
  syncTokens := h.syncTokens.trans (by rw [← hsync])
  reserved := h.reserved
  reserved_lt := h.reserved_lt
  fresh := h.fresh
  stage t := by
    obtain ⟨s, hs⟩ := h.stage t
    have hplace : counts queue t = counts c.ledger.queue t := by
      simp only [counts, Queue.queuedCalls, hready, hrunning, hsync]
    exact ⟨s, hs.trace, hs.token, hplace.trans hs.place, hs.status, hs.failure, hs.canceled⟩

/-- Cancellation is asked for. -/
theorem Kept.cancel (h : c.Kept ends ms) (u : Ticket) :
    Kept ends ms { c with ledger := c.ledger.cancel u } where
  tokens := h.tokens
  syncTokens := h.syncTokens
  reserved := h.reserved
  reserved_lt := h.reserved_lt
  fresh := h.fresh
  stage t := by
    obtain ⟨s, hs⟩ := h.stage t
    have hcall := c.ledger.call?_updateCall u t Call.cancel
    refine ⟨s, hs.trace, hs.token, hs.place, ?_, ?_, fun hdropped => ?_⟩
    · rw [← hs.status, Ledger.cancel, hcall]
      cases c.ledger.call? t <;> split <;> rfl
    · rw [← hs.failure, Ledger.cancel, hcall]
      cases c.ledger.call? t <;> split <;> rfl
    · have hbefore := hs.canceled hdropped
      rw [Ledger.isCanceled] at hbefore ⊢
      rw [Ledger.cancel, hcall]
      cases hc : c.ledger.call? t with
      | none => rw [hc] at hbefore; cases hbefore
      | some call =>
        rw [hc] at hbefore
        split
        · rfl
        · exact hbefore

theorem Kept.cancelAll (h : c.Kept ends ms) (ts : List Ticket) :
    Kept ends ms { c with ledger := ts.foldl Ledger.cancel c.ledger } := by
  induction ts generalizing c with
  | nil => exact h
  | cons t ts ih => exact ih (h.cancel t)

/-- A pass admits calls. -/
theorem Kept.promote (h : c.Kept ends ms) :
    c.promote.Kept ends (ms ++ .passes :: promotionMarks c.ledger.promote) where
  tokens := by
    change ↑c.ledger.promote.admitted + c.tokens =
      ↑(c.ledger.promote.ledger.queue.running.map (·.call))
    rw [h.tokens, Ledger.queue_promote, Queue.promote_running_eq_append, List.map_append,
      List.map_map, ← Multiset.coe_add, add_comm]
    rfl
  syncTokens := by
    change c.syncTokens = ↑c.ledger.promote.ledger.queue.sync
    rw [h.syncTokens, Ledger.queue_promote, Queue.promote_sync]
  reserved := h.reserved
  reserved_lt := h.reserved_lt
  fresh t ht := by
    obtain ⟨s, hs⟩ := h.stage t
    obtain rfl := hs.eq_absent (h.fresh t ht)
    have hcount : c.ledger.promote.admitted.count t = 0 := Nat.le_zero.1 hs.count_admitted_le
    rw [way_append, way_promotionMarks, h.fresh t ht, hcount]
    rfl
  stage t := by
    obtain ⟨s, hs⟩ := h.stage t
    exact hs.promote

/-! ### every step -/

theorem Kept.deed (h : c.Kept ends ms) (hdeed : c.Deed ends' ms' c') :
    c'.Kept (ends ++ ends') (ms ++ ms') := by
  cases hdeed with
  | keep => simpa using h
  | enqueue r => simpa using h.enqueue r
  | submitSync host => simpa using h.submitSync host
  | reserve => simpa using h.reserve
  | startSync host hc =>
    subst hc
    simpa using h.startSync host
  | withdraw hc =>
    subst hc
    simpa using h.withdraw
  | finish hc hq he =>
    subst hc
    exact h.finish hq
  | finishSync hc hq he =>
    subst hc
    exact h.finishSync hq
  | @miss _ t e hc hq =>
    -- there is no token without a running call
    have htokens : t ::ₘ c'.tokens = ↑(c'.ledger.queue.running.map (·.call)) := by
      subst hc
      exact h.tokens
    have hmem : t ∈ c'.ledger.queue.running.map (·.call) := by
      rw [← Multiset.mem_coe, ← htokens]
      exact Multiset.mem_cons_self t _
    exact absurd hmem (not_mem_running_of_finish? hq)
  | @missSync c₁ t _ _ hc hq hl =>
    have htokens : t ::ₘ c₁.syncTokens = ↑c₁.ledger.queue.sync := by
      subst hc
      exact h.syncTokens
    have hmem : t ∈ c₁.ledger.queue.sync := by
      rw [← Multiset.mem_coe, ← htokens]
      exact Multiset.mem_cons_self t _
    exact absurd hmem (not_mem_sync_of_finishSync? hq)
  | setLimit hq =>
    obtain ⟨-, rfl⟩ := Queue.setLimit_eq_ok_iff.1 hq
    rw [List.append_nil, List.append_nil]
    exact h.set rfl rfl rfl
  | setIdle idle =>
    rw [List.append_nil, List.append_nil]
    exact h.set rfl rfl rfl
  | cancel ts => simpa using h.cancelAll ts

theorem Kept.deeds (h : c.Kept ends ms) (hdeeds : c.Deeds ends' ms' c') :
    c'.Kept (ends ++ ends') (ms ++ ms') := by
  induction hdeeds generalizing ends ms with
  | nil c => simpa using h
  | cons hdeed _ ih =>
    have hlast := ih (h.deed hdeed)
    rwa [List.append_assoc, List.append_assoc] at hlast

/-- Every step keeps calls at their stages, and their tokens where they belong. -/
theorem Kept.step (h : c.Kept ends ms) (hstep : c.Step ends' ms' c') :
    c'.Kept (ends ++ ends') (ms ++ ms') := by
  cases hstep with
  | deeds hdeeds => exact h.deeds hdeeds
  | pass hdeed hq =>
    have hpass := (h.deed hdeed).promote
    rwa [List.append_assoc] at hpass

end Custody

/-! ## courses -/

variable {limits : Limits} {notices : List Notice} {d₀ d : Dispatcher} {actions : List Action}
  {es : List Event}

/-- After every course each call stands at a stage, and those that run have their tokens. -/
theorem kept_of_follow (hcreate : create limits = .ok (d₀, notices))
    (h : d₀.follow actions = .ok (d, es)) :
    (Moment.custody ⟨d, .outside⟩).Kept (d₀.endingsOf actions) (marks es) := by
  have hstart : (Moment.custody ⟨d₀, .outside⟩).Kept [] [] := by
    obtain ⟨-, rfl⟩ := create_eq_ok hcreate
    refine ⟨rfl, rfl, Multiset.nodup_zero, nofun, fun _ _ => rfl, fun t => ⟨.absent, ?_⟩⟩
    exact ⟨rfl, rfl, rfl, rfl, rfl, nofun⟩
  exact custody_induction (P := fun ends ms c => c.Kept ends ms)
    (fun _ _ _ _ _ _ hkept hstep => hkept.step hstep) hcreate hstart h

/-! ## slots and tokens -/

/-- Slots and tokens correspond one to one. -/
structure Matched (d : Dispatcher) : Prop where
  /-- the admitted calls that run are those of the tokens that were not reported -/
  tokens : d.tokens.Perm (d.ledger.queue.running.map (·.call))
  /-- the sync calls that run are those of the guards that were not finished -/
  syncTokens : d.syncTokens.Perm d.ledger.queue.sync
  /-- no call has two tokens, of whatever kind -/
  nodup : (d.tokens ++ d.syncTokens).Nodup

theorem Custody.Kept.matched {ends : List (Ticket × Ending)} {ms : List Mark}
    (h : (Moment.custody ⟨d, .outside⟩).Kept ends ms) : d.Matched := by
  have htokens := Multiset.coe_eq_coe.1 h.tokens
  have hsync := Multiset.coe_eq_coe.1 h.syncTokens
  refine ⟨htokens, hsync, (htokens.append hsync).nodup_iff.2 ?_⟩
  rw [List.nodup_iff_count_le_one]
  intro t
  obtain ⟨s, hs⟩ := h.stage t
  have hplace : counts d.ledger.queue t = s.counts := hs.place
  have hle : (counts d.ledger.queue t).2.1 + (counts d.ledger.queue t).2.2 ≤ 1 := by
    rw [hplace]
    cases s <;> simp [Stage.counts]
  rw [List.count_append]
  exact hle

theorem count_ends (ms : List Mark) (t : Ticket) :
    ms.count (.ends t) = (way t ms).count (.ends t) :=
  (List.count_filter (by simp [Mark.call?])).symm

theorem count_endings (ends : List (Ticket × Ending)) (t : Ticket) :
    (ends.map (·.1)).count t = (endingsAt t ends).length := by
  rw [endingsAt, List.length_map, ← List.countP_eq_length_filter, List.count, List.countP_map]
  rfl

/-- **Slots and tokens.** After every course, whatever panics in it, slots and tokens correspond one
to one; no call was ever to give back a slot that it did not have; and the calls that gave a slot
back are those whose tokens came to their end, each of them once. -/
theorem matched_of_follow (hcreate : create limits = .ok (d₀, notices))
    (h : d₀.follow actions = .ok (d, es)) :
    d.Matched ∧ (∀ t, .said (.notInFlight t) ∉ es ∧ .said (.syncNotInFlight t) ∉ es) ∧
      ∀ t, (marks es).count (.ends t) = ((d₀.endingsOf actions).map (·.1)).count t ∧
        (marks es).count (.ends t) ≤ 1 := by
  have hkept := kept_of_follow hcreate h
  have hmisses : ∀ t, .misses t ∉ marks es := by
    intro t hmem
    obtain ⟨s, hs⟩ := hkept.stage t
    have hway : .misses t ∈ way t (marks es) := List.mem_filter.2 ⟨hmem, by simp [Mark.call?]⟩
    rw [hs.trace] at hway
    cases s <;> simp [Stage.way] at hway
  refine ⟨hkept.matched, fun t => ⟨fun hsaid => ?_, fun hsaid => ?_⟩, fun t => ?_⟩
  · exact hmisses t (List.mem_filterMap.2 ⟨_, hsaid, rfl⟩)
  · exact hmisses t (List.mem_filterMap.2 ⟨_, hsaid, rfl⟩)
  · obtain ⟨s, hs⟩ := hkept.stage t
    rw [count_ends, hs.trace, count_endings, hs.token]
    cases s <;> simp [Stage.way, Stage.endings]

/-- Tokens that are reported, dropped, and lost in panics of the executor and of a call's work. -/
def unwoundCourse : List Action :=
  [.submit ⟨⟨"a"⟩, false⟩, .openRun 0,
    -- the executor submits three calls; one of them is a sync call, whose guard it drops
    .submit ⟨⟨"b"⟩, false⟩, .submit ⟨⟨"b"⟩, true⟩, .submitSync ⟨"c"⟩, .dropGuard 3, .leave,
    -- it keeps the next call and panics while the one after it is still to be handed over
    .panic "executor failed", .report 1 (.ok ()),
    .pollRun 0, .panic "work failed",
    .submitSync ⟨"c"⟩, .submit ⟨⟨"a"⟩, false⟩]

/-- Two calls run in the end, and have the only tokens. -/
theorem matched_of_unwoundCourse :
    ∃ d₀ notices d es, create ⟨3, 2⟩ = .ok (d₀, notices) ∧ d₀.follow unwoundCourse = .ok (d, es) ∧
      d.tokens = [5] ∧ d.syncTokens = [4] ∧
      d.Matched ∧ (∀ t, .said (.notInFlight t) ∉ es ∧ .said (.syncNotInFlight t) ∉ es) ∧
      ∀ t, (marks es).count (.ends t) = ((d₀.endingsOf unwoundCourse).map (·.1)).count t ∧
        (marks es).count (.ends t) ≤ 1 := by
  obtain ⟨d₀, notices, d, es, hcreate, hcourse, htokens, hsync⟩ :
      ∃ d₀ notices d es, create ⟨3, 2⟩ = .ok (d₀, notices) ∧
        d₀.follow unwoundCourse = .ok (d, es) ∧ d.tokens = [5] ∧ d.syncTokens = [4] :=
    ⟨_, _, _, _, rfl, rfl, rfl, rfl⟩
  exact ⟨d₀, notices, d, es, hcreate, hcourse, htokens, hsync, matched_of_follow hcreate hcourse⟩

end CallAdmission.Dispatcher
