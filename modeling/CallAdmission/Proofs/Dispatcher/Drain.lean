import CallAdmission.Proofs.Dispatcher.Inline
import CallAdmission.Proofs.Dispatcher.Journey
import Mathlib.Data.Set.Finite.Lattice

/-!
# CallAdmission.Proofs.Dispatcher.Drain

That operations return, and what they leave behind, when the executor works inline. Neither the
executor nor the callback panics, each of their invocations returns, and together they submit
finitely many calls; in between they may nest operations as they like.

* `Journey.Inline` — what is asked of the executor and of the callback;
* `Journey.exists_atRest` — every pass ends, if whoever is invoked gives control back;
* `Journey.underway_or_stack_eq` — until it returns, an operation keeps the stack below its pass;
* `drained_of_inline` — every operation returns, and leaves nothing running;
* `exists_inline_of_follow` — which courses are the beginning of such a journey.
-/

namespace CallAdmission.Dispatcher

variable {limits : Limits} {notices : List Notice} {d₀ d : Dispatcher} {actions : List Action}
  {es : List Event} {t : Ticket} {n m k : ℕ}

namespace Journey

/-- The executor works inline. -/
structure Inline (j : Journey d₀) : Prop where
  completes : ∀ k, Completes (j.state k) (j.action k)
  /-- each invocation of the executor and of the callback returns -/
  returns : ∀ k, ¬ (j.state k).AtRest →
    ∃ m, k ≤ m ∧ j.action m = .leave ∧ ∃ f ∈ (j.state m).stack.head?, f.isPass = true
  /-- all invocations together submit finitely many calls -/
  finite : {k | ¬ (j.state k).AtRest ∧ ∃ e ∈ (j.turn k).events, e.isSubmission = true}.Finite

/-- From one step on, whoever is invoked gives control back in the end. -/
structure Responds (j : Journey d₀) (n : ℕ) : Prop where
  /-- each invocation of the executor and of the callback returns -/
  returns : ∀ k, n ≤ k → ¬ (j.state k).AtRest →
    ∃ m, k ≤ m ∧ j.action m = .leave ∧ ∃ f ∈ (j.state m).stack.head?, f.isPass = true
  /-- no pass goes on for ever with calls that are submitted meanwhile -/
  finite : ∀ k, n ≤ k → (∀ m, k ≤ m → ¬ (j.state m).AtRest) →
    {m | k ≤ m ∧ ∃ e ∈ (j.turn m).events, e.isSubmission = true}.Finite

theorem Inline.responds {j : Journey d₀} (hj : j.Inline) (n : ℕ) : j.Responds n where
  returns k _ := hj.returns k
  finite _ _ hbusy := hj.finite.subset fun m hm => ⟨hbusy m hm.1, hm.2⟩

/-- The operation of one step returns right before another one. -/
structure Returns (j : Journey d₀) (n m : ℕ) : Prop where
  later : n < m
  stack : (j.state m).stack = (j.state n).stack
  /-- it has not returned earlier -/
  first : ∀ k, n < k → k < m → ¬ (j.state k).AtRest

/-- What an operation comes to that is taken in one step and returns right before another one. -/
structure Drained (j : Journey d₀) (n m : ℕ) : Prop where
  returns : j.Returns n m
  /-- one pass is its own, and each other one was asked for while it was under way -/
  passes : passCount (j.events n m) ≤ 1 + requestCount (j.events (n + 1) m)
  running : (j.state m).ledger.queue.running = []
  /-- unless sync calls take all slots, nothing waits, and all calls that were ever submitted have
  ended -/
  ended : (j.state m).ledger.queue.sync.length <
      (j.state m).ledger.queue.limits.maxRequests.toNat →
    (j.state m).ledger.queue.ready = [] ∧
      ∀ t host duplex load, .said (.enqueued t host duplex load) ∈ j.events 0 m →
        ∃ call, (j.state m).ledger.call? t = some call ∧ call.status.isTerminal = true

/-! ## between the steps of a journey -/

section Create

variable {j : Journey d₀} (hcreate : create limits = .ok (d₀, notices))

include hcreate

theorem latched (k : ℕ) : Moment.Latched ⟨j.state k, .outside⟩ :=
  latched_of_follow hcreate (j.follow_upto k)

/-- In a series of steps no more passes start than were wanted before it or are asked for in it. -/
theorem passCount_le (h : n ≤ m) :
    passCount (j.events n m) + (j.state m).pending.toNat ≤
      (j.state n).pending.toNat + requestCount (j.events n m) := by
  induction m, h using Nat.le_induction with
  | base =>
    rw [events_self]
    exact Nat.le_of_eq (Nat.zero_add _)
  | succ m h ih =>
    have hstep := step_passCount_le (latched hcreate m) (j.step m)
    rw [j.events_succ h, j.next, passCount_append, requestCount_append]
    omega

/-! ## every pass ends -/

/-- While a pass is under way for ever, the executor and the callback are invoked again and
again. -/
theorem exists_le_length_handOffs (hj : j.Responds n) (hnk : n ≤ k)
    (hbusy : ∀ m, k ≤ m → ¬ (j.state m).AtRest) (r : ℕ) :
    ∃ m, k ≤ m ∧ r ≤ (handOffs (j.events 0 m)).length := by
  induction r with
  | zero => exact ⟨k, Nat.le_refl k, Nat.zero_le _⟩
  | succ r ih =>
    obtain ⟨m, hkm, hr⟩ := ih
    obtain ⟨i, hmi, ha, hf⟩ := hj.returns m (Nat.le_trans hnk hkm) (hbusy m hkm)
    have hki : k ≤ i + 1 := Nat.le_succ_of_le (Nat.le_trans hkm hmi)
    have hone := (step_handOffs (latched hcreate i) (j.step i) ha hf).resolve_left
      (j.next i ▸ hbusy (i + 1) hki)
    refine ⟨i + 1, hki, ?_⟩
    rw [j.events_append (Nat.zero_le m) (Nat.le_succ_of_le hmi), j.events_succ hmi]
    simp only [handOffs_append, List.length_append]
    omega

/-- Every pass ends: each invocation but finitely many would need a call that is submitted. -/
theorem exists_atRest (hj : j.Responds n) (hnk : n ≤ k) : ∃ m, k < m ∧ (j.state m).AtRest := by
  by_contra hnone
  simp only [not_exists, not_and] at hnone
  obtain ⟨bound, hbound⟩ := (hj.finite (k + 1) (Nat.le_succ_of_le hnk) hnone).bddAbove
  -- from here on a pass is under way, and nothing is submitted
  obtain ⟨s, hs⟩ : ∃ s, s = max k bound + 1 := ⟨_, rfl⟩
  have hbusy : ∀ m, s ≤ m → ¬ (j.state m).AtRest := fun m hm => hnone m (by omega)
  have hquiet : ∀ m, s ≤ m → submissions (j.turn m).events = 0 := by
    intro m hm
    rw [submissions, List.countP_eq_zero]
    intro e he hsubmission
    have hle : m ≤ bound := hbound ⟨by omega, e, he, hsubmission⟩
    omega
  have hsame : ∀ m, s ≤ m → submissions (j.events 0 m) = submissions (j.events 0 s) := by
    intro m hm
    induction m, hm using Nat.le_induction with
    | base => rfl
    | succ m hm ih => rw [j.events_succ (Nat.zero_le m), submissions_append, hquiet m hm, ih, Nat.add_zero]
  obtain ⟨m, hm, hmany⟩ :=
    exists_le_length_handOffs hcreate hj (by omega) hbusy (2 * submissions (j.events 0 s) + 1)
  have hfew := length_handOffs_le hcreate (j.follow_upto m)
  rw [hsame m hm] at hfew
  omega

/-! ## operations of an inline executor -/

variable (hj : j.Inline)

include hj

/-- Between steps only calls of the pass on the stack run. -/
theorem inlined (k : ℕ) : Inlined (j.state k) := by
  induction k with
  | zero =>
    rw [j.start]
    obtain ⟨-, rfl⟩ := create_eq_ok hcreate
    exact ⟨nofun, nofun⟩
  | succ k ih =>
    rw [j.next]
    exact step_inlined hcreate (j.follow_upto k) (j.step k) (hj.completes k) ih

/-- Until it returns, an operation leaves the stack as it was below the activity of its pass. -/
theorem underway_or_stack_eq (hrest : (j.state n).AtRest)
    (hop : (j.action n).isOperation = true) (hnm : n < m)
    (hfirst : ∀ k, n < k → k < m → ¬ (j.state k).AtRest) :
    Underway (j.state n).stack (j.state m) ∨ (j.state m).stack = (j.state n).stack := by
  induction m, hnm using Nat.le_induction with
  | base =>
    rw [j.next]
    exact step_operation (latched hcreate n) (j.step n) hrest hop
  | succ m hnm ih =>
    rw [j.next]
    rcases ih fun k hnk hkm => hfirst k hnk (Nat.lt_succ_of_lt hkm) with hunder | hstack
    · exact step_underway (latched hcreate m) (j.step m) (hj.completes m) hunder
    · refine absurd ?_ (hfirst m hnm (Nat.lt_succ_self m))
      rw [AtRest, hstack]
      exact hrest

/-- Every operation returns. -/
theorem exists_returns (hrest : (j.state n).AtRest) (hop : (j.action n).isOperation = true) :
    ∃ m, j.Returns n m := by
  classical
  have hends := exists_atRest hcreate (hj.responds n) (Nat.le_refl n)
  obtain ⟨hlater, hback⟩ := Nat.find_spec hends
  have hfirst : ∀ k, n < k → k < Nat.find hends → ¬ (j.state k).AtRest :=
    fun k hnk hk hrest => Nat.find_min hends hk ⟨hnk, hrest⟩
  refine ⟨Nat.find hends, hlater, ?_, hfirst⟩
  exact (underway_or_stack_eq hcreate hj hrest hop hlater hfirst).resolve_left
    fun hunder => hunder.not_atRest hback

end Create

end Journey

/-! ## what is left behind -/

/-- A step outside passes runs one pass at most that is not asked for in it. -/
theorem step_passCount_of_atRest (hd : Moment.Latched ⟨d, .outside⟩) (hrest : d.AtRest) {a : Action}
    {turn : Turn} (hstep : d.step a = .ok turn) :
    passCount turn.events + turn.dispatcher.pending.toNat ≤ 1 := by
  cases step_shift hd hstep with
  | aside _ _ _ hes =>
    rw [hes.passes, Nat.zero_add]
    exact Bool.toNat_le _
  | @starts d₁ _ _ _ _ _ hyields =>
    rw [hyields.passes]
    exact Bool.toNat_le _
  | resumes _ h hf | fails _ h hf => exact absurd hrest (not_atRest_of_stack h hf)

/-- At rest nothing waits if no admitted call runs and sync calls leave a slot. -/
theorem ready_eq_nil_of_atRest (hcreate : create limits = .ok (d₀, notices))
    (h : d₀.follow actions = .ok (d, es)) (hrest : d.AtRest)
    (hpromoting : d.pending = true → d.promoting = true) (hrunning : d.ledger.queue.running = [])
    (hroom : d.ledger.queue.sync.length < d.ledger.queue.limits.maxRequests.toNat) :
    d.ledger.queue.ready = [] := by
  have hsound := sound_of_follow hcreate h
  have hdown := promoting_eq_false_of_atRest (latched_of_follow hcreate h) hrest
  have hpending : d.pending = false := by
    rw [← Bool.not_eq_true]
    exact fun hp => absurd (hpromoting hp) (Bool.eq_false_iff.1 hdown)
  have hhost := ((Limits.validate_eq_ok_iff _).1 hsound.valid).2
  have hcount : d.ledger.queue.runningCount = d.ledger.queue.sync.length := by
    rw [Queue.runningCount, hrunning, List.length_nil, Nat.zero_add]
  exact (hsound.served hpending).settled.ready_eq_nil_of_room (hcount ▸ hroom) hhost hrunning

/-- A call that has waited, and neither waits nor runs, has ended. -/
theorem exists_ended_of_waits (hcreate : create limits = .ok (d₀, notices))
    (h : d₀.follow actions = .ok (d, es)) (hready : t ∉ d.ledger.queue.queuedCalls)
    (hrunning : t ∉ d.ledger.queue.running.map (·.call)) (ht : .waits t ∈ marks es) :
    ∃ e, Stands d.ledger (d₀.endingsOf actions) (marks es) t (.ended e) := by
  obtain ⟨s, hs⟩ := (kept_of_follow hcreate h).stage t
  have hway := (mem_way rfl).1 ht
  have hplace : counts d.ledger.queue t = s.counts := hs.place
  rw [hs.trace] at hway
  rw [counts, List.count_eq_zero_of_not_mem hready, List.count_eq_zero_of_not_mem hrunning]
    at hplace
  cases s with
  | ended e => exact ⟨e, hs⟩
  | waiting | admitted => cases hplace
  | absent | sync | syncEnded => simp [Stage.way] at hway

/-- **Draining.** If the executor ends each call that it is given before it gives control back, and
neither it nor the callback panics, stays away, or submits calls without end, then every operation
returns. It runs one pass at most beside those that are asked for meanwhile. It leaves no admitted
call running; and unless sync calls take all slots, no call waits, and every call that was ever
submitted to wait has ended. -/
theorem drained_of_inline (hcreate : create limits = .ok (d₀, notices)) (j : Journey d₀)
    (hj : j.Inline) (hrest : (j.state n).AtRest) (hop : (j.action n).isOperation = true) :
    ∃ m, j.Drained n m := by
  obtain ⟨m, hreturns⟩ := Journey.exists_returns hcreate hj hrest hop
  have hback : (j.state m).AtRest := by
    rw [AtRest, hreturns.stack]
    exact hrest
  have hinlined := Journey.inlined hcreate hj m
  have hrunning := hinlined.running_eq_nil hback
  refine ⟨m, hreturns, ?_, hrunning, fun hroom => ?_⟩
  · have hfirst := step_passCount_of_atRest (Journey.latched hcreate n) hrest (j.step n)
    have hothers := Journey.passCount_le (j := j) (n := n + 1) hcreate hreturns.later
    rw [j.next] at hothers
    rw [j.events_append (Nat.le_add_right n 1) hreturns.later, j.events_succ (Nat.le_refl n),
      Journey.events_self, List.nil_append, passCount_append]
    omega
  · have hready := ready_eq_nil_of_atRest hcreate (j.follow_upto m) hback hinlined.promoting
      hrunning hroom
    refine ⟨hready, fun t host duplex load ht => ?_⟩
    obtain ⟨e, hs⟩ := exists_ended_of_waits hcreate (j.follow_upto m) (t := t)
      (by simp [Queue.queuedCalls, hready]) (by simp [hrunning]) (List.mem_filterMap.2 ⟨_, ht, rfl⟩)
    obtain ⟨call, hcall, hterminal⟩ := Option.map_eq_some_iff.1 hs.status
    exact ⟨call, hcall, hterminal ▸ Outcome.isTerminal_status _⟩

/-! ## journeys along a course -/

/-- The tokens that there are when an activity returns. -/
def tokensAtReturn (d : Dispatcher) (actions : List Action) : List (List Ticket) :=
  gather (fun d a _ => match a with | .leave => [d.tokens] | _ => []) d actions

/-- A course at the end of which a pass ends is the beginning of a journey on which whoever is invoked
gives control back. -/
theorem exists_responds_of_follow {d₁ : Dispatcher} {es₁ : List Event}
    (h : d₀.follow (actions ++ [.leave]) = .ok (d, es)) (hrest : d.AtRest)
    (h₁ : d₀.follow actions = .ok (d₁, es₁)) (hpass : ∃ f ∈ d₁.stack.head?, f.isPass = true) :
    ∃ j : Journey d₀, j.upto (actions.length + 1) = actions ++ [.leave] ∧
      (∀ k, actions.length < k → (j.state k).AtRest ∧ ∃ idle, j.action k = .setIdle idle) ∧
      ∀ n, j.Responds n := by
  obtain ⟨j, hupto, hlater⟩ := exists_journey_of_follow h
  rw [List.length_append, List.length_singleton] at hupto hlater
  have hend : j.state actions.length = d₁ := by
    have hprefix : d₀.follow ((j.upto (actions.length + 1)).take actions.length) =
        .ok (d₁, es₁) := by
      rw [hupto, List.take_left]
      exact h₁
    exact j.state_eq_of_follow (Nat.le_succ _) hprefix
  have hlast : j.action actions.length = .leave := by
    have hget := j.getElem?_upto (Nat.lt_succ_self actions.length)
    rw [hupto, List.getElem?_concat_length] at hget
    exact (Option.some.inj hget).symm
  have hresting : ∀ k, actions.length < k → (j.state k).AtRest := by
    intro k hk
    rw [(hlater k hk).1]
    exact hrest
  refine ⟨j, hupto, fun k hk => ⟨hresting k hk, _, (hlater k hk).2.1⟩, fun n => ⟨?_, ?_⟩⟩
  · intro k _ hbusy
    have hk : k ≤ actions.length := by
      by_contra hlt
      exact hbusy (hresting k (Nat.lt_of_not_le hlt))
    exact ⟨actions.length, hk, hlast, hend ▸ hpass⟩
  · intro k _ hbusy
    exact absurd (hresting (max k actions.length + 1) (by omega)) (hbusy _ (by omega))

/-- Where only the callback is registered after a course, nothing is done that the course does not
do. -/
theorem Journey.action_ne {j : Journey d₀} (hbetween : j.between n m = actions ++ [.leave])
    (hlater : ∀ k, m ≤ k → ∃ idle, j.action k = .setIdle idle) (hk : n ≤ k) {a : Action}
    (ha : a ∉ actions) (hleave : a ≠ .leave) (hidle : ∀ idle, a ≠ .setIdle idle) :
    j.action k ≠ a := by
  rintro rfl
  rcases Nat.lt_or_ge k m with hlt | hge
  · have hmem : j.action k ∈ j.between n m := List.mem_map.2 ⟨k, List.Ico.mem.2 ⟨hk, hlt⟩, rfl⟩
    rw [hbetween, List.mem_append, List.mem_singleton] at hmem
    exact hmem.elim ha hleave
  · obtain ⟨idle, hset⟩ := hlater k hge
    exact hidle idle hset

/-- A course without panics is the beginning of a journey with an executor that works inline, if no
tokens are left when an activity returns, and a pass ends with the last return. -/
theorem exists_inline_of_follow {d₁ : Dispatcher} {es₁ : List Event}
    (h : d₀.follow (actions ++ [.leave]) = .ok (d, es)) (hrest : d.AtRest)
    (hcalm : ∀ message, .panic message ∉ actions)
    (htokens : ∀ ts ∈ d₀.tokensAtReturn (actions ++ [.leave]), ts = [])
    (h₁ : d₀.follow actions = .ok (d₁, es₁)) (hpass : ∃ f ∈ d₁.stack.head?, f.isPass = true) :
    ∃ j : Journey d₀, j.upto (actions.length + 1) = actions ++ [.leave] ∧ j.Inline := by
  obtain ⟨j, hupto, hlater, hresponds⟩ := exists_responds_of_follow h hrest h₁ hpass
  refine ⟨j, hupto, fun k => ⟨fun message hk => ?_, fun hk t rest idle reply stack _ => ?_⟩,
    fun k => (hresponds 0).returns k (Nat.zero_le k),
    (Set.finite_le_nat actions.length).subset fun k hk => ?_⟩
  · exact absurd hk (Journey.action_ne ((j.between_zero _).trans hupto)
      (fun k hk => (hlater k hk).2) (Nat.zero_le k) (hcalm message) (by simp) (by simp))
  · rcases Nat.lt_or_ge k (actions.length + 1) with hlt | hge
    · have hmem : (j.state k).tokens ∈ d₀.tokensAtReturn (actions ++ [.leave]) := by
        rw [tokensAtReturn, ← hupto, j.gather_upto, List.mem_flatMap]
        exact ⟨k, List.mem_range.2 hlt, by rw [hk]; exact List.mem_singleton_self _⟩
      rw [htokens _ hmem]
      exact List.not_mem_nil
    · obtain ⟨-, idle, hidle⟩ := hlater k hge
      cases hk.symm.trans hidle
  · by_contra hlt
    exact hk.1 (hlater k (Nat.lt_of_not_le hlt)).1

/-- The executor submits a call while it has another one, and reports the first and drops the
second; both it and the callback change limits. -/
def drainingCourse : List Action :=
  [.setIdle (some 7),
    .submit ⟨⟨"a"⟩, false⟩, .submit ⟨⟨"b"⟩, false⟩, .report 0 (.ok ()), .leave,
    .setLimit .total 3, .abandon 1, .leave,
    -- the callback
    .setLimit .perHost 2]

theorem drained_of_drainingCourse :
    ∃ d₀ notices, ∃ j : Journey d₀, create ⟨1, 1⟩ = .ok (d₀, notices) ∧
      j.upto 10 = drainingCourse ++ [.leave] ∧ j.Inline ∧ (j.state 1).AtRest ∧
      (j.action 1).isOperation = true ∧ ∃ m, j.Drained 1 m := by
  obtain ⟨d₀, notices, d, es, d₁, es₁, d₂, es₂, idle, reply, hcreate, hcourse, hlast, htokens, h₁,
    hfirst, h₂, hidle⟩ :
      ∃ d₀ notices d es d₁ es₁ d₂ es₂ idle reply, create ⟨1, 1⟩ = .ok (d₀, notices) ∧
        d₀.follow (drainingCourse ++ [.leave]) = .ok (d, es) ∧ d.stack = [] ∧
        d₀.tokensAtReturn (drainingCourse ++ [.leave]) = [[], [], []] ∧
        d₀.follow (drainingCourse.take 1) = .ok (d₁, es₁) ∧ d₁.stack = [] ∧
        d₀.follow drainingCourse = .ok (d₂, es₂) ∧ d₂.stack = [.idle idle reply] :=
    ⟨_, _, _, _, _, _, _, _, _, _, rfl, rfl, rfl, rfl, rfl, rfl, rfl, rfl⟩
  have hrest : d.AtRest := atRest_of_stack_eq_nil hlast
  have hcalm : ∀ message, .panic message ∉ drainingCourse := by simp [drainingCourse]
  have hnone : ∀ ts ∈ d₀.tokensAtReturn (drainingCourse ++ [.leave]), ts = [] := by
    simp [htokens]
  have hpass : ∃ f ∈ d₂.stack.head?, f.isPass = true := ⟨_, by rw [hidle]; rfl, rfl⟩
  obtain ⟨j, hupto, hinline⟩ := exists_inline_of_follow hcourse hrest hcalm hnone h₂ hpass
  change j.upto 10 = _ at hupto
  have hstart : (j.state 1).AtRest := by
    have hfollow : d₀.follow ((j.upto 10).take 1) = .ok (d₁, es₁) := by
      rw [hupto]
      exact h₁
    rw [j.state_eq_of_follow (by decide) hfollow]
    exact atRest_of_stack_eq_nil hfirst
  have hop : (j.action 1).isOperation = true := by
    have hsome : (drainingCourse ++ [.leave])[1]? = some (j.action 1) :=
      hupto ▸ j.getElem?_upto (by decide)
    rw [← Option.some.inj hsome]
    rfl
  exact ⟨d₀, notices, j, hcreate, hupto, hinline, hstart, hop,
    drained_of_inline hcreate j hinline hstart hop⟩

end CallAdmission.Dispatcher
