import CallAdmission.Proofs.Dispatcher.Drain
import CallAdmission.Proofs.Dispatcher.Reply

/-!
# CallAdmission.Proofs.Dispatcher.Shutdown

What becomes of calls when the runtime that carries them out is shut down. The executor makes a run
of each call that it is given, and leaves the run to a runtime. Once that is shut down it drops the
runs that it has, and later every run as soon as it is given it. A run that is dropped abandons its
call, so its slot is free, and a pass hands the next calls to the same runtime.

* `Journey.ShutDown` — what is asked of the executor, of the runtime, and of the callback;
* `Journey.running_eq_nil` — between operations no admitted call is left;
* `Journey.ShutDown.ending_eq` — calls come to no other end any more;
* `Journey.exists_answers` — what was left to a pass is answered;
* `abandoned_of_shutDown` — all calls are abandoned, and operations go on as before.
-/

namespace CallAdmission.Dispatcher

variable {limits : Limits} {notices : List Notice} {d₀ d : Dispatcher} {actions : List Action}
  {a : Action} {turn : Turn} {es : List Event} {t : Ticket} {e : Ending} {f : Frame}
  {reply : Reply} {stack : List Frame} {n m k i : ℕ}

/-- The call whose hand-over returns. -/
def returned? (d : Dispatcher) (a : Action) : Option Ticket :=
  match a, d.stack with
  | .leave, .execute t _ _ _ :: _ => some t
  | _, _ => none

theorem returned?_leave {rest : List Ticket} {idle : Option Callback}
    (h : d.stack = .execute t rest idle reply :: stack) : d.returned? .leave = some t := by
  simp [returned?, h]

namespace Journey

/-- The executor leaves calls to a runtime, which is shut down right before one step. -/
structure ShutDown (j : Journey d₀) (n : ℕ) : Prop extends j.Responds n where
  /-- neither the executor nor the callback panics -/
  calm : ∀ k message, j.action k = .panic message →
    ∀ f ∈ (j.state k).stack.head?, f.isPass = false
  /-- the executor makes a run of each call that it is given -/
  spawns : ∀ k, ∀ t ∈ (j.state k).returned? (j.action k), t ∉ (j.state k).held
  /-- no operation is in progress -/
  stack : (j.state n).stack = []
  /-- each run that there is will be dropped -/
  dropped : ∀ run ∈ (j.state n).runs, ∃ k, n ≤ k ∧ j.action k = .dropRun run.call
  /-- each run that is made from then on is dropped before the executor returns -/
  rejects : ∀ k, n ≤ k → ∀ t ∈ (j.state k).returned? (j.action k), t ∉ (j.state k).tokens
  /-- no run is polled any more -/
  unpolled : ∀ k t, n ≤ k → j.action k ≠ .pollRun t
  /-- the executor reports no results itself -/
  unreported : ∀ k t r, n ≤ k → j.action k ≠ .report t r

/-- All runs that there were at the shutdown have been dropped. -/
def Down (j : Journey d₀) (n k : ℕ) : Prop :=
  n ≤ k ∧ ∀ run ∈ (j.state n).runs, ∃ i, n ≤ i ∧ i < k ∧ j.action i = .dropRun run.call

/-- The call was submitted from one step on, before another one. -/
def Submitted (j : Journey d₀) (n k : ℕ) (t : Ticket) : Prop :=
  ∃ i r, n ≤ i ∧ i < k ∧ j.action i = .submit r ∧ (j.state i).next = t

/-- The call has come to its end once: it was abandoned, and that is on record. -/
structure Abandoned (j : Journey d₀) (k : ℕ) (t : Ticket) : Prop where
  once : endingsAt t (d₀.endingsOf (j.upto k)) = [.abandoned]
  record : ∃ call, (j.state k).ledger.call? t = some call ∧ call.status = .failed ∧
    call.error = some "Call abandoned by executor"

/-- What is left between operations after a shutdown. -/
structure Cleared (j : Journey d₀) (n k : ℕ) : Prop where
  running : (j.state k).ledger.queue.running = []
  admitted : ∀ t ∈ (j.state n).ledger.queue.running.map (·.call), j.Abandoned k t
  /-- unless sync calls take all slots, nothing waits, and whatever has waited since the shutdown was
  abandoned without a task -/
  waiting : (j.state k).ledger.queue.sync.length <
      (j.state k).ledger.queue.limits.maxRequests.toNat →
    (j.state k).ledger.queue.ready = [] ∧
      ∀ t, t ∈ (j.state n).ledger.queue.queuedCalls ∨ j.Submitted n k t →
        j.Abandoned k t ∧ t ∉ works (j.events 0 k)

/-- A dispatcher after the shutdown of the runtime. -/
structure WindsDown (j : Journey d₀) (n : ℕ) : Prop where
  /-- no pass goes on for ever -/
  rests : ∀ k, n ≤ k → ∃ m, k < m ∧ (j.state m).AtRest
  down : ∃ k, j.Down n k
  cleared : ∀ k, j.Down n k → (j.state k).AtRest → j.Cleared n k
  /-- a call that is submitted is returned -/
  submits : ∀ k r, n ≤ k → j.action k = .submit r → ∃ m, k < m ∧
    Answers (j.state k).stack.length (.submitted (j.state k).next) (j.state k) (j.between k m)
  /-- no operation panics, unless the work of a sync call has -/
  calm : ∀ k message, n ≤ k → (j.turn k).reply = some (.panicked message) → ∃ i t stack,
    n ≤ i ∧ i ≤ k ∧ (j.state i).stack = .pollSync t :: stack ∧ j.action i = .panic message

end Journey

/-! ## what the executor holds -/

theorem held_markAllCanceled (d : Dispatcher) (ts : List Ticket) :
    (d.markAllCanceled ts).dispatcher.held = d.held := by
  induction ts generalizing d with
  | nil => rfl
  | cons t ts ih => exact ih (d.markCanceled t).dispatcher

theorem Ends.held_subset {d₁ : Dispatcher} {o : Outcome} (h : Ends a d es t o d₁) :
    d₁.held ⊆ d.held := by
  cases h with
  | report h | abandon h =>
    obtain ⟨-, rfl⟩ := takeHeld_eq_ok h
    exact List.erase_subset
  | cancelUnstarted h | cancelStarted h | dropRun h =>
    obtain ⟨-, rfl⟩ := takeRun_eq_ok h
    exact List.Subset.refl _
  | cancelOpened | resolve | panicOpening | panicPolled => exact List.Subset.refl _

theorem EndsSync.held_eq {d₁ : Dispatcher} {o : Outcome} (h : EndsSync a d es t o d₁) :
    d₁.held = d.held := by
  cases h with
  | finishGuard h | dropGuard h =>
    obtain ⟨-, rfl⟩ := takeGuard_eq_ok h
    rfl
  | cancelStarted h | dropRun h =>
    obtain ⟨-, rfl⟩ := takeSyncRun_eq_ok h
    rfl
  | resolve | panicPolled => rfl

/-- The executor holds no call but those that it is given. -/
theorem Move.mem_held {m m₁ : Moment} {u : Ticket} (h : Move a m es m₁)
    (hu : u ∈ m₁.dispatcher.held) : u ∈ m.dispatcher.held ∨ u ∈ handed es := by
  cases h with
  | complete h | miss h => exact .inl (h.held_subset hu)
  | completeSync h | missSync h => exact .inl (h.held_eq ▸ hu)
  | cancelAll => exact .inl (held_markAllCanceled _ _ ▸ hu)
  | startSync _ h | dropUnstarted _ h | pollSync _ h =>
    obtain ⟨-, rfl⟩ := takeSyncRun_eq_ok h
    exact .inl hu
  | openRun _ h =>
    obtain ⟨-, rfl⟩ := takeHeld_eq_ok h
    exact .inl (List.mem_of_mem_erase hu)
  | openTask _ h | pollTask _ h =>
    obtain ⟨-, rfl⟩ := takeRun_eq_ok h
    exact .inl hu
  | handOver => exact List.mem_append.1 hu
  | _ => exact .inl hu

theorem step_mem_held (hd : Moment.Latched ⟨d, .outside⟩) (hstep : d.step a = .ok turn)
    (ht : t ∈ turn.dispatcher.held) : t ∈ d.held ∨ t ∈ handed turn.events := by
  have hstart : t ∈ d.held → t ∈ d.held ∨ t ∈ handed [] := .inl
  refine (reaches_step hd hstep).induction
    (P := fun es m => t ∈ m.dispatcher.held → t ∈ d.held ∨ t ∈ handed es) ?_ hstart ht
  intro before m es m₁ hm hmove hmem
  rw [handed_append, List.mem_append]
  rcases hmove.mem_held hmem with hbefore | hnow
  · exact (hm hbefore).imp_right .inl
  · exact .inr (.inr hnow)

/-- The executor holds only calls that it is being given. -/
def Holds (d : Dispatcher) : Prop :=
  ∀ t ∈ d.held, ∃ rest idle reply, .execute t rest idle reply ∈ d.stack

/-- If the executor makes a run of each call that it is given, it holds none for longer. -/
theorem step_holds (hd : Moment.Latched ⟨d, .outside⟩) (hstep : d.step a = .ok turn)
    (hmisses : ∀ u, .misses u ∉ marks turn.events)
    (hcalm : ∀ message, a = .panic message → ∀ f ∈ d.stack.head?, f.isPass = false)
    (hspawns : ∀ t ∈ d.returned? a, t ∉ d.held) (h : d.Holds) : turn.dispatcher.Holds := by
  intro t ht
  rcases step_mem_held hd hstep ht with hheld | hhanded
  · obtain ⟨rest, idle, reply, hmem⟩ := h t hheld
    obtain ⟨inner, below, hstack⟩ := List.append_of_mem hmem
    rcases step_below hd hstep hstack with ⟨inner', habove⟩ | ⟨htop, -, hcloses⟩
    · exact ⟨rest, idle, reply, by simp [habove]⟩
    · cases hcloses with
      | passes => exact absurd hheld (hspawns t (returned?_leave htop))
      | fails => exact absurd (hcalm _ rfl _ (by rw [htop]; rfl)) (by simp [Frame.isPass])
      | opens hf | cancels hf | resolves hf | resolvesSync hf => cases hf
      | suspends hf => rcases hf with hf | hf <;> cases hf
      | panics hf => cases hf
  · obtain ⟨e, he, hcall⟩ := List.mem_filterMap.1 hhanded
    cases e with
    | handedOver u =>
      obtain rfl := Option.some.inj hcall
      obtain ⟨f, below, hstack, hf, hhandOffs, -⟩ := (step_exclusive hd hstep hmisses).alone _ he rfl
      have hmem : .handedOver u ∈ f.handOff := by
        rw [← hhandOffs]
        exact List.mem_filter.2 ⟨he, rfl⟩
      cases f with
      | execute v rest idle reply =>
        cases List.mem_singleton.1 hmem
        exact ⟨rest, idle, reply, by simp [hstack]⟩
      | idle => cases List.mem_singleton.1 hmem
      | openTask | pollTask | pollSync => cases hf
    | _ => cases hcall

/-! ## how tokens come to their end -/

theorem mem_syncTokens_of_isStarted (h : d.isStarted t = true) : t ∈ d.syncTokens := by
  obtain ⟨run, hfind, hstarted⟩ := (Option.any_eq_true _ _).1 h
  have hrun : run ∈ d.syncRuns.filter (·.started) :=
    List.mem_filter.2 ⟨List.mem_of_find?_eq_some hfind, hstarted⟩
  have hcall : run.call = t := by simpa using List.find?_some hfind
  have hmem : t ∈ (d.syncRuns.filter (·.started)).map (·.call) := List.mem_map.2 ⟨run, hrun, hcall⟩
  exact List.mem_append_left _ (List.mem_append_right _ hmem)

/-- Where no run is polled and no result reported, the token of an admitted call comes to its end
only when it is dropped. -/
theorem eq_abandoned_of_mem_endings (hstep : d.step a = .ok turn) (hpoll : ∀ t, a ≠ .pollRun t)
    (hreport : ∀ t r, a ≠ .report t r)
    (htasks : ∀ t, .openTask t ∉ d.stack ∧ .pollTask t ∉ d.stack) (h : (t, e) ∈ d.endings a) :
    e = .abandoned ∨ t ∈ d.syncTokens := by
  cases a with
  | report u r => exact absurd rfl (hreport u r)
  | pollRun u => exact absurd rfl (hpoll u)
  | abandon | dropRun => exact .inl (congrArg Prod.snd (List.mem_singleton.1 h))
  | finishGuard u r | dropGuard u =>
    obtain ⟨d₁, htake, -⟩ := exists_of_bind_eq_ok hstep
    obtain ⟨hmem, -⟩ := takeGuard_eq_ok htake
    obtain rfl : t = u := congrArg Prod.fst (List.mem_singleton.1 h)
    exact .inr (List.mem_append_left _ (List.mem_append_left _ hmem))
  | pollSyncRun u =>
    simp only [endings, Bool.and_eq_true, List.mem_ite_nil_right, List.mem_singleton] at h
    cases h.2
    exact .inr (mem_syncTokens_of_isStarted h.1.1)
  | dropSyncRun u =>
    simp only [endings, List.mem_ite_nil_right, List.mem_singleton] at h
    cases h.2
    exact .inr (mem_syncTokens_of_isStarted h.1)
  | leave =>
    simp only [endings] at h
    split at h
    · next u _ hstack => exact absurd (hstack ▸ List.mem_cons_self) (htasks u).1
    · cases h
  | resolve r =>
    simp only [endings] at h
    split at h
    · next u _ hstack => exact absurd (hstack ▸ List.mem_cons_self) (htasks u).2
    · next hstack =>
      cases List.mem_singleton.1 h
      exact .inr (by simp [syncTokens, hstack, Frame.syncTokens])
    · cases h
  | panic message =>
    simp only [endings] at h
    split at h
    · obtain ⟨u, -, hu⟩ := List.mem_map.1 h
      cases hu
      exact .inl rfl
    · exact .inl (congrArg Prod.snd (List.mem_singleton.1 h))
    · exact .inl (congrArg Prod.snd (List.mem_singleton.1 h))
    · next hstack =>
      cases List.mem_singleton.1 h
      exact .inr (by simp [syncTokens, hstack, Frame.syncTokens])
    · cases h
    · cases h
  | submit | submitSync | executeSync | openRun | suspend | setLimit | setIdle | cancel
  | cancelAll => cases h

namespace Journey

variable {j : Journey d₀} (hcreate : create limits = .ok (d₀, notices))

include hcreate

/-! ## what a journey keeps -/

theorem matched (k : ℕ) : (j.state k).Matched :=
  (kept_of_follow hcreate (j.follow_upto k)).matched

/-- Before each step a call stands at a stage. -/
theorem stands (t : Ticket) (k : ℕ) : ∃ s,
    Stands (j.state k).ledger (d₀.endingsOf (j.upto k)) (marks (j.events 0 k)) t s :=
  (kept_of_follow hcreate (j.follow_upto k)).stage t

theorem not_misses (k : ℕ) : ∀ t, .misses t ∉ marks (j.turn k).events :=
  not_misses_of_step hcreate (j.follow_upto k) (j.step k)

omit hcreate

theorem way_mono (h : i ≤ k) :
    way t (marks (j.events 0 i)) <+: way t (marks (j.events 0 k)) := by
  rw [j.events_append (Nat.zero_le i) h, marks_append, way_append]
  exact List.prefix_append _ _

/-- The token of a call came to its end in one of the steps. -/
theorem mem_endingsOf : (t, e) ∈ d₀.endingsOf (j.upto k) ↔
    ∃ i < k, (t, e) ∈ (j.state i).endings (j.action i) := by
  rw [endingsOf, j.gather_upto, List.mem_flatMap]
  simp only [List.mem_range]

theorem mem_works : t ∈ works (j.events 0 k) ↔ ∃ i < k, t ∈ works (j.turn i).events := by
  induction k with
  | zero => simp
  | succ k ih =>
    rw [j.events_succ (Nat.zero_le k), works_append, List.mem_append, ih]
    constructor
    · rintro (⟨i, hi, hmem⟩ | hmem)
      · exact ⟨i, Nat.lt_succ_of_lt hi, hmem⟩
      · exact ⟨k, Nat.lt_succ_self k, hmem⟩
    · rintro ⟨i, hi, hmem⟩
      rcases Nat.lt_succ_iff_lt_or_eq.1 hi with hi | rfl
      · exact .inl ⟨i, hi, hmem⟩
      · exact .inr hmem

include hcreate

/-- A call that is submitted waits, and has not ended or begun to run before. -/
theorem waits_of_submitted (ht : j.Submitted n k t) :
    .waits t ∈ marks (j.events 0 k) ∧ endingsAt t (d₀.endingsOf (j.upto n)) = [] ∧
      .runs t ∉ marks (j.events 0 n) := by
  obtain ⟨i, r, hni, hik, ha, rfl⟩ := ht
  have hfresh : way (j.state i).next (marks (j.events 0 i)) = [] :=
    (kept_of_follow hcreate (j.follow_upto i)).fresh _ (.inl (Nat.le_refl _))
  have hnone : way (j.state i).next (marks (j.events 0 n)) = [] :=
    List.prefix_nil.1 (hfresh ▸ way_mono hni)
  obtain ⟨s, hs⟩ := stands hcreate (j.state i).next n
  obtain rfl := hs.eq_absent hnone
  refine ⟨?_, hs.token, ?_⟩
  · have hstep := j.step i
    rw [ha] at hstep
    have hwaits : .waits (j.state i).next ∈ marks (j.turn i).events := by
      rw [← Except.ok.inj hstep]
      exact List.mem_cons_self
    have hevents := way_mono (j := j) (t := (j.state i).next) (Nat.succ_le_of_lt hik)
    refine (mem_way rfl).2 (hevents.subset ((mem_way rfl).1 ?_))
    rw [j.events_succ (Nat.zero_le i), marks_append]
    exact List.mem_append_right _ hwaits
  · rw [mem_way (t := (j.state i).next) rfl, hnone]
    exact List.not_mem_nil

/-- Unless the executor or the callback panics, a pass is wanted only while one is under way. -/
theorem promoting_of_pending (hcalm : ∀ k message, j.action k = .panic message →
    ∀ f ∈ (j.state k).stack.head?, f.isPass = false) (k : ℕ) :
    (j.state k).pending = true → (j.state k).promoting = true := by
  induction k with
  | zero =>
    rw [j.start]
    obtain ⟨-, rfl⟩ := create_eq_ok hcreate
    exact nofun
  | succ k ih =>
    rw [j.next]
    exact step_promoting (latched hcreate k) (j.step k) (hcalm k) ih

/-! ## what is answered -/

omit hcreate in
/-- A reply that is given in a step, or left to a pass that answers later. -/
theorem answers_of_carries (h : Carries reply stack (j.turn i))
    (hlater : ∀ f, (j.state (i + 1)).stack = f :: stack → f.reply? = some reply → ∃ m, i + 1 < m ∧
      Answers stack.length reply (j.state (i + 1)) (j.between (i + 1) m)) :
    ∃ m, i < m ∧ Answers stack.length reply (j.state i) (j.between i m) := by
  cases h with
  | given hstack hreply =>
    refine ⟨i + 1, Nat.lt_succ_self i, ?_⟩
    rw [between_eq_cons j (Nat.lt_succ_self i), between, List.Ico.self_empty]
    exact .last (j.step i) (congrArg List.length hstack) hreply
  | @left f hstack hf hreply =>
    rw [← j.next] at hstack
    obtain ⟨m, hm, hanswers⟩ := hlater f hstack hf
    have hdeep := length_ne_of_below [] hstack
    rw [j.next] at hdeep hanswers
    refine ⟨m, Nat.lt_of_succ_lt hm, ?_⟩
    rw [between_eq_cons j (Nat.lt_of_succ_lt hm)]
    exact .later (j.step i) hdeep hanswers

/-- What an operation has left to its pass is answered when the pass ends. -/
theorem exists_answers (hcalm : ∀ k message, j.action k = .panic message →
      ∀ f ∈ (j.state k).stack.head?, f.isPass = false) (him : i ≤ m) (hrest : (j.state m).AtRest)
    (inner : List Frame) (hstack : (j.state i).stack = inner ++ f :: stack)
    (hf : f.reply? = some reply) :
    ∃ l, i < l ∧ Answers stack.length reply (j.state i) (j.between i l) := by
  have hpass : f.isPass = true := by cases f <;> first | rfl | cases hf
  induction him using Nat.decreasingInduction generalizing inner f with
  | self =>
    have hnot := hrest f (by rw [hstack]; simp)
    rw [hpass] at hnot
    cases hnot
  | of_succ i _ ih =>
    rcases step_below (latched hcreate i) (j.step i) hstack with ⟨inner', habove⟩ | ⟨htop, -, hcloses⟩
    · rw [← j.next] at habove
      obtain ⟨l, hl, hanswers⟩ := ih inner' habove hf hpass
      have hdeep := length_ne_of_below _ habove
      rw [j.next] at hdeep hanswers
      refine ⟨l, Nat.lt_of_succ_lt hl, ?_⟩
      rw [between_eq_cons j (Nat.lt_of_succ_lt hl)]
      exact .later (j.step i) hdeep hanswers
    · rcases hcloses.of_pass hf with hcarries | ⟨-, message, ha, -⟩
      · exact answers_of_carries hcarries fun g hg hreply =>
          ih [] hg hreply (by cases g <;> first | rfl | cases hreply)
      · have hforeign := hcalm i message ha f (by rw [htop]; rfl)
        rw [hpass] at hforeign
        cases hforeign

/-! ## after the shutdown -/

omit hcreate in
/-- From the shutdown on the executor ends each call that it is given before it returns. -/
theorem ShutDown.completes (hj : j.ShutDown n) (hk : n ≤ k) :
    Completes (j.state k) (j.action k) where
  calm := hj.calm k
  ends ha t rest idle reply stack hstack :=
    hj.rejects k hk t (by rw [ha, returned?_leave hstack]; rfl)

section Shutdown

variable (hj : j.ShutDown n)

include hj

/-- At the shutdown the executor holds no call. -/
theorem held_eq_nil : (j.state n).held = [] := by
  have hholds : ∀ k, (j.state k).Holds := by
    intro k
    induction k with
    | zero =>
      rw [j.start]
      obtain ⟨-, rfl⟩ := create_eq_ok hcreate
      exact nofun
    | succ k ih =>
      rw [j.next]
      exact step_holds (latched hcreate k) (j.step k) (not_misses hcreate k) (hj.calm k)
        (hj.spawns k) ih
  rw [List.eq_nil_iff_forall_not_mem]
  intro t ht
  obtain ⟨rest, idle, reply, hmem⟩ := hholds n t ht
  rw [hj.stack] at hmem
  cases hmem

/-- No task is made or polled any more. -/
theorem not_mem_stack_of_le (hk : n ≤ k) (t : Ticket) :
    .openTask t ∉ (j.state k).stack ∧ .pollTask t ∉ (j.state k).stack := by
  induction k, hk using Nat.le_induction generalizing t with
  | base =>
    rw [hj.stack]
    exact ⟨List.not_mem_nil, List.not_mem_nil⟩
  | succ k hk ih =>
    rw [j.next]
    have hfollows := step_follows (latched hcreate k) (j.step k) (not_misses hcreate k)
    constructor
    · intro hmem
      rcases hfollows.stack _ hmem with hbefore | hbegins
      · exact (ih t).1 hbefore
      · cases hbegins with
        | passes hf => cases hf
        | polls ha => exact hj.unpolled k _ hk ha
    · intro hmem
      rcases hfollows.stack _ hmem with hbefore | hbegins
      · exact (ih t).2 hbefore
      · cases hbegins with
        | passes hf => cases hf
        | polls ha => exact hj.unpolled k _ hk ha
        | pollsOpened hopened => exact (ih t).1 hopened

/-- Whatever runs ran at the shutdown, unless a pass has it. -/
theorem running_subset (hk : n ≤ k) (ht : t ∈ (j.state k).ledger.queue.running.map (·.call)) :
    t ∈ (j.state k).stack.flatMap Frame.calls ∨
      t ∈ (j.state n).ledger.queue.running.map (·.call) := by
  induction k, hk using Nat.le_induction with
  | base => exact .inr ht
  | succ k hk ih =>
    rw [j.next] at ht ⊢
    refine (step_running hcreate (j.follow_upto k) (j.step k) (hj.completes hk) ht).imp_right
      fun hran => ?_
    exact (ih hran.1).resolve_left hran.2

/-- Between operations no admitted call is left. -/
theorem running_eq_nil (hdown : j.Down n k) (hrest : (j.state k).AtRest) :
    (j.state k).ledger.queue.running = [] := by
  rw [← List.map_eq_nil_iff (f := (·.call)), List.eq_nil_iff_forall_not_mem]
  intro t ht
  obtain ⟨hk, hdropped⟩ := hdown
  have hran := running_subset hcreate hj hk ht
  rw [flatMap_calls_eq_nil hrest] at hran
  have htoken := (matched hcreate n).tokens.mem_iff.2 (hran.resolve_left List.not_mem_nil)
  rw [tokens, held_eq_nil hcreate hj, hj.stack, List.nil_append, List.flatMap_nil, List.append_nil]
    at htoken
  obtain ⟨run, hrun, rfl⟩ := List.mem_map.1 htoken
  obtain ⟨i, -, hi, ha⟩ := hdropped run hrun
  -- its token has come to its end, so it runs no more
  obtain ⟨s, hs⟩ := stands hcreate run.call k
  obtain rfl := hs.eq_admitted ht
  have hends : (run.call, .abandoned) ∈ d₀.endingsOf (j.upto k) :=
    mem_endingsOf.2 ⟨i, hi, by rw [ha]; exact List.mem_singleton_self _⟩
  rw [← mem_endingsAt, hs.token] at hends
  cases hends

/-- A call that had not ended at the shutdown, and is none of the sync calls, is abandoned. -/
theorem ending_eq (hbefore : endingsAt t (d₀.endingsOf (j.upto n)) = [])
    (hs : Stands (j.state k).ledger (d₀.endingsOf (j.upto k)) (marks (j.events 0 k)) t (.ended e)) :
    e = .abandoned := by
  have hmem : e ∈ endingsAt t (d₀.endingsOf (j.upto k)) := hs.token ▸ List.mem_singleton_self e
  obtain ⟨i, hi, hends⟩ := mem_endingsOf.1 (mem_endingsAt.1 hmem)
  have hni : n ≤ i := by
    by_contra hlt
    have hearly := mem_endingsAt.2 (mem_endingsOf.2 ⟨i, Nat.lt_of_not_le hlt, hends⟩)
    rw [hbefore] at hearly
    cases hearly
  refine (eq_abandoned_of_mem_endings (j.step i) (fun u => hj.unpolled i u hni)
    (fun u r => hj.unreported i u r hni) (not_mem_stack_of_le hcreate hj hni) hends).resolve_right ?_
  intro hsync
  obtain ⟨s, hs'⟩ := stands hcreate t i
  obtain rfl := hs'.eq_sync ((matched hcreate i).syncTokens.mem_iff.1 hsync)
  have hway := way_mono (j := j) (t := t) (Nat.le_of_lt hi)
  rw [hs.trace, hs'.trace] at hway
  simp [Stage.way] at hway

/-- The task of a call that had not begun to run at the shutdown is never made. -/
theorem not_mem_works (hbefore : .runs t ∉ marks (j.events 0 n))
    (hs : Stands (j.state k).ledger (d₀.endingsOf (j.upto k)) (marks (j.events 0 k)) t (.ended e)) :
    t ∉ works (j.events 0 k) := by
  intro hmem
  obtain ⟨i, hi, hwork⟩ := mem_works.1 hmem
  obtain ⟨f, stack, hstack, hf, htokens⟩ := step_work (latched hcreate i) (j.step i) hwork
  rw [← j.next i] at hstack
  obtain ⟨s, hs'⟩ := stands hcreate t (i + 1)
  have hway := way_mono (j := j) (t := t) (Nat.succ_le_of_lt hi)
  rw [hs.trace, hs'.trace] at hway
  rcases List.mem_append.1 (htokens t (List.mem_singleton_self t)) with htoken | hsync
  · rcases Nat.lt_or_ge n (i + 1) with hlater | hearly
    · have htasks := not_mem_stack_of_le hcreate hj (Nat.le_of_lt hlater)
      have hmem : f ∈ (j.state (i + 1)).stack := hstack ▸ List.mem_cons_self
      cases f with
      | openTask u => exact (htasks u).1 hmem
      | pollTask u => exact (htasks u).2 hmem
      | execute | idle => cases hf
      | pollSync => cases htoken
    · have hmem : t ∈ (j.state (i + 1)).tokens := by simp [tokens, hstack, htoken]
      obtain rfl := hs'.eq_admitted ((matched hcreate (i + 1)).tokens.mem_iff.1 hmem)
      have hruns : .runs t ∈ way t (marks (j.events 0 (i + 1))) := by
        rw [hs'.trace]
        simp [Stage.way]
      exact hbefore ((mem_way rfl).2 ((way_mono hearly).subset hruns))
  · have hmem : t ∈ (j.state (i + 1)).syncTokens := by simp [syncTokens, hstack, hsync]
    obtain rfl := hs'.eq_sync ((matched hcreate (i + 1)).syncTokens.mem_iff.1 hmem)
    simp [Stage.way] at hway

/-- A call that had not ended at the shutdown, and neither waits nor runs any more, is abandoned. -/
theorem abandoned_of_waits (hbefore : endingsAt t (d₀.endingsOf (j.upto n)) = [])
    (hwaits : .waits t ∈ marks (j.events 0 k)) (hqueued : t ∉ (j.state k).ledger.queue.queuedCalls)
    (hrunning : t ∉ (j.state k).ledger.queue.running.map (·.call)) :
    j.Abandoned k t ∧ (.runs t ∉ marks (j.events 0 n) → t ∉ works (j.events 0 k)) := by
  obtain ⟨e, hs⟩ := exists_ended_of_waits hcreate (j.follow_upto k) hqueued hrunning hwaits
  obtain rfl := ending_eq hcreate hj hbefore hs
  obtain ⟨call, hcall, hstatus⟩ := Option.map_eq_some_iff.1 hs.status
  have herror : (some call).bind (·.error) = some "Call abandoned by executor" := hcall ▸ hs.failure
  exact ⟨⟨hs.token, call, hcall, hstatus, herror⟩,
    fun hruns => not_mem_works hcreate hj hruns hs⟩

/-- The calls that ran at the shutdown are abandoned. -/
theorem abandoned_of_running (hk : n ≤ k) (hrunning : (j.state k).ledger.queue.running = [])
    (ht : t ∈ (j.state n).ledger.queue.running.map (·.call)) : j.Abandoned k t := by
  obtain ⟨s, hs⟩ := stands hcreate t n
  obtain rfl := hs.eq_admitted ht
  have hway := way_mono (j := j) (t := t) hk
  rw [hs.trace] at hway
  have hwaits : .waits t ∈ marks (j.events 0 k) :=
    (mem_way rfl).2 (hway.subset (by simp [Stage.way]))
  refine (abandoned_of_waits hcreate hj hs.token hwaits (fun hqueued => ?_) (by simp [hrunning])).1
  obtain ⟨s, hs'⟩ := stands hcreate t k
  obtain rfl := hs'.eq_waiting hqueued
  rw [hs'.trace] at hway
  simp [Stage.way] at hway

/-- What is left between operations. -/
theorem cleared (hdown : j.Down n k) (hrest : (j.state k).AtRest) : j.Cleared n k := by
  have hrunning := running_eq_nil hcreate hj hdown hrest
  refine ⟨hrunning, fun t ht => abandoned_of_running hcreate hj hdown.1 hrunning ht,
    fun hroom => ?_⟩
  have hready := ready_eq_nil_of_atRest hcreate (j.follow_upto k) hrest
    (promoting_of_pending hcreate hj.calm k) hrunning hroom
  refine ⟨hready, fun t ht => ?_⟩
  obtain ⟨hwaits, hends, hruns⟩ : .waits t ∈ marks (j.events 0 k) ∧
      endingsAt t (d₀.endingsOf (j.upto n)) = [] ∧ .runs t ∉ marks (j.events 0 n) := by
    rcases ht with hqueued | hsubmitted
    · obtain ⟨s, hs⟩ := stands hcreate t n
      obtain rfl := hs.eq_waiting hqueued
      have hway := way_mono (j := j) (t := t) hdown.1
      rw [hs.trace] at hway
      refine ⟨(mem_way rfl).2 (hway.subset (List.mem_singleton_self _)), hs.token, ?_⟩
      rw [mem_way (t := t) rfl, hs.trace]
      simp [Stage.way]
    · exact waits_of_submitted hcreate hsubmitted
  have habandoned := abandoned_of_waits hcreate hj hends hwaits
    (by simp [Queue.queuedCalls, hready]) (by simp [hrunning])
  exact ⟨habandoned.1, habandoned.2 hruns⟩

/-- A call that is submitted is returned. -/
theorem answers_of_submit (hk : n ≤ k) {r : Request} (ha : j.action k = .submit r) :
    ∃ m, k < m ∧ Answers (j.state k).stack.length (.submitted (j.state k).next) (j.state k)
      (j.between k m) := by
  have hstep := j.step k
  rw [ha] at hstep
  have hcarries : Carries (.submitted (j.state k).next) (j.state k).stack (j.turn k) := by
    rw [← Except.ok.inj hstep]
    exact Carries.after (carries_requestPass (by rfl) _) _
  refine answers_of_carries hcarries fun f hstack hf => ?_
  obtain ⟨m, hm, hrest⟩ := exists_atRest hcreate hj.toResponds hk
  exact exists_answers hcreate hj.calm hm hrest [] hstack hf

/-- A reply that tells of a panic comes from the work of a sync call, or was left to a pass. -/
theorem panic_of_sourced {message : String} (hk : n ≤ k)
    (h : Sourced (j.state k) (j.action k) (.panicked message)) :
    (∃ t stack, (j.state k).stack = .pollSync t :: stack ∧ j.action k = .panic message) ∨
      ∃ f ∈ (j.state k).stack, f.reply? = some (.panicked message) := by
  cases h with
  | calm h => cases h
  | carried hf h => exact .inr ⟨_, hf, h⟩
  | @panics _ f stack ha hstack h =>
    cases h
    left
    have hpass := hj.calm k message ha f (by rw [hstack]; rfl)
    have htasks := not_mem_stack_of_le hcreate hj hk
    have hmem : f ∈ (j.state k).stack := hstack ▸ List.mem_cons_self
    cases f with
    | pollSync t => exact ⟨t, stack, hstack, ha⟩
    | openTask t => exact absurd hmem (htasks t).1
    | pollTask t => exact absurd hmem (htasks t).2
    | execute | idle => cases hpass

/-- No activity of a pass carries the reply to an operation that has panicked, unless the work of a
sync call has. -/
theorem panic_of_mem_stack (hk : n ≤ k) {message : String} (hmem : f ∈ (j.state k).stack)
    (hf : f.reply? = some (.panicked message)) : ∃ i t stack, n ≤ i ∧ i < k ∧
      (j.state i).stack = .pollSync t :: stack ∧ j.action i = .panic message := by
  induction k, hk using Nat.le_induction generalizing f with
  | base =>
    rw [hj.stack] at hmem
    cases hmem
  | succ k hk ih =>
    have hearlier : ∀ f ∈ (j.state k).stack, f.reply? = some (.panicked message) →
        ∃ i t stack, n ≤ i ∧ i < k + 1 ∧ (j.state i).stack = .pollSync t :: stack ∧
          j.action i = .panic message := by
      intro f hmem hf
      obtain ⟨i, t, stack, hni, hik, hpanic⟩ := ih hmem hf
      exact ⟨i, t, stack, hni, Nat.lt_succ_of_lt hik, hpanic⟩
    rw [j.next] at hmem
    have hfollows := step_follows (latched hcreate k) (j.step k) (not_misses hcreate k)
    rcases hfollows.stack f hmem with hbefore | hbegins
    · exact hearlier f hbefore hf
    · cases hbegins with
      | passes hf' hsource =>
        cases hf.symm.trans hf'
        rcases panic_of_sourced hcreate hj hk hsource with ⟨t, stack, hpanic⟩ | ⟨g, hg, hreply⟩
        · exact ⟨k, t, stack, hk, Nat.lt_succ_self k, hpanic⟩
        · exact hearlier g hg hreply
      | polls _ hnone =>
        rw [hnone] at hf
        cases hf
      | pollsOpened | pollsSync => cases hf

theorem panic_of_reply (hk : n ≤ k) {message : String}
    (hreply : (j.turn k).reply = some (.panicked message)) : ∃ i t stack, n ≤ i ∧ i ≤ k ∧
      (j.state i).stack = .pollSync t :: stack ∧ j.action i = .panic message := by
  have hfollows := step_follows (latched hcreate k) (j.step k) (not_misses hcreate k)
  rcases panic_of_sourced hcreate hj hk (hfollows.reply _ hreply) with
    ⟨t, stack, hpanic⟩ | ⟨f, hmem, hf⟩
  · exact ⟨k, t, stack, hk, Nat.le_refl k, hpanic⟩
  · obtain ⟨i, t, stack, hni, hik, hpanic⟩ := panic_of_mem_stack hcreate hj hk hmem hf
    exact ⟨i, t, stack, hni, Nat.le_of_lt hik, hpanic⟩

end Shutdown

omit hcreate in
/-- In the end all runs have been dropped that there were. -/
theorem ShutDown.exists_down (hj : j.ShutDown n) : ∃ k, j.Down n k := by
  have hdropped := hj.dropped
  unfold Down
  generalize (j.state n).runs = runs at hdropped ⊢
  induction runs with
  | nil => exact ⟨n, Nat.le_refl n, nofun⟩
  | cons run runs ih =>
    rw [List.forall_mem_cons] at hdropped
    obtain ⟨⟨i, hni, ha⟩, hrest⟩ := hdropped
    obtain ⟨k, hk, hdown⟩ := ih hrest
    refine ⟨k + i + 1, by omega, List.forall_mem_cons.2 ⟨⟨i, hni, by omega, ha⟩, ?_⟩⟩
    intro run' hrun'
    obtain ⟨i', hni', hi', ha'⟩ := hdown run' hrun'
    exact ⟨i', hni', by omega, ha'⟩

end Journey

/-- **Shutdown.** After the runtime is shut down that carries calls out, while no operation is in
progress, all its runs are dropped, in whatever order, and then no admitted call is left between
operations: each has failed as one that the executor abandoned. Unless sync calls take all slots, so
have all calls that waited, cancelled or not, and those that were submitted since, and no task was
ever made for them. Operations return as before, and none panics unless the work of a sync call
does. -/
theorem abandoned_of_shutDown (hcreate : create limits = .ok (d₀, notices)) (j : Journey d₀)
    (hj : j.ShutDown n) : j.WindsDown n where
  rests _ hk := Journey.exists_atRest hcreate hj.toResponds hk
  down := hj.exists_down
  cleared _ hdown hrest := Journey.cleared hcreate hj hdown hrest
  submits _ _ hk ha := Journey.answers_of_submit hcreate hj hk ha
  calm _ _ hk hreply := Journey.panic_of_reply hcreate hj hk hreply

/-! ## journeys along a course -/

/-- The calls that are found in some place when their hand-over returns. -/
def leftAtReturn (place : Dispatcher → List Ticket) (d : Dispatcher) (actions : List Action) :
    List Ticket :=
  gather (fun d a _ => (d.returned? a).toList.filter (· ∈ place d)) d actions

theorem Journey.not_mem_of_leftAtReturn {j : Journey d₀} (place : Dispatcher → List Ticket)
    (hnone : leftAtReturn place (j.state n) (j.between n m) = []) (hk : n ≤ k) (hkm : k < m)
    (ht : t ∈ (j.state k).returned? (j.action k)) : t ∉ place (j.state k) := by
  intro hmem
  rw [leftAtReturn, j.gather_between _ (Nat.le_trans hk (Nat.le_of_lt hkm)),
    List.flatMap_eq_nil_iff] at hnone
  have hleft : t ∈ ((j.state k).returned? (j.action k)).toList.filter (· ∈ place (j.state k)) :=
    List.mem_filter.2 ⟨Option.mem_toList.2 ht, decide_eq_true hmem⟩
  rw [hnone k (List.Ico.mem.2 ⟨hk, hkm⟩)] at hleft
  cases hleft

/-- A course without panics is the beginning of a journey on which the runtime is shut down after its
first part, if from then on runs are only dropped, and a pass ends with the last return. -/
theorem exists_shutDown_of_follow {before after : List Action} {d₁ d₂ : Dispatcher}
    {es₁ es₂ : List Event} (h₁ : d₀.follow before = .ok (d₁, es₁)) (hstack : d₁.stack = [])
    (h₂ : d₀.follow (before ++ after) = .ok (d₂, es₂))
    (hpass : ∃ f ∈ d₂.stack.head?, f.isPass = true)
    (h : d₀.follow (before ++ after ++ [.leave]) = .ok (d, es)) (hrest : d.AtRest)
    (hcalm : ∀ message, .panic message ∉ before ++ after)
    (hheld : leftAtReturn (·.held) d₀ (before ++ after ++ [.leave]) = [])
    (htokens : leftAtReturn tokens d₁ (after ++ [.leave]) = [])
    (hdropped : ∀ run ∈ d₁.runs, .dropRun run.call ∈ after)
    (hpoll : ∀ t, .pollRun t ∉ after) (hreport : ∀ t r, .report t r ∉ after) :
    ∃ j : Journey d₀, j.upto ((before ++ after).length + 1) = before ++ after ++ [.leave] ∧
      j.state before.length = d₁ ∧ j.ShutDown before.length := by
  obtain ⟨j, hupto, hlater, hresponds⟩ := exists_responds_of_follow h hrest h₂ hpass
  have hall := (j.between_zero _).trans hupto
  have hregister : ∀ k, (before ++ after).length + 1 ≤ k → ∃ idle, j.action k = .setIdle idle :=
    fun k hk => (hlater k hk).2
  have hlength : before.length ≤ (before ++ after).length + 1 := by
    rw [List.length_append]
    omega
  have hstate : j.state before.length = d₁ := by
    have hprefix : d₀.follow ((j.upto ((before ++ after).length + 1)).take before.length) =
        .ok (d₁, es₁) := by
      rw [hupto, List.append_assoc, List.take_left]
      exact h₁
    exact j.state_eq_of_follow hlength hprefix
  have hbetween : j.between before.length ((before ++ after).length + 1) = after ++ [.leave] := by
    have hparts := hupto
    rw [j.upto_append hlength, List.append_assoc] at hparts
    exact (List.append_inj hparts (by simp [Journey.upto])).2
  have hreturned : ∀ k, ∀ t ∈ (j.state k).returned? (j.action k),
      k < (before ++ after).length + 1 := by
    intro k t ht
    by_contra hlt
    obtain ⟨idle, hidle⟩ := hregister k (Nat.le_of_not_lt hlt)
    rw [hidle] at ht
    cases ht
  refine ⟨j, hupto, hstate, hresponds _, fun k message ha => ?_, fun k t ht => ?_, hstate ▸ hstack,
    fun run hrun => ?_, fun k hk t ht => ?_, fun k t hk => ?_, fun k t r hk => ?_⟩
  · exact absurd ha (Journey.action_ne hall hregister (Nat.zero_le k) (hcalm message) (by simp) (by simp))
  · refine Journey.not_mem_of_leftAtReturn (·.held) ?_ (Nat.zero_le k) (hreturned k t ht) ht
    rw [j.start, hall]
    exact hheld
  · rw [hstate] at hrun
    have hmem := List.mem_append_left [.leave] (hdropped run hrun)
    rw [← hbetween] at hmem
    obtain ⟨k, hk, ha⟩ := List.mem_map.1 hmem
    exact ⟨k, (List.Ico.mem.1 hk).1, ha⟩
  · refine Journey.not_mem_of_leftAtReturn tokens ?_ hk (hreturned k t ht) ht
    rw [hstate, hbetween]
    exact htokens
  · exact Journey.action_ne hbetween hregister hk (hpoll t) (by simp) (by simp)
  · exact Journey.action_ne hbetween hregister hk (hreport t r) (by simp) (by simp)

/-- Two calls run, of which one has a task; two wait, of which one is cancelled. -/
def livelyCourse : List Action :=
  [.setIdle (some 7),
    .submit ⟨⟨"a"⟩, false⟩, .openRun 0, .leave, .pollRun 0, .leave, .suspend,
    .submit ⟨⟨"a"⟩, false⟩, .submit ⟨⟨"b"⟩, false⟩, .openRun 2, .leave,
    .submit ⟨⟨"a"⟩, false⟩, .cancel 1]

/-- The runtime drops the runs that it has, and each one that it is given meanwhile. -/
def shutdownCourse : List Action :=
  [.dropRun 0, .openRun 1, .dropRun 1, .leave, .openRun 3, .dropRun 3, .leave, .dropRun 2,
    -- the callback
    .leave,
    .submit ⟨⟨"c"⟩, false⟩, .openRun 4, .dropRun 4, .leave]

theorem abandoned_of_shutdownCourse :
    ∃ d₀ notices, ∃ j : Journey d₀, create ⟨2, 1⟩ = .ok (d₀, notices) ∧
      j.upto 27 = livelyCourse ++ shutdownCourse ++ [.leave] ∧
      (j.state 13).ledger.queue.running.map (·.call) = [0, 2] ∧
      (j.state 13).ledger.queue.queuedCalls = [1, 3] ∧ j.ShutDown 13 ∧ j.WindsDown 13 := by
  obtain ⟨d₀, notices, d₁, es₁, d₂, es₂, d, es, callback, reply, hcreate, h₁, hstack, h₂, hpass, h,
    hlast, hheld, htokens, hruns, hrunning, hqueued⟩ :
      ∃ d₀ notices d₁ es₁ d₂ es₂ d es callback reply, create ⟨2, 1⟩ = .ok (d₀, notices) ∧
        d₀.follow livelyCourse = .ok (d₁, es₁) ∧ d₁.stack = [] ∧
        d₀.follow (livelyCourse ++ shutdownCourse) = .ok (d₂, es₂) ∧
        d₂.stack = [.idle callback reply] ∧
        d₀.follow (livelyCourse ++ shutdownCourse ++ [.leave]) = .ok (d, es) ∧ d.stack = [] ∧
        leftAtReturn (·.held) d₀ (livelyCourse ++ shutdownCourse ++ [.leave]) = [] ∧
        leftAtReturn tokens d₁ (shutdownCourse ++ [.leave]) = [] ∧
        d₁.runs = [⟨0, true⟩, ⟨2, false⟩] ∧ d₁.ledger.queue.running.map (·.call) = [0, 2] ∧
        d₁.ledger.queue.queuedCalls = [1, 3] :=
    ⟨_, _, _, _, _, _, _, _, _, _, rfl, rfl, rfl, rfl, rfl, rfl, rfl, rfl, rfl, rfl, rfl, rfl⟩
  have hinvoked : ∃ f ∈ d₂.stack.head?, f.isPass = true := ⟨_, by rw [hpass]; rfl, rfl⟩
  have hcalm : ∀ message, .panic message ∉ livelyCourse ++ shutdownCourse := by
    simp [livelyCourse, shutdownCourse]
  have hdropped : ∀ run ∈ d₁.runs, .dropRun run.call ∈ shutdownCourse := by
    simp [hruns, shutdownCourse]
  have hpoll : ∀ t, .pollRun t ∉ shutdownCourse := by simp [shutdownCourse]
  have hreport : ∀ t r, .report t r ∉ shutdownCourse := by simp [shutdownCourse]
  obtain ⟨j, hupto, hstate, hshut⟩ := exists_shutDown_of_follow h₁ hstack h₂ hinvoked h
    (atRest_of_stack_eq_nil hlast) hcalm hheld htokens hdropped hpoll hreport
  change j.state 13 = d₁ at hstate
  exact ⟨d₀, notices, j, hcreate, hupto, hstate ▸ hrunning, hstate ▸ hqueued, hshut,
    abandoned_of_shutDown hcreate j hshut⟩

end CallAdmission.Dispatcher
