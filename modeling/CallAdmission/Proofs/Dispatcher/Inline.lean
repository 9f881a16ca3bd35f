import CallAdmission.Proofs.Dispatcher.Handover
import CallAdmission.Proofs.Dispatcher.Notification

/-!
# CallAdmission.Proofs.Dispatcher.Inline

What a step does when the executor works inline: it ends each call that it is given before it gives
control back. Before that it may do with the dispatcher what it likes, and so may the callback.

* `length_handOffs_le` — a call that is submitted leads to two invocations at most;
* `step_passCount_le` — no pass starts without a request;
* `Completes` — what the executor and the callback keep to;
* `step_operation`, `step_underway` — the stack while a pass is under way, and after its end;
* `step_inlined` — between steps only calls of the pass on the stack run.
-/

namespace CallAdmission.Dispatcher

variable {limits : Limits} {notices : List Notice} {d₀ d d' : Dispatcher} {actions : List Action}
  {a : Action} {turn : Turn} {es : List Event} {t : Ticket} {stack : List Frame}

/-! ## how often the executor and the callback are invoked -/

/-- A call is submitted. -/
def Event.isSubmission : Event → Bool
  | .said (.enqueued ..) | .said (.syncStarted ..) => true
  | _ => false

/-- How many calls are submitted. -/
def submissions (es : List Event) : Nat := es.countP (·.isSubmission)

@[simp] theorem submissions_append (es es' : List Event) :
    submissions (es ++ es') = submissions es + submissions es' := List.countP_append

/-- Whoever is invoked is given a call, or is a callback. -/
theorem length_handOffs (es : List Event) :
    (handOffs es).length = (handed es).length + (invocations (marks es)).length := by
  induction es with
  | nil => rfl
  | cons e es ih =>
    cases e with
    | said n => cases n <;> exact ih
    | handedOver t =>
      change (handOffs es).length + 1 = (handed es).length + 1 + (invocations (marks es)).length
      omega
    | idleInvoked callback => exact congrArg (· + 1) ih
    | _ => exact ih

/-- Whatever begins to run was admitted, or is a sync call. -/
theorem countP_isRun (es : List Event) :
    (Log.admissions (log es)).length ≤ (marks es).countP Mark.isRun ∧
      (marks es).countP Mark.isRun + (Log.arrivals (log es)).length =
        submissions es + (Log.admissions (log es)).length := by
  induction es with
  | nil => exact ⟨Nat.le_refl _, rfl⟩
  | cons e es ih =>
    have hone : (Log.admissions (log [e])).length ≤ (marks [e]).countP Mark.isRun ∧
        (marks [e]).countP Mark.isRun + (Log.arrivals (log [e])).length =
          submissions [e] + (Log.admissions (log [e])).length := by
      cases e with
      | said n => cases n <;> exact ⟨by first | exact Nat.le_refl _ | exact Nat.zero_le _, rfl⟩
      | _ => exact ⟨Nat.le_refl _, rfl⟩
    rw [← List.singleton_append, log_append, Log.admissions_append, Log.arrivals_append,
      marks_append, submissions_append, List.countP_append, List.length_append, List.length_append]
    omega

/-- A step invokes a callback only at the end of a busy period, which began with a run. -/
theorem Custody.Step.length_invocations_le {c c' : Custody} {ends : List (Ticket × Ending)}
    {ms : List Mark} (h : c.Step ends ms c') :
    (Dispatcher.invocations ms).length + c'.ledger.queue.busy.toNat ≤
      c.ledger.queue.busy.toNat + ms.countP Mark.isRun := by
  have hlength : (Dispatcher.invocations ms).length ≤
      (c.ledger.queue.busy && !c'.ledger.queue.busy).toNat := by
    rw [h.invocations]
    split
    · next hends =>
      rw [hends]
      cases c.ledger.queue.idle <;> simp
    · exact Nat.zero_le _
  have hstirred : c.ledger.queue.busy = false → c'.ledger.queue.busy = true →
      0 < ms.countP Mark.isRun := by
    intro hb hb'
    have hbusy := h.busy
    rw [hb, hb', Bool.false_or] at hbusy
    exact List.countP_pos_iff.2 (List.any_eq_true.1 (Bool.and_eq_true_iff.1 hbusy.symm).1)
  generalize c.ledger.queue.busy = b at hlength hstirred ⊢
  generalize c'.ledger.queue.busy = b' at hlength hstirred ⊢
  cases b <;> cases b' <;>
    simp only [Bool.toNat_true, Bool.toNat_false, Bool.false_and, Bool.true_and, Bool.not_true,
      Bool.not_false, forall_const] at hlength hstirred ⊢ <;> omega

/-- Each invocation of a callback has a call of its own that began to run before it. -/
theorem length_invocations_le (hcreate : create limits = .ok (d₀, notices))
    (h : d₀.follow actions = .ok (d, es)) :
    (invocations (marks es)).length ≤ (marks es).countP Mark.isRun := by
  have hcount : (invocations (marks es)).length + d.ledger.queue.busy.toNat ≤
      (marks es).countP Mark.isRun := by
    refine custody_induction (P := fun _ ms c => (invocations ms).length +
      c.ledger.queue.busy.toNat ≤ ms.countP Mark.isRun) ?_ hcreate ?_ h
    · intro _ ms c _ ms' c' hms hstep
      have hle := hstep.length_invocations_le
      rw [invocations_append, List.length_append, List.countP_append]
      omega
    · obtain ⟨-, rfl⟩ := create_eq_ok hcreate
      exact Nat.le_refl _
  omega

/-- A call that is submitted leads to two invocations at most: its own hand-over, and that of the
callback. -/
theorem length_handOffs_le (hcreate : create limits = .ok (d₀, notices))
    (h : d₀.follow actions = .ok (d, es)) : (handOffs es).length ≤ 2 * submissions es := by
  obtain ⟨hadmissions, hhanded⟩ := account_of_follow hcreate h
  have hinvocations := length_invocations_le hcreate h
  have horder := (logged_of_follow hcreate h).orderly.length_admissions_le
  obtain ⟨hruns, hcalls⟩ := countP_isRun es
  have hle : (handed es).length ≤ (Log.admissions (log es)).length := by
    have hfates := List.length_filterMap_le Fate.handed? (d₀.fatesOf actions)
    rw [← hhanded] at hfates
    rw [hadmissions, List.length_append, List.length_map]
    omega
  rw [length_handOffs]
  omega

/-! ## passes and requests -/

/-- How many passes are asked for. -/
def requestCount (es : List Event) : Nat := es.countP fun | .passRequested => true | _ => false

@[simp] theorem requestCount_append (es es' : List Event) :
    requestCount (es ++ es') = requestCount es + requestCount es' := List.countP_append

theorem Quiet.passCount (h : Quiet es) : passCount es = 0 := by
  induction es using List.reverseRecOn with
  | nil => rfl
  | append_singleton es e ih =>
    have hlast : ∀ b, e.owes (es.foldl Event.owes b) = b := by
      intro b
      have hb := h b
      rwa [List.foldl_append] at hb
    cases e with
    | passRequested => cases hlast false
    | passStarted => cases hlast true
    | _ => exact (passCount_append _ _).trans (ih hlast)

/-- A pass starts only when one is wanted, and one is wanted only when it was asked for. -/
theorem Gate.Change.passCount_le {g g' : Gate} {leaving : Bool} (h : g.Change leaving es g') :
    passCount es + g'.pending.toNat ≤ g.pending.toNat + requestCount es := by
  cases h with
  | tokens hn hes | startSync hn hes =>
    rw [hes.passCount]
    exact Nat.le_trans (Nat.le_of_eq (Nat.zero_add _)) (Nat.le_add_right _ _)
  | setIdle | close | panic => exact Nat.le_of_eq (Nat.zero_add _)
  | @request es q next h hes =>
    have hpass : passCount (es ++ [.passRequested]) = 0 := by
      rw [passCount_append, hes.passCount]
      rfl
    have hone : requestCount (es ++ [.passRequested]) = requestCount es + 1 :=
      requestCount_append _ _
    have htrue : (g.request q next).pending.toNat = 1 := rfl
    omega
  | @promote es hp hes =>
    have hpass : passCount (.passStarted :: es) = passCount es + 1 := List.countP_cons_of_pos rfl
    rw [hpass, hes.passCount, hp]
    exact Nat.le_add_right _ _

theorem Moves.passCount_le {m m₁ : Moment} (h : Moves a m es m₁) :
    passCount es + m₁.dispatcher.pending.toNat ≤ m.dispatcher.pending.toNat + requestCount es := by
  induction h with
  | nil m => exact Nat.le_of_eq (Nat.zero_add _)
  | @cons m m₁ m₂ es es' hmove _ ih =>
    have hle : passCount es + m₁.dispatcher.pending.toNat ≤ _ := hmove.change.passCount_le
    have hsame : m.gate.pending = m.dispatcher.pending := rfl
    rw [hsame] at hle
    rw [passCount_append, requestCount_append]
    omega

/-- In a step no more passes start than were wanted before it or are asked for in it. -/
theorem step_passCount_le (hd : Moment.Latched ⟨d, .outside⟩) (hstep : d.step a = .ok turn) :
    passCount turn.events + turn.dispatcher.pending.toNat ≤
      d.pending.toNat + requestCount turn.events :=
  (reaches_step hd hstep).passCount_le

/-! ## the stack while a pass is under way -/

/-- An activity of a pass is on the stack, right above the given part of it. -/
def Underway (stack : List Frame) (d : Dispatcher) : Prop :=
  ∃ f, f.isPass = true ∧ base d.stack = f :: stack

theorem Underway.not_atRest (h : Underway stack d) : ¬ d.AtRest := by
  obtain ⟨f, -, hbase⟩ := h
  intro hrest
  rw [base_eq_nil_iff.2 hrest] at hbase
  cases hbase

/-- The latch is down exactly while no activity of a pass is on the stack. -/
theorem Moment.Latched.promoting_eq_false_iff (hd : Moment.Latched ⟨d, .outside⟩) :
    d.promoting = false ↔ base d.stack = [] := by
  rw [base_eq_nil_iff]
  exact ⟨hd.atRest, promoting_eq_false_of_atRest hd⟩

/-- A pass that has control leaves one activity on the stack, or ends. -/
theorem Yields.underway {rest : List Ticket} {idle : Option Callback} {next : Option Frame}
    (h : Yields d rest idle es d' next) : Underway d.stack d' ∨ d'.stack = d.stack := by
  cases next with
  | none => exact .inr h.stack
  | some f =>
    have hf := h.isPass f rfl
    refine .inl ⟨f, hf, ?_⟩
    rw [h.stack]
    exact base_cons_of_isPass hf d.stack

/-- What the executor and the callback keep to in a step. -/
structure Completes (d : Dispatcher) (a : Action) : Prop where
  /-- an activity that panics is none of a pass -/
  calm : ∀ message, a = .panic message → ∀ f ∈ d.stack.head?, f.isPass = false
  /-- when a hand-over returns, its call was reported or dropped -/
  ends : a = .leave → ∀ t rest idle reply stack, d.stack = .execute t rest idle reply :: stack →
    t ∉ d.tokens

theorem Completes.isPass_eq_false {f : Frame} {message : String} (h : Completes d a)
    (ha : a = .panic message) (hstack : d.stack = f :: stack) : f.isPass = false :=
  h.calm message ha f (by rw [hstack]; rfl)

/-- An operation outside passes leaves the stack alone, or starts a pass on top of it. -/
theorem step_operation (hd : Moment.Latched ⟨d, .outside⟩) (hstep : d.step a = .ok turn)
    (hrest : d.AtRest) (ha : a.isOperation = true) :
    Underway d.stack turn.dispatcher ∨ turn.dispatcher.stack = d.stack := by
  cases step_shift hd hstep with
  | aside _ hstack => exact .inr (hstack ha)
  | starts _ _ hstack _ hyields =>
    rw [← hstack ha]
    exact hyields.underway
  | resumes _ h hf | fails _ h hf => exact absurd hrest (not_atRest_of_stack h hf)

/-- While a pass is under way, the stack below its activity stays as it is; and so it is when the
pass ends. -/
theorem step_underway (hd : Moment.Latched ⟨d, .outside⟩) (hstep : d.step a = .ok turn)
    (hc : Completes d a) (h : Underway stack d) :
    Underway stack turn.dispatcher ∨ turn.dispatcher.stack = stack := by
  obtain ⟨f, hf, hbase⟩ := h
  cases step_shift hd hstep with
  | aside hsame => exact .inl ⟨f, hf, hsame.trans hbase⟩
  | starts hidle =>
    rw [hd.promoting_eq_false_iff.1 hidle] at hbase
    cases hbase
  | resumes _ hstack hf' hyields =>
    rw [hstack, base_cons_of_isPass hf'] at hbase
    obtain ⟨-, rfl⟩ := List.cons.inj hbase
    exact hyields.underway
  | fails ha hstack hf' =>
    exact absurd hf' (Bool.eq_false_iff.1 (hc.isPass_eq_false ha hstack))

/-- When an activity of a pass returns, the pass ends, or somebody is invoked. -/
theorem step_handOffs (hd : Moment.Latched ⟨d, .outside⟩) (hstep : d.step a = .ok turn)
    (ha : a = .leave) (hf : ∃ f ∈ d.stack.head?, f.isPass = true) :
    turn.dispatcher.AtRest ∨ (handOffs turn.events).length = 1 := by
  obtain ⟨f, hmem, hf⟩ := hf
  cases step_shift hd hstep with
  | aside _ _ hforeign =>
    exact absurd hf (Bool.eq_false_iff.1 (hforeign (by rw [ha]; rfl) f hmem))
  | starts hidle =>
    have hnot := hd.atRest hidle f (List.mem_of_mem_head? hmem)
    exact absurd hf (Bool.eq_false_iff.1 hnot)
  | @resumes f' _ next _ hstack hf' hyields =>
    cases next with
    | none =>
      left
      rw [AtRest, hyields.stack]
      exact hd.alone hstack hf'
    | some g =>
      right
      have hg := hyields.isPass g rfl
      rw [hyields.handOffs]
      cases g <;> first | rfl | cases hg
  | fails ha' => rw [ha] at ha'; cases ha'

/-! ## what runs between steps -/

/-- The calls of a pass whose activity is on the stack: the one that is handed over, and those that
are yet to be. -/
def Frame.calls : Frame → List Ticket
  | .execute t rest _ _ => t :: rest
  | .idle .. | .openTask _ | .pollTask _ | .pollSync _ => []

theorem calls_of_not_isPass {f : Frame} (h : f.isPass = false) : f.calls = [] := by
  cases f <;> first | rfl | cases h

theorem flatMap_calls_eq_nil (h : ∀ f ∈ stack, f.isPass = false) :
    stack.flatMap Frame.calls = [] :=
  List.flatMap_eq_nil_iff.2 fun f hf => calls_of_not_isPass (h f hf)

theorem handed_handOffs (es : List Event) : handed (handOffs es) = handed es := by
  rw [handed, handOffs, List.filterMap_filter]
  apply List.filterMap_congr
  intro e _
  cases e <;> rfl

/-- The calls that a pass has, and those that it admits, are those of its next activity. -/
theorem Yields.calls {rest : List Ticket} {idle : Option Callback} {next : Option Frame}
    (h : Yields d rest idle es d' next) :
    rest ++ Log.admissions (log es) = next.toList.flatMap Frame.calls := by
  rw [h.account, ← handed_handOffs, h.handOffs]
  cases next with
  | none => rfl
  | some f => cases f <;> rfl

/-- Whatever runs after a step ran before, or was admitted in the step. -/
theorem mem_running_of_step (hcreate : create limits = .ok (d₀, notices))
    (h : d₀.follow actions = .ok (d, es)) (hstep : d.step a = .ok turn)
    (ht : t ∈ turn.dispatcher.ledger.queue.running.map (·.call)) :
    t ∈ d.ledger.queue.running.map (·.call) ∨ t ∈ Log.admissions (log turn.events) := by
  have hbefore := (logged_of_follow hcreate h).replay
  have hafter := (logged_of_follow hcreate (follow_concat h hstep)).replay
  obtain ⟨e, he, rfl⟩ := List.mem_map.1 ht
  have hmem : e.member ∈ (Log.replay limits (log (es ++ turn.events))).running := by
    rw [hafter]
    exact List.mem_map.2 ⟨e, he, rfl⟩
  rw [log_append, Log.replay, List.foldl_append] at hmem
  refine (Log.mem_running_foldl hmem).imp_left fun hm => ?_
  change e.member ∈ (Log.replay limits (log es)).running at hm
  rw [hbefore] at hm
  obtain ⟨e', he', hsame⟩ := List.mem_map.1 hm
  exact List.mem_map.2 ⟨e', he', congrArg Member.call hsame⟩

/-- A pass that gets control answers what was asked for, or goes on. -/
theorem Yields.promoting {rest : List Ticket} {idle : Option Callback} {next : Option Frame}
    (h : Yields d rest idle es d' next) (hd' : Moment.Latched ⟨d', .outside⟩)
    (hp : d'.pending = true) : d'.promoting = true := by
  cases next with
  | none => exact absurd hp (Bool.eq_false_iff.1 (h.answered (.inr rfl)))
  | some f =>
    have hbusy : ¬ d'.AtRest := not_atRest_of_stack h.stack (h.isPass f rfl)
    rw [← Bool.not_eq_false]
    exact fun hdown => hbusy (hd'.atRest hdown)

/-- Unless an activity of a pass panics, a pass is wanted only while one is under way. -/
theorem step_promoting (hd : Moment.Latched ⟨d, .outside⟩) (hstep : d.step a = .ok turn)
    (hcalm : ∀ message, a = .panic message → ∀ f ∈ d.stack.head?, f.isPass = false)
    (hp : d.pending = true → d.promoting = true) :
    turn.dispatcher.pending = true → turn.dispatcher.promoting = true := by
  have hd' : Moment.Latched ⟨turn.dispatcher, .outside⟩ := (reaches_step hd hstep).latched hd
  cases step_shift hd hstep with
  | aside hbase _ _ _ _ hpending =>
    intro hp'
    have hbusy : d.promoting = true :=
      hpending.elim id fun hsame => hp (hsame.symm.trans hp')
    rwa [← Bool.not_eq_false, hd'.promoting_eq_false_iff, hbase, ← hd.promoting_eq_false_iff,
      Bool.not_eq_false]
  | starts _ _ _ _ hyields | resumes _ _ _ hyields => exact hyields.promoting hd'
  | fails ha hstack hf =>
    exact absurd hf (Bool.eq_false_iff.1 (hcalm _ ha _ (by rw [hstack]; rfl)))

/-- Between steps only calls run that the pass on the stack has, and a pass is wanted only while one
is under way. -/
structure Inlined (d : Dispatcher) : Prop where
  running : ∀ t ∈ d.ledger.queue.running.map (·.call), t ∈ d.stack.flatMap Frame.calls
  promoting : d.pending = true → d.promoting = true

/-- At rest nothing runs. -/
theorem Inlined.running_eq_nil (h : Inlined d) (hrest : d.AtRest) : d.ledger.queue.running = [] := by
  rw [← List.map_eq_nil_iff (f := (·.call)), List.eq_nil_iff_forall_not_mem]
  intro t ht
  have hmem := h.running t ht
  rw [flatMap_calls_eq_nil hrest] at hmem
  cases hmem

/-- A pass that gets control has the calls that it is yet to hand over, and those that it admits. -/
theorem Yields.mem_calls {rest : List Ticket} {idle : Option Callback} {next : Option Frame}
    (h : Yields d rest idle es d' next) (ht : t ∈ rest ∨ t ∈ Log.admissions (log es)) :
    t ∈ d'.stack.flatMap Frame.calls := by
  have hmem := List.mem_append.2 ht
  rw [h.calls] at hmem
  rw [h.stack, List.flatMap_append]
  exact List.mem_append_left _ hmem

/-- Whatever runs after a step ran before, unless the pass on the stack has it. -/
theorem step_running (hcreate : create limits = .ok (d₀, notices))
    (h : d₀.follow actions = .ok (d, es)) (hstep : d.step a = .ok turn) (hc : Completes d a)
    (ht : t ∈ turn.dispatcher.ledger.queue.running.map (·.call)) :
    t ∈ turn.dispatcher.stack.flatMap Frame.calls ∨
      t ∈ d.ledger.queue.running.map (·.call) ∧ t ∉ d.stack.flatMap Frame.calls := by
  have hd := latched_of_follow hcreate h
  have hran := mem_running_of_step hcreate h hstep ht
  by_cases hcalls : t ∈ d.stack.flatMap Frame.calls
  · left
    cases step_shift hd hstep with
    | aside hbase =>
      have hnone : ∀ f : Frame, f.isPass = false → f.calls = [] := fun _ => calls_of_not_isPass
      rwa [← flatMap_base hnone, hbase, flatMap_base hnone]
    | starts hidle =>
      rw [flatMap_calls_eq_nil (hd.atRest hidle)] at hcalls
      cases hcalls
    | @resumes f stack next ha hstack hf hyields =>
      refine hyields.mem_calls (hran.imp_left fun hrun => ?_)
      rw [hstack, List.flatMap_cons, flatMap_calls_eq_nil (hd.alone hstack hf), List.append_nil]
        at hcalls
      cases f with
      | execute u rest idle reply =>
        -- the call that was handed over has no token any more, so it does not run
        refine (List.mem_cons.1 hcalls).resolve_left ?_
        rintro rfl
        have hmatched := (kept_of_follow hcreate h).matched
        exact hc.ends ha _ _ _ _ _ hstack (hmatched.tokens.mem_iff.2 hrun)
      | idle | openTask | pollTask | pollSync => cases hcalls
    | fails ha hstack hf =>
      exact absurd hf (Bool.eq_false_iff.1 (hc.isPass_eq_false ha hstack))
  · rcases hran with hrun | hadmitted
    · exact .inr ⟨hrun, hcalls⟩
    · left
      cases step_shift hd hstep with
      | aside _ _ _ hes =>
        rw [hes.admissions] at hadmitted
        cases hadmitted
      | starts _ _ _ _ hyields | resumes _ _ _ hyields => exact hyields.mem_calls (.inr hadmitted)
      | fails ha hstack hf =>
        exact absurd hf (Bool.eq_false_iff.1 (hc.isPass_eq_false ha hstack))

theorem step_inlined (hcreate : create limits = .ok (d₀, notices))
    (h : d₀.follow actions = .ok (d, es)) (hstep : d.step a = .ok turn) (hc : Completes d a)
    (hi : Inlined d) : Inlined turn.dispatcher where
  running t ht := (step_running hcreate h hstep hc ht).resolve_right fun hran =>
    hran.2 (hi.running t hran.1)
  promoting := step_promoting (latched_of_follow hcreate h) hstep hc.calm hi.promoting

end CallAdmission.Dispatcher
