import CallAdmission.Proofs.Dispatcher.Stage
import CallAdmission.Proofs.Failure

/-!
# CallAdmission.Proofs.Call.Driving

One call, driven in any way. Its status, its error and its mark of cancellation are written by rules
of their own: a start only moves a queued call, every outcome sets the status, and the first failure
alone leaves a message. They come together only when somebody waits for the outcome.

A handle to a call is known by the call's ticket, so clones of a handle refer to one call.

* `status_applyAll_of_unmoved`, `status_applyAll_of_started`, `status_applyAll_of_ended` — the
  status;
* `error_applyAll`, `canceled_applyAll` — the error and the mark;
* `applyAll_filter_isCancel` — cancellation changes nothing but the mark;
* `driven_of_handles` — all that is seen of a call, through any of its handles.
-/

namespace CallAdmission.Scenario

/-! ## what steps ask for -/

namespace CallStep

/-- The outcome that a step stores. -/
def outcome? : CallStep → Option Outcome
  | .setFinished r => some (.ofResult r)
  | _ => none

/-- The step asks for cancellation. -/
def isCancel : CallStep → Bool
  | .cancel | .cancelToken => true
  | _ => false

/-- The outcomes that steps store, in order. -/
def outcomes (steps : List CallStep) : List Outcome := steps.filterMap outcome?

/-- The call after steps on it. -/
def applyAll (c : Call) (steps : List CallStep) : Call := steps.foldl apply c

variable {c : Call} {s : CallStep} {steps more : List CallStep}

theorem applyAll_append (c : Call) (steps more : List CallStep) :
    applyAll c (steps ++ more) = applyAll (applyAll c steps) more :=
  List.foldl_append

theorem applyAll_concat (c : Call) (steps : List CallStep) (s : CallStep) :
    applyAll c (steps ++ [s]) = s.apply (applyAll c steps) :=
  applyAll_append c steps [s]

theorem outcomes_concat (steps : List CallStep) (s : CallStep) :
    outcomes (steps ++ [s]) = outcomes steps ++ s.outcome?.toList := by
  cases hs : s.outcome? <;> simp [outcomes, hs]

theorem outcomes_cons_eq_nil :
    outcomes (s :: steps) = [] ↔ s.outcome? = none ∧ outcomes steps = [] := by
  simp [outcomes]

/-- Cancellation is asked for through a handle or through the call's token. -/
theorem any_isCancel_iff : steps.any isCancel = true ↔ .cancel ∈ steps ∨ .cancelToken ∈ steps := by
  rw [List.any_eq_true]
  constructor
  · rintro ⟨s, hs, hcancel⟩
    cases s with
    | cancel => exact .inl hs
    | cancelToken => exact .inr hs
    | _ => exact nomatch hcancel
  · rintro (hs | hs)
    · exact ⟨_, hs, rfl⟩
    · exact ⟨_, hs, rfl⟩

/-! ## one step -/

/-- Without an outcome, a step only moves a queued call, and only if it starts the call. -/
theorem status_apply_of_outcome?_eq_none (h : s.outcome? = none)
    (hmove : c.status = .queued → s ≠ .setRunning) : (s.apply c).status = c.status := by
  cases s with
  | setRunning =>
    have hqueued : c.status ≠ .queued := fun hqueued => hmove hqueued rfl
    exact congrArg Call.status (if_neg hqueued)
  | setFinished => exact nomatch h
  | cancel | cancelToken | wait | info | debug | unknown => rfl

theorem status_apply_of_outcome? {o : Outcome} (h : s.outcome? = some o) :
    (s.apply c).status = o.status := by
  cases s with
  | setFinished =>
    cases h
    rfl
  | _ => exact nomatch h

/-- A call that has ended stays ended. -/
theorem isTerminal_apply (h : c.status.isTerminal = true) :
    (s.apply c).status.isTerminal = true := by
  cases hs : s.outcome? with
  | some o => rw [status_apply_of_outcome? hs, o.isTerminal_status]
  | none =>
    rw [status_apply_of_outcome?_eq_none hs, h]
    intro hqueued
    rw [hqueued] at h
    exact nomatch h

/-- Only the first failure leaves a message. -/
theorem error_apply (s : CallStep) (c : Call) :
    (s.apply c).error = c.error.or (s.outcome?.bind Outcome.message?) := by
  cases s with
  | setFinished r =>
    cases h : Outcome.ofResult r <;>
      simp [apply, outcome?, Call.setFinished, h, Outcome.message?]
  | setRunning =>
    simp only [apply, Call.setRunning]
    split <;> simp [outcome?]
  | cancel | cancelToken | wait | info | debug | unknown => simp [apply, outcome?, Call.cancel]

theorem canceled_apply (s : CallStep) (c : Call) :
    (s.apply c).canceled = (c.canceled || s.isCancel) := by
  cases s with
  | setRunning =>
    simp only [apply, Call.setRunning]
    split <;> simp [isCancel]
  | setFinished | cancel | cancelToken | wait | info | debug | unknown =>
    simp [apply, isCancel, Call.setFinished, Call.cancel]

theorem setRunning_with_canceled (c : Call) (mark : Bool) :
    ({ c with canceled := mark } : Call).setRunning = { c.setRunning with canceled := mark } := by
  unfold Call.setRunning
  split <;> rfl

/-- A step that does not ask for cancellation does not look at the mark. -/
theorem apply_with_canceled (h : s.isCancel = false) (c : Call) (mark : Bool) :
    s.apply { c with canceled := mark } = { s.apply c with canceled := mark } := by
  cases s with
  | setRunning => exact setRunning_with_canceled c mark
  | cancel | cancelToken => exact nomatch h
  | setFinished | wait | info | debug | unknown => rfl

/-! ## any steps -/

theorem status_applyAll_of_unmoved (h : outcomes steps = [])
    (hmove : c.status = .queued → .setRunning ∉ steps) : (applyAll c steps).status = c.status := by
  induction steps generalizing c with
  | nil => rfl
  | cons s steps ih =>
    obtain ⟨hs, hsteps⟩ := outcomes_cons_eq_nil.1 h
    have hstatus : (s.apply c).status = c.status :=
      status_apply_of_outcome?_eq_none hs fun hqueued heq =>
        hmove hqueued (heq ▸ List.mem_cons_self)
    have hrest := ih (c := s.apply c) hsteps fun hqueued hmem =>
      hmove (hstatus ▸ hqueued) (List.mem_cons_of_mem s hmem)
    exact hrest.trans hstatus

theorem status_applyAll_of_started (h : outcomes steps = []) (hqueued : c.status = .queued)
    (hmem : .setRunning ∈ steps) : (applyAll c steps).status = .running := by
  induction steps generalizing c with
  | nil => exact nomatch hmem
  | cons s steps ih =>
    obtain ⟨hs, hsteps⟩ := outcomes_cons_eq_nil.1 h
    by_cases heq : s = .setRunning
    · subst heq
      have hrunning : (apply c .setRunning).status = .running :=
        congrArg Call.status (if_pos hqueued)
      have hrest : (applyAll (apply c .setRunning) steps).status = _ :=
        status_applyAll_of_unmoved hsteps fun hq => nomatch hrunning.symm.trans hq
      exact hrest.trans hrunning
    · have hstatus : (s.apply c).status = c.status :=
        status_apply_of_outcome?_eq_none hs fun _ => heq
      have hrest := (List.mem_cons.1 hmem).resolve_left (Ne.symm heq)
      exact ih (c := s.apply c) hsteps (hstatus.trans hqueued) hrest

/-- The last outcome sets the status. -/
theorem status_applyAll_of_ended {o : Outcome} (h : (outcomes steps).getLast? = some o) :
    (applyAll c steps).status = o.status := by
  -- from the end: the last outcome decides, and the steps after it meet a terminal status
  induction steps using List.reverseRecOn generalizing o with
  | nil => exact nomatch h
  | append_singleton steps s ih =>
    rw [outcomes_concat] at h
    rw [applyAll_concat]
    cases hs : s.outcome? with
    | some last =>
      rw [hs, Option.toList_some, List.getLast?_concat] at h
      cases h
      exact status_apply_of_outcome? hs
    | none =>
      rw [hs, Option.toList_none, List.append_nil] at h
      have hended := ih h
      rw [← hended]
      refine status_apply_of_outcome?_eq_none hs fun hqueued => ?_
      have hterminal := o.isTerminal_status
      rw [← hended, hqueued] at hterminal
      exact nomatch hterminal

theorem isTerminal_applyAll (h : c.status.isTerminal = true) (more : List CallStep) :
    (applyAll c more).status.isTerminal = true := by
  induction more generalizing c with
  | nil => exact h
  | cons s more ih => exact ih (isTerminal_apply h)

theorem error_applyAll (c : Call) (steps : List CallStep) :
    (applyAll c steps).error = c.error.or ((outcomes steps).findSome? Outcome.message?) := by
  induction steps using List.reverseRecOn with
  | nil => simp [applyAll, outcomes]
  | append_singleton steps s ih =>
    rw [applyAll_concat, error_apply, ih, outcomes_concat, List.findSome?_append, Option.or_assoc]
    cases s.outcome? <;> simp

theorem canceled_applyAll (c : Call) (steps : List CallStep) :
    (applyAll c steps).canceled = (c.canceled || steps.any isCancel) := by
  induction steps using List.reverseRecOn with
  | nil => simp [applyAll]
  | append_singleton steps s ih =>
    rw [applyAll_concat, canceled_apply, ih]
    simp [Bool.or_assoc]

/-- Cancellation changes nothing but the mark. -/
theorem applyAll_filter_isCancel (c : Call) (steps : List CallStep) :
    applyAll c (steps.filter (!·.isCancel)) =
      { applyAll c steps with canceled := c.canceled } := by
  induction steps using List.reverseRecOn with
  | nil => rfl
  | append_singleton steps s ih =>
    rw [List.filter_append, applyAll_append, ih, applyAll_concat]
    cases hs : s.isCancel with
    | false =>
      rw [List.filter_cons_of_pos (by simp [hs])]
      exact apply_with_canceled hs _ _
    | true =>
      -- the step is left out on one side, and on the other sets the mark that is overwritten
      rw [List.filter_cons_of_neg (by simp [hs])]
      cases s with
      | cancel | cancelToken => rfl
      | _ => exact nomatch hs

end CallStep

/-! ## what is seen of a call -/

open CallStep (applyAll outcomes)

/-- What is seen of a call that began with a status, after steps on it. -/
structure Driven (first : Status) (steps : List CallStep) (c : Call) : Prop where
  ended : ∀ o, (outcomes steps).getLast? = some o → c.status = o.status
  started : outcomes steps = [] → first = .queued → .setRunning ∈ steps → c.status = .running
  unmoved : outcomes steps = [] → (first = .queued → .setRunning ∉ steps) → c.status = first
  /-- the error is the message of the first failure -/
  error : c.error = (outcomes steps).findSome? Outcome.message?
  canceled : c.canceled = true ↔ .cancel ∈ steps ∨ .cancelToken ∈ steps
  /-- who waits for the outcome gets it once the call has ended -/
  ready : c.outcome?.isSome = true ↔ c.status.isTerminal = true
  outcome_succeeded : c.status = .succeeded → c.outcome? = some .succeeded
  outcome_canceled : c.status = .canceled → c.outcome? = some .canceled
  /-- and for a failure gets the first message, or another text if there never was a message -/
  outcome_failed : c.status = .failed → c.outcome? = some (.failed (c.error.getD "Unknown error"))
  error_eq_none : c.error = none ↔ ∀ message, .failed message ∉ outcomes steps

/-- What is seen of a call stays so later: its end, its error, and its mark. -/
structure Lasting (c c' : Call) : Prop where
  ended : c.status.isTerminal = true → c'.status.isTerminal = true
  error : ∀ message, c.error = some message → c'.error = some message
  canceled : c.canceled = true → c'.canceled = true

variable {c : Call} {first : Status} {steps : List CallStep}

theorem isSome_outcome?_iff (c : Call) :
    c.outcome?.isSome = true ↔ c.status.isTerminal = true := by
  unfold Call.outcome?
  cases c.status <;> simp [Status.isTerminal]

theorem findSome?_message?_eq_none {os : List Outcome} :
    os.findSome? Outcome.message? = none ↔ ∀ message, .failed message ∉ os := by
  rw [List.findSome?_eq_none_iff]
  constructor
  · exact fun h message hmem => nomatch h _ hmem
  · intro h o ho
    cases o with
    | failed message => exact absurd ho (h message)
    | succeeded | canceled => rfl

theorem driven (host : Host) (duplex : Bool) (first : Status) (steps : List CallStep) :
    Driven first steps (applyAll { host, duplex, status := first } steps) where
  ended o ho := CallStep.status_applyAll_of_ended ho
  started hnone hqueued hmem := CallStep.status_applyAll_of_started hnone hqueued hmem
  unmoved hnone hmove := CallStep.status_applyAll_of_unmoved hnone hmove
  error := by rw [CallStep.error_applyAll, Option.none_or]
  canceled := by rw [CallStep.canceled_applyAll, Bool.false_or, CallStep.any_isCancel_iff]
  ready := isSome_outcome?_iff _
  outcome_succeeded h := by rw [Call.outcome?, h]
  outcome_canceled h := by rw [Call.outcome?, h]
  outcome_failed h := by rw [Call.outcome?, h]
  error_eq_none := by
    rw [CallStep.error_applyAll, Option.none_or, findSome?_message?_eq_none]

/-- Where steps are played on a call, each one's answer is about the call after it. -/
theorem getElem?_playCall (c : Call) (steps : List CallStep) (k : Nat) :
    (playCall c steps)[k]? = steps[k]?.map fun a =>
      let after := applyAll c (steps.take (k + 1))
      (a.answer 0 after, after) := by
  induction steps generalizing c k with
  | nil => rfl
  | cons a steps ih =>
    cases k with
    | zero => rfl
    | succ k => exact ih (a.apply c) k

theorem lasting (c : Call) (more : List CallStep) : Lasting c (applyAll c more) where
  ended h := CallStep.isTerminal_applyAll h more
  error message h := by rw [CallStep.error_applyAll, h, Option.some_or]
  canceled h := by rw [CallStep.canceled_applyAll, h, Bool.true_or]

/-! ## handles -/

section Handles

variable {Handle : Type} (refers : Handle → Ticket)

/-- Steps on calls, each through a handle. -/
def through (steps : List (Handle × CallStep)) : List QueueStep :=
  steps.map fun s => .onCall (refers s.1) s.2

/-- The steps on one call, through any of its handles. -/
def stepsOn (t : Ticket) (steps : List (Handle × CallStep)) : List CallStep :=
  (steps.filter fun s => refers s.1 = t).map (·.2)

theorem stepsOn_cons (t : Ticket) (h : Handle) (a : CallStep) (steps : List (Handle × CallStep)) :
    stepsOn refers t ((h, a) :: steps) =
      if refers h = t then a :: stepsOn refers t steps else stepsOn refers t steps := by
  by_cases ht : refers h = t <;> simp [stepsOn, ht]

theorem call?_step_onCall (s : QueueStage) (t u : Ticket) (a : CallStep) :
    (s.step (.onCall t a)).stage.ledger.call? u =
      if u = t then (s.ledger.call? u).map a.apply else s.ledger.call? u := by
  cases hcall : s.ledger.call? t with
  | none =>
    have hstage : (s.step (.onCall t a)).stage = s := by
      simp [QueueStage.step, QueueStage.perform, hcall, QueueStage.reply]
    rw [hstage]
    split
    · next heq => rw [heq, hcall, Option.map_none]
    · rfl
  | some call =>
    have hstage : (s.step (.onCall t a)).stage =
        { s with ledger := s.ledger.updateCall t a.apply } := by
      simp [QueueStage.step, QueueStage.perform, hcall, QueueStage.reply]
    rw [hstage, Ledger.call?_updateCall]

/-- Of all the steps, a call is changed by those through its own handles. -/
theorem call?_through (s : QueueStage) (t : Ticket) (steps : List (Handle × CallStep)) :
    (s.after (through refers steps)).ledger.call? t =
      (s.ledger.call? t).map (applyAll · (stepsOn refers t steps)) := by
  induction steps generalizing s with
  | nil => exact Option.map_id'.symm
  | cons a steps ih =>
    obtain ⟨h, a⟩ := a
    show ((s.step (.onCall (refers h) a)).stage.after (through refers steps)).ledger.call? t = _
    rw [ih, call?_step_onCall, stepsOn_cons]
    by_cases ht : refers h = t
    · rw [if_pos ht.symm, if_pos ht, Option.map_map]
      rfl
    · rw [if_neg (Ne.symm ht), if_neg ht]

/-- Cancellations through the handles of a call are among its steps. -/
theorem stepsOn_filter (t : Ticket) (steps : List (Handle × CallStep)) :
    stepsOn refers t (steps.filter (!·.2.isCancel)) =
      (stepsOn refers t steps).filter (!·.isCancel) := by
  rw [stepsOn, stepsOn, List.filter_map, List.filter_filter, List.filter_filter]
  simp only [Function.comp_apply, Bool.and_comm]

theorem stepsOn_append (t : Ticket) (steps more : List (Handle × CallStep)) :
    stepsOn refers t (steps ++ more) = stepsOn refers t steps ++ stepsOn refers t more := by
  rw [stepsOn, List.filter_append, List.map_append, ← stepsOn, ← stepsOn]

end Handles

variable {Handle : Type} {refers : Handle → Ticket} {s : QueueStage} {h : Handle} {host : Host}
  {duplex : Bool}

/-- Every outcome is that of a result. -/
theorem exists_ofResult (o : Outcome) : ∃ r, Outcome.ofResult r = o := by
  cases o with
  | succeeded => exact ⟨.ok (), rfl⟩
  | failed message => exact ⟨.error (.failed message), rfl⟩
  | canceled => exact ⟨.error .canceled, rfl⟩

/-- **One call.** Let a call begin with any status, and take any steps on it and on others, with any
outcomes, each through any handle. Then the status is that of the last outcome; without an outcome,
a queued call that was started is running, and every other call has its first status. The error is
the message of the first failure. Cancellation was asked for if the call bears the mark, and without
the cancellations the call is the same but for the mark. An outcome can be waited for once the
status is terminal; it is that of the status, and a failure comes with the error, or with another
text exactly if no failure was ever stored. Later steps leave the end of the call, its error and its
mark as they are. The answers of a call that steps are played on are about such a call, too. -/
theorem driven_of_handles
    (hcall : s.ledger.call? (refers h) = some { host, duplex, status := first })
    (steps : List (Handle × CallStep)) :
    (∀ o : Outcome, ∃ r, Outcome.ofResult r = o) ∧
    (∃ c, (s.after (through refers steps)).ledger.call? (refers h) = some c ∧
      Driven first (stepsOn refers (refers h) steps) c ∧
      (s.after (through refers (steps.filter (!·.2.isCancel)))).ledger.call? (refers h) =
        some { c with canceled := false } ∧
      ∀ more, ∃ c', (s.after (through refers (steps ++ more))).ledger.call? (refers h) = some c' ∧
        Lasting c c') ∧
    ∀ (own : List CallStep) (k : Nat) (a : CallStep), own[k]? = some a →
      ∃ c, (playCall { host, duplex, status := first } own)[k]? = some (a.answer 0 c, c) ∧
        Driven first (own.take (k + 1)) c := by
  refine ⟨exists_ofResult, ⟨_, ?_, driven host duplex first _, ?_, fun more =>
    ⟨_, ?_, lasting _ (stepsOn refers (refers h) more)⟩⟩, fun own k a ha =>
    ⟨_, ?_, driven host duplex first _⟩⟩
  · rw [call?_through, hcall, Option.map_some]
  · rw [call?_through, hcall, Option.map_some, stepsOn_filter, CallStep.applyAll_filter_isCancel]
  · rw [call?_through, hcall, Option.map_some, stepsOn_append, CallStep.applyAll_append]
  · rw [getElem?_playCall, ha, Option.map_some]

/-- A call that began as failed, without a message, and a queued one. -/
def twoCalls : QueueStage :=
  { ledger :=
      { queue := { limits := ⟨1, 1⟩ }
        calls := [(0, { host := ⟨"a"⟩, duplex := false, status := .failed }),
          (1, { host := ⟨"b"⟩, duplex := true, status := .queued })] }
    next := 2 }

/-- Two handles to the first call, and one to the second. -/
def clones (h : Fin 3) : Ticket := if h = 2 then 1 else 0

/-- Both clones are used. The call fails, succeeds, fails again and is started. -/
def mixedSteps : List (Fin 3 × CallStep) :=
  [(2, .setRunning), (0, .setFinished (.error (.failed "reset"))), (1, .setFinished (.ok ())),
    (2, .setFinished (.error (.failed "other"))), (1, .cancelToken),
    (0, .setFinished (.error .abandoned)), (1, .setRunning), (0, .wait)]

/-- Before any step the failure has another text; afterwards it has the first message, which the
second failure does not replace. -/
theorem driven_of_mixedSteps :
    let start : Call := { host := ⟨"a"⟩, duplex := false, status := .failed }
    let last : Call := { start with canceled := true, error := some "reset" }
    start.outcome? = some (.failed "Unknown error") ∧
      last.outcome? = some (.failed "reset") ∧
      twoCalls.ledger.call? (clones 0) = some start ∧
      (twoCalls.after (through clones mixedSteps)).ledger.call? (clones 0) = some last ∧
      (∀ o : Outcome, ∃ r, Outcome.ofResult r = o) ∧
      (∃ c, (twoCalls.after (through clones mixedSteps)).ledger.call? (clones 0) = some c ∧
        Driven .failed (stepsOn clones (clones 0) mixedSteps) c ∧
        (twoCalls.after (through clones (mixedSteps.filter (!·.2.isCancel)))).ledger.call?
            (clones 0) = some { c with canceled := false } ∧
        ∀ more, ∃ c', (twoCalls.after (through clones (mixedSteps ++ more))).ledger.call?
            (clones 0) = some c' ∧ Lasting c c') ∧
      ∀ (own : List CallStep) (k : Nat) (a : CallStep), own[k]? = some a →
        ∃ c, (playCall start own)[k]? = some (a.answer 0 c, c) ∧
          Driven .failed (own.take (k + 1)) c :=
  have hcall : twoCalls.ledger.call? (clones 0) =
      some { host := ⟨"a"⟩, duplex := false, status := .failed } := rfl
  ⟨rfl, rfl, hcall, rfl, driven_of_handles hcall mixedSteps⟩

end CallAdmission.Scenario
