import CallAdmission.Proofs.Dispatcher.Move

/-!
# CallAdmission.Proofs.Dispatcher.Decomposition

Every step of a dispatcher is a series of moves, and the events of the step are those of the moves.
Code outside makes the first of them; if a pass has control then, the others are its own, until it
gives control away. The panic of a pass is the one place where this needs something of the
dispatcher: while the calls that are left are abandoned, their requests must find the pass still
under way.

* `Onward`, `Anatomy` — what a pass does, and what makes up a step;
* `anatomy_requestPass` — a request, with the pass that it sets going;
* `anatomy_complete`, `anatomy_completeSync` — the end of a call;
* `concludes_unwind` — the end of a pass by a panic;
* `anatomy_step`, `reaches_step` — every step.
-/

namespace CallAdmission.Dispatcher

/-- The turn, and its events, come about by a series of moves. -/
def Reaches (a : Action) (m : Moment) (turn : Turn) : Prop :=
  Moves a m turn.events ⟨turn.dispatcher, .outside⟩

/-- The moves of a pass that has control, until it gives control away. -/
inductive Onward (a : Action) : Moment → List Event → Dispatcher → Prop where
  | nil (d : Dispatcher) : Onward a ⟨d, .outside⟩ [] d
  | cons {m m₁ es es' d} (hm : m.phase ≠ .outside) (h : Move a m es m₁) (hs : Onward a m₁ es' d) :
    Onward a m (es ++ es') d

/-- A pass that has control brings the turn to its end. -/
def Concludes (a : Action) (m : Moment) (turn : Turn) : Prop :=
  Onward a m turn.events turn.dispatcher

/-- What makes up a step: it is refused, or code outside makes one move, and a pass that has control
then brings the turn to its end. -/
inductive Anatomy (a : Action) (d : Dispatcher) : Turn → Prop where
  | refused {limit n} (ha : a = .setLimit limit n) (e : DispatchError) :
    Anatomy a d (d.answer (.refused e))
  | opened {es m turn} (h : Move a ⟨d, .outside⟩ es m) (hs : Concludes a m turn) :
    Anatomy a d (turn.after es)

variable {a : Action} {m m₁ : Moment} {d d₁ : Dispatcher} {turn : Turn} {reply : Reply}
  {es es' : List Event}

theorem Onward.moves (h : Onward a m es d) : Moves a m es ⟨d, .outside⟩ := by
  induction h with
  | nil d => exact Moves.nil _
  | cons _ hmove _ ih => exact Moves.cons hmove ih

theorem Anatomy.reaches (h : Anatomy a d turn) : Reaches a ⟨d, .outside⟩ turn := by
  cases h with
  | refused ha e => exact Moves.nil _
  | opened hmove hs => exact Moves.cons hmove hs.moves

theorem Turn.after_after (turn : Turn) (es es' : List Event) :
    (turn.after es).after es' = turn.after (es' ++ es) := by
  simp [after]

theorem Concludes.after (h : Concludes a m₁ turn) (hm : m.phase ≠ .outside)
    (hmove : Move a m es m₁) : Concludes a m (turn.after es) :=
  Onward.cons hm hmove h

/-- A move by which a pass gives control away is the last one. -/
theorem Move.concludes (hmove : Move a m es ⟨d, .outside⟩) (hm : m.phase ≠ .outside)
    (reply : Option Reply) : Concludes a m ⟨d, es, reply⟩ := by
  have hlast := Onward.cons hm hmove (Onward.nil d)
  rwa [List.append_nil] at hlast

/-- A move from outside after which no pass has control is the whole step. -/
theorem Move.anatomy (hmove : Move a ⟨d, .outside⟩ es ⟨d₁, .outside⟩) (reply : Option Reply) :
    Anatomy a d ⟨d₁, es, reply⟩ := by
  have hwhole : Anatomy a d (Turn.after ⟨d₁, [], reply⟩ es) := Anatomy.opened hmove (Onward.nil d₁)
  simpa [Turn.after] using hwhole

theorem Move.anatomy_answer (hmove : Move a ⟨d, .outside⟩ es ⟨d₁, .outside⟩) :
    Anatomy a d ((d₁.answer reply).after es) :=
  Anatomy.opened hmove (Onward.nil d₁)

/-! ## the pass -/

/-- A pass hands over its next call, or invokes the callback, or ends. -/
theorem concludes_offer (rest : List Ticket) (idle : Option Callback)
    (hlast : rest = [] → idle = none → d.pending = false) :
    Concludes a ⟨d, .passing rest idle⟩ (d.offer rest idle reply) := by
  match rest, idle with
  | t :: rest, idle => exact (Move.handOver reply).concludes nofun none
  | [], some callback => exact (Move.invoke reply).concludes nofun none
  | [], none => exact (Move.close (hlast rfl rfl)).concludes nofun (some reply)

/-- A pass that has nothing left to do goes round once more, or ends. -/
theorem concludes_round : Concludes a ⟨d, .passing [] none⟩ (d.round reply) := by
  unfold round
  split
  · next hpending =>
    exact (concludes_offer _ _ fun _ _ => rfl).after nofun (Move.promote hpending)
  · next hpending => exact (Move.close (by simpa using hpending)).concludes nofun (some reply)

/-- A pass is taken up again. -/
theorem concludes_resume (rest : List Ticket) (idle : Option Callback) :
    Concludes a ⟨d, .passing rest idle⟩ (d.resume rest idle reply) := by
  match rest, idle with
  | [], none => exact concludes_round
  | t :: rest, idle => exact concludes_offer (t :: rest) idle nofun
  | [], some callback => exact concludes_offer [] (some callback) nofun

/-- While a pass is under way, a request is noted. -/
theorem requestPass_of_promoting (h : d.promoting = true) :
    requestPass d reply = (answer (request d).dispatcher reply).after [.passRequested] := by
  simp [requestPass, request, h]

/-- Without a pass, a request starts one. -/
theorem requestPass_of_not_promoting (h : d.promoting = false) :
    requestPass d reply = (round (request d).dispatcher reply).after [.passRequested] := by
  simp [requestPass, request, h]

/-- A request is the last of a move; what follows are the moves of a pass, if one is set going. -/
theorem anatomy_requestPass (hmove : Move a ⟨d₁, .outside⟩ (es ++ [.passRequested]) (request d)) :
    Anatomy a d₁ ((requestPass d reply).after es) := by
  cases hp : d.promoting with
  | true =>
    have hphase : (request d).phase = .outside := by simp [request, hp]
    rw [requestPass_of_promoting hp, Turn.after_after]
    exact Move.anatomy_answer (hphase ▸ hmove)
  | false =>
    have hphase : (request d).phase = .passing [] none := by simp [request, hp]
    rw [requestPass_of_not_promoting hp, Turn.after_after]
    refine Anatomy.opened (m := ⟨(request d).dispatcher, .passing [] none⟩) ?_ concludes_round
    exact hphase ▸ hmove

/-! ## the end of a call -/

theorem anatomy_complete {t : Ticket} {o : Outcome} (h : Ends a d es t o d₁) :
    Anatomy a d ((d₁.complete t o reply).after es) := by
  unfold complete
  cases hr : d₁.ledger.release t with
  | mk l notices =>
    cases l with
    | none =>
      simp only [Turn.after_after]
      exact (Move.miss h hr).anatomy_answer
    | some l =>
      simp only [Turn.after_after]
      exact anatomy_requestPass (Move.complete h hr)

theorem anatomy_completeSync {t : Ticket} {o : Outcome} (h : EndsSync a d es t o d₁) :
    Anatomy a d ((d₁.completeSync t o reply).after es) := by
  unfold completeSync
  cases hr : d₁.ledger.releaseSync t with
  | mk l notices =>
    cases l with
    | none =>
      simp only [Turn.after_after]
      exact (Move.missSync h hr).anatomy_answer
    | some l =>
      simp only [Turn.after_after]
      exact anatomy_requestPass (Move.completeSync h hr)

/-! ## the end of a pass by a panic -/

/-- While a pass is under way, abandoning a call is a single move. -/
theorem move_abandon (hp : d.promoting = true) (t : Ticket) (rest : List Ticket) :
    Move a ⟨d, .leaving (t :: rest)⟩ (d.abandon t .done).events
        ⟨(d.abandon t .done).dispatcher, .leaving rest⟩ ∧
      (d.abandon t .done).dispatcher.promoting = true := by
  unfold abandon complete
  cases hr : d.ledger.release t with
  | mk l notices =>
    cases l with
    | none => exact ⟨by simpa [Turn.after, answer] using Move.abandonMiss hr, hp⟩
    | some l =>
      have hmove : Move a ⟨d, .leaving (t :: rest)⟩ _ ⟨_, .leaving rest⟩ := Move.abandon hp hr
      simp only [requestPass, hp, if_true]
      exact ⟨by simpa [Turn.after, answer, hp] using hmove, rfl⟩

/-- A panic leaves a pass: the calls that are left are abandoned one after the other, and the latch
is opened. -/
theorem concludes_unwind (hp : d.promoting = true) (rest : List Ticket) (message : String) :
    Concludes a ⟨d, .leaving rest⟩ (d.unwind rest message) := by
  induction rest generalizing d with
  | nil => exact Move.unlatch.concludes nofun _
  | cons t rest ih =>
    obtain ⟨hmove, hp'⟩ := move_abandon (a := a) hp t rest
    exact Onward.cons nofun hmove (ih hp')

/-- The innermost activity outside is one of a pass only while the pass is under way. -/
theorem Moment.Latched.promoting_of_stack {f : Frame} {stack : List Frame}
    (h : Moment.Latched ⟨d, .outside⟩) (hstack : d.stack = f :: stack) (hf : f.isPass = true) :
    d.promoting = true := by
  unfold Moment.Latched at h
  cases hp : d.promoting with
  | true => rfl
  | false => simp [hstack, hf, hp] at h

/-! ## a step -/

theorem anatomy_poll {t : Ticket} {run : Run} (ha : a = .pollRun t)
    (h : d.takeRun t = .ok (run, d₁)) : Anatomy a d (d₁.poll run) := by
  subst ha
  unfold poll
  cases hs : run.started <;> cases hc : d₁.ledger.isCanceled run.call <;> simp only [hc]
  · exact (Move.openTask rfl h hs hc).anatomy none
  · exact anatomy_complete (Ends.cancelUnstarted h hs hc)
  · exact (Move.pollTask rfl h hs hc).anatomy none
  · exact anatomy_complete (Ends.cancelStarted h hs hc)

theorem anatomy_pollSync {t : Ticket} {run : SyncRun} (ha : a = .pollSyncRun t)
    (h : d.takeSyncRun t = .ok (run, d₁)) : Anatomy a d (d₁.pollSync run) := by
  subst ha
  unfold pollSync
  cases hs : run.started with
  | false => exact (Move.startSync rfl h hs).anatomy none
  | true =>
    simp only
    split
    · next hc => exact anatomy_completeSync (EndsSync.cancelStarted h hs hc)
    · next hc => exact (Move.pollSync rfl h hs (by simpa using hc)).anatomy none

/-- The innermost activity returns. -/
theorem anatomy_leave (h : d.leave = .ok turn) : Anatomy .leave d turn := by
  unfold leave at h
  split at h
  · next t rest idle reply stack hstack =>
    cases h
    exact Anatomy.opened (Move.resume rfl hstack) (concludes_resume rest idle)
  · next callback reply stack hstack =>
    cases h
    exact Anatomy.opened (Move.resumeIdle rfl hstack) concludes_round
  · next t stack hstack =>
    cases h
    split
    · next hc => exact anatomy_complete (Ends.cancelOpened hstack hc)
    · next hc => exact (Move.pollOpened rfl hstack (by simpa using hc)).anatomy none
  · contradiction

/-- The polled task is not ready. -/
theorem anatomy_suspend (h : d.suspend = .ok turn) : Anatomy .suspend d turn := by
  unfold suspend at h
  split at h
  · next t stack hstack =>
    cases h
    exact (Move.suspend rfl hstack).anatomy _
  · next t stack hstack =>
    cases h
    exact (Move.suspendSync rfl hstack).anatomy _
  · contradiction

/-- The polled task is ready. -/
theorem anatomy_resolve {r : Result} (h : d.resolve r = .ok turn) :
    Anatomy (.resolve r) d turn := by
  unfold resolve at h
  split at h
  · next t stack hstack =>
    cases h
    exact anatomy_complete (Ends.resolve hstack)
  · next t stack hstack =>
    cases h
    exact anatomy_completeSync (EndsSync.resolve hstack)
  · contradiction

/-- The innermost activity panics. -/
theorem anatomy_panic {message : String} (hd : Moment.Latched ⟨d, .outside⟩)
    (h : d.panic message = .ok turn) : Anatomy (.panic message) d turn := by
  unfold panic at h
  split at h
  · next t rest idle reply stack hstack =>
    cases h
    have hp : { d with stack }.promoting = true := hd.promoting_of_stack hstack rfl
    exact Anatomy.opened (Move.fail rfl hstack) (concludes_unwind hp rest message)
  · next callback reply stack hstack =>
    cases h
    have hp : { d with stack }.promoting = true := hd.promoting_of_stack hstack rfl
    exact Anatomy.opened (Move.failIdle rfl hstack) (concludes_unwind hp [] message)
  · next t stack hstack =>
    cases h
    exact anatomy_complete (Ends.panicOpening hstack)
  · next t stack hstack =>
    cases h
    rw [abandon, Turn.after_after]
    exact anatomy_complete (Ends.panicPolled hstack)
  · next t stack hstack =>
    cases h
    rw [dropSlot, Turn.after_after]
    exact anatomy_completeSync (EndsSync.panicPolled hstack)
  · contradiction

/-- What a computation that succeeds comes by. -/
theorem exists_of_bind_eq_ok {ε α β : Type} {x : Except ε α} {f : α → Except ε β} {y : β}
    (h : x >>= f = .ok y) : ∃ v, x = .ok v ∧ f v = .ok y := by
  cases x with
  | error e => contradiction
  | ok v => exact ⟨v, rfl, h⟩

/-- What makes up a step of a latched dispatcher. -/
theorem anatomy_step (hd : Moment.Latched ⟨d, .outside⟩) (h : d.step a = .ok turn) :
    Anatomy a d turn := by
  cases a with
  | submit r =>
    cases h
    exact anatomy_requestPass (Move.submit rfl)
  | submitSync host =>
    cases h
    exact (Move.submitSync rfl).anatomy_answer
  | executeSync host =>
    cases h
    exact (Move.reserveSync rfl).anatomy _
  | report t r =>
    obtain ⟨d₁, htake, hturn⟩ := exists_of_bind_eq_ok h
    cases hturn
    exact anatomy_complete (Ends.report htake)
  | abandon t =>
    obtain ⟨d₁, htake, hturn⟩ := exists_of_bind_eq_ok h
    cases hturn
    exact anatomy_complete (Ends.abandon htake)
  | openRun t =>
    obtain ⟨d₁, htake, hturn⟩ := exists_of_bind_eq_ok h
    cases hturn
    exact (Move.openRun rfl htake).anatomy _
  | pollRun t =>
    obtain ⟨⟨run, d₁⟩, htake, hturn⟩ := exists_of_bind_eq_ok h
    cases hturn
    exact anatomy_poll rfl htake
  | dropRun t =>
    obtain ⟨⟨run, d₁⟩, htake, hturn⟩ := exists_of_bind_eq_ok h
    cases hturn
    rw [dropTaken, abandon, Turn.after_after]
    exact anatomy_complete (Ends.dropRun htake)
  | pollSyncRun t =>
    obtain ⟨⟨run, d₁⟩, htake, hturn⟩ := exists_of_bind_eq_ok h
    cases hturn
    exact anatomy_pollSync rfl htake
  | dropSyncRun t =>
    obtain ⟨⟨run, d₁⟩, htake, hturn⟩ := exists_of_bind_eq_ok h
    cases hturn
    unfold dropTakenSync
    split
    · next hs =>
      rw [dropSlot, Turn.after_after]
      exact anatomy_completeSync (EndsSync.dropRun htake hs)
    · next hs => exact (Move.dropUnstarted rfl htake (by simpa using hs)).anatomy _
  | finishGuard t r =>
    obtain ⟨d₁, htake, hturn⟩ := exists_of_bind_eq_ok h
    cases hturn
    exact anatomy_completeSync (EndsSync.finishGuard htake)
  | dropGuard t =>
    obtain ⟨d₁, htake, hturn⟩ := exists_of_bind_eq_ok h
    cases hturn
    exact anatomy_completeSync (EndsSync.dropGuard htake)
  | setLimit limit n =>
    cases h
    unfold setLimit
    split
    · next e he => exact Anatomy.refused rfl e
    · next l notices hl => exact anatomy_requestPass (Move.setLimit rfl hl)
  | setIdle idle =>
    cases h
    exact (Move.setIdle rfl).anatomy _
  | cancel t =>
    rw [step] at h
    split at h
    · contradiction
    · cases h
      exact (Move.cancel rfl).anatomy_answer
  | cancelAll =>
    cases h
    exact (Move.cancelAll rfl).anatomy_answer
  | leave => exact anatomy_leave h
  | suspend => exact anatomy_suspend h
  | resolve r => exact anatomy_resolve h
  | panic message => exact anatomy_panic hd h

/-- Every step of a latched dispatcher is a series of moves. -/
theorem reaches_step (hd : Moment.Latched ⟨d, .outside⟩) (h : d.step a = .ok turn) :
    Reaches a ⟨d, .outside⟩ turn :=
  (anatomy_step hd h).reaches

end CallAdmission.Dispatcher
