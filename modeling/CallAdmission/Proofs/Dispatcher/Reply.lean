import CallAdmission.Proofs.Dispatcher.Handover

/-!
# CallAdmission.Proofs.Dispatcher.Reply

To which operation a reply belongs. An operation that hands control to code outside is answered when
that code, and the pass that the operation started, have come to their end; meanwhile other
operations may be asked for on top of it. The stack keeps them apart: what an operation comes to is
what is replied when the stack is as high again as it was.

* `Answers` — a course that begins with an operation, and ends with the reply to it;
* `Carries` — a reply is given, or left to an activity of a pass;
* `step_outer`, `step_closes` — what an operation comes to, and what the innermost activity;
* `step_follows` — what is on the stack after a step, and where its reply comes from;
* `reply_of_pass` — what was left to a pass is replied in the end, unless the pass panics.
-/

namespace CallAdmission.Dispatcher

/-! ## replies -/

/-- The reply that an activity of a pass carries. -/
def Frame.reply? : Frame → Option Reply
  | .execute _ _ _ reply | .idle _ reply => some reply
  | .openTask _ | .pollTask _ | .pollSync _ => none

/-- The message of a panic that has left an operation. -/
def Reply.panic? : Reply → Option String
  | .panicked message => some message
  | .done | .submitted _ | .ready _ | .pending | .refused _ => none

/-- The innermost activity goes on or ends. -/
def Action.isInner : Action → Bool
  | .leave | .suspend | .resolve _ | .panic _ => true
  | _ => false

/-- The last action of a course is the first after which the stack has the given height, and this is
what it replies. -/
inductive Answers (height : ℕ) (reply : Reply) : Dispatcher → List Action → Prop where
  | last {d a turn} (hstep : d.step a = .ok turn) (hback : turn.dispatcher.stack.length = height)
    (hreply : turn.reply = some reply) : Answers height reply d [a]
  | later {d a turn actions} (hstep : d.step a = .ok turn)
    (hdeep : turn.dispatcher.stack.length ≠ height)
    (hlater : Answers height reply turn.dispatcher actions) : Answers height reply d (a :: actions)

/-- The reply is given with this stack, or an activity of a pass is on top of it and carries the
reply. -/
inductive Carries (reply : Reply) (stack : List Frame) (turn : Turn) : Prop where
  | given (hstack : turn.dispatcher.stack = stack) (hreply : turn.reply = some reply)
  | left {f} (hstack : turn.dispatcher.stack = f :: stack) (hf : f.reply? = some reply)
    (hreply : turn.reply = none)

variable {d d' : Dispatcher} {a : Action} {actions : List Action} {turn : Turn} {t : Ticket}
  {o : Outcome} {es : List Event} {reply reply' : Reply} {stack : List Frame} {f : Frame}

namespace Carries

theorem after (h : Carries reply stack turn) (es : List Event) :
    Carries reply stack (turn.after es) := by
  cases h with
  | given hstack hreply => exact .given hstack hreply
  | left hstack hf hreply => exact .left hstack hf hreply

theorem suffix (h : Carries reply stack turn) : stack <:+ turn.dispatcher.stack := by
  cases h with
  | given hstack => exact hstack ▸ List.suffix_refl _
  | left hstack => exact hstack ▸ List.suffix_cons _ _

end Carries

/-! ### passes -/

theorem carries_offer (h : d.stack = stack) (rest : List Ticket) (idle : Option Callback)
    (reply : Reply) : Carries reply stack (d.offer rest idle reply) := by
  subst h
  cases rest with
  | cons t rest => exact .left rfl rfl rfl
  | nil =>
    cases idle with
    | some callback => exact .left rfl rfl rfl
    | none => exact .given rfl rfl

theorem carries_round (h : d.stack = stack) (reply : Reply) :
    Carries reply stack (d.round reply) := by
  unfold round
  split
  · exact Carries.after (carries_offer (by exact h) _ _ _) _
  · exact .given h rfl

theorem carries_resume (h : d.stack = stack) (rest : List Ticket) (idle : Option Callback)
    (reply : Reply) : Carries reply stack (d.resume rest idle reply) := by
  unfold resume
  split
  · exact carries_round (by exact h) reply
  · exact carries_offer (by exact h) rest idle reply

theorem carries_requestPass (h : d.stack = stack) (reply : Reply) :
    Carries reply stack (d.requestPass reply) := by
  unfold requestPass
  refine Carries.after ?_ _
  dsimp only
  split
  · exact .given h rfl
  · exact carries_round (by exact h) reply

/-! ### the end of a call -/

/-- What is replied at the end of a call, unless the call has no slot. -/
def Settles (reply : Reply) (stack : List Frame) (turn : Turn) : Prop :=
  ∃ reply', Carries reply' stack turn ∧
    ((∀ u, .misses u ∉ marks turn.events) → reply' = reply)

namespace Settles

theorem after (h : Settles reply stack turn) (es : List Event) :
    Settles reply stack (turn.after es) := by
  obtain ⟨reply', hcarries, hreply⟩ := h
  refine ⟨reply', hcarries.after es, fun hmisses => hreply fun u hu => hmisses u ?_⟩
  rw [Turn.after, marks_append]
  exact List.mem_append_right _ hu

theorem suffix (h : Settles reply stack turn) : stack <:+ turn.dispatcher.stack := by
  obtain ⟨reply', hcarries, -⟩ := h
  exact hcarries.suffix

theorem carries (h : Settles reply stack turn) (hmisses : ∀ u, .misses u ∉ marks turn.events) :
    Carries reply stack turn := by
  obtain ⟨reply', hcarries, hreply⟩ := h
  exact hreply hmisses ▸ hcarries

end Settles

theorem settles_complete (h : d.stack = stack) (t : Ticket) (o : Outcome) (reply : Reply) :
    Settles reply stack (d.complete t o reply) := by
  unfold complete
  split
  · next notices hr =>
    refine ⟨_, .given h rfl, fun hmisses => absurd ?_ (hmisses t)⟩
    simp [Turn.after, answer, marks_release_none hr]
  · exact ⟨reply, Carries.after (carries_requestPass (by exact h) reply) _, fun _ => rfl⟩

theorem settles_completeSync (h : d.stack = stack) (t : Ticket) (o : Outcome) (reply : Reply) :
    Settles reply stack (d.completeSync t o reply) := by
  unfold completeSync
  split
  · next notices hr =>
    refine ⟨_, .given h rfl, fun hmisses => absurd ?_ (hmisses t)⟩
    simp [Turn.after, answer, marks_releaseSync_none hr]
  · exact ⟨reply, Carries.after (carries_requestPass (by exact h) reply) _, fun _ => rfl⟩

theorem settles_abandon (h : d.stack = stack) (t : Ticket) (reply : Reply) :
    Settles reply stack (d.abandon t reply) :=
  Settles.after (settles_complete (by exact h) t _ reply) _

theorem settles_dropSlot (h : d.stack = stack) (t : Ticket) (reply : Reply) :
    Settles reply stack (d.dropSlot t reply) :=
  Settles.after (settles_completeSync (by exact h) t _ reply) _

/-! ## operations -/

/-- What is asked of a dispatcher is answered without a panic, now or when a pass ends; or a task, or
the work of a sync call, is polled first. -/
inductive Outer (a : Action) (d : Dispatcher) (turn : Turn) : Prop where
  | settles {reply : Reply} (hcalm : reply.panic? = none) (h : Settles reply d.stack turn)
  | polls {t : Ticket} {f : Frame} (ha : a = .pollRun t) (hf : f.reply? = none)
    (hstack : turn.dispatcher.stack = f :: d.stack) (hreply : turn.reply = none)
  | pollsSync {t u : Ticket} (ha : a = .pollSyncRun t)
    (hstack : turn.dispatcher.stack = .pollSync u :: d.stack) (hreply : turn.reply = none)

theorem Carries.settles (h : Carries reply stack turn) : Settles reply stack turn :=
  ⟨reply, h, fun _ => rfl⟩

theorem Outer.answers {reply : Reply} (hcalm : reply.panic? = none)
    (hstack : turn.dispatcher.stack = d.stack) (hreply : turn.reply = some reply) : Outer a d turn :=
  .settles hcalm (Carries.given hstack hreply).settles

theorem outer_poll {run : Run} (ha : a = .pollRun t) (h : d'.stack = d.stack) :
    Outer a d (d'.poll run) := by
  unfold poll
  dsimp only
  split
  · exact .settles rfl (Settles.after (settles_complete (by exact h) _ _ _) _)
  · exact .polls ha rfl (congrArg (Frame.openTask run.call :: ·) h) rfl
  · exact .settles rfl (Settles.after (settles_complete (by exact h) _ _ _) _)
  · exact .polls ha rfl (congrArg (Frame.pollTask run.call :: ·) h) rfl

theorem outer_pollSync {run : SyncRun} (ha : a = .pollSyncRun t) (h : d'.stack = d.stack) :
    Outer a d (d'.pollSync run) := by
  have hstack : Frame.pollSync run.call :: d'.stack = .pollSync run.call :: d.stack := by rw [h]
  unfold pollSync
  dsimp only
  split
  · exact .pollsSync ha hstack rfl
  · split
    · exact .settles rfl (Settles.after (settles_completeSync (by exact h) _ _ _) _)
    · exact .pollsSync ha hstack rfl

/-- Whatever is asked for comes to this. -/
theorem step_outer (hstep : d.step a = .ok turn) (ha : a.isInner = false) : Outer a d turn := by
  cases a with
  | submit r =>
    cases hstep
    exact .settles (by rfl) (Carries.after (carries_requestPass (by rfl) (.submitted d.next)) _).settles
  | submitSync | executeSync | setIdle =>
    cases hstep
    exact .answers rfl rfl rfl
  | report u r | abandon u | openRun u =>
    obtain ⟨d₁, htake, hturn⟩ := exists_of_bind_eq_ok hstep
    obtain ⟨-, rfl⟩ := takeHeld_eq_ok htake
    cases hturn
    first
    | exact .settles rfl (settles_complete (by rfl) _ _ _)
    | exact .settles rfl (settles_abandon (by rfl) _ _)
    | exact .answers rfl rfl rfl
  | pollRun u =>
    obtain ⟨⟨run, d₁⟩, htake, hturn⟩ := exists_of_bind_eq_ok hstep
    obtain ⟨-, rfl⟩ := takeRun_eq_ok htake
    cases hturn
    exact outer_poll rfl rfl
  | dropRun u =>
    obtain ⟨⟨run, d₁⟩, htake, hturn⟩ := exists_of_bind_eq_ok hstep
    obtain ⟨-, rfl⟩ := takeRun_eq_ok htake
    cases hturn
    exact .settles rfl (Settles.after (settles_abandon (by rfl) _ _) _)
  | pollSyncRun u =>
    obtain ⟨⟨run, d₁⟩, htake, hturn⟩ := exists_of_bind_eq_ok hstep
    obtain ⟨-, rfl⟩ := takeSyncRun_eq_ok htake
    cases hturn
    exact outer_pollSync rfl rfl
  | dropSyncRun u =>
    obtain ⟨⟨run, d₁⟩, htake, hturn⟩ := exists_of_bind_eq_ok hstep
    obtain ⟨-, rfl⟩ := takeSyncRun_eq_ok htake
    cases hturn
    unfold dropTakenSync
    split
    · exact .settles rfl (Settles.after (settles_dropSlot (by rfl) _ _) _)
    · exact .answers rfl rfl rfl
  | finishGuard u r =>
    obtain ⟨d₁, htake, hturn⟩ := exists_of_bind_eq_ok hstep
    obtain ⟨-, rfl⟩ := takeGuard_eq_ok htake
    cases hturn
    exact .settles rfl (settles_completeSync (by rfl) _ _ _)
  | dropGuard u =>
    obtain ⟨d₁, htake, hturn⟩ := exists_of_bind_eq_ok hstep
    obtain ⟨-, rfl⟩ := takeGuard_eq_ok htake
    cases hturn
    exact .settles rfl (settles_dropSlot (by rfl) _ _)
  | setLimit limit n =>
    cases hstep
    unfold setLimit
    split
    · exact .answers rfl rfl rfl
    · exact .settles rfl (Carries.after (carries_requestPass (by rfl) _) _).settles
  | cancel u =>
    simp only [step] at hstep
    split at hstep <;> cases hstep
    exact .answers rfl rfl rfl
  | cancelAll =>
    cases hstep
    have hstack := stack_markAllCanceled d d.ledger.queue.allCalls
    exact .answers rfl hstack rfl
  | leave | suspend | resolve | panic => cases ha

/-- Unless the innermost activity goes on or ends, all that is on the stack stays there. -/
theorem suffix_of_outer (hstep : d.step a = .ok turn) (ha : a.isInner = false) :
    d.stack <:+ turn.dispatcher.stack := by
  cases step_outer hstep ha with
  | settles _ h => exact h.suffix
  | polls _ _ hstack | pollsSync _ hstack => exact hstack ▸ List.suffix_cons _ _

/-! ## the innermost activity -/

/-- What the innermost activity replies when it ends. -/
inductive Closes (f : Frame) (stack : List Frame) (turn : Turn) : Action → Prop where
  /-- the pass goes on -/
  | passes {reply : Reply} (hf : f.reply? = some reply) (h : Carries reply stack turn) :
    Closes f stack turn .leave
  | fails {message : String} (hf : f.isPass = true) (hstack : turn.dispatcher.stack = stack)
    (hreply : turn.reply = some (.panicked message)) : Closes f stack turn (.panic message)
  /-- the task is made, and is polled now -/
  | opens {t : Ticket} (hf : f = .openTask t) (hstack : turn.dispatcher.stack = .pollTask t :: stack)
    (hreply : turn.reply = none) : Closes f stack turn .leave
  | cancels {t : Ticket} (hf : f = .openTask t) (h : Settles (.ready (.ok ())) stack turn) :
    Closes f stack turn .leave
  | suspends {t : Ticket} (hf : f = .pollTask t ∨ f = .pollSync t) (hstack : turn.dispatcher.stack = stack)
    (hreply : turn.reply = some .pending) : Closes f stack turn .suspend
  | resolves {t : Ticket} {r : Result} (hf : f = .pollTask t) (h : Settles (.ready (.ok ())) stack turn) :
    Closes f stack turn (.resolve r)
  | resolvesSync {t : Ticket} {r : Result} (hf : f = .pollSync t) (h : Settles (.ready r) stack turn) :
    Closes f stack turn (.resolve r)
  | panics {message : String} (hf : f.isPass = false) (h : Settles (.panicked message) stack turn) :
    Closes f stack turn (.panic message)

/-- A pass that a panic leaves is gone from the stack. -/
theorem stack_of_fails {message : String} (hd : Moment.Latched ⟨d, .outside⟩)
    (hstep : d.step (.panic message) = .ok turn) (hstack : d.stack = f :: stack)
    (hf : f.isPass = true) : turn.dispatcher.stack = stack := by
  cases step_shift hd hstep with
  | aside _ _ hforeign =>
    have hnot : f.isPass = false := hforeign rfl f (by rw [hstack]; rfl)
    exact absurd hf (Bool.eq_false_iff.1 hnot)
  | starts hidle => exact absurd (hd.atRest hidle) (not_atRest_of_stack hstack hf)
  | resumes ha => cases ha
  | fails _ h _ hback =>
    obtain ⟨-, rfl⟩ := List.cons.inj (h.symm.trans hstack)
    exact hback

/-- The innermost activity goes on or ends in one of these ways. -/
theorem step_closes (hd : Moment.Latched ⟨d, .outside⟩) (hstep : d.step a = .ok turn)
    (ha : a.isInner = true) : ∃ f stack, d.stack = f :: stack ∧ Closes f stack turn a := by
  cases a with
  | leave =>
    simp only [step, leave] at hstep
    split at hstep
    · next hstack =>
      cases hstep
      exact ⟨_, _, hstack, .passes rfl (carries_resume (by rfl) _ _ _)⟩
    · next hstack =>
      cases hstep
      exact ⟨_, _, hstack, .passes rfl (carries_round (by rfl) _)⟩
    · next hstack =>
      cases hstep
      refine ⟨_, _, hstack, ?_⟩
      split
      · exact .cancels rfl (Settles.after (settles_complete (by rfl) _ _ _) _)
      · exact .opens rfl rfl rfl
    · cases hstep
  | suspend =>
    simp only [step, suspend] at hstep
    split at hstep
    · next hstack =>
      cases hstep
      exact ⟨_, _, hstack, .suspends (.inl rfl) rfl rfl⟩
    · next hstack =>
      cases hstep
      exact ⟨_, _, hstack, .suspends (.inr rfl) rfl rfl⟩
    · cases hstep
  | resolve r =>
    simp only [step, resolve] at hstep
    split at hstep
    · next hstack =>
      cases hstep
      exact ⟨_, _, hstack, .resolves rfl (settles_complete (by rfl) _ _ _)⟩
    · next hstack =>
      cases hstep
      exact ⟨_, _, hstack, .resolvesSync rfl (settles_completeSync (by rfl) _ _ _)⟩
    · cases hstep
  | panic message =>
    have hback : ∀ f stack, d.stack = f :: stack → f.isPass = true → turn.dispatcher.stack = stack :=
      fun f stack => stack_of_fails hd hstep
    simp only [step, panic] at hstep
    split at hstep
    · next hstack =>
      cases hstep
      exact ⟨_, _, hstack, .fails rfl (hback _ _ hstack rfl) rfl⟩
    · next hstack =>
      cases hstep
      exact ⟨_, _, hstack, .fails rfl (hback _ _ hstack rfl) rfl⟩
    · next hstack =>
      cases hstep
      exact ⟨_, _, hstack, .panics rfl (settles_abandon (by rfl) _ _)⟩
    · next hstack =>
      cases hstep
      exact ⟨_, _, hstack, .panics rfl (Settles.after (settles_abandon (by rfl) _ _) _)⟩
    · next hstack =>
      cases hstep
      exact ⟨_, _, hstack, .panics rfl (Settles.after (settles_dropSlot (by rfl) _ _) _)⟩
    · cases hstep
  | _ => cases ha

theorem Closes.suffix (h : Closes f stack turn a) : stack <:+ turn.dispatcher.stack := by
  cases h with
  | passes _ h => exact h.suffix
  | fails _ hstack | suspends _ hstack => exact hstack ▸ List.suffix_refl _
  | opens _ hstack => exact hstack ▸ List.suffix_cons _ _
  | cancels _ h | resolves _ h | resolvesSync _ h | panics _ h => exact h.suffix

/-! ## what begins in a step -/

/-- Where a reply comes from. -/
inductive Sourced (d : Dispatcher) (a : Action) (reply : Reply) : Prop where
  /-- it tells of no panic -/
  | calm (h : reply.panic? = none)
  /-- it tells of the panic of the innermost activity -/
  | panics {message : String} {f : Frame} {stack : List Frame} (ha : a = .panic message)
    (hstack : d.stack = f :: stack) (h : reply = .panicked message)
  /-- it was left to a pass -/
  | carried {f : Frame} (hf : f ∈ d.stack) (h : f.reply? = some reply)

/-- What begins in a step. -/
inductive Begins (d : Dispatcher) (a : Action) : Frame → Prop where
  | passes {f : Frame} {reply : Reply} (hf : f.reply? = some reply) (h : Sourced d a reply) :
    Begins d a f
  /-- a run is polled, which may make a task -/
  | polls {t : Ticket} {f : Frame} (ha : a = .pollRun t) (hf : f.reply? = none) : Begins d a f
  | pollsOpened {t : Ticket} (h : .openTask t ∈ d.stack) : Begins d a (.pollTask t)
  | pollsSync {t u : Ticket} (ha : a = .pollSyncRun t) : Begins d a (.pollSync u)

/-- What is on the stack after a step was there before, or has begun in the step; and it is known
where its reply comes from. -/
structure Follows (d : Dispatcher) (a : Action) (turn : Turn) : Prop where
  stack : ∀ f ∈ turn.dispatcher.stack, f ∈ d.stack ∨ Begins d a f
  reply : ∀ reply, turn.reply = some reply → Sourced d a reply

/-- A reply is given, and nothing begins. -/
theorem Follows.of_reply (hsub : stack ⊆ d.stack) (hstack : turn.dispatcher.stack = stack)
    (hreply : turn.reply = some reply) (h : Sourced d a reply) : Follows d a turn := by
  refine ⟨fun f hf => .inl (hsub (hstack ▸ hf)), fun reply' hreply' => ?_⟩
  cases hreply.symm.trans hreply'
  exact h

/-- An activity begins, and nothing is replied. -/
theorem Follows.of_frame (hsub : stack ⊆ d.stack) (hstack : turn.dispatcher.stack = f :: stack)
    (hreply : turn.reply = none) (h : Begins d a f) : Follows d a turn := by
  refine ⟨fun g hg => ?_, fun reply' hreply' => ?_⟩
  · rw [hstack, List.mem_cons] at hg
    rcases hg with rfl | hg
    · exact .inr h
    · exact .inl (hsub hg)
  · rw [hreply] at hreply'
    cases hreply'

theorem Carries.follows (h : Carries reply stack turn) (hsub : stack ⊆ d.stack)
    (hsource : Sourced d a reply) : Follows d a turn := by
  cases h with
  | given hstack hreply => exact .of_reply hsub hstack hreply hsource
  | left hstack hf hreply => exact .of_frame hsub hstack hreply (.passes hf hsource)

theorem Settles.follows (h : Settles reply stack turn) (hsub : stack ⊆ d.stack)
    (hsource : Sourced d a reply) (hmisses : ∀ u, .misses u ∉ marks turn.events) :
    Follows d a turn :=
  (h.carries hmisses).follows hsub hsource

theorem step_follows (hd : Moment.Latched ⟨d, .outside⟩) (hstep : d.step a = .ok turn)
    (hmisses : ∀ u, .misses u ∉ marks turn.events) : Follows d a turn := by
  cases ha : a.isInner with
  | false =>
    cases step_outer hstep ha with
    | settles hcalm h => exact h.follows (List.Subset.refl _) (.calm hcalm) hmisses
    | polls ha hf hstack hreply =>
      exact .of_frame (List.Subset.refl _) hstack hreply (.polls ha hf)
    | pollsSync ha hstack hreply =>
      exact .of_frame (List.Subset.refl _) hstack hreply (.pollsSync ha)
  | true =>
    obtain ⟨f, stack, hbefore, hcloses⟩ := step_closes hd hstep ha
    have hf : f ∈ d.stack := hbefore ▸ List.mem_cons_self
    have hsub : stack ⊆ d.stack := hbefore ▸ List.subset_cons_self f stack
    cases hcloses with
    | passes hreply h => exact h.follows hsub (.carried hf hreply)
    | fails _ hstack hreply => exact .of_reply hsub hstack hreply (.panics rfl hbefore rfl)
    | opens hopen hstack hreply =>
      exact .of_frame hsub hstack hreply (.pollsOpened (hopen ▸ hf))
    | cancels _ h | resolves _ h | resolvesSync _ h =>
      exact h.follows hsub (.calm rfl) hmisses
    | suspends _ hstack hreply => exact .of_reply hsub hstack hreply (.calm rfl)
    | panics _ h => exact h.follows hsub (.panics rfl hbefore rfl) hmisses

/-! ## courses -/

/-- What is below the innermost activity stays, and so does the whole stack unless that activity
goes on or ends. -/
theorem step_below {inner : List Frame} (hd : Moment.Latched ⟨d, .outside⟩) (hstep : d.step a = .ok turn)
    (hstack : d.stack = inner ++ f :: stack) :
    (∃ inner', turn.dispatcher.stack = inner' ++ f :: stack) ∨
      d.stack = f :: stack ∧ a.isInner = true ∧ Closes f stack turn a := by
  cases ha : a.isInner with
  | false =>
    obtain ⟨top, htop⟩ := suffix_of_outer hstep ha
    exact .inl ⟨top ++ inner, by rw [← htop, hstack, List.append_assoc]⟩
  | true =>
    obtain ⟨g, below, hbelow, hcloses⟩ := step_closes hd hstep ha
    cases inner with
    | nil =>
      obtain ⟨rfl, rfl⟩ := List.cons.inj (hbelow.symm.trans hstack)
      exact .inr ⟨hstack, rfl, hcloses⟩
    | cons h inner =>
      obtain ⟨rfl, rfl⟩ := List.cons.inj (hbelow.symm.trans hstack)
      obtain ⟨top, htop⟩ := hcloses.suffix
      refine .inl ⟨top ++ inner, ?_⟩
      rw [← htop, List.append_assoc]
      rfl

/-- An activity above the height of the stack is not answered yet. -/
theorem length_ne_of_below (inner : List Frame) (h : d.stack = inner ++ f :: stack) : d.stack.length ≠ stack.length := by
  rw [h, List.length_append, List.length_cons]
  omega

/-- An activity of a pass passes its reply on, unless it panics. -/
theorem Closes.of_pass (h : Closes f stack turn a) (hf : f.reply? = some reply') :
    Carries reply' stack turn ∨ turn.dispatcher.stack = stack ∧
      ∃ message, a = .panic message ∧ turn.reply = some (.panicked message) := by
  cases h with
  | passes hf' h =>
    cases hf.symm.trans hf'
    exact .inl h
  | fails _ hstack hreply => exact .inr ⟨hstack, _, rfl, hreply⟩
  | opens hf' | cancels hf' | resolves hf' | resolvesSync hf' =>
    rw [hf'] at hf
    cases hf
  | suspends hf' => rcases hf' with rfl | rfl <;> cases hf
  | panics hf' => cases f <;> simp_all [Frame.reply?, Frame.isPass]

/-- What an operation has left to its pass is replied in the end, unless the pass panics. -/
theorem reply_of_pass (inner : List Frame) (h : Answers stack.length reply d actions)
    (hd : Moment.Latched ⟨d, .outside⟩) (hstack : d.stack = inner ++ f :: stack)
    (hf : f.reply? = some reply') :
    reply = reply' ∨ ∃ message, reply = .panicked message := by
  induction h generalizing inner f with
  | last hstep hback hreply =>
    rcases step_below hd hstep hstack with ⟨inner', habove⟩ | ⟨-, -, hcloses⟩
    · exact absurd hback (length_ne_of_below _ habove)
    · rcases hcloses.of_pass hf with (⟨-, hgiven⟩ | ⟨hleft, -, -⟩) | ⟨-, message, -, hgiven⟩
      · exact .inl (Option.some.inj (hreply.symm.trans hgiven))
      · exact absurd hback (length_ne_of_below [] hleft)
      · exact .inr ⟨message, Option.some.inj (hreply.symm.trans hgiven)⟩
  | later hstep hdeep hlater ih =>
    have hd' := (reaches_step hd hstep).latched hd
    rcases step_below hd hstep hstack with ⟨inner', habove⟩ | ⟨-, -, hcloses⟩
    · exact ih inner' hd' habove hf
    · rcases hcloses.of_pass hf with (⟨hback, -⟩ | ⟨hleft, hcarried, -⟩) | ⟨hback, -⟩
      · exact absurd (congrArg List.length hback) hdeep
      · exact ih [] hd' hleft hcarried
      · exact absurd (congrArg List.length hback) hdeep

/-- What a step replies, or leaves to a pass, is replied in the end, unless the pass panics. -/
theorem reply_of_carries (h : Answers stack.length reply d (a :: actions))
    (hd : Moment.Latched ⟨d, .outside⟩) (hstep : d.step a = .ok turn)
    (hcarries : Carries reply' stack turn) :
    reply = reply' ∨ ∃ message, reply = .panicked message := by
  cases h with
  | last hstep' hback hreply =>
    cases hstep'.symm.trans hstep
    rcases hcarries with ⟨-, hgiven⟩ | ⟨hleft, -, -⟩
    · exact .inl (Option.some.inj (hreply.symm.trans hgiven))
    · exact absurd hback (length_ne_of_below [] hleft)
  | later hstep' hdeep hlater =>
    cases hstep'.symm.trans hstep
    rcases hcarries with ⟨hback, -⟩ | ⟨hleft, hcarried, -⟩
    · exact absurd (congrArg List.length hback) hdeep
    · exact reply_of_pass [] hlater ((reaches_step hd hstep).latched hd) hleft hcarried

end CallAdmission.Dispatcher
