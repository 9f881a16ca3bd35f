import CallAdmission.Proofs.Dispatcher.Lifecycle
import CallAdmission.Proofs.Dispatcher.Relay
import Mathlib.Data.List.TakeWhile

/-!
# CallAdmission.Proofs.Dispatcher.Handover

What becomes of the calls that passes admit. Each is handed to the executor, once, in the order of
admission. Only where a hand-over panics are the calls that the same pass had yet to hand over
forgone: they fail, and their work is never asked for a task. At no time is the executor or the
callback invoked while another such invocation goes on.

* `Fate`, `fatesOf` — what becomes of admitted calls in a course;
* `step_account` — a step hands over, or forgoes, the calls that were admitted first;
* `step_exclusive` — who is on the stack when the executor or the callback is invoked;
* `Move.work` — a task that is made or polled is on top of the stack;
* `handover_of_follow` — the discipline of hand-overs.
-/

namespace CallAdmission.Dispatcher

variable {a : Action} {m₁ : Moment} {d d₁ : Dispatcher} {turn : Turn} {t : Ticket} {o : Outcome}
  {es : List Event} {f : Frame} {stack : List Frame}

/-! ## activities of passes -/

theorem base_eq_nil_iff : base stack = [] ↔ ∀ f ∈ stack, f.isPass = false := by
  simp [base, List.dropWhile_eq_nil_iff]

/-- With an activity of a pass on top of the stack, a dispatcher is not at rest. -/
theorem not_atRest_of_stack (h : d.stack = f :: stack) (hf : f.isPass = true) : ¬ d.AtRest := by
  intro hrest
  rw [AtRest, h, List.forall_mem_cons, hf] at hrest
  exact Bool.false_ne_true hrest.1.symm

/-- Only activities of passes have calls to hand over. -/
theorem rest_of_not_isPass {f : Frame} (h : f.isPass = false) : f.rest = [] := by
  cases f <;> first | rfl | cases h

/-- The calls that were admitted and that a pass has yet to hand over. -/
def awaiting (d : Dispatcher) : List Ticket := d.stack.flatMap Frame.rest

/-- What only activities of passes have is found from the innermost of them on. -/
theorem flatMap_base {α : Type} {g : Frame → List α} (hg : ∀ f : Frame, f.isPass = false → g f = [])
    (stack : List Frame) : (base stack).flatMap g = stack.flatMap g := by
  induction stack with
  | nil => rfl
  | cons f stack ih =>
    cases hf : f.isPass with
    | true => rw [base_cons_of_isPass hf]
    | false => rw [base_cons_of_not_isPass hf, List.flatMap_cons, hg f hf, List.nil_append, ih]

/-- Without an activity of a pass there are no calls to hand over. -/
theorem flatMap_rest_eq_nil (h : ∀ f ∈ stack, f.isPass = false) : stack.flatMap Frame.rest = [] :=
  List.flatMap_eq_nil_iff.2 fun f hf => rest_of_not_isPass (h f hf)

namespace Moment.Latched

/-- There is no second activity of a pass. -/
theorem alone (hd : Moment.Latched ⟨d, .outside⟩) (h : d.stack = f :: stack)
    (hf : f.isPass = true) : ∀ g ∈ stack, g.isPass = false := by
  have hle : d.promoting.toNat ≤ 1 := Bool.toNat_le _
  unfold Moment.Latched at hd
  rw [h, List.countP_cons_of_pos hf] at hd
  simp only [Phase.passes] at hd
  have hnone : stack.countP Frame.isPass = 0 := by omega
  intro g hg
  simpa using List.countP_eq_zero.1 hnone g hg

/-- While the latch is down, no activity of a pass is on the stack. -/
theorem atRest (hd : Moment.Latched ⟨d, .outside⟩) (h : d.promoting = false) : d.AtRest := by
  unfold Moment.Latched at hd
  simp only [Phase.passes, h, Bool.toNat_false] at hd
  have hnone : d.stack.countP Frame.isPass = 0 := by omega
  intro g hg
  simpa using List.countP_eq_zero.1 hnone g hg

end Moment.Latched

/-! ## what becomes of admitted calls -/

/-- What becomes of an admitted call. -/
inductive Fate where
  | handed (t : Ticket)
  /-- the pass was left before it handed the call over -/
  | forgone (t : Ticket)
deriving DecidableEq, Repr

def Fate.call : Fate → Ticket
  | .handed t | .forgone t => t

def Fate.handed? : Fate → Option Ticket
  | .handed t => some t
  | .forgone _ => none

/-- The calls that are forgone when an activity panics: those that its pass has yet to hand over. -/
def forgone (d : Dispatcher) (a : Action) : List Ticket :=
  match a, d.stack with
  | .panic _, f :: _ => f.rest
  | _, _ => []

/-- What becomes of admitted calls in a step. -/
def fates (d : Dispatcher) (a : Action) (turn : Turn) : List Fate :=
  (d.forgone a).map .forgone ++ (handed turn.events).map .handed

/-- What becomes of admitted calls in a course, in order. -/
def fatesOf (d : Dispatcher) (actions : List Action) : List Fate := gather fates d actions

theorem map_call_fates (d : Dispatcher) (a : Action) (turn : Turn) :
    (fates d a turn).map Fate.call = d.forgone a ++ handed turn.events := by
  simp [fates, Function.comp_def, Fate.call]

theorem filterMap_handed_fates (d : Dispatcher) (a : Action) (turn : Turn) :
    (fates d a turn).filterMap Fate.handed? = handed turn.events := by
  simp [fates, List.filterMap_map, Function.comp_def, Fate.handed?]

/-- Nothing is forgone unless an activity of a pass panics. -/
theorem forgone_eq_nil (h : a.isEnd = true → ∀ f ∈ d.stack.head?, f.isPass = false) :
    d.forgone a = [] := by
  cases a with
  | panic message =>
    cases hstack : d.stack with
    | nil => simp [forgone, hstack]
    | cons f stack =>
      have hf : f.isPass = false := h rfl f (by simp [hstack])
      simp [forgone, hstack, rest_of_not_isPass hf]
  | _ => rfl

/-- A pass that gets control hands over the first of the calls that it has, and keeps the others
for later. -/
theorem awaiting_of_yields {rest : List Ticket} {idle : Option Callback} {next : Option Frame}
    {d' : Dispatcher} (h : Yields d rest idle es d' next) (hd : ∀ f ∈ d.stack, f.isPass = false) :
    rest ++ Log.admissions (log es) = handed es ++ d'.awaiting := by
  rw [h.account, awaiting, h.stack, List.flatMap_append, flatMap_rest_eq_nil hd, List.append_nil]

/-- The calls that a step hands over or forgoes are the first of those that wait for it and of
those that it admits; the others go on waiting for it. -/
theorem step_account (hd : Moment.Latched ⟨d, .outside⟩) (hstep : d.step a = .ok turn) :
    d.awaiting ++ Log.admissions (log turn.events) =
      (fates d a turn).map Fate.call ++ turn.dispatcher.awaiting := by
  rw [map_call_fates]
  cases step_shift hd hstep with
  | aside hbase _ hforeign hes =>
    have hrest : ∀ f : Frame, f.isPass = false → f.rest = [] := fun _ => rest_of_not_isPass
    rw [forgone_eq_nil hforeign, hes.admissions, hes.handed, awaiting, awaiting,
      ← flatMap_base hrest d.stack, ← hbase, flatMap_base hrest]
    simp
  | @starts d₁ next hidle hbase _ _ hyields =>
    have hrest := hd.atRest hidle
    have hbefore : d.awaiting = [] := flatMap_rest_eq_nil hrest
    have hforgone : d.forgone a = [] :=
      forgone_eq_nil fun _ f hf => hrest f (List.mem_of_mem_head? hf)
    have hnone : ∀ f ∈ d₁.stack, f.isPass = false := by
      rw [← base_eq_nil_iff, hbase, base_eq_nil_iff]
      exact hrest
    rw [hbefore, hforgone]
    exact awaiting_of_yields hyields hnone
  | resumes ha h hf hyields =>
    have hnone := hd.alone h hf
    have hbefore := flatMap_rest_eq_nil hnone
    have hforgone : d.forgone a = [] := by rw [ha]; rfl
    have haccount := awaiting_of_yields hyields hnone
    rw [hforgone, awaiting, h, List.flatMap_cons, hbefore, List.append_nil, List.nil_append]
    exact haccount
  | fails ha h hf hstack hes =>
    have hnone := flatMap_rest_eq_nil (hd.alone h hf)
    simp [ha, forgone, h, hes.admissions, hes.handed, awaiting, hstack, hnone]

/-! ## who is on the stack -/

/-- What a step keeps to, whatever it is taken on. -/
structure Exclusive (d : Dispatcher) (a : Action) (turn : Turn) : Prop where
  /-- when the executor or the callback is invoked, nobody else is invoked in the step, and this
  invocation is the only one on the stack -/
  alone : ∀ e ∈ turn.events, e.isHandOff = true → ∃ f stack, turn.dispatcher.stack = f :: stack ∧
    f.isPass = true ∧ handOffs turn.events = f.handOff ∧ ∀ g ∈ stack, g.isPass = false
  /-- while no pass is under way, a request is answered by a pass of its own -/
  answered : d.AtRest → .passRequested ∈ turn.events → .passStarted ∈ turn.events
  /-- a panic of an invocation ends the pass; the calls that the pass has yet to hand over end in
  the order of their admission, and nobody is invoked -/
  panicked : ∀ message f stack, a = .panic message → d.stack = f :: stack → f.isPass = true →
    turn.dispatcher.promoting = false ∧ handOffs turn.events = [] ∧
      marks turn.events = f.rest.map .ends

/-- A pass that gets control leaves one invocation on the stack, or none. -/
theorem alone_of_yields {rest : List Ticket} {idle : Option Callback} {next : Option Frame}
    {d' : Dispatcher} (h : Yields d rest idle es d' next) (hd : ∀ f ∈ d.stack, f.isPass = false)
    {e : Event} (he : e ∈ es) (hinvoked : e.isHandOff = true) :
    ∃ f stack, d'.stack = f :: stack ∧ f.isPass = true ∧ handOffs es = f.handOff ∧
      ∀ g ∈ stack, g.isPass = false := by
  have hmem : e ∈ handOffs es := List.mem_filter.2 ⟨he, hinvoked⟩
  cases next with
  | none =>
    rw [h.handOffs] at hmem
    cases hmem
  | some f =>
    exact ⟨f, d.stack, h.stack, h.isPass f rfl, by rw [h.handOffs]; exact List.append_nil _, hd⟩

theorem step_exclusive (hd : Moment.Latched ⟨d, .outside⟩) (hstep : d.step a = .ok turn)
    (hmisses : ∀ t, .misses t ∉ marks turn.events) : Exclusive d a turn := by
  have hd' : Moment.Latched ⟨turn.dispatcher, .outside⟩ := (reaches_step hd hstep).latched hd
  have hinert : ∀ {e}, Inert turn.events → e ∈ turn.events → ¬ e.isHandOff = true := fun hes he =>
    List.filter_eq_nil_iff.1 hes.handOffs _ he
  cases step_shift hd hstep with
  | aside hbase _ hforeign hes hrequest =>
    refine ⟨fun e he hinvoked => absurd hinvoked (hinert hes he), fun hrest hrequested => ?_, ?_⟩
    · have hdown := promoting_eq_false_of_atRest hd hrest
      exact absurd (hrequest hrequested) (Bool.eq_false_iff.1 hdown)
    · rintro message f stack rfl hstack hf
      have hnot : f.isPass = false := hforeign rfl f (by rw [hstack]; rfl)
      exact absurd hf (Bool.eq_false_iff.1 hnot)
  | @starts d₁ next hidle hbase _ hpending hyields =>
    have hrest := hd.atRest hidle
    have hnone : ∀ f ∈ d₁.stack, f.isPass = false := by
      rw [← base_eq_nil_iff, hbase, base_eq_nil_iff]
      exact hrest
    refine ⟨fun e he hinvoked => alone_of_yields hyields hnone he hinvoked, fun _ _ => ?_, ?_⟩
    · have hpasses := hyields.passes
      rw [hpending, hyields.answered (.inl ⟨rfl, rfl⟩)] at hpasses
      have hpos : 0 < passCount turn.events := by
        simp only [Bool.toNat_false, Bool.toNat_true] at hpasses
        omega
      obtain ⟨e, he, hstart⟩ := List.countP_pos_iff.1 hpos
      cases e <;> first | exact he | cases hstart
    · rintro message f stack - hstack hf
      exact absurd hrest (not_atRest_of_stack hstack hf)
  | @resumes f stack next ha h hf hyields =>
    have hnone := hd.alone h hf
    refine ⟨fun e he hinvoked => alone_of_yields hyields hnone he hinvoked,
      fun hrest _ => absurd hrest (not_atRest_of_stack h hf), ?_⟩
    rintro message f stack rfl - -
    cases ha
  | @fails f stack message ha h hf hstack hes hmarks =>
    refine ⟨fun e he hinvoked => absurd hinvoked (hinert hes he),
      fun hrest _ => absurd hrest (not_atRest_of_stack h hf), ?_⟩
    rintro _ f' stack' - hstack' hf'
    obtain ⟨rfl, rfl⟩ := List.cons.inj (h.symm.trans hstack')
    have hrest : turn.dispatcher.AtRest := by
      rw [AtRest, hstack]
      exact hd.alone h hf
    exact ⟨promoting_eq_false_of_atRest hd' hrest, hes.handOffs, hmarks hmisses⟩

/-! ## tasks -/

/-- The innermost activity has the tokens of these calls, and is none of a pass. -/
def WorksOn (d : Dispatcher) (ts : List Ticket) : Prop :=
  ∃ f stack, d.stack = f :: stack ∧ f.isPass = false ∧ ∀ t ∈ ts, t ∈ f.tokens ++ f.syncTokens

/-- A task that is made or polled is the innermost activity. -/
theorem Move.work {m : Moment} (h : Move a m es m₁) :
    works es = [] ∨
      m.phase = .outside ∧ m₁.phase = .outside ∧ WorksOn m₁.dispatcher (works es) := by
  cases h with
  | openTask | pollTask | pollOpened | pollSync | startSync =>
    exact .inr ⟨rfl, rfl, _, _, rfl, rfl, fun t ht => ht⟩
  | complete h | completeSync h | miss h | missSync h =>
    left
    simp only [works_append, works_remarks h.remarks, works_said]
    rfl
  | cancel => exact .inl (works_remarks (remarks_markCanceled _ _))
  | cancelAll =>
    exact .inl (works_remarks (List.forall_mem_cons.2 ⟨rfl, remarks_markAllCanceled _ _⟩))
  | submitSync => exact .inl (works_said _)
  | setLimit =>
    left
    rw [works_append]
    exact List.append_eq_nil_iff.2 ⟨works_said _, rfl⟩
  | promote => exact .inl (works_said _)
  | @abandon d t _ _ notices =>
    left
    rw [works_append]
    exact List.append_eq_nil_iff.2 ⟨works_said (.dropped t (d.ledger.host t) :: notices), rfl⟩
  | @abandonMiss d t _ notices => exact .inl (works_said (.dropped t (d.ledger.host t) :: notices))
  | _ => exact .inl rfl

/-- A pass makes and polls no tasks. -/
theorem Onward.works {m : Moment} (h : Onward a m es d) : works es = [] := by
  induction h with
  | nil d => rfl
  | cons hphase hmove _ ih =>
    rw [works_append, ih, List.append_nil]
    exact hmove.work.resolve_right fun hwork => hphase hwork.1

/-- A step that makes or polls a task leaves it on top of the stack. -/
theorem step_work (hd : Moment.Latched ⟨d, .outside⟩) (hstep : d.step a = .ok turn)
    (ht : t ∈ works turn.events) : WorksOn turn.dispatcher [t] := by
  cases anatomy_step hd hstep with
  | refused => cases ht
  | @opened es m turn hmove hs =>
    rw [Turn.after, works_append, hs.works, List.append_nil] at ht
    rcases hmove.work with hnone | ⟨-, houtside, f, stack, hstack, hf, htokens⟩
    · rw [hnone] at ht
      cases ht
    · obtain ⟨d₁, phase⟩ := m
      subst houtside
      obtain ⟨-, hturn⟩ := hs.of_outside
      refine ⟨f, stack, ?_, hf, fun u hu => ?_⟩
      · exact hturn ▸ hstack
      · rw [List.mem_singleton.1 hu]
        exact htokens t ht

/-! ## courses -/

variable {limits : Limits} {notices : List Notice} {d₀ : Dispatcher} {actions : List Action}

/-- What is forgone in a panic comes to its end there. -/
theorem mem_endingsOf_of_forgone (h : .forgone t ∈ fatesOf d actions) :
    (t, .abandoned) ∈ endingsOf d actions := by
  induction actions generalizing d with
  | nil => cases h
  | cons a actions ih =>
    simp only [fatesOf, endingsOf, gather] at h ⊢
    cases hstep : d.step a with
    | error e =>
      rw [hstep] at h
      cases h
    | ok turn =>
      rw [hstep] at h
      simp only [List.mem_append] at h ⊢
      refine h.imp (fun hfate => ?_) fun hlater => ih hlater
      have hforgone : t ∈ d.forgone a := by simpa [fates] using hfate
      cases a with
      | panic message =>
        unfold forgone at hforgone
        split at hforgone
        · next f stack _ hstack =>
          cases f <;> simp_all [Frame.rest, endings]
        · cases hforgone
      | _ => cases hforgone

/-- Over a course, the calls that were handed over or forgone are the first of those that were
admitted; the others wait for their pass to go on. -/
theorem account_of_follow (hcreate : create limits = .ok (d₀, notices))
    (h : d₀.follow actions = .ok (d, es)) :
    Log.admissions (log es) = (d₀.fatesOf actions).map Fate.call ++ d.awaiting ∧
      handed es = (d₀.fatesOf actions).filterMap Fate.handed? := by
  induction actions using List.reverseRecOn generalizing d es with
  | nil =>
    obtain ⟨-, rfl⟩ := create_eq_ok hcreate
    cases h
    exact ⟨rfl, rfl⟩
  | append_singleton actions a ih =>
    obtain ⟨d₁, es₁, turn, hfollow, hstep, rfl, rfl⟩ := follow_concat_eq_ok h
    obtain ⟨hadmissions, hhanded⟩ := ih hfollow
    have hstep' := step_account (latched_of_follow hcreate hfollow) hstep
    have hfates : d₀.fatesOf (actions ++ [a]) = d₀.fatesOf actions ++ fates d₁ a turn :=
      gather_concat hfollow hstep
    refine ⟨?_, ?_⟩
    · rw [log_append, Log.admissions_append, hadmissions, List.append_assoc, hstep', hfates,
        List.map_append, List.append_assoc]
    · rw [handed_append, hhanded, hfates, List.filterMap_append, filterMap_handed_fates]

/-- What is forgone was admitted, and is not handed over as well. -/
theorem not_mem_handed_of_forgone (hcreate : create limits = .ok (d₀, notices))
    (h : d₀.follow actions = .ok (d, es)) (ht : .forgone t ∈ d₀.fatesOf actions) :
    t ∈ Log.admissions (log es) ∧ t ∉ handed es := by
  obtain ⟨hadmissions, hhanded⟩ := account_of_follow hcreate h
  have hnodup := (logged_of_follow hcreate h).orderly.nodup_admissions
  rw [hadmissions, List.nodup_append] at hnodup
  refine ⟨?_, fun hmem => ?_⟩
  · rw [hadmissions]
    exact List.mem_append_left _ (List.mem_map.2 ⟨_, ht, rfl⟩)
  · rw [hhanded] at hmem
    obtain ⟨fate, hfate, hcall⟩ := List.mem_filterMap.1 hmem
    have hsame : fate = .forgone t := by
      refine List.inj_on_of_nodup_map hnodup.1 hfate ht ?_
      cases fate with
      | handed u => exact Option.some.inj hcall
      | forgone u => cases hcall
    rw [hsame] at hcall
    cases hcall

/-- What is forgone has failed. -/
theorem stage_of_forgone (hcreate : create limits = .ok (d₀, notices))
    (h : d₀.follow actions = .ok (d, es)) (ht : .forgone t ∈ d₀.fatesOf actions) :
    ∃ s, Stands d.ledger (d₀.endingsOf actions) (marks es) t s ∧
      (s = .ended .abandoned ∨ s = .syncEnded .abandoned) := by
  obtain ⟨s, hs⟩ := (kept_of_follow hcreate h).stage t
  have hmem : .abandoned ∈ endingsAt t (d₀.endingsOf actions) :=
    List.mem_map.2 ⟨_, List.mem_filter.2 ⟨mem_endingsOf_of_forgone ht, by simp⟩, rfl⟩
  rw [hs.token] at hmem
  refine ⟨s, hs, ?_⟩
  cases s <;> simp_all [Stage.endings]

/-- A call that was admitted has waited. -/
theorem waits_of_mem_admissions (hcreate : create limits = .ok (d₀, notices))
    (h : d₀.follow actions = .ok (d, es)) (ht : t ∈ Log.admissions (log es)) :
    .waits t ∈ marks es := by
  obtain ⟨m, hm, rfl⟩ := (logged_of_follow hcreate h).orderly.waiting.arrived t ht
  obtain ⟨n, hn, harrival⟩ := List.mem_filterMap.1 hm
  obtain ⟨e, he, htold⟩ := List.mem_filterMap.1 hn
  refine List.mem_filterMap.2 ⟨e, he, ?_⟩
  cases n with
  | enqueued u host duplex load =>
    obtain rfl := Option.some.inj harrival
    cases e with
    | said n' =>
      simp only [Event.told?, Option.ite_none_right_eq_some, Option.some.injEq] at htold
      rw [htold.2]
      rfl
    | _ => cases htold
  | _ => cases harrival

/-- A call that runs was admitted, or is a sync call. -/
theorem admitted_of_mem_running (hcreate : create limits = .ok (d₀, notices))
    (h : d₀.follow actions = .ok (d, es)) (ht : t ∈ d.ledger.queue.running.map (·.call)) :
    t ∈ Log.admissions (log es) := by
  have hreplay := (logged_of_follow hcreate h).replay
  obtain ⟨e, he, rfl⟩ := List.mem_map.1 ht
  have hmem : e.member ∈ (Log.replay limits (log es)).running := by
    rw [hreplay]
    exact List.mem_map.2 ⟨e, he, rfl⟩
  exact Log.mem_admissions_of_running hmem

/-- An activity that has the token of a call is none that has yet to hand the call over. -/
theorem not_mem_awaiting (hmatched : d.Matched) (hstack : d.stack = f :: stack)
    (hf : f.isPass = false) (ht : t ∈ f.tokens) : t ∉ d.awaiting := by
  have hrest : ∀ g : Frame, ∀ u ∈ g.rest, u ∈ g.tokens := by
    intro g u hu
    cases g <;> first | exact hu | cases hu
  intro hmem
  rw [awaiting, hstack, List.flatMap_cons, rest_of_not_isPass hf, List.nil_append] at hmem
  obtain ⟨g, hg, hu⟩ := List.mem_flatMap.1 hmem
  have hnodup := (List.nodup_append.1 hmatched.nodup).1
  rw [tokens, hstack, List.flatMap_cons] at hnodup
  have hdisjoint := (List.nodup_append.1 (List.nodup_append.1 hnodup).2.1).2.2
  exact hdisjoint t ht t (List.mem_flatMap.2 ⟨g, hg, hrest g t hu⟩) rfl

/-- A task is made or polled only for a call that was handed over, or for a sync call. -/
theorem handed_of_mem_works (hcreate : create limits = .ok (d₀, notices))
    (h : d₀.follow actions = .ok (d, es)) (ht : t ∈ works es) :
    t ∈ handed es ∨ [.runs t] <+: way t (marks es) := by
  induction actions using List.reverseRecOn generalizing d es with
  | nil =>
    cases h
    cases ht
  | append_singleton actions a ih =>
    obtain ⟨d₁, es₁, turn, hfollow, hstep, rfl, rfl⟩ := follow_concat_eq_ok h
    rw [handed_append, marks_append, way_append]
    rw [works_append, List.mem_append] at ht
    rcases ht with ht | ht
    · exact (ih hfollow ht).imp (List.mem_append_left _) fun hway =>
        hway.trans (List.prefix_append _ _)
    · obtain ⟨f, stack, hstack, hf, htokens⟩ :=
        step_work (latched_of_follow hcreate hfollow) hstep ht
      have hkept := kept_of_follow hcreate h
      have hmatched := hkept.matched
      obtain ⟨s, hs⟩ := hkept.stage t
      rw [← way_append, ← marks_append, ← handed_append]
      rcases List.mem_append.1 (htokens t (List.mem_singleton_self t)) with htoken | htoken
      · left
        have hrunning : t ∈ turn.dispatcher.ledger.queue.running.map (·.call) := by
          rw [← hmatched.tokens.mem_iff, tokens, hstack]
          simp [htoken]
        have hadmitted := admitted_of_mem_running hcreate h hrunning
        obtain ⟨hadmissions, hhanded⟩ := account_of_follow hcreate h
        rw [hadmissions, List.mem_append] at hadmitted
        obtain ⟨fate, hfate, hcall⟩ := List.mem_map.1
          (hadmitted.resolve_right (not_mem_awaiting hmatched hstack hf htoken))
        cases fate with
        | handed u =>
          rw [hhanded]
          exact List.mem_filterMap.2 ⟨_, hfate, congrArg some hcall⟩
        | forgone u =>
          -- what was forgone runs no more
          obtain rfl : u = t := hcall
          obtain ⟨s', hs', hended⟩ := stage_of_forgone hcreate h hfate
          have hstage := hs'.eq_admitted hrunning
          rcases hended with rfl | rfl <;> cases hstage
      · right
        have hsync : t ∈ turn.dispatcher.ledger.queue.sync := by
          rw [← hmatched.syncTokens.mem_iff, syncTokens, hstack]
          simp [htoken]
        obtain rfl := hs.eq_sync hsync
        rw [hs.trace]
        exact List.prefix_refl _

/-- No call is ever to give back a slot that it does not have. -/
theorem not_misses_of_follow (hcreate : create limits = .ok (d₀, notices))
    (h : d₀.follow actions = .ok (d, es)) (t : Ticket) : .misses t ∉ marks es := by
  obtain ⟨s, hs⟩ := (kept_of_follow hcreate h).stage t
  intro hmem
  have hway : .misses t ∈ way t (marks es) := List.mem_filter.2 ⟨hmem, by simp [Mark.call?]⟩
  rw [hs.trace] at hway
  cases s <;> simp [Stage.way] at hway

theorem not_misses_of_step (hcreate : create limits = .ok (d₀, notices))
    (h : d₀.follow actions = .ok (d, es)) (hstep : d.step a = .ok turn) (t : Ticket) :
    .misses t ∉ marks turn.events := by
  intro hmem
  refine not_misses_of_follow hcreate (follow_concat h hstep) t ?_
  rw [marks_append]
  exact List.mem_append_right _ hmem

/-- How calls are handed over in a course that takes a new dispatcher to the given one. -/
structure Disciplined (d₀ : Dispatcher) (actions : List Action) (d : Dispatcher)
    (es : List Event) : Prop where
  /-- the latch is up exactly while a pass is on the stack, and there is never a second one -/
  latched : d.stack.countP Frame.isPass = d.promoting.toNat
  exclusive : ∀ a turn, d.step a = .ok turn → Exclusive d a turn
  /-- no call is admitted twice -/
  nodup : (Log.admissions (log es)).Nodup
  /-- the admitted calls are handed over or forgone in the order of their admission; at rest, all
  of them were -/
  account : Log.admissions (log es) = (d₀.fatesOf actions).map Fate.call ++ d.awaiting
  complete : d.AtRest → d.awaiting = []
  handovers : handed es = (d₀.fatesOf actions).filterMap Fate.handed?
  /-- a call that was forgone in a panic has failed, was never handed over, and its task was never
  made -/
  forgone : ∀ t, .forgone t ∈ d₀.fatesOf actions → t ∉ handed es ∧ t ∉ works es ∧
    ∃ call, d.ledger.call? t = some call ∧ call.status = .failed ∧
      call.error = some "Call abandoned by executor"

/-- **Hand-over.** However operations are nested and whatever panics, the executor and the callback
are invoked only while no other such invocation is on the stack. The latch is up exactly while a
pass is on the stack, and a request that finds it down is answered by a pass at once. Every admitted
call is handed over once, in the order of admission; but when a hand-over panics, the calls that its
pass has yet to hand over fail instead, in that order, and no task is ever made for them. -/
theorem handover_of_follow (hcreate : create limits = .ok (d₀, notices))
    (h : d₀.follow actions = .ok (d, es)) : Disciplined d₀ actions d es := by
  have hlatched := latched_of_follow hcreate h
  obtain ⟨hadmissions, hhanded⟩ := account_of_follow hcreate h
  refine ⟨hlatched, ?_, (logged_of_follow hcreate h).orderly.nodup_admissions, hadmissions,
    fun hrest => flatMap_rest_eq_nil hrest, hhanded, ?_⟩
  · intro a turn hstep
    refine step_exclusive hlatched hstep fun t hmem => ?_
    refine not_misses_of_follow hcreate (follow_concat h hstep) t ?_
    rw [marks_append]
    exact List.mem_append_right _ hmem
  · intro t ht
    obtain ⟨hadmitted, hnot⟩ := not_mem_handed_of_forgone hcreate h ht
    obtain ⟨s, hs, hended⟩ := stage_of_forgone hcreate h ht
    refine ⟨hnot, fun hwork => ?_, ?_⟩
    · have hway := (handed_of_mem_works hcreate h hwork).resolve_left hnot
      have hwaits := (mem_way rfl).1 (waits_of_mem_admissions hcreate h hadmitted)
      rw [hs.trace] at hway hwaits
      rcases hended with rfl | rfl <;> simp [Stage.way] at hway hwaits
    · have hstatus : (d.ledger.call? t).map (·.status) = some .failed := by
        rw [hs.status]
        rcases hended with rfl | rfl <;> rfl
      have hfailure : (d.ledger.call? t).bind (·.error) = some "Call abandoned by executor" := by
        rw [hs.failure]
        rcases hended with rfl | rfl <;> rfl
      obtain ⟨call, hcall, hfailed⟩ := Option.map_eq_some_iff.1 hstatus
      rw [hcall] at hfailure
      exact ⟨call, hcall, hfailed, hfailure⟩

/-- The executor submits two calls and reports the one that it has, and panics when it is given the
first of the two. -/
def forgoingCourse : List Action :=
  [.submit ⟨⟨"a"⟩, false⟩, .submit ⟨⟨"b"⟩, false⟩, .submit ⟨⟨"b"⟩, true⟩, .report 0 (.ok ()), .leave,
    .panic "executor failed",
    -- the next request finds the latch open
    .report 1 (.ok ()), .submit ⟨⟨"c"⟩, false⟩, .leave]

theorem handover_of_forgoingCourse :
    ∃ d₀ notices d es, create ⟨3, 3⟩ = .ok (d₀, notices) ∧ d₀.follow forgoingCourse = .ok (d, es) ∧
      d₀.fatesOf forgoingCourse = [.handed 0, .handed 1, .forgone 2, .handed 3] ∧
      Disciplined d₀ forgoingCourse d es := by
  obtain ⟨d₀, notices, d, es, hcreate, hcourse, hfates⟩ :
      ∃ d₀ notices d es, create ⟨3, 3⟩ = .ok (d₀, notices) ∧
        d₀.follow forgoingCourse = .ok (d, es) ∧
        d₀.fatesOf forgoingCourse = [.handed 0, .handed 1, .forgone 2, .handed 3] :=
    ⟨_, _, _, _, rfl, rfl, rfl⟩
  exact ⟨d₀, notices, d, es, hcreate, hcourse, hfates, handover_of_follow hcreate hcourse⟩

end CallAdmission.Dispatcher
