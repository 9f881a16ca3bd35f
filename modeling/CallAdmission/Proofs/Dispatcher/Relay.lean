import CallAdmission.Proofs.Dispatcher.Account
import CallAdmission.Proofs.Dispatcher.Overtaking

/-!
# CallAdmission.Proofs.Dispatcher.Relay

How a pass and the code outside hand control to each other. A pass that has control promotes, and
then gives control away with a single frame on the stack, or ends; that frame is the only one of a
pass, so whatever the code outside asks for is done beside the pass, until the frame returns or
panics.

* `acts` — what only a pass does;
* `Opening` — how a step begins: beside any pass, with a pass of its own, or by the return or the
  panic of a pass's activity;
* `Yields` — what a pass does with control, once it has it;
* `step_shift` — every step, from the opening to its end.
-/

namespace CallAdmission.Dispatcher

/-! ## frames and events of a pass -/

/-- The admitted calls that a pass has yet to hand over when its activity returns. -/
def Frame.rest : Frame → List Ticket
  | .execute _ rest _ _ => rest
  | .idle .. | .openTask _ | .pollTask _ | .pollSync _ => []

/-- The callback that a pass has yet to invoke when its activity returns. -/
def Frame.callback? : Frame → Option Callback
  | .execute _ _ callback _ => callback
  | .idle .. | .openTask _ | .pollTask _ | .pollSync _ => none

/-- The event with which an activity of a pass begins. -/
def Frame.handOff : Frame → List Event
  | .execute t .. => [.handedOver t]
  | .idle callback _ => [.idleInvoked callback]
  | .openTask _ | .pollTask _ | .pollSync _ => []

/-- The executor or the callback is invoked. -/
def Event.isHandOff : Event → Bool
  | .handedOver _ | .idleInvoked _ => true
  | _ => false

/-- The invocations of the executor and of the callback, in order. -/
def handOffs (es : List Event) : List Event := es.filter (·.isHandOff)

/-- The call that is handed over. -/
def Event.handed? : Event → Option Ticket
  | .handedOver t => some t
  | _ => none

/-- The calls that are handed over, in order. -/
def handed (es : List Event) : List Ticket := es.filterMap Event.handed?

/-- A pass is asked for, or does something. -/
def Event.isAct : Event → Bool
  | .passRequested | .passStarted | .said (.promoted ..) | .handedOver _ | .idleInvoked _ => true
  | _ => false

/-- What is asked of passes and done by them. -/
def acts (es : List Event) : List Event := es.filter (·.isAct)

@[simp] theorem acts_append (es es' : List Event) : acts (es ++ es') = acts es ++ acts es' :=
  List.filter_append ..

@[simp] theorem handOffs_append (es es' : List Event) :
    handOffs (es ++ es') = handOffs es ++ handOffs es' := List.filter_append ..

@[simp] theorem handed_append (es es' : List Event) : handed (es ++ es') = handed es ++ handed es' :=
  List.filterMap_append

/-- How many passes start. -/
def passCount (es : List Event) : Nat := es.countP fun | .passStarted => true | _ => false

@[simp] theorem passCount_append (es es' : List Event) :
    passCount (es ++ es') = passCount es + passCount es' :=
  List.countP_append

/-- Nobody is invoked, nothing is admitted, and no pass starts. -/
structure Inert (es : List Event) : Prop where
  handOffs : handOffs es = []
  handed : handed es = []
  admissions : Log.admissions (log es) = []
  passes : passCount es = 0

theorem inert_of_acts {es : List Event} (h : acts es = []) : Inert es := by
  have hnone : ∀ e ∈ es, e.isAct = false := by
    intro e he
    simpa using List.filter_eq_nil_iff.1 h e he
  refine ⟨List.filter_eq_nil_iff.2 fun e he => ?_, List.filterMap_eq_nil_iff.2 fun e he => ?_, ?_,
    List.countP_eq_zero.2 fun e he => ?_⟩
  · have hact := hnone e he
    cases e <;> simp_all [Event.isAct, Event.isHandOff]
  · have hact := hnone e he
    cases e <;> simp_all [Event.isAct, Event.handed?]
  · rw [Log.admissions, log, List.filterMap_filterMap, List.filterMap_eq_nil_iff]
    intro e he
    have hact := hnone e he
    cases e with
    | said n => cases n <;> first | rfl | cases hact
    | _ => rfl
  · have hact := hnone e he
    cases e <;> simp_all [Event.isAct]

theorem Inert.concat_passRequested {es : List Event} (h : Inert es) :
    Inert (es ++ [.passRequested]) where
  handOffs := by rw [handOffs_append, h.handOffs]; rfl
  handed := by rw [handed_append, h.handed]; rfl
  admissions := by rw [log_concat_passRequested, h.admissions]
  passes := by rw [passCount_append, h.passes]; rfl

theorem Inert.append {es es' : List Event} (h : Inert es) (h' : Inert es') : Inert (es ++ es') where
  handOffs := by rw [handOffs_append, h.handOffs, h'.handOffs]; rfl
  handed := by rw [handed_append, h.handed, h'.handed]; rfl
  admissions := by rw [log_append, Log.admissions_append, h.admissions, h'.admissions]; rfl
  passes := by rw [passCount_append, h.passes, h'.passes]

/-- Among notices, only admissions are acts of a pass. -/
theorem acts_said {notices : List Notice} (h : Log.admissions (log (notices.map .said)) = []) :
    acts (notices.map .said) = [] := by
  rw [log_said, Log.admissions, List.filterMap_eq_nil_iff] at h
  rw [acts, List.filter_eq_nil_iff]
  intro e he
  obtain ⟨n, hn, rfl⟩ := List.mem_map.1 he
  cases n with
  | promoted => cases h _ (List.mem_filter.2 ⟨hn, rfl⟩)
  | _ => exact Bool.false_ne_true

/-! ## how a step begins -/

/-- The stack from the innermost activity of a pass on. -/
def base (stack : List Frame) : List Frame := stack.dropWhile (!·.isPass)

theorem base_cons_of_not_isPass {f : Frame} (hf : f.isPass = false) (stack : List Frame) :
    base (f :: stack) = base stack :=
  List.dropWhile_cons_of_pos (by rw [hf]; rfl)

theorem base_cons_of_isPass {f : Frame} (hf : f.isPass = true) (stack : List Frame) :
    base (f :: stack) = f :: stack :=
  List.dropWhile_cons_of_neg (by rw [hf]; exact Bool.false_ne_true)

/-- The action is an operation that leaves the stack alone, but for the activities of passes. -/
def Action.isOperation : Action → Bool
  | .pollRun _ | .pollSyncRun _ | .leave | .suspend | .resolve _ | .panic _ => false
  | _ => true

/-- The innermost activity returns or panics. -/
def Action.isEnd : Action → Bool
  | .leave | .panic _ => true
  | _ => false

/-- What is done leaves the activities of passes where they are, and is no matter of passes. -/
structure Aside (a : Action) (d d₁ : Dispatcher) (es : List Event) : Prop where
  base : base d₁.stack = base d.stack
  stack : a.isOperation = true → d₁.stack = d.stack
  /-- the activity that returns or panics is none of a pass -/
  foreign : a.isEnd = true → ∀ f ∈ d.stack.head?, f.isPass = false
  promoting : d₁.promoting = d.promoting
  acts : acts es = []

/-- How a step begins. -/
inductive Opening (a : Action) (d : Dispatcher) : List Event → Moment → Prop where
  | aside {es d₁} (h : Aside a d d₁ es) (hpending : d₁.pending = d.pending) :
    Opening a d es ⟨d₁, .outside⟩
  /-- a pass is asked for while one is under way -/
  | noted {es d₁} (h : Aside a d d₁ es) (hbusy : d.promoting = true) :
    Opening a d (es ++ [.passRequested]) ⟨{ d₁ with promoting := true, pending := true }, .outside⟩
  /-- a pass is asked for while none is under way -/
  | starts {es d₁} (h : Aside a d d₁ es) (hidle : d.promoting = false) :
    Opening a d (es ++ [.passRequested])
      ⟨{ d₁ with promoting := true, pending := true }, .passing [] none⟩
  /-- the activity of a pass returns -/
  | resumes {f stack} (ha : a = .leave) (h : d.stack = f :: stack) (hf : f.isPass = true) :
    Opening a d [] ⟨{ d with stack }, .passing f.rest f.callback?⟩
  /-- the activity of a pass panics -/
  | fails {f stack message} (ha : a = .panic message) (h : d.stack = f :: stack)
    (hf : f.isPass = true) : Opening a d [] ⟨{ d with stack }, .leaving f.rest⟩

variable {a : Action} {m m₁ : Moment} {d d₁ d' : Dispatcher} {turn : Turn} {t : Ticket}
  {o : Outcome} {es es' : List Event} {rest : List Ticket} {idle : Option Callback}

theorem acts_release {l l' : Ledger} {notices : List Notice}
    (h : l.release t = (some l', notices)) : acts (notices.map .said) = [] := by
  obtain ⟨_, _, -, -, hlog⟩ := log_release h
  exact acts_said (by rw [hlog]; rfl)

theorem acts_releaseSync {l l' : Ledger} {notices : List Notice}
    (h : l.releaseSync t = (some l', notices)) : acts (notices.map .said) = [] :=
  acts_said (by rw [(log_releaseSync h).2]; rfl)

theorem acts_release_none {l : Ledger} {notices : List Notice}
    (h : l.release t = (none, notices)) : acts (notices.map .said) = [] :=
  acts_said (by rw [log_release_none h]; rfl)

theorem acts_releaseSync_none {l : Ledger} {notices : List Notice}
    (h : l.releaseSync t = (none, notices)) : acts (notices.map .said) = [] :=
  acts_said (by rw [log_releaseSync_none h]; rfl)

/-- Remarks are no matter of passes. -/
theorem acts_remarks (h : ∀ e ∈ es, e.isRemark = true) : acts es = [] := by
  rw [acts, List.filter_eq_nil_iff]
  intro e he
  have hremark := h e he
  cases e with
  | said n => cases n <;> first | exact Bool.false_ne_true | cases hremark
  | _ => first | exact Bool.false_ne_true | cases hremark

/-- The stack stays as it is. -/
theorem Aside.of_stack (ha : a.isEnd = false) (hstack : d₁.stack = d.stack)
    (hpromoting : d₁.promoting = d.promoting) (hacts : Dispatcher.acts es = []) :
    Aside a d d₁ es :=
  ⟨by rw [hstack], fun _ => hstack, fun hend => absurd hend (Bool.eq_false_iff.1 ha), hpromoting,
    hacts⟩

/-- An activity begins that is none of a pass. -/
theorem Aside.of_push {f : Frame} (hop : a.isOperation = false) (hend : a.isEnd = false)
    (hstack : d₁.stack = f :: d.stack) (hf : f.isPass = false)
    (hpromoting : d₁.promoting = d.promoting) (hacts : Dispatcher.acts es = []) :
    Aside a d d₁ es :=
  ⟨by rw [hstack, base_cons_of_not_isPass hf], fun h => absurd h (Bool.eq_false_iff.1 hop),
    fun h => absurd h (Bool.eq_false_iff.1 hend), hpromoting, hacts⟩

/-- The innermost activity goes on or ends, and is none of a pass. -/
theorem Aside.of_foreign {f : Frame} {stack : List Frame} (hop : a.isOperation = false)
    (h : d.stack = f :: stack) (hf : f.isPass = false)
    (hbase : Dispatcher.base d₁.stack = Dispatcher.base stack)
    (hpromoting : d₁.promoting = d.promoting) (hacts : Dispatcher.acts es = []) :
    Aside a d d₁ es := by
  refine ⟨?_, fun h => absurd h (Bool.eq_false_iff.1 hop), fun _ g hg => ?_, hpromoting, hacts⟩
  · rw [hbase, h, base_cons_of_not_isPass hf]
  · rw [h] at hg
    cases hg
    exact hf

/-- A token is taken aside. -/
theorem Ends.aside (h : Ends a d es t o d₁) : Aside a d d₁ es := by
  have hpromoting : d₁.promoting = d.promoting := congrArg Gate.promoting h.gate.1
  have hacts := acts_remarks h.remarks
  cases h with
  | report h | abandon h =>
    obtain ⟨-, rfl⟩ := takeHeld_eq_ok h
    exact Aside.of_stack rfl rfl rfl hacts
  | cancelUnstarted h | cancelStarted h | dropRun h =>
    obtain ⟨-, rfl⟩ := takeRun_eq_ok h
    exact Aside.of_stack rfl rfl rfl hacts
  | cancelOpened h | resolve h | panicOpening h | panicPolled h =>
    exact Aside.of_foreign rfl h rfl rfl hpromoting hacts

theorem EndsSync.aside (h : EndsSync a d es t o d₁) : Aside a d d₁ es := by
  have hpromoting : d₁.promoting = d.promoting := congrArg Gate.promoting h.gate.1
  have hacts := acts_remarks h.remarks
  cases h with
  | finishGuard h | dropGuard h =>
    obtain ⟨-, rfl⟩ := takeGuard_eq_ok h
    exact Aside.of_stack rfl rfl rfl hacts
  | cancelStarted h | dropRun h =>
    obtain ⟨-, rfl⟩ := takeSyncRun_eq_ok h
    exact Aside.of_stack rfl rfl rfl hacts
  | resolve h | panicPolled h => exact Aside.of_foreign rfl h rfl rfl hpromoting hacts

/-- A request is noted, or starts a pass. -/
theorem opening_request (h : Aside a d d₁ es) : Opening a d (es ++ [.passRequested]) (request d₁) := by
  unfold request
  cases hp : d₁.promoting with
  | false => exact Opening.starts h (h.promoting.symm.trans hp)
  | true => exact Opening.noted h (h.promoting.symm.trans hp)

/-- Something more is said, and the calls change. -/
theorem Aside.append (h : Aside a d d₁ es) (hes : Dispatcher.acts es' = []) (l : Ledger) :
    Aside a d { d₁ with ledger := l } (es ++ es') :=
  ⟨h.base, h.stack, h.foreign, h.promoting, by rw [acts_append, h.acts, hes]; rfl⟩

/-- How a move from outside begins a step. -/
theorem Move.opening (h : Move a ⟨d, .outside⟩ es m₁) : Opening a d es m₁ := by
  cases h with
  | submit ha => exact opening_request (Aside.of_stack (by rw [ha]; rfl) rfl rfl rfl)
  | setLimit ha h =>
    obtain ⟨q, hq, rfl, rfl⟩ := Ledger.setLimit_eq_ok h
    exact opening_request (Aside.of_stack (by rw [ha]; rfl) rfl rfl rfl)
  | complete h hr => exact opening_request (h.aside.append (acts_release hr) _)
  | completeSync h hr => exact opening_request (h.aside.append (acts_releaseSync hr) _)
  | @miss _ d₁ _ _ _ _ h hr =>
    have hpending : d₁.pending = d.pending := congrArg Gate.pending h.gate.1
    exact Opening.aside (h.aside.append (acts_release_none hr) d₁.ledger) hpending
  | @missSync _ d₁ _ _ _ _ h hr =>
    have hpending : d₁.pending = d.pending := congrArg Gate.pending h.gate.1
    exact Opening.aside (h.aside.append (acts_releaseSync_none hr) d₁.ledger) hpending
  | submitSync ha | reserveSync ha | setIdle ha =>
    exact Opening.aside (Aside.of_stack (by rw [ha]; rfl) rfl rfl rfl) rfl
  | @cancel _ t ha =>
    have hacts := acts_remarks (remarks_markCanceled d t)
    exact Opening.aside (Aside.of_stack (by rw [ha]; rfl) rfl rfl hacts) rfl
  | cancelAll ha =>
    have hgate := gate_markAllCanceled d d.ledger.queue.allCalls .outside
    have hstack := stack_markAllCanceled d d.ledger.queue.allCalls
    have hacts := acts_remarks (remarks_markAllCanceled d d.ledger.queue.allCalls)
    have hpromoting : _ = d.promoting := congrArg Gate.promoting hgate
    exact Opening.aside (Aside.of_stack (by rw [ha]; rfl) hstack hpromoting hacts)
      (congrArg Gate.pending hgate)
  | startSync ha h | pollSync ha h =>
    obtain ⟨-, rfl⟩ := takeSyncRun_eq_ok h
    exact Opening.aside (Aside.of_push (by rw [ha]; rfl) (by rw [ha]; rfl) rfl rfl rfl rfl) rfl
  | dropUnstarted ha h =>
    obtain ⟨-, rfl⟩ := takeSyncRun_eq_ok h
    exact Opening.aside (Aside.of_stack (by rw [ha]; rfl) rfl rfl rfl) rfl
  | openRun ha h =>
    obtain ⟨-, rfl⟩ := takeHeld_eq_ok h
    exact Opening.aside (Aside.of_stack (by rw [ha]; rfl) rfl rfl rfl) rfl
  | openTask ha h | pollTask ha h =>
    obtain ⟨-, rfl⟩ := takeRun_eq_ok h
    exact Opening.aside (Aside.of_push (by rw [ha]; rfl) (by rw [ha]; rfl) rfl rfl rfl rfl) rfl
  | pollOpened ha h | suspend ha h | suspendSync ha h =>
    exact Opening.aside (Aside.of_foreign (by rw [ha]; rfl) h rfl rfl rfl rfl) rfl
  | resume ha h => exact Opening.resumes ha h rfl
  | resumeIdle ha h => exact Opening.resumes ha h rfl
  | fail ha h => exact Opening.fails ha h rfl
  | failIdle ha h => exact Opening.fails ha h rfl

/-! ## what a pass does with control -/

/-- A pass that has these calls to hand over, and then this callback to invoke, gives control away
with one activity on the stack, or ends. -/
structure Yields (d : Dispatcher) (rest : List Ticket) (idle : Option Callback) (es : List Event)
    (d' : Dispatcher) (next : Option Frame) : Prop where
  stack : d'.stack = next.toList ++ d.stack
  isPass : ∀ f ∈ next, f.isPass = true
  /-- the activity is what is invoked -/
  handOffs : handOffs es = next.toList.flatMap Frame.handOff
  /-- the call that is handed over is the first of those that the pass has, and keeps the others
  for later -/
  account : rest ++ Log.admissions (log es) = handed es ++ next.toList.flatMap Frame.rest
  passes : passCount es + d'.pending.toNat = d.pending.toNat
  /-- a pass that has nothing to do, or ends, leaves no request unanswered -/
  answered : rest = [] ∧ idle = none ∨ next = none → d'.pending = false

/-- Something was done before the pass got control. -/
theorem Yields.after {next : Option Frame} (h : Yields d rest idle es d' next) (hes : Inert es') :
    Yields d rest idle (es' ++ es) d' next where
  stack := h.stack
  isPass := h.isPass
  handOffs := by rw [handOffs_append, hes.handOffs, List.nil_append, h.handOffs]
  account := by
    rw [log_append, Log.admissions_append, hes.admissions, List.nil_append, handed_append,
      hes.handed, List.nil_append, h.account]
  passes := by rw [passCount_append, hes.passes, Nat.zero_add, h.passes]
  answered := h.answered

/-- A pass with something to do does it, and gives control away; else it ends. -/
theorem Onward.yields_of_offer (h : Onward a ⟨d, .passing rest idle⟩ es d')
    (hlast : rest = [] → idle = none → d.pending = false) :
    ∃ next, Yields d rest idle es d' next := by
  cases h with
  | cons _ hmove hs =>
    cases hmove with
    | promote hp => exact absurd hp (Bool.eq_false_iff.1 (hlast rfl rfl))
    | @handOver d t rest idle reply =>
      obtain ⟨rfl, rfl⟩ := hs.of_outside
      refine ⟨some (.execute t rest idle reply), rfl, ?_, rfl, ?_, Nat.zero_add _, ?_⟩
      · simp [Frame.isPass]
      · simp [Log.admissions, log, Event.told?, handed, Event.handed?, Frame.rest]
      · simp
    | @invoke d callback reply =>
      obtain ⟨rfl, rfl⟩ := hs.of_outside
      refine ⟨some (.idle callback reply), rfl, ?_, rfl, rfl, Nat.zero_add _, ?_⟩
      · simp [Frame.isPass]
      · simp
    | close hp =>
      obtain ⟨rfl, rfl⟩ := hs.of_outside
      exact ⟨none, rfl, by simp, rfl, rfl, Nat.zero_add _, fun _ => hp⟩

/-- What is said is no invocation. -/
theorem handOffs_said (notices : List Notice) :
    handOffs (notices.map .said) = [] ∧ handed (notices.map .said) = [] ∧
      passCount (notices.map .said) = 0 := by
  refine ⟨List.filter_eq_nil_iff.2 ?_, List.filterMap_eq_nil_iff.2 ?_, List.countP_eq_zero.2 ?_⟩
  all_goals simp [Event.isHandOff, Event.handed?]

theorem admissions_promoted (l : Ledger) :
    Log.admissions (log (l.promote.notices.map .said)) = l.promote.admitted := by
  rw [log_promoted, Log.admissions, List.filterMap_map]
  exact congrFun List.filterMap_eq_map l.queue.promote.admitted

/-- What a pass promotes, it has to hand over. -/
theorem yields_promote {next : Option Frame} {l : Ledger} (hpending : d.pending = true)
    (h : Yields { d with ledger := l, pending := false } d.ledger.promote.admitted idle es d' next) :
    Yields d [] none (.passStarted :: d.ledger.promote.notices.map .said ++ es) d' next := by
  obtain ⟨hhandOffs, hhanded, hpasses⟩ := handOffs_said d.ledger.promote.notices
  have hcount : passCount es + d'.pending.toNat = 0 := h.passes
  have hpassed : d'.pending = false := by
    cases hp : d'.pending with
    | false => rfl
    | true => simp [hp] at hcount
  refine ⟨h.stack, h.isPass, ?_, ?_, ?_, fun _ => hpassed⟩
  · rw [handOffs_append, ← h.handOffs]
    change handOffs (d.ledger.promote.notices.map .said) ++ _ = _
    rw [hhandOffs, List.nil_append]
  · have haccount := h.account
    rw [log_append, Log.admissions_append, handed_append]
    change [] ++ (Log.admissions (log (d.ledger.promote.notices.map .said)) ++ _) =
      handed (d.ledger.promote.notices.map .said) ++ _ ++ _
    rw [admissions_promoted, hhanded, List.nil_append, List.nil_append, haccount]
  · have hone : passCount (.passStarted :: d.ledger.promote.notices.map .said) =
        passCount (d.ledger.promote.notices.map .said) + 1 := List.countP_cons_of_pos rfl
    rw [passCount_append, hone, hpasses, hpending]
    simp only [Bool.toNat_true]
    omega

/-- A pass that has control gives it away, or ends. -/
theorem Onward.yields (h : Onward a ⟨d, .passing rest idle⟩ es d') :
    ∃ next, Yields d rest idle es d' next := by
  by_cases hlast : rest = [] → idle = none → d.pending = false
  · exact h.yields_of_offer hlast
  · simp only [not_forall, Bool.not_eq_false] at hlast
    obtain ⟨rfl, rfl, hpending⟩ := hlast
    cases h with
    | cons _ hmove hs =>
      cases hmove with
      | close hp => exact absurd hpending (Bool.eq_false_iff.1 hp)
      | promote hp =>
        obtain ⟨next, hyields⟩ := hs.yields_of_offer fun _ _ => rfl
        exact ⟨next, yields_promote hp hyields⟩

/-! ## the end of a pass by a panic -/

theorem inert_said {notices : List Notice}
    (h : Log.admissions (log (notices.map .said)) = []) : Inert (notices.map .said) := by
  obtain ⟨hhandOffs, hhanded, hpasses⟩ := handOffs_said notices
  exact ⟨hhandOffs, hhanded, h, hpasses⟩

/-- While a panic leaves a pass, nobody is invoked, and the calls that were not handed over give
their slots back one after the other. -/
theorem Onward.forgoes (h : Onward a ⟨d, .leaving rest⟩ es d') :
    d'.stack = d.stack ∧ Inert es ∧
      ((∀ t, .misses t ∉ marks es) → marks es = rest.map .ends) := by
  generalize hm : (⟨d, .leaving rest⟩ : Moment) = m at h
  induction h generalizing d rest with
  | nil d => cases hm
  | cons hphase hmove hs ih =>
    subst hm
    cases hmove with
    | @abandon d t rest l notices hp hr =>
      obtain ⟨hstack, hinert, hmarks⟩ := ih rfl
      obtain ⟨departure, n, -, -, hlog⟩ := log_release hr
      have hsaid : Inert ((.dropped t (d.ledger.host t) :: notices).map .said) := by
        apply inert_said
        change Log.admissions (log (notices.map .said)) = []
        rw [hlog]
        rfl
      have hmark : marks (.said (.dropped t (d.ledger.host t)) :: notices.map .said ++
          [.passRequested]) = [.ends t] := by
        rw [marks_append, ← marks_release hr]
        exact List.append_nil _
      refine ⟨hstack, hsaid.concat_passRequested.append hinert, fun hmisses => ?_⟩
      rw [marks_append, hmark] at hmisses ⊢
      rw [hmarks fun u hu => hmisses u (List.mem_append_right _ hu)]
      rfl
    | @abandonMiss d t rest notices hr =>
      obtain ⟨hstack, hinert, hmarks⟩ := ih rfl
      have hsaid : Inert ((.dropped t (d.ledger.host t) :: notices).map .said) := by
        apply inert_said
        change Log.admissions (log (notices.map .said)) = []
        rw [log_release_none hr]
        rfl
      have hmark : marks (.said (.dropped t (d.ledger.host t)) :: notices.map .said) =
          [.misses t] := marks_release_none hr
      refine ⟨hstack, hsaid.append hinert, fun hmisses => absurd ?_ (hmisses t)⟩
      rw [marks_append, hmark]
      exact List.mem_cons_self
    | unlatch =>
      obtain ⟨rfl, rfl⟩ := hs.of_outside
      exact ⟨rfl, ⟨rfl, rfl, rfl, rfl⟩, fun _ => rfl⟩

/-! ## every step -/

/-- What a step does about passes. -/
inductive Shift (a : Action) (d : Dispatcher) (turn : Turn) : Prop where
  /-- no pass gets control; if one is asked for, it is noted -/
  | aside (hbase : base turn.dispatcher.stack = base d.stack)
    (hstack : a.isOperation = true → turn.dispatcher.stack = d.stack)
    (hforeign : a.isEnd = true → ∀ f ∈ d.stack.head?, f.isPass = false) (hes : Inert turn.events)
    (hrequest : .passRequested ∈ turn.events → d.promoting = true)
    (hpending : d.promoting = true ∨ turn.dispatcher.pending = d.pending)
  /-- a pass is asked for while none is under way -/
  | starts {d₁ next} (hidle : d.promoting = false) (hbase : base d₁.stack = base d.stack)
    (hstack : a.isOperation = true → d₁.stack = d.stack) (hpending : d₁.pending = true)
    (hyields : Yields d₁ [] none turn.events turn.dispatcher next)
  /-- the activity of a pass returns -/
  | resumes {f stack next} (ha : a = .leave) (h : d.stack = f :: stack) (hf : f.isPass = true)
    (hyields : Yields { d with stack } f.rest f.callback? turn.events turn.dispatcher next)
  /-- the activity of a pass panics -/
  | fails {f stack message} (ha : a = .panic message) (h : d.stack = f :: stack)
    (hf : f.isPass = true) (hstack : turn.dispatcher.stack = stack) (hes : Inert turn.events)
    (hmarks : (∀ t, .misses t ∉ marks turn.events) → marks turn.events = f.rest.map .ends)

/-- Every step is one of these. -/
theorem step_shift (hd : Moment.Latched ⟨d, .outside⟩) (hstep : d.step a = .ok turn) :
    Shift a d turn := by
  cases anatomy_step hd hstep with
  | refused ha e =>
    have haside : Aside a d d [] := Aside.of_stack (by rw [ha]; rfl) rfl rfl rfl
    exact Shift.aside rfl (fun _ => rfl) haside.foreign ⟨rfl, rfl, rfl, rfl⟩ (by simp [answer])
      (.inr rfl)
  | @opened es m turn hmove hs =>
    obtain ⟨d', es', reply⟩ := turn
    cases hmove.opening with
    | aside h hpending =>
      obtain ⟨rfl, rfl⟩ := hs.of_outside
      have hes : Inert (es ++ []) := (List.append_nil es).symm ▸ inert_of_acts h.acts
      refine Shift.aside h.base h.stack h.foreign hes (fun hmem => ?_) (.inr hpending)
      rw [Turn.after, List.append_nil] at hmem
      exact absurd rfl (List.filter_eq_nil_iff.1 h.acts _ hmem)
    | noted h hbusy =>
      obtain ⟨rfl, rfl⟩ := hs.of_outside
      refine Shift.aside h.base h.stack h.foreign ?_ (fun _ => hbusy) (.inl hbusy)
      rw [Turn.after, List.append_nil]
      exact (inert_of_acts h.acts).concat_passRequested
    | starts h hidle =>
      obtain ⟨next, hyields⟩ := Onward.yields hs
      have hes := (inert_of_acts h.acts).concat_passRequested
      refine Shift.starts hidle ?_ ?_ ?_ (hyields.after hes)
      · exact h.base
      · exact h.stack
      · rfl
    | resumes ha h hf =>
      obtain ⟨next, hyields⟩ := Onward.yields hs
      exact Shift.resumes ha h hf hyields
    | fails ha h hf =>
      obtain ⟨hstack, hes, hmarks⟩ := Onward.forgoes hs
      exact Shift.fails ha h hf hstack hes hmarks

end CallAdmission.Dispatcher
