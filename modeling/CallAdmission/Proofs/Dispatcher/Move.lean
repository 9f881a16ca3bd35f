import CallAdmission.Dispatcher.Step

/-!
# CallAdmission.Proofs.Dispatcher.Move

The single moves that a step of a dispatcher consists of. A step may do much: a completion may start
a pass, which promotes, finds another pass wanted, promotes again, and only then hands a call over.
A `Move` does one of these things, and a `Moment` says where in a step the dispatcher stands.

What every move keeps, every step keeps; that a step is a series of moves is shown in
`CallAdmission.Proofs.Dispatcher.Decomposition`.

* `Ends`, `EndsSync` — the ways in which a call comes to its end;
* `works` — the calls whose tasks are made or polled;
* `Move` — what can happen next;
* `Moves.induction` — what every move keeps holds after a series of moves.
-/

namespace CallAdmission.Dispatcher

/-! ## moments -/

/-- What a dispatcher is in the midst of. -/
inductive Phase where
  /-- no pass has control -/
  | outside
  /-- a pass has control: it has these calls to hand over, and then the callback to invoke -/
  | passing (rest : List Ticket) (idle : Option Callback)
  /-- a panic leaves a pass: these calls are to be abandoned -/
  | leaving (rest : List Ticket)

/-- How many passes have control. -/
def Phase.passes : Phase → Nat
  | .outside => 0
  | .passing .. | .leaving _ => 1

/-- A dispatcher within a step. -/
structure Moment where
  dispatcher : Dispatcher
  phase : Phase

/-- The latch is up exactly while a pass is under way, and there is never a second one: a pass has
control, or one of its activities is on the stack. -/
def Moment.Latched (m : Moment) : Prop :=
  m.dispatcher.stack.countP Frame.isPass + m.phase.passes = m.dispatcher.promoting.toNat

/-- A pass is asked for. If none is under way, one takes control. -/
def request (d : Dispatcher) : Moment where
  dispatcher := { d with promoting := true, pending := true }
  phase := if d.promoting then .outside else .passing [] none

/-! ## tokens -/

section Tokens

variable {d d₁ : Dispatcher} {t : Ticket}

/-- To take a held call changes nothing else. -/
theorem takeHeld_eq_ok (h : d.takeHeld t = .ok d₁) :
    t ∈ d.held ∧ d₁ = { d with held := d.held.erase t } := by
  unfold takeHeld at h
  split at h
  · next hmem => exact ⟨List.contains_iff_mem.1 hmem, (Except.ok.inj h).symm⟩
  · contradiction

/-- To take a guard changes nothing else. -/
theorem takeGuard_eq_ok (h : d.takeGuard t = .ok d₁) :
    t ∈ d.guards ∧ d₁ = { d with guards := d.guards.erase t } := by
  unfold takeGuard at h
  split at h
  · next hmem => exact ⟨List.contains_iff_mem.1 hmem, (Except.ok.inj h).symm⟩
  · contradiction

/-- To take a run changes nothing else. -/
theorem takeRun_eq_ok {run : Run} (h : d.takeRun t = .ok (run, d₁)) :
    d.runs.find? (·.call == t) = some run ∧
      d₁ = { d with runs := d.runs.eraseP (·.call == t) } := by
  unfold takeRun at h
  split at h
  · contradiction
  · next found hfind =>
    cases h
    exact ⟨hfind, rfl⟩

/-- To take a run of a sync call changes nothing else. -/
theorem takeSyncRun_eq_ok {run : SyncRun} (h : d.takeSyncRun t = .ok (run, d₁)) :
    d.syncRuns.find? (·.call == t) = some run ∧
      d₁ = { d with syncRuns := d.syncRuns.eraseP (·.call == t) } := by
  unfold takeSyncRun at h
  split at h
  · contradiction
  · next found hfind =>
    cases h
    exact ⟨hfind, rfl⟩

end Tokens

/-! ## the end of a call -/

/-- An action takes the token of an admitted call, which decides the call's outcome. -/
inductive Ends : Action → Dispatcher → List Event → Ticket → Outcome → Dispatcher → Prop where
  | report {d d₁ t r} (h : d.takeHeld t = .ok d₁) : Ends (.report t r) d [] t (.ofResult r) d₁
  | abandon {d d₁ t} (h : d.takeHeld t = .ok d₁) :
    Ends (.abandon t) d [.said (.dropped t (d₁.ledger.host t))] t (.ofResult (.error .abandoned)) d₁
  /-- the run was canceled before it was polled for the first time -/
  | cancelUnstarted {d d₁ t run} (h : d.takeRun t = .ok (run, d₁)) (hs : run.started = false)
    (hc : d₁.ledger.isCanceled run.call = true) :
    Ends (.pollRun t) d [.said (.canceledBeforeStart run.call)] run.call .canceled d₁
  /-- the run was canceled between two polls -/
  | cancelStarted {d d₁ t run} (h : d.takeRun t = .ok (run, d₁)) (hs : run.started = true)
    (hc : d₁.ledger.isCanceled run.call = true) :
    Ends (.pollRun t) d [.taskDropped run.call] run.call .canceled d₁
  | dropRun {d d₁ t run} (h : d.takeRun t = .ok (run, d₁)) :
    Ends (.dropRun t) d
      ((if run.started then [.taskDropped run.call] else []) ++
        [.said (.dropped run.call (d₁.ledger.host run.call))])
      run.call (.ofResult (.error .abandoned)) d₁
  /-- the run was canceled while its task was made -/
  | cancelOpened {d t stack} (h : d.stack = .openTask t :: stack)
    (hc : d.ledger.isCanceled t = true) :
    Ends .leave d [.taskDropped t] t .canceled { d with stack }
  | resolve {d t r stack} (h : d.stack = .pollTask t :: stack) :
    Ends (.resolve r) d [] t (.ofResult r) { d with stack }
  | panicOpening {d t stack message} (h : d.stack = .openTask t :: stack) :
    Ends (.panic message) d [.said (.dropped t (d.ledger.host t))] t
      (.ofResult (.error .abandoned)) { d with stack }
  | panicPolled {d t stack message} (h : d.stack = .pollTask t :: stack) :
    Ends (.panic message) d [.taskDropped t, .said (.dropped t (d.ledger.host t))] t
      (.ofResult (.error .abandoned)) { d with stack }

/-- An action takes the token of a sync call, which decides the call's outcome. -/
inductive EndsSync : Action → Dispatcher → List Event → Ticket → Outcome → Dispatcher → Prop where
  | finishGuard {d d₁ t r} (h : d.takeGuard t = .ok d₁) :
    EndsSync (.finishGuard t r) d [] t (.ofResult r) d₁
  | dropGuard {d d₁ t} (h : d.takeGuard t = .ok d₁) :
    EndsSync (.dropGuard t) d (d₁.markCanceled t).events t .canceled
      (d₁.markCanceled t).dispatcher
  | cancelStarted {d d₁ t run} (h : d.takeSyncRun t = .ok (run, d₁)) (hs : run.started = true)
    (hc : d₁.ledger.isCanceled run.call = true) :
    EndsSync (.pollSyncRun t) d [.taskDropped run.call] run.call .canceled d₁
  | dropRun {d d₁ t run} (h : d.takeSyncRun t = .ok (run, d₁)) (hs : run.started = true) :
    EndsSync (.dropSyncRun t) d (.taskDropped run.call :: (d₁.markCanceled run.call).events)
      run.call .canceled (d₁.markCanceled run.call).dispatcher
  | resolve {d t r stack} (h : d.stack = .pollSync t :: stack) :
    EndsSync (.resolve r) d [] t (.ofResult r) { d with stack }
  | panicPolled {d t stack message} (h : d.stack = .pollSync t :: stack) :
    EndsSync (.panic message) d (.taskDropped t :: (markCanceled { d with stack } t).events) t
      .canceled (markCanceled { d with stack } t).dispatcher

/-! ### what is said then -/

/-- The event tells of a task that is dropped, or of a cancellation. -/
def Event.isRemark : Event → Bool
  | .said (.dropped ..) | .said (.canceledBeforeStart _) | .said (.cancelingAll _)
  | .taskDropped _ | .canceled _ => true
  | _ => false

section Remarks

variable {a : Action} {d d₁ : Dispatcher} {t : Ticket} {o : Outcome} {es : List Event}

theorem remarks_markCanceled (d : Dispatcher) (t : Ticket) :
    ∀ e ∈ (d.markCanceled t).events, e.isRemark = true := by
  unfold markCanceled
  dsimp only
  split <;> simp [Event.isRemark]

theorem remarks_markAllCanceled (d : Dispatcher) (ts : List Ticket) :
    ∀ e ∈ (d.markAllCanceled ts).events, e.isRemark = true := by
  induction ts generalizing d with
  | nil => exact nofun
  | cons t ts ih =>
    intro e he
    rcases List.mem_append.1 he with he | he
    · exact remarks_markCanceled d t e he
    · exact ih _ e he

/-- When a token is taken, nothing else is told. -/
theorem Ends.remarks (h : Ends a d es t o d₁) : ∀ e ∈ es, e.isRemark = true := by
  cases h with
  | @dropRun _ _ _ run => cases run.started <;> simp [Event.isRemark]
  | _ => simp [Event.isRemark]

theorem EndsSync.remarks (h : EndsSync a d es t o d₁) : ∀ e ∈ es, e.isRemark = true := by
  cases h with
  | dropGuard => exact remarks_markCanceled _ _
  | dropRun | panicPolled => exact List.forall_mem_cons.2 ⟨rfl, remarks_markCanceled _ _⟩
  | _ => simp [Event.isRemark]

end Remarks

/-! ### whose tasks are at work -/

/-- The call whose task is made or polled. -/
def Event.work? : Event → Option Ticket
  | .taskOpened t | .taskPolled t => some t
  | _ => none

/-- The calls whose tasks are made or polled, in order. -/
def works (es : List Event) : List Ticket := es.filterMap Event.work?

section Works

variable {es es' : List Event} {t : Ticket}

@[simp] theorem works_nil : works [] = [] := rfl

@[simp] theorem works_cons (e : Event) (es : List Event) :
    works (e :: es) = e.work?.toList ++ works es := by
  cases h : e.work? <;> simp [works, h]

@[simp] theorem works_append (es es' : List Event) : works (es ++ es') = works es ++ works es' :=
  List.filterMap_append

@[simp] theorem works_said (notices : List Notice) : works (notices.map .said) = [] := by
  rw [works, List.filterMap_map, List.filterMap_eq_nil_iff]
  exact fun _ _ => rfl

theorem works_remarks (h : ∀ e ∈ es, e.isRemark = true) : works es = [] := by
  rw [works, List.filterMap_eq_nil_iff]
  intro e he
  have hremark := h e he
  cases e <;> first | rfl | cases hremark

theorem not_mem_works_iff : t ∉ works es ↔ .taskOpened t ∉ es ∧ .taskPolled t ∉ es := by
  rw [works, List.mem_filterMap]
  constructor
  · intro h
    exact ⟨fun hopened => h ⟨_, hopened, rfl⟩, fun hpolled => h ⟨_, hpolled, rfl⟩⟩
  · rintro ⟨hopened, hpolled⟩ ⟨e, he, hwork⟩
    cases e with
    | taskOpened u =>
      cases hwork
      exact hopened he
    | taskPolled u =>
      cases hwork
      exact hpolled he
    | _ => cases hwork

end Works

/-! ## moves -/

/-- What can happen next when an action is taken. -/
inductive Move (a : Action) : Moment → List Event → Moment → Prop where
  -- calls arrive
  | submit {d r} (ha : a = .submit r) :
    Move a ⟨d, .outside⟩ ((d.ledger.enqueue d.next r).2.map .said ++ [.passRequested])
      (request { d with ledger := (d.ledger.enqueue d.next r).1, next := d.next + 1 })
  | submitSync {d host} (ha : a = .submitSync host) :
    Move a ⟨d, .outside⟩ ((d.ledger.enqueueSync d.next host).2.map .said)
      ⟨{ d with
          ledger := (d.ledger.enqueueSync d.next host).1
          next := d.next + 1
          guards := d.guards ++ [d.next] }, .outside⟩
  | reserveSync {d host} (ha : a = .executeSync host) :
    Move a ⟨d, .outside⟩ []
      ⟨{ d with next := d.next + 1, syncRuns := d.syncRuns ++ [⟨d.next, host, false⟩] }, .outside⟩
  | startSync {d d₁ t run} (ha : a = .pollSyncRun t) (h : d.takeSyncRun t = .ok (run, d₁))
    (hs : run.started = false) :
    Move a ⟨d, .outside⟩
      ((d₁.ledger.enqueueSync run.call run.host).2.map .said ++ [.taskPolled run.call])
      ⟨{ d₁ with
          ledger := (d₁.ledger.enqueueSync run.call run.host).1
          stack := .pollSync run.call :: d₁.stack }, .outside⟩
  | dropUnstarted {d d₁ t run} (ha : a = .dropSyncRun t) (h : d.takeSyncRun t = .ok (run, d₁))
    (hs : run.started = false) : Move a ⟨d, .outside⟩ [] ⟨d₁, .outside⟩
  -- calls are carried out
  | openRun {d d₁ t} (ha : a = .openRun t) (h : d.takeHeld t = .ok d₁) :
    Move a ⟨d, .outside⟩ [] ⟨{ d₁ with runs := d₁.runs ++ [⟨t, false⟩] }, .outside⟩
  | openTask {d d₁ t run} (ha : a = .pollRun t) (h : d.takeRun t = .ok (run, d₁))
    (hs : run.started = false) (hc : d₁.ledger.isCanceled run.call = false) :
    Move a ⟨d, .outside⟩ [.taskOpened run.call]
      ⟨{ d₁ with stack := .openTask run.call :: d₁.stack }, .outside⟩
  | pollTask {d d₁ t run} (ha : a = .pollRun t) (h : d.takeRun t = .ok (run, d₁))
    (hs : run.started = true) (hc : d₁.ledger.isCanceled run.call = false) :
    Move a ⟨d, .outside⟩ [.taskPolled run.call]
      ⟨{ d₁ with stack := .pollTask run.call :: d₁.stack }, .outside⟩
  | pollOpened {d t stack} (ha : a = .leave) (h : d.stack = .openTask t :: stack)
    (hc : d.ledger.isCanceled t = false) :
    Move a ⟨d, .outside⟩ [.taskPolled t] ⟨{ d with stack := .pollTask t :: stack }, .outside⟩
  | pollSync {d d₁ t run} (ha : a = .pollSyncRun t) (h : d.takeSyncRun t = .ok (run, d₁))
    (hs : run.started = true) (hc : d₁.ledger.isCanceled run.call = false) :
    Move a ⟨d, .outside⟩ [.taskPolled run.call]
      ⟨{ d₁ with stack := .pollSync run.call :: d₁.stack }, .outside⟩
  | suspend {d t stack} (ha : a = .suspend) (h : d.stack = .pollTask t :: stack) :
    Move a ⟨d, .outside⟩ [] ⟨{ d with stack, runs := d.runs ++ [⟨t, true⟩] }, .outside⟩
  | suspendSync {d t stack} (ha : a = .suspend) (h : d.stack = .pollSync t :: stack) :
    Move a ⟨d, .outside⟩ []
      ⟨{ d with stack, syncRuns := d.syncRuns ++ [⟨t, d.ledger.host t, true⟩] }, .outside⟩
  -- calls end
  | complete {d d₁ es t o l notices} (h : Ends a d es t o d₁)
    (hr : d₁.ledger.release t = (some l, notices)) :
    Move a ⟨d, .outside⟩ (es ++ notices.map .said ++ [.passRequested])
      (request { d₁ with ledger := l.updateCall t (·.setFinished o) })
  | miss {d d₁ es t o notices} (h : Ends a d es t o d₁)
    (hr : d₁.ledger.release t = (none, notices)) :
    Move a ⟨d, .outside⟩ (es ++ notices.map .said) ⟨d₁, .outside⟩
  | completeSync {d d₁ es t o l notices} (h : EndsSync a d es t o d₁)
    (hr : d₁.ledger.releaseSync t = (some l, notices)) :
    Move a ⟨d, .outside⟩ (es ++ notices.map .said ++ [.passRequested])
      (request { d₁ with ledger := l.updateCall t (·.setFinished o) })
  | missSync {d d₁ es t o notices} (h : EndsSync a d es t o d₁)
    (hr : d₁.ledger.releaseSync t = (none, notices)) :
    Move a ⟨d, .outside⟩ (es ++ notices.map .said) ⟨d₁, .outside⟩
  -- settings and cancellation
  | setLimit {d limit n l notices} (ha : a = .setLimit limit n)
    (h : d.ledger.setLimit limit n = .ok (l, notices)) :
    Move a ⟨d, .outside⟩ (notices.map .said ++ [.passRequested]) (request { d with ledger := l })
  | setIdle {d idle} (ha : a = .setIdle idle) :
    Move a ⟨d, .outside⟩ [] ⟨{ d with ledger := d.ledger.setIdle idle }, .outside⟩
  | cancel {d t} (ha : a = .cancel t) :
    Move a ⟨d, .outside⟩ (d.markCanceled t).events ⟨(d.markCanceled t).dispatcher, .outside⟩
  | cancelAll {d} (ha : a = .cancelAll) :
    Move a ⟨d, .outside⟩
      (.said (.cancelingAll d.ledger.queue.allCalls.length) ::
        (d.markAllCanceled d.ledger.queue.allCalls).events)
      ⟨(d.markAllCanceled d.ledger.queue.allCalls).dispatcher, .outside⟩
  -- a pass goes on
  | promote {d} (h : d.pending = true) :
    Move a ⟨d, .passing [] none⟩ (.passStarted :: d.ledger.promote.notices.map .said)
      ⟨{ d with ledger := d.ledger.promote.ledger, pending := false },
        .passing d.ledger.promote.admitted d.ledger.promote.idle⟩
  | handOver {d t rest idle} (reply : Reply) :
    Move a ⟨d, .passing (t :: rest) idle⟩ [.handedOver t]
      ⟨{ d with held := d.held ++ [t], stack := .execute t rest idle reply :: d.stack }, .outside⟩
  | invoke {d callback} (reply : Reply) :
    Move a ⟨d, .passing [] (some callback)⟩ [.said .idle, .idleInvoked callback]
      ⟨{ d with stack := .idle callback reply :: d.stack }, .outside⟩
  | close {d} (h : d.pending = false) :
    Move a ⟨d, .passing [] none⟩ [] ⟨{ d with promoting := false }, .outside⟩
  -- code outside gives control back to a pass
  | resume {d t rest idle reply stack} (ha : a = .leave)
    (h : d.stack = .execute t rest idle reply :: stack) :
    Move a ⟨d, .outside⟩ [] ⟨{ d with stack }, .passing rest idle⟩
  | resumeIdle {d callback reply stack} (ha : a = .leave)
    (h : d.stack = .idle callback reply :: stack) :
    Move a ⟨d, .outside⟩ [] ⟨{ d with stack }, .passing [] none⟩
  -- a panic leaves a pass
  | fail {d t rest idle reply stack message} (ha : a = .panic message)
    (h : d.stack = .execute t rest idle reply :: stack) :
    Move a ⟨d, .outside⟩ [] ⟨{ d with stack }, .leaving rest⟩
  | failIdle {d callback reply stack message} (ha : a = .panic message)
    (h : d.stack = .idle callback reply :: stack) :
    Move a ⟨d, .outside⟩ [] ⟨{ d with stack }, .leaving []⟩
  | abandon {d t rest l notices} (hp : d.promoting = true)
    (hr : d.ledger.release t = (some l, notices)) :
    Move a ⟨d, .leaving (t :: rest)⟩
      (.said (.dropped t (d.ledger.host t)) :: notices.map .said ++ [.passRequested])
      ⟨{ d with
          ledger := l.updateCall t (·.setFinished (.ofResult (.error .abandoned)))
          pending := true }, .leaving rest⟩
  | abandonMiss {d t rest notices} (hr : d.ledger.release t = (none, notices)) :
    Move a ⟨d, .leaving (t :: rest)⟩
      (.said (.dropped t (d.ledger.host t)) :: notices.map .said) ⟨d, .leaving rest⟩
  | unlatch {d} : Move a ⟨d, .leaving []⟩ [] ⟨{ d with promoting := false }, .outside⟩

/-- A series of moves, and all that happens in it. -/
inductive Moves (a : Action) : Moment → List Event → Moment → Prop where
  | nil (m : Moment) : Moves a m [] m
  | cons {m m₁ m₂ es es'} (h : Move a m es m₁) (hs : Moves a m₁ es' m₂) :
    Moves a m (es ++ es') m₂

namespace Moves

variable {a : Action} {m m₁ : Moment} {es : List Event}

/-- What every move keeps, a series of moves keeps. -/
theorem induction {P : List Event → Moment → Prop} {before : List Event}
    (hmove : ∀ before m es m₁, P before m → Move a m es m₁ → P (before ++ es) m₁)
    (hP : P before m) (h : Moves a m es m₁) : P (before ++ es) m₁ := by
  induction h generalizing before with
  | nil m => simpa using hP
  | cons hm _ ih =>
    rw [← List.append_assoc]
    exact ih (hmove before _ _ _ hP hm)

end Moves

end CallAdmission.Dispatcher
