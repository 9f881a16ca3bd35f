import CallAdmission.Proofs.Dispatcher.Decomposition
import CallAdmission.Proofs.Ledger
import Mathlib.Algebra.Order.Group.Multiset
import Mathlib.Tactic.Abel

/-!
# CallAdmission.Proofs.Dispatcher.Custody

Who has the token of which call, and how tokens come to their end. The token of an admitted call is
with the pass that has yet to hand the call over, then with the executor, then with a run of the
call or with the activity that polls it; that of a sync call is its guard. `Moment.custody` forgets
where a token is and keeps for which calls there are tokens.

* `endings` — the tokens that come to their end when an action is taken;
* `marks` — what the events say of the way of calls;
* `Custody.Deed` — what a single move from outside does to calls and tokens;
* `Move.deed` — every such move is one of these deeds.
-/

namespace CallAdmission.Dispatcher

/-! ## tokens -/

/-- The admitted calls whose tokens an activity has: the calls that a pass has yet to hand over, or
the call whose task is made or polled. -/
def Frame.tokens : Frame → List Ticket
  | .execute _ rest _ _ => rest
  | .openTask t | .pollTask t => [t]
  | .idle .. | .pollSync _ => []

/-- The sync call whose guard an activity has. -/
def Frame.syncTokens : Frame → List Ticket
  | .pollSync t => [t]
  | .execute .. | .idle .. | .openTask _ | .pollTask _ => []

/-- The calls that a pass has to hand over or to abandon. -/
def Phase.tokens : Phase → List Ticket
  | .outside => []
  | .passing rest _ | .leaving rest => rest

/-- The admitted calls that have a token that was not reported, once for each token. -/
def tokens (d : Dispatcher) : List Ticket :=
  d.held ++ d.runs.map (·.call) ++ d.stack.flatMap Frame.tokens

/-- The sync calls that have a guard that was not finished, once for each guard. -/
def syncTokens (d : Dispatcher) : List Ticket :=
  d.guards ++ (d.syncRuns.filter (·.started)).map (·.call) ++ d.stack.flatMap Frame.syncTokens

/-- The tickets of sync calls whose runs were never polled. -/
def reserved (d : Dispatcher) : List Ticket :=
  (d.syncRuns.filter (!·.started)).map (·.call)

/-! ## the end of a token -/

/-- How a token comes to its end. -/
inductive Ending where
  | reported (r : Result)
  /-- the token of an admitted call is dropped without a report -/
  | abandoned
  /-- the guard of a sync call is dropped before it is finished -/
  | dropped
deriving DecidableEq, Repr

/-- The outcome of a call whose token came to its end so. -/
def Ending.outcome : Ending → Outcome
  | .reported (.ok ()) => .succeeded
  | .reported (.error .canceled) => .canceled
  | .reported (.error (.failed message)) => .failed message
  | .reported (.error .abandoned) | .abandoned => .failed "Call abandoned by executor"
  | .dropped => .canceled

/-- What is recorded of a call whose token comes to its end so. -/
def Ending.record : Ending → Call → Call
  | .dropped, c => c.cancel.setFinished .canceled
  | e, c => c.setFinished e.outcome

/-- What is reported of a call is the outcome of the result. -/
theorem Ending.outcome_reported (r : Result) : (reported r).outcome = .ofResult r := by
  rcases r with (message | _ | _) | _ <;> rfl

theorem Ending.record_reported (r : Result) :
    (reported r).record = (·.setFinished (.ofResult r)) := by
  rw [← outcome_reported]
  rfl

/-- The run of a sync call was polled before. -/
def isStarted (d : Dispatcher) (t : Ticket) : Bool :=
  (d.syncRuns.find? (·.call == t)).any (·.started)

/-- The tokens that come to their end when an action is taken, in order. -/
def endings (d : Dispatcher) : Action → List (Ticket × Ending)
  | .report t r | .finishGuard t r => [(t, .reported r)]
  | .abandon t | .dropRun t => [(t, .abandoned)]
  | .dropGuard t => [(t, .dropped)]
  | .pollRun t => if d.ledger.isCanceled t then [(t, .reported (.error .canceled))] else []
  | .pollSyncRun t =>
    if d.isStarted t && d.ledger.isCanceled t then [(t, .reported (.error .canceled))] else []
  | .dropSyncRun t => if d.isStarted t then [(t, .dropped)] else []
  | .leave =>
    match d.stack with
    | .openTask t :: _ =>
      if d.ledger.isCanceled t then [(t, .reported (.error .canceled))] else []
    | _ => []
  | .resolve r =>
    match d.stack with
    | .pollTask t :: _ | .pollSync t :: _ => [(t, .reported r)]
    | _ => []
  | .panic _ =>
    match d.stack with
    | .execute _ rest _ _ :: _ => rest.map (·, .abandoned)
    | .openTask t :: _ | .pollTask t :: _ => [(t, .abandoned)]
    | .pollSync t :: _ => [(t, .dropped)]
    | .idle .. :: _ | [] => []
  | .submit _ | .submitSync _ | .executeSync _ | .openRun _ | .suspend | .setLimit .. | .setIdle _
  | .cancel _ | .cancelAll => []

/-- The tokens that a pass brings to their end before it gives control away. -/
def Phase.endings : Phase → List (Ticket × Ending)
  | .outside | .passing .. => []
  | .leaving rest => rest.map (·, .abandoned)

/-! ## marks -/

/-- What an event says of the way of a call, or of a pass. -/
inductive Mark where
  /-- the call arrives and waits -/
  | waits (t : Ticket)
  /-- the call is admitted, or arrives as a sync call -/
  | runs (t : Ticket)
  /-- the call gives its slot back -/
  | ends (t : Ticket)
  /-- the call was to give its slot back and has none -/
  | misses (t : Ticket)
  | passes
  | invokes (idle : Callback)
deriving DecidableEq, Repr

/-- The mark that an event leaves. -/
def Event.mark? : Event → Option Mark
  | .said (.enqueued t ..) => some (.waits t)
  | .said (.promoted t ..) | .said (.syncStarted t _) => some (.runs t)
  | .said (.finished t ..) | .said (.syncFinished t) => some (.ends t)
  | .said (.notInFlight t) | .said (.syncNotInFlight t) => some (.misses t)
  | .passStarted => some .passes
  | .idleInvoked idle => some (.invokes idle)
  | _ => none

/-- The marks that events leave, in order. -/
def marks (es : List Event) : List Mark := es.filterMap Event.mark?

@[simp] theorem marks_nil : marks [] = [] := rfl

@[simp] theorem marks_append (es es' : List Event) : marks (es ++ es') = marks es ++ marks es' :=
  List.filterMap_append

/-! ## custody -/

/-- The calls, and for which of them there are tokens. -/
structure Custody where
  ledger : Ledger
  next : Ticket
  tokens : Multiset Ticket
  syncTokens : Multiset Ticket
  reserved : Multiset Ticket

namespace Custody

/-- One more token of an admitted call. -/
def hold (c : Custody) (t : Ticket) : Custody := { c with tokens := t ::ₘ c.tokens }

/-- One more guard of a sync call. -/
def guard (c : Custody) (t : Ticket) : Custody := { c with syncTokens := t ::ₘ c.syncTokens }

/-- One more ticket that is set aside. -/
def reserve (c : Custody) (t : Ticket) : Custody := { c with reserved := t ::ₘ c.reserved }

/-- One more run of a sync call: there is a guard in it if it was polled. -/
def book (c : Custody) (run : SyncRun) : Custody :=
  if run.started then c.guard run.call else c.reserve run.call

/-- One more activity with its tokens. -/
def push (c : Custody) (f : Frame) : Custody :=
  { c with tokens := ↑f.tokens + c.tokens, syncTokens := ↑f.syncTokens + c.syncTokens }

variable (c : Custody) (t : Ticket)

@[simp] theorem push_openTask : c.push (.openTask t) = c.hold t := by
  simp [push, hold, Frame.tokens, Frame.syncTokens]

@[simp] theorem push_pollTask : c.push (.pollTask t) = c.hold t := by
  simp [push, hold, Frame.tokens, Frame.syncTokens]

@[simp] theorem push_pollSync : c.push (.pollSync t) = c.guard t := by
  simp [push, guard, Frame.tokens, Frame.syncTokens]

/-- What a move from outside does to calls and tokens. -/
inductive Deed (c : Custody) : List (Ticket × Ending) → List Mark → Custody → Prop where
  /-- a token goes from one place to another, or nothing happens to tokens -/
  | keep : Deed c [] [] c
  | enqueue (r : Request) :
    Deed c [] [.waits c.next]
      { c with ledger := (c.ledger.enqueue c.next r).1, next := c.next + 1 }
  | submitSync (host : Host) :
    Deed c [] [.runs c.next]
      ({ c with ledger := (c.ledger.enqueueSync c.next host).1, next := c.next + 1 }.guard c.next)
  /-- a sync call is to be submitted when its run is polled -/
  | reserve : Deed c [] [] ({ c with next := c.next + 1 }.reserve c.next)
  | startSync {c₁ : Custody} {t} (host : Host) (h : c = c₁.reserve t) :
    Deed c [] [.runs t] ({ c₁ with ledger := (c₁.ledger.enqueueSync t host).1 }.guard t)
  /-- the run of a sync call is dropped before it was polled -/
  | withdraw {c₁ : Custody} {t} (h : c = c₁.reserve t) : Deed c [] [] c₁
  | finish {c₁ : Custody} {t e departure} (h : c = c₁.hold t)
    (hq : c₁.ledger.queue.finish? t = some departure) (he : e ≠ .dropped) :
    Deed c [(t, e)] [.ends t]
      { c₁ with ledger := { c₁.ledger with queue := departure.queue }.updateCall t e.record }
  | finishSync {c₁ : Custody} {t e queue} (h : c = c₁.guard t)
    (hq : c₁.ledger.queue.finishSync? t = some queue) (he : e ≠ .abandoned) :
    Deed c [(t, e)] [.ends t]
      { c₁ with ledger := { c₁.ledger with queue }.updateCall t e.record }
  /-- there is a token, and its call does not run -/
  | miss {c₁ : Custody} {t e} (h : c = c₁.hold t) (hq : c₁.ledger.queue.finish? t = none) :
    Deed c [(t, e)] [.misses t] c₁
  | missSync {c₁ : Custody} {t e l} (h : c = c₁.guard t)
    (hq : c₁.ledger.queue.finishSync? t = none) (hl : l.queue = c₁.ledger.queue) :
    Deed c [(t, e)] [.misses t] { c₁ with ledger := l }
  | setLimit {limit n queue} (hq : c.ledger.queue.setLimit limit n = .ok queue) :
    Deed c [] [] { c with ledger := { c.ledger with queue } }
  | setIdle (idle : Option Callback) : Deed c [] [] { c with ledger := c.ledger.setIdle idle }
  | cancel (ts : List Ticket) : Deed c [] [] { c with ledger := ts.foldl Ledger.cancel c.ledger }

end Custody

/-- The custody of a dispatcher within a step. -/
def Moment.custody (m : Moment) : Custody where
  ledger := m.dispatcher.ledger
  next := m.dispatcher.next
  tokens := ↑(m.phase.tokens ++ m.dispatcher.tokens)
  syncTokens := ↑m.dispatcher.syncTokens
  reserved := ↑m.dispatcher.reserved

/-! ## where tokens are -/

section Places

variable {d d₁ : Dispatcher} {t : Ticket} {phase : Phase}

/-- Tokens make up a custody; where they are does not matter. -/
theorem custody_eq (d : Dispatcher) (phase : Phase) :
    Moment.custody ⟨d, phase⟩ =
      { ledger := d.ledger
        next := d.next
        tokens := ↑phase.tokens +
          (↑d.held + ↑(d.runs.map (·.call)) + ↑(d.stack.flatMap Frame.tokens))
        syncTokens := ↑d.guards + ↑((d.syncRuns.filter (·.started)).map (·.call)) +
          ↑(d.stack.flatMap Frame.syncTokens)
        reserved := ↑((d.syncRuns.filter (!·.started)).map (·.call)) } := rfl

theorem custody_held (d : Dispatcher) {held rest : List Ticket} (h : held.Perm (t :: rest)) :
    Moment.custody ⟨{ d with held }, phase⟩ =
      (Moment.custody ⟨{ d with held := rest }, phase⟩).hold t := by
  have hheld : (↑held : Multiset Ticket) = t ::ₘ ↑rest := Multiset.coe_eq_coe.2 h
  simp only [custody_eq, Custody.hold, hheld, Multiset.cons_add, Multiset.add_cons]

theorem custody_runs (d : Dispatcher) {run : Run} {runs rest : List Run}
    (h : runs.Perm (run :: rest)) :
    Moment.custody ⟨{ d with runs }, phase⟩ =
      (Moment.custody ⟨{ d with runs := rest }, phase⟩).hold run.call := by
  have hruns : (↑(runs.map (·.call)) : Multiset Ticket) = run.call ::ₘ ↑(rest.map (·.call)) :=
    Multiset.coe_eq_coe.2 (h.map (·.call))
  simp only [custody_eq, Custody.hold, hruns, Multiset.cons_add, Multiset.add_cons]

theorem custody_guards (d : Dispatcher) {guards rest : List Ticket} (h : guards.Perm (t :: rest)) :
    Moment.custody ⟨{ d with guards }, phase⟩ =
      (Moment.custody ⟨{ d with guards := rest }, phase⟩).guard t := by
  have hguards : (↑guards : Multiset Ticket) = t ::ₘ ↑rest := Multiset.coe_eq_coe.2 h
  simp only [custody_eq, Custody.guard, hguards, Multiset.cons_add]

theorem custody_syncRuns (d : Dispatcher) {run : SyncRun} {runs rest : List SyncRun}
    (h : runs.Perm (run :: rest)) :
    Moment.custody ⟨{ d with syncRuns := runs }, phase⟩ =
      (Moment.custody ⟨{ d with syncRuns := rest }, phase⟩).book run := by
  have hstarted := Multiset.coe_eq_coe.2 ((h.filter (·.started)).map (·.call))
  have hreserved := Multiset.coe_eq_coe.2 ((h.filter (!·.started)).map (·.call))
  cases hs : run.started with
  | true =>
    simp only [List.filter_cons, hs, if_true, Bool.not_true, Bool.false_eq_true, if_false,
      List.map_cons, ← Multiset.cons_coe] at hstarted hreserved
    simp only [custody_eq, Custody.book, Custody.guard, hs, if_true, hstarted, hreserved,
      Multiset.add_cons, Multiset.cons_add]
  | false =>
    simp only [List.filter_cons, hs, if_true, Bool.not_false, Bool.false_eq_true, if_false,
      List.map_cons, ← Multiset.cons_coe] at hstarted hreserved
    simp only [custody_eq, Custody.book, Custody.reserve, hs, Bool.false_eq_true, if_false,
      hstarted, hreserved]

/-- The activities on the stack have their tokens. -/
theorem custody_stack {f : Frame} {stack : List Frame} (h : d.stack = f :: stack) :
    Moment.custody ⟨d, phase⟩ = (Moment.custody ⟨{ d with stack }, phase⟩).push f := by
  simp only [custody_eq, Custody.push, h, List.flatMap_cons, ← Multiset.coe_add]
  congr 1 <;> abel

theorem custody_push (d : Dispatcher) (f : Frame) :
    Moment.custody ⟨{ d with stack := f :: d.stack }, phase⟩ = (Moment.custody ⟨d, phase⟩).push f :=
  custody_stack rfl

/-! ### tokens are taken -/

theorem custody_takeHeld (h : d.takeHeld t = .ok d₁) :
    Moment.custody ⟨d, .outside⟩ = (Moment.custody ⟨d₁, .outside⟩).hold t := by
  obtain ⟨hmem, rfl⟩ := takeHeld_eq_ok h
  exact custody_held d (List.perm_cons_erase hmem)

theorem custody_takeGuard (h : d.takeGuard t = .ok d₁) :
    Moment.custody ⟨d, .outside⟩ = (Moment.custody ⟨d₁, .outside⟩).guard t := by
  obtain ⟨hmem, rfl⟩ := takeGuard_eq_ok h
  exact custody_guards d (List.perm_cons_erase hmem)

/-- The first of the entries that are sought, and its place. -/
theorem perm_cons_eraseP {α : Type} {p : α → Bool} {x : α} {xs : List α} (h : xs.find? p = some x) :
    xs.Perm (x :: xs.eraseP p) := by
  obtain ⟨hp, front, back, rfl, hfront⟩ := List.find?_eq_some_iff_append.1 h
  have hnone : ∀ y ∈ front, ¬ p y = true := fun y hy => by simpa using hfront y hy
  rw [List.eraseP_append_right _ hnone, List.eraseP_cons_of_pos hp]
  exact List.perm_middle

theorem custody_takeRun {run : Run} (h : d.takeRun t = .ok (run, d₁)) :
    run.call = t ∧ d₁.ledger = d.ledger ∧
      Moment.custody ⟨d, .outside⟩ = (Moment.custody ⟨d₁, .outside⟩).hold run.call := by
  obtain ⟨hfind, rfl⟩ := takeRun_eq_ok h
  exact ⟨by simpa using List.find?_some hfind, rfl, custody_runs d (perm_cons_eraseP hfind)⟩

theorem custody_takeSyncRun {run : SyncRun} (h : d.takeSyncRun t = .ok (run, d₁)) :
    run.call = t ∧ d.isStarted t = run.started ∧ d₁.ledger = d.ledger ∧
      Moment.custody ⟨d, .outside⟩ = (Moment.custody ⟨d₁, .outside⟩).book run := by
  obtain ⟨hfind, rfl⟩ := takeSyncRun_eq_ok h
  have hstarted : d.isStarted t = run.started := by
    rw [isStarted, hfind]
    rfl
  exact ⟨by simpa using List.find?_some hfind, hstarted, rfl,
    custody_syncRuns d (perm_cons_eraseP hfind)⟩

end Places

/-! ## tokens that come to their end -/

variable {a : Action} {d d₁ : Dispatcher} {t : Ticket} {o : Outcome} {es : List Event}

theorem marks_release {l : Ledger} {l' : Ledger} {notices : List Notice}
    (h : l.release t = (some l', notices)) : marks (notices.map .said) = [.ends t] := by
  unfold Ledger.release at h
  split at h
  · cases h
  · next departure hd =>
    cases h
    unfold Counter.decrementNotices
    split <;> rfl

theorem marks_releaseSync {l : Ledger} {l' : Ledger} {notices : List Notice}
    (h : l.releaseSync t = (some l', notices)) : marks (notices.map .said) = [.ends t] := by
  unfold Ledger.releaseSync at h
  split at h
  · cases h
  · cases h
    rfl

theorem marks_release_none {l : Ledger} {notices : List Notice}
    (h : l.release t = (none, notices)) : marks (notices.map .said) = [.misses t] := by
  unfold Ledger.release at h
  split at h
  · cases h
    rfl
  · cases h

theorem marks_releaseSync_none {l : Ledger} {notices : List Notice}
    (h : l.releaseSync t = (none, notices)) : marks (notices.map .said) = [.misses t] := by
  unfold Ledger.releaseSync at h
  split at h
  · cases h
    rfl
  · cases h

/-- Remarks leave no marks. -/
theorem marks_remarks (h : ∀ e ∈ es, e.isRemark = true) : marks es = [] := by
  rw [marks, List.filterMap_eq_nil_iff]
  intro e he
  have hremark := h e he
  cases e with
  | said n => cases n <;> first | rfl | cases hremark
  | _ => first | rfl | cases hremark

/-- Where an action takes the token of an admitted call, the token comes to its end. -/
theorem Ends.endings (h : Ends a d es t o d₁) :
    ∃ e, d.endings a = [(t, e)] ∧ e ≠ .dropped ∧ e.record = (·.setFinished o) ∧ marks es = [] ∧
      Moment.custody ⟨d, .outside⟩ = (Moment.custody ⟨d₁, .outside⟩).hold t := by
  cases h with
  | report h => exact ⟨_, rfl, nofun, Ending.record_reported _, rfl, custody_takeHeld h⟩
  | abandon h => exact ⟨_, rfl, nofun, rfl, rfl, custody_takeHeld h⟩
  | cancelUnstarted h hs hc | cancelStarted h hs hc =>
    obtain ⟨rfl, hledger, hcustody⟩ := custody_takeRun h
    rw [hledger] at hc
    exact ⟨.reported (.error .canceled), if_pos hc, nofun, rfl, rfl, hcustody⟩
  | @dropRun d d₁ t run h =>
    obtain ⟨rfl, -, hcustody⟩ := custody_takeRun h
    refine ⟨.abandoned, rfl, nofun, rfl, ?_, hcustody⟩
    cases run.started <;> rfl
  | cancelOpened h hc =>
    refine ⟨.reported (.error .canceled), ?_, nofun, rfl, rfl, by rw [custody_stack h]; simp⟩
    simp only [Dispatcher.endings, h]
    exact if_pos hc
  | @resolve d t r stack h =>
    refine ⟨.reported r, ?_, nofun, Ending.record_reported r, rfl,
      by rw [custody_stack h]; simp⟩
    simp only [Dispatcher.endings, h]
  | panicOpening h | panicPolled h =>
    refine ⟨.abandoned, ?_, nofun, rfl, rfl, by rw [custody_stack h]; simp⟩
    simp only [Dispatcher.endings, h]

/-- A guard that is dropped cancels its call before the call is recorded as canceled. -/
theorem record_dropped (l : Ledger) (t : Ticket) (queue : Queue) :
    { l.cancel t with queue }.updateCall t (·.setFinished .canceled) =
      { l with queue }.updateCall t Ending.dropped.record :=
  Ledger.updateCall_updateCall { l with queue } t (·.setFinished .canceled) Call.cancel

/-- Where an action takes the guard of a sync call, the guard comes to its end. The call may be
canceled before it gives its slot back. -/
theorem EndsSync.endings (h : EndsSync a d es t o d₁) :
    ∃ e, d.endings a = [(t, e)] ∧ e ≠ .abandoned ∧ marks es = [] ∧
      (∀ queue, { d₁.ledger with queue }.updateCall t (·.setFinished o) =
        { d.ledger with queue }.updateCall t e.record) ∧
      d₁.ledger.queue = d.ledger.queue ∧
      Moment.custody ⟨d, .outside⟩ =
        { Moment.custody ⟨d₁, .outside⟩ with ledger := d.ledger }.guard t := by
  have hmarks := marks_remarks h.remarks
  cases h with
  | finishGuard h =>
    have hcustody := custody_takeGuard h
    obtain ⟨-, rfl⟩ := takeGuard_eq_ok h
    exact ⟨_, rfl, nofun, rfl, fun _ => by rw [Ending.record_reported], rfl, hcustody⟩
  | dropGuard h =>
    have hcustody := custody_takeGuard h
    obtain ⟨-, rfl⟩ := takeGuard_eq_ok h
    exact ⟨_, rfl, nofun, hmarks, record_dropped d.ledger _, rfl, hcustody⟩
  | @cancelStarted d d₁ t run h hs hc =>
    obtain ⟨rfl, hstarted, hledger, hcustody⟩ := custody_takeSyncRun h
    rw [Custody.book, if_pos hs] at hcustody
    refine ⟨.reported (.error .canceled), ?_, nofun, rfl, fun _ => by rw [hledger]; rfl, ?_, ?_⟩
    · rw [hledger] at hc
      simp only [Dispatcher.endings, hstarted, hs, hc]
      rfl
    · rw [hledger]
    · rw [← hledger]
      exact hcustody
  | @dropRun d d₁ t run h hs =>
    obtain ⟨rfl, hstarted, hledger, hcustody⟩ := custody_takeSyncRun h
    rw [Custody.book, if_pos hs] at hcustody
    refine ⟨.dropped, ?_, nofun, hmarks, ?_, ?_, ?_⟩
    · simp only [Dispatcher.endings, hstarted, hs, if_true]
    · rw [← hledger]
      exact record_dropped _ _
    · rw [← hledger]
      rfl
    · rw [← hledger]
      exact hcustody
  | @resolve d t r stack h =>
    refine ⟨.reported r, ?_, nofun, rfl, fun _ => by rw [Ending.record_reported], rfl,
      by rw [custody_stack h]; simp; rfl⟩
    simp only [Dispatcher.endings, h]
  | panicPolled h =>
    refine ⟨.dropped, ?_, nofun, hmarks, record_dropped d.ledger t, rfl,
      by rw [custody_stack h]; simp; rfl⟩
    simp only [Dispatcher.endings, h]

/-! ## moves from outside -/

/-- To ask for a pass is no matter of tokens. -/
theorem custody_request (d : Dispatcher) : (request d).custody = Moment.custody ⟨d, .outside⟩ := by
  have hphase : (request d).phase.tokens = [] := by
    cases hp : d.promoting <;> simp [request, hp, Phase.tokens]
  simp only [Moment.custody, hphase]
  rfl

theorem endings_request (d : Dispatcher) : (request d).phase.endings = [] := by
  cases hp : d.promoting <;> simp [request, hp, Phase.endings]

theorem custody_markAllCanceled (d : Dispatcher) (ts : List Ticket) (phase : Phase) :
    Moment.custody ⟨(d.markAllCanceled ts).dispatcher, phase⟩ =
      { Moment.custody ⟨d, phase⟩ with ledger := ts.foldl Ledger.cancel d.ledger } := by
  induction ts generalizing d with
  | nil => rfl
  | cons t ts ih => exact ih (d.markCanceled t).dispatcher

theorem Custody.Deed.of_eq {c c' : Custody} (h : c' = c) : c.Deed [] [] c' := h ▸ Custody.Deed.keep

/-- Every move from outside is one of the deeds, and brings the tokens to their end that the action
does, but for those that the pass will that has control then. -/
theorem Move.deed {m m₁ : Moment} (h : Move a m es m₁) (hm : m.phase = .outside) :
    ∃ ends, m.custody.Deed ends (marks es) m₁.custody ∧
      m.dispatcher.endings a = ends ++ m₁.phase.endings := by
  cases h with
  | @submit d r ha =>
    refine ⟨[], ?_, by rw [endings_request, ha]; rfl⟩
    rw [custody_request]
    exact Custody.Deed.enqueue r
  | @submitSync d host ha =>
    refine ⟨[], ?_, by rw [ha]; rfl⟩
    rw [custody_guards { d with ledger := (d.ledger.enqueueSync d.next host).1, next := d.next + 1 }
      (List.perm_append_singleton d.next d.guards)]
    exact Custody.Deed.submitSync host
  | @reserveSync d host ha =>
    refine ⟨[], ?_, by rw [ha]; rfl⟩
    rw [custody_syncRuns { d with next := d.next + 1 }
      (List.perm_append_singleton ⟨d.next, host, false⟩ d.syncRuns)]
    exact Custody.Deed.reserve
  | @startSync d d₁ t run ha h hs =>
    obtain ⟨rfl, hstarted, -, hcustody⟩ := custody_takeSyncRun h
    refine ⟨[], ?_, by simp [ha, Dispatcher.endings, hstarted, hs, Phase.endings]⟩
    rw [Custody.book, hs] at hcustody
    rw [custody_push { d₁ with ledger := (d₁.ledger.enqueueSync run.call run.host).1 }
      (.pollSync run.call), Custody.push_pollSync]
    exact Custody.Deed.startSync run.host hcustody
  | @dropUnstarted d d₁ t run ha h hs =>
    obtain ⟨rfl, hstarted, -, hcustody⟩ := custody_takeSyncRun h
    refine ⟨[], ?_, by simp [ha, Dispatcher.endings, hstarted, hs, Phase.endings]⟩
    rw [Custody.book, hs] at hcustody
    exact Custody.Deed.withdraw hcustody
  | @openRun d d₁ t ha h =>
    refine ⟨[], Custody.Deed.of_eq ?_, by rw [ha]; rfl⟩
    rw [custody_takeHeld h]
    exact custody_runs d₁ (List.perm_append_singleton ⟨t, false⟩ d₁.runs)
  | @openTask d d₁ t run ha h hs hc | @pollTask d d₁ t run ha h hs hc =>
    obtain ⟨rfl, hledger, hcustody⟩ := custody_takeRun h
    refine ⟨[], Custody.Deed.of_eq ?_, ?_⟩
    · rw [custody_push d₁, hcustody]
      simp
    · rw [hledger] at hc
      rw [ha]
      exact if_neg (by simpa using hc)
  | @pollOpened d t stack ha h hc =>
    refine ⟨[], Custody.Deed.of_eq ?_, ?_⟩
    · rw [custody_stack h, custody_push { d with stack } (.pollTask t)]
      simp
    · simp only [ha, Dispatcher.endings, h]
      exact if_neg (by simpa using hc)
  | @pollSync d d₁ t run ha h hs hc =>
    obtain ⟨rfl, hstarted, hledger, hcustody⟩ := custody_takeSyncRun h
    refine ⟨[], Custody.Deed.of_eq ?_, ?_⟩
    · rw [custody_push d₁, hcustody, Custody.book, if_pos hs]
      simp
    · rw [hledger] at hc
      simp [ha, Dispatcher.endings, hc, Phase.endings]
  | @suspend d t stack ha h =>
    refine ⟨[], Custody.Deed.of_eq ?_, by rw [ha]; rfl⟩
    rw [custody_stack h,
      custody_runs { d with stack } (List.perm_append_singleton ⟨t, true⟩ d.runs)]
    simp
  | @suspendSync d t stack ha h =>
    refine ⟨[], Custody.Deed.of_eq ?_, by rw [ha]; rfl⟩
    rw [custody_stack h,
      custody_syncRuns { d with stack }
        (List.perm_append_singleton ⟨t, d.ledger.host t, true⟩ d.syncRuns)]
    simp [Custody.book]
  | @complete d d₁ es t o l notices h hr =>
    obtain ⟨e, hends, he, hrecord, hes, hcustody⟩ := h.endings
    obtain ⟨departure, hq, rfl⟩ := Ledger.release_eq_some hr
    refine ⟨[(t, e)], ?_, by rw [endings_request, hends]; rfl⟩
    rw [custody_request, marks_append, marks_append, hes, marks_release hr, ← hrecord]
    exact Custody.Deed.finish hcustody hq he
  | @miss d d₁ es t o notices h hr =>
    obtain ⟨e, hends, -, -, hes, hcustody⟩ := h.endings
    refine ⟨[(t, e)], ?_, hends⟩
    rw [marks_append, hes, marks_release_none hr]
    exact Custody.Deed.miss hcustody (Ledger.release_eq_none hr)
  | @completeSync d d₁ es t o l notices h hr =>
    obtain ⟨e, hends, he, hes, hrecord, hqueue, hcustody⟩ := h.endings
    obtain ⟨queue, hq, rfl⟩ := Ledger.releaseSync_eq_some hr
    refine ⟨[(t, e)], ?_, by rw [endings_request, hends]; rfl⟩
    rw [custody_request, marks_append, marks_append, hes, marks_releaseSync hr, hrecord]
    rw [hqueue] at hq
    exact Custody.Deed.finishSync hcustody hq he
  | @missSync d d₁ es t o notices h hr =>
    obtain ⟨e, hends, -, hes, -, hqueue, hcustody⟩ := h.endings
    refine ⟨[(t, e)], ?_, hends⟩
    have hq := Ledger.releaseSync_eq_none hr
    rw [hqueue] at hq
    rw [marks_append, hes, marks_releaseSync_none hr]
    exact Custody.Deed.missSync hcustody hq hqueue
  | @setLimit d limit n l notices ha h =>
    refine ⟨[], ?_, by rw [endings_request, ha]; rfl⟩
    obtain ⟨queue, hq, rfl, rfl⟩ := Ledger.setLimit_eq_ok h
    rw [custody_request]
    exact Custody.Deed.setLimit hq
  | @setIdle d idle ha => exact ⟨[], Custody.Deed.setIdle idle, by rw [ha]; rfl⟩
  | @cancel d t ha =>
    refine ⟨[], ?_, by rw [ha]; rfl⟩
    rw [marks_remarks (remarks_markCanceled d t)]
    exact Custody.Deed.cancel [t]
  | @cancelAll d ha =>
    refine ⟨[], ?_, by rw [ha]; rfl⟩
    rw [custody_markAllCanceled, marks_remarks
      (List.forall_mem_cons.2 ⟨rfl, remarks_markAllCanceled d d.ledger.queue.allCalls⟩)]
    exact Custody.Deed.cancel d.ledger.queue.allCalls
  | resume ha h | resumeIdle ha h | fail ha h | failIdle ha h =>
    refine ⟨[], Custody.Deed.of_eq ?_, by simp [ha, Dispatcher.endings, h, Phase.endings]⟩
    rw [custody_stack h]
    simp [custody_eq, Custody.push, Phase.tokens, Frame.tokens, Frame.syncTokens]
  | promote | handOver | invoke | close | abandon | abandonMiss | unlatch => cases hm

end CallAdmission.Dispatcher
