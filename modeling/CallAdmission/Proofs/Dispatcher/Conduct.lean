import CallAdmission.Proofs.Dispatcher.Cancellation
import CallAdmission.Proofs.Dispatcher.Handover

/-!
# CallAdmission.Proofs.Dispatcher.Conduct

What is done with a run, from its making on. A run of an admitted call is polled and dropped by the
code that has it; when it is polled, it makes or polls the call's task, which takes its own course;
and whoever has the call may cancel it meanwhile. `Spot.next` is the table of all this: what can be
done with a run, and what the run comes to by it. Whatever else happens, a dispatcher keeps to the
table.

* `Spot`, `Beat`, `Spot.next` — where a run stands, and what is done with it;
* `beat?` — what an action does with which run;
* `Sign` — what is seen of it from outside;
* `Leg`, `Move.leg` — what a move does with runs;
* `step_conduct` — a step does nothing with a run but what the table says;
* `conduct_of_follow` — and so does a course.
-/

namespace CallAdmission.Dispatcher

/-! ## the table -/

/-- Where a run stands. -/
inductive Spot where
  /-- a run of an admitted call that was never polled -/
  | fresh
  /-- the call's work makes its task -/
  | making
  /-- the task is polled -/
  | polling
  /-- the run is between two polls -/
  | waiting
  /-- a run of a sync call that was never polled; there is no call yet -/
  | reserved
  /-- the work of a sync call is polled -/
  | attending
  /-- the run of a sync call is between two polls -/
  | deferred
deriving DecidableEq, Repr

/-- What is done with a run in a step. -/
inductive Beat where
  /-- the first poll finds the call canceled -/
  | barred
  /-- the first poll asks the call's work for its task -/
  | opened
  /-- the work panics before there is a task -/
  | failed
  /-- the task is polled, for the call is not canceled -/
  | polled
  /-- the task is not polled, for the call is canceled -/
  | halted
  | suspended
  | resolved (r : Result)
  /-- the task panics while it is polled -/
  | panicked
  /-- a run is dropped that was never polled -/
  | forsaken
  /-- the run of a sync call is dropped that was never polled -/
  | withdrawn
  /-- a run is dropped that was polled before -/
  | dropped
deriving DecidableEq, Repr

/-- What has become of a run. -/
inductive RunState where
  | going (s : Spot)
  /-- the run is no more; so its call ended, if there ever was one -/
  | past (e : Option Ending)
deriving DecidableEq, Repr

/-- What a run comes to by what is done with it. Nothing else can be done with it. -/
def Spot.next : Spot → Beat → Option RunState
  | .fresh, .barred => some (.past (some (.reported (.error .canceled))))
  | .fresh, .opened => some (.going .making)
  | .fresh, .forsaken => some (.past (some .abandoned))
  | .making, .polled => some (.going .polling)
  | .making, .halted => some (.past (some (.reported (.error .canceled))))
  | .making, .failed => some (.past (some .abandoned))
  | .polling, .suspended => some (.going .waiting)
  | .polling, .resolved r => some (.past (some (.reported r)))
  | .polling, .panicked => some (.past (some .abandoned))
  | .waiting, .polled => some (.going .polling)
  | .waiting, .halted => some (.past (some (.reported (.error .canceled))))
  | .waiting, .dropped => some (.past (some .abandoned))
  | .reserved, .polled => some (.going .attending)
  | .reserved, .withdrawn => some (.past none)
  | .attending, .suspended => some (.going .deferred)
  | .attending, .resolved r => some (.past (some (.reported r)))
  | .attending, .panicked => some (.past (some .dropped))
  | .deferred, .polled => some (.going .attending)
  | .deferred, .halted => some (.past (some (.reported (.error .canceled))))
  | .deferred, .dropped => some (.past (some .dropped))
  | _, _ => none

namespace RunState

/-- Nothing is done with a run that is over. -/
def next : RunState → Beat → Option RunState
  | .going s, b => s.next b
  | .past _, _ => none

/-- What a run comes to by all that is done with it. -/
def after (r : RunState) (bs : List Beat) : Option RunState := bs.foldlM next r

/-- Where the run stands, if it goes on. -/
def spot? : RunState → Option Spot
  | .going s => some s
  | .past _ => none

/-- How the token of the call came to its end. -/
def ending? : RunState → Option Ending
  | .going _ => none
  | .past e => e

end RunState

/-! ## what an action does with a run -/

/-- What a poll of a run comes to. -/
def Beat.ofPoll (started canceled : Bool) : Beat :=
  match started, canceled with
  | false, false => .opened
  | false, true => .barred
  | true, false => .polled
  | true, true => .halted

/-- What an action does with which run. -/
def beat? (d : Dispatcher) : Action → Option (Ticket × Beat)
  | .pollRun t =>
    (d.runs.find? (·.call == t)).map fun run =>
      (t, Beat.ofPoll run.started (d.ledger.isCanceled t))
  | .dropRun t =>
    (d.runs.find? (·.call == t)).map fun run => (t, if run.started then .dropped else .forsaken)
  | .pollSyncRun t =>
    (d.syncRuns.find? (·.call == t)).map fun run =>
      (t, if run.started && d.ledger.isCanceled t then .halted else .polled)
  | .dropSyncRun t =>
    (d.syncRuns.find? (·.call == t)).map fun run =>
      (t, if run.started then .dropped else .withdrawn)
  | .leave =>
    match d.stack with
    | .openTask t :: _ => some (t, if d.ledger.isCanceled t then .halted else .polled)
    | _ => none
  | .suspend =>
    match d.stack with
    | .pollTask t :: _ | .pollSync t :: _ => some (t, .suspended)
    | _ => none
  | .resolve r =>
    match d.stack with
    | .pollTask t :: _ | .pollSync t :: _ => some (t, .resolved r)
    | _ => none
  | .panic _ =>
    match d.stack with
    | .openTask t :: _ => some (t, .failed)
    | .pollTask t :: _ | .pollSync t :: _ => some (t, .panicked)
    | _ => none
  | .submit _ | .submitSync _ | .executeSync _ | .report .. | .abandon _ | .openRun _
  | .finishGuard .. | .dropGuard _ | .setLimit .. | .setIdle _ | .cancel _ | .cancelAll => none

/-- What an action does with the run of a call. -/
def beatAt? (t : Ticket) (d : Dispatcher) (a : Action) : Option Beat :=
  ((d.beat? a).filter (·.1 = t)).map (·.2)

/-- What is done with the run of a call in a course, in order. -/
def beats (d : Dispatcher) (t : Ticket) (actions : List Action) : List Beat :=
  gather (fun d a _ => (beatAt? t d a).toList) d actions

/-! ### what is seen of it -/

/-- What is seen of a call's task, and of the call's end. -/
inductive Sign where
  | opened
  | polled
  /-- the task is dropped before it ended -/
  | dropped
  /-- the call gives its slot back -/
  | ended
deriving DecidableEq, Repr

/-- The sign that an event gives, and of which call. -/
def Event.sign? : Event → Option (Ticket × Sign)
  | .taskOpened t => some (t, .opened)
  | .taskPolled t => some (t, .polled)
  | .taskDropped t => some (t, .dropped)
  | .said (.finished t ..) | .said (.syncFinished t) => some (t, .ended)
  | _ => none

/-- The signs that events give, in order. -/
def signs (es : List Event) : List (Ticket × Sign) := es.filterMap Event.sign?

/-- The signs of one call, in order. -/
def signsAt (t : Ticket) (es : List Event) : List Sign :=
  ((signs es).filter (·.1 = t)).map (·.2)

/-- What is seen of what is done with a run. -/
def Beat.signs : Beat → List Sign
  | .opened => [.opened]
  | .polled => [.polled]
  | .halted | .panicked | .dropped => [.dropped, .ended]
  | .barred | .failed | .resolved _ | .forsaken => [.ended]
  | .suspended | .withdrawn => []

section Signs

variable {es es' : List Event} {t u : Ticket} {notices : List Notice}

@[simp] theorem signs_nil : signs [] = [] := rfl

@[simp] theorem signs_cons (e : Event) (es : List Event) :
    signs (e :: es) = e.sign?.toList ++ signs es := by
  cases h : e.sign? <;> simp [signs, h]

@[simp] theorem signs_append (es es' : List Event) : signs (es ++ es') = signs es ++ signs es' :=
  List.filterMap_append

@[simp] theorem signsAt_append (es es' : List Event) :
    signsAt t (es ++ es') = signsAt t es ++ signsAt t es' := by
  simp [signsAt]

/-- Of no other call there is a sign. -/
theorem signsAt_eq_nil (h : ∀ p ∈ signs es, p.1 ≠ t) : signsAt t es = [] := by
  simpa [signsAt] using h

theorem signsAt_of_signs {ss : List Sign} (h : signs es = ss.map (u, ·)) :
    signsAt t es = if u = t then ss else [] := by
  by_cases ht : u = t <;> simp [signsAt, h, ht, List.filter_map, Function.comp_def]

theorem signs_release {l l' : Ledger} (h : l.release t = (some l', notices)) :
    signs (notices.map .said) = [(t, .ended)] := by
  unfold Ledger.release at h
  split at h
  · cases h
  · cases h
    unfold Counter.decrementNotices
    split <;> rfl

theorem signs_releaseSync {l l' : Ledger} (h : l.releaseSync t = (some l', notices)) :
    signs (notices.map .said) = [(t, .ended)] := by
  unfold Ledger.releaseSync at h
  split at h <;> cases h
  rfl

theorem signs_release_none {l : Ledger} (h : l.release t = (none, notices)) :
    signs (notices.map .said) = [] := by
  unfold Ledger.release at h
  split at h <;> cases h
  rfl

@[simp] theorem signs_markCanceled (d : Dispatcher) (t : Ticket) :
    signs (d.markCanceled t).events = [] := by
  simp only [markCanceled]
  split <;> rfl

@[simp] theorem signs_markAllCanceled (d : Dispatcher) (ts : List Ticket) :
    signs (d.markAllCanceled ts).events = [] := by
  induction ts generalizing d with
  | nil => rfl
  | cons t ts ih => simp [markAllCanceled, Turn.after, ih]

end Signs

/-! ## where runs stand -/

def Run.spot (run : Run) : Ticket × Spot := (run.call, if run.started then .waiting else .fresh)

def SyncRun.spot (run : SyncRun) : Ticket × Spot :=
  (run.call, if run.started then .deferred else .reserved)

/-- The run that an activity works at. -/
def Frame.spot? : Frame → Option (Ticket × Spot)
  | .openTask t => some (t, .making)
  | .pollTask t => some (t, .polling)
  | .pollSync t => some (t, .attending)
  | .execute .. | .idle .. => none

/-- The runs that there are, with the places where they stand. -/
def runSpots (d : Dispatcher) : Multiset (Ticket × Spot) :=
  ↑(d.runs.map Run.spot) + ↑(d.syncRuns.map SyncRun.spot) + ↑(d.stack.filterMap Frame.spot?)

section Places

variable {d d₁ : Dispatcher} {t : Ticket}

theorem runSpots_runs (d : Dispatcher) {run : Run} {runs rest : List Run}
    (h : runs.Perm (run :: rest)) :
    runSpots { d with runs } = run.spot ::ₘ runSpots { d with runs := rest } := by
  have hruns : (↑(runs.map Run.spot) : Multiset (Ticket × Spot)) =
      run.spot ::ₘ ↑(rest.map Run.spot) := Multiset.coe_eq_coe.2 (h.map Run.spot)
  simp only [runSpots, hruns, Multiset.cons_add]

theorem runSpots_syncRuns (d : Dispatcher) {run : SyncRun} {runs rest : List SyncRun}
    (h : runs.Perm (run :: rest)) :
    runSpots { d with syncRuns := runs } =
      run.spot ::ₘ runSpots { d with syncRuns := rest } := by
  have hruns : (↑(runs.map SyncRun.spot) : Multiset (Ticket × Spot)) =
      run.spot ::ₘ ↑(rest.map SyncRun.spot) := Multiset.coe_eq_coe.2 (h.map SyncRun.spot)
  simp only [runSpots, hruns, Multiset.cons_add, Multiset.add_cons]

/-- An activity that works at a run. -/
theorem runSpots_stack {f : Frame} {stack : List Frame} {p : Ticket × Spot}
    (h : d.stack = f :: stack) (hf : f.spot? = some p) :
    d.runSpots = p ::ₘ runSpots { d with stack } := by
  simp only [runSpots, h, List.filterMap_cons, hf, ← Multiset.cons_coe, Multiset.add_cons]

/-- An activity of a pass works at no run. -/
theorem runSpots_stack_of_isPass {f : Frame} {stack : List Frame} (h : d.stack = f :: stack)
    (hf : f.isPass = true) : d.runSpots = runSpots { d with stack } := by
  have hspot : f.spot? = none := by cases f <;> first | rfl | cases hf
  simp only [runSpots, h, List.filterMap_cons, hspot]

theorem runSpots_takeRun {run : Run} (h : d.takeRun t = .ok (run, d₁)) :
    run.call = t ∧ d.runs.find? (·.call == t) = some run ∧ d₁.ledger = d.ledger ∧
      d.runSpots = run.spot ::ₘ d₁.runSpots := by
  obtain ⟨hfind, rfl⟩ := takeRun_eq_ok h
  exact ⟨by simpa using List.find?_some hfind, hfind, rfl,
    runSpots_runs d (perm_cons_eraseP hfind)⟩

theorem runSpots_takeSyncRun {run : SyncRun} (h : d.takeSyncRun t = .ok (run, d₁)) :
    run.call = t ∧ d.syncRuns.find? (·.call == t) = some run ∧ d₁.ledger = d.ledger ∧
      d.runSpots = run.spot ::ₘ d₁.runSpots := by
  obtain ⟨hfind, rfl⟩ := takeSyncRun_eq_ok h
  exact ⟨by simpa using List.find?_some hfind, hfind, rfl,
    runSpots_syncRuns d (perm_cons_eraseP hfind)⟩

end Places

/-! ## what a move does with runs -/

/-- What a move from outside does with runs. -/
inductive Leg (a : Action) (d : Dispatcher) : List Event → Moment → Prop where
  /-- nothing is done with a run; the token of a call may come to its end that has no run -/
  | still {es m} (hbeat : d.beat? a = none) (hspots : m.dispatcher.runSpots = d.runSpots)
    (hsigns : ∀ p ∈ signs es, p.1 ∈ d.held ++ d.guards)
    (hleaving : ∀ rest, m.phase = .leaving rest → ∀ t ∈ rest, t ∈ d.awaiting) : Leg a d es m
  /-- a run is made -/
  | comes {es m p} (hbeat : d.beat? a = none) (hp : p.1 ∈ d.held ∨ p.1 = d.next)
    (hspots : m.dispatcher.runSpots = p ::ₘ d.runSpots) (hsigns : signs es = [])
    (hphase : m.phase = .outside) : Leg a d es m
  /-- a run goes on -/
  | goes {es m t s s' b c} (hbeat : d.beat? a = some (t, b)) (hnext : s.next b = some (.going s'))
    (hbefore : d.runSpots = (t, s) ::ₘ c) (hafter : m.dispatcher.runSpots = (t, s') ::ₘ c)
    (hsigns : signs es = b.signs.map (t, ·)) (hphase : m.phase = .outside) : Leg a d es m
  /-- a run is over before its call arrives -/
  | vanishes {m t c} (hbeat : d.beat? a = some (t, .withdrawn))
    (hbefore : d.runSpots = (t, .reserved) ::ₘ c) (hafter : m.dispatcher.runSpots = c)
    (hnext : m.dispatcher.next = d.next) (hphase : m.phase = .outside) : Leg a d [] m
  /-- a run is over, and its call gives its slot back -/
  | ends {es d₁ t s b e} (hbeat : d.beat? a = some (t, b))
    (hnext : s.next b = some (.past (some e))) (hbefore : d.runSpots = (t, s) ::ₘ d₁.runSpots)
    (hsigns : signs es = b.signs.map (t, ·)) (hends : d.endings a = [(t, e)])
    (hmark : .ends t ∈ marks es) (hpromoting : d₁.promoting = d.promoting) :
    Leg a d (es ++ [.passRequested]) (request d₁)

variable {a : Action} {d d₁ : Dispatcher} {t : Ticket} {o : Outcome} {es : List Event} {m : Moment}

/-- Cancellation is no matter of runs. -/
theorem runSpots_markCanceled (d : Dispatcher) (t : Ticket) :
    (d.markCanceled t).dispatcher.runSpots = d.runSpots := rfl

theorem runSpots_markAllCanceled (d : Dispatcher) (ts : List Ticket) :
    (d.markAllCanceled ts).dispatcher.runSpots = d.runSpots := by
  rw [markAllCanceled_dispatcher]
  rfl

/-- A request leaves no call to a panic. -/
theorem not_leaving_request (d : Dispatcher) : ∀ rest, (request d).phase ≠ .leaving rest := by
  intro rest
  rcases phase_request d with h | h <;> rw [h] <;> nofun

/-- The token of a call comes to its end: either it is one of the given tokens, which are without a
run, or the run of the call is over. -/
inductive Lapses (a : Action) (d : Dispatcher) (es : List Event) (t : Ticket) (d₁ : Dispatcher)
    (tokens : List Ticket) : Prop where
  | still (hbeat : d.beat? a = none) (hspots : d₁.runSpots = d.runSpots) (ht : t ∈ tokens)
    (hsigns : signs es = []) : Lapses a d es t d₁ tokens
  | ends (s : Spot) (b : Beat) (e : Ending) (hbeat : d.beat? a = some (t, b))
    (hnext : s.next b = some (.past (some e))) (hspots : d.runSpots = (t, s) ::ₘ d₁.runSpots)
    (hsigns : signs es ++ [(t, .ended)] = b.signs.map (t, ·)) (hends : d.endings a = [(t, e)]) :
    Lapses a d es t d₁ tokens

/-- The token of an admitted call comes to its end with its run, or has none. -/
theorem Ends.lapses (h : Ends a d es t o d₁) : Lapses a d es t d₁ d.held := by
  cases h with
  | report h | abandon h =>
    obtain ⟨hmem, rfl⟩ := takeHeld_eq_ok h
    exact .still rfl rfl hmem rfl
  | @cancelUnstarted d d₁ t run h hs hc =>
    obtain ⟨rfl, hfind, hledger, hspots⟩ := runSpots_takeRun h
    rw [hledger] at hc
    refine .ends .fresh .barred _ ?_ rfl ?_ rfl (if_pos hc)
    · simp [beat?, hfind, hs, hc, Beat.ofPoll]
    · simpa [Run.spot, hs] using hspots
  | @cancelStarted d d₁ t run h hs hc =>
    obtain ⟨rfl, hfind, hledger, hspots⟩ := runSpots_takeRun h
    rw [hledger] at hc
    refine .ends .waiting .halted _ ?_ rfl ?_ rfl (if_pos hc)
    · simp [beat?, hfind, hs, hc, Beat.ofPoll]
    · simpa [Run.spot, hs] using hspots
  | @dropRun d d₁ t run h =>
    obtain ⟨rfl, hfind, -, hspots⟩ := runSpots_takeRun h
    cases hs : run.started with
    | false =>
      refine .ends .fresh .forsaken _ ?_ rfl ?_ rfl rfl
      · simp [beat?, hfind, hs]
      · simpa [Run.spot, hs] using hspots
    | true =>
      refine .ends .waiting .dropped _ ?_ rfl ?_ rfl rfl
      · simp [beat?, hfind, hs]
      · simpa [Run.spot, hs] using hspots
  | @cancelOpened d t stack h hc =>
    refine .ends .making .halted _ ?_ rfl (runSpots_stack h rfl) rfl ?_
    · simp [beat?, h, hc]
    · simp [Dispatcher.endings, h, hc]
  | @resolve d t r stack h =>
    refine .ends .polling (.resolved r) _ ?_ rfl (runSpots_stack h rfl) rfl ?_
    · simp [beat?, h]
    · simp [Dispatcher.endings, h]
  | @panicOpening d t stack message h =>
    refine .ends .making .failed _ ?_ rfl (runSpots_stack h rfl) rfl ?_
    · simp [beat?, h]
    · simp [Dispatcher.endings, h]
  | @panicPolled d t stack message h =>
    refine .ends .polling .panicked _ ?_ rfl (runSpots_stack h rfl) rfl ?_
    · simp [beat?, h]
    · simp [Dispatcher.endings, h]

/-- The guard of a sync call comes to its end with its run, or is with none. -/
theorem EndsSync.lapses (h : EndsSync a d es t o d₁) : Lapses a d es t d₁ d.guards := by
  cases h with
  | finishGuard h =>
    obtain ⟨hmem, rfl⟩ := takeGuard_eq_ok h
    exact .still rfl rfl hmem rfl
  | dropGuard h =>
    obtain ⟨hmem, rfl⟩ := takeGuard_eq_ok h
    exact .still rfl rfl hmem (signs_markCanceled _ _)
  | @cancelStarted d d₁ t run h hs hc =>
    obtain ⟨rfl, hfind, hledger, hspots⟩ := runSpots_takeSyncRun h
    rw [hledger] at hc
    refine .ends .deferred .halted _ ?_ rfl ?_ rfl ?_
    · simp [beat?, hfind, hs, hc]
    · simpa [SyncRun.spot, hs] using hspots
    · simp [Dispatcher.endings, isStarted, hfind, hs, hc]
  | @dropRun d d₁ t run h hs =>
    obtain ⟨rfl, hfind, hledger, hspots⟩ := runSpots_takeSyncRun h
    refine .ends .deferred .dropped .dropped ?_ rfl ?_ ?_ ?_
    · simp [beat?, hfind, hs]
    · simpa [SyncRun.spot, hs, runSpots_markCanceled] using hspots
    · simp [Beat.signs, Event.sign?]
    · simp [Dispatcher.endings, isStarted, hfind, hs]
  | @resolve d t r stack h =>
    refine .ends .attending (.resolved r) _ ?_ rfl (runSpots_stack h rfl) rfl ?_
    · simp [beat?, h]
    · simp [Dispatcher.endings, h]
  | @panicPolled d t stack message h =>
    refine .ends .attending .panicked .dropped ?_ rfl (runSpots_stack h rfl) ?_ ?_
    · simp [beat?, h]
    · simp [Beat.signs, Event.sign?]
    · simp [Dispatcher.endings, h]

/-- Nothing is done with a run, and there is no sign of a call. -/
theorem Leg.of_signs (hbeat : d.beat? a = none) (hspots : m.dispatcher.runSpots = d.runSpots)
    (hsigns : signs es = []) (hphase : ∀ rest, m.phase ≠ .leaving rest) : Leg a d es m :=
  Leg.still hbeat hspots (by simp [hsigns]) fun rest hrest => absurd hrest (hphase rest)

/-- A call gives its slot back after its token was taken. -/
theorem Lapses.leg {l : Ledger} {es' : List Event} {tokens : List Ticket}
    (h : Lapses a d es t d₁ tokens) (htokens : ∀ t ∈ tokens, t ∈ d.held ++ d.guards)
    (hpromoting : d₁.promoting = d.promoting) (hsigns : signs es' = [(t, .ended)])
    (hmark : .ends t ∈ marks es') :
    Leg a d (es ++ es' ++ [.passRequested]) (request { d₁ with ledger := l }) := by
  cases h with
  | still hbeat hspots hmem hes =>
    refine Leg.still hbeat hspots ?_ fun rest hrest => absurd hrest (not_leaving_request _ rest)
    simpa [hes, hsigns, Event.sign?] using htokens t hmem
  | ends s b e hbeat hnext hspots hes hends =>
    refine Leg.ends hbeat hnext hspots ?_ hends ?_ hpromoting
    · rw [signs_append, hsigns, hes]
    · rw [marks_append]
      exact List.mem_append_right _ hmark

/-- Every move from outside is one of these. -/
theorem Move.leg (h : Move a ⟨d, .outside⟩ es m) (hmisses : ∀ t, .misses t ∉ marks es) :
    Leg a d es m := by
  cases h with
  | submit ha =>
    exact Leg.of_signs (by simp [ha, beat?]) rfl rfl (not_leaving_request _)
  | submitSync ha | setIdle ha => exact Leg.of_signs (by simp [ha, beat?]) rfl rfl nofun
  | @reserveSync d host ha =>
    refine Leg.comes (p := (d.next, .reserved)) (by simp [ha, beat?]) (.inr rfl) ?_ rfl rfl
    exact runSpots_syncRuns { d with next := d.next + 1 } (List.perm_append_singleton _ d.syncRuns)
  | @startSync d d₁ t run ha h hs =>
    obtain ⟨rfl, hfind, -, hspots⟩ := runSpots_takeSyncRun h
    refine Leg.goes (s := .reserved) (b := .polled) (c := d₁.runSpots) ?_ rfl ?_ ?_ rfl rfl
    · simp [ha, beat?, hfind, hs]
    · simpa [SyncRun.spot, hs] using hspots
    · exact runSpots_stack rfl rfl
  | @dropUnstarted d d₁ t run ha h hs =>
    obtain ⟨rfl, hfind, -, hspots⟩ := runSpots_takeSyncRun h
    have hnext : d₁.next = d.next := by rw [(takeSyncRun_eq_ok h).2]
    refine Leg.vanishes (t := run.call) (c := d₁.runSpots) ?_ ?_ rfl hnext rfl
    · simp [ha, beat?, hfind, hs]
    · simpa [SyncRun.spot, hs] using hspots
  | @openRun d d₁ t ha h =>
    obtain ⟨hmem, rfl⟩ := takeHeld_eq_ok h
    refine Leg.comes (p := (t, .fresh)) (by simp [ha, beat?]) (.inl hmem) ?_ rfl rfl
    exact runSpots_runs { d with held := d.held.erase t } (List.perm_append_singleton _ d.runs)
  | @openTask d d₁ t run ha h hs hc =>
    obtain ⟨rfl, hfind, hledger, hspots⟩ := runSpots_takeRun h
    refine Leg.goes (s := .fresh) (b := .opened) (c := d₁.runSpots) ?_ rfl ?_ ?_ rfl rfl
    · rw [hledger] at hc
      simp [ha, beat?, hfind, hs, hc, Beat.ofPoll]
    · simpa [Run.spot, hs] using hspots
    · exact runSpots_stack rfl rfl
  | @pollTask d d₁ t run ha h hs hc =>
    obtain ⟨rfl, hfind, hledger, hspots⟩ := runSpots_takeRun h
    refine Leg.goes (s := .waiting) (b := .polled) (c := d₁.runSpots) ?_ rfl ?_ ?_ rfl rfl
    · rw [hledger] at hc
      simp [ha, beat?, hfind, hs, hc, Beat.ofPoll]
    · simpa [Run.spot, hs] using hspots
    · exact runSpots_stack rfl rfl
  | @pollOpened d t stack ha h hc =>
    refine Leg.goes (s := .making) (b := .polled) (c := runSpots { d with stack }) ?_ rfl
      (runSpots_stack h rfl) (runSpots_stack rfl rfl) rfl rfl
    simp [ha, beat?, h, hc]
  | @pollSync d d₁ t run ha h hs hc =>
    obtain ⟨rfl, hfind, hledger, hspots⟩ := runSpots_takeSyncRun h
    refine Leg.goes (s := .deferred) (b := .polled) (c := d₁.runSpots) ?_ rfl ?_ ?_ rfl rfl
    · rw [hledger] at hc
      simp [ha, beat?, hfind, hc]
    · simpa [SyncRun.spot, hs] using hspots
    · exact runSpots_stack rfl rfl
  | @suspend d t stack ha h =>
    refine Leg.goes (s := .polling) (b := .suspended) (c := runSpots { d with stack }) ?_ rfl
      (runSpots_stack h rfl) ?_ rfl rfl
    · simp [ha, beat?, h]
    · exact runSpots_runs { d with stack } (List.perm_append_singleton ⟨t, true⟩ d.runs)
  | @suspendSync d t stack ha h =>
    refine Leg.goes (s := .attending) (b := .suspended) (c := runSpots { d with stack }) ?_ rfl
      (runSpots_stack h rfl) ?_ rfl rfl
    · simp [ha, beat?, h]
    · exact runSpots_syncRuns { d with stack }
        (List.perm_append_singleton ⟨t, d.ledger.host t, true⟩ d.syncRuns)
  | complete h hr =>
    exact h.lapses.leg (fun t => List.mem_append_left _) (congrArg Gate.promoting h.gate.1)
      (signs_release hr) (by simp [marks_release hr])
  | completeSync h hr =>
    exact h.lapses.leg (fun t => List.mem_append_right _) (congrArg Gate.promoting h.gate.1)
      (signs_releaseSync hr) (by simp [marks_releaseSync hr])
  | @miss _ _ _ t _ _ h hr => exact absurd (by simp [marks_release_none hr]) (hmisses t)
  | @missSync _ _ _ t _ _ h hr => exact absurd (by simp [marks_releaseSync_none hr]) (hmisses t)
  | setLimit ha h =>
    obtain ⟨queue, -, rfl, rfl⟩ := Ledger.setLimit_eq_ok h
    exact Leg.of_signs (by simp [ha, beat?]) rfl rfl (not_leaving_request _)
  | cancel ha => exact Leg.of_signs (by simp [ha, beat?]) rfl (signs_markCanceled _ _) nofun
  | cancelAll ha =>
    exact Leg.of_signs (by simp [ha, beat?]) (runSpots_markAllCanceled _ _)
      (by simp [Event.sign?]) nofun
  | resume ha h | resumeIdle ha h =>
    exact Leg.of_signs (by simp [ha, beat?, h]) (runSpots_stack_of_isPass h rfl).symm rfl nofun
  | fail ha h | failIdle ha h =>
    refine Leg.still (by simp [ha, beat?, h]) (runSpots_stack_of_isPass h rfl).symm (by simp) ?_
    rintro rest ⟨⟩ t ht
    simp_all [awaiting, Frame.rest]

theorem signs_promoted (l : Ledger) : signs (l.promote.notices.map .said) = [] := by
  simp [signs, Ledger.promote, List.filterMap_map, List.filterMap_eq_nil_iff, Event.sign?]

/-- A pass does nothing with runs. If a panic leaves it, calls end that it had yet to hand over. -/
theorem Onward.leg {d' : Dispatcher} (h : Onward a m es d') :
    d'.runSpots = m.dispatcher.runSpots ∧
      ∀ p ∈ signs es, ∃ rest, m.phase = .leaving rest ∧ p.1 ∈ rest := by
  induction h with
  | nil d => exact ⟨rfl, by simp⟩
  | @cons m m₁ es es' d' hphase hmove hs ih =>
    obtain ⟨hspots, hsigns⟩ := ih
    cases hmove with
    | @promote d hp =>
      refine ⟨hspots, fun p hp => ?_⟩
      have hnone := signs_promoted d.ledger
      simp only [signs_append, signs_cons, Event.sign?, hnone] at hp
      obtain ⟨rest, hrest, -⟩ := hsigns p (by simpa using hp)
      cases hrest
    | handOver | invoke | close =>
      refine ⟨hspots, fun p hp => ?_⟩
      obtain ⟨rest, hrest, -⟩ := hsigns p (by simpa [Event.sign?] using hp)
      cases hrest
    | @abandon d t rest l notices hp hr =>
      refine ⟨hspots, fun p hmem => ⟨t :: rest, rfl, ?_⟩⟩
      simp only [signs_append, signs_cons, signs_release hr, Event.sign?] at hmem
      rcases List.mem_append.1 hmem with hnow | hlater
      · simp_all
      · obtain ⟨rest, ⟨⟩, hmem⟩ := hsigns p hlater
        exact List.mem_cons_of_mem t hmem
    | @abandonMiss d t rest notices hr =>
      refine ⟨hspots, fun p hmem => ⟨t :: rest, rfl, ?_⟩⟩
      simp only [signs_append, signs_cons, signs_release_none hr, Event.sign?] at hmem
      obtain ⟨rest, ⟨⟩, hmem⟩ := hsigns p (by simpa using hmem)
      exact List.mem_cons_of_mem t hmem
    | unlatch => exact ⟨hspots, fun p hp => absurd (hsigns p hp) (by simp)⟩
    | _ => exact absurd rfl hphase

/-! ## runs and tokens -/

/-- Runs are polled, or they are not. -/
theorem syncRuns_calls (runs : List SyncRun) :
    (↑(runs.map (·.call)) : Multiset Ticket) =
      ↑((runs.filter (·.started)).map (·.call)) + ↑((runs.filter (!·.started)).map (·.call)) := by
  induction runs with
  | nil => rfl
  | cons run runs ih =>
    cases hs : run.started <;> simp [hs, ← Multiset.cons_coe, ih]

/-- An activity has the token of the call that it works at, or of those that it has yet to hand
over. -/
theorem stack_calls (stack : List Frame) :
    (↑((stack.filterMap Frame.spot?).map Prod.fst) : Multiset Ticket) +
        ↑(stack.flatMap Frame.rest) =
      ↑(stack.flatMap Frame.tokens) + ↑(stack.flatMap Frame.syncTokens) := by
  induction stack with
  | nil => rfl
  | cons f stack ih =>
    simp only [List.flatMap_cons, ← Multiset.coe_add]
    cases f with
    | execute t rest idle reply =>
      simp only [List.filterMap_cons, Frame.spot?, Frame.rest, Frame.tokens, Frame.syncTokens,
        Multiset.coe_nil, zero_add]
      rw [add_left_comm, ih, add_assoc]
    | idle callback reply =>
      simpa only [List.filterMap_cons, Frame.spot?, Frame.rest, Frame.tokens, Frame.syncTokens,
        Multiset.coe_nil, zero_add] using ih
    | openTask t | pollTask t | pollSync t =>
      simp only [List.filterMap_cons, Frame.spot?, Frame.rest, Frame.tokens, Frame.syncTokens,
        List.map_cons, ← Multiset.cons_coe, Multiset.coe_nil, zero_add, Multiset.cons_add,
        Multiset.add_cons, ih]

/-- Each run has a token or a ticket, and so has each held call, each guard, and each call that is
yet to be handed over. -/
theorem runSpots_calls (d : Dispatcher) :
    d.runSpots.map Prod.fst + ↑d.held + ↑d.guards + ↑d.awaiting =
      ↑d.tokens + ↑d.syncTokens + (↑d.reserved : Multiset Ticket) := by
  have hruns : (d.runs.map Run.spot).map Prod.fst = d.runs.map (·.call) := by
    simp [Run.spot, Function.comp_def]
  have hsync : (d.syncRuns.map SyncRun.spot).map Prod.fst = d.syncRuns.map (·.call) := by
    simp [SyncRun.spot, Function.comp_def]
  have hcalls := syncRuns_calls d.syncRuns
  have hstack := stack_calls d.stack
  simp only [runSpots, Multiset.map_add, Multiset.map_coe, hruns, hsync, hcalls, tokens, syncTokens,
    reserved, awaiting, ← Multiset.coe_add]
  -- only what the activities have is counted in another way
  generalize (↑(d.stack.flatMap Frame.tokens) : Multiset Ticket) = tokens at hstack ⊢
  generalize (↑(d.stack.flatMap Frame.syncTokens) : Multiset Ticket) = guards at hstack ⊢
  generalize (↑((d.stack.filterMap Frame.spot?).map Prod.fst) : Multiset Ticket) = working
    at hstack ⊢
  calc _ = working + ↑(d.stack.flatMap Frame.rest) + ↑(d.runs.map (·.call)) +
        ↑((d.syncRuns.filter (·.started)).map (·.call)) +
        ↑((d.syncRuns.filter (!·.started)).map (·.call)) + ↑d.held + ↑d.guards := by abel
    _ = _ := by rw [hstack]; abel

section Lone

variable {ends : List (Ticket × Ending)} {ms : List Mark} {s : Spot}

/-- A ticket that is set aside has no call yet. -/
theorem Custody.Kept.absent_of_reserved (h : (Moment.custody ⟨d, .outside⟩).Kept ends ms)
    (ht : t ∈ d.reserved) : Stands d.ledger ends ms t .absent := by
  obtain ⟨s, hs⟩ := h.stage t
  obtain rfl := hs.eq_absent (h.fresh t (.inr (Multiset.mem_coe.2 ht)))
  exact hs

/-- A call that is nowhere in the queue has no token. -/
theorem Matched.not_mem_tokens (h : d.Matched) (ht : t ∉ d.ledger.queue.allCalls) :
    t ∉ d.tokens ∧ t ∉ d.syncTokens := by
  rw [h.tokens.mem_iff, h.syncTokens.mem_iff]
  simp only [Queue.allCalls, List.mem_append, not_or] at ht
  exact ⟨ht.1.2, ht.2⟩

/-- No call has two tokens, or a token and a ticket that is set aside. -/
theorem Custody.Kept.nodup_calls (h : (Moment.custody ⟨d, .outside⟩).Kept ends ms) :
    (d.runSpots.map Prod.fst + ↑d.held + ↑d.guards + ↑d.awaiting).Nodup := by
  rw [runSpots_calls, Multiset.nodup_add, Multiset.coe_add, Multiset.coe_nodup]
  refine ⟨h.matched.nodup, h.reserved, ?_⟩
  rw [Multiset.disjoint_left]
  intro t htokens hreserved
  have habsent := h.absent_of_reserved hreserved
  have hgone : t ∉ d.ledger.queue.allCalls := by
    simp [mem_allCalls_iff, mem_queuedCalls_iff, mem_runningCalls_iff, habsent.place, Stage.counts]
  obtain ⟨hnot, hnotSync⟩ := h.matched.not_mem_tokens hgone
  rcases List.mem_append.1 (Multiset.mem_coe.1 htokens) with hmem | hmem
  · exact hnot hmem
  · exact hnotSync hmem

/-- A run is alone with its call. -/
theorem Custody.Kept.lone {c : Multiset (Ticket × Spot)}
    (h : (Moment.custody ⟨d, .outside⟩).Kept ends ms) (hspots : d.runSpots = (t, s) ::ₘ c) :
    (∀ s', (t, s') ∉ c) ∧ t ∉ d.held ++ d.guards ∧ t ∉ d.awaiting := by
  have hnodup := h.nodup_calls
  rw [hspots] at hnodup
  simp only [Multiset.map_cons, Multiset.cons_add, Multiset.nodup_cons, Multiset.mem_add,
    Multiset.mem_coe, not_or] at hnodup
  obtain ⟨⟨⟨⟨hc, hheld⟩, hguards⟩, hawaiting⟩, -⟩ := hnodup
  refine ⟨fun s' hs' => hc (Multiset.mem_map_of_mem Prod.fst hs'), ?_, hawaiting⟩
  simpa using ⟨hheld, hguards⟩

end Lone

/-! ## what a step does with a run -/

/-- A pass is asked for at the end of a call. -/
structure Asked (t : Ticket) (d : Dispatcher) (turn : Turn) : Prop where
  /-- once the call has given its slot back, a pass is asked for, and starts at once unless one is
  under way -/
  requested : ∃ front back, turn.events = front ++ .passRequested :: back ∧ .ends t ∈ marks front ∧
    (d.promoting = false → .passStarted ∈ back)
  /-- a pass that is under way has to go round again -/
  noted : turn.dispatcher.pending = true → turn.dispatcher.promoting = true
  pending : d.promoting = true → turn.dispatcher.pending = true

/-- What a step brings a run to, which leaves the other runs where they are. -/
inductive Arrives (t : Ticket) (d : Dispatcher) (a : Action) (turn : Turn)
    (others : Multiset (Ticket × Spot)) : RunState → Prop where
  | going {s} (hspots : turn.dispatcher.runSpots = (t, s) ::ₘ others) :
    Arrives t d a turn others (.going s)
  /-- there was no call yet, and there will be none -/
  | vanishes (hspots : turn.dispatcher.runSpots = others) (hevents : turn.events = [])
    (hnext : turn.dispatcher.next = d.next) : Arrives t d a turn others (.past none)
  | ends {e} (hspots : turn.dispatcher.runSpots = others) (hends : d.endings a = [(t, e)])
    (hasked : Asked t d turn) : Arrives t d a turn others (.past (some e))

variable {turn : Turn} {ends : List (Ticket × Ending)} {ms : List Mark} {s : Spot} {b : Beat}

/-- A pass that is asked for starts at once, or has to go round again. -/
theorem asked_request (hmark : .ends t ∈ marks es) (hpromoting : d₁.promoting = d.promoting)
    (hs : Concludes a (request d₁) turn) : Asked t d (turn.after (es ++ [.passRequested])) := by
  have hevents : (turn.after (es ++ [.passRequested])).events =
      es ++ .passRequested :: turn.events := by simp [Turn.after]
  cases hp : d₁.promoting with
  | true =>
    have hphase : request d₁ = ⟨(request d₁).dispatcher, .outside⟩ := by simp [request, hp]
    rw [hphase] at hs
    obtain ⟨-, hturn⟩ := Onward.of_outside hs
    refine ⟨⟨es, turn.events, hevents, hmark, ?_⟩, ?_, ?_⟩
    · simp [← hpromoting, hp]
    · simp [Turn.after, hturn, request]
    · simp [Turn.after, hturn, request]
  | false =>
    have hphase : request d₁ = ⟨(request d₁).dispatcher, .passing [] none⟩ := by
      simp [request, hp]
    rw [hphase] at hs
    obtain ⟨next, hyields⟩ := Onward.yields hs
    have hpassed : turn.dispatcher.pending = false := hyields.answered (.inl ⟨rfl, rfl⟩)
    have hstarted : .passStarted ∈ turn.events := by
      have hcount := hyields.passes
      rw [hpassed] at hcount
      obtain ⟨e, he, hstart⟩ := List.countP_pos_iff.1
        (Nat.lt_of_lt_of_eq (by simp [request]) hcount.symm)
      cases e <;> first | exact he | cases hstart
    refine ⟨⟨es, turn.events, hevents, hmark, fun _ => hstarted⟩, ?_, ?_⟩
    · simp [Turn.after, hpassed]
    · simp [← hpromoting, hp]

theorem beatAt?_eq_some_iff : beatAt? t d a = some b ↔ d.beat? a = some (t, b) := by
  simp only [beatAt?, Option.map_eq_some_iff, Option.filter_eq_some_iff, decide_eq_true_eq]
  constructor
  · rintro ⟨⟨u, b'⟩, ⟨hbeat, rfl⟩, rfl⟩
    exact hbeat
  · exact fun hbeat => ⟨(t, b), ⟨hbeat, rfl⟩, rfl⟩

/-- A pass that has control gives no sign of a call. -/
theorem Onward.signsAt_eq_nil {d' : Dispatcher} (h : Onward a m es d')
    (hphase : ∀ rest, m.phase ≠ .leaving rest) : signsAt t es = [] := by
  refine Dispatcher.signsAt_eq_nil fun p hp => ?_
  obtain ⟨rest, hrest, -⟩ := h.leg.2 p hp
  exact absurd hrest (hphase rest)

/-- If nothing is done with the run of a call, there is no sign of the call, and the run stays where
it is. -/
theorem step_silent (hd : Moment.Latched ⟨d, .outside⟩)
    (hmisses : ∀ t, .misses t ∉ marks turn.events) (hstep : d.step a = .ok turn)
    (hfree : t ∉ d.held ++ d.guards) (hawaiting : t ∉ d.awaiting) (hbeat : beatAt? t d a = none) :
    signsAt t turn.events = [] ∧ ((t, s) ∈ d.runSpots → (t, s) ∈ turn.dispatcher.runSpots) := by
  cases anatomy_step hd hstep with
  | refused ha e => exact ⟨rfl, id⟩
  | @opened es m turn hmove hs =>
    have hopening : ∀ t, .misses t ∉ marks es := by
      intro t ht
      exact hmisses t (by simp [Turn.after, ht])
    -- the run of another call is not this one
    have hother : ∀ {u b s' c}, d.beat? a = some (u, b) → d.runSpots = (u, s') ::ₘ c → u ≠ t ∧
        ((t, s) ∈ d.runSpots → (t, s) ∈ c) := by
      intro u b s' c hu hbefore
      have hne : u ≠ t := by
        rintro rfl
        rw [beatAt?_eq_some_iff.2 hu] at hbeat
        cases hbeat
      refine ⟨hne, fun h => ?_⟩
      rw [hbefore, Multiset.mem_cons] at h
      exact h.resolve_left (by simp [hne.symm])
    have hspots : (turn.after es).dispatcher.runSpots = m.dispatcher.runSpots := hs.leg.1
    have hsplit : signsAt t (turn.after es).events = signsAt t es ++ signsAt t turn.events :=
      signsAt_append es turn.events
    rw [hspots, hsplit, List.append_eq_nil_iff]
    cases hmove.leg hopening with
    | still _ hkeep hsigns hleaving =>
      refine ⟨⟨signsAt_eq_nil fun p hp => ?_, signsAt_eq_nil fun p hp => ?_⟩, fun h => hkeep ▸ h⟩
      · rintro rfl
        exact hfree (hsigns p hp)
      · rintro rfl
        obtain ⟨rest, hrest, hmem⟩ := hs.leg.2 p hp
        exact hawaiting (hleaving rest hrest p.1 hmem)
    | comes _ _ hkeep hsigns hphase =>
      have hlater := hs.signsAt_eq_nil (t := t) (by simp [hphase])
      refine ⟨⟨by simp [signsAt, hsigns], hlater⟩, fun h => ?_⟩
      rw [hkeep]
      exact Multiset.mem_cons_of_mem h
    | goes hdone _ hbefore hafter hsigns hphase =>
      have hlater := hs.signsAt_eq_nil (t := t) (by simp [hphase])
      obtain ⟨hne, hstays⟩ := hother hdone hbefore
      refine ⟨⟨by rw [signsAt_of_signs hsigns, if_neg hne], hlater⟩, fun h => ?_⟩
      rw [hafter]
      exact Multiset.mem_cons_of_mem (hstays h)
    | vanishes hdone hbefore hafter _ hphase =>
      have hlater := hs.signsAt_eq_nil (t := t) (by simp [hphase])
      refine ⟨⟨rfl, hlater⟩, fun h => ?_⟩
      rw [hafter]
      exact (hother hdone hbefore).2 h
    | ends hdone _ hbefore hsigns =>
      have hlater := hs.signsAt_eq_nil (t := t) (not_leaving_request _)
      obtain ⟨hne, hstays⟩ := hother hdone hbefore
      refine ⟨⟨?_, hlater⟩, hstays⟩
      rw [signsAt_append, signsAt_of_signs hsigns, if_neg hne]
      rfl

/-- What is done with a run is in the table, and is seen. -/
theorem step_beat (hd : Moment.Latched ⟨d, .outside⟩)
    (hmisses : ∀ t, .misses t ∉ marks turn.events) (hstep : d.step a = .ok turn)
    (hbeat : beatAt? t d a = some b) :
    ∃ s r others, d.runSpots = (t, s) ::ₘ others ∧ s.next b = some r ∧
      signsAt t turn.events = b.signs ∧ Arrives t d a turn others r := by
  rw [beatAt?_eq_some_iff] at hbeat
  cases anatomy_step hd hstep with
  | refused ha e =>
    rw [ha] at hbeat
    cases hbeat
  | @opened es m turn hmove hs =>
    have hopening : ∀ t, .misses t ∉ marks es := by
      intro t ht
      exact hmisses t (by simp [Turn.after, ht])
    have hspots : (turn.after es).dispatcher.runSpots = m.dispatcher.runSpots := hs.leg.1
    have hsplit : signsAt t (turn.after es).events = signsAt t es ++ signsAt t turn.events :=
      signsAt_append es turn.events
    cases hmove.leg hopening with
    | still hnone | comes hnone => cases hnone.symm.trans hbeat
    | goes hdone hnext hbefore hafter hsigns hphase =>
      cases hdone.symm.trans hbeat
      have hlater := hs.signsAt_eq_nil (t := t) (by simp [hphase])
      refine ⟨_, _, _, hbefore, hnext, ?_, Arrives.going (hspots.trans hafter)⟩
      simp [hsplit, signsAt_of_signs hsigns, hlater]
    | @vanishes m _ _ hdone hbefore hafter hnext hphase =>
      cases hdone.symm.trans hbeat
      obtain ⟨d₁, phase⟩ := m
      subst hphase
      obtain ⟨hevents, hturn⟩ := Onward.of_outside hs
      have hnone : (turn.after []).events = [] := hevents
      refine ⟨_, _, _, hbefore, rfl, by rw [hnone]; rfl,
        Arrives.vanishes (hspots.trans hafter) hnone ?_⟩
      simpa [Turn.after, hturn] using hnext
    | ends hdone hnext hbefore hsigns hends hmark hpromoting =>
      cases hdone.symm.trans hbeat
      have hlater := hs.signsAt_eq_nil (t := t) (not_leaving_request _)
      refine ⟨_, _, _, hbefore, hnext, ?_,
        Arrives.ends hspots hends (asked_request hmark hpromoting hs)⟩
      rw [hsplit, signsAt_append, signsAt_of_signs hsigns, if_pos rfl, hlater]
      exact (List.append_nil _).trans (List.append_nil _)

/-- A step does nothing with the run of a call but what the table says, and what is done is seen. -/
theorem step_conduct (hkept : (Moment.custody ⟨d, .outside⟩).Kept ends ms)
    (hd : Moment.Latched ⟨d, .outside⟩) (hmisses : ∀ t, .misses t ∉ marks turn.events)
    (hstep : d.step a = .ok turn) (hspot : (t, s) ∈ d.runSpots) :
    (beatAt? t d a = none ∧ signsAt t turn.events = [] ∧ (t, s) ∈ turn.dispatcher.runSpots) ∨
      ∃ b r others, beatAt? t d a = some b ∧ s.next b = some r ∧
        signsAt t turn.events = b.signs ∧ d.runSpots = (t, s) ::ₘ others ∧
        Arrives t d a turn others r := by
  obtain ⟨others, hspots⟩ := Multiset.exists_cons_of_mem hspot
  obtain ⟨halone, hfree, hawaiting⟩ := hkept.lone hspots
  cases hbeat : beatAt? t d a with
  | none =>
    obtain ⟨hsigns, hstays⟩ := step_silent (s := s) hd hmisses hstep hfree hawaiting hbeat
    exact .inl ⟨rfl, hsigns, hstays hspot⟩
  | some b =>
    obtain ⟨s', r, others', hspots', hnext, hsigns, harrives⟩ := step_beat hd hmisses hstep hbeat
    obtain rfl : s' = s := by
      have hmem : (t, s') ∈ d.runSpots := hspots' ▸ Multiset.mem_cons_self _ _
      rw [hspots, Multiset.mem_cons] at hmem
      simpa using hmem.resolve_right (halone s')
    exact .inr ⟨b, r, others', rfl, hnext, hsigns, hspots', harrives⟩

end CallAdmission.Dispatcher
