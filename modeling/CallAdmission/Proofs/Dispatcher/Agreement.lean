import CallAdmission.Proofs.Dispatcher.Reply
import CallAdmission.Proofs.Dispatcher.Report

/-!
# CallAdmission.Proofs.Dispatcher.Agreement

What the run of a sync call returns, and what is on record of the call. The run makes the call when
it is polled for the first time, and holds its slot until it returns or is dropped; what it returns
then is what is recorded.

* `SyncHistory` — the ways of a run of a sync call, poll by poll;
* `Returns`, `returns_of_poll` — what a poll returns, and how the guard comes to its end in it;
* `Recorded`, `recorded_of_poll` — what is on record then, by what was returned;
* `agreement_of_follow` — what is returned and what is recorded agree.
-/

namespace CallAdmission.Dispatcher

variable {limits : Limits} {notices : List Notice} {d₀ d d' : Dispatcher} {a : Action}
  {actions more : List Action} {turn : Turn} {es es' : List Event} {t : Ticket} {r : RunState}
  {bs : List Beat} {reply : Reply} {f : Frame} {stack : List Frame} {host : Host}

/-! ## runs of sync calls -/

/-- What can be done with the run of a sync call, poll by poll, and what it comes to. -/
inductive SyncHistory : List Beat → RunState → Prop where
  | unpolled : SyncHistory [] (.going .reserved)
  | withdrawn : SyncHistory [.withdrawn] (.past none)
  | attending (n : ℕ) : SyncHistory (polls n ++ [.polled]) (.going .attending)
  | deferred (n : ℕ) : SyncHistory (polls (n + 1)) (.going .deferred)
  /-- a poll finds the call canceled: the work is not polled any more -/
  | halted (n : ℕ) :
    SyncHistory (polls (n + 1) ++ [.halted]) (.past (some (.reported (.error .canceled))))
  | dropped (n : ℕ) : SyncHistory (polls (n + 1) ++ [.dropped]) (.past (some .dropped))
  | resolved (n : ℕ) (r : Result) :
    SyncHistory (polls n ++ [.polled, .resolved r]) (.past (some (.reported r)))
  | panicked (n : ℕ) : SyncHistory (polls n ++ [.polled, .panicked]) (.past (some .dropped))

/-- The table leaves no other histories. -/
theorem syncHistory_of_after (h : (RunState.going .reserved).after bs = some r) :
    SyncHistory bs r := by
  induction bs using List.reverseRecOn generalizing r with
  | nil =>
    cases h
    exact SyncHistory.unpolled
  | append_singleton bs b ih =>
    rw [RunState.after_concat] at h
    obtain ⟨r₁, hr₁, hnext⟩ := Option.bind_eq_some_iff.1 h
    cases ih hr₁ with
    | unpolled =>
      cases b <;> cases hnext
      · exact SyncHistory.attending 0
      · exact SyncHistory.withdrawn
    | attending n =>
      rw [List.append_assoc]
      cases b <;> cases hnext
      · have hdeferred := SyncHistory.deferred n
        rwa [polls_succ] at hdeferred
      · exact SyncHistory.resolved n _
      · exact SyncHistory.panicked n
    | deferred n =>
      cases b <;> cases hnext
      · exact SyncHistory.attending (n + 1)
      · exact SyncHistory.halted n
      · exact SyncHistory.dropped n
    | withdrawn | halted | dropped | resolved | panicked => cases hnext

/-- What the run of a sync call has come to. -/
theorem SyncHistory.cases_on (h : SyncHistory bs r) :
    r = .going .reserved ∨ r = .past none ∨ (r = .going .attending ∨ r = .going .deferred) ∨
      ∃ e, r = .past (some e) := by
  cases h <;> simp

/-! ## what a poll returns -/

/-- What a poll of the run of a sync call returns at the end of a course, and what becomes of the
call's guard in it. -/
inductive Returns (t : Ticket) (d : Dispatcher) (actions : List Action) (d' : Dispatcher) :
    Reply → Prop where
  | pending (hspot : (t, .deferred) ∈ d'.runSpots) : Returns t d actions d' .pending
  | ready {r : Result} (hends : (t, .reported r) ∈ d.endingsOf actions) :
    Returns t d actions d' (.ready r)
  | panicked {message : String} {e : Ending} (hends : (t, e) ∈ d.endingsOf actions) :
    Returns t d actions d' (.panicked message)

theorem endingsOf_cons (hstep : d.step a = .ok turn) (actions : List Action) :
    d.endingsOf (a :: actions) = d.endings a ++ turn.dispatcher.endingsOf actions := by
  simp only [endingsOf, gather, hstep]

theorem Returns.cons (h : Returns t turn.dispatcher actions d' reply)
    (hstep : d.step a = .ok turn) : Returns t d (a :: actions) d' reply := by
  cases h with
  | pending hspot => exact .pending hspot
  | ready hends =>
    refine .ready ?_
    rw [endingsOf_cons hstep]
    exact List.mem_append_right _ hends
  | @panicked message e hends =>
    refine .panicked (e := e) ?_
    rw [endingsOf_cons hstep]
    exact List.mem_append_right _ hends

/-- What is replied, or left to a pass, after a guard has come to its end. -/
theorem returns_of_carries {r : Result} {e : Ending} {reply' : Reply}
    (h : Answers stack.length reply d (a :: actions)) (hd : Moment.Latched ⟨d, .outside⟩)
    (hstep : d.step a = .ok turn) (hcarries : Carries reply' stack turn)
    (hreply : reply' = .ready r ∧ e = .reported r ∨ ∃ message, reply' = .panicked message)
    (hends : (t, e) ∈ d.endings a) : Returns t d (a :: actions) d' reply := by
  have hmem : (t, e) ∈ d.endingsOf (a :: actions) := by
    rw [endingsOf_cons hstep]
    exact List.mem_append_left _ hends
  rcases reply_of_carries h hd hstep hcarries with rfl | ⟨message, rfl⟩
  · rcases hreply with ⟨rfl, rfl⟩ | ⟨message, rfl⟩
    · exact .ready hmem
    · exact .panicked hmem
  · exact .panicked hmem

/-- While the work of a sync call is polled, the poll has yet to return. -/
theorem returns_of_polling (inner : List Frame) (h : Answers stack.length reply d actions)
    (hfollow : d.follow actions = .ok (d', es)) (hmisses : ∀ u, .misses u ∉ marks es)
    (hd : Moment.Latched ⟨d, .outside⟩) (hstack : d.stack = inner ++ .pollSync t :: stack) :
    Returns t d actions d' reply := by
  induction actions generalizing d inner es with
  | nil => cases h
  | cons a actions ih =>
    obtain ⟨turn, es', hstep, hrest, rfl⟩ := follow_cons_eq_ok hfollow
    have hnow : ∀ u, .misses u ∉ marks turn.events := fun u hu => hmisses u (by simp [hu])
    have hthen : ∀ u, .misses u ∉ marks es' := fun u hu => hmisses u (by simp [hu])
    rcases step_below hd hstep hstack with ⟨inner', habove⟩ | ⟨htop, -, hcloses⟩
    · cases h with
      | last hstep' hback =>
        cases hstep'.symm.trans hstep
        exact absurd hback (length_ne_of_below _ habove)
      | later hstep' hdeep hlater =>
        cases hstep'.symm.trans hstep
        exact (ih inner' hlater hrest hthen ((reaches_step hd hstep).latched hd) habove).cons hstep
    · cases hcloses with
      | suspends _ hback hreplied =>
        cases h with
        | last hstep' _ hreply =>
          cases hstep'.symm.trans hstep
          cases hrest
          cases hreplied.symm.trans hreply
          refine .pending (mem_runSpots_iff.2 (.inr (.inl ⟨⟨t, d.ledger.host t, true⟩, ?_, rfl⟩)))
          simp only [step, suspend, htop] at hstep
          cases hstep
          exact List.mem_append_right _ (List.mem_singleton_self _)
        | later hstep' hdeep =>
          cases hstep'.symm.trans hstep
          exact absurd (congrArg List.length hback) hdeep
      | @resolvesSync _ r _ hsettles =>
        refine returns_of_carries h hd hstep (hsettles.carries hnow) (.inl ⟨rfl, rfl⟩) ?_
        simp [Dispatcher.endings, htop]
      | @panics message _ hsettles =>
        refine returns_of_carries (r := .ok ()) (e := .dropped) h hd hstep (hsettles.carries hnow)
          (.inr ⟨message, rfl⟩) ?_
        simp [Dispatcher.endings, htop]
      | passes hf | fails hf | opens hf | cancels hf | resolves hf => cases hf

/-- What a poll of the run of a sync call returns. -/
theorem returns_of_poll (h : Answers d.stack.length reply d (.pollSyncRun t :: actions))
    (hfollow : d.follow (.pollSyncRun t :: actions) = .ok (d', es))
    (hmisses : ∀ u, .misses u ∉ marks es) (hd : Moment.Latched ⟨d, .outside⟩) :
    Returns t d (.pollSyncRun t :: actions) d' reply := by
  obtain ⟨turn, es', hstep, hrest, rfl⟩ := follow_cons_eq_ok hfollow
  have hnow : ∀ u, .misses u ∉ marks turn.events := fun u hu => hmisses u (by simp [hu])
  have hthen : ∀ u, .misses u ∉ marks es' := fun u hu => hmisses u (by simp [hu])
  -- the work is polled: the poll returns later
  have hpolling : turn.dispatcher.stack = .pollSync t :: d.stack →
      Returns t d (.pollSyncRun t :: actions) d' reply := by
    intro habove
    cases h with
    | last hstep' hback =>
      cases hstep'.symm.trans hstep
      exact absurd hback (length_ne_of_below [] habove)
    | later hstep' hdeep hlater =>
      cases hstep'.symm.trans hstep
      exact (returns_of_polling [] hlater hrest hthen
        ((reaches_step hd hstep).latched hd) habove).cons hstep
  obtain ⟨⟨run, d₁⟩, htake, hturn⟩ := exists_of_bind_eq_ok hstep
  obtain ⟨hcall, hstarted, hledger, -⟩ := custody_takeSyncRun htake
  have hstack : d₁.stack = d.stack := by rw [(takeSyncRun_eq_ok htake).2]
  cases hturn
  cases hs : run.started with
  | false =>
    refine hpolling ?_
    simp [pollSync, hs, hcall, hstack, Turn.after, enter, register]
  | true =>
    cases hc : d.ledger.isCanceled t with
    | false =>
      refine hpolling ?_
      simp [pollSync, hs, hcall, hstack, hledger, hc, enter]
    | true =>
      have hsettles : Settles (.ready (.error .canceled)) d.stack (d₁.pollSync run) := by
        simp only [pollSync, hs, hcall, hledger, hc, if_true]
        exact Settles.after (settles_completeSync hstack _ _ _) _
      refine returns_of_carries h hd hstep (hsettles.carries hnow) (.inl ⟨rfl, rfl⟩) ?_
      simp [Dispatcher.endings, hstarted, hs, hc]

/-! ## what is returned and what is recorded -/

/-- The record of a sync call after its run was polled, by what the poll returned. -/
inductive Recorded (d : Dispatcher) (t : Ticket) : Reply → Prop where
  | pending {call : Call} (hcall : d.ledger.call? t = some call) (hstatus : call.status = .running) :
    Recorded d t .pending
  | succeeded {call : Call} (hcall : d.ledger.call? t = some call)
    (houtcome : call.outcome? = some .succeeded) : Recorded d t (.ready (.ok ()))
  | canceled {call : Call} (hcall : d.ledger.call? t = some call)
    (houtcome : call.outcome? = some .canceled) : Recorded d t (.ready (.error .canceled))
  | failed {message : String} {call : Call} (hcall : d.ledger.call? t = some call)
    (houtcome : call.outcome? = some (.failed message)) :
    Recorded d t (.ready (.error (.failed message)))
  | abandoned {call : Call} (hcall : d.ledger.call? t = some call)
    (houtcome : call.outcome? = some (.failed "Call abandoned by executor")) :
    Recorded d t (.ready (.error .abandoned))
  | panicked {message : String} {call : Call} (hcall : d.ledger.call? t = some call)
    (hended : call.status.isTerminal = true) : Recorded d t (.panicked message)

/-- What a run returns is recorded as what it reports. -/
theorem Recorded.ready {result : Result} {call : Call} (hcall : d.ledger.call? t = some call)
    (houtcome : call.outcome? = some (Ending.reported result).outcome) :
    Recorded d t (.ready result) := by
  cases result with
  | ok => exact .succeeded hcall houtcome
  | error e =>
    cases e with
    | failed message => exact .failed hcall houtcome
    | canceled => exact .canceled hcall houtcome
    | abandoned => exact .abandoned hcall houtcome

/-- What becomes of the run of a sync call in a course that takes a dispatcher to another. -/
structure Agrees (d : Dispatcher) (more : List Action) (d' : Dispatcher) (es : List Event)
    (t : Ticket) (r : RunState) : Prop where
  history : SyncHistory (d.beats t more) r
  /-- this is seen of it, in this order, and no more -/
  signs : signsAt t es = (d.beats t more).flatMap Beat.signs
  going : ∀ s, r = .going s → (t, s) ∈ d'.runSpots
  /-- between polls the run can be polled and dropped -/
  accepted : r = .going .reserved ∨ r = .going .deferred →
    (∃ turn, d'.step (.pollSyncRun t) = .ok turn) ∧ ∃ turn, d'.step (.dropSyncRun t) = .ok turn
  /-- before the first poll there is no call, nor if the run was dropped before it -/
  absent : r = .going .reserved ∨ r = .past none →
    d'.ledger.call? t = none ∧ t ∉ d'.ledger.queue.allCalls ∧ way t (marks es) = []
  /-- from the first poll on, the call has a slot until it ends -/
  present : r ≠ .going .reserved → r ≠ .past none → ∃ call, d'.ledger.call? t = some call ∧
    call.outcome? = r.ending?.map Ending.outcome ∧ (r.ending? = none → call.status = .running) ∧
    (r.ending? = some .dropped → call.canceled = true) ∧
    d'.ledger.queue.sync.count t + r.ending?.toList.length = 1
  /-- nothing but the run decides how the call ends -/
  endings : endingsAt t (d.endingsOf more) = r.ending?.toList
  released : (marks es).count (.ends t) = r.ending?.toList.length
  followed : ∀ a turn, d'.step a = .ok turn → .ends t ∈ marks turn.events → Followed t d' turn
  /-- what the next poll returns agrees with what is on record then -/
  returned : ∀ poll d₂ es₂ reply, d'.follow (.pollSyncRun t :: poll) = .ok (d₂, es₂) →
    Answers d'.stack.length reply d' (.pollSyncRun t :: poll) → Recorded d₂ t reply

/-- A call whose token came to its end is on record so. -/
theorem exists_call_of_ending {e : Ending} (hcreate : create limits = .ok (d₀, notices))
    (h : d₀.follow actions = .ok (d, es)) (hends : (t, e) ∈ d₀.endingsOf actions) :
    ∃ call, d.ledger.call? t = some call ∧ call.outcome? = some e.outcome ∧
      call.status.isTerminal = true := by
  obtain ⟨l, hl⟩ := (kept_of_follow hcreate h).stage t
  rw [← mem_endingsAt, hl.token] at hends
  obtain ⟨call, hcall, houtcome, hstatus⟩ := hl.outcome (by
    rintro rfl
    cases hends)
  cases l with
  | absent | waiting | admitted | sync => cases hends
  | ended e' | syncEnded e' =>
    obtain rfl := List.mem_singleton.1 hends
    refine ⟨call, hcall, houtcome, ?_⟩
    rw [← Option.some.inj hstatus]
    exact Outcome.isTerminal_status e.outcome

/-- What a poll returns agrees with what is on record when it returns. -/
theorem recorded_of_poll {poll : List Action} (hcreate : create limits = .ok (d₀, notices))
    (h : d₀.follow actions = .ok (d, es)) (hpoll : d.follow (.pollSyncRun t :: poll) = .ok (d', es'))
    (hanswers : Answers d.stack.length reply d (.pollSyncRun t :: poll)) : Recorded d' t reply := by
  have hlast := follow_append h hpoll
  have hmisses : ∀ u, .misses u ∉ marks es' := by
    intro u hu
    exact not_misses_of_follow hcreate hlast u (by simp [hu])
  have hmem : ∀ e, (t, e) ∈ d.endingsOf (.pollSyncRun t :: poll) →
      (t, e) ∈ d₀.endingsOf (actions ++ .pollSyncRun t :: poll) := by
    intro e he
    rw [endingsOf, gather_append h]
    exact List.mem_append_right _ he
  cases returns_of_poll hanswers hpoll hmisses (latched_of_follow hcreate h) with
  | pending hdeferred =>
    obtain ⟨call, hcall, -, hstatus⟩ :=
      ((kept_of_follow hcreate hlast).stage_of_spot hdeferred).outcome (by simp [Spot.stage])
    exact .pending hcall (Option.some.inj hstatus).symm
  | ready hends =>
    obtain ⟨call, hcall, houtcome, -⟩ := exists_call_of_ending hcreate hlast (hmem _ hends)
    exact .ready hcall houtcome
  | panicked hends =>
    obtain ⟨call, hcall, -, hended⟩ := exists_call_of_ending hcreate hlast (hmem _ hends)
    exact .panicked hcall hended

theorem exists_run_of_syncSpot {s : Spot} (h : (t, s) ∈ d.runSpots)
    (hs : s = .reserved ∨ s = .deferred) : ∃ run ∈ d.syncRuns, run.call = t := by
  rcases mem_runSpots_iff.1 h with ⟨run, -, hplace⟩ | ⟨run, hrun, hplace⟩ | ⟨f, -, hplace⟩
  · rcases hs with rfl | rfl <;> cases hstarted : run.started <;> simp [Run.spot, hstarted] at hplace
  · exact ⟨run, hrun, congrArg Prod.fst hplace⟩
  · rcases hs with rfl | rfl <;> cases f <;> simp [Frame.spot?] at hplace

/-- A run between two polls can be polled and dropped. -/
theorem exists_step_of_mem_syncRuns {run : SyncRun} (h : run ∈ d.syncRuns) (hcall : run.call = t) :
    (∃ turn, d.step (.pollSyncRun t) = .ok turn) ∧ ∃ turn, d.step (.dropSyncRun t) = .ok turn := by
  obtain ⟨found, hfound⟩ : ∃ found, d.takeSyncRun t = .ok found := by
    unfold takeSyncRun
    cases hfind : d.syncRuns.find? (·.call == t) with
    | none => exact absurd (by simpa using hcall) (List.find?_eq_none.1 hfind run h)
    | some found => exact ⟨_, rfl⟩
  simp [step, hfound, bind, Except.bind, pure, Except.pure]

/-- **Sync run.** However the run of a sync call is polled and dropped, its work goes on, and the
call is canceled meanwhile, what a poll returns and what is on record of the call agree. Before the
first poll there is no call. From then on the call has one slot, until the run returns or is
dropped: it has succeeded if the run returned so, is canceled if the run returned so, and has failed
with the message of the error if the run returned another one. If the run is dropped, or the work
panics, cancellation is asked for and the call is canceled. Whichever it is, the call gives its slot
back once, and a pass follows. -/
theorem agreement_of_follow (hcreate : create limits = .ok (d₀, notices))
    (h : d₀.follow actions = .ok (d, es)) (hrun : ⟨t, host, false⟩ ∈ d.syncRuns)
    (hmore : d.follow more = .ok (d', es')) : ∃ r, Agrees d more d' es' t r := by
  have hspot : (t, Spot.reserved) ∈ d.runSpots :=
    mem_runSpots_iff.2 (.inr (.inl ⟨_, hrun, rfl⟩))
  obtain ⟨r, hconducts⟩ := conduct_of_follow hcreate h hspot hmore
  have hfollow := follow_append h hmore
  obtain ⟨hendings, hreleased⟩ := hconducts.released hcreate h hspot hmore
  obtain ⟨l, hl, hends, hgoing⟩ := hconducts.stage hcreate h hmore
  have hshown : ∀ s, r = .going s → (t, s) ∈ d'.runSpots := by
    rintro s rfl
    exact hconducts.shows
  have hhistory := syncHistory_of_after hconducts.course
  have hsync : r ≠ .going .reserved → r ≠ .past none → r.ending? = none → l = .sync := by
    intro hreserved hnone hr
    rcases hhistory.cases_on with rfl | rfl | (rfl | rfl) | ⟨e, rfl⟩
    · exact absurd rfl hreserved
    · exact absurd rfl hnone
    · exact hgoing _ rfl
    · exact hgoing _ rfl
    · cases hr
  refine ⟨r, hhistory, hconducts.signs, hshown, fun hr => ?_, fun hr => ?_, fun hreserved hnone => ?_,
    hendings, hreleased, ?_, ?_⟩
  · obtain ⟨s, hs, hplace⟩ : ∃ s, r = .going s ∧ (s = .reserved ∨ s = .deferred) := by
      rcases hr with rfl | rfl <;> simp
    obtain ⟨run, hmem, hcall⟩ := exists_run_of_syncSpot (hshown s hs) hplace
    exact exists_step_of_mem_syncRuns hmem hcall
  · obtain rfl : l = .absent := by
      rcases hr with rfl | rfl
      · exact hgoing _ rfl
      · exact hl.eq_absent (hconducts.shows.2 rfl)
    have hcounts : counts d'.ledger.queue t = (0, 0, 0) := hl.place
    refine ⟨Option.map_eq_none_iff.1 hl.status, ?_, ?_⟩
    · simp [mem_allCalls_iff, mem_queuedCalls_iff, mem_runningCalls_iff, hcounts]
    · have htrace := hl.trace
      rw [marks_append, way_append] at htrace
      exact (List.append_eq_nil_iff.1 htrace).2
  · obtain ⟨call, hcall, houtcome, hstatus⟩ :=
      hl.record hends fun hr => hsync hreserved hnone hr ▸ rfl
    have hplace : d'.ledger.queue.sync.count t = l.counts.2.2 := congrArg (·.2.2) hl.place
    refine ⟨call, hcall, houtcome, hstatus, fun hdropped => ?_, ?_⟩
    · have hcanceled := hl.canceled (by rw [hends, hdropped]; exact List.mem_singleton_self _)
      rwa [Ledger.isCanceled, hcall] at hcanceled
    · rw [hplace]
      cases hr : r.ending? with
      | none =>
        rw [hsync hreserved hnone hr]
        rfl
      | some e =>
        rw [hr] at hends
        cases l <;> simp_all [Stage.endings, Stage.counts]
  · intro a turn hstep hmark
    exact (hconducts.shows.asked hcreate hfollow hstep hmark).followed hcreate hfollow hstep
  · exact fun poll d₂ es₂ reply hpoll hanswers => recorded_of_poll hcreate hfollow hpoll hanswers

/-- A sync call that is to run. -/
def reservingCourse : List Action := [.executeSync ⟨"a"⟩]

/-- Another call waits for the slot. The sync call is canceled in the poll in which it succeeds. -/
def attendingCourse : List Action :=
  [.pollSyncRun 0, .submit ⟨⟨"b"⟩, false⟩, .suspend, .pollSyncRun 0, .cancel 0, .resolve (.ok ()),
    -- the executor is given the other call before the poll returns
    .leave]

/-- The work of the sync call is polled twice and fails. -/
def failingCourse : List Action :=
  [.pollSyncRun 0, .suspend, .pollSyncRun 0, .resolve (.error (.failed "reset"))]

/-- One run succeeds although it is canceled, and one fails: the records say so. -/
theorem agreement_of_attendingCourse :
    ∃ d₀ notices d es, create ⟨1, 1⟩ = .ok (d₀, notices) ∧
      d₀.follow reservingCourse = .ok (d, es) ∧ ⟨0, ⟨"a"⟩, false⟩ ∈ d.syncRuns ∧
      (∃ d' es', d.follow attendingCourse = .ok (d', es') ∧ d'.ledger.isCanceled 0 = true ∧
        d.beats 0 attendingCourse = [.polled, .suspended, .polled, .resolved (.ok ())] ∧
        (d'.ledger.call? 0).bind (·.outcome?) = some .succeeded ∧
        ∃ r, Agrees d attendingCourse d' es' 0 r) ∧
      ∃ d' es', d.follow failingCourse = .ok (d', es') ∧
        (d'.ledger.call? 0).bind (·.outcome?) = some (.failed "reset") ∧
        ∃ r, Agrees d failingCourse d' es' 0 r := by
  obtain ⟨d₀, notices, d, es, hcreate, hcourse, hruns, ⟨d₁, es₁, hattends, hcanceled, hbeats, hok⟩,
      d₂, es₂, hfails, hfailed⟩ :
      ∃ d₀ notices d es, create ⟨1, 1⟩ = .ok (d₀, notices) ∧
        d₀.follow reservingCourse = .ok (d, es) ∧ d.syncRuns = [⟨0, ⟨"a"⟩, false⟩] ∧
        (∃ d' es', d.follow attendingCourse = .ok (d', es') ∧ d'.ledger.isCanceled 0 = true ∧
          d.beats 0 attendingCourse = [.polled, .suspended, .polled, .resolved (.ok ())] ∧
          (d'.ledger.call? 0).bind (·.outcome?) = some .succeeded) ∧
        ∃ d' es', d.follow failingCourse = .ok (d', es') ∧
          (d'.ledger.call? 0).bind (·.outcome?) = some (.failed "reset") :=
    ⟨_, _, _, _, rfl, rfl, rfl, ⟨_, _, rfl, rfl, rfl, rfl⟩, _, _, rfl, rfl⟩
  have hrun : ⟨0, ⟨"a"⟩, false⟩ ∈ d.syncRuns := hruns ▸ List.mem_singleton_self _
  exact ⟨d₀, notices, d, es, hcreate, hcourse, hrun,
    ⟨d₁, es₁, hattends, hcanceled, hbeats, hok, agreement_of_follow hcreate hcourse hrun hattends⟩,
    d₂, es₂, hfails, hfailed, agreement_of_follow hcreate hcourse hrun hfails⟩

end CallAdmission.Dispatcher
