import CallAdmission.Proofs.Dispatcher.Lifecycle
import CallAdmission.Proofs.Dispatcher.Notification

/-!
# CallAdmission.Proofs.Dispatcher.Ceiling

What the limits do to calls. They decide which calls begin to run, and nothing else: a limit that is
lowered below the load takes no slot from a call that has one. Sync calls take their slots whatever
the limits are, so the load stays under the limits as long as no limit is lowered and no sync call
is submitted.

* `Admits` — what a step does to the calls that run;
* `Queue.Within` — the load is within the limits;
* `ceiling_of_follow` — this is so of every step after every course.
-/

namespace CallAdmission

/-! ## the load -/

instance : LE Limits where
  le l l' := l.maxRequests ≤ l'.maxRequests ∧ l.maxPerHost ≤ l'.maxPerHost

instance (l l' : Limits) : Decidable (l ≤ l') :=
  inferInstanceAs (Decidable (l.maxRequests ≤ l'.maxRequests ∧ l.maxPerHost ≤ l'.maxPerHost))

namespace Queue

/-- The load is within the limits. -/
structure Within (q : Queue) : Prop where
  total : q.runningCount ≤ q.limits.maxRequests.toNat
  perHost : ∀ host, q.running.countP (isLimited host) ≤ q.limits.maxPerHost.toNat

variable {q q' : Queue}

/-- Fewer calls run under limits that are no lower. -/
theorem Within.mono (h : q.Within) (hlimits : q.limits ≤ q'.limits)
    (hrunning : q'.running.Sublist q.running) (hsync : q'.sync.Sublist q.sync) : q'.Within := by
  obtain ⟨htotal, hhost⟩ := hlimits
  rw [UInt64.le_iff_toNat_le] at htotal hhost
  refine ⟨?_, fun host => ?_⟩
  · have hcount : q'.runningCount ≤ q.runningCount :=
      Nat.add_le_add hrunning.length_le hsync.length_le
    exact Nat.le_trans hcount (Nat.le_trans h.total htotal)
  · exact Nat.le_trans hrunning.countP_le (Nat.le_trans (h.perHost host) hhost)

theorem Fills.within (h : q.Fills q') (hq : q.Within) : q'.Within := by
  refine ⟨Nat.le_trans h.total ?_, fun host => Nat.le_trans (h.perHost host) ?_⟩
  · rw [h.limits]
    exact Nat.max_le.2 ⟨Nat.le_refl _, hq.total⟩
  · rw [h.limits]
    exact Nat.max_le.2 ⟨Nat.le_refl _, hq.perHost host⟩

end Queue

namespace Dispatcher

/-! ## one step -/

section Step

variable {q q' : Queue} {next next' : Ticket} {ms : List Mark} {c c' : Custody}
  {ends : List (Ticket × Ending)}

/-- No deed lets an admitted call run. -/
theorem Effect.running_sublist (h : Effect q next ms q' next') :
    q'.running.Sublist q.running := by
  cases h with
  | keep | enqueueSync | setIdle => exact List.Sublist.refl _
  | alters hms h => exact h.sublist.1

theorem Custody.Deeds.running_sublist (h : c.Deeds ends ms c') :
    c'.ledger.queue.running.Sublist c.ledger.queue.running := by
  induction h with
  | nil c => exact List.Sublist.refl _
  | cons hdeed _ ih => exact ih.trans hdeed.effect.running_sublist

/-- Outside a pass no admitted call begins to run. -/
theorem Custody.Step.still (h : c.Step ends ms c') (hms : .passes ∉ ms) :
    c'.ledger.queue.running.Sublist c.ledger.queue.running := by
  cases h with
  | deeds hdeeds => exact hdeeds.running_sublist
  | pass => simp at hms

/-- A pass lets calls run within the limits. -/
theorem Custody.Step.fills (h : c.Step ends ms c') (hcoherent : c.ledger.queue.Coherent c.next)
    (hms : .passes ∈ ms) :
    ∃ q₁ next₁, Found c.ledger.queue c.next q₁ next₁ ∧ c'.ledger.queue = q₁.promote.queue ∧
      q₁.Fills c'.ledger.queue := by
  cases h with
  | deeds hdeeds =>
    have hnone := hdeeds.busy.2.2
    rw [← Bool.not_eq_true, List.contains_iff_mem] at hnone
    exact absurd hms hnone
  | @pass ms c₁ hdeed hq =>
    obtain ⟨next, hcoherent₁⟩ := hq.coherent hcoherent
    refine ⟨c₁.ledger.queue, c₁.next, hq, c₁.promote_queue, ?_⟩
    rw [c₁.promote_queue]
    exact hcoherent₁.fills_promote

end Step

/-! ## calls that go on running -/

section Stands

variable {l l' : Ledger} {ends ends' : List (Ticket × Ending)} {ms ms' : List Mark} {t : Ticket}
  {s s' : Stage}

/-- A running call's stage is left only when the call ends. -/
theorem Stage.eq_of_running (hs : s.status? = some .running) (hway : s.way t <+: s'.way t)
    (hends : s'.endings = s.endings) : s' = s := by
  cases s <;> cases s' <;> simp_all [way, endings, status?]

/-- A call that runs stays at its stage until its token comes to its end. -/
theorem Stands.stays (h : Stands l ends ms t s) (h' : Stands l' (ends ++ ends') (ms ++ ms') t s')
    (hs : s.status? = some .running) (hends : endingsAt t ends' = []) : s' = s := by
  refine Stage.eq_of_running hs (h.way_prefix h') ?_
  have htoken := h'.token
  rw [endingsAt_append, hends, List.append_nil, h.token] at htoken
  exact htoken.symm

end Stands

/-! ## sync calls -/

variable {a : Action} {m m₁ : Moment} {d : Dispatcher} {es : List Event} {t : Ticket}

theorem queue_markAllCanceled (d : Dispatcher) (ts : List Ticket) :
    (d.markAllCanceled ts).dispatcher.ledger.queue = d.ledger.queue :=
  congrArg Gate.queue (gate_markAllCanceled d ts .outside)

/-- A sync call begins to run in no move but one that says so. -/
theorem Move.sync_sublist (h : Move a m es m₁) (hes : ∀ t host, .said (.syncStarted t host) ∉ es) :
    m₁.dispatcher.ledger.queue.sync.Sublist m.dispatcher.ledger.queue.sync := by
  cases h with
  | submitSync | startSync => exact absurd List.mem_cons_self (hes _ _)
  | submit | reserveSync | pollOpened | suspend | suspendSync | setIdle | cancel | handOver
  | invoke | close | resume | resumeIdle | fail | failIdle | abandonMiss | unlatch =>
    exact List.Sublist.refl _
  | dropUnstarted ha h | pollSync ha h =>
    obtain ⟨-, rfl⟩ := takeSyncRun_eq_ok h
    exact List.Sublist.refl _
  | openRun ha h =>
    obtain ⟨-, rfl⟩ := takeHeld_eq_ok h
    exact List.Sublist.refl _
  | openTask ha h | pollTask ha h =>
    obtain ⟨-, rfl⟩ := takeRun_eq_ok h
    exact List.Sublist.refl _
  | @miss d d₁ es t o notices h hr | @missSync d d₁ es t o notices h hr =>
    have hqueue : d₁.ledger.queue = d.ledger.queue := congrArg Gate.queue h.gate.1
    rw [hqueue]
  | complete h hr =>
    have halters := h.alters hr
    exact halters.sublist.2
  | completeSync h hr =>
    have halters := h.alters hr
    exact halters.sublist.2
  | @setLimit d limit n l notices ha h =>
    obtain ⟨queue, hq, rfl, -⟩ := Ledger.setLimit_eq_ok h
    have halters : Alters d.ledger.queue d.next queue d.next := Alters.setLimit hq
    exact halters.sublist.2
  | cancelAll =>
    rw [queue_markAllCanceled]
  | @promote d hp =>
    change d.ledger.promote.ledger.queue.sync.Sublist d.ledger.queue.sync
    rw [Ledger.queue_promote, Queue.promote_sync]
  | @abandon d t rest l notices hp hr =>
    obtain ⟨departure, hq, rfl⟩ := Ledger.release_eq_some hr
    have halters : Alters d.ledger.queue d.next departure.queue d.next := Alters.finish hq
    exact halters.sublist.2

/-! ## courses -/

variable {limits : Limits} {notices : List Notice} {d₀ : Dispatcher} {actions : List Action}
  {turn : Turn}

/-- The limits before and after each step of a course. -/
def limitsOf (d : Dispatcher) (actions : List Action) : List (Limits × Limits) :=
  gather (fun d _ turn => [(d.ledger.queue.limits, turn.dispatcher.ledger.queue.limits)]) d actions

/-- What a step does to the calls that run. -/
structure Admits (d : Dispatcher) (a : Action) (turn : Turn) : Prop where
  /-- outside a pass no admitted call begins to run -/
  still : .passStarted ∉ turn.events →
    turn.dispatcher.ledger.queue.running.Sublist d.ledger.queue.running
  /-- a pass lets calls run within the limits -/
  fills : .passStarted ∈ turn.events → ∃ q₁ next₁, Found d.ledger.queue d.next q₁ next₁ ∧
    turn.dispatcher.ledger.queue = q₁.promote.queue ∧ q₁.Fills turn.dispatcher.ledger.queue
  /-- a call goes on running unless its own token comes to its end -/
  stays : ∀ t ∉ (d.endings a).map (·.1),
    (t ∈ d.ledger.queue.running.map (·.call) →
      t ∈ turn.dispatcher.ledger.queue.running.map (·.call)) ∧
    (t ∈ d.ledger.queue.sync → t ∈ turn.dispatcher.ledger.queue.sync) ∧
    ((d.ledger.call? t).map (·.status) = some .running →
      (turn.dispatcher.ledger.call? t).map (·.status) = some .running)

theorem endingsAt_eq_nil {ends : List (Ticket × Ending)} (h : t ∉ ends.map (·.1)) :
    endingsAt t ends = [] := by
  rw [endingsAt, List.map_eq_nil_iff, List.filter_eq_nil_iff]
  intro p hp heq
  exact h (List.mem_map.2 ⟨p, hp, of_decide_eq_true heq⟩)

/-- The stages of a call before and after a step. -/
theorem stands_of_step (hcreate : create limits = .ok (d₀, notices))
    (h : d₀.follow actions = .ok (d, es)) (hstep : d.step a = .ok turn) (t : Ticket) :
    ∃ s s', Stands d.ledger (d₀.endingsOf actions) (marks es) t s ∧
      Stands turn.dispatcher.ledger (d₀.endingsOf actions ++ d.endings a)
        (marks es ++ marks turn.events) t s' := by
  have hlast : d.follow [a] = .ok (turn.dispatcher, turn.events ++ []) := by
    rw [follow, hstep]
    rfl
  obtain ⟨s, hs⟩ := (kept_of_follow hcreate h).stage t
  obtain ⟨s', hs'⟩ := (kept_of_follow hcreate (follow_append h hlast)).stage t
  rw [List.append_nil, endingsOf, gather_concat h hstep, marks_append] at hs'
  exact ⟨s, s', hs, hs'⟩

theorem step_admits (hcreate : create limits = .ok (d₀, notices))
    (h : d₀.follow actions = .ok (d, es)) (hstep : d.step a = .ok turn) : Admits d a turn := by
  have hturn := step_custody_of_follow hcreate h hstep
  have hsound := sound_of_follow hcreate h
  refine ⟨fun hpass => hturn.still ?_, fun hpass => hturn.fills hsound.coherent ?_, fun t ht => ?_⟩
  · rwa [mem_marks_passes_iff]
  · rwa [mem_marks_passes_iff]
  · obtain ⟨s, s', hs, hs'⟩ := stands_of_step hcreate h hstep t
    have hstays : s.status? = some .running → s' = s := fun hrunning =>
      hs.stays hs' hrunning (endingsAt_eq_nil ht)
    refine ⟨fun hmem => ?_, fun hmem => ?_, fun hrunning => ?_⟩
    · obtain rfl := hs.eq_admitted hmem
      obtain rfl := hstays rfl
      have hplace : (counts turn.dispatcher.ledger.queue t).2.1 = 1 :=
        congrArg (·.2.1) hs'.place
      exact List.count_pos_iff.1 (Nat.lt_of_lt_of_eq Nat.one_pos hplace.symm)
    · obtain rfl := hs.eq_sync hmem
      obtain rfl := hstays rfl
      have hplace : (counts turn.dispatcher.ledger.queue t).2.2 = 1 :=
        congrArg (·.2.2) hs'.place
      exact List.count_pos_iff.1 (Nat.lt_of_lt_of_eq Nat.one_pos hplace.symm)
    · have hrunning' : s.status? = some .running := hs.status.symm.trans hrunning
      obtain rfl := hstays hrunning'
      exact hs'.status.trans hrunning'

/-- In a course in which no sync call is submitted, none runs. -/
theorem sync_eq_nil_of_follow (hcreate : create limits = .ok (d₀, notices))
    (h : d₀.follow actions = .ok (d, es)) (hes : ∀ t host, .said (.syncStarted t host) ∉ es) :
    d.ledger.queue.sync = [] := by
  have hstart : (∀ t host, .said (.syncStarted t host) ∉ ([] : List Event)) →
      d₀.ledger.queue.sync = [] := by
    obtain ⟨-, rfl⟩ := create_eq_ok hcreate
    exact fun _ => rfl
  refine follow_create
    (P := fun es m => (∀ t host, .said (.syncStarted t host) ∉ es) →
      m.dispatcher.ledger.queue.sync = []) ?_ hcreate hstart h hes
  intro a _ before m es m₁ hm hmove hes
  have hbefore := hm fun t host hmem => hes t host (List.mem_append_left _ hmem)
  have hsublist := hmove.sync_sublist fun t host hmem => hes t host (List.mem_append_right _ hmem)
  rw [hbefore] at hsublist
  exact List.sublist_nil.1 hsublist

/-- A step without sync calls that lowers no limit keeps the load within the limits. -/
theorem Admits.within (h : Admits d a turn) (hd : d.ledger.queue.Within)
    (hlimits : d.ledger.queue.limits ≤ turn.dispatcher.ledger.queue.limits)
    (hsync : turn.dispatcher.ledger.queue.sync = []) :
    turn.dispatcher.ledger.queue.Within := by
  by_cases hpass : .passStarted ∈ turn.events
  · obtain ⟨q₁, next₁, hfound, hqueue, hfills⟩ := h.fills hpass
    obtain ⟨hrunning, hfoundSync⟩ := hfound.sublist
    rw [hfills.limits] at hlimits
    exact hfills.within (hd.mono hlimits hrunning hfoundSync)
  · refine hd.mono hlimits (h.still hpass) ?_
    rw [hsync]
    exact List.nil_sublist _

/-- **The load stays under the limits** in a course in which no limit is lowered and no sync call is
submitted. -/
theorem within_of_follow (hcreate : create limits = .ok (d₀, notices))
    (h : d₀.follow actions = .ok (d, es)) (hes : ∀ t host, .said (.syncStarted t host) ∉ es)
    (hlimits : ∀ p ∈ d₀.limitsOf actions, p.1 ≤ p.2) : d.ledger.queue.Within := by
  induction actions using List.reverseRecOn generalizing d es with
  | nil =>
    cases h
    obtain ⟨-, rfl⟩ := create_eq_ok hcreate
    exact ⟨Nat.zero_le _, fun _ => Nat.zero_le _⟩
  | append_singleton actions a ih =>
    obtain ⟨d₁, es₁, turn, hfollow, hstep, rfl, rfl⟩ := follow_concat_eq_ok h
    rw [limitsOf, gather_concat hfollow hstep, List.forall_mem_append] at hlimits
    have hwithin := ih hfollow
      (fun t host hmem => hes t host (List.mem_append_left _ hmem)) hlimits.1
    have hsync := sync_eq_nil_of_follow hcreate h hes
    exact (step_admits hcreate hfollow hstep).within hwithin
      (hlimits.2 _ (List.mem_singleton_self _)) hsync

/-- **Limits decide on admission, and on nothing else.** Whatever is nested and whatever panics, with
each call that a step admits the queue keeps to its limits, and each call that runs goes on running
until its own token comes to its end. If moreover no limit is lowered and no sync call is submitted,
the load is within the limits all the time. -/
theorem ceiling_of_follow (hcreate : create limits = .ok (d₀, notices))
    (h : d₀.follow actions = .ok (d, es)) :
    (∀ a turn, d.step a = .ok turn → Admits d a turn) ∧
      ((∀ t host, .said (.syncStarted t host) ∉ es) →
        (∀ p ∈ d₀.limitsOf actions, p.1 ≤ p.2) → d.ledger.queue.Within) :=
  ⟨fun _ _ hstep => step_admits hcreate h hstep, within_of_follow hcreate h⟩

/-- The load comes to stand above a limit, by a sync call and by a change of the limit. -/
def overloadCourse : List Action :=
  [.submit ⟨⟨"a"⟩, false⟩, .leave, .submit ⟨⟨"b"⟩, true⟩, .leave,
    .submitSync ⟨"a"⟩, .submit ⟨⟨"c"⟩, false⟩,
    -- neither the lower limit nor the cancellation takes a slot from a call
    .setLimit .total 1, .cancelAll]

/-- Limits are raised, at first one that is of no use to the call that waits. -/
def raiseCourse : List Action :=
  [.submit ⟨⟨"a"⟩, false⟩, .submit ⟨⟨"a"⟩, false⟩, .setLimit .total 3, .leave,
    .setLimit .perHost 2, .submit ⟨⟨"a"⟩, false⟩, .leave]

/-- Three calls run where one may, and the fourth waits. Where limits are only raised, the load is
never above them. -/
theorem ceiling_of_overloadCourse :
    (∃ d₀ notices d es, create ⟨2, 1⟩ = .ok (d₀, notices) ∧
      d₀.follow overloadCourse = .ok (d, es) ∧ d.ledger.queue.limits = ⟨1, 1⟩ ∧
      d.ledger.queue.runningCalls = [2, 0, 1] ∧ d.ledger.queue.queuedCalls = [3] ∧
      ∀ a turn, d.step a = .ok turn → Admits d a turn) ∧
    ∃ d₀ notices d es, create ⟨1, 1⟩ = .ok (d₀, notices) ∧
      d₀.follow raiseCourse = .ok (d, es) ∧ (∀ t host, .said (.syncStarted t host) ∉ es) ∧
      (∀ p ∈ d₀.limitsOf raiseCourse, p.1 ≤ p.2) ∧
      d.ledger.queue.runningCalls = [0, 1] ∧ d.ledger.queue.queuedCalls = [2] ∧
      d.ledger.queue.Within := by
  constructor
  · obtain ⟨d₀, notices, d, es, hcreate, hcourse, hlimits, hrunning, hqueued⟩ :
        ∃ d₀ notices d es, create ⟨2, 1⟩ = .ok (d₀, notices) ∧
          d₀.follow overloadCourse = .ok (d, es) ∧ d.ledger.queue.limits = ⟨1, 1⟩ ∧
          d.ledger.queue.runningCalls = [2, 0, 1] ∧ d.ledger.queue.queuedCalls = [3] :=
      ⟨_, _, _, _, rfl, rfl, rfl, rfl, rfl⟩
    exact ⟨d₀, notices, d, es, hcreate, hcourse, hlimits, hrunning, hqueued,
      (ceiling_of_follow hcreate hcourse).1⟩
  · obtain ⟨d₀, notices, d, es, hcreate, hcourse, hsync, hlimits, hrunning, hqueued⟩ :
        ∃ d₀ notices d es, create ⟨1, 1⟩ = .ok (d₀, notices) ∧
          d₀.follow raiseCourse = .ok (d, es) ∧
          (es.all fun | .said (.syncStarted ..) => false | _ => true) = true ∧
          d₀.limitsOf raiseCourse =
            [(⟨1, 1⟩, ⟨1, 1⟩), (⟨1, 1⟩, ⟨1, 1⟩), (⟨1, 1⟩, ⟨3, 1⟩), (⟨3, 1⟩, ⟨3, 1⟩),
              (⟨3, 1⟩, ⟨3, 2⟩), (⟨3, 2⟩, ⟨3, 2⟩), (⟨3, 2⟩, ⟨3, 2⟩)] ∧
          d.ledger.queue.runningCalls = [0, 1] ∧ d.ledger.queue.queuedCalls = [2] :=
      ⟨_, _, _, _, rfl, rfl, rfl, rfl, rfl, rfl⟩
    have hes : ∀ t host, .said (.syncStarted t host) ∉ es := fun t host hmem =>
      absurd (List.all_eq_true.1 hsync _ hmem) nofun
    have hraised : ∀ p ∈ d₀.limitsOf raiseCourse, p.1 ≤ p.2 := by
      rw [hlimits]
      decide
    exact ⟨d₀, notices, d, es, hcreate, hcourse, hes, hraised, hrunning, hqueued,
      (ceiling_of_follow hcreate hcourse).2 hes hraised⟩

end Dispatcher

end CallAdmission
