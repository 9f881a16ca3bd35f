import CallAdmission.Proofs.Dispatcher.Service
import CallAdmission.Proofs.Queue.Log

/-!
# CallAdmission.Proofs.Dispatcher.Overtaking

In which order calls are admitted. A call is overtaken only while the limit of its host keeps it
waiting, whatever else happens: passes that are cut short by a panic, limits that change between
passes, sync calls that take slots, operations from any depth of the stack.

* `log` — what the events of a course tell of the queue;
* `Tale` — the changes of the queue with what is told of them;
* `Move.tale` — every move is one of these changes, and all of it is told;
* `logged_of_follow` — the log of a course gives the queue, and is orderly;
* `overtaking_of_follow` — who may be overtaken, and who never is.
-/

namespace CallAdmission

/-- The notice tells of a change of the queue's calls or limits. -/
def Notice.isChange : Notice → Bool
  | .enqueued .. | .syncStarted .. | .promoted .. | .finished .. | .syncFinished _
  | .limitUpdated .. => true
  | _ => false

namespace Dispatcher

/-! ## what is told -/

/-- What an event tells of the queue. -/
def Event.told? : Event → Option Notice
  | .said n => if n.isChange then some n else none
  | _ => none

/-- What events tell of the queue, in order. -/
def log (es : List Event) : List Notice := es.filterMap Event.told?

@[simp] theorem log_append (es es' : List Event) : log (es ++ es') = log es ++ log es' :=
  List.filterMap_append

/-- A request for a pass tells nothing of the queue. -/
theorem log_concat_passRequested (es : List Event) : log (es ++ [.passRequested]) = log es := by
  rw [log_append]
  exact List.append_nil _

theorem log_said (notices : List Notice) :
    log (notices.map .said) = notices.filter (·.isChange) := by
  induction notices with
  | nil => rfl
  | cons n notices ih =>
    rw [List.map_cons, List.filter_cons, ← ih]
    cases h : n.isChange <;> simp [log, Event.told?, h]

variable {a : Action} {d d₁ : Dispatcher} {t : Ticket} {o : Outcome} {es : List Event}

theorem log_release {l l' : Ledger} {notices : List Notice}
    (h : l.release t = (some l', notices)) :
    ∃ departure n, l.queue.finish? t = some departure ∧ l'.queue = departure.queue ∧
      log (notices.map .said) = [.finished t departure.entry.host n] := by
  unfold Ledger.release at h
  split at h
  · cases h
  · next departure hd =>
    cases h
    refine ⟨departure, departure.counter.decrement.running, hd, rfl, ?_⟩
    unfold Counter.decrementNotices
    split <;> rfl

theorem log_releaseSync {l l' : Ledger} {notices : List Notice}
    (h : l.releaseSync t = (some l', notices)) :
    l.queue.finishSync? t = some l'.queue ∧ log (notices.map .said) = [.syncFinished t] := by
  unfold Ledger.releaseSync at h
  split at h
  · cases h
  · next queue hq =>
    cases h
    exact ⟨hq, rfl⟩

theorem log_release_none {l : Ledger} {notices : List Notice}
    (h : l.release t = (none, notices)) : log (notices.map .said) = [] := by
  unfold Ledger.release at h
  split at h
  · cases h
    rfl
  · cases h

theorem log_releaseSync_none {l : Ledger} {notices : List Notice}
    (h : l.releaseSync t = (none, notices)) : log (notices.map .said) = [] := by
  unfold Ledger.releaseSync at h
  split at h
  · cases h
    rfl
  · cases h

theorem log_promoted (l : Ledger) :
    log (l.promote.notices.map .said) = l.queue.promote.admitted.map (·.notice) := by
  rw [log_said, Ledger.promote, List.filter_map]
  exact congrArg _ (List.filter_true _)

/-- Remarks tell nothing of the queue. -/
theorem log_remarks (h : ∀ e ∈ es, e.isRemark = true) : log es = [] := by
  rw [log, List.filterMap_eq_nil_iff]
  intro e he
  have hremark := h e he
  cases e with
  | said n => cases n <;> first | rfl | cases hremark
  | _ => rfl

/-! ## changes that are told -/

/-- The changes of the queue, and of the next ticket, with what is told of them. -/
inductive Tale (q : Queue) (next : Ticket) : List Notice → Queue → Ticket → Prop where
  | keep {next'} (hn : next ≤ next') : Tale q next [] q next'
  | setIdle (idle : Option Callback) : Tale q next [] (q.setIdle idle) next
  | enqueue (host : Host) (duplex : Bool) (load : Nat) :
    Tale q next [.enqueued next host duplex load] (q.enqueue next host duplex) (next + 1)
  | enqueueSync {next'} (t : Ticket) (host : Host) (hn : next ≤ next') :
    Tale q next [.syncStarted t host] (q.enqueueSync t) next'
  | finish {t departure} (host : Host) (load : Nat) (h : q.finish? t = some departure) :
    Tale q next [.finished t host load] departure.queue next
  | finishSync {t q'} (h : q.finishSync? t = some q') : Tale q next [.syncFinished t] q' next
  | setLimit {limit n q'} (h : q.setLimit limit n = .ok q') :
    Tale q next [.limitUpdated limit n] q' next
  | promote : Tale q next (q.promote.admitted.map (·.notice)) q.promote.queue next

/-- A slot is given back, and that is told. -/
theorem tale_release {l l' : Ledger} {notices : List Notice} (next : Ticket)
    (h : l.release t = (some l', notices)) :
    Tale l.queue next (log (notices.map .said)) l'.queue next := by
  obtain ⟨departure, n, hq, hl, hlog⟩ := log_release h
  rw [hl, hlog]
  exact Tale.finish departure.entry.host n hq

theorem tale_releaseSync {l l' : Ledger} {notices : List Notice} (next : Ticket)
    (h : l.releaseSync t = (some l', notices)) :
    Tale l.queue next (log (notices.map .said)) l'.queue next := by
  obtain ⟨hq, hlog⟩ := log_releaseSync h
  rw [hlog]
  exact Tale.finishSync hq

/-- Every move is one of these changes, and all of it is told. -/
theorem Move.tale {m m₁ : Moment} (h : Move a m es m₁) :
    Tale m.dispatcher.ledger.queue m.dispatcher.next (log es) m₁.dispatcher.ledger.queue
      m₁.dispatcher.next := by
  have hkeep : ∀ {q : Queue} {next : Ticket}, Tale q next [] q next := Tale.keep (Nat.le_refl _)
  cases h with
  | @submit d r ha => exact Tale.enqueue r.host r.duplex _
  | @submitSync d host ha => exact Tale.enqueueSync d.next host (Nat.le_succ _)
  | reserveSync ha => exact Tale.keep (Nat.le_succ _)
  | @startSync d d₁ t run ha h hs =>
    obtain ⟨-, rfl⟩ := takeSyncRun_eq_ok h
    exact Tale.enqueueSync run.call run.host (Nat.le_refl _)
  | dropUnstarted ha h | pollSync ha h =>
    obtain ⟨-, rfl⟩ := takeSyncRun_eq_ok h
    exact hkeep
  | openRun ha h =>
    obtain ⟨-, rfl⟩ := takeHeld_eq_ok h
    exact hkeep
  | openTask ha h | pollTask ha h =>
    obtain ⟨-, rfl⟩ := takeRun_eq_ok h
    exact hkeep
  | @complete d d₁ es t o l notices h hr =>
    have hqueue : d₁.ledger.queue = d.ledger.queue := congrArg Gate.queue h.gate.1
    have hnext : d₁.next = d.next := congrArg Gate.next h.gate.1
    have htale := tale_release d₁.next hr
    rw [hqueue] at htale
    rw [log_concat_passRequested, log_append, log_remarks h.remarks, List.nil_append, ← hnext]
    exact htale
  | @completeSync d d₁ es t o l notices h hr =>
    have hqueue : d₁.ledger.queue = d.ledger.queue := congrArg Gate.queue h.gate.1
    have hnext : d₁.next = d.next := congrArg Gate.next h.gate.1
    have htale := tale_releaseSync d₁.next hr
    rw [hqueue] at htale
    rw [log_concat_passRequested, log_append, log_remarks h.remarks, List.nil_append, ← hnext]
    exact htale
  | @miss d d₁ es t o notices h hr =>
    have hqueue : d₁.ledger.queue = d.ledger.queue := congrArg Gate.queue h.gate.1
    have hnext : d₁.next = d.next := congrArg Gate.next h.gate.1
    rw [log_append, log_remarks h.remarks, log_release_none hr, hqueue, hnext]
    exact hkeep
  | @missSync d d₁ es t o notices h hr =>
    have hqueue : d₁.ledger.queue = d.ledger.queue := congrArg Gate.queue h.gate.1
    have hnext : d₁.next = d.next := congrArg Gate.next h.gate.1
    rw [log_append, log_remarks h.remarks, log_releaseSync_none hr, hqueue, hnext]
    exact hkeep
  | setLimit ha h =>
    obtain ⟨q, hq, rfl, rfl⟩ := Ledger.setLimit_eq_ok h
    exact Tale.setLimit hq
  | @setIdle d idle ha => exact Tale.setIdle idle
  | cancel ha =>
    rw [log_remarks (remarks_markCanceled _ _)]
    exact hkeep
  | @cancelAll d ha =>
    have hgate := gate_markAllCanceled d d.ledger.queue.allCalls .outside
    have hqueue : (d.markAllCanceled d.ledger.queue.allCalls).dispatcher.ledger.queue =
        d.ledger.queue := congrArg Gate.queue hgate
    have hnext : (d.markAllCanceled d.ledger.queue.allCalls).dispatcher.next = d.next :=
      congrArg Gate.next hgate
    change Tale _ _ (log (d.markAllCanceled d.ledger.queue.allCalls).events) _ _
    rw [log_remarks (remarks_markAllCanceled _ _), hqueue, hnext]
    exact hkeep
  | @promote d hp =>
    change Tale _ _ (log (d.ledger.promote.notices.map .said)) d.ledger.promote.ledger.queue _
    rw [log_promoted, Ledger.queue_promote]
    exact Tale.promote
  | @abandon d t rest l notices hp hr =>
    have htale := tale_release d.next hr
    rw [log_concat_passRequested]
    exact htale
  | @abandonMiss d t rest notices hr =>
    change Tale _ _ (log (notices.map .said)) _ _
    rw [log_release_none hr]
    exact hkeep
  | _ => exact hkeep

/-! ## the log of a course -/

section Logged

open Log

/-- The log gives the queue, and is orderly. -/
structure Logged (limits : Limits) (ns : List Notice) (q : Queue) (next : Ticket) : Prop where
  replay : replay limits ns = q.plain.bare
  orderly : Orderly limits ns
  below : ∀ m ∈ arrivals ns, m.call < next

variable {limits : Limits} {ns ns' : List Notice} {n : Notice} {q q' : Queue} {next next' : Ticket}

theorem Logged.mono (h : Logged limits ns q next) (hn : next ≤ next') : Logged limits ns q next' :=
  ⟨h.replay, h.orderly, fun m hm => Nat.lt_of_lt_of_le (h.below m hm) hn⟩

/-- One more change is told that is neither an arrival nor an admission. -/
theorem Logged.concat (h : Logged limits ns q next) (hn : n.arrival? = none)
    (horder : InOrder limits ns n) (hq : q.plain.bare.heed n = q'.plain.bare) :
    Logged limits (ns ++ [n]) q' next := by
  have harrivals : arrivals (ns ++ [n]) = arrivals ns := by
    rw [arrivals_append]
    simp [arrivals, hn]
  exact ⟨by rw [replay_concat, h.replay, hq], h.orderly.concat horder, harrivals ▸ h.below⟩

theorem Logged.enqueue (h : Logged limits ns q next) (host : Host) (duplex : Bool) (load : Nat) :
    Logged limits (ns ++ [.enqueued next host duplex load]) (q.enqueue next host duplex)
      (next + 1) := by
  refine ⟨?_, h.orderly.concat h.below, fun m hm => ?_⟩
  · rw [replay_concat, h.replay, Queue.plain_enqueue]
    rfl
  · rw [arrivals_append] at hm
    rcases List.mem_append.1 hm with hm | hm
    · exact Nat.lt_succ_of_lt (h.below m hm)
    · obtain rfl := List.mem_singleton.1 hm
      exact Nat.lt_succ_self _

/-- A call that ends is taken out of the running ones. -/
theorem heed_finished {departure : Queue.Departure} (hq : q.finish? t = some departure)
    (host : Host) (load : Nat) :
    q.plain.bare.heed (.finished t host load) = departure.queue.plain.bare := by
  have hplain := Queue.plain_finish? q t
  rw [hq, Option.map_some, PlainQueue.finish?] at hplain
  split at hplain
  · rw [← Option.some.inj hplain]
    rfl
  · cases hplain

/-- Admissions are no arrivals. -/
theorem arrivals_admissions (admitted : List Queue.Admission) :
    arrivals (admitted.map (·.notice)) = [] := by
  rw [arrivals, List.filterMap_map, List.filterMap_eq_nil_iff]
  exact fun _ _ => rfl

/-- Every change leaves the log orderly. -/
theorem Logged.tale (h : Logged limits ns q next) (hq : q.Coherent next)
    (htale : Tale q next ns' q' next') : Logged limits (ns ++ ns') q' next' := by
  cases htale with
  | keep hn =>
    rw [List.append_nil]
    exact h.mono hn
  | setIdle idle =>
    rw [List.append_nil]
    exact ⟨h.replay, h.orderly, h.below⟩
  | enqueue host duplex load => exact h.enqueue host duplex load
  | enqueueSync t host hn =>
    have hlogged : Logged limits (ns ++ [.syncStarted t host]) (q.enqueueSync t) next :=
      h.concat rfl trivial rfl
    exact hlogged.mono hn
  | finish host load hq => exact h.concat rfl trivial (heed_finished hq host load)
  | finishSync hq =>
    obtain ⟨-, rfl⟩ := Queue.finishSync?_eq_some hq
    exact h.concat rfl trivial rfl
  | setLimit hq =>
    obtain ⟨-, rfl⟩ := Queue.setLimit_eq_ok_iff.1 hq
    exact h.concat rfl trivial rfl
  | promote =>
    obtain ⟨horderly, hreplay⟩ := h.orderly.promote hq h.replay
    refine ⟨hreplay, horderly, fun m hm => ?_⟩
    rw [arrivals_append, arrivals_admissions, List.append_nil] at hm
    exact h.below m hm

end Logged

/-! ## courses -/

variable {limits : Limits} {notices : List Notice} {d₀ : Dispatcher} {actions : List Action}

/-- After every course the log gives the queue, and is orderly. -/
theorem logged_of_follow (hcreate : create limits = .ok (d₀, notices))
    (h : d₀.follow actions = .ok (d, es)) : Logged limits (log es) d.ledger.queue d.next := by
  have hstart : Logged limits [] d₀.ledger.queue d₀.next := by
    obtain ⟨-, rfl⟩ := create_eq_ok hcreate
    exact ⟨rfl, Log.Orderly.nil, nofun⟩
  have hboth := follow_create
    (P := fun es m => m.gate.Sound es ∧
      Logged limits (log es) m.dispatcher.ledger.queue m.dispatcher.next)
    (fun _ _ before m es _ hm hmove => by
      rw [log_append]
      exact ⟨hm.1.change hmove.change, hm.2.tale hm.1.coherent hmove.tale⟩)
    hcreate ⟨sound_create hcreate, hstart⟩ h
  exact hboth.2

open Log in
/-- What may be seen of overtaking in a log. -/
structure Fair (limits : Limits) (ns : List Notice) : Prop where
  /-- a call that waits when a later one is admitted is not duplex, and at that instant its host
  is full -/
  justified : ∀ a b hostₐ host₁ host duplexₐ duplex₁ loadₐ load₁ load front back,
    [.enqueued a hostₐ duplexₐ loadₐ, .enqueued b host₁ duplex₁ load₁].Sublist ns →
    ns = front ++ .promoted b host load :: back → a ∈ (replay limits front).queuedCalls →
    duplexₐ = false ∧
      (replay limits front).limits.maxPerHost.toNat ≤ (replay limits front).hostCount hostₐ
  /-- calls to one host that are not duplex are admitted in the order of their arrival -/
  ordered : ∀ a b host loadₐ load₁,
    [.enqueued a host false loadₐ, .enqueued b host false load₁].Sublist ns →
    b ∈ admissions ns → [a, b].Sublist (admissions ns)
  /-- a duplex call is admitted before every call that arrives later -/
  duplex : ∀ a b hostₐ host₁ duplex₁ loadₐ load₁,
    [.enqueued a hostₐ true loadₐ, .enqueued b host₁ duplex₁ load₁].Sublist ns →
    b ∈ admissions ns → [a, b].Sublist (admissions ns)

/-- **Overtaking.** Whatever happens in a course, its log gives the queue, and a call is overtaken
only while it counts against the limit of a full host. So calls to one host that are not duplex are
admitted in the order of their arrival, and a duplex call is never overtaken. -/
theorem overtaking_of_follow (hcreate : create limits = .ok (d₀, notices))
    (h : d₀.follow actions = .ok (d, es)) :
    Log.replay limits (log es) = d.ledger.queue.plain.bare ∧ Fair limits (log es) := by
  have hlogged := logged_of_follow hcreate h
  refine ⟨hlogged.replay, ?_, ?_, ?_⟩
  · intro a b hostₐ host₁ host duplexₐ duplex₁ loadₐ load₁ load front back horder hsplit hwaits
    exact hlogged.orderly.overtaken horder hsplit hwaits
  · intro a b host loadₐ load₁ horder hb
    exact hlogged.orderly.sublist_admissions horder (.inr ⟨rfl, rfl⟩) hb
  · intro a b hostₐ host₁ duplex₁ loadₐ load₁ horder hb
    exact hlogged.orderly.sublist_admissions horder (.inl rfl) hb

/-- Two calls overtake one whose host is full, the second of them in a pass that was asked for
during the first hand-over and that a panic ends. -/
def overtakingCourse : List Action :=
  [.submit ⟨⟨"a"⟩, false⟩, .leave, .submit ⟨⟨"a"⟩, false⟩,
    -- while it has the duplex call, the executor submits a call to another host
    .submit ⟨⟨"a"⟩, true⟩, .submit ⟨⟨"b"⟩, false⟩, .leave,
    .setLimit .perHost 2, .panic "executor failed",
    .report 0 (.ok ()), .leave]

theorem overtaking_of_overtakingCourse :
    ∃ d₀ notices d es, create ⟨3, 1⟩ = .ok (d₀, notices) ∧
      d₀.follow overtakingCourse = .ok (d, es) ∧ Log.admissions (log es) = [0, 2, 3, 1] ∧
      Log.replay ⟨3, 1⟩ (log es) = d.ledger.queue.plain.bare ∧ Fair ⟨3, 1⟩ (log es) := by
  obtain ⟨d₀, notices, d, es, hcreate, hcourse, hadmissions⟩ :
      ∃ d₀ notices d es, create ⟨3, 1⟩ = .ok (d₀, notices) ∧
        d₀.follow overtakingCourse = .ok (d, es) ∧ Log.admissions (log es) = [0, 2, 3, 1] :=
    ⟨_, _, _, _, rfl, rfl, rfl⟩
  exact ⟨d₀, notices, d, es, hcreate, hcourse, hadmissions, overtaking_of_follow hcreate hcourse⟩

end Dispatcher

end CallAdmission
