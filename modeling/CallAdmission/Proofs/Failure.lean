import CallAdmission.Proofs.Dispatcher.Course
import CallAdmission.Proofs.Ledger
import CallAdmission.Proofs.Queue.Consistency
import CallAdmission.Scenario.QueueStep

/-!
# CallAdmission.Proofs.Failure

Operations that fail leave nothing behind. A limit below one is refused; the end of a call that does
not run panics, whether there ever was such a call or not, and so does an arrival that is broken off
under the lock, wherever that is. Whatever was and will be asked of the queue and of its calls,
nobody can tell afterwards that the failed operation was asked for: the lock stays poisoned, and
every later operation takes it all the same.

* `Fails` — the operations that fail, and what they answer;
* `seen_step_congr` — a poisoned lock changes nothing that is seen of a step;
* `turns_succeeding` — the steps that succeed come to the same without those that fail;
* `follow_admissible` — likewise for the limit changes that a dispatcher refuses;
* `unnoticed_of_play` — all of this, after any steps.
-/

namespace CallAdmission

/-! ## calls that do not run -/

section Departures

variable {q : Queue} {t : Ticket}

/-- There is no departure exactly if the call is not among those that were admitted. -/
theorem Queue.finish?_eq_none_iff : q.finish? t = none ↔ t ∉ q.running.map (·.call) := by
  cases hfind : q.running.find? (·.call == t) with
  | none =>
    have hcalls : ∀ e ∈ q.running, e.call ≠ t := by simpa using hfind
    simpa [Queue.finish?, hfind] using hcalls
  | some e =>
    have hcall : e.call = t := by simpa using List.find?_some hfind
    simpa [Queue.finish?, hfind] using ⟨e, List.mem_of_find?_eq_some hfind, hcall⟩

theorem Queue.finishSync?_eq_none_iff : q.finishSync? t = none ↔ t ∉ q.sync := by
  simp [Queue.finishSync?]

/-- No call stands in two of the lists of a sound queue. -/
theorem Queue.Sound.not_mem_running_iff {s : Queue.Ticketed Queue} (h : Queue.Sound s) :
    t ∉ s.queue.running.map (·.call) ↔
      t ∈ s.queue.queuedCalls ∨ t ∈ s.queue.sync ∨ t ∉ s.queue.allCalls := by
  have hnodup := h.nodup
  simp only [Queue.allCalls, List.nodup_append, List.mem_append] at hnodup ⊢
  grind

theorem Queue.Sound.not_mem_sync_iff {s : Queue.Ticketed Queue} (h : Queue.Sound s) :
    t ∉ s.queue.sync ↔
      t ∈ s.queue.queuedCalls ∨ t ∈ s.queue.running.map (·.call) ∨ t ∉ s.queue.allCalls := by
  have hnodup := h.nodup
  simp only [Queue.allCalls, List.nodup_append, List.mem_append] at hnodup ⊢
  grind

end Departures

namespace Scenario

/-! ## operations that fail -/

/-- The operation was refused, or it panicked. -/
def Answer.isFailure : Answer → Bool
  | .refused _ | .panicked _ => true
  | _ => false

/-- The operation succeeded. -/
def QueueTurn.succeeds (turn : QueueTurn) : Bool := !turn.answer.isFailure

namespace QueueStage

variable {s s' : QueueStage} {a : QueueStep} {t : Ticket}

/-- The operations that fail, and what they answer. -/
inductive Fails (s : QueueStage) : QueueStep → Answer → Prop where
  | setLimit (limit : Limit) : Fails s (.setLimit limit 0) (.refused (.invalidLimit limit 0))
  /-- the call was not admitted, or has ended -/
  | finish (t : Ticket) (h : t ∉ s.ledger.queue.running.map (·.call)) :
    Fails s (.finish t) (.panicked (Ledger.notInFlightMessage t))
  /-- the call is no sync call, or has ended -/
  | finishSync (t : Ticket) (h : t ∉ s.ledger.queue.sync) :
    Fails s (.finishSync t) (.panicked (Ledger.notInFlightMessage t))
  /-- the call was not stored yet -/
  | brokenArrival (r : Request) (step : Ledger.ArrivalStep) (message : String) :
    Fails s (.brokenArrival r step message) (.panicked message)

/-- The queue with its lock made good. -/
def mended (s : QueueStage) : QueueStage := { s with poisoned := false }

/-- What such an operation answers. It leaves everything as it was, but it may poison the lock. -/
theorem Fails.spec {answer : Answer} (h : s.Fails a answer) :
    (s.step a).answer = answer ∧ answer.isFailure = true ∧
      (s.step a).stage.mended = s.mended := by
  cases h with
  | setLimit limit => exact ⟨rfl, rfl, rfl⟩
  | finish t h =>
    have hnone := Queue.finish?_eq_none_iff.2 h
    simp [QueueStage.step, perform, finishWith, Ledger.release, hnone, reply, Answer.isFailure]
  | finishSync t h =>
    have hnone := Queue.finishSync?_eq_none_iff.2 h
    simp [QueueStage.step, perform, finishWith, Ledger.releaseSync, hnone, reply, Answer.isFailure]
  | brokenArrival r step message =>
    have hledger := s.ledger.ledger_breakOff s.next r step
    exact ⟨rfl, rfl, by simp [QueueStage.step, perform, breakOff, mended, hledger]⟩

/-- What is asked of one call does not fail. -/
theorem isFailure_callStep (c : CallStep) (t : Ticket) (call : Call) :
    (c.answer t call).isFailure = false := by
  cases c <;> rfl

/-- There are no other operations that fail. -/
theorem fails_of_isFailure (h : (s.step a).answer.isFailure = true) :
    s.Fails a (s.step a).answer := by
  cases a with
  | setLimit limit n =>
    by_cases hn : 1 ≤ n
    · have hcheck := (Limits.check_eq_ok_iff limit n).2 hn
      simp [QueueStage.step, perform, Ledger.setLimit, Queue.setLimit, hcheck, bind, Except.bind,
        pure, Except.pure, Answer.isFailure] at h
    · obtain rfl : n = 0 := by simpa using hn
      exact Fails.setLimit limit
  | finish t =>
    rcases hrelease : s.ledger.release t with ⟨_ | ledger, notices⟩
    · have hnone := Queue.finish?_eq_none_iff.1 (Ledger.release_eq_none hrelease)
      simpa [QueueStage.step, perform, finishWith, hrelease, reply] using Fails.finish t hnone
    · simp [QueueStage.step, perform, finishWith, hrelease, Answer.isFailure] at h
  | finishSync t =>
    rcases hrelease : s.ledger.releaseSync t with ⟨_ | ledger, notices⟩
    · have hnone := Queue.finishSync?_eq_none_iff.1 (Ledger.releaseSync_eq_none hrelease)
      simpa [QueueStage.step, perform, finishWith, hrelease, reply] using
        Fails.finishSync t hnone
    · simp [QueueStage.step, perform, finishWith, hrelease, Answer.isFailure] at h
  | brokenArrival r step message => exact Fails.brokenArrival r step message
  | onCall t c =>
    cases hcall : s.ledger.call? t with
    | none => simp [QueueStage.step, perform, hcall, reply, Answer.isFailure] at h
    | some call => simp [QueueStage.step, perform, hcall, reply, isFailure_callStep] at h
  | _ => cases h

/-! ## a lock that is poisoned -/

end QueueStage

/-- What is seen of a turn: the queue and its calls, the answer, and what is said but for the
poisoned lock. -/
def QueueTurn.seen (turn : QueueTurn) : QueueStage × Answer × List Notice :=
  (turn.stage.mended, turn.answer, turn.notices)

namespace QueueStage

variable {s s' : QueueStage} {a : QueueStep} {t : Ticket}

theorem enqueueMany_mended (s : QueueStage) (r : Request) (count : Nat) :
    s.mended.enqueueMany r count = ((s.enqueueMany r count).1.mended, (s.enqueueMany r count).2) := by
  induction count generalizing s with
  | zero => rfl
  | succ count ih =>
    have hrest := ih { s with ledger := (s.ledger.enqueue s.next r).1, next := s.next + 1 }
    simp only [enqueueMany]
    simp only [mended] at hrest ⊢
    rw [hrest]

theorem finishWith_mended (s : QueueStage) (t : Ticket) (release : Option Ledger × List Notice) :
    (s.mended.finishWith t release).seen = (s.finishWith t release).seen := by
  obtain ⟨ledger, notices⟩ := release
  cases ledger <;> rfl

/-- Whether the lock was good or not is not seen of a step. -/
theorem seen_step_mended (s : QueueStage) (a : QueueStep) :
    (s.mended.step a).seen = (s.step a).seen := by
  cases a with
  | enqueue r count =>
    have hmany := s.enqueueMany_mended r count
    simp only [QueueStage.step, perform, hmany]
    rfl
  | finish t => exact s.finishWith_mended t (s.ledger.release t)
  | finishSync t => exact s.finishWith_mended t (s.ledger.releaseSync t)
  | setLimit limit n =>
    cases hset : s.ledger.setLimit limit n <;>
      simp [QueueStage.step, perform, mended, hset, reply, QueueTurn.seen]
  | onCall t c =>
    cases hcall : s.ledger.call? t <;>
      simp [QueueStage.step, perform, mended, hcall, reply, QueueTurn.seen]
  | _ => rfl

theorem seen_step_congr (h : s.mended = s'.mended) (a : QueueStep) :
    (s.step a).seen = (s'.step a).seen := by
  rw [← seen_step_mended s, h, seen_step_mended]

/-! ## steps without those that fail -/

/-- The stage after steps. -/
def after (s : QueueStage) : List QueueStep → QueueStage
  | [] => s
  | step :: rest => (s.step step).stage.after rest

/-- The steps whose operations succeed when all of the steps are taken. -/
def succeeding (s : QueueStage) : List QueueStep → List QueueStep
  | [] => []
  | step :: rest =>
    let turn := s.step step
    if turn.succeeds then step :: turn.stage.succeeding rest else turn.stage.succeeding rest

/-- What is seen of the steps that succeed is the same if the others are not taken, and so is what
is left in the end. -/
theorem turns_succeeding (h : s.mended = s'.mended) (steps : List QueueStep) :
    (s'.turns (s.succeeding steps)).map (·.seen) =
        ((s.turns steps).filter (·.succeeds)).map (·.seen) ∧
      (s'.after (s.succeeding steps)).mended = (s.after steps).mended := by
  induction steps generalizing s s' with
  | nil => exact ⟨rfl, h.symm⟩
  | cons step rest ih =>
    cases hs : (s.step step).succeeds with
    | true =>
      have hseen := seen_step_congr h step
      obtain ⟨hturns, hafter⟩ := ih (congrArg Prod.fst hseen)
      simp [succeeding, turns, after, hs, hseen, hturns, hafter]
    | false =>
      have hfailure : (s.step step).answer.isFailure = true := by
        simpa [QueueTurn.succeeds] using hs
      obtain ⟨-, -, hsame⟩ := (fails_of_isFailure hfailure).spec
      obtain ⟨hturns, hafter⟩ := ih (hsame.trans h)
      simp [succeeding, turns, after, hs, hturns, hafter]

/-- Which steps succeed is decided by those before them. -/
theorem succeeding_append (s : QueueStage) (front back : List QueueStep) :
    s.succeeding (front ++ back) = s.succeeding front ++ (s.after front).succeeding back := by
  induction front generalizing s with
  | nil => rfl
  | cons step front ih =>
    simp only [List.cons_append, succeeding, after, ih]
    split <;> simp

/-! ## which calls do not run -/

/-- The queue is sound. -/
def Sound (s : QueueStage) : Prop := Queue.Sound ⟨s.ledger.queue, s.next⟩

/-- What an operation of the queue keeps. -/
theorem Sound.change {next : Ticket} {queue : Queue} (h : s.Sound) (op : Queue.Operation)
    (hq : (Queue.counted.step ⟨s.ledger.queue, s.next⟩ op).1 = ⟨queue, next⟩) :
    Queue.Sound ⟨queue, next⟩ :=
  hq ▸ h.step op

theorem Sound.enqueueMany (h : s.Sound) (r : Request) (count : Nat) :
    (s.enqueueMany r count).1.Sound := by
  induction count generalizing s with
  | zero => exact h
  | succ count ih => exact ih (h.change (.enqueue r.host r.duplex) rfl)

/-- Every step keeps the queue sound. -/
theorem Sound.step (h : s.Sound) (a : QueueStep) : (s.step a).stage.Sound := by
  cases a with
  | enqueue r count => exact h.enqueueMany r count
  | enqueueSync host => exact h.change (.enqueueSync host) rfl
  | promote =>
    refine h.change .promote ?_
    simp [QueueStage.step, perform, Queue.Interface.step, Queue.counted]
  | finish t =>
    simp only [QueueStage.step, perform, finishWith]
    split
    · exact h
    · next hrelease =>
      obtain ⟨departure, hd, rfl⟩ := Ledger.release_eq_some hrelease
      refine h.change (.finish t) ?_
      simp [Queue.Interface.step, Queue.counted, hd, Queue.Interface.depart]
  | finishSync t =>
    simp only [QueueStage.step, perform, finishWith]
    split
    · exact h
    · next hrelease =>
      obtain ⟨queue, hq, rfl⟩ := Ledger.releaseSync_eq_some hrelease
      refine h.change (.finishSync t) ?_
      simp [Queue.Interface.step, Queue.counted, hq, Queue.Interface.depart]
  | setLimit limit n =>
    simp only [QueueStage.step, perform]
    split
    · exact h
    · next hset =>
      obtain ⟨queue, hq, rfl, -⟩ := Ledger.setLimit_eq_ok hset
      refine h.change (.setLimit limit n) ?_
      simp [Queue.Interface.step, Queue.counted, hq]
  | setIdle on => exact h.change (.setIdle (if on then some 0 else none)) rfl
  | brokenArrival r step message =>
    have hledger := s.ledger.ledger_breakOff s.next r step
    simpa [QueueStage.step, perform, breakOff, QueueStage.Sound, hledger] using h
  | onCall t c =>
    simp only [QueueStage.step, perform]
    split <;> exact h
  | _ => exact h

theorem sound_after (h : s.Sound) (steps : List QueueStep) : (s.after steps).Sound := by
  induction steps generalizing s with
  | nil => exact h
  | cons a rest ih => exact ih (h.step a)

end QueueStage

end Scenario

/-! ## limit changes that a dispatcher refuses -/

namespace Dispatcher

/-- The action is no change of a limit to zero. -/
def Action.isAdmissible : Action → Bool
  | .setLimit _ n => n != 0
  | _ => true

/-- A limit change that is refused comes to its answer, and to nothing else: no pass is asked for. -/
theorem step_setLimit_zero (d : Dispatcher) (limit : Limit) :
    d.step (.setLimit limit 0) = .ok (d.answer (.refused (.invalidLimit limit 0))) := rfl

/-- A course without the limit changes that are refused comes to the same. -/
theorem follow_admissible (d : Dispatcher) (actions : List Action) :
    d.follow (actions.filter (·.isAdmissible)) = d.follow actions := by
  induction actions generalizing d with
  | nil => rfl
  | cons a actions ih =>
    cases ha : a.isAdmissible with
    | true => simp [ha, follow, ih]
    | false =>
      obtain ⟨limit, rfl⟩ : ∃ limit, a = .setLimit limit 0 := by
        cases a <;> simp_all [Action.isAdmissible]
      rw [List.filter_cons_of_neg (by simp [ha]), ih, follow, step_setLimit_zero]
      cases hrest : d.follow actions <;> simp [bind, Except.bind, answer, hrest, pure, Except.pure]

end Dispatcher

namespace Scenario.QueueStage

variable {s : QueueStage} {steps : List QueueStep}

/-- The steps that fail go unnoticed. -/
structure Unnoticed (s : QueueStage) (steps : List QueueStep) : Prop where
  /-- without them the other steps answer, say and leave behind the same -/
  turns : (s.turns (s.succeeding steps)).map (·.seen) =
    ((s.turns steps).filter (·.succeeds)).map (·.seen)
  /-- and at every time the queue and its calls are the same -/
  stage : ∀ front back, steps = front ++ back →
    s.succeeding steps = s.succeeding front ++ (s.after front).succeeding back ∧
      (s.after (s.succeeding front)).mended = (s.after front).mended

/-- Which steps can fail at a stage. -/
structure Fallible (s : QueueStage) : Prop where
  fails_iff : ∀ a answer, s.Fails a answer ↔
    (s.step a).answer = answer ∧ answer.isFailure = true
  /-- the end of an admitted call fails if the call waits, is a sync call, has ended, or never was -/
  finish_fails_iff : ∀ t, (∃ answer, s.Fails (.finish t) answer) ↔
    t ∈ s.ledger.queue.queuedCalls ∨ t ∈ s.ledger.queue.sync ∨ t ∉ s.ledger.queue.allCalls
  /-- the end of a sync call fails if the call waits, was admitted, has ended, or never was -/
  finishSync_fails_iff : ∀ t, (∃ answer, s.Fails (.finishSync t) answer) ↔
    t ∈ s.ledger.queue.queuedCalls ∨ t ∈ s.ledger.queue.running.map (·.call) ∨
      t ∉ s.ledger.queue.allCalls

theorem unnoticed (s : QueueStage) (steps : List QueueStep) : s.Unnoticed steps where
  turns := (turns_succeeding rfl steps).1
  stage front back hsteps :=
    ⟨hsteps ▸ s.succeeding_append front back, (turns_succeeding rfl front).2⟩

theorem Sound.fallible (h : s.Sound) : s.Fallible where
  fails_iff a answer := by
    constructor
    · intro hfails
      obtain ⟨hanswer, hfailure, -⟩ := hfails.spec
      exact ⟨hanswer, hfailure⟩
    · rintro ⟨rfl, hfailure⟩
      exact fails_of_isFailure hfailure
  finish_fails_iff t := by
    rw [← h.not_mem_running_iff]
    refine ⟨?_, fun hnot => ⟨_, Fails.finish t hnot⟩⟩
    rintro ⟨_, ⟨⟩⟩
    assumption
  finishSync_fails_iff t := by
    rw [← h.not_mem_sync_iff]
    refine ⟨?_, fun hnot => ⟨_, Fails.finishSync t hnot⟩⟩
    rintro ⟨_, ⟨⟩⟩
    assumption

/-- **Failed operations.** Take the operations that fail out of any steps on a queue and its calls:
the others answer and say the same, and at every time the queue, its counters and its calls are the
same. The operations that fail are limits below one, the ends of calls that are not in the list that
they are to leave, and arrivals that are broken off before the call is stored. A dispatcher that
refuses a limit stays as it is and asks for no pass, and a course comes to the same without the
limits that it refuses. -/
theorem unnoticed_of_play (limits : Limits) (steps : List QueueStep) :
    (create limits).Unnoticed steps ∧ ((create limits).after steps).Fallible ∧
      ∀ d : Dispatcher,
        (∀ limit, d.step (.setLimit limit 0) =
          .ok { dispatcher := d, events := [], reply := some (.refused (.invalidLimit limit 0)) }) ∧
        ∀ actions, d.follow (actions.filter (·.isAdmissible)) = d.follow actions := by
  have hstart : (create limits).Sound := Queue.Sound.empty limits
  have hsound := sound_after hstart steps
  exact ⟨unnoticed _ steps, hsound.fallible, fun d => ⟨d.step_setLimit_zero, d.follow_admissible⟩⟩

/-- A call runs, another one waits, and a sync call runs; among the steps are all that can fail. -/
def failingSteps : List QueueStep :=
  [.enqueue ⟨⟨"a"⟩, false⟩ 2, .setLimit .total 0, .promote, .finish 1,
    .brokenArrival ⟨⟨"a"⟩, false⟩ .store "poison", .enqueueSync ⟨"b"⟩, .finish 2, .finishSync 0,
    -- nobody was ever given this ticket
    .finish 9, .finishSync 9,
    .finish 0, .finish 0, .onCall 0 .wait, .promote, .setLimit .perHost 0, .setLimit .perHost 2,
    .finishSync 2, .finishSync 2, .promote]

/-- Nine of the steps succeed, most of them on a poisoned lock. -/
theorem unnoticed_of_failingSteps :
    let s := create ⟨2, 1⟩
    s.succeeding failingSteps =
        [.enqueue ⟨⟨"a"⟩, false⟩ 2, .promote, .enqueueSync ⟨"b"⟩, .finish 0, .onCall 0 .wait,
          .promote, .setLimit .perHost 2, .finishSync 2, .promote] ∧
      (s.after failingSteps).poisoned = true ∧
      (s.after failingSteps).ledger.queue.runningCalls = [1] ∧
      s.Unnoticed failingSteps ∧ (s.after failingSteps).Fallible :=
  have hall := unnoticed_of_play ⟨2, 1⟩ failingSteps
  ⟨rfl, rfl, rfl, hall.1, hall.2.1⟩

end Scenario.QueueStage

end CallAdmission
