import CallAdmission.Proofs.Queue.Refinement

/-!
# CallAdmission.Proofs.Queue.Concealment

Calls that wait in vain are invisible to all others. If some of the calls of a history are never
admitted, the history goes the same way without them: passes admit the same calls and find the same
callback due, every operation has the same answer, and the queue is the same but for those calls
themselves.

Without an arrival the later calls would have other tickets, so each operation is put down together
with the ticket that a call takes which arrives with it, as an `Occasion`. Arrivals can then be
crossed out, and all other calls keep their tickets.

* `recount` — what comes of occasions, one after the other;
* `scan_without` — a scan does not look at calls that it leaves waiting;
* `step_without` — nor does any other operation look at calls that wait in vain;
* `recount_of_concealed` — a history goes the same way without the calls that are never admitted.
-/

namespace CallAdmission

/-! ## calls that are left out -/

/-- The queue without some of the waiting calls. -/
def PlainQueue.without (p : Ticket → Bool) (q : PlainQueue) : PlainQueue :=
  { q with ready := q.ready.filter (!p ·.call) }

namespace Queue

/-- An operation, and the ticket of a call that arrives with it. -/
structure Occasion where
  next : Ticket
  op : Operation
deriving DecidableEq, Repr

/-- The next call's ticket after an operation. -/
def Operation.nextAfter (next : Ticket) : Operation → Ticket
  | .enqueue .. | .enqueueSync _ => next + 1
  | .promote | .finish _ | .finishSync _ | .setLimit .. | .setIdle _ | .abortedArrival _ => next

/-- The occasions of a history. -/
def occasions (next : Ticket) : List Operation → List Occasion
  | [] => []
  | op :: ops => ⟨next, op⟩ :: occasions (op.nextAfter next) ops

/-- On the occasion one of the calls arrives, and has to wait. -/
def Occasion.brings (p : Ticket → Bool) (o : Occasion) : Bool :=
  match o.op with
  | .enqueue .. => p o.next
  | _ => false

/-- The calls that are admitted. -/
def Answer.admitted : Answer → List Ticket
  | .promoted admitted _ => admitted
  | .arrived _ | .done | .refused _ | .panicked _ => []

/-- What comes of an occasion: the answer, and the queue after it. -/
structure Sequel (σ : Type) where
  occasion : Occasion
  answer : Answer
  queue : σ
deriving DecidableEq, Repr

namespace Interface

variable {σ : Type}

/-- What comes of occasions, one after the other. -/
def recount (I : Interface σ) (q : σ) : List Occasion → List (Sequel σ)
  | [] => []
  | o :: os =>
    let r := I.step ⟨q, o.next⟩ o.op
    ⟨o, r.2, r.1.queue⟩ :: recount I r.1.queue os

/-- The next call's ticket is a matter of the operation alone. -/
theorem step_next (I : Interface σ) (s : Ticketed σ) (op : Operation) :
    (I.step s op).1.next = op.nextAfter s.next := by
  cases op with
  | enqueue | enqueueSync | promote | setIdle | abortedArrival => rfl
  | finish t =>
    simp only [step, Operation.nextAfter]
    cases I.finish? s.queue t <;> rfl
  | finishSync t =>
    simp only [step, Operation.nextAfter]
    cases I.finishSync? s.queue t <;> rfl
  | setLimit limit n =>
    simp only [step, Operation.nextAfter]
    cases I.setLimit s.queue limit n <;> rfl

/-- What comes of the occasions of a history is what the history plays. -/
theorem map_recount_occasions (I : Interface σ) (s : Ticketed σ) (ops : List Operation) :
    (I.recount s.queue (occasions s.next ops)).map (fun r => (r.answer, I.view r.queue)) =
      I.play s ops := by
  induction ops generalizing s with
  | nil => rfl
  | cons op ops ih =>
    have hrest := ih (I.step s op).1
    rw [step_next] at hrest
    simp only [occasions, recount, play, List.map_cons, hrest]

end Interface

end Queue

/-! ## operations and calls that are left out -/

namespace PlainQueue

open Queue (Operation Interface Ticketed plainly)

variable {p : Ticket → Bool} {q : PlainQueue}

/-- A call that is left out does not arrive. -/
theorem without_enqueue_of_pos {t : Ticket} (ht : p t = true) (host : Host) (duplex : Bool) :
    (q.enqueue t host duplex).without p = q.without p := by
  simp [enqueue, without, ht]

theorem without_enqueue_of_neg {t : Ticket} (ht : p t = false) (host : Host) (duplex : Bool) :
    (q.enqueue t host duplex).without p = (q.without p).enqueue t host duplex := by
  simp [enqueue, without, ht]

/-- A scan that admits none of the calls admits the same ones without them, and leaves the others
waiting. -/
theorem scan_without (p : Ticket → Bool) (q : PlainQueue) (ms : List Member)
    (h : ∀ m ∈ (q.scan ms).2.1, p m.call = false) :
    (q.without p).scan (ms.filter (!p ·.call)) =
      ((q.scan ms).1.without p, (q.scan ms).2.1, (q.scan ms).2.2.filter (!p ·.call)) := by
  induction q, ms using scan.induct with
  | case1 q => rfl
  | case2 q m rest hroom hmay ih =>
    rw [scan, if_pos hroom, if_pos hmay] at h ⊢
    obtain ⟨hm, hrest⟩ := List.forall_mem_cons.1 h
    have hletIn : (q.without p).scan (m :: rest.filter (!p ·.call)) = _ :=
      (if_pos hroom).trans (if_pos hmay)
    rw [List.filter_cons_of_pos (by simp [hm]), hletIn]
    have hafter := ih hrest
    simp only [without] at hafter ⊢
    rw [hafter]
  | case3 q m rest hroom hmay ih =>
    rw [scan, if_pos hroom, if_neg hmay] at h ⊢
    have hafter := ih h
    cases hm : p m.call with
    | true =>
      -- the call is passed over, and there is nothing to pass over without it
      rw [List.filter_cons_of_neg (by simp [hm]), List.filter_cons_of_neg (by simp [hm])]
      exact hafter
    | false =>
      have hskip : (q.without p).scan (m :: rest.filter (!p ·.call)) = _ :=
        (if_pos hroom).trans (if_neg hmay)
      rw [List.filter_cons_of_pos (by simp [hm]), List.filter_cons_of_pos (by simp [hm]), hskip,
        hafter]
  | case4 q m rest hroom =>
    have hfull : ∀ ms, (q.without p).scan ms = (q.without p, [], ms) := by
      intro ms
      cases ms with
      | nil => rfl
      | cons m ms => exact if_neg hroom
    rw [scan, if_neg hroom, hfull]

/-- A pass that admits none of the calls does the same without them. -/
theorem promote_without (h : ∀ t ∈ q.promote.2.1, p t = false) :
    (q.without p).promote = (q.promote.1.without p, q.promote.2) := by
  have hpromoted : q.promote.2.1 = (q.scan q.ready).2.1.map (·.call) := by
    simp only [promote]
    split <;> rfl
  rw [hpromoted, List.forall_mem_map] at h
  have hscan : (q.without p).scan (q.without p).ready = _ := scan_without p q q.ready h
  change (q.without p).promote = Prod.map (without p) id q.promote
  simp only [promote, hscan]
  -- what is due is a matter of the running calls
  rw [apply_ite (Prod.map (without p) id)]
  rfl

/-- The same calls can depart. -/
theorem finish?_without (q : PlainQueue) (t : Ticket) :
    (q.without p).finish? t = (q.finish? t).map (without p) := by
  unfold finish?
  rw [apply_ite (Option.map (without p))]
  rfl

theorem finishSync?_without (q : PlainQueue) (t : Ticket) :
    (q.without p).finishSync? t = (q.finishSync? t).map (without p) := by
  unfold finishSync?
  rw [apply_ite (Option.map (without p))]
  rfl

/-- The same limits are refused. -/
theorem setLimit_without (q : PlainQueue) (limit : Limit) (n : UInt64) :
    (q.without p).setLimit limit n = (q.setLimit limit n).map (without p) := by
  unfold setLimit
  rw [apply_ite (Except.map (without p))]
  rfl

/-- An operation that brings none of the calls and admits none of them has the same answer without
them, and leaves the same queue. -/
theorem step_without {next : Ticket} {op : Operation}
    (hop : (Queue.Occasion.mk next op).brings p = false)
    (hpromoted : ∀ t ∈ (plainly.step ⟨q, next⟩ op).2.admitted, p t = false) :
    plainly.step ⟨q.without p, next⟩ op =
      (⟨(plainly.step ⟨q, next⟩ op).1.queue.without p, (plainly.step ⟨q, next⟩ op).1.next⟩,
        (plainly.step ⟨q, next⟩ op).2) := by
  cases op with
  | enqueue host duplex =>
    have hnext : p next = false := hop
    simp only [Interface.step, plainly, without_enqueue_of_neg hnext]
  | enqueueSync host => rfl
  | promote =>
    have hpass : (q.without p).promote = _ := promote_without hpromoted
    simp only [Interface.step, plainly, hpass]
  | finish t =>
    simp only [Interface.step, plainly, finish?_without]
    cases q.finish? t <;> rfl
  | finishSync t =>
    simp only [Interface.step, plainly, finishSync?_without]
    cases q.finishSync? t <;> rfl
  | setLimit limit n =>
    simp only [Interface.step, plainly, setLimit_without]
    cases q.setLimit limit n <;> rfl
  | setIdle idle => rfl
  | abortedArrival message => rfl

end PlainQueue

namespace Queue

variable {p : Ticket → Bool}

/-! ## occasions one after the other -/

/-- What comes of an occasion, seen without the counters. -/
def Sequel.plain (r : Sequel Queue) : Sequel PlainQueue := ⟨r.occasion, r.answer, r.queue.plain⟩

/-- What comes of an occasion, seen without some of the waiting calls. -/
def Sequel.without (p : Ticket → Bool) (r : Sequel PlainQueue) : Sequel PlainQueue :=
  { r with queue := r.queue.without p }

/-- Without the counters, what comes of occasions on which none of the calls is admitted is the same
if they do not arrive. -/
theorem recount_without {q : PlainQueue} {os : List Occasion}
    (h : ∀ r ∈ plainly.recount q os, ∀ t ∈ r.answer.admitted, p t = false) :
    plainly.recount (q.without p) (os.filter (!·.brings p)) =
      ((plainly.recount q os).filter (!·.occasion.brings p)).map (Sequel.without p) := by
  induction os generalizing q with
  | nil => rfl
  | cons o os ih =>
    obtain ⟨hfirst, hrest⟩ := List.forall_mem_cons.1 h
    have hafter := ih hrest
    cases ho : o.brings p with
    | true =>
      obtain ⟨next, op⟩ := o
      cases op with
      | enqueue host duplex =>
        have hnext : p next = true := ho
        simp only [Interface.step, plainly, PlainQueue.without_enqueue_of_pos hnext] at hafter
        rw [List.filter_cons_of_neg (by simp [ho]), Interface.recount,
          List.filter_cons_of_neg (by simp [ho])]
        exact hafter
      | _ => cases ho
    | false =>
      have hstep := PlainQueue.step_without ho hfirst
      rw [List.filter_cons_of_pos (by simp [ho]), Interface.recount, Interface.recount,
        List.filter_cons_of_pos (by simp [ho]), hstep, List.map_cons, hafter]
      rfl

/-- Tickets are given in order; some may be left out. -/
def Ascending (next : Ticket) : List Occasion → Prop
  | [] => True
  | o :: os => next ≤ o.next ∧ Ascending (o.op.nextAfter o.next) os

theorem Operation.le_nextAfter (op : Operation) (next : Ticket) : next ≤ op.nextAfter next := by
  cases op <;> simp [nextAfter]

theorem Ascending.mono {os : List Occasion} {next earlier : Ticket} (h : Ascending next os)
    (hle : earlier ≤ next) : Ascending earlier os := by
  cases os with
  | nil => trivial
  | cons o os => exact ⟨Nat.le_trans hle h.1, h.2⟩

theorem ascending_occasions (next : Ticket) (ops : List Operation) :
    Ascending next (occasions next ops) := by
  induction ops generalizing next with
  | nil => trivial
  | cons op ops ih => exact ⟨Nat.le_refl next, ih (op.nextAfter next)⟩

/-- Occasions that are left out leave the tickets in order. -/
theorem Ascending.filter {os : List Occasion} {next : Ticket} (h : Ascending next os)
    (keep : Occasion → Bool) : Ascending next (os.filter keep) := by
  induction os generalizing next with
  | nil => trivial
  | cons o os ih =>
    cases hkeep : keep o with
    | true =>
      rw [List.filter_cons_of_pos hkeep]
      exact ⟨h.1, ih h.2⟩
    | false =>
      rw [List.filter_cons_of_neg (by simp [hkeep])]
      exact (ih h.2).mono (Nat.le_trans h.1 (o.op.le_nextAfter o.next))

/-- Tickets may be left out. -/
theorem Sound.mono {q : Queue} {next later : Ticket} (h : Sound ⟨q, next⟩) (hle : next ≤ later) :
    Sound ⟨q, later⟩ :=
  ⟨h.coherent.mono hle, h.nodup, fun t ht => Nat.lt_of_lt_of_le (h.below t ht) hle⟩

/-- What comes of occasions is the same without the counters. -/
theorem map_plain_recount {q : Queue} {next : Ticket} (hq : Sound ⟨q, next⟩) {os : List Occasion}
    (hos : Ascending next os) :
    (counted.recount q os).map Sequel.plain = plainly.recount q.plain os := by
  induction os generalizing q next with
  | nil => rfl
  | cons o os ih =>
    have hsound : Sound ⟨q, o.next⟩ := hq.mono hos.1
    have hplain := plain_step hsound.coherent.sharing hsound.coherent.tally o.op
    have hafter : Sound ⟨(counted.step ⟨q, o.next⟩ o.op).1.queue, o.op.nextAfter o.next⟩ := by
      rw [← counted.step_next ⟨q, o.next⟩ o.op]
      exact hsound.step o.op
    simp only [Interface.recount, List.map_cons, ih hafter hos.2, hplain]
    rfl

/-- **Concealment.** Whatever the limits are and however a history goes, which its occasions recount:
if none of the calls is ever admitted, the history without their arrivals has the same answers, and
leaves the same queue after each of its operations, but for the calls themselves, which do not wait
there. -/
theorem recount_of_concealed (limits : Limits) (ops : List Operation) (p : Ticket → Bool)
    (h : ∀ r ∈ counted.recount { limits } (occasions 0 ops),
      ∀ t ∈ r.answer.admitted, p t = false) :
    (counted.recount { limits } (occasions 0 ops)).map (fun r => (r.answer, counted.view r.queue)) =
        counted.play ⟨{ limits }, 0⟩ ops ∧
      (counted.recount { limits } ((occasions 0 ops).filter (!·.brings p))).map Sequel.plain =
        ((counted.recount { limits } (occasions 0 ops)).filter (!·.occasion.brings p)).map
          (fun r => r.plain.without p) := by
  refine ⟨counted.map_recount_occasions ⟨{ limits }, 0⟩ ops, ?_⟩
  have hempty := Sound.empty limits
  have hall := ascending_occasions 0 ops
  have hplain := map_plain_recount hempty hall
  have hpromoted : ∀ r ∈ (counted.recount { limits } (occasions 0 ops)).map Sequel.plain,
      ∀ t ∈ r.answer.admitted, p t = false := List.forall_mem_map.2 h
  rw [hplain] at hpromoted
  have hfewer := recount_without hpromoted
  rw [← hplain, List.filter_map, List.map_map] at hfewer
  rw [map_plain_recount hempty (hall.filter _)]
  exact hfewer

/-- A history in which the second call waits in vain: first its host is full, then all slots are
taken. The call that arrives after it shares its counter, and would have one of its own without
it. -/
def vainHistory : List Operation :=
  [.enqueue ⟨"a"⟩ false, .enqueue ⟨"a"⟩ false, .enqueue ⟨"b"⟩ false, .promote,
    .finish 0, .enqueueSync ⟨"c"⟩, .promote,
    .enqueue ⟨"a"⟩ false, .finish 1, .setLimit .total 0, .setIdle (some 7), .promote]

theorem recount_of_vainHistory :
    (∀ r ∈ counted.recount { limits := ⟨2, 1⟩ } (occasions 0 vainHistory),
        ∀ t ∈ r.answer.admitted, (t == 1) = false) ∧
      (counted.recount { limits := ⟨2, 1⟩ } (occasions 0 vainHistory)).map
          (fun r => (r.answer, counted.view r.queue)) =
        counted.play ⟨{ limits := ⟨2, 1⟩ }, 0⟩ vainHistory ∧
      (counted.recount { limits := ⟨2, 1⟩ }
          ((occasions 0 vainHistory).filter (!·.brings (· == 1)))).map Sequel.plain =
        ((counted.recount { limits := ⟨2, 1⟩ } (occasions 0 vainHistory)).filter
          (!·.occasion.brings (· == 1))).map (fun r => r.plain.without (· == 1)) := by
  have hvain : ∀ r ∈ counted.recount { limits := ⟨2, 1⟩ } (occasions 0 vainHistory),
      ∀ t ∈ r.answer.admitted, (t == 1) = false := by decide
  exact ⟨hvain, recount_of_concealed ⟨2, 1⟩ vainHistory (· == 1) hvain⟩

end Queue

end CallAdmission
