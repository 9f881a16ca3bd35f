import CallAdmission.Proofs.Queue.Admission
import CallAdmission.Proofs.Queue.Concealment
import CallAdmission.Proofs.Queue.Settled

/-!
# CallAdmission.Proofs.Queue.Resumption

Promotion can be broken off and taken up again. A pass under a small total limit, followed by one
under a larger limit, does what a single pass under the larger limit does; and calls that arrive in
between may as well be there from the beginning. This is why passes that are asked for one after the
other can be folded into one.

The second pass looks once more at the calls that the first one passed over. They are still in front
of those that it never looked at, and their hosts are still full.

* `scan_resume` — a scan that is broken off and taken up again;
* `promote_resume` — the same for a whole pass, with the busy mark;
* `resumed_of_history` — after every history, for every two limits and all arrivals;
* `run_singly_ne_run_together_nil` — without an arrival there is only one pass to compare.
-/

namespace CallAdmission.Queue

variable {q : Queue} {m m' : UInt64} {next : Ticket}

/-! ## queues that differ in what a scan leaves alone -/

/-- The queue under another total limit. -/
def under (q : Queue) (m : UInt64) : Queue := { q with limits := q.limits.set .total m }

/-- The queue with more waiting calls behind the others. -/
def behind (q : Queue) (es : List Entry) : Queue := { q with ready := q.ready ++ es }

@[simp] theorem under_under (q : Queue) (m m' : UInt64) : (q.under m).under m' = q.under m' := rfl

@[simp] theorem under_self (q : Queue) : q.under q.limits.maxRequests = q := rfl

@[simp] theorem behind_nil (q : Queue) : q.behind [] = q := by simp [behind]

theorem behind_behind (q : Queue) (es fs : List Entry) :
    (q.behind es).behind fs = q.behind (es ++ fs) := by simp [behind]

/-- A limit of at least one is one that the queue can be given. -/
theorem setLimit_total (q : Queue) (h : 1 ≤ m) : q.setLimit .total m = .ok (q.under m) :=
  setLimit_eq_ok_iff.2 ⟨h, rfl⟩

/-- What fits under a limit fits under a larger one. -/
theorem hasRoom_under (hm : m ≤ m') (h : (q.under m).hasRoom = true) :
    (q.under m').hasRoom = true := by
  rw [UInt64.le_iff_toNat_le] at hm
  have hless : q.runningCount < m.toNat := of_decide_eq_true h
  exact decide_eq_true (Nat.lt_of_lt_of_le hless hm)

/-- A scan does not look at the list of waiting calls, nor at the busy mark. -/
theorem scan_with (q : Queue) (ready : List Entry) (busy : Bool) (es : List Entry) :
    { q with ready, busy }.scan es =
      ({ (q.scan es).1 with ready, busy }, (q.scan es).2) := by
  induction es generalizing q with
  | nil => rfl
  | cons e es ih =>
    have hsat : { q with ready, busy }.isSaturated e = q.isSaturated e := rfl
    have hroom : { q with ready, busy }.hasRoom = q.hasRoom := rfl
    have hadmit : { q with ready, busy }.letIn e = { q.letIn e with ready, busy } := rfl
    simp only [scan, hsat, hroom, hadmit, ih]
    split
    · split <;> rfl
    · rfl

/-! ## scans that are broken off -/

/-- A call whose host is full is left in front, whether there is room or not. -/
theorem scan_cons_of_saturated {e : Entry} (h : q.isSaturated e = true) (es : List Entry) :
    q.scan (e :: es) = ((q.scan es).1, (q.scan es).2.1, e :: (q.scan es).2.2) := by
  by_cases hroom : q.hasRoom = true
  · simp [scan, hroom, h]
  · simp [scan_of_full (Bool.eq_false_iff.2 hroom)]

/-- A scan that ends under a small limit is taken up again under a larger one, with more calls at
the end: the two admit what a single scan admits, and leave what it leaves. -/
theorem scan_resume (q : Queue) (hm : m ≤ m') (es fs : List Entry) :
    let r := (q.under m).scan es
    let r' := (r.1.under m').scan (r.2.2 ++ fs)
    (q.under m').scan (es ++ fs) = (r'.1, r.2.1 ++ r'.2.1, r'.2.2) := by
  induction es generalizing q with
  | nil => rfl
  | cons e es ih =>
    by_cases hroom : (q.under m).hasRoom = true
    · have hroom' := hasRoom_under hm hroom
      by_cases hsat : (q.under m).isSaturated e = true
      · -- the call is passed over by the first scan, and again by the second
        have hsat' : (q.under m').isSaturated e = true := hsat
        have hlater : (((q.under m).scan es).1.under m').isSaturated e = true :=
          isSaturated_scan hsat es
        simp only [List.cons_append, scan_cons_of_saturated hsat, scan_cons_of_saturated hsat',
          scan_cons_of_saturated hlater, ih q]
      · have hsat' : ¬ (q.under m').isSaturated e = true := hsat
        have hrest := ih (q.letIn e)
        have hadmit : (q.under m).letIn e = (q.letIn e).under m := rfl
        have hadmit' : (q.under m').letIn e = (q.letIn e).under m' := rfl
        have hsame : (q.under m').admission e = (q.under m).admission e := rfl
        simp only [List.cons_append, scan, hroom, hroom', hsat, hsat', hadmit, hadmit', hsame,
          hrest, if_true, Bool.false_eq_true, if_false]
    · -- the first scan stops here, and the second does all the rest
      simp [scan_of_full (Bool.eq_false_iff.2 hroom)]

/-! ## passes that are broken off -/

/-- What a pass admits, and what it leaves, but for the busy mark. -/
theorem promote_with {p : Queue} {ready : List Entry} {busy : Bool}
    (h : q = { p with ready, busy }) :
    q.promote.admitted = (p.scan ready).2.1 ∧
      q.promote.queue =
        { (p.scan ready).1 with ready := (p.scan ready).2.2, busy := q.promote.queue.busy } := by
  have hscan : q.scan q.ready = ({ (p.scan ready).1 with ready, busy }, (p.scan ready).2) := by
    rw [h, scan_with p ready busy ready]
  constructor
  · show (q.scan q.ready).2.1 = _
    rw [hscan]
  · have hqueue := promote_queue q
    rw [hscan] at hqueue
    exact hqueue

/-- The busy mark after two passes is that after a single one. -/
theorem busy_resume {busy : Bool} {a a' : List Admission} {count : Nat} (ha : count = 0 → a = []) :
    ((((busy || !a.isEmpty) && decide (count ≠ 0)) || !a'.isEmpty) &&
        decide (count + a'.length ≠ 0)) =
      ((busy || !(a ++ a').isEmpty) && decide (count + a'.length ≠ 0)) := by
  by_cases hcount : count = 0
  · rw [ha hcount]
    cases a' <;> simp [hcount]
  · cases a <;> simp [hcount]

/-- **Resumption.** A pass under a small limit and one under a larger limit, with calls that arrive
in between, leave the queue as a single pass under the larger limit would, had the calls been there
from the beginning; and they admit the same calls. -/
theorem promote_resume (q : Queue) (hm : m ≤ m') (es : List Entry) :
    let first := (q.under m).promote
    let second := ((first.queue.under m').behind es).promote
    let once := ((q.under m').behind es).promote
    second.queue = once.queue ∧ first.admitted ++ second.admitted = once.admitted := by
  intro first second once
  have hfirst : (first.queue.under m').behind es =
      { ((q.under m).scan q.ready).1.under m' with
        ready := ((q.under m).scan q.ready).2.2 ++ es, busy := first.queue.busy } :=
    congrArg (fun p : Queue => (p.under m').behind es) (promote_queue (q.under m))
  have hboth : (q.under m').behind es =
      { q.under m' with ready := q.ready ++ es, busy := q.busy } := rfl
  obtain ⟨hsecond, hqueue⟩ := promote_with hfirst
  obtain ⟨honce, hqueue'⟩ := promote_with hboth
  rw [scan_resume q hm q.ready es] at honce hqueue'
  have hadmitted : first.admitted ++ second.admitted = once.admitted := by
    show first.admitted ++ ((first.queue.under m').behind es).promote.admitted =
      ((q.under m').behind es).promote.admitted
    rw [hsecond, honce]
    rfl
  refine ⟨?_, hadmitted⟩
  have hbusy : second.queue.busy = once.queue.busy := by
    have hcount : second.queue.runningCount =
        first.queue.runningCount + second.admitted.length :=
      runningCount_promote ((first.queue.under m').behind es)
    have hcount' : once.queue.runningCount =
        first.queue.runningCount + second.admitted.length := by
      have hall : once.queue.runningCount = q.runningCount + once.admitted.length :=
        runningCount_promote ((q.under m').behind es)
      have hbefore : first.queue.runningCount = q.runningCount + first.admitted.length :=
        runningCount_promote (q.under m)
      rw [hall, ← hadmitted, List.length_append, hbefore, Nat.add_assoc]
    have hmark : first.queue.busy =
        ((q.busy || !first.admitted.isEmpty) && decide (first.queue.runningCount ≠ 0)) :=
      promote_busy (q.under m)
    have hmark' : second.queue.busy =
        ((first.queue.busy || !second.admitted.isEmpty) &&
          decide (second.queue.runningCount ≠ 0)) :=
      promote_busy ((first.queue.under m').behind es)
    have hmark'' : once.queue.busy =
        ((q.busy || !once.admitted.isEmpty) && decide (once.queue.runningCount ≠ 0)) :=
      promote_busy ((q.under m').behind es)
    rw [hmark', hmark'', hmark, hcount, hcount', ← hadmitted]
    exact busy_resume admitted_eq_nil_of_runningCount
  calc second.queue
    _ = { once.queue with busy := second.queue.busy } := by
      rw [hqueue', hqueue]
    _ = once.queue := by rw [hbusy]

/-- What a pass admits under a small limit is a beginning of what it admits under a larger one. -/
theorem promote_admitted_prefix (q : Queue) (hm : m ≤ m') :
    (q.under m).promote.admitted <+: (q.under m').promote.admitted := by
  have hboth := (promote_resume q hm []).2
  simp only [behind_nil] at hboth
  exact ⟨_, hboth⟩

/-- Calls that arrive after a pass may as well be there before it, if another pass follows. -/
theorem promote_behind (q : Queue) (es : List Entry) :
    (q.promote.queue.behind es).promote.queue = (q.behind es).promote.queue ∧
      q.promote.admitted ++ (q.promote.queue.behind es).promote.admitted =
        (q.behind es).promote.admitted := by
  have hsame : q.promote.queue.under q.limits.maxRequests = q.promote.queue := by
    rw [← promote_limits q, under_self]
  have hboth := promote_resume q (UInt64.le_refl q.limits.maxRequests) es
  simp only [under_self, hsame] at hboth
  exact hboth

/-! ## calls that arrive between passes -/

/-- A call that is about to arrive. -/
structure Arrival where
  host : Host
  duplex : Bool := false
deriving DecidableEq, Repr

/-- The call arrives. -/
def Arrival.op (r : Arrival) : Operation := .enqueue r.host r.duplex

/-- The calls arrive, and a pass follows when all are there. -/
def together (rs : List Arrival) : List Operation := rs.map Arrival.op ++ [.promote]

/-- The calls arrive, and a pass follows each of them. -/
def singly (rs : List Arrival) : List Operation := rs.flatMap fun r => [r.op, .promote]

/-- The calls that a history admits, in order. -/
def admittedBy (s : Ticketed Queue) (ops : List Operation) : List Ticket :=
  (counted.play s ops).flatMap fun r => r.1.admitted

/-- The counter that a new call uses is a matter of the calls that hold one. -/
theorem Coherent.counterFor_congr {q' : Queue} (h : q.Coherent next)
    (hmem : ∀ e, e ∈ q'.holders ↔ e ∈ q.holders) (t : Ticket) (host : Host) (duplex : Bool) :
    q'.counterFor t host duplex = q.counterFor t host duplex := by
  have hshared : q'.sharedCounter host = q.sharedCounter host := by
    cases hold : q.sharedCounter host with
    | none =>
      rw [Option.eq_none_iff_forall_not_mem]
      intro name hname
      obtain ⟨e, he, hd, hhost, -⟩ := sharedCounter_eq_some hname
      exact sharedCounter_eq_none hold e ((hmem e).1 he) hd hhost
    | some name =>
      obtain ⟨e, he, hd, rfl, rfl⟩ := sharedCounter_eq_some hold
      cases hnew : q'.sharedCounter e.host with
      | none => exact absurd rfl (sharedCounter_eq_none hnew e ((hmem e).2 he) hd)
      | some name =>
        -- two rivals of the new call are rivals of each other
        obtain ⟨f, hf, hfd, hhost, rfl⟩ := sharedCounter_eq_some hnew
        have hcounter : f.counter = e.counter :=
          (h.sharing f ((hmem f).1 hf) e he).2 (.inr ⟨hfd, hd, hhost⟩)
        rw [hcounter]
  rw [counterFor, counterFor, hshared]

/-- Calls that arrive stand behind the others, with the same counters in two queues that have the
same calls. -/
theorem run_arrivals {q' : Queue} (h : q.Coherent next) (h' : q'.Coherent next)
    (hmem : ∀ e, e ∈ q'.holders ↔ e ∈ q.holders) (rs : List Arrival) :
    ∃ es, counted.run ⟨q, next⟩ (rs.map Arrival.op) = ⟨q.behind es, next + rs.length⟩ ∧
      counted.run ⟨q', next⟩ (rs.map Arrival.op) = ⟨q'.behind es, next + rs.length⟩ := by
  induction rs generalizing q q' next with
  | nil => exact ⟨[], by simp [Interface.run], by simp [Interface.run]⟩
  | cons r rs ih =>
    have hcounter := h.counterFor_congr hmem next r.host r.duplex
    have hafter : ∀ e, e ∈ (q'.enqueue next r.host r.duplex).holders ↔
        e ∈ (q.enqueue next r.host r.duplex).holders := by
      intro e
      rw [holders_enqueue, holders_enqueue, List.mem_append, List.mem_append, hmem, hcounter]
    obtain ⟨es, hrun, hrun'⟩ :=
      ih (h.enqueue r.host r.duplex) (h'.enqueue r.host r.duplex) hafter
    let e : Entry := ⟨next, r.host, r.duplex, q.counterFor next r.host r.duplex⟩
    have hqueue : q.enqueue next r.host r.duplex = q.behind [e] := rfl
    have hqueue' : q'.enqueue next r.host r.duplex = q'.behind [e] := by
      rw [enqueue, hcounter]
      rfl
    have hlength : next + (r :: rs).length = next + 1 + rs.length :=
      (Nat.succ_add_eq_add_succ next rs.length).symm
    refine ⟨[e] ++ es, ?_⟩
    rw [hlength, ← behind_behind, ← behind_behind, ← hqueue, ← hqueue']
    exact ⟨hrun, hrun'⟩

/-- Nothing is admitted by an arrival. -/
theorem admittedBy_arrivals (s : Ticketed Queue) (rs : List Arrival) (ops : List Operation) :
    admittedBy s (rs.map Arrival.op ++ ops) =
      admittedBy (counted.run s (rs.map Arrival.op)) ops := by
  induction rs generalizing s with
  | nil => rfl
  | cons r rs ih => exact ih (counted.step s r.op).1

/-- The first call arrives, a pass follows it, and then it is the others' turn. -/
theorem run_singly_cons (q : Queue) (next : Ticket) (r : Arrival) (rs : List Arrival) :
    counted.run ⟨q, next⟩ (singly (r :: rs)) =
      counted.run ⟨(q.enqueue next r.host r.duplex).promote.queue, next + 1⟩ (singly rs) := rfl

theorem admittedBy_singly_cons (q : Queue) (next : Ticket) (r : Arrival) (rs : List Arrival) :
    admittedBy ⟨q, next⟩ (singly (r :: rs)) =
      (q.enqueue next r.host r.duplex).promote.admitted.map (·.entry.call) ++
        admittedBy ⟨(q.enqueue next r.host r.duplex).promote.queue, next + 1⟩ (singly rs) := rfl

/-- The first call is the first to arrive when the others arrive at once, too. -/
theorem run_together_cons (q : Queue) (next : Ticket) (r : Arrival) (rs : List Arrival) :
    counted.run ⟨q, next⟩ (together (r :: rs)) =
      counted.run ⟨q.enqueue next r.host r.duplex, next + 1⟩ (together rs) := rfl

theorem admittedBy_together_cons (q : Queue) (next : Ticket) (r : Arrival) (rs : List Arrival) :
    admittedBy ⟨q, next⟩ (together (r :: rs)) =
      admittedBy ⟨q.enqueue next r.host r.duplex, next + 1⟩ (together rs) := rfl

theorem run_promote (q : Queue) (next : Ticket) :
    counted.run ⟨q, next⟩ [.promote] = ⟨q.promote.queue, next⟩ := rfl

theorem admittedBy_promote (q : Queue) (next : Ticket) (ops : List Operation) :
    admittedBy ⟨q, next⟩ (.promote :: ops) =
      q.promote.admitted.map (·.entry.call) ++ admittedBy ⟨q.promote.queue, next⟩ ops := rfl

theorem run_together (s : Ticketed Queue) (rs : List Arrival) :
    counted.run s (together rs) = counted.run (counted.run s (rs.map Arrival.op)) [.promote] := by
  induction rs generalizing s with
  | nil => rfl
  | cons r rs ih => exact ih (counted.step s r.op).1

theorem admittedBy_together (s : Ticketed Queue) (rs : List Arrival) :
    admittedBy s (together rs) = admittedBy (counted.run s (rs.map Arrival.op)) [.promote] :=
  admittedBy_arrivals s rs [.promote]

/-- Calls that arrive after a pass, with or without one more pass in the end. -/
theorem together_promote (h : q.Coherent next) (rs : List Arrival) :
    counted.run ⟨q.promote.queue, next⟩ (together rs) = counted.run ⟨q, next⟩ (together rs) ∧
      q.promote.admitted.map (·.entry.call) ++
          admittedBy ⟨q.promote.queue, next⟩ (together rs) =
        admittedBy ⟨q, next⟩ (together rs) := by
  obtain ⟨es, hrun, hrun'⟩ := run_arrivals h h.promote (mem_holders_promote q) rs
  obtain ⟨hqueue, hadmitted⟩ := promote_behind q es
  rw [run_together, run_together, admittedBy_together, admittedBy_together, hrun, hrun',
    run_promote, run_promote, hqueue, admittedBy_promote, admittedBy_promote, ← hadmitted]
  exact ⟨rfl, by simp [admittedBy, Interface.play]⟩

/-- After a pass, a pass for each arrival does what a single pass would do that had the calls before
it. -/
theorem singly_promote (h : q.Coherent next) (rs : List Arrival) :
    counted.run ⟨q.promote.queue, next⟩ (singly rs) = counted.run ⟨q, next⟩ (together rs) ∧
      q.promote.admitted.map (·.entry.call) ++ admittedBy ⟨q.promote.queue, next⟩ (singly rs) =
        admittedBy ⟨q, next⟩ (together rs) := by
  induction rs generalizing q next with
  | nil =>
    refine ⟨rfl, ?_⟩
    rw [together, List.map_nil, List.nil_append, admittedBy_promote]
    rfl
  | cons r rs ih =>
    obtain ⟨hrun, hadmitted⟩ := ih (h.promote.enqueue r.host r.duplex)
    obtain ⟨hrun', hadmitted'⟩ := together_promote h (r :: rs)
    constructor
    · rw [run_singly_cons, hrun, ← run_together_cons, hrun']
    · rw [admittedBy_singly_cons, hadmitted, ← admittedBy_together_cons, hadmitted']

/-- **Batching.** A pass for each arrival comes to the same as one pass for all of them, unless
there is no arrival and a pass would change something. -/
theorem singly_eq_together_iff (h : q.Coherent next) (rs : List Arrival) :
    (counted.run ⟨q, next⟩ (singly rs) = counted.run ⟨q, next⟩ (together rs) ∧
        admittedBy ⟨q, next⟩ (singly rs) = admittedBy ⟨q, next⟩ (together rs)) ↔
      (rs = [] → q.Served) := by
  cases rs with
  | nil =>
    have hiff := h.served_iff_promote_eq
    constructor
    · rintro ⟨hrun, -⟩ -
      exact hiff.2 (congrArg Ticketed.queue hrun).symm
    · intro hs
      have hpass := h.promote_of_served (hs rfl)
      have hone : together [] = [.promote] := rfl
      rw [hone, admittedBy_promote, run_promote, hpass]
      exact ⟨rfl, rfl⟩
  | cons r rs =>
    obtain ⟨hrun, hadmitted⟩ := singly_promote (h.enqueue r.host r.duplex) rs
    rw [run_singly_cons, admittedBy_singly_cons, hrun, hadmitted, ← run_together_cons,
      ← admittedBy_together_cons]
    exact ⟨fun _ => nofun, fun _ => ⟨rfl, rfl⟩⟩

/-- **Resumption.** After every history, whatever the limits are: a pass under a small total limit
and then one under a larger limit come to what a single pass under the larger limit does, and a
second pass under the same limits does nothing. Calls that arrive may each be followed by a pass, or
all of them by one. -/
theorem resumed_of_history (limits : Limits) (ops : List Operation) :
    let s := counted.run ⟨{ limits }, 0⟩ ops
    (∀ m m', m ≤ m' →
        let first := (s.queue.under m).promote
        let second := (first.queue.under m').promote
        let once := (s.queue.under m').promote
        second.queue = once.queue ∧ first.admitted ++ second.admitted = once.admitted ∧
          first.admitted <+: once.admitted ∧
          (1 ≤ m → s.queue.setLimit .total m = .ok (s.queue.under m)) ∧
          (1 ≤ m' → first.queue.setLimit .total m' = .ok (first.queue.under m') ∧
            s.queue.setLimit .total m' = .ok (s.queue.under m'))) ∧
      s.queue.promote.queue.promote = ⟨s.queue.promote.queue, [], none⟩ ∧
      ∀ rs : List Arrival,
        (counted.run s (singly rs) = counted.run s (together rs) ∧
            admittedBy s (singly rs) = admittedBy s (together rs)) ↔
          (rs = [] → s.queue.Served) := by
  intro s
  have h : s.queue.Coherent s.next := (Sound.run limits ops).coherent
  refine ⟨fun m m' hm => ?_, h.promote.promote_of_served h.served_promote,
    singly_eq_together_iff h⟩
  have hboth := promote_resume s.queue hm []
  simp only [behind_nil] at hboth
  exact ⟨hboth.1, hboth.2, promote_admitted_prefix s.queue hm, setLimit_total s.queue,
    fun hpos => ⟨setLimit_total _ hpos, setLimit_total s.queue hpos⟩⟩

/-- Two calls to one host and one to another wait, and no pass has been made. -/
def crowdedHistory : List Operation :=
  [.enqueue ⟨"a"⟩ false, .enqueue ⟨"a"⟩ false, .enqueue ⟨"b"⟩ false]

theorem resumed_of_crowdedHistory :
    let s := counted.run ⟨{ limits := ⟨1, 1⟩ }, 0⟩ crowdedHistory
    let first := (s.queue.under 1).promote
    let second := (first.queue.under 3).promote
    let once := (s.queue.under 3).promote
    let rs : List Arrival := [⟨⟨"b"⟩, false⟩, ⟨⟨"a"⟩, true⟩]
    (1 : UInt64) ≤ 3 ∧
      first.admitted.map (·.entry.call) = [0] ∧ second.admitted.map (·.entry.call) = [2] ∧
      second.queue = once.queue ∧ first.admitted ++ second.admitted = once.admitted ∧
      first.admitted <+: once.admitted ∧
      counted.run s (singly rs) = counted.run s (together rs) ∧
      admittedBy s (singly rs) = admittedBy s (together rs) := by
  intro s first second once rs
  have hle : (1 : UInt64) ≤ 3 := by decide
  obtain ⟨hpasses, -, harrivals⟩ := resumed_of_history ⟨1, 1⟩ crowdedHistory
  obtain ⟨hqueue, hadmitted, hbeginning, -⟩ := hpasses 1 3 hle
  exact ⟨hle, by decide, by decide, hqueue, hadmitted, hbeginning, (harrivals rs).2 nofun⟩

/-- Without an arrival there is no pass after it, and the waiting call goes on waiting. -/
theorem run_singly_ne_run_together_nil :
    let s := counted.run ⟨{ limits := ⟨1, 1⟩ }, 0⟩ [.enqueue ⟨"a"⟩ false]
    counted.run s (singly []) ≠ counted.run s (together []) ∧
      admittedBy s (singly []) ≠ admittedBy s (together []) := by
  decide

end CallAdmission.Queue
