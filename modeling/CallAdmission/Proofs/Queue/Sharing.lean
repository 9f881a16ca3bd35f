import CallAdmission.Queue.Snapshot

/-!
# CallAdmission.Proofs.Queue.Sharing

Which calls hold the same counter, and what a counter shows. A queue that is `Coherent` has its
counters right: two calls hold one counter exactly when both count against the limit of one host,
and a counter shows how many of the running calls hold it.

* `Coherent.load_eq` — the counter of a call that is not duplex shows the load of its host;
* `Coherent.counterFor_eq_iff` — a new call takes the counter of its host's calls, and no other;
* `Coherent.enqueue`, `Coherent.finish` — arrivals and departures keep a queue coherent.
-/

namespace CallAdmission

/-! ## who shares a counter -/

/-- Both calls count against the limit of one host. -/
def Entry.Rivals (e f : Entry) : Prop := e.duplex = false ∧ f.duplex = false ∧ e.host = f.host

/-- Two of the calls hold one counter exactly when they are rivals, or the same call. -/
def Sharing (es : List Entry) : Prop :=
  ∀ e ∈ es, ∀ f ∈ es, e.counter = f.counter ↔ e = f ∨ e.Rivals f

theorem Entry.Rivals.symm {e f : Entry} (h : e.Rivals f) : f.Rivals e := ⟨h.2.1, h.1, h.2.2.symm⟩

namespace Sharing

variable {es fs : List Entry} {e : Entry}

/-- Some of the calls share as all of them do. -/
theorem mono (h : Sharing es) (hsub : ∀ e ∈ fs, e ∈ es) : Sharing fs :=
  fun e he f hf => h e (hsub e he) f (hsub f hf)

/-- One more call, which shares as the others do. -/
theorem concat (h : Sharing es) (he : ∀ f ∈ es, f.counter = e.counter ↔ f = e ∨ f.Rivals e) :
    Sharing (es ++ [e]) := by
  intro f hf g hg
  rw [List.mem_append, List.mem_singleton] at hf hg
  rcases hf with hf | rfl <;> rcases hg with hg | rfl
  · exact h f hf g hg
  · exact he f hf
  · rw [eq_comm, he g hg, eq_comm]
    exact or_congr_right ⟨Entry.Rivals.symm, Entry.Rivals.symm⟩
  · simp

/-- Of the calls, those that hold the counter of one that is not duplex are those that count against
the limit of its host. -/
theorem countP_counter (h : Sharing es) (hfs : ∀ f ∈ fs, f ∈ es) (he : e ∈ es)
    (hd : e.duplex = false) :
    fs.countP (·.counter == e.counter) = fs.countP (Queue.isLimited e.host) := by
  apply List.countP_congr
  intro f hf
  simp only [beq_iff_eq, Queue.isLimited, Bool.and_eq_true, Bool.not_eq_true']
  rw [h f (hfs f hf) e he]
  constructor
  · rintro (rfl | ⟨hf, -, hhost⟩)
    · exact ⟨hd, rfl⟩
    · exact ⟨hf, hhost⟩
  · exact fun ⟨hf, hhost⟩ => .inr ⟨hf, hd, hhost⟩

/-- Of the calls, only a duplex call itself holds its counter. -/
theorem countP_counter_duplex (h : Sharing es) (hfs : ∀ f ∈ fs, f ∈ es) (he : e ∈ es)
    (hd : e.duplex = true) : fs.countP (·.counter == e.counter) = fs.count e := by
  rw [List.count]
  apply List.countP_congr
  intro f hf
  rw [beq_iff_eq, beq_iff_eq, h f (hfs f hf) e he]
  constructor
  · rintro (rfl | ⟨-, hd', -⟩)
    · rfl
    · exact absurd (hd.symm.trans hd') nofun
  · exact .inl

end Sharing

namespace Queue

/-! ## coherence -/

/-- The calls that hold a counter. -/
def holders (q : Queue) : List Entry := q.running ++ q.ready

/-- Every counter shows how many of the running calls hold it. -/
def Tallied (q : Queue) : Prop :=
  ∀ name, (q.counters.get name).running = q.running.countP (·.counter == name)

/-- The counters are right: they are shared as they should be, and show what they should show. Their
names are tickets before the next one. -/
structure Coherent (q : Queue) (next : Ticket) : Prop where
  sharing : Sharing q.holders
  tally : q.Tallied
  below : ∀ e ∈ q.holders, e.counter < next

variable {q : Queue} {e : Entry} {t next : Ticket} {host : Host} {duplex : Bool}

/-- A queue without calls is coherent. -/
theorem coherent_empty (limits : Limits) (next : Ticket) : Coherent { limits } next :=
  ⟨nofun, fun _ => rfl, nofun⟩

/-- Tickets may be left out. -/
theorem Coherent.mono {later : Ticket} (h : q.Coherent next) (hle : next ≤ later) :
    q.Coherent later :=
  ⟨h.sharing, h.tally, fun e he => Nat.lt_of_lt_of_le (h.below e he) hle⟩

/-- Coherence is a matter of the waiting and the running calls and of the counters. -/
theorem Coherent.frame {q' : Queue} (h : q.Coherent next) (hready : q'.ready = q.ready)
    (hrunning : q'.running = q.running) (hcounters : q'.counters = q.counters) :
    q'.Coherent next := by
  have hholders : q'.holders = q.holders := by rw [holders, hrunning, hready, holders]
  refine ⟨hholders ▸ h.sharing, fun name => ?_, hholders ▸ h.below⟩
  rw [hcounters, hrunning, h.tally]

/-- The counter of a call that is not duplex shows the load of its host. -/
theorem Coherent.load_eq (h : q.Coherent next) (he : e ∈ q.holders) (hd : e.duplex = false) :
    (q.counters.get e.counter).running = q.running.countP (isLimited e.host) := by
  rw [h.tally, h.sharing.countP_counter (fun _ => List.mem_append_left _) he hd]

/-- The counter of a duplex call shows whether the call runs. -/
theorem Coherent.load_duplex (h : q.Coherent next) (he : e ∈ q.holders) (hd : e.duplex = true) :
    (q.counters.get e.counter).running = q.running.count e := by
  rw [h.tally, h.sharing.countP_counter_duplex (fun _ => List.mem_append_left _) he hd]

/-! ## arrival -/

/-- Where calls to the host count against its limit, one of them gives the shared counter. -/
theorem sharedCounter_eq_some {name : Ticket} (h : q.sharedCounter host = some name) :
    ∃ e ∈ q.holders, e.duplex = false ∧ e.host = host ∧ e.counter = name := by
  obtain ⟨e, hfind, rfl⟩ := Option.map_eq_some_iff.1 h
  have hl := List.find?_some hfind
  simp only [isLimited, Bool.and_eq_true, Bool.not_eq_true', beq_iff_eq] at hl
  exact ⟨e, List.mem_of_find?_eq_some hfind, hl.1, hl.2, rfl⟩

/-- Without a shared counter no call counts against the limit of the host. -/
theorem sharedCounter_eq_none (h : q.sharedCounter host = none) :
    ∀ e ∈ q.holders, e.duplex = false → e.host ≠ host := by
  intro e he hd hhost
  have hl := List.find?_eq_none.1 (Option.map_eq_none_iff.1 h) e he
  simp [isLimited, hd, hhost] at hl

/-- The counter of a new call is its own, or that of an earlier call. -/
theorem Coherent.counterFor_le (h : q.Coherent next) (host : Host) (duplex : Bool) :
    q.counterFor next host duplex ≤ next := by
  unfold counterFor
  cases duplex with
  | true => exact Nat.le_refl next
  | false =>
    cases hs : q.sharedCounter host with
    | none => exact Nat.le_refl next
    | some name =>
      obtain ⟨e, he, -, -, rfl⟩ := sharedCounter_eq_some hs
      exact Nat.le_of_lt (h.below e he)

/-- A new call takes the counter of the calls that count against the same limit, and no other. -/
theorem Coherent.counterFor_eq_iff (h : q.Coherent next) (he : e ∈ q.holders) (host : Host)
    (duplex : Bool) :
    e.counter = q.counterFor next host duplex ↔
      e.duplex = false ∧ duplex = false ∧ e.host = host := by
  have hnew : e.counter ≠ next := Nat.ne_of_lt (h.below e he)
  unfold counterFor
  cases duplex with
  | true => simpa using hnew
  | false =>
    cases hs : q.sharedCounter host with
    | none =>
      have hnone := sharedCounter_eq_none hs e he
      constructor
      · exact fun hc => absurd hc hnew
      · exact fun ⟨hd, _, hhost⟩ => absurd hhost (hnone hd)
    | some name =>
      obtain ⟨f, hf, hfd, rfl, rfl⟩ := sharedCounter_eq_some hs
      simp only [Bool.false_eq_true, if_false, Option.getD_some,
        h.sharing e he f hf]
      constructor
      · rintro (rfl | ⟨hd, -, hhost⟩)
        · exact ⟨hfd, trivial, rfl⟩
        · exact ⟨hd, trivial, hhost⟩
      · exact fun ⟨hd, _, hhost⟩ => .inr ⟨hd, hfd, hhost⟩

theorem holders_enqueue (q : Queue) (t : Ticket) (host : Host) (duplex : Bool) :
    (q.enqueue t host duplex).holders =
      q.holders ++ [⟨t, host, duplex, q.counterFor t host duplex⟩] := by
  simp [holders, enqueue]

/-- The arrival of a call keeps a queue coherent. -/
theorem Coherent.enqueue (h : q.Coherent next) (host : Host) (duplex : Bool) :
    (q.enqueue next host duplex).Coherent (next + 1) where
  sharing := by
    rw [holders_enqueue]
    apply h.sharing.concat
    intro f hf
    have hiff := h.counterFor_eq_iff hf host duplex
    constructor
    · exact fun hc => .inr (hiff.1 hc)
    · rintro (rfl | hr)
      · rfl
      · exact hiff.2 hr
  tally := h.tally
  below := by
    intro f hf
    rw [holders_enqueue, List.mem_append, List.mem_singleton] at hf
    rcases hf with hf | rfl
    · exact Nat.lt_succ_of_lt (h.below f hf)
    · exact Nat.lt_succ_of_le (h.counterFor_le host duplex)

/-- A sync call holds no counter. -/
theorem Coherent.enqueueSync (h : q.Coherent next) (t : Ticket) :
    (q.enqueueSync t).Coherent next :=
  h.frame rfl rfl rfl

/-! ## departure -/

/-- The first of the calls that are sought, and what is left without it. -/
theorem exists_split_of_find? {p : Entry → Bool} {es : List Entry} (h : es.find? p = some e) :
    ∃ front back, es = front ++ e :: back ∧ es.eraseP p = front ++ back := by
  obtain ⟨hp, front, back, rfl, hfront⟩ := List.find?_eq_some_iff_append.1 h
  refine ⟨front, back, rfl, ?_⟩
  rw [List.eraseP_append_right _ fun a ha => by simpa using hfront a ha,
    List.eraseP_cons_of_pos hp]

/-- What a departure consists of: one of the running calls, its counter, and the queue without the
call, whose counter is one less. -/
theorem finish?_eq_some {d : Departure} (h : q.finish? t = some d) :
    d.entry.call = t ∧ d.counter = q.counters.get d.entry.counter ∧
      ∃ front back, q.running = front ++ d.entry :: back ∧
        d.queue = { q with
          running := front ++ back
          counters := q.counters.set d.entry.counter d.counter.decrement } := by
  obtain ⟨e, hfind, hd⟩ := Option.bind_eq_some_iff.1 h
  obtain ⟨front, back, hrun, herase⟩ := exists_split_of_find? hfind
  have hcall := List.find?_some hfind
  simp only [pure, Option.some.injEq] at hd
  subst hd
  exact ⟨by simpa using hcall, rfl, front, back, hrun, by simp only [herase]⟩

/-- The departure of a call keeps a queue coherent. -/
theorem Coherent.finish {d : Departure} (h : q.Coherent next) (hd : q.finish? t = some d) :
    d.queue.Coherent next := by
  obtain ⟨-, hcounter, front, back, hrun, hqueue⟩ := finish?_eq_some hd
  have hsub : ∀ f ∈ d.queue.holders, f ∈ q.holders := by
    intro f hf
    simp only [hqueue, holders, hrun, List.mem_append, List.mem_cons] at hf ⊢
    rcases hf with (hf | hf) | hf <;> simp [hf]
  refine ⟨h.sharing.mono hsub, fun name => ?_, fun f hf => h.below f (hsub f hf)⟩
  have htally := h.tally name
  simp only [hqueue, Counters.get_set, hrun, List.countP_append, List.countP_cons] at htally ⊢
  by_cases hn : name = d.entry.counter
  · subst hn
    simp only [beq_self_eq_true, if_true, hcounter, Counter.decrement] at htally ⊢
    omega
  · simpa [hn, Ne.symm hn] using htally

/-- A running call's counter is never at zero. -/
theorem Coherent.counter_ne_zero {d : Departure} (h : q.Coherent next) (hd : q.finish? t = some d) :
    d.counter.running ≠ 0 := by
  obtain ⟨-, hcounter, front, back, hrun, -⟩ := finish?_eq_some hd
  rw [hcounter, h.tally, hrun]
  simp

/-- What the departure of a sync call consists of. -/
theorem finishSync?_eq_some {q' : Queue} (h : q.finishSync? t = some q') :
    t ∈ q.sync ∧ q' = { q with sync := q.sync.erase t } := by
  unfold finishSync? at h
  split at h
  · next ht => exact ⟨List.contains_iff_mem.1 ht, (Option.some.inj h).symm⟩
  · contradiction

/-! ## settings -/

/-- A limit is changed exactly when the value is at least one. -/
theorem setLimit_eq_ok_iff {q' : Queue} {limit : Limit} {n : UInt64} :
    q.setLimit limit n = .ok q' ↔ 1 ≤ n ∧ q' = { q with limits := q.limits.set limit n } := by
  rw [← Limits.check_eq_ok_iff limit n, eq_comm (a := q')]
  unfold setLimit
  cases Limits.check limit n with
  | error e => exact ⟨nofun, fun h => nomatch h.1⟩
  | ok u => exact ⟨fun h => ⟨rfl, Except.ok.inj h⟩, fun h => congrArg Except.ok h.2⟩

end Queue

end CallAdmission
