import CallAdmission.Proofs.Simulation.Metering
import CallAdmission.Proofs.Simulation.Plan
import Mathlib.Algebra.BigOperators.Group.Finset.Piecewise
import Mathlib.Algebra.Order.BigOperators.Group.Finset

/-!
# CallAdmission.Proofs.Simulation.Demand

How many calls of a simulation can run at once. Every duplex call can, and of the others so many for
each host as its limit allows: this is the `demand`, which the total limit may cut short.

No more calls run at any time. Right after the submissions no fewer do either: if a slot is free,
then every call that waits is for a host whose limit is used up.

* `length_eq_sum` — every call is duplex, or counts at the gauge of one host;
* `Tended.load_running_le_share` — no more calls run than the demand and the limits allow;
* `Tended.duplexCalls_le`, `Tended.min_le_load` — what runs if every call that waits is blocked;
* `Tended.packed` — as many calls run before any has ended.
-/

namespace CallAdmission.Simulation

variable {o : Options} {limits : Limits} {d : Dispatcher} {s : State} {ts : List Ticket}
  {rank n : Nat}

/-! ## what is asked for -/

/-- How many calls are duplex. -/
def duplexCalls (o : Options) : Nat := (List.range o.calls.toNat).countP (endsPeriod o.duplexEvery)

/-- How many calls that are not duplex go to the host of a rank. -/
def callsTo (o : Options) (rank : Nat) : Nat :=
  (List.range o.calls.toNat).countP fun n =>
    n % o.hosts.toNat == rank && !endsPeriod o.duplexEvery n

/-- How many calls can run at once where each host takes only so many that are not duplex. -/
def demand (o : Options) (perHost : Nat) : Nat :=
  duplexCalls o + ∑ rank ∈ Finset.range o.hosts.toNat, min perHost (callsTo o rank)

/-- A call counts at the gauge of one host, unless it is duplex. -/
theorem countsAt_hostList (h : o.Valid) (hn : n < o.calls.toNat) (hrank : rank < o.hosts.toNat) :
    countsAt o.jobs o.hostList[rank]? n =
      (n % o.hosts.toNat == rank && !endsPeriod o.duplexEvery n) := by
  have hj : o.jobs[n]? = some (o.job o.hostList n) := by rw [getElem?_jobs, if_pos hn]
  obtain ⟨hhost, hduplex⟩ := job_eq h hj
  obtain ⟨host, hplace⟩ := exists_host hrank
  have hsame : ((o.job o.hostList n).host == host) = (n % o.hosts.toNat == rank) := by
    have hbound := (List.getElem?_eq_some_iff.1 hhost).1
    rw [Bool.eq_iff_iff, beq_iff_eq, beq_iff_eq, ← List.getElem?_inj hbound (hostList_nodup o),
      hhost, hplace, Option.some_inj]
  simp [hplace, countsAt, hj, Job.countsAt, hduplex, hsame, Bool.and_comm]

theorem load_range (h : o.Valid) (hrank : rank < o.hosts.toNat) :
    load o.jobs (List.range o.calls.toNat) o.hostList[rank]? = callsTo o rank := by
  apply List.countP_congr
  intro n hn
  rw [countsAt_hostList h (List.mem_range.1 hn) hrank]

/-- Every call is duplex, or counts at the gauge of one host. -/
theorem length_eq_sum (h : o.Valid) (hts : ∀ t ∈ ts, t < o.calls.toNat) :
    ts.length = ts.countP (endsPeriod o.duplexEvery) +
      ∑ rank ∈ Finset.range o.hosts.toNat, load o.jobs ts o.hostList[rank]? := by
  induction ts with
  | nil => simp [load]
  | cons t ts ih =>
    obtain ⟨ht, hts⟩ := List.forall_mem_cons.1 hts
    have hone : ∑ rank ∈ Finset.range o.hosts.toNat,
        (if countsAt o.jobs o.hostList[rank]? t then 1 else 0) =
          if endsPeriod o.duplexEvery t then 0 else 1 := by
      have hrank : t % o.hosts.toNat < o.hosts.toNat := Nat.mod_lt t (hosts_pos h)
      rw [Finset.sum_congr rfl fun rank hrank => by
        rw [countsAt_hostList h ht (Finset.mem_range.1 hrank)]]
      cases endsPeriod o.duplexEvery t <;> simp [hrank]
    simp only [load, List.countP_cons, Finset.sum_add_distrib] at ih ⊢
    rw [hone, List.length_cons, ih hts]
    cases endsPeriod o.duplexEvery t <;> simp <;> omega

/-! ## what can run at once -/

/-- What can count at once at the gauge of a place. -/
def share (o : Options) (limits : Limits) : Option Host → Nat
  | none => min limits.maxRequests.toNat (demand o limits.maxPerHost.toNat)
  | some host =>
    min limits.maxPerHost.toNat (load o.jobs (List.range o.calls.toNat) (some host))

theorem share_hostList (h : o.Valid) (limits : Limits) (hrank : rank < o.hosts.toNat) :
    share o limits o.hostList[rank]? = min limits.maxPerHost.toNat (callsTo o rank) := by
  obtain ⟨host, hplace⟩ := exists_host hrank
  rw [← load_range h hrank, hplace]
  rfl

/-- Every call that waits is for a host that is full. -/
def Blocked (o : Options) (limits : Limits) (s : State) : Prop :=
  ∀ t ∈ s.dispatcher.ledger.queue.queuedCalls, ∃ j, o.jobs[t]? = some j ∧ j.duplex = false ∧
    limits.maxPerHost.toNat ≤ load o.jobs s.running (some j.host)

/-- The calls are as many as can run at once; at each host too, if the total limit allows for the
demand. -/
structure Packed (o : Options) (limits : Limits) (ts : List Ticket) : Prop where
  total : load o.jobs ts none = share o limits none
  host : demand o limits.maxPerHost.toNat ≤ limits.maxRequests.toNat →
    ∀ rank < o.hosts.toNat, load o.jobs ts o.hostList[rank]? = share o limits o.hostList[rank]?

end CallAdmission.Simulation

namespace CallAdmission.Dispatcher.Tended

open Simulation

variable {o : Options} {limits : Limits} {s : State} {rank : Nat}

/-! ## no more calls run -/

/-- The calls that run are planned ones. -/
theorem lt_calls (h : s.dispatcher.Tended o.jobs limits)
    (hnext : s.dispatcher.next = o.calls.toNat) : ∀ t ∈ s.running, t < o.calls.toNat :=
  fun _ ht => hnext ▸ h.lt_of_mem_running ht

theorem countP_running_le (h : s.dispatcher.Tended o.jobs limits)
    (hnext : s.dispatcher.next = o.calls.toNat) (p : Ticket → Bool) :
    s.running.countP p ≤ (List.range o.calls.toNat).countP p := by
  have hrange := h.running_nodup.subperm fun t ht => List.mem_range.2 (h.lt_calls hnext t ht)
  exact hrange.countP_le p

/-- At a host no more calls run than go to it, and no more than its limit allows. -/
theorem load_host_le (h : s.dispatcher.Tended o.jobs limits)
    (hnext : s.dispatcher.next = o.calls.toNat) (host : Host) :
    load o.jobs s.running (some host) ≤ share o limits (some host) :=
  Nat.le_min.2 ⟨load_running_le h (some host), h.countP_running_le hnext _⟩

theorem load_hostList_le (h : s.dispatcher.Tended o.jobs limits) (hvalid : o.Valid)
    (hnext : s.dispatcher.next = o.calls.toNat) (hrank : rank < o.hosts.toNat) :
    load o.jobs s.running o.hostList[rank]? ≤
      min limits.maxPerHost.toNat (callsTo o rank) := by
  obtain ⟨host, hplace⟩ := exists_host hrank
  rw [← share_hostList hvalid limits hrank, hplace]
  exact h.load_host_le hnext host

/-- No more calls run than the demand and the limits allow, at every place. -/
theorem load_running_le_share (h : s.dispatcher.Tended o.jobs limits) (hvalid : o.Valid)
    (hnext : s.dispatcher.next = o.calls.toNat) (place : Option Host) :
    load o.jobs s.running place ≤ share o limits place := by
  cases place with
  | none =>
    refine Nat.le_min.2 ⟨load_running_le h none, ?_⟩
    rw [load_running_none h, length_eq_sum hvalid (h.lt_calls hnext)]
    refine Nat.add_le_add (h.countP_running_le hnext _) (Finset.sum_le_sum fun rank hrank => ?_)
    exact h.load_hostList_le hvalid hnext (Finset.mem_range.1 hrank)
  | some host => exact h.load_host_le hnext host

/-! ## as many calls run -/

section Packed

variable (h : s.dispatcher.Tended o.jobs limits) (hvalid : o.Valid)
  (hcalls : s.dispatcher.ledger.queue.allCalls.Perm (List.range o.calls.toNat))

include h hcalls in
/-- While no call has ended, each of them waits or runs. -/
theorem countP_range (p : Ticket → Bool) :
    (List.range o.calls.toNat).countP p =
      s.dispatcher.ledger.queue.queuedCalls.countP p + s.running.countP p := by
  rw [← hcalls.countP_eq, Queue.allCalls, h.sync, List.append_nil, List.countP_append]
  rfl

include h in
/-- If the queue would pass over every call that waits, their hosts are full. -/
theorem blocked (hready : ∀ e ∈ s.dispatcher.ledger.queue.ready, e.duplex = false ∧
      limits.maxPerHost.toNat ≤ s.dispatcher.ledger.queue.running.countP (Queue.isLimited e.host)) :
    Blocked o limits s := by
  intro t ht
  obtain ⟨e, he, rfl⟩ := List.mem_map.1 ht
  obtain ⟨j, hj, hhost, hduplex⟩ := h.planned e (List.mem_append_right _ he)
  refine ⟨j, hj, ?_⟩
  rw [hhost, hduplex, load_running h]
  exact hready e he

include h hvalid hcalls

/-- No duplex call waits if only those wait whose hosts are full. -/
theorem duplexCalls_le (hblocked : Blocked o limits s) :
    duplexCalls o ≤ s.running.countP (endsPeriod o.duplexEvery) := by
  have hnone : s.dispatcher.ledger.queue.queuedCalls.countP (endsPeriod o.duplexEvery) = 0 := by
    rw [List.countP_eq_zero]
    intro t ht
    obtain ⟨j, hj, hduplex, -⟩ := hblocked t ht
    rw [← (job_eq hvalid hj).2, hduplex]
    exact Bool.false_ne_true
  rw [duplexCalls, h.countP_range hcalls, hnone, Nat.zero_add]

/-- A host is full, or none of its calls waits, if only those wait whose hosts are full. -/
theorem min_le_load (hblocked : Blocked o limits s) (hrank : rank < o.hosts.toNat) :
    min limits.maxPerHost.toNat (callsTo o rank) ≤ load o.jobs s.running o.hostList[rank]? := by
  obtain ⟨host, hplace⟩ := exists_host hrank
  rw [← load_range hvalid hrank, hplace]
  by_cases hfull : limits.maxPerHost.toNat ≤ load o.jobs s.running (some host)
  · exact Nat.le_trans (Nat.min_le_left _ _) hfull
  · have hnone :
        s.dispatcher.ledger.queue.queuedCalls.countP (countsAt o.jobs (some host)) = 0 := by
      rw [List.countP_eq_zero]
      intro t ht hcounts
      obtain ⟨j, hj, hduplex, hload⟩ := hblocked t ht
      have hhost : j.host = host := by simpa [countsAt, hj, Job.countsAt, hduplex] using hcounts
      exact hfull (hhost ▸ hload)
    rw [load, h.countP_range hcalls, hnone, Nat.zero_add]
    exact Nat.min_le_right _ _

/-- Before any call has ended, as many run as can. -/
theorem packed (hsettled : s.dispatcher.ledger.queue.Settled)
    (hnext : s.dispatcher.next = o.calls.toNat) : Packed o limits s.running := by
  have hlength := length_eq_sum hvalid (h.lt_calls hnext)
  have htotal : load o.jobs s.running none = share o limits none := by
    refine Nat.le_antisymm (h.load_running_le_share hvalid hnext none) ?_
    rw [Queue.Settled, h.limits_eq, h.runningCount_eq] at hsettled
    rw [load_running_none h]
    rcases hsettled with hfull | hready
    · rw [State.running, List.length_map]
      exact Nat.le_trans (Nat.min_le_left _ _) hfull
    · have hblocked := h.blocked hready
      refine Nat.le_trans (Nat.min_le_right _ _) ?_
      rw [hlength]
      refine Nat.add_le_add (h.duplexCalls_le hvalid hcalls hblocked) ?_
      exact Finset.sum_le_sum fun rank hrank =>
        h.min_le_load hvalid hcalls hblocked (Finset.mem_range.1 hrank)
  refine ⟨htotal, fun hdemand rank hrank => ?_⟩
  -- the calls are as many as the demand, so no term of the sum falls short
  rw [load_running_none h, share, Nat.min_eq_right hdemand, hlength, demand] at htotal
  have hterms : ∀ rank ∈ Finset.range o.hosts.toNat,
      load o.jobs s.running o.hostList[rank]? ≤ min limits.maxPerHost.toNat (callsTo o rank) :=
    fun rank hrank => h.load_hostList_le hvalid hnext (Finset.mem_range.1 hrank)
  have hduplex : s.running.countP (endsPeriod o.duplexEvery) ≤ duplexCalls o :=
    h.countP_running_le hnext _
  have hsum := Nat.le_antisymm (Finset.sum_le_sum hterms) (by omega)
  rw [share_hostList hvalid limits hrank]
  exact (Finset.sum_eq_sum_iff_of_le hterms).1 hsum rank (Finset.mem_range.2 hrank)

end Packed

end CallAdmission.Dispatcher.Tended
