import CallAdmission.Proofs.Host
import CallAdmission.Proofs.Queue.Consistency
import Mathlib.Algebra.GroupWithZero.Nat
import Mathlib.Algebra.Order.BigOperators.Group.Finset

/-!
# CallAdmission.Proofs.Queue.Snapshot

What a snapshot tells of a queue. It counts the calls anew, host by host, and knows nothing of the
counters that admission goes by; after every history the two agree.

* `sum_countP_hosts` — calls counted host by host are all the calls;
* `Coherent.agrees` — what the snapshot of a coherent queue tells;
* `agrees_of_history` — the snapshot agrees with its queue after every history.
-/

namespace CallAdmission

namespace Queue

variable {q : Queue} {next : Ticket} {host : Host}

/-! ## calls by host -/

/-- Calls counted host by host are all the calls. -/
theorem sum_countP_hosts {hosts : List Host} (hnodup : hosts.Nodup) {es : List Entry}
    (hes : ∀ e ∈ es, e.host ∈ hosts) :
    (hosts.map fun host => es.countP (·.host == host)).sum = es.length := by
  have hcount : ∀ host, es.countP (·.host == host) =
      Multiset.count host (es.map (·.host) : Multiset Host) := by
    intro host
    rw [Multiset.coe_count, List.count, List.countP_map]
    rfl
  have hmem : ∀ host ∈ (es.map (·.host) : Multiset Host), host ∈ hosts.toFinset := by
    intro host hhost
    obtain ⟨e, he, rfl⟩ := List.mem_map.1 (Multiset.mem_coe.1 hhost)
    exact List.mem_toFinset.2 (hes e he)
  calc (hosts.map fun host => es.countP (·.host == host)).sum
      = ∑ host ∈ hosts.toFinset, Multiset.count host (es.map (·.host) : Multiset Host) := by
        rw [List.sum_toFinset _ hnodup]
        simp only [hcount]
    _ = Multiset.card (es.map (·.host) : Multiset Host) := Multiset.sum_count_eq_card hmem
    _ = es.length := by rw [Multiset.coe_card, List.length_map]

/-- A call to a host is duplex, or counts against the host's limit. -/
theorem countP_limited_add_countP_duplex (es : List Entry) (host : Host) :
    es.countP (isLimited host) + es.countP (fun e => e.duplex && e.host == host) =
      es.countP (·.host == host) := by
  induction es with
  | nil => rfl
  | cons e es ih =>
    rw [List.countP_cons, List.countP_cons, List.countP_cons, ← ih]
    cases hduplex : e.duplex <;> cases hhost : e.host == host <;>
      simp [isLimited, hduplex, hhost] <;> omega

/-! ## agreement -/

/-- What a snapshot tells of a host: how many of its calls wait, and how many run. -/
structure HostAgrees (q : Queue) (host : Host) (load : HostLoad) : Prop where
  queued : load.queued = q.ready.countP (·.host == host)
  duplex : load.duplex = q.running.countP fun e => e.duplex && e.host == host
  /-- the counter that the host's other calls share shows the same as the snapshot -/
  counter : ∀ e ∈ q.holders, e.duplex = false → e.host = host →
    (∀ f ∈ q.holders, f.duplex = false → f.host = host → f.counter = e.counter) ∧
      load.running = (q.counters.get e.counter).running
  /-- and where all calls to the host are duplex, there is nothing to show -/
  running_eq_zero : (∀ e ∈ q.holders, e.host = host → e.duplex = true) → load.running = 0

/-- What a snapshot tells of a queue. -/
structure Agrees (q : Queue) (s : Snapshot) : Prop where
  limits : s.limits = q.limits
  queued : s.queued = q.queuedCalls.length
  sum_queued : (s.hosts.map (·.2.queued)).sum = s.queued
  sum_running : (s.hosts.map fun h => h.2.running + h.2.duplex).sum = s.runningAsync
  running : s.runningAsync + s.runningSync = q.runningCalls.length
  runningCount : q.runningCalls.length = q.runningCount
  /-- a host is told of if a call to it waits or was admitted; sync calls do not count -/
  mem_hosts_iff : ∀ host, host ∈ s.hosts.map (·.1) ↔ ∃ e ∈ q.ready ++ q.running, e.host = host
  /-- hosts stand in the order of their bytes, each once -/
  sorted : s.hosts.Pairwise fun a b => Text.bytes a.1.name < Text.bytes b.1.name
  host : ∀ h ∈ s.hosts, q.HostAgrees h.1 h.2

theorem hosts_nodup (q : Queue) : q.hosts.Nodup := by
  apply (Host.pairwise_sortUnique _).imp
  rintro a b hlt rfl
  exact List.lt_irrefl _ hlt

theorem mem_hosts_iff (q : Queue) (host : Host) :
    host ∈ q.hosts ↔ ∃ e ∈ q.ready ++ q.running, e.host = host := by
  rw [hosts, Host.mem_sortUnique, List.mem_map]

/-- Where calls to a host that are not duplex stand in a coherent queue, their counter shows how
many of them run; else none runs. -/
theorem Coherent.hostAgrees (h : q.Coherent next) (host : Host) :
    q.HostAgrees host (q.load host) where
  queued := rfl
  duplex := rfl
  counter e he hd hhost := by
    refine ⟨fun f hf hfd hfhost => ?_, ?_⟩
    · exact (h.sharing f hf e he).2 (.inr ⟨hfd, hd, hfhost.trans hhost.symm⟩)
    · rw [h.load_eq he hd, hhost]
      rfl
  running_eq_zero hall := by
    show q.running.countP (isLimited host) = 0
    rw [List.countP_eq_zero]
    intro e he
    simp only [isLimited, Bool.and_eq_true, Bool.not_eq_true', beq_iff_eq, not_and]
    intro hd hhost
    have hduplex := hall e (List.mem_append_left _ he) hhost
    exact absurd (hd.symm.trans hduplex) Bool.false_ne_true

/-- The snapshot of a coherent queue agrees with its lists and its counters. -/
theorem Coherent.agrees (h : q.Coherent next) : q.Agrees q.snapshot where
  limits := rfl
  queued := (List.length_map _).symm
  sum_queued := by
    have hmem : ∀ e ∈ q.ready, e.host ∈ q.hosts := fun e he =>
      (q.mem_hosts_iff e.host).2 ⟨e, List.mem_append_left _ he, rfl⟩
    show _ = q.ready.length
    rw [← sum_countP_hosts q.hosts_nodup hmem]
    simp [snapshot, load, Function.comp_def]
  sum_running := by
    have hmem : ∀ e ∈ q.running, e.host ∈ q.hosts := fun e he =>
      (q.mem_hosts_iff e.host).2 ⟨e, List.mem_append_right _ he, rfl⟩
    show _ = q.running.length
    rw [← sum_countP_hosts q.hosts_nodup hmem]
    simp [snapshot, load, Function.comp_def, countP_limited_add_countP_duplex]
  running := by simp [snapshot, runningCalls, Nat.add_comm]
  runningCount := by simp [runningCalls, runningCount, Nat.add_comm]
  mem_hosts_iff host := by
    rw [← q.mem_hosts_iff]
    simp [snapshot, Function.comp_def]
  sorted := List.pairwise_map.2 (Host.pairwise_sortUnique _)
  host p hp := by
    obtain ⟨host, -, rfl⟩ := List.mem_map.1 hp
    exact h.hostAgrees host

/-- **Agreement.** After every history, whatever the limits, the snapshot of a queue agrees with its
lists and with the counters that admission goes by. -/
theorem agrees_of_history (limits : Limits) (ops : List Operation) :
    let q := (counted.run ⟨{ limits }, 0⟩ ops).queue
    q.Agrees q.snapshot :=
  (Sound.run limits ops).coherent.agrees

end Queue

end CallAdmission
