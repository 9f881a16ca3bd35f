import CallAdmission.Proofs.Simulation.Advance

/-!
# CallAdmission.Proofs.Simulation.Metering

What the gauges of a simulation show. There is one for each host, at which the calls to it that are
not duplex count, and one at which all calls count. A gauge counts the calls whose latency passes.
These run, so a gauge never counts beyond what runs at once.

* `Gauges.Show.enter`, `Gauges.Show.exit` — a call's latency begins to pass, or is over;
* `Metered.advance` — what the gauges show after a turn;
* `Tended.load_running` — the calls that run and count at a gauge.
-/

namespace CallAdmission.Simulation

/-! ## one gauge -/

/-- The gauge counts some calls, and has never counted more than a number. -/
structure Gauge.Shows (g : Gauge) (count cap : Nat) : Prop where
  current : g.current = count
  current_le : count ≤ g.peak
  peak_le : g.peak ≤ cap

variable {g : Gauge} {count cap : Nat}

theorem Gauge.Shows.enter (h : g.Shows count cap) (hcap : count + 1 ≤ cap) :
    g.enter.Shows (count + 1) cap := by
  refine ⟨?_, ?_, ?_⟩
  · simp [Gauge.enter, h.current]
  · simp [Gauge.enter, h.current]
  · simp [Gauge.enter, h.current, h.peak_le, hcap]

theorem Gauge.Shows.exit (h : g.Shows (count + 1) cap) : g.exit.Shows count cap := by
  refine ⟨?_, Nat.le_of_succ_le h.current_le, h.peak_le⟩
  simp [Gauge.exit, h.current]

/-! ## all gauges -/

/-- The gauges by their places: a host, or none for the gauge of all calls. -/
def Gauges.places (g : Gauges) : List (Option Host × Gauge) :=
  (none, g.total) :: g.hosts.map fun h => (some h.1, h.2)

/-- The call counts at the gauge of a place. -/
def Job.countsAt (j : Job) : Option Host → Bool
  | none => true
  | some host => !j.duplex && j.host == host

/-- The gauges change at which the call counts. -/
theorem Gauges.places_update (g : Gauges) (j : Job) (f : Gauge → Gauge) :
    (g.update j f).places =
      g.places.map fun p => if j.countsAt p.1 then (p.1, f p.2) else p := by
  have hhosts : ∀ h : Host × Gauge,
      ((some (if h.1 = j.host then (h.1, f h.2) else h).1,
          (if h.1 = j.host then (h.1, f h.2) else h).2) : Option Host × Gauge) =
        if j.host == h.1 then (some h.1, f h.2) else (some h.1, h.2) := by
    intro h
    by_cases hhost : h.1 = j.host
    · simp [hhost]
    · simp [hhost, Ne.symm hhost]
  cases hduplex : j.duplex with
  | true => simp [Gauges.places, Gauges.update, Job.countsAt, hduplex]
  | false =>
    simp [Gauges.places, Gauges.update, Job.countsAt, hduplex, Function.comp_def, hhosts]

/-- The gauges of all places show the counts, and have shown no more than they may. -/
def Gauges.Show (g : Gauges) (count cap : Option Host → Nat) : Prop :=
  ∀ p ∈ g.places, p.2.Shows (count p.1) (cap p.1)

namespace Gauges.Show

variable {g : Gauges} {count count' cap : Option Host → Nat} {j : Job}

/-- A call comes to count. -/
theorem enter (h : g.Show count cap)
    (hcount : ∀ place, count' place = count place + if j.countsAt place then 1 else 0)
    (hcap : ∀ place, count' place ≤ cap place) : (g.update j .enter).Show count' cap := by
  rw [Gauges.Show, Gauges.places_update, List.forall_mem_map]
  intro p hp
  have hplace := hcount p.1
  split
  · next hcounts =>
    rw [if_pos hcounts] at hplace
    have hshows := (h p hp).enter (hplace ▸ hcap p.1)
    rwa [← hplace] at hshows
  · next hcounts =>
    rw [if_neg hcounts] at hplace
    rw [hplace]
    exact h p hp

/-- A call ceases to count. -/
theorem exit (h : g.Show count' cap)
    (hcount : ∀ place, count' place = count place + if j.countsAt place then 1 else 0) :
    (g.update j .exit).Show count cap := by
  rw [Gauges.Show, Gauges.places_update, List.forall_mem_map]
  intro p hp
  have hplace := hcount p.1
  have hshows := h p hp
  split
  · next hcounts =>
    rw [hplace, if_pos hcounts] at hshows
    exact hshows.exit
  · next hcounts =>
    rw [hplace, if_neg hcounts] at hshows
    exact hshows

end Gauges.Show

/-! ## the gauges of a simulation -/

variable {jobs : List Job} {limits : Limits} {s s₁ : State} {t : Ticket} {ts us : List Ticket}
  {j : Job} {place : Option Host}

/-- The call of the ticket counts at the gauge of a place. -/
def countsAt (jobs : List Job) (place : Option Host) (t : Ticket) : Bool :=
  jobs[t]?.any (·.countsAt place)

/-- How many of the calls count at the gauge of a place. -/
def load (jobs : List Job) (ts : List Ticket) (place : Option Host) : Nat :=
  ts.countP (countsAt jobs place)

theorem load_cons (hj : jobs[t]? = some j) (ts : List Ticket) (place : Option Host) :
    load jobs (t :: ts) place = load jobs ts place + if j.countsAt place then 1 else 0 := by
  simp [load, List.countP_cons, countsAt, hj]

theorem load_perm (h : ts.Perm us) (place : Option Host) :
    load jobs ts place = load jobs us place := h.countP_eq _

/-- Fewer calls count for less. -/
theorem load_le (hts : ts.Nodup) (h : ∀ t ∈ ts, t ∈ us) (place : Option Host) :
    load jobs ts place ≤ load jobs us place := (hts.subperm h).countP_le _

/-- The gauges of a simulation count the calls that are asleep. -/
def Metered (jobs : List Job) (cap : Option Host → Nat) (s : State) : Prop :=
  s.gauges.Show (load jobs s.asleep) cap

/-- If no more calls run than the gauges may show, they never show more. -/
theorem Metered.advance {cap : Option Host → Nat} (h : Steady jobs limits s)
    (hcap : ∀ place, load jobs s.running place ≤ cap place) (hs : Metered jobs cap s)
    (hturn : Advance jobs s s₁) : Metered jobs cap s₁ := by
  -- one more call that runs may come to count
  have henter : ∀ t ready j, s.scheduler.ready = t :: ready → jobs[t]? = some j → t ∉ s.asleep →
      (s.gauges.update j .enter).Show (load jobs (t :: s.asleep)) cap := by
    intro t ready j hready hj ht
    refine Gauges.Show.enter hs (load_cons hj s.asleep) fun place => ?_
    refine Nat.le_trans (load_le (List.nodup_cons.2 ⟨ht, h.lined.asleep⟩) ?_ place) (hcap place)
    exact List.forall_mem_cons.2 ⟨h.lined.mem_running hready, h.lined.asleep_running⟩
  cases hturn with
  | doze hready hrun hj ht => exact henter _ _ _ hready hj ht
  | @finish t ready run j departure hready hrun hj ht hq =>
    show ((if t ∈ s.asleep then s.gauges else s.gauges.update j .enter).update j .exit).Show
      (load jobs (s.asleep.erase t)) cap
    split
    · next hmem =>
      refine Gauges.Show.exit hs fun place => ?_
      rw [load_perm (List.perm_cons_erase hmem), load_cons hj]
    · next hmem =>
      rw [List.erase_of_not_mem hmem]
      exact (henter t ready j hready hj hmem).exit (load_cons hj s.asleep)
  | jump => exact hs

/-- At the gauge of a host those calls count that count against the limit of the host. -/
theorem load_running (h : s.dispatcher.Tended jobs limits) (host : Host) :
    load jobs s.running (some host) =
      s.dispatcher.ledger.queue.running.countP (Queue.isLimited host) := by
  rw [load, State.running, List.countP_map]
  apply List.countP_congr
  intro e he
  obtain ⟨j, hj, hhost, hduplex⟩ := h.planned e (List.mem_append_left _ he)
  simp [countsAt, hj, Job.countsAt, Queue.isLimited, hhost, hduplex]

theorem load_running_none (h : s.dispatcher.Tended jobs limits) :
    load jobs s.running none = s.running.length := by
  rw [load, List.countP_eq_length]
  intro t ht
  obtain ⟨e, he, rfl⟩ := List.mem_map.1 ht
  obtain ⟨j, hj, -, -⟩ := h.planned e (List.mem_append_left _ he)
  simp [countsAt, hj, Job.countsAt]

/-- What the limits allow at the gauge of a place. -/
def capOf (limits : Limits) : Option Host → Nat
  | none => limits.maxRequests.toNat
  | some _ => limits.maxPerHost.toNat

/-- The calls that run keep to the limits at every place. -/
theorem load_running_le (h : s.dispatcher.Tended jobs limits) (place : Option Host) :
    load jobs s.running place ≤ capOf limits place := by
  have hwithin := h.within
  cases place with
  | none =>
    rw [load_running_none h, State.running, List.length_map, ← h.runningCount_eq, capOf,
      ← h.limits_eq]
    exact hwithin.total
  | some host =>
    rw [load_running h, capOf, ← h.limits_eq]
    exact hwithin.perHost host

end CallAdmission.Simulation
