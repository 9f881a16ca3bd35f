import CallAdmission.Proofs.Simulation.Completion
import CallAdmission.Proofs.Simulation.Demand

/-!
# CallAdmission.Proofs.Simulation.Peaks

The peaks that a simulation reports. If every call takes time, then the calls that run after the
submissions are all asleep at once before the first of them ends, and a pass has admitted as many as
could be. Later no more run than the demand and the limits allow. So the peaks can be told from the
options.

* `Advance.gauges` — what every turn keeps of the gauges;
* `Wave.advance`, `Counted.advance` — what the gauges have shown;
* `Measured.peak_eq`, `Measured.peak_host` — the peaks of a simulation that has ended;
* `peaks_of_read` — for all arguments and environments.
-/

namespace CallAdmission.Simulation

variable {jobs : List Job} {limits : Limits} {s s₁ : State} {first : List Ticket}
  {cap : Option Host → Nat}

/-! ## gauges that have been high -/

namespace Gauges

variable {g : Gauges} {f : Gauge → Gauge} {low low' count : Option Host → Nat}

/-- The gauges of all places have shown the counts, or more. -/
def Reached (g : Gauges) (low : Option Host → Nat) : Prop := ∀ p ∈ g.places, low p.1 ≤ p.2.peak

theorem Reached.mono (h : g.Reached low) (hlow : ∀ place, low' place ≤ low place) :
    g.Reached low' := fun p hp => Nat.le_trans (hlow p.1) (h p hp)

theorem Reached.update (h : g.Reached low) (hf : ∀ g : Gauge, g.peak ≤ (f g).peak) (j : Job) :
    (g.update j f).Reached low := by
  rw [Reached, places_update, List.forall_mem_map]
  intro p hp
  split
  · exact Nat.le_trans (h p hp) (hf p.2)
  · exact h p hp

/-- Gauges have shown what they show. -/
theorem Show.reached (h : g.Show count cap) : g.Reached count := fun p hp => (h p hp).current_le

theorem hosts_update (g : Gauges) (j : Job) (f : Gauge → Gauge) :
    (g.update j f).hosts.map (·.1) = g.hosts.map (·.1) := by
  unfold update
  split
  · rfl
  · rw [List.map_map]
    apply List.map_congr_left
    intro h _
    show (if h.1 = j.host then (h.1, f h.2) else h).1 = h.1
    split <;> rfl

end Gauges

/-- What remains when a call comes to count or ceases to, every turn keeps. -/
theorem Advance.gauges {P : Gauges → Prop} (henter : ∀ g j, P g → P (g.update j .enter))
    (hexit : ∀ g j, P g → P (g.update j .exit)) (h : Advance jobs s s₁) (hs : P s.gauges) :
    P s₁.gauges := by
  cases h with
  | doze => exact henter _ _ hs
  | @finish t ready run j =>
    show P ((if t ∈ s.asleep then s.gauges else s.gauges.update j .enter).update j .exit)
    split
    · exact hexit _ _ hs
    · exact hexit _ _ (henter _ _ hs)
  | jump => exact hs

/-- No turn lowers a peak. -/
theorem Advance.reached {low : Option Host → Nat} (h : Advance jobs s s₁)
    (hs : s.gauges.Reached low) : s₁.gauges.Reached low :=
  h.gauges (P := (·.Reached low))
    (fun _ j hg => hg.update (f := .enter) (fun _ => Nat.le_max_left _ _) j)
    (fun _ j hg => hg.update (f := .exit) (fun _ => Nat.le_refl _) j) hs

/-! ## the first wave -/

/-- If there are as many timers as calls that are asleep, each of these has a timer. -/
theorem Lined.timers_perm (h : Lined s) (hnodup : s.running.Nodup)
    (hlength : s.scheduler.timers.length = s.asleep.length) :
    (s.scheduler.timers.map (·.task)).Perm s.asleep := by
  have htimers := (List.nodup_append.1 (h.line.nodup_iff.2 hnodup)).2.1
  refine (htimers.subperm (List.forall_mem_map.2 h.timers_asleep)).perm_of_length_le ?_
  rw [List.length_map, hlength]

/-- Either no call has ended yet and those that are asleep wait for their timers, or the calls that
run at first have been asleep all at once. -/
def Wave (jobs : List Job) (first : List Ticket) (s : State) : Prop :=
  (s.running = first ∧ s.scheduler.timers.length = s.asleep.length) ∨
    s.gauges.Reached (load jobs first)

/-- No call ends, and no timer is due, before all that run at first are asleep. -/
theorem Wave.advance (h : Steady jobs limits s) (hlatency : ∀ j ∈ jobs, j.latency ≠ 0)
    (hmetered : Metered jobs cap s) (hs : Wave jobs first s) (hturn : Advance jobs s s₁) :
    Wave jobs first s₁ := by
  rcases hs with ⟨hrunning, hlength⟩ | hreached
  · have htimers := h.lined.timers_perm h.tended.running_nodup hlength
    cases hturn with
    | doze hready hrun hj ht =>
      refine .inl ⟨hrunning, ?_⟩
      rw [dozed_scheduler, List.length_append, hlength]
      rfl
    | finish hready hrun hj ht hq =>
      -- its call is asleep, so its task has a timer, and is not in line
      have hasleep := ht.resolve_right (hlatency _ (List.mem_of_getElem? hj))
      have hline := (h.lined.nodup h.tended.running_nodup hready).2
      exact absurd (htimers.mem_iff.2 hasleep) hline
    | jump hready hdue =>
      refine .inr (hmetered.reached.mono fun place => ?_)
      have hline := h.lined.line
      rw [hready, List.nil_append] at hline
      rw [← hrunning, load_perm (hline.symm.trans htimers)]
  · exact .inr (hturn.reached hreached)

/-- Every call that was submitted is there still, or was counted. -/
def Counted (jobs : List Job) (s : State) : Prop :=
  ∀ t < s.dispatcher.next, t ∈ s.dispatcher.ledger.queue.allCalls ∨
    s.gauges.Reached (load jobs [t])

/-- A call that ends has been asleep. -/
theorem Counted.advance (hlatency : ∀ j ∈ jobs, j.latency ≠ 0) (hmetered : Metered jobs cap s)
    (hs : Counted jobs s) (hturn : Advance jobs s s₁) : Counted jobs s₁ := by
  intro u hu
  rw [hturn.next_eq] at hu
  have hkeeps : s.gauges.Reached (load jobs [u]) → s₁.gauges.Reached (load jobs [u]) :=
    hturn.reached
  rcases hs u hu with hmem | hreached
  · cases hturn with
    | doze | jump => exact .inl hmem
    | @finish t ready run j departure hready hrun hj ht hq =>
      rcases List.mem_cons.1 ((Queue.allCalls_finish hq).mem_iff.1 hmem) with rfl | hleft
      · have hasleep := ht.resolve_right (hlatency _ (List.mem_of_getElem? hj))
        refine .inr (hkeeps (hmetered.reached.mono fun place => ?_))
        exact load_le (List.nodup_singleton u) (List.forall_mem_singleton.2 hasleep) place
      · have hqueue : (s.ended t ready j departure).pass.dispatcher.ledger.queue =
            departure.queue.promote.queue := Ledger.queue_promote _
        rw [hqueue]
        exact .inl ((Queue.allCalls_promote _).mem_iff.2 hleft)
  · exact .inr (hkeeps hreached)

/-! ## the peaks -/

variable {o : Options} {rank peak : Nat} {host : Host}

/-- What the gauges have shown when all calls were submitted and some turns were taken. -/
structure Measured (o : Options) (limits : Limits) (first : List Ticket) (s : State) : Prop where
  next_eq : s.dispatcher.next = o.calls.toNat
  hosts_eq : s.gauges.hosts.map (·.1) = o.hostList
  metered : Metered o.jobs (share o limits) s
  wave : Wave o.jobs first s
  counted : Counted o.jobs s

theorem Fresh.measured (h : Fresh o.hostList s) (hnext : s.dispatcher.next = o.calls.toNat) :
    Measured o limits s.running s where
  next_eq := hnext
  hosts_eq := by simp [h.gauges, Gauges.ofHosts, Function.comp_def]
  metered := h.metered _ _
  wave := .inl ⟨rfl, by rw [h.timers, h.asleep]; rfl⟩
  counted t ht := .inl (h.calls.mem_iff.2 (List.mem_range.2 ht))

namespace Measured

theorem advance (h : Steady o.jobs limits s) (hvalid : o.Valid) (hlatency : o.latency ≠ 0)
    (hs : Measured o limits first s) (hturn : Advance o.jobs s s₁) :
    Measured o limits first s₁ where
  next_eq := hturn.next_eq.trans hs.next_eq
  hosts_eq := hturn.gauges (P := fun g => g.hosts.map (·.1) = o.hostList)
    (fun g j hg => (g.hosts_update j .enter).trans hg)
    (fun g j hg => (g.hosts_update j .exit).trans hg) hs.hosts_eq
  metered := hs.metered.advance h (h.tended.load_running_le_share hvalid hs.next_eq) hturn
  wave := hs.wave.advance h (latency_ne_zero hlatency) hs.metered hturn
  counted := hs.counted.advance (latency_ne_zero hlatency) hs.metered hturn

/-- In the end the gauges have shown the calls that ran at first. -/
theorem reached_first (h : Measured o limits first s) (hrunning : s.running = []) :
    s.gauges.Reached (load o.jobs first) := by
  rcases h.wave with ⟨hfirst, -⟩ | hreached
  · rw [← hfirst, hrunning]
    exact fun p _ => Nat.zero_le _
  · exact hreached

/-- The gauge of the host of a rank. -/
theorem exists_gauge (h : Measured o limits first s)
    (hpeak : (s.report limits jobs).hostPeaks[rank]? = some (host, peak)) :
    rank < o.hosts.toNat ∧
      ∃ g : Gauge, g.peak = peak ∧ (o.hostList[rank]?, g) ∈ s.gauges.places := by
  rw [State.report, List.getElem?_map] at hpeak
  obtain ⟨p, hp, heq⟩ := Option.map_eq_some_iff.1 hpeak
  have hplace : o.hostList[rank]? = some p.1 := by rw [← h.hosts_eq, List.getElem?_map, hp]; rfl
  refine ⟨?_, p.2, congrArg Prod.snd heq, ?_⟩
  · rw [← length_hostList]
    exact (List.getElem?_eq_some_iff.1 hplace).1
  · rw [hplace]
    exact List.mem_cons_of_mem _ (List.mem_map.2 ⟨p, List.mem_of_getElem? hp, rfl⟩)

/-- The peak of all calls, if as many as can run at first. -/
theorem peak_eq (h : Measured o limits first s) (hfirst : Packed o limits first)
    (hrunning : s.running = []) :
    s.gauges.total.peak = min limits.maxRequests.toNat (demand o limits.maxPerHost.toNat) := by
  refine Nat.le_antisymm (h.metered _ List.mem_cons_self).peak_le ?_
  have hreached := h.reached_first hrunning _ List.mem_cons_self
  rwa [hfirst.total] at hreached

/-- The peaks of the hosts, if as many calls as can run at first. -/
theorem peak_host (h : Measured o limits first s) (hvalid : o.Valid)
    (hfirst : Packed o limits first) (hrunning : s.running = [])
    (hcalls : s.dispatcher.ledger.queue.allCalls = [])
    (hpeak : (s.report limits jobs).hostPeaks[rank]? = some (host, peak)) :
    peak ≤ min limits.maxPerHost.toNat (callsTo o rank) ∧ (1 ≤ callsTo o rank → 1 ≤ peak) ∧
      (demand o limits.maxPerHost.toNat ≤ limits.maxRequests.toNat →
        peak = min limits.maxPerHost.toNat (callsTo o rank)) := by
  obtain ⟨hrank, g, rfl, hplace⟩ := h.exists_gauge hpeak
  have hle := (h.metered _ hplace).peak_le
  rw [← share_hostList hvalid limits hrank]
  refine ⟨hle, fun hsome => ?_, fun hdemand => Nat.le_antisymm hle ?_⟩
  · -- one of the calls to the host was counted
    rw [← load_range hvalid hrank] at hsome
    obtain ⟨t, ht, hcounts⟩ := List.countP_pos_iff.1 hsome
    have hgone := h.counted t (h.next_eq ▸ List.mem_range.1 ht)
    rw [hcalls] at hgone
    have hreached := hgone.resolve_left List.not_mem_nil _ hplace
    simpa [load, hcounts] using hreached
  · rw [← hfirst.host hdemand rank hrank]
    exact h.reached_first hrunning _ hplace

end Measured

variable {e : Environment} {l : Limits} {arguments : List String}

/-- **Peaks.** Whatever options are read and whatever the environment holds, if every call takes
time, there is room for the calls, and the limits are valid, then as many calls run at once as the
demand and the total limit allow, and never more. The peaks are reported by host, in the order of
the names. A host's peak is no higher than its limit and its calls allow; it is not zero if a call
that is not duplex goes to the host; and it is as high as it can be if the total limit allows for
the demand. -/
theorem peaks_of_read (hread : Options.read arguments = .ok o) (hcalls : o.calls.toNat < 2 ^ 60)
    (hlatency : 1 ≤ o.latency) (henv : Limits.ofEnvironment e = .ok l)
    (htotal : 1 ≤ (l.override o.limits).maxRequests)
    (hhost : 1 ≤ (l.override o.limits).maxPerHost) :
    (o.hostList.Perm ((List.range o.hosts.toNat).map hostName) ∧
      o.hostList.Pairwise (·.name < ·.name)) ∧
    (o.jobs.length = o.calls.toNat ∧ ∀ n j, o.jobs[n]? = some j →
      o.hostList[n % o.hosts.toNat]? = some j.host ∧
      (j.duplex = true ↔ ∃ k ∈ o.duplexEvery, n % k.toNat = k.toNat - 1)) ∧
    ∃ notices report, run o e = { notices, report := some report, error := none } ∧
      report.peak = min (l.override o.limits).maxRequests.toNat
        (demand o (l.override o.limits).maxPerHost.toNat) ∧
      report.hostPeaks.map (·.1) = o.hostList ∧
      ∀ rank host peak, report.hostPeaks[rank]? = some (host, peak) →
        peak ≤ min (l.override o.limits).maxPerHost.toNat (callsTo o rank) ∧
        (1 ≤ callsTo o rank → 1 ≤ peak) ∧
        (demand o (l.override o.limits).maxPerHost.toNat ≤
            (l.override o.limits).maxRequests.toNat →
          peak = min (l.override o.limits).maxPerHost.toNat (callsTo o rank)) := by
  have hvalid := valid_of_read hread
  have hlatency' : o.latency ≠ 0 := by
    intro hzero
    rw [hzero] at hlatency
    exact absurd hlatency (by decide)
  refine ⟨⟨hostList_perm o, hostList_sorted o⟩, ⟨length_jobs o, fun n j hj => ?_⟩, ?_⟩
  · obtain ⟨hhost, hduplex⟩ := job_eq hvalid hj
    refine ⟨hhost, ?_⟩
    rw [hduplex]
    simp [endsPeriod, Option.any_eq_true]
  · obtain ⟨notices, s₀, s', hsteady, hfresh, hnext, hturns, hrunning, hrun⟩ :=
      exists_run hcalls henv htotal hhost
    obtain ⟨hlast, hmeasured⟩ := Steady.induction
      (P := Measured o (l.override o.limits) s₀.running)
      (fun _ _ h hs hturn => hs.advance h hvalid hlatency' hturn) hsteady
      (hfresh.measured hnext) hturns
    have hfirst := hsteady.tended.packed hvalid (hnext ▸ hfresh.calls) hsteady.served.settled hnext
    have hgone := hlast.tended.allCalls_eq_nil hlast.served ⟨htotal, hhost⟩
      (List.map_eq_nil_iff.1 hrunning)
    refine ⟨notices, _, hrun, hmeasured.peak_eq hfirst hrunning, ?_, ?_⟩
    · rw [State.report, List.map_map]
      exact hmeasured.hosts_eq
    · exact fun rank host peak hpeak => hmeasured.peak_host hvalid hfirst hrunning hgone hpeak

/-- Seven calls to two hosts, each of which takes two at once; the fourth call is duplex. -/
def evenArguments : List String :=
  ["--calls", "7", "--hosts", "2", "--latency-ms", "5", "--duplex-every", "4",
    "--max-requests", "8"]

theorem peaks_of_evenArguments :
    ∃ o l, Options.read evenArguments = .ok o ∧ o.calls.toNat < 2 ^ 60 ∧ 1 ≤ o.latency ∧
      Limits.ofEnvironment { maxPerHost := .text " 2 " } = .ok l ∧ l.override o.limits = ⟨8, 2⟩ ∧
      duplexCalls o = 1 ∧ callsTo o 0 = 4 ∧ callsTo o 1 = 2 ∧
      ∃ notices report,
        run o { maxPerHost := .text " 2 " } = { notices, report := some report, error := none } ∧
        report.peak = 5 ∧ report.hostPeaks.map (·.1) = o.hostList ∧
        ∀ rank host peak, report.hostPeaks[rank]? = some (host, peak) →
          peak = min 2 (callsTo o rank) := by
  have hread : Options.read evenArguments = .ok ⟨7, 2, 5, none, some 4, ⟨some 8, none⟩⟩ := rfl
  have henv : Limits.ofEnvironment { maxPerHost := .text " 2 " } = .ok ⟨64, 2⟩ := rfl
  refine ⟨_, _, hread, by decide, by decide, henv, by decide, by decide, by decide, by decide, ?_⟩
  obtain ⟨-, -, notices, report, hrun, hpeak, hkeys, hpeaks⟩ :=
    peaks_of_read hread (by decide) (by decide) henv (by decide) (by decide)
  refine ⟨notices, report, hrun, hpeak.trans (by decide), hkeys, fun rank host peak hrank => ?_⟩
  exact (hpeaks rank host peak hrank).2.2 (by decide)

end CallAdmission.Simulation
