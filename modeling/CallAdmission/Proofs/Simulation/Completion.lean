import CallAdmission.Proofs.Simulation.Metering
import CallAdmission.Proofs.Simulation.Plan

/-!
# CallAdmission.Proofs.Simulation.Completion

The report of a simulation. All calls are submitted before the first turn; then turns are taken
until no task is left. No call is left then, each has ended as planned, and the idle callback was
invoked.

* `exists_leads_simulate` — the way of a simulation, from its start to its report;
* `foldl_add` — how many calls have ended in which way;
* `report_of_read` — for all arguments and environments.
-/

namespace CallAdmission.Simulation

open Relation (ReflTransGen)

variable {jobs : List Job} {limits : Limits} {hosts : List Host} {s s₁ s' : State}

/-! ## before the first turn -/

/-- A simulation before its first call. -/
def State.start (limits : Limits) (hosts : List Host) : State where
  dispatcher := { ledger := { queue := { limits, idle := some 0 } } }
  gauges := .ofHosts hosts

theorem steady_start (jobs : List Job) (limits : Limits) (hosts : List Host) :
    Steady jobs limits (.start limits hosts) where
  tended :=
    { still := ⟨rfl, rfl, rfl, rfl⟩
      sound := (Queue.Sound.empty limits).step (.setIdle (some 0))
      within := ⟨Nat.zero_le _, fun _ => Nat.zero_le _⟩
      limits_eq := rfl
      sync := rfl
      idle := rfl
      busy := nofun
      planned := nofun
      kept := by
        refine ⟨[], [], ⟨rfl, rfl, Multiset.nodup_zero, nofun, fun _ _ => rfl, fun t => ?_⟩, nofun⟩
        exact ⟨.absent, rfl, rfl, rfl, rfl, rfl, nofun⟩
      recorded := nofun }
  served := (Queue.served_empty limits).setIdle (some 0)
  lined := ⟨rfl, rfl, .refl _, .refl _, List.nodup_nil, nofun, nofun⟩
  rested := nofun

/-- Calls were submitted, and no turn was taken. -/
structure Fresh (hosts : List Host) (s : State) : Prop where
  gauges : s.gauges = .ofHosts hosts
  asleep : s.asleep = []
  timers : s.scheduler.timers = []
  calls : s.dispatcher.ledger.queue.allCalls.Perm (List.range s.dispatcher.next)

theorem fresh_start (limits : Limits) (hosts : List Host) : Fresh hosts (.start limits hosts) :=
  ⟨rfl, rfl, rfl, .refl _⟩

theorem Fresh.submitted (h : Fresh hosts s) (j : Job) : Fresh hosts (s.submitted j) where
  gauges := h.gauges
  asleep := h.asleep
  timers := by
    rw [State.submitted, State.pass, Scheduler.foldl_spawn]
    exact h.timers
  calls := by
    have hnext : (s.submitted j).dispatcher.next = s.dispatcher.next + 1 := rfl
    rw [hnext, List.range_succ]
    refine (allCalls_submitted s j).trans ?_
    exact (h.calls.cons _).trans (List.perm_append_singleton _ _).symm

/-! ## after the last turn -/

/-- What every turn keeps holds after all turns. -/
theorem Steady.induction {P : State → Prop}
    (hP : ∀ s s₁, Steady jobs limits s → P s → Advance jobs s s₁ → P s₁)
    (h : Steady jobs limits s) (hs : P s) (hrun : ReflTransGen (Advance jobs) s s') :
    Steady jobs limits s' ∧ P s' := by
  induction hrun with
  | refl => exact ⟨h, hs⟩
  | tail _ hturn ih => exact ⟨ih.1.advance hturn, hP _ _ ih.1 ih.2 hturn⟩

theorem Advance.next_eq (h : Advance jobs s s₁) : s₁.dispatcher.next = s.dispatcher.next := by
  cases h <;> rfl

/-- The outcomes of calls that are computed one after the other. -/
theorem mapM_range_eq {α β : Type} {f : Nat → Option β} {g : α → β} {xs : List α}
    (h : ∀ n x, xs[n]? = some x → f n = some (g x)) :
    (List.range xs.length).mapM f = some (xs.map g) := by
  induction xs using List.reverseRecOn with
  | nil => rfl
  | append_singleton xs x ih =>
    have hlast : f xs.length = some (g x) := h _ x (by simp)
    have hfront := ih fun n y hy => h n y (by
      rw [List.getElem?_append_left (List.getElem?_eq_some_iff.1 hy).1]
      exact hy)
    rw [List.length_append, List.length_singleton, List.range_succ, List.mapM_append, hfront]
    simp [hlast]

/-- The report on a simulation of which no call is left. -/
def State.report (s : State) (limits : Limits) (jobs : List Job) : Report where
  limits
  calls := jobs.length
  outcomes := (jobs.map fun j => Outcome.ofResult j.result).foldl .add {}
  peak := s.gauges.total.peak
  hostPeaks := s.gauges.hosts.map fun h => (h.1, h.2.peak)
  elapsed := s.scheduler.now
  final := { limits, queued := 0, runningAsync := 0, runningSync := 0, hosts := [] }

/-- Nothing is left in the queue when no call is. -/
theorem snapshot_eq {q : Queue} (h : q.allCalls = []) :
    q.snapshot =
      { limits := q.limits, queued := 0, runningAsync := 0, runningSync := 0, hosts := [] } := by
  simp only [Queue.allCalls, Queue.queuedCalls, List.append_eq_nil_iff, List.map_eq_nil_iff] at h
  obtain ⟨⟨hready, hrunning⟩, hsync⟩ := h
  have hhosts : q.hosts = [] := by
    rw [Queue.hosts, hready, hrunning, Host.sortUnique, List.append_nil, List.map_nil,
      List.mergeSort_nil]
    rfl
  simp [Queue.snapshot, hhosts, hready, hrunning, hsync]

namespace Steady

/-- Every call has its outcome when none is left. -/
theorem outcomes?_eq (h : Steady jobs limits s) (hcalls : s.dispatcher.ledger.queue.allCalls = [])
    (hnext : s.dispatcher.next = jobs.length) :
    outcomes? s.dispatcher.ledger jobs.length =
      some (jobs.map fun j => .ofResult j.result) := by
  refine mapM_range_eq fun n j hj => h.tended.outcome?_eq ?_ ?_ hj
  · rw [hnext]
    exact (List.getElem?_eq_some_iff.1 hj).1
  · rw [hcalls]
    exact List.not_mem_nil

/-- The idle callback was invoked, unless there was no call. -/
theorem rested_of_running (h : Steady jobs limits s) (hrunning : s.running = [])
    (hnext : s.dispatcher.next = jobs.length) : (!jobs.isEmpty && !s.rested) = false := by
  cases hempty : jobs with
  | nil => rfl
  | cons j rest =>
    have hpos : 0 < s.dispatcher.next := by
      rw [hnext, hempty]
      exact Nat.succ_pos _
    have hidle := (h.rested hpos).resolve_left fun hne => hne hrunning
    simp [hidle]

/-- Before the first turn there are enough turns. -/
theorem affords_turnsFor (hfresh : Fresh hosts s) (hnext : s.dispatcher.next = jobs.length) :
    s.Affords (turnsFor jobs.length) := by
  have hcalls := hfresh.calls.length_eq
  rw [Queue.allCalls, List.length_append, List.length_append, Queue.queuedCalls, List.length_map,
    List.length_range, hnext] at hcalls
  rw [State.Affords, State.running, hfresh.timers, hfresh.asleep, turnsFor]
  simp only [List.length_nil]
  omega

end Steady

/-- The way of a simulation: calls are submitted, turns are taken, and when no task is left the
report is made. -/
theorem exists_leads_simulate (jobs : List Job) (hosts : List Host)
    (hlimits : 1 ≤ limits.maxRequests ∧ 1 ≤ limits.maxPerHost) :
    ∃ s₁ s', Steady jobs limits s₁ ∧ Fresh hosts s₁ ∧ s₁.dispatcher.next = jobs.length ∧
      ReflTransGen (Advance jobs) s₁ s' ∧ s'.running = [] ∧
      Leads (simulate limits hosts jobs)
        { dispatcher := { ledger := { queue := { limits } } }, gauges := .ofHosts hosts }
        (s'.report limits jobs) s' := by
  have hshort : jobs.length + 2 ≤ turnsFor jobs.length := by
    rw [turnsFor]
    omega
  obtain ⟨s₁, hsubmit, hsteady, hfresh, hnext⟩ :=
    exists_leads_submitAll (P := Fresh hosts) (fun s j _ hs _ => hs.submitted j) hlimits
      (steady_start jobs limits hosts) (fresh_start limits hosts) (List.nil_append jobs).symm rfl
      hshort
  obtain ⟨s', hturns, hlast, ⟨hrun, hnext'⟩, hready, htimers⟩ :=
    exists_leads_runTasks
      (P := fun s => ReflTransGen (Advance jobs) s₁ s ∧ s.dispatcher.next = jobs.length)
      (fun _ _ _ hs hturn => ⟨hs.1.tail hturn, hturn.next_eq.trans hs.2⟩) hsteady ⟨.refl, hnext⟩
      (Steady.affords_turnsFor hfresh hnext)
  have hrunning : s'.running = [] := by
    have hline := hlast.lined.line
    rw [hready, htimers] at hline
    exact List.nil_perm.1 hline
  have hcalls := hlast.tended.allCalls_eq_nil hlast.served hlimits
    (List.map_eq_nil_iff.1 hrunning)
  have hfinal := snapshot_eq hcalls
  rw [hlast.tended.limits_eq] at hfinal
  refine ⟨s₁, s', hsteady, hfresh, hnext, hrun, hrunning, ?_⟩
  rw [simulate]
  refine (leads_act rfl).bind ?_
  refine (leads_say _ _).bind ?_
  refine hsubmit.bind ?_
  refine leads_get_bind (fun ns => rfl) ?_
  refine (leads_say _ _).bind ?_
  refine hturns.bind ?_
  refine leads_get_bind (fun ns => rfl) ?_
  simp only [hlast.rested_of_running hrunning hnext', hlast.outcomes?_eq hcalls hnext', hfinal]
  exact leads_pure _ _

/-! ## the report -/

/-- How many calls have ended in which way. -/
theorem foldl_add (jobs : List Job) (c : Outcomes) :
    (jobs.map fun j => Outcome.ofResult j.result).foldl .add c =
      { c with
        succeeded := c.succeeded + jobs.countP (!·.fails)
        failed := c.failed + jobs.countP (·.fails) } := by
  induction jobs generalizing c with
  | nil => rfl
  | cons j jobs ih =>
    rw [List.map_cons, List.foldl_cons, ih]
    cases hfails : j.fails with
    | true => simp [Job.result, hfails, Outcome.ofResult, Outcomes.add]; omega
    | false => simp [Job.result, hfails, Outcome.ofResult, Outcomes.add]; omega

/-- A report passes its check if the gauges have shown no more than the limits allow. -/
theorem check_report {count : Option Host → Nat} (h : s.gauges.Show count (capOf limits))
    (jobs : List Job) : (s.report limits jobs).check = .ok () := by
  have htotal : ¬ (s.report limits jobs).limits.maxRequests.toNat < (s.report limits jobs).peak :=
    Nat.not_lt.2 (h _ List.mem_cons_self).peak_le
  have hhosts : (s.report limits jobs).hostPeaks.find?
      (fun h => (s.report limits jobs).limits.maxPerHost.toNat < h.2) = none := by
    rw [List.find?_eq_none]
    intro p hp
    obtain ⟨q, hq, rfl⟩ := List.mem_map.1 hp
    have hplace : (some q.1, q.2) ∈ s.gauges.places :=
      List.mem_cons_of_mem _ (List.mem_map.2 ⟨q, hq, rfl⟩)
    have hpeak : q.2.peak ≤ (s.report limits jobs).limits.maxPerHost.toNat := (h _ hplace).peak_le
    simpa using hpeak
  rw [Report.check, if_neg htotal, hhosts]

/-- Before the first turn every gauge shows nothing. -/
theorem Fresh.metered (h : Fresh hosts s) (jobs : List Job) (cap : Option Host → Nat) :
    Metered jobs cap s := by
  rw [Metered, Gauges.Show, h.gauges, h.asleep]
  intro p hp
  have hrest : p.2 = {} := by
    rcases List.mem_cons.1 hp with rfl | hp
    · rfl
    · simp only [Gauges.ofHosts, List.map_map, List.mem_map] at hp
      obtain ⟨host, -, rfl⟩ := hp
      rfl
  rw [hrest]
  exact ⟨rfl, Nat.le_refl _, Nat.zero_le _⟩

variable {o : Options} {e : Environment} {l : Limits} {arguments : List String}

/-- A run with valid limits: what comes of the calls, turn by turn, and the report on it. -/
theorem exists_run (hcalls : o.calls.toNat < 2 ^ 60) (henv : Limits.ofEnvironment e = .ok l)
    (htotal : 1 ≤ (l.override o.limits).maxRequests)
    (hhost : 1 ≤ (l.override o.limits).maxPerHost) :
    ∃ notices s₁ s', Steady o.jobs (l.override o.limits) s₁ ∧ Fresh o.hostList s₁ ∧
      s₁.dispatcher.next = o.calls.toNat ∧ ReflTransGen (Advance o.jobs) s₁ s' ∧ s'.running = [] ∧
      run o e = { notices, report := some (s'.report (l.override o.limits) o.jobs) } := by
  obtain ⟨s₁, s', hsteady, hfresh, hnext, hturns, hrunning, hleads⟩ :=
    exists_leads_simulate o.jobs o.hostList ⟨htotal, hhost⟩
  have hresolve : o.resolve e = .ok (l.override o.limits) := by
    rw [Options.resolve, henv]
    rfl
  have hcreate : Dispatcher.create (l.override o.limits) =
      .ok ({ ledger := { queue := { limits := l.override o.limits } } },
        [.created (l.override o.limits)]) :=
    Dispatcher.create_of_valid ⟨htotal, hhost⟩
  have hroom : ¬ maxCalls < o.calls.toNat := by
    have hmax : maxCalls = 2 ^ 60 - 1 := by decide
    omega
  obtain ⟨-, hmetered⟩ := Steady.induction (P := Metered o.jobs (capOf (l.override o.limits)))
    (fun _ _ h hs hturn => Metered.advance h (load_running_le h.tended) hs hturn) hsteady
    (hfresh.metered _ _) hturns
  obtain ⟨notices, hsimulate⟩ := hleads [.created (l.override o.limits)]
  refine ⟨notices.reverse, s₁, s', hsteady, hfresh, hnext.trans (length_jobs o), hturns, hrunning,
    ?_⟩
  rw [run, hresolve]
  simp only [hcreate, if_neg hroom]
  rw [hsimulate]
  simp only [check_report hmetered]

/-- **Completion.** Whatever options are read and whatever the environment holds, if there is room
for the calls and the limits are valid, the simulation comes to its end without an error. There is a
host for every call, no period is zero, and no latency is too long. The report counts all the calls,
and those that were to fail as failed; no call was canceled, and nothing is left in the queue. -/
theorem report_of_read (hread : Options.read arguments = .ok o) (hcalls : o.calls.toNat < 2 ^ 60)
    (henv : Limits.ofEnvironment e = .ok l) (htotal : 1 ≤ (l.override o.limits).maxRequests)
    (hhost : 1 ≤ (l.override o.limits).maxPerHost) :
    (o.hostList ≠ [] ∧ (∀ k ∈ o.failEvery, k ≠ 0) ∧ (∀ k ∈ o.duplexEvery, k ≠ 0) ∧
      ∀ j ∈ o.jobs, j.latency / 1000 < UInt64.size) ∧
    ∃ notices report, run o e = { notices, report := some report, error := none } ∧
      report.limits = l.override o.limits ∧ report.calls = o.calls.toNat ∧
      report.outcomes = ⟨o.calls.toNat - failures o, failures o, 0⟩ ∧
      report.final = ⟨l.override o.limits, 0, 0, 0, []⟩ := by
  have hvalid := valid_of_read hread
  refine ⟨⟨hostList_ne_nil hvalid, hvalid.failEvery, hvalid.duplexEvery, latency_lt o⟩, ?_⟩
  obtain ⟨notices, s₁, s', -, -, -, -, -, hrun⟩ := exists_run hcalls henv htotal hhost
  refine ⟨notices, _, hrun, rfl, length_jobs o, ?_, rfl⟩
  have hfailed := countP_fails hvalid
  have hall := List.length_eq_countP_add_countP (·.fails) (l := o.jobs)
  show (o.jobs.map fun j => Outcome.ofResult j.result).foldl Outcomes.add {} = _
  rw [foldl_add, ← hfailed, ← length_jobs, hall]
  simp

/-- Seven calls, of which every third fails and every fourth is duplex, and two of which may run at
once. -/
def smallArguments : List String :=
  ["--calls", "7", "--hosts", "2", "--latency-ms", "0", "--fail-every", "3", "--duplex-every", "4",
    "--max-requests", "2"]

theorem report_of_smallArguments :
    ∃ o l, Options.read smallArguments = .ok o ∧ o.calls.toNat < 2 ^ 60 ∧
      Limits.ofEnvironment { maxPerHost := .text " 1 " } = .ok l ∧ l.override o.limits = ⟨2, 1⟩ ∧
      (o.hostList ≠ [] ∧ (∀ k ∈ o.failEvery, k ≠ 0) ∧ (∀ k ∈ o.duplexEvery, k ≠ 0) ∧
        ∀ j ∈ o.jobs, j.latency / 1000 < UInt64.size) ∧
      ∃ notices report,
        run o { maxPerHost := .text " 1 " } = { notices, report := some report, error := none } ∧
        report.limits = ⟨2, 1⟩ ∧ report.calls = 7 ∧ report.outcomes = ⟨5, 2, 0⟩ ∧
        report.final = ⟨⟨2, 1⟩, 0, 0, 0, []⟩ := by
  have hread : Options.read smallArguments = .ok ⟨7, 2, 0, some 3, some 4, ⟨some 2, none⟩⟩ := rfl
  have henv : Limits.ofEnvironment { maxPerHost := .text " 1 " } = .ok ⟨64, 1⟩ := rfl
  refine ⟨_, _, hread, by decide, henv, by decide, ?_⟩
  exact report_of_read hread (by decide) henv (by decide) (by decide)

end CallAdmission.Simulation
