import CallAdmission.Proofs.Queue.Scan
import Mathlib.Data.List.Induction

/-!
# CallAdmission.Proofs.Queue.Admission

What the limits mean for a promotion pass. A call is admitted only while there is room for it, under
the total limit and, unless it is duplex, under the limit of its host; calls that run already may
stand above a limit, and a pass leaves them there. The idle callback is due at the end of a pass
exactly if the pass makes the queue idle.

* `scan_admits`, `Coherent.promote_admits` — the room that a call finds at its admission;
* `Coherent.runningCount_promote_le`, `Coherent.countP_promote_le` — what a pass adds stays within
  the limits;
* `Coherent.fills_promote` — how a pass lets calls run;
* `promote_idle` — when the idle callback is due.
-/

namespace CallAdmission.Queue

variable {q : Queue} {e : Entry} {next : Ticket}

/-! ## room at admission -/

theorem runningCount_letIn (q : Queue) (e : Entry) :
    (q.letIn e).runningCount = q.runningCount + 1 := by
  have hsync : (q.letIn e).sync = q.sync := rfl
  rw [runningCount, runningCount, letIn_running, hsync, List.length_append, List.length_singleton]
  omega

/-- Unless it is passed over, a call that counts against the limit of its host finds room there. -/
theorem countP_lt_of_not_saturated {es : List Entry} (hs : Sharing (q.running ++ e :: es))
    (ht : q.Tallied) (hsat : ¬ q.isSaturated e = true) (hd : e.duplex = false) :
    q.running.countP (isLimited e.host) < q.limits.maxPerHost.toNat := by
  have hmem : e ∈ q.running ++ e :: es := List.mem_append_right _ List.mem_cons_self
  have hload : (q.counters.get e.counter).running = q.running.countP (isLimited e.host) := by
    rw [ht, hs.countP_counter (fun _ => List.mem_append_left _) hmem hd]
  rw [← hload]
  simpa [isSaturated, hd] using hsat

/-- A scan goes on with the calls behind the first. -/
theorem sharing_of_cons {es : List Entry} (hs : Sharing (q.running ++ e :: es)) :
    Sharing (q.running ++ es) := by
  apply hs.mono
  intro f hf
  rcases List.mem_append.1 hf with hf | hf
  · exact List.mem_append_left _ hf
  · exact List.mem_append_right _ (List.mem_cons_of_mem e hf)

/-- When a scan admits a call, those run that ran before and those that it admitted earlier. The
call finds room under the total limit and, unless it is duplex, under the limit of its host. -/
theorem scan_admits {es front back : List Entry} (hs : Sharing (q.running ++ es)) (ht : q.Tallied)
    (h : (q.scan es).2.1.map (·.entry) = front ++ e :: back) :
    q.runningCount + front.length < q.limits.maxRequests.toNat ∧
      (e.duplex = false →
        (q.running ++ front).countP (isLimited e.host) < q.limits.maxPerHost.toNat) := by
  induction q, es using scan.induct generalizing front with
  | case1 q => simp [scan] at h
  | case2 q f es hroom hsat ih =>
    rw [scan, if_pos hroom, if_pos hsat] at h
    exact ih (sharing_of_cons hs) ht h
  | case3 q f es hroom hsat ih =>
    rw [scan, if_pos hroom, if_neg hsat] at h
    cases front with
    | nil =>
      obtain ⟨rfl, -⟩ := List.cons.inj h
      refine ⟨by simpa [hasRoom] using hroom, fun hd => ?_⟩
      rw [List.append_nil]
      exact countP_lt_of_not_saturated hs ht hsat hd
    | cons f' front =>
      obtain ⟨rfl, hrest⟩ := List.cons.inj h
      obtain ⟨htotal, hhost⟩ := ih (by simpa using hs) (ht.letIn f) hrest
      have hlimits : (q.letIn f).limits = q.limits := rfl
      rw [runningCount_letIn, hlimits] at htotal
      rw [letIn_running, hlimits, List.append_assoc, List.singleton_append] at hhost
      exact ⟨by rw [List.length_cons]; omega, hhost⟩
  | case4 q f es hroom => simp [scan, hroom] at h

/-- When a pass admits a call, it finds room under the limits. -/
theorem Coherent.promote_admits {front back : List Entry} (h : q.Coherent next)
    (hadmitted : q.promote.admitted.map (·.entry) = front ++ e :: back) :
    q.runningCount + front.length < q.limits.maxRequests.toNat ∧
      (e.duplex = false →
        (q.running ++ front).countP (isLimited e.host) < q.limits.maxPerHost.toNat) :=
  scan_admits h.sharing h.tally hadmitted

/-! ## the load after a pass -/

/-- The calls that a pass admits go to the end of the running ones. -/
theorem promote_running_eq_append (q : Queue) :
    q.promote.queue.running = q.running ++ q.promote.admitted.map (·.entry) := by
  rw [promote_running, scan_running]
  rfl

theorem runningCount_promote (q : Queue) :
    q.promote.queue.runningCount = q.runningCount + q.promote.admitted.length := by
  simp only [runningCount, promote_running_eq_append, promote_sync, List.length_append,
    List.length_map]
  omega

/-- A pass lets no more calls run than the total limit allows, unless as many ran before. -/
theorem Coherent.runningCount_promote_le (h : q.Coherent next) :
    q.promote.queue.runningCount ≤ max q.limits.maxRequests.toNat q.runningCount := by
  rw [runningCount_promote, ← List.length_map (·.entry)]
  rcases List.eq_nil_or_concat (q.promote.admitted.map (·.entry)) with hnil | ⟨front, e, hlast⟩
  · rw [hnil, List.length_nil]
    exact Nat.le_max_right _ _
  · rw [List.concat_eq_append] at hlast
    have hroom := (h.promote_admits hlast).1
    rw [hlast, List.length_append, List.length_singleton]
    exact Nat.le_trans hroom (Nat.le_max_left _ _)

/-- A pass lets no more calls to a host run than the limit of the host allows, unless as many ran
before. -/
theorem Coherent.countP_promote_le (h : q.Coherent next) (host : Host) :
    q.promote.queue.running.countP (isLimited host) ≤
      max q.limits.maxPerHost.toNat (q.running.countP (isLimited host)) := by
  rw [promote_running_eq_append]
  -- the last of the admitted calls that count against the limit found room
  suffices hfront : ∀ front back, q.promote.admitted.map (·.entry) = front ++ back →
      (q.running ++ front).countP (isLimited host) ≤
        max q.limits.maxPerHost.toNat (q.running.countP (isLimited host)) from
    hfront _ [] (List.append_nil _).symm
  intro front
  induction front using List.reverseRecOn with
  | nil =>
    intro back _
    rw [List.append_nil]
    exact Nat.le_max_right _ _
  | append_singleton front e ih =>
    intro back hadmitted
    rw [List.append_assoc, List.singleton_append] at hadmitted
    rw [← List.append_assoc, List.countP_append, List.countP_singleton]
    split
    · next hlimited =>
      simp only [isLimited, Bool.and_eq_true, Bool.not_eq_true', beq_iff_eq] at hlimited
      obtain ⟨hd, rfl⟩ := hlimited
      exact Nat.le_trans ((h.promote_admits hadmitted).2 hd) (Nat.le_max_left _ _)
    · exact ih (e :: back) hadmitted

/-- The queue keeps to the total limit and, unless the call is duplex, to the limit of its host. -/
def Fits (q : Queue) (e : Entry) : Prop :=
  q.runningCount ≤ q.limits.maxRequests.toNat ∧
    (e.duplex = false → q.running.countP (isLimited e.host) ≤ q.limits.maxPerHost.toNat)

/-- The queue comes to let more calls run. -/
structure Fills (q q' : Queue) : Prop where
  limits : q'.limits = q.limits
  sync : q'.sync = q.sync
  /-- the calls begin to run one after the other, and with each of them the queue keeps to its
  limits -/
  fits : ∃ entered, q'.running = q.running ++ entered ∧ ∀ front e back,
    entered = front ++ e :: back → Fits { q' with running := q.running ++ front ++ [e] } e
  /-- where the load is above a limit in the end, it was so before -/
  total : q'.runningCount ≤ max q'.limits.maxRequests.toNat q.runningCount
  perHost : ∀ host, q'.running.countP (isLimited host) ≤
    max q'.limits.maxPerHost.toNat (q.running.countP (isLimited host))

/-- A pass lets calls run within the limits. -/
theorem Coherent.fills_promote (h : q.Coherent next) : q.Fills q.promote.queue where
  limits := promote_limits q
  sync := promote_sync q
  fits := by
    refine ⟨_, promote_running_eq_append q, fun front e back hadmitted => ?_⟩
    obtain ⟨htotal, hhost⟩ := h.promote_admits hadmitted
    refine ⟨?_, fun hd => ?_⟩
    · simp only [runningCount, promote_sync, promote_limits, List.length_append,
        List.length_singleton] at htotal ⊢
      omega
    · have hlimited : isLimited e.host e = true := by simp [isLimited, hd]
      change (q.running ++ front ++ [e]).countP (isLimited e.host) ≤
        q.promote.queue.limits.maxPerHost.toNat
      rw [promote_limits, List.countP_append, List.countP_singleton, if_pos hlimited]
      exact hhost hd
  total := by
    rw [promote_limits]
    exact h.runningCount_promote_le
  perHost host := by
    rw [promote_limits]
    exact h.countP_promote_le host

/-! ## the idle callback -/

/-- The queue after the scan of a pass, before the pass looks at the idle callback. -/
def scanned (q : Queue) : Queue :=
  { (q.scan q.ready).1 with
    ready := (q.scan q.ready).2.2
    busy := (q.scan q.ready).1.busy || !q.promote.admitted.isEmpty }

theorem promote_eq_scanned (q : Queue) :
    q.promote = ⟨q.scanned.settle, q.promote.admitted, q.scanned.dueIdle⟩ := rfl

theorem scanned_busy (q : Queue) : q.scanned.busy = (q.busy || !q.promote.admitted.isEmpty) := by
  simp only [scanned]
  rw [scan_frame]

theorem scanned_idle (q : Queue) : q.scanned.idle = q.idle := by
  simp only [scanned]
  rw [scan_frame]

@[simp] theorem settle_runningCount (q : Queue) : q.settle.runningCount = q.runningCount := by
  unfold settle
  split <;> rfl

theorem settle_busy (q : Queue) : q.settle.busy = (q.busy && decide (q.runningCount ≠ 0)) := by
  unfold settle
  split
  · next hcount => simp [hcount]
  · next hcount => simp [hcount]

theorem promote_busy (q : Queue) :
    q.promote.queue.busy =
      ((q.busy || !q.promote.admitted.isEmpty) && decide (q.promote.queue.runningCount ≠ 0)) := by
  rw [promote_eq_scanned, settle_busy, scanned_busy, settle_runningCount]

/-- If nothing runs at the end of a pass, the pass has admitted no call. -/
theorem admitted_eq_nil_of_runningCount (h : q.promote.queue.runningCount = 0) :
    q.promote.admitted = [] := by
  rw [runningCount_promote] at h
  exact List.eq_nil_of_length_eq_zero (by omega)

/-- The idle callback is due at the end of a pass exactly if something has run since it was last due
and the pass finds that nothing runs any more; it is the one that is registered then. -/
theorem promote_idle (q : Queue) :
    q.promote.idle = if q.busy && !q.promote.queue.busy then q.idle else none := by
  have hcount : q.scanned.runningCount = q.promote.queue.runningCount := by
    rw [promote_eq_scanned, settle_runningCount]
  have hdue : q.promote.idle = q.scanned.dueIdle := by rw [promote_eq_scanned]
  rw [hdue, dueIdle, promote_busy, scanned_busy, scanned_idle, hcount]
  by_cases hidle : q.promote.queue.runningCount = 0
  · simp [hidle, admitted_eq_nil_of_runningCount hidle]
  · cases hbusy : q.busy <;> simp [hidle]

/-- A pass that admits a call finds no idle callback due. -/
theorem promote_idle_of_admitted (h : q.promote.admitted ≠ []) : q.promote.idle = none := by
  have hcount : q.promote.queue.runningCount ≠ 0 := mt admitted_eq_nil_of_runningCount h
  rw [promote_idle, promote_busy]
  cases hbusy : q.busy <;> simp [hcount]

/-- If whatever runs has been noticed before a pass, it has after the pass. -/
theorem busy_promote (h : 0 < q.runningCount → q.busy = true)
    (hcount : 0 < q.promote.queue.runningCount) : q.promote.queue.busy = true := by
  have hpos : q.promote.queue.runningCount ≠ 0 := by omega
  rw [promote_busy, decide_eq_true hpos, Bool.and_true]
  cases hadmitted : q.promote.admitted with
  | nil =>
    rw [runningCount_promote, hadmitted] at hcount
    simp [h hcount]
  | cons f rest => simp

end CallAdmission.Queue
