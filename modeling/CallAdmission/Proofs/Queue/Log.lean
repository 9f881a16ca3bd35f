import CallAdmission.Proofs.Queue.Refinement
import Mathlib.Data.List.Induction
import Mathlib.Data.List.Perm.Subperm

/-!
# CallAdmission.Proofs.Queue.Log

What notices tell of a queue. Every change of its calls and of its limits is told, and the calls that
one promotion pass admits are told one after the other; so the notices before any one of them give
the queue as it stood at that instant, in the midst of a pass too.

* `replay` — the queue as notices tell it;
* `Orderly` — calls arrive with rising tickets, and each admission is that of the first call that
  may run;
* `Orderly.promote` — the admissions of a pass are orderly;
* `Orderly.waiting` — the calls that wait are those that have arrived and were not admitted;
* `Orderly.overtaken`, `Orderly.sublist_admissions` — what it means to be overtaken, and who never
  is.
-/

namespace CallAdmission

/-! ## the queue as it is told -/

namespace PlainQueue

/-- The calls and the limits of a queue. -/
def bare (q : PlainQueue) : PlainQueue := { q with idle := none, busy := false }

/-- A call that waits begins to run. -/
def letIn (q : PlainQueue) (t : Ticket) : PlainQueue :=
  { q with
    ready := q.ready.eraseP (·.call == t)
    running := q.running ++ (q.ready.find? (·.call == t)).toList }

/-- The call that is admitted next: while there is room, the first that may run. -/
def next? (q : PlainQueue) : Option Member :=
  if q.runningCount < q.limits.maxRequests.toNat then q.ready.find? q.mayRun else none

/-- The queue after something was told of it. -/
def heed (q : PlainQueue) : Notice → PlainQueue
  | .enqueued t host duplex _ => q.enqueue t host duplex
  | .syncStarted t _ => { q with sync := q.sync ++ [t] }
  | .promoted t _ _ => q.letIn t
  | .finished t _ _ => { q with running := q.running.eraseP (·.call == t) }
  | .syncFinished t => { q with sync := q.sync.erase t }
  | .limitUpdated limit n => { q with limits := q.limits.set limit n }
  | _ => q

variable {q : PlainQueue} {m : Member} {front back : List Member}

/-- The first call of its ticket goes from those that wait to those that run. -/
theorem letIn_eq (h : q.ready = front ++ m :: back) (hfront : ∀ x ∈ front, x.call ≠ m.call) :
    q.letIn m.call = { q with ready := front ++ back, running := q.running ++ [m] } := by
  have hnone : ∀ x ∈ front, ¬ (x.call == m.call) = true := fun x hx => by simpa using hfront x hx
  have hfind : q.ready.find? (·.call == m.call) = some m := by
    rw [h, List.find?_append, List.find?_eq_none.2 hnone]
    simp
  have herase : q.ready.eraseP (·.call == m.call) = front ++ back := by
    rw [h, List.eraseP_append_right _ hnone, List.eraseP_cons_of_pos (by simp)]
  rw [letIn, hfind, herase]
  rfl

/-- While there is room, the first call that may run is admitted next. -/
theorem next?_eq_some (hroom : q.runningCount < q.limits.maxRequests.toNat)
    (h : q.ready = front ++ m :: back) (hfront : ∀ x ∈ front, q.mayRun x = false)
    (hm : q.mayRun m = true) : q.next? = some m := by
  rw [next?, if_pos hroom, List.find?_eq_some_iff_append]
  exact ⟨hm, front, back, h, fun x hx => by simp [hfront x hx]⟩

/-- The call that is admitted next may run, and those before it may not. -/
theorem exists_split_of_next? (h : q.next? = some m) :
    q.mayRun m = true ∧
      ∃ front back, q.ready = front ++ m :: back ∧ ∀ x ∈ front, q.mayRun x = false := by
  unfold next? at h
  split at h
  · obtain ⟨hm, front, back, hready, hfront⟩ := List.find?_eq_some_iff_append.1 h
    exact ⟨hm, front, back, hready, fun x hx => by simpa using hfront x hx⟩
  · cases h

end PlainQueue

/-! ## logs -/

/-- The call that has arrived, if that is what is told. -/
def Notice.arrival? : Notice → Option Member
  | .enqueued t host duplex _ => some ⟨t, host, duplex⟩
  | _ => none

/-- The call that was admitted, if that is what is told. -/
def Notice.admission? : Notice → Option Ticket
  | .promoted t _ _ => some t
  | _ => none

/-- What is said of an admission. -/
def Queue.Admission.notice (a : Queue.Admission) : Notice :=
  .promoted a.entry.call a.entry.host a.hostRunning

namespace Log

/-- The calls that have arrived, in order. -/
def arrivals (ns : List Notice) : List Member := ns.filterMap Notice.arrival?

/-- The calls that were admitted, in order. -/
def admissions (ns : List Notice) : List Ticket := ns.filterMap Notice.admission?

/-- The queue as the notices tell it from its creation on. -/
def replay (limits : Limits) (ns : List Notice) : PlainQueue :=
  ns.foldl PlainQueue.heed { limits }

/-- A notice fits what was told before: a call that arrives has a ticket later than all others, and
a call that is admitted is the next. -/
def InOrder (limits : Limits) (ns : List Notice) : Notice → Prop
  | .enqueued t .. => ∀ m ∈ arrivals ns, m.call < t
  | .promoted t .. => ∃ m, (replay limits ns).next? = some m ∧ m.call = t
  | _ => True

/-- Every notice fits what was told before it. -/
def Orderly (limits : Limits) (ns : List Notice) : Prop :=
  ∀ front n back, ns = front ++ n :: back → InOrder limits front n

variable {limits : Limits} {ns front back : List Notice} {n : Notice} {m m' : Member} {t : Ticket}

@[simp] theorem arrivals_append (ns ns' : List Notice) :
    arrivals (ns ++ ns') = arrivals ns ++ arrivals ns' := List.filterMap_append

@[simp] theorem admissions_append (ns ns' : List Notice) :
    admissions (ns ++ ns') = admissions ns ++ admissions ns' := List.filterMap_append

@[simp] theorem replay_concat (limits : Limits) (ns : List Notice) (n : Notice) :
    replay limits (ns ++ [n]) = (replay limits ns).heed n := by
  simp [replay]

theorem Orderly.nil : Orderly limits [] := by
  intro front n back h
  simp at h

theorem Orderly.concat (h : Orderly limits ns) (hn : InOrder limits ns n) :
    Orderly limits (ns ++ [n]) := by
  intro front n' back hsplit
  rcases List.eq_nil_or_concat back with rfl | ⟨back, last, rfl⟩
  · obtain ⟨rfl, hlast⟩ := List.append_inj' hsplit rfl
    cases hlast
    exact hn
  · rw [List.concat_eq_append, ← List.cons_append, ← List.append_assoc] at hsplit
    exact h front n' back (List.append_inj' hsplit rfl).1

/-- What was told earlier was orderly. -/
theorem Orderly.of_append (h : Orderly limits (front ++ back)) : Orderly limits front := by
  intro front' n back' hsplit
  exact h front' n (back' ++ back) (by simp [hsplit])

theorem Orderly.last (h : Orderly limits (ns ++ [n])) : InOrder limits ns n := h ns n [] rfl

/-! ## the calls that wait -/

/-- Where tickets rise, a call is taken out by its ticket. -/
theorem eraseP_eq_filter {ms : List Member} (h : ms.Pairwise (·.call < ·.call)) (t : Ticket) :
    ms.eraseP (·.call == t) = ms.filter (·.call ≠ t) := by
  induction ms with
  | nil => rfl
  | cons m ms ih =>
    obtain ⟨hm, hms⟩ := List.pairwise_cons.1 h
    by_cases ht : m.call = t
    · have hrest : ms.filter (·.call ≠ t) = ms := by
        rw [List.filter_eq_self]
        intro x hx
        have hlt := hm x hx
        rw [ht] at hlt
        exact decide_eq_true (Nat.ne_of_gt hlt)
      rw [List.eraseP_cons_of_pos (by simpa using ht), List.filter_cons_of_neg (by simpa using ht),
        hrest]
    · simp [ht, ih hms]

/-- Who waits, by what was told. -/
structure Waiting (limits : Limits) (ns : List Notice) : Prop where
  ready : (replay limits ns).ready = (arrivals ns).filter (·.call ∉ admissions ns)
  sorted : (arrivals ns).Pairwise (·.call < ·.call)
  arrived : ∀ t ∈ admissions ns, ∃ m ∈ arrivals ns, m.call = t

theorem Waiting.sorted_ready (h : Waiting limits ns) :
    (replay limits ns).ready.Pairwise (·.call < ·.call) := by
  rw [h.ready]
  exact h.sorted.filter _

theorem Waiting.enqueued {host : Host} {duplex : Bool} {load : Nat} (h : Waiting limits ns)
    (hn : ∀ m ∈ arrivals ns, m.call < t) :
    Waiting limits (ns ++ [.enqueued t host duplex load]) := by
  have harrivals : arrivals (ns ++ [.enqueued t host duplex load]) =
      arrivals ns ++ [⟨t, host, duplex⟩] := arrivals_append _ _
  have hadmissions : admissions (ns ++ [.enqueued t host duplex load]) = admissions ns := by
    rw [admissions_append]
    exact List.append_nil _
  have hnew : t ∉ admissions ns := by
    intro ht
    obtain ⟨m, hm, rfl⟩ := h.arrived t ht
    exact Nat.lt_irrefl _ (hn m hm)
  refine ⟨?_, ?_, ?_⟩
  · rw [replay_concat, harrivals, hadmissions, List.filter_append, ← h.ready]
    simp [PlainQueue.heed, PlainQueue.enqueue, hnew]
  · rw [harrivals, List.pairwise_append]
    exact ⟨h.sorted, List.pairwise_singleton _ _, fun m hm x hx => by
      rw [List.mem_singleton.1 hx]
      exact hn m hm⟩
  · rw [harrivals, hadmissions]
    intro u hu
    obtain ⟨m, hm, rfl⟩ := h.arrived u hu
    exact ⟨m, List.mem_append_left _ hm, rfl⟩

theorem Waiting.promoted {host : Host} {load : Nat} (h : Waiting limits ns)
    (hn : ∃ m, (replay limits ns).next? = some m ∧ m.call = t) :
    Waiting limits (ns ++ [.promoted t host load]) := by
  have harrivals : arrivals (ns ++ [.promoted t host load]) = arrivals ns := by
    rw [arrivals_append]
    exact List.append_nil _
  have hadmissions : admissions (ns ++ [.promoted t host load]) = admissions ns ++ [t] :=
    admissions_append _ _
  refine ⟨?_, harrivals ▸ h.sorted, ?_⟩
  · rw [replay_concat, harrivals, hadmissions]
    change (replay limits ns).ready.eraseP (·.call == t) = _
    rw [eraseP_eq_filter h.sorted_ready, h.ready, List.filter_filter]
    apply List.filter_congr
    intro m _
    simp [not_or, and_comm]
  · rw [harrivals, hadmissions]
    intro u hu
    rcases List.mem_append.1 hu with hu | hu
    · exact h.arrived u hu
    · obtain ⟨m, hnext, hm⟩ := hn
      obtain ⟨-, front, back, hready, -⟩ := PlainQueue.exists_split_of_next? hnext
      have hmem : m ∈ (replay limits ns).ready := by simp [hready]
      rw [h.ready] at hmem
      exact ⟨m, List.mem_of_mem_filter hmem, hm.trans (List.mem_singleton.1 hu).symm⟩

theorem Waiting.other (h : Waiting limits ns) (harrival : n.arrival? = none)
    (hadmission : n.admission? = none)
    (hready : ((replay limits ns).heed n).ready = (replay limits ns).ready) :
    Waiting limits (ns ++ [n]) := by
  have harrivals : arrivals (ns ++ [n]) = arrivals ns := by
    rw [arrivals_append]
    simp [arrivals, harrival]
  have hadmissions : admissions (ns ++ [n]) = admissions ns := by
    rw [admissions_append]
    simp [admissions, hadmission]
  exact ⟨by rw [replay_concat, hready, harrivals, hadmissions, h.ready], harrivals ▸ h.sorted,
    harrivals ▸ hadmissions ▸ h.arrived⟩

/-- The calls that wait are those that have arrived and were not admitted. -/
theorem Orderly.waiting (h : Orderly limits ns) : Waiting limits ns := by
  induction ns using List.reverseRecOn with
  | nil => exact ⟨rfl, List.Pairwise.nil, nofun⟩
  | append_singleton ns n ih =>
    have hwaiting := ih h.of_append
    have hn := h.last
    cases n with
    | enqueued => exact hwaiting.enqueued hn
    | promoted => exact hwaiting.promoted hn
    | _ => exact hwaiting.other rfl rfl rfl

/-- A ticket tells a call from all others. -/
theorem Waiting.eq_of_call (h : Waiting limits ns) (hm : m ∈ arrivals ns) (hm' : m' ∈ arrivals ns)
    (hcall : m.call = m'.call) : m = m' := by
  have hnodup : ((arrivals ns).map (·.call)).Nodup :=
    List.pairwise_map.2 (h.sorted.imp Nat.ne_of_lt)
  exact List.inj_on_of_nodup_map hnodup hm hm' hcall

/-- A call that waits has arrived and was not admitted. -/
theorem Waiting.mem_ready_iff (h : Waiting limits ns) :
    m ∈ (replay limits ns).ready ↔ m ∈ arrivals ns ∧ m.call ∉ admissions ns := by
  simp [h.ready]

/-- No call is admitted twice. -/
theorem Orderly.nodup_admissions (h : Orderly limits ns) : (admissions ns).Nodup := by
  induction ns using List.reverseRecOn with
  | nil => exact List.nodup_nil
  | append_singleton ns n ih =>
    have hbefore := ih h.of_append
    have hn := h.last
    rw [admissions_append]
    cases n with
    | promoted t host load =>
      obtain ⟨m, hnext, rfl⟩ := hn
      obtain ⟨-, front, back, hready, -⟩ := PlainQueue.exists_split_of_next? hnext
      have hwaits : m ∈ (replay limits ns).ready := by simp [hready]
      have hnot := (h.of_append.waiting.mem_ready_iff.1 hwaits).2
      exact List.nodup_append.2 ⟨hbefore, List.nodup_singleton _, fun t ht u hu => by
        rw [List.mem_singleton.1 hu]
        exact fun heq => hnot (heq ▸ ht)⟩
    | _ => exact (List.append_nil _).symm ▸ hbefore

/-- No more calls are admitted than have arrived. -/
theorem Orderly.length_admissions_le (h : Orderly limits ns) :
    (admissions ns).length ≤ (arrivals ns).length := by
  have hsubset : admissions ns ⊆ (arrivals ns).map (·.call) := by
    intro t ht
    obtain ⟨m, hm, rfl⟩ := h.waiting.arrived t ht
    exact List.mem_map_of_mem hm
  have hle := (h.nodup_admissions.subperm hsubset).length_le
  rwa [List.length_map] at hle

/-- A call that runs after notices ran before them, or was admitted. -/
theorem mem_running_foldl {q : PlainQueue} (hm : m ∈ (ns.foldl PlainQueue.heed q).running) :
    m ∈ q.running ∨ m.call ∈ admissions ns := by
  induction ns using List.reverseRecOn with
  | nil => exact .inl hm
  | append_singleton ns n ih =>
    rw [admissions_append]
    rw [List.foldl_append] at hm
    have hbefore : m ∈ (ns.foldl PlainQueue.heed q).running →
        m ∈ q.running ∨ m.call ∈ admissions ns ++ admissions [n] := fun hm =>
      (ih hm).imp_right (List.mem_append_left _)
    cases n with
    | promoted t host load =>
      rcases List.mem_append.1 hm with hm | hm
      · exact hbefore hm
      · have hfind := List.find?_some (Option.mem_toList.1 hm)
        have hcall : m.call = t := by simpa using hfind
        exact .inr (List.mem_append_right _ (hcall ▸ List.mem_singleton_self t))
    | finished => exact hbefore (List.mem_of_mem_eraseP hm)
    | _ => exact hbefore hm

/-- A call that runs was admitted. -/
theorem mem_admissions_of_running (hm : m ∈ (replay limits ns).running) : m.call ∈ admissions ns :=
  (mem_running_foldl hm).resolve_left List.not_mem_nil

/-! ## overtaking -/

section Overtaking

variable {host hostₐ host₁ : Host} {duplexₐ duplex₁ : Bool} {load loadₐ load₁ : Nat}
  {a b : Ticket}

/-- A call may not run exactly if it counts against the limit of a full host. -/
theorem mayRun_eq_false_iff {q : PlainQueue} :
    q.mayRun m = false ↔
      m.duplex = false ∧ q.limits.maxPerHost.toNat ≤ q.hostCount m.host := by
  simp [PlainQueue.mayRun]

/-- When a call is admitted, it may run, and an earlier call that waits still may not. -/
theorem Orderly.blocked (h : Orderly limits ns)
    (hsplit : ns = front ++ .promoted m'.call host load :: back) (hm : m ∈ arrivals ns)
    (hm' : m' ∈ arrivals ns) (hlt : m.call < m'.call) (hwaits : m.call ∉ admissions front) :
    (replay limits front).mayRun m = false ∧ (replay limits front).mayRun m' = true := by
  have hfront : Orderly limits front := by
    rw [hsplit] at h
    exact h.of_append
  obtain ⟨x, hnext, hcall⟩ := h front _ back hsplit
  obtain ⟨hmay, before, behind, hready, hbefore⟩ := PlainQueue.exists_split_of_next? hnext
  have hx : x ∈ arrivals front ∧ x.call ∉ admissions front := by
    rw [← hfront.waiting.mem_ready_iff, hready]
    simp
  have hsorted := h.waiting.sorted
  have hsub : ∀ y ∈ arrivals front, y ∈ arrivals ns := by
    rw [hsplit, arrivals_append]
    exact fun y hy => List.mem_append_left _ hy
  obtain rfl : x = m' := h.waiting.eq_of_call (hsub x hx.1) hm' hcall
  refine ⟨?_, hmay⟩
  -- the earlier call had arrived, and stood before the one that was admitted
  rw [hsplit, arrivals_append] at hm hsorted
  have harrived : m ∈ arrivals front := by
    rcases List.mem_append.1 hm with hm | hm
    · exact hm
    · exact absurd hlt (Nat.lt_asymm ((List.pairwise_append.1 hsorted).2.2 x hx.1 m hm))
  have hmem : m ∈ (replay limits front).ready := hfront.waiting.mem_ready_iff.2 ⟨harrived, hwaits⟩
  have hrising := hfront.waiting.sorted_ready
  rw [hready, List.pairwise_append, List.pairwise_cons] at hrising
  rw [hready, List.mem_append, List.mem_cons] at hmem
  rcases hmem with hmem | rfl | hmem
  · exact hbefore m hmem
  · exact absurd hlt (Nat.lt_irrefl _)
  · exact absurd hlt (Nat.lt_asymm (hrising.2.1.1 m hmem))

/-- A later call has a later ticket. -/
theorem Waiting.lt_of_sublist (h : Waiting limits ns)
    (horder : [.enqueued a hostₐ duplexₐ loadₐ, .enqueued b host₁ duplex₁ load₁].Sublist ns) :
    ⟨a, hostₐ, duplexₐ⟩ ∈ arrivals ns ∧ ⟨b, host₁, duplex₁⟩ ∈ arrivals ns ∧ a < b := by
  have hsub : [⟨a, hostₐ, duplexₐ⟩, ⟨b, host₁, duplex₁⟩].Sublist (arrivals ns) :=
    horder.filterMap Notice.arrival?
  have hlt := h.sorted.sublist hsub
  exact ⟨hsub.subset (by simp), hsub.subset (by simp), by simpa using hlt⟩

/-- A call that waits when a later one is admitted counts against the limit of a full host. -/
theorem Orderly.overtaken (h : Orderly limits ns)
    (horder : [.enqueued a hostₐ duplexₐ loadₐ, .enqueued b host₁ duplex₁ load₁].Sublist ns)
    (hsplit : ns = front ++ .promoted b host load :: back)
    (hwaits : a ∈ (replay limits front).queuedCalls) :
    duplexₐ = false ∧
      (replay limits front).limits.maxPerHost.toNat ≤ (replay limits front).hostCount hostₐ := by
  obtain ⟨hmem, hmem', hlt⟩ := h.waiting.lt_of_sublist horder
  have hfront : Orderly limits front := by
    rw [hsplit] at h
    exact h.of_append
  obtain ⟨m, hm, hcall⟩ := List.mem_map.1 hwaits
  have hnot := (hfront.waiting.mem_ready_iff.1 hm).2
  rw [hcall] at hnot
  exact mayRun_eq_false_iff.1 (h.blocked hsplit hmem hmem' hlt hnot).1

/-- A duplex call is admitted before every later call, and a call that is not duplex before every
later one that counts against the limit of its host. -/
theorem Orderly.sublist_admissions (h : Orderly limits ns)
    (horder : [.enqueued a hostₐ duplexₐ loadₐ, .enqueued b host₁ duplex₁ load₁].Sublist ns)
    (hkind : duplexₐ = true ∨ duplex₁ = false ∧ hostₐ = host₁) (hb : b ∈ admissions ns) :
    [a, b].Sublist (admissions ns) := by
  obtain ⟨n, hn, hadmission⟩ := List.mem_filterMap.1 hb
  obtain ⟨front, back, hsplit⟩ := List.append_of_mem hn
  obtain ⟨host, load, rfl⟩ : ∃ host load, n = .promoted b host load := by
    cases n <;> simp [Notice.admission?] at hadmission
    exact ⟨_, _, by rw [hadmission]⟩
  obtain ⟨hmem, hmem', hlt⟩ := h.waiting.lt_of_sublist horder
  have hadmitted : a ∈ admissions front := by
    by_contra hnot
    obtain ⟨hblocked, hmay⟩ := h.blocked hsplit hmem hmem' hlt hnot
    rcases hkind with rfl | ⟨rfl, rfl⟩
    · simp [PlainQueue.mayRun] at hblocked
    · -- both calls count against the same limit
      rw [mayRun_eq_false_iff] at hblocked
      have hblocked' : (replay limits front).mayRun ⟨b, hostₐ, false⟩ = false :=
        mayRun_eq_false_iff.2 ⟨rfl, hblocked.2⟩
      exact absurd hmay (Bool.eq_false_iff.1 hblocked')
  rw [hsplit, admissions_append]
  have hlater : [b].Sublist (admissions (.promoted b host load :: back)) := by
    simp [admissions, Notice.admission?]
  exact (List.singleton_sublist.2 hadmitted).append hlater

end Overtaking

/-! ## promotion passes -/

/-- The next call is admitted. -/
theorem Orderly.letIn {passed rest : List Entry} {q : Queue} {e : Entry} (h : Orderly limits ns)
    (hs : Sharing (q.running ++ (passed ++ e :: rest))) (ht : q.Tallied)
    (hpassed : ∀ f ∈ passed, q.isSaturated f = true) (hroom : q.hasRoom = true)
    (he : q.isSaturated e = false)
    (hreplay : replay limits ns = (Queue.plain { q with ready := passed ++ e :: rest }).bare) :
    Orderly limits (ns ++ [(q.admission e).notice]) ∧
      replay limits (ns ++ [(q.admission e).notice]) =
        (Queue.plain { q.letIn e with ready := passed ++ rest }).bare := by
  have hready : (replay limits ns).ready =
      passed.map (·.member) ++ e.member :: rest.map (·.member) := by
    rw [hreplay]
    simp [PlainQueue.bare, Queue.plain]
  have hmay : ∀ f ∈ passed ++ e :: rest,
      (replay limits ns).mayRun f.member = !q.isSaturated f := by
    intro f hf
    rw [hreplay]
    exact Queue.mayRun_plain hs ht hf
  have hnext : (replay limits ns).next? = some e.member := by
    refine PlainQueue.next?_eq_some ?_ hready ?_ ?_
    · rw [hreplay]
      exact q.hasRoom_plain.2 hroom
    · intro x hx
      obtain ⟨f, hf, rfl⟩ := List.mem_map.1 hx
      rw [hmay f (List.mem_append_left _ hf), hpassed f hf]
      rfl
    · rw [hmay e (by simp), he]
      rfl
  have hrising := h.waiting.sorted_ready
  rw [hready, List.pairwise_append] at hrising
  have hfront : ∀ x ∈ passed.map (·.member), x.call ≠ e.member.call := fun x hx =>
    Nat.ne_of_lt (hrising.2.2 x hx _ List.mem_cons_self)
  refine ⟨h.concat ⟨e.member, hnext, rfl⟩, ?_⟩
  rw [replay_concat]
  change (replay limits ns).letIn e.member.call = _
  rw [PlainQueue.letIn_eq hready hfront, hreplay]
  simp [PlainQueue.bare, Queue.plain, Queue.letIn]

/-- The admissions of a scan are told in order. The calls that the scan has passed over stand before
those that it has yet to look at. -/
theorem Orderly.scan {q : Queue} {passed es : List Entry} (h : Orderly limits ns)
    (hs : Sharing (q.running ++ (passed ++ es))) (ht : q.Tallied)
    (hpassed : ∀ e ∈ passed, q.isSaturated e = true)
    (hreplay : replay limits ns = (Queue.plain { q with ready := passed ++ es }).bare) :
    Orderly limits (ns ++ (q.scan es).2.1.map (·.notice)) ∧
      replay limits (ns ++ (q.scan es).2.1.map (·.notice)) =
        (Queue.plain { (q.scan es).1 with ready := passed ++ (q.scan es).2.2 }).bare := by
  induction q, es using Queue.scan.induct generalizing ns passed with
  | case1 q =>
    rw [List.append_nil] at hreplay
    simpa [Queue.scan] using ⟨h, hreplay⟩
  | case2 q e es hroom hsat ih =>
    have hsplit : passed ++ e :: es = passed ++ [e] ++ es := by simp
    have hpassed' : ∀ f ∈ passed ++ [e], q.isSaturated f = true := by
      intro f hf
      rcases List.mem_append.1 hf with hf | hf
      · exact hpassed f hf
      · rwa [List.mem_singleton.1 hf]
    rw [hsplit] at hs hreplay
    have hrest := ih h hs ht hpassed' hreplay
    simpa [Queue.scan, hroom, hsat] using hrest
  | case3 q e es hroom hsat ih =>
    obtain ⟨hnext, hletIn⟩ := h.letIn hs ht hpassed hroom (by simpa using hsat) hreplay
    have hs' : Sharing ((q.letIn e).running ++ (passed ++ es)) := by
      apply hs.mono
      intro f hf
      simp only [Queue.letIn_running, List.mem_append, List.mem_cons] at hf ⊢
      tauto
    have hrest := ih hnext hs' (ht.letIn e)
      (fun f hf => Queue.isSaturated_letIn (hpassed f hf) e) hletIn
    simpa [Queue.scan, hroom, hsat] using hrest
  | case4 q e es hroom => simpa [Queue.scan, hroom] using ⟨h, hreplay⟩

/-- The admissions of a pass are told in order. -/
theorem Orderly.promote {q : Queue} {next : Ticket} (h : Orderly limits ns) (hq : q.Coherent next)
    (hreplay : replay limits ns = q.plain.bare) :
    Orderly limits (ns ++ q.promote.admitted.map (·.notice)) ∧
      replay limits (ns ++ q.promote.admitted.map (·.notice)) = q.promote.queue.plain.bare := by
  have hs : Sharing (q.running ++ ([] ++ q.ready)) := hq.sharing
  have hpassed : ∀ e ∈ ([] : List Entry), q.isSaturated e = true := nofun
  rw [Queue.promote_queue]
  exact h.scan hs hq.tally hpassed hreplay

end Log

end CallAdmission
