import CallAdmission.Proofs.Dispatcher.Conduct
import CallAdmission.Proofs.Dispatcher.Inline

/-!
# CallAdmission.Proofs.Dispatcher.Report

What becomes of a run in a course, from its making on. All that is done with it is in the table of
`CallAdmission.Proofs.Dispatcher.Conduct`, so what it comes to is decided by what is done with it;
and when it is over, its call has given its slot back, and a promotion pass follows.

* `Custody.Gone` — a call that is no more, and stays so;
* `conduct_of_follow` — a course does nothing with a run but what the table says;
* `Followed` — a pass follows the end of a call;
* `Course`, `course_of_after` — the ways of a run of an admitted call, poll by poll;
* `report_of_follow` — what a run of an admitted call reports, and when.
-/

namespace CallAdmission.Dispatcher

/-! ## calls that are no more -/

namespace Custody

/-- The call is no more: it neither waits nor runs, and it cannot arrive any more. -/
structure Gone (c : Custody) (t : Ticket) : Prop where
  issued : t < c.next
  reserved : t ∉ c.reserved
  left : counts c.ledger.queue t = (0, 0, 0)

variable {c c' : Custody} {ends : List (Ticket × Ending)} {ms : List Mark} {t : Ticket}

/-- A call that is no more stays so, and leaves no mark. -/
theorem Gone.deed (h : c.Gone t) (hdeed : c.Deed ends ms c') (hmisses : ∀ u, .misses u ∉ ms) :
    c'.Gone t ∧ way t ms = [] := by
  have hnext : t ≠ c.next := Nat.ne_of_lt h.issued
  cases hdeed with
  | keep => exact ⟨h, rfl⟩
  | enqueue r =>
    have hcounts := (counts_enqueue c.ledger.queue c.next r.host r.duplex).1 t hnext
    exact ⟨⟨Nat.lt_succ_of_lt h.issued, h.reserved, hcounts.trans h.left⟩, way_of_ne rfl hnext⟩
  | submitSync host =>
    have hcounts := (counts_enqueueSync c.ledger.queue c.next).1 t hnext
    exact ⟨⟨Nat.lt_succ_of_lt h.issued, h.reserved, hcounts.trans h.left⟩, way_of_ne rfl hnext⟩
  | reserve =>
    refine ⟨⟨Nat.lt_succ_of_lt h.issued, ?_, h.left⟩, rfl⟩
    simp [reserve, hnext, h.reserved]
  | @startSync c₁ u host hc =>
    subst hc
    obtain ⟨hne, hreserved⟩ : t ≠ u ∧ t ∉ c₁.reserved := by simpa [reserve] using h.reserved
    have hcounts := (counts_enqueueSync c₁.ledger.queue u).1 t hne
    exact ⟨⟨h.issued, hreserved, hcounts.trans h.left⟩, way_of_ne rfl hne⟩
  | @withdraw _ u hc =>
    subst hc
    obtain ⟨-, hreserved⟩ : t ≠ u ∧ t ∉ c'.reserved := by simpa [reserve] using h.reserved
    exact ⟨⟨h.issued, hreserved, h.left⟩, rfl⟩
  | @finish c₁ u e departure hc hq =>
    subst hc
    obtain ⟨hothers, hself⟩ := counts_finish hq
    have hne : t ≠ u := by
      rintro rfl
      have hnone := hself.symm.trans h.left
      simp at hnone
    exact ⟨⟨h.issued, h.reserved, (hothers t hne).trans h.left⟩, way_of_ne rfl hne⟩
  | @finishSync c₁ u e queue hc hq =>
    subst hc
    obtain ⟨hothers, hself⟩ := counts_finishSync hq
    have hne : t ≠ u := by
      rintro rfl
      have hnone := hself.symm.trans h.left
      simp at hnone
    exact ⟨⟨h.issued, h.reserved, (hothers t hne).trans h.left⟩, way_of_ne rfl hne⟩
  | miss | missSync => exact absurd (List.mem_singleton_self _) (hmisses _)
  | setLimit hq =>
    obtain ⟨-, rfl⟩ := Queue.setLimit_eq_ok_iff.1 hq
    exact ⟨⟨h.issued, h.reserved, h.left⟩, rfl⟩
  | setIdle => exact ⟨⟨h.issued, h.reserved, h.left⟩, rfl⟩
  | cancel ts =>
    have hqueue := Ledger.queue_foldl_updateCall ts Call.cancel c.ledger
    refine ⟨⟨h.issued, h.reserved, ?_⟩, rfl⟩
    exact (congrArg (counts · t) hqueue).trans h.left

theorem Gone.deeds (h : c.Gone t) (hdeeds : c.Deeds ends ms c') (hmisses : ∀ u, .misses u ∉ ms) :
    c'.Gone t ∧ way t ms = [] := by
  induction hdeeds with
  | nil c => exact ⟨h, rfl⟩
  | cons hdeed _ ih =>
    obtain ⟨hnow, hway⟩ := h.deed hdeed fun u hu => hmisses u (List.mem_append_left _ hu)
    obtain ⟨hlater, hways⟩ := ih hnow fun u hu => hmisses u (List.mem_append_right _ hu)
    exact ⟨hlater, by rw [way_append, hway, hways]; rfl⟩

/-- A pass admits none but calls that wait. -/
theorem Gone.promote (h : c.Gone t) :
    c.promote.Gone t ∧ way t (.passes :: promotionMarks c.ledger.promote) = [] := by
  obtain ⟨hready, hrunning, hsync⟩ := counts_promote c.ledger.queue t
  rw [h.left] at hready hrunning hsync
  have hnone : c.ledger.promote.admitted.count t = 0 := by
    change (c.ledger.queue.promote.admitted.map (·.entry.call)).count t = 0
    omega
  refine ⟨⟨h.issued, h.reserved, ?_⟩, by rw [way_promotionMarks, hnone]; rfl⟩
  rw [promote_queue]
  refine Prod.ext ?_ (Prod.ext ?_ hsync)
  · change _ = 0
    omega
  · have hadmitted : (c.ledger.queue.promote.admitted.map (·.entry.call)).count t = 0 := hnone
    rw [hrunning, hadmitted]

theorem Gone.step (h : c.Gone t) (hstep : c.Step ends ms c') (hmisses : ∀ u, .misses u ∉ ms) :
    c'.Gone t ∧ way t ms = [] := by
  cases hstep with
  | deeds hdeeds => exact h.deeds hdeeds hmisses
  | pass hdeed hq =>
    obtain ⟨hnow, hway⟩ := h.deed hdeed fun u hu => hmisses u (List.mem_append_left _ hu)
    obtain ⟨hlater, hways⟩ := hnow.promote
    exact ⟨hlater, by rw [way_append, hway, hways]; rfl⟩

end Custody

variable {limits : Limits} {notices : List Notice} {d₀ d d' : Dispatcher} {a : Action}
  {actions more : List Action} {turn : Turn} {es es' : List Event} {t : Ticket} {s : Spot}
  {r : RunState} {bs : List Beat} {e : Ending} {ends : List (Ticket × Ending)} {ms : List Mark}

/-- A call that is no more has no run and no token. -/
theorem Custody.Gone.apart (h : (Moment.custody ⟨d, .outside⟩).Gone t)
    (hkept : (Moment.custody ⟨d, .outside⟩).Kept ends ms) :
    (∀ s, (t, s) ∉ d.runSpots) ∧ t ∉ d.held ++ d.guards ∧ t ∉ d.awaiting := by
  have hleft : t ∉ d.ledger.queue.allCalls := by
    have hcounts : counts d.ledger.queue t = (0, 0, 0) := h.left
    simp [mem_allCalls_iff, mem_queuedCalls_iff, mem_runningCalls_iff, hcounts]
  obtain ⟨htokens, hsync⟩ := hkept.matched.not_mem_tokens hleft
  have hnone : t ∉ d.runSpots.map Prod.fst + ↑d.held + ↑d.guards + ↑d.awaiting := by
    rw [runSpots_calls]
    simp only [Multiset.mem_add, Multiset.mem_coe, not_or]
    exact ⟨⟨htokens, hsync⟩, h.reserved⟩
  simp only [Multiset.mem_add, Multiset.mem_coe, not_or] at hnone
  obtain ⟨⟨⟨hspots, hheld⟩, hguards⟩, hawaiting⟩ := hnone
  refine ⟨fun s hs => hspots (Multiset.mem_map_of_mem Prod.fst hs), ?_, hawaiting⟩
  simpa using ⟨hheld, hguards⟩

/-- Nothing is done with a call that is no more. -/
theorem Custody.Gone.silent (h : (Moment.custody ⟨d, .outside⟩).Gone t)
    (hkept : (Moment.custody ⟨d, .outside⟩).Kept ends ms) (hd : Moment.Latched ⟨d, .outside⟩)
    (hmisses : ∀ u, .misses u ∉ marks turn.events) (hstep : d.step a = .ok turn) :
    beatAt? t d a = none ∧ signsAt t turn.events = [] := by
  obtain ⟨hnone, hfree, hawaiting⟩ := h.apart hkept
  cases hbeat : beatAt? t d a with
  | none => exact ⟨rfl, (step_silent (s := .fresh) hd hmisses hstep hfree hawaiting hbeat).1⟩
  | some b =>
    obtain ⟨s, _, _, hspots, -⟩ := step_beat hd hmisses hstep hbeat
    exact absurd (hspots ▸ Multiset.mem_cons_self _ _) (hnone s)

/-- A call that left a mark and has left the queue is no more. -/
theorem Custody.Kept.gone {l : Stage} (h : (Moment.custody ⟨d, .outside⟩).Kept ends ms)
    (hs : Stands d.ledger ends ms t l) (hends : l.endings ≠ []) :
    (Moment.custody ⟨d, .outside⟩).Gone t := by
  have hway : ¬ ((Moment.custody ⟨d, .outside⟩).next ≤ t ∨
      t ∈ (Moment.custody ⟨d, .outside⟩).reserved) := by
    intro hfresh
    obtain rfl := hs.eq_absent (h.fresh t hfresh)
    exact hends rfl
  rw [not_or] at hway
  refine ⟨Nat.lt_of_not_le hway.1, hway.2, hs.place.trans ?_⟩
  cases l <;> first | rfl | exact absurd rfl hends

/-! ## a run in a course -/

/-- The stage of a call whose run stands here. -/
def Spot.stage : Spot → Stage
  | .fresh | .making | .polling | .waiting => .admitted
  | .reserved => .absent
  | .attending | .deferred => .sync

theorem mem_runSpots_iff : (t, s) ∈ d.runSpots ↔ (∃ run ∈ d.runs, run.spot = (t, s)) ∨
    (∃ run ∈ d.syncRuns, run.spot = (t, s)) ∨ ∃ f ∈ d.stack, f.spot? = some (t, s) := by
  simp only [runSpots, Multiset.mem_add, Multiset.mem_coe, List.mem_map, List.mem_filterMap,
    or_assoc]

/-- The tickets that are set aside are those of runs that were never polled. -/
theorem mem_reserved_iff : t ∈ d.reserved ↔ (t, .reserved) ∈ d.runSpots := by
  rw [mem_runSpots_iff]
  simp only [reserved, List.mem_map, List.mem_filter, Bool.not_eq_true', and_assoc]
  constructor
  · rintro ⟨run, hrun, hs, rfl⟩
    exact .inr (.inl ⟨run, hrun, by simp [SyncRun.spot, hs]⟩)
  · rintro (⟨run, -, hspot⟩ | ⟨run, hrun, hspot⟩ | ⟨f, -, hspot⟩)
    · cases hs : run.started <;> simp [Run.spot, hs] at hspot
    · cases hs : run.started with
      | true => simp [SyncRun.spot, hs] at hspot
      | false =>
        simp only [SyncRun.spot, hs, Prod.mk.injEq] at hspot
        exact ⟨run, hrun, hs, hspot.1⟩
    · cases f <;> simp [Frame.spot?] at hspot

/-- While there is a run, its call stands at the stage that the run tells. -/
theorem Custody.Kept.stage_of_spot (h : (Moment.custody ⟨d, .outside⟩).Kept ends ms)
    (hspot : (t, s) ∈ d.runSpots) : Stands d.ledger ends ms t s.stage := by
  obtain ⟨l, hl⟩ := h.stage t
  have hadmitted : t ∈ d.tokens → Stands d.ledger ends ms t .admitted := by
    intro hmem
    obtain rfl := hl.eq_admitted (h.matched.tokens.mem_iff.1 hmem)
    exact hl
  have hsync : t ∈ d.syncTokens → Stands d.ledger ends ms t .sync := by
    intro hmem
    obtain rfl := hl.eq_sync (h.matched.syncTokens.mem_iff.1 hmem)
    exact hl
  rcases mem_runSpots_iff.1 hspot with ⟨run, hrun, hplace⟩ | ⟨run, hrun, hplace⟩ | ⟨f, hf, hplace⟩
  · have htoken : t ∈ d.tokens := by
      have hcall : run.call = t := congrArg Prod.fst hplace
      exact List.mem_append_left _ (List.mem_append_right _ (List.mem_map.2 ⟨run, hrun, hcall⟩))
    cases hs : run.started <;> simp only [Run.spot, hs, Prod.mk.injEq] at hplace <;>
      obtain ⟨-, rfl⟩ := hplace <;> exact hadmitted htoken
  · cases hs : run.started with
    | true =>
      simp only [SyncRun.spot, hs, Prod.mk.injEq] at hplace
      obtain ⟨hcall, rfl⟩ := hplace
      refine hsync (List.mem_append_left _ (List.mem_append_right _ ?_))
      exact List.mem_map.2 ⟨run, List.mem_filter.2 ⟨hrun, hs⟩, hcall⟩
    | false =>
      simp only [SyncRun.spot, hs, Prod.mk.injEq] at hplace
      obtain ⟨-, rfl⟩ := hplace
      exact h.absent_of_reserved (mem_reserved_iff.2 hspot)
  · cases f with
    | openTask u | pollTask u =>
      cases hplace
      exact hadmitted (List.mem_append_right _ (List.mem_flatMap.2 ⟨_, hf, List.mem_singleton_self _⟩))
    | pollSync u =>
      cases hplace
      exact hsync (List.mem_append_right _ (List.mem_flatMap.2 ⟨_, hf, List.mem_singleton_self _⟩))
    | execute | idle => cases hplace

/-- What has become of the run of a call, as the dispatcher and the marks so far show it. -/
def Shows (d : Dispatcher) (ms : List Mark) (t : Ticket) : RunState → Prop
  | .going s => (t, s) ∈ d.runSpots
  | .past e => (Moment.custody ⟨d, .outside⟩).Gone t ∧ (e = none → way t ms = [])

/-- The run of a call in a course, what is done with it, and what is seen of it. -/
structure Conducts (d : Dispatcher) (more : List Action) (d' : Dispatcher) (ms : List Mark)
    (es : List Event) (t : Ticket) (s : Spot) (r : RunState) : Prop where
  course : (RunState.going s).after (d.beats t more) = some r
  signs : signsAt t es = (d.beats t more).flatMap Beat.signs
  shows : Shows d' ms t r
  ends : ∀ e, r = .past (some e) → (t, e) ∈ d.endingsOf more

theorem RunState.after_concat (r : RunState) (bs : List Beat) (b : Beat) :
    r.after (bs ++ [b]) = (r.after bs).bind (·.next b) := by
  simp [after, List.foldlM_append]

theorem beats_concat {t : Ticket} (h : d.follow actions = .ok (d', es)) (hstep : d'.step a = .ok turn) :
    d.beats t (actions ++ [a]) = d.beats t actions ++ (beatAt? t d' a).toList :=
  gather_concat h hstep

/-- A step that brings a run to its end, or to its next place. -/
theorem Arrives.shows {others : Multiset (Ticket × Spot)} {ends' : List (Ticket × Ending)}
    (h : Arrives t d a turn others r)
    (hkept : (Moment.custody ⟨d, .outside⟩).Kept ends ms) (hspots : d.runSpots = (t, s) ::ₘ others)
    (hlater : (Moment.custody ⟨turn.dispatcher, .outside⟩).Kept (ends' ++ d.endings a)
      (ms ++ marks turn.events)) (hnone : r = .past none → s = .reserved) :
    Shows turn.dispatcher (ms ++ marks turn.events) t r := by
  cases h with
  | going hspots' =>
    rw [Shows, hspots']
    exact Multiset.mem_cons_self _ _
  | vanishes hspots' hevents hnext =>
    obtain rfl := hnone rfl
    have hreserved : t ∈ d.reserved := mem_reserved_iff.2 (hspots ▸ Multiset.mem_cons_self _ _)
    have hway : way t (ms ++ marks turn.events) = [] := by
      rw [hevents, marks_nil, List.append_nil]
      exact (hkept.absent_of_reserved hreserved).trace
    obtain ⟨l, hl⟩ := hlater.stage t
    obtain rfl := hl.eq_absent hway
    refine ⟨⟨?_, ?_, hl.place⟩, fun _ => hway⟩
    · change t < turn.dispatcher.next
      rw [hnext]
      exact hkept.reserved_lt t (Multiset.mem_coe.2 hreserved)
    · change t ∉ (↑turn.dispatcher.reserved : Multiset Ticket)
      rw [Multiset.mem_coe, mem_reserved_iff, hspots']
      exact (hkept.lone hspots).1 _
  | @ends e hspots' hends =>
    obtain ⟨l, hl⟩ := hlater.stage t
    refine ⟨hlater.gone hl ?_, nofun⟩
    have hmem : e ∈ endingsAt t (ends' ++ d.endings a) :=
      mem_endingsAt.2 (List.mem_append_right _ (hends ▸ List.mem_singleton_self _))
    rw [hl.token] at hmem
    exact List.ne_nil_of_mem hmem

/-- Only a run that was never polled is over without an end of its call. -/
theorem Spot.eq_reserved {b : Beat} (h : s.next b = some (.past none)) : s = .reserved := by
  cases s <;> cases b <;> simp_all [Spot.next]

/-- A course does nothing with the run of a call but what the table says. -/
theorem conduct_of_follow (hcreate : create limits = .ok (d₀, notices))
    (h : d₀.follow actions = .ok (d, es)) (hspot : (t, s) ∈ d.runSpots)
    (hmore : d.follow more = .ok (d', es')) :
    ∃ r, Conducts d more d' (marks (es ++ es')) es' t s r := by
  induction more using List.reverseRecOn generalizing d' es' with
  | nil =>
    cases hmore
    exact ⟨.going s, rfl, rfl, hspot, nofun⟩
  | append_singleton more a ih =>
    obtain ⟨d₁, es₁, turn, hfollow, hstep, rfl, rfl⟩ := follow_concat_eq_ok hmore
    obtain ⟨r, hcourse, hsigns, hshows, hends⟩ := ih hfollow
    have hbefore := follow_append h hfollow
    have hafter := follow_concat hbefore hstep
    have hkept := kept_of_follow hcreate hbefore
    have hkept' := kept_of_follow hcreate hafter
    have hd := latched_of_follow hcreate hbefore
    have hmisses := not_misses_of_step hcreate hbefore hstep
    have hbeats := beats_concat (t := t) hfollow hstep
    have hendings : d.endingsOf (more ++ [a]) = d.endingsOf more ++ d₁.endings a :=
      gather_concat hfollow hstep
    rw [← List.append_assoc, marks_append]
    -- if nothing is done with the run, all stays as it was
    have hsilent : beatAt? t d₁ a = none → signsAt t turn.events = [] →
        Shows turn.dispatcher (marks (es ++ es₁) ++ marks turn.events) t r →
        ∃ r, Conducts d (more ++ [a]) turn.dispatcher (marks (es ++ es₁) ++ marks turn.events)
          (es₁ ++ turn.events) t s r := by
      intro hbeat hnone hshows'
      refine ⟨r, ?_, ?_, hshows', fun e he => ?_⟩
      · simpa [hbeats, hbeat] using hcourse
      · simpa [hbeats, hbeat, hnone] using hsigns
      · rw [hendings]
        exact List.mem_append_left _ (hends e he)
    cases r with
    | going s₁ =>
      rcases step_conduct hkept hd hmisses hstep hshows with
        ⟨hbeat, hnone, hstays⟩ | ⟨b, r, others, hbeat, hnext, hseen, hspots, harrives⟩
      · exact hsilent hbeat hnone hstays
      · rw [endingsOf, gather_concat hbefore hstep, marks_append] at hkept'
        refine ⟨r, ?_, ?_, ?_, ?_⟩
        · rw [hbeats, hbeat, Option.toList_some, RunState.after_concat, hcourse]
          exact hnext
        · simp [hbeats, hbeat, hsigns, hseen]
        · exact harrives.shows hkept hspots hkept' fun hr => Spot.eq_reserved (hr ▸ hnext)
        · rintro e rfl
          cases harrives with
          | ends _ hnow =>
            rw [hendings, hnow]
            exact List.mem_append_right _ (List.mem_singleton_self _)
    | past e =>
      obtain ⟨hgone, hway⟩ := hshows
      obtain ⟨hbeat, hnone⟩ := hgone.silent hkept hd hmisses hstep
      obtain ⟨hgone', hways⟩ :=
        hgone.step (step_custody_of_follow hcreate hbefore hstep) hmisses
      refine hsilent hbeat hnone ⟨hgone', fun he => ?_⟩
      rw [way_append, hway he, hways]
      rfl

/-- What the run has come to tells how the call's token came to its end, if it did. -/
theorem Conducts.stage (hcreate : create limits = .ok (d₀, notices))
    (h : d₀.follow actions = .ok (d, es)) (hmore : d.follow more = .ok (d', es'))
    (hconducts : Conducts d more d' (marks (es ++ es')) es' t s r) :
    ∃ l, Stands d'.ledger (d₀.endingsOf (actions ++ more)) (marks (es ++ es')) t l ∧
      l.endings = r.ending?.toList ∧ ∀ s', r = .going s' → l = s'.stage := by
  have hkept := kept_of_follow hcreate (follow_append h hmore)
  have hshows := hconducts.shows
  cases r with
  | going s' => exact ⟨s'.stage, hkept.stage_of_spot hshows, by cases s' <;> rfl, by simp⟩
  | past e =>
    obtain ⟨l, hl⟩ := hkept.stage t
    refine ⟨l, hl, ?_, nofun⟩
    cases e with
    | none =>
      obtain rfl := hl.eq_absent (hshows.2 rfl)
      rfl
    | some e =>
      have hmem : e ∈ l.endings := by
        rw [← hl.token, mem_endingsAt, endingsOf, gather_append h]
        exact List.mem_append_right _ (hconducts.ends e rfl)
      cases l <;> simp_all [Stage.endings, RunState.ending?]

theorem Stage.count_ends (l : Stage) (t : Ticket) :
    (l.way t).count (.ends t) = l.endings.length := by
  cases l <;> simp [Stage.way, Stage.endings]

/-- A run decides how the token of its call comes to its end, and when the call gives its slot
back. -/
theorem Conducts.released (hcreate : create limits = .ok (d₀, notices))
    (h : d₀.follow actions = .ok (d, es)) (hspot : (t, s) ∈ d.runSpots)
    (hmore : d.follow more = .ok (d', es'))
    (hconducts : Conducts d more d' (marks (es ++ es')) es' t s r) :
    endingsAt t (d.endingsOf more) = r.ending?.toList ∧
      (marks es').count (.ends t) = r.ending?.toList.length := by
  have hbefore := (kept_of_follow hcreate h).stage_of_spot hspot
  obtain ⟨l, hl, hends, -⟩ := hconducts.stage hcreate h hmore
  have hnone : s.stage.endings = [] := by cases s <;> rfl
  have hcount := count_ends (marks (es ++ es')) t
  have hcount' := count_ends (marks es) t
  rw [hl.trace, Stage.count_ends, hends, marks_append, List.count_append] at hcount
  rw [hbefore.trace, Stage.count_ends, hnone] at hcount'
  have htoken := hl.token
  rw [endingsOf, gather_append h, endingsAt_append] at htoken
  rw [hends] at htoken
  have htoken' : endingsAt t (gather (fun d a _ => d.endings a) d₀ actions) = [] :=
    hbefore.token.trans hnone
  rw [htoken', List.nil_append] at htoken
  refine ⟨htoken, ?_⟩
  rw [hcount'] at hcount
  simpa using hcount

/-- What is on record of a call at its stage. -/
theorem Stands.outcome {l : Ledger} {stage : Stage} (h : Stands l ends ms t stage)
    (habsent : stage ≠ .absent) : ∃ call, l.call? t = some call ∧
      call.outcome? = stage.endings.head?.map Ending.outcome ∧ stage.status? = some call.status := by
  have hstatus := h.status
  have hfailure := h.failure
  obtain ⟨status, hs⟩ : ∃ status, stage.status? = some status := by
    cases stage <;> first | exact ⟨_, rfl⟩ | exact absurd rfl habsent
  obtain ⟨call, hcall, hsame⟩ := Option.map_eq_some_iff.1 (hstatus.trans hs)
  rw [hcall] at hstatus hfailure
  refine ⟨call, hcall, ?_, hstatus.symm⟩
  cases stage with
  | absent => exact absurd rfl habsent
  | ended e | syncEnded e => exact outcome?_of_status (Option.some.inj hstatus) hfailure
  | waiting | admitted | sync => simp [Call.outcome?, Option.some.inj hstatus, Stage.endings]

/-- What is on record of a call whose run has come to this. -/
theorem Stands.record {l : Ledger} {stage : Stage} (h : Stands l ends ms t stage)
    (hends : stage.endings = r.ending?.toList)
    (hstage : r.ending? = none → stage.status? = some .running) : ∃ call, l.call? t = some call ∧
      call.outcome? = r.ending?.map Ending.outcome ∧ (r.ending? = none → call.status = .running) := by
  obtain ⟨call, hcall, houtcome, hstatus⟩ := h.outcome (by
    rintro rfl
    cases hr : r.ending? with
    | none => cases hstage hr
    | some e =>
      rw [hr] at hends
      cases hends)
  refine ⟨call, hcall, ?_, fun hnone => Option.some.inj (hstatus.symm.trans (hstage hnone))⟩
  rw [houtcome, hends]
  cases r.ending? <;> rfl

/-! ## a pass follows -/

/-- The activities of passes that panic in a course. -/
def failures (d : Dispatcher) (actions : List Action) : List Frame :=
  gather (fun d a _ => match a with
    | .panic _ => d.stack.head?.toList.filter (·.isPass)
    | _ => []) d actions

/-- A pass follows the end of a call. -/
structure Followed (t : Ticket) (d : Dispatcher) (turn : Turn) : Prop where
  /-- once the call has given its slot back, a pass is asked for; it starts at once unless one is
  under way -/
  requested : ∃ front back, turn.events = front ++ .passRequested :: back ∧ .ends t ∈ marks front ∧
    (d.promoting = false → .passStarted ∈ back)
  /-- however the course goes on, a pass starts after the request, or the request is noted still;
  then a pass is under way that has to answer it, unless an activity of a pass has panicked -/
  answered : ∀ later d' es, turn.dispatcher.follow later = .ok (d', es) →
    (∃ front back, turn.events ++ es = front ++ .passRequested :: back ∧ .ends t ∈ marks front ∧
        .passStarted ∈ back) ∨
      d'.pending = true ∧ (turn.dispatcher.failures later = [] → d'.promoting = true)

/-- A request is owed until a pass starts. -/
theorem owed_append_of_not_mem (h : .passStarted ∉ es') (howed : owed es = true) :
    owed (es ++ es') = true := by
  rw [owed] at howed
  rw [owed, List.foldl_append, howed]
  clear howed
  induction es' with
  | nil => rfl
  | cons e es' ih =>
    simp only [List.mem_cons, not_or] at h
    have hstays : Event.owes true e = true := by
      cases e <;> first | rfl | exact absurd rfl h.1
    rw [List.foldl_cons, hstays]
    exact ih h.2

/-- Unless an activity of a pass panics, a pass is wanted only while one is under way. -/
theorem promoting_of_follow (hd : Moment.Latched ⟨d, .outside⟩)
    (h : d.follow more = .ok (d', es')) (hcalm : d.failures more = [])
    (hp : d.pending = true → d.promoting = true) : d'.pending = true → d'.promoting = true := by
  induction more generalizing d es' with
  | nil =>
    cases h
    exact hp
  | cons a more ih =>
    obtain ⟨turn, es', hstep, hrest, rfl⟩ := follow_cons_eq_ok h
    simp only [failures, gather, hstep, List.append_eq_nil_iff] at hcalm
    refine ih ((reaches_step hd hstep).latched hd) hrest hcalm.2 (step_promoting hd hstep ?_ hp)
    rintro message rfl f hf
    have hnone := hcalm.1
    simp only [List.filter_eq_nil_iff, Option.mem_toList] at hnone
    simpa using hnone f hf

/-- What is asked for at the end of a call is answered. -/
theorem Asked.followed (hcreate : create limits = .ok (d₀, notices))
    (h : d₀.follow actions = .ok (d, es)) (hstep : d.step a = .ok turn) (hasked : Asked t d turn) :
    Followed t d turn := by
  refine ⟨hasked.requested, fun later d' es' hlater => ?_⟩
  obtain ⟨front, back, hevents, hmark, hatOnce⟩ := hasked.requested
  have hsplit : turn.events ++ es' = front ++ .passRequested :: (back ++ es') := by
    rw [hevents]
    simp
  cases hp : d.promoting with
  | false => exact .inl ⟨front, _, hsplit, hmark, List.mem_append_left _ (hatOnce hp)⟩
  | true =>
    by_cases hstarted : .passStarted ∈ es'
    · exact .inl ⟨front, _, hsplit, hmark, List.mem_append_right _ hstarted⟩
    · have hnow := follow_concat h hstep
      have howed : owed (es ++ turn.events) = true :=
        (sound_of_follow hcreate hnow).owed.symm.trans (hasked.pending hp)
      have hpending : d'.pending = true :=
        (sound_of_follow hcreate (follow_append hnow hlater)).owed.trans
          (owed_append_of_not_mem hstarted howed)
      refine .inr ⟨hpending, fun hcalm => ?_⟩
      exact promoting_of_follow (latched_of_follow hcreate hnow) hlater hcalm hasked.noted hpending

/-- When a call with a run gives its slot back, a pass is asked for. -/
theorem Shows.asked (h : Shows d (marks es) t r) (hcreate : create limits = .ok (d₀, notices))
    (hfollow : d₀.follow actions = .ok (d, es)) (hstep : d.step a = .ok turn)
    (hends : .ends t ∈ marks turn.events) : Asked t d turn := by
  have hafter := follow_concat hfollow hstep
  have hmisses := not_misses_of_step hcreate hfollow hstep
  -- a run that goes on has not ended its call
  have hnever : ∀ s, (t, s) ∈ turn.dispatcher.runSpots → False := by
    intro s hspot
    have hs := (kept_of_follow hcreate hafter).stage_of_spot hspot
    have hmem : .ends t ∈ way t (marks (es ++ turn.events)) := by
      rw [← mem_way rfl, marks_append]
      exact List.mem_append_right _ hends
    rw [hs.trace] at hmem
    cases s <;> simp [Spot.stage, Stage.way] at hmem
  cases r with
  | going s =>
    rcases step_conduct (kept_of_follow hcreate hfollow) (latched_of_follow hcreate hfollow) hmisses
      hstep h with ⟨-, -, hstays⟩ | ⟨b, r, others, -, -, -, -, harrives⟩
    · exact (hnever s hstays).elim
    · cases harrives with
      | going hspots => exact (hnever _ (hspots ▸ Multiset.mem_cons_self _ _)).elim
      | vanishes _ hevents =>
        rw [hevents] at hends
        cases hends
      | ends _ _ hasked => exact hasked
  | past e =>
    obtain ⟨-, hway⟩ := h.1.step (step_custody_of_follow hcreate hfollow hstep) hmisses
    rw [mem_way (t := t) rfl, hway] at hends
    cases hends

/-! ## runs of admitted calls -/

/-- The polls of a task that was never ready. -/
def polls (n : ℕ) : List Beat := (List.replicate n [.polled, .suspended]).flatten

/-- What can be done with the run of an admitted call, poll by poll, and what it comes to. -/
inductive RunHistory : List Beat → RunState → Prop where
  | unpolled : RunHistory [] (.going .fresh)
  | forsaken : RunHistory [.forsaken] (.past (some .abandoned))
  /-- the call was canceled before the first poll: its work is never asked for a task -/
  | barred : RunHistory [.barred] (.past (some (.reported (.error .canceled))))
  | opened : RunHistory [.opened] (.going .making)
  | failed : RunHistory [.opened, .failed] (.past (some .abandoned))
  | polling (n : ℕ) : RunHistory (.opened :: polls n ++ [.polled]) (.going .polling)
  | waiting (n : ℕ) : RunHistory (.opened :: polls (n + 1)) (.going .waiting)
  /-- a poll finds the call canceled: the task is not polled any more -/
  | halted (n : ℕ) :
    RunHistory (.opened :: polls n ++ [.halted]) (.past (some (.reported (.error .canceled))))
  | dropped (n : ℕ) :
    RunHistory (.opened :: polls (n + 1) ++ [.dropped]) (.past (some .abandoned))
  | resolved (n : ℕ) (r : Result) :
    RunHistory (.opened :: polls n ++ [.polled, .resolved r]) (.past (some (.reported r)))
  | panicked (n : ℕ) :
    RunHistory (.opened :: polls n ++ [.polled, .panicked]) (.past (some .abandoned))

theorem polls_succ (n : ℕ) : polls (n + 1) = polls n ++ [.polled, .suspended] := by
  simp [polls, List.replicate_succ']

/-- The table leaves no other histories. -/
theorem runHistory_of_after (h : (RunState.going .fresh).after bs = some r) : RunHistory bs r := by
  induction bs using List.reverseRecOn generalizing r with
  | nil =>
    cases h
    exact RunHistory.unpolled
  | append_singleton bs b ih =>
    rw [RunState.after_concat] at h
    obtain ⟨r₁, hr₁, hnext⟩ := Option.bind_eq_some_iff.1 h
    cases ih hr₁ with
    | unpolled =>
      cases b <;> cases hnext
      · exact RunHistory.barred
      · exact RunHistory.opened
      · exact RunHistory.forsaken
    | opened =>
      cases b <;> cases hnext
      · exact RunHistory.failed
      · exact RunHistory.polling 0
      · exact RunHistory.halted 0
    | polling n =>
      rw [List.append_assoc]
      cases b <;> cases hnext
      · have hwaiting := RunHistory.waiting n
        rwa [polls_succ] at hwaiting
      · exact RunHistory.resolved n _
      · exact RunHistory.panicked n
    | waiting n =>
      cases b <;> cases hnext
      · exact RunHistory.polling (n + 1)
      · exact RunHistory.halted (n + 1)
      · exact RunHistory.dropped n
    | forsaken | barred | failed | halted | dropped | resolved | panicked => cases hnext

/-- What becomes of the run of an admitted call in a course that takes a dispatcher to another. -/
structure Reports (d : Dispatcher) (more : List Action) (d' : Dispatcher) (es : List Event)
    (t : Ticket) (r : RunState) : Prop where
  history : RunHistory (d.beats t more) r
  /-- this is seen of it, in this order, and no more -/
  signs : signsAt t es = (d.beats t more).flatMap Beat.signs
  going : ∀ s, r = .going s → (t, s) ∈ d'.runSpots
  /-- between polls the run can be polled and dropped -/
  accepted : r = .going .fresh ∨ r = .going .waiting →
    (∃ turn, d'.step (.pollRun t) = .ok turn) ∧ ∃ turn, d'.step (.dropRun t) = .ok turn
  /-- nothing but the run decides how the call ends -/
  endings : endingsAt t (d.endingsOf more) = r.ending?.toList
  record : ∃ call, d'.ledger.call? t = some call ∧ call.outcome? = r.ending?.map Ending.outcome ∧
    (r.ending? = none → call.status = .running)
  /-- the call has its slot until it gives it back, once -/
  slot : (d'.ledger.queue.running.map (·.call)).count t + r.ending?.toList.length = 1
  released : (marks es).count (.ends t) = r.ending?.toList.length
  followed : ∀ a turn, d'.step a = .ok turn → .ends t ∈ marks turn.events → Followed t d' turn

theorem RunHistory.stage (h : RunHistory bs r) :
    (∃ s, r = .going s ∧ s.stage = .admitted) ∨ ∃ e, r = .past (some e) := by
  cases h <;> simp [Spot.stage]

theorem exists_run_of_spot (h : (t, s) ∈ d.runSpots) (hs : s = .fresh ∨ s = .waiting) :
    ∃ run ∈ d.runs, run.call = t := by
  rcases mem_runSpots_iff.1 h with ⟨run, hrun, hplace⟩ | ⟨run, -, hplace⟩ | ⟨f, -, hplace⟩
  · exact ⟨run, hrun, congrArg Prod.fst hplace⟩
  · rcases hs with rfl | rfl <;> cases hstarted : run.started <;>
      simp [SyncRun.spot, hstarted] at hplace
  · rcases hs with rfl | rfl <;> cases f <;> simp [Frame.spot?] at hplace

/-- A run between two polls can be polled and dropped. -/
theorem exists_step_of_mem_runs {run : Run} (h : run ∈ d.runs) (hcall : run.call = t) :
    (∃ turn, d.step (.pollRun t) = .ok turn) ∧ ∃ turn, d.step (.dropRun t) = .ok turn := by
  obtain ⟨found, hfound⟩ : ∃ found, d.takeRun t = .ok found := by
    unfold takeRun
    cases hfind : d.runs.find? (·.call == t) with
    | none => exact absurd (by simpa using hcall) (List.find?_eq_none.1 hfind run h)
    | some found => exact ⟨_, rfl⟩
  simp [step, hfound, bind, Except.bind, pure, Except.pure]

/-- **Run.** However the run of an admitted call is polled and dropped, its task goes on, and the
call is canceled meanwhile, what is done with the run decides what it reports. If the first poll
finds the call canceled, the call's work is never asked for a task; else it is asked once, in that
poll. A poll that finds the call canceled drops the task without polling it, and reports so; else
the task is polled once, and its result is reported when it is ready. A run that is dropped before,
or in a panic of the work or the task, abandons its call. Whichever it is, the call gives its slot
back once, and a pass follows. -/
theorem report_of_follow (hcreate : create limits = .ok (d₀, notices))
    (h : d₀.follow actions = .ok (d, es)) (hrun : ⟨t, false⟩ ∈ d.runs)
    (hmore : d.follow more = .ok (d', es')) : ∃ r, Reports d more d' es' t r := by
  have hspot : (t, Spot.fresh) ∈ d.runSpots := mem_runSpots_iff.2 (.inl ⟨_, hrun, rfl⟩)
  obtain ⟨r, hconducts⟩ := conduct_of_follow hcreate h hspot hmore
  have hhistory := runHistory_of_after hconducts.course
  obtain ⟨hendings, hreleased⟩ := hconducts.released hcreate h hspot hmore
  obtain ⟨l, hl, hends, hgoing⟩ := hconducts.stage hcreate h hmore
  have hshown : ∀ s, r = .going s → (t, s) ∈ d'.runSpots := by
    rintro s rfl
    exact hconducts.shows
  have hadmitted : r.ending? = none → l = .admitted := by
    intro hnone
    rcases hhistory.stage with ⟨s, rfl, hs⟩ | ⟨e, rfl⟩
    · exact (hgoing s rfl).trans hs
    · cases hnone
  refine ⟨r, hhistory, hconducts.signs, hshown, fun hr => ?_, hendings,
    hl.record hends fun hnone => hadmitted hnone ▸ rfl, ?_, hreleased, ?_⟩
  · obtain ⟨s, hs, hplace⟩ : ∃ s, r = .going s ∧ (s = .fresh ∨ s = .waiting) := by
      rcases hr with rfl | rfl <;> simp
    obtain ⟨run, hmem, hcall⟩ := exists_run_of_spot (hshown s hs) hplace
    exact exists_step_of_mem_runs hmem hcall
  · have hplace : (d'.ledger.queue.running.map (·.call)).count t = l.counts.2.1 :=
      congrArg (·.2.1) hl.place
    rw [hplace]
    cases hr : r.ending? with
    | none =>
      rw [hadmitted hr]
      rfl
    | some e =>
      rw [hr] at hends
      cases l <;> simp_all [Stage.endings, Stage.counts]
  · intro a turn hstep hmark
    have hfollow := follow_append h hmore
    exact (hconducts.shows.asked hcreate hfollow hstep hmark).followed hcreate hfollow hstep

/-- The executor makes a run of the call that it is given. -/
def openingCourse : List Action := [.submit ⟨⟨"a"⟩, false⟩, .openRun 0, .leave]

/-- The call is canceled in the poll in which its task fails. -/
def pollingCourse : List Action :=
  [.pollRun 0, .leave, .suspend, .pollRun 0, .cancel 0, .resolve (.error (.failed "work failed"))]

theorem report_of_pollingCourse :
    ∃ d₀ notices d es d' es', create ⟨1, 1⟩ = .ok (d₀, notices) ∧
      d₀.follow openingCourse = .ok (d, es) ∧ ⟨0, false⟩ ∈ d.runs ∧
      d.follow pollingCourse = .ok (d', es') ∧ d'.ledger.isCanceled 0 = true ∧
      d.beats 0 pollingCourse = [.opened, .polled, .suspended, .polled,
        .resolved (.error (.failed "work failed"))] ∧
      ∃ r, Reports d pollingCourse d' es' 0 r := by
  obtain ⟨d₀, notices, d, es, d', es', hcreate, hcourse, hruns, hmore, hcanceled, hbeats⟩ :
      ∃ d₀ notices d es d' es', create ⟨1, 1⟩ = .ok (d₀, notices) ∧
        d₀.follow openingCourse = .ok (d, es) ∧ d.runs = [⟨0, false⟩] ∧
        d.follow pollingCourse = .ok (d', es') ∧ d'.ledger.isCanceled 0 = true ∧
        d.beats 0 pollingCourse = [.opened, .polled, .suspended, .polled,
          .resolved (.error (.failed "work failed"))] :=
    ⟨_, _, _, _, _, _, rfl, rfl, rfl, rfl, rfl, rfl⟩
  have hrun : ⟨0, false⟩ ∈ d.runs := hruns ▸ List.mem_singleton_self _
  exact ⟨d₀, notices, d, es, d', es', hcreate, hcourse, hrun, hmore, hcanceled, hbeats,
    report_of_follow hcreate hcourse hrun hmore⟩

end CallAdmission.Dispatcher
