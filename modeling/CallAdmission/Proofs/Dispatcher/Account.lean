import CallAdmission.Proofs.Dispatcher.Custody
import CallAdmission.Proofs.Dispatcher.Service
import CallAdmission.Proofs.Queue.Admission

/-!
# CallAdmission.Proofs.Dispatcher.Account

What a whole step does to calls and tokens. A step is a deed of code outside, and then at most one
promotion: a pass gives control away, or ends, before it could promote again. Only a panic that
leaves a pass does more, and then the pass promotes nothing.

* `Found` — the queue as a pass of a step finds it;
* `Moment.Prompt` — a pass that has an idle callback to invoke has no call to hand over;
* `Custody.Step` — what a step does to calls and tokens: deeds, or a deed and a promotion;
* `Effect` — what a deed does to the queue;
* `step_custody` — every step is a `Custody.Step`;
* `endingsOf` — the tokens that come to their end in a course.
-/

namespace CallAdmission.Dispatcher

variable {a : Action} {m m₁ : Moment} {d d₁ : Dispatcher} {turn : Turn} {t : Ticket} {o : Outcome}
  {es : List Event} {rest : List Ticket} {idle : Option Callback}

/-! ## callbacks that are due -/

/-- The activity leaves no callback to be invoked after it. -/
def Frame.isPrompt : Frame → Bool
  | .execute _ _ idle _ => idle.isNone
  | .idle .. | .openTask _ | .pollTask _ | .pollSync _ => true

/-- The idle callback is due only when no call was admitted, so no hand-over comes before it. -/
structure Moment.Prompt (m : Moment) : Prop where
  stack : ∀ f ∈ m.dispatcher.stack, f.isPrompt = true
  phase : ∀ rest callback, m.phase = .passing rest (some callback) → rest = []

theorem Moment.Prompt.outside (h : ∀ f ∈ d.stack, f.isPrompt = true) :
    Moment.Prompt ⟨d, .outside⟩ where
  stack := h
  phase _ _ hphase := by cases hphase

theorem Moment.Prompt.leaving (h : ∀ f ∈ d.stack, f.isPrompt = true) :
    Moment.Prompt ⟨d, .leaving rest⟩ where
  stack := h
  phase _ _ hphase := by cases hphase

/-- The end of a token takes at most an activity from the stack. -/
theorem Ends.stack_suffix (h : Ends a d es t o d₁) : d₁.stack <:+ d.stack := by
  cases h with
  | report h | abandon h =>
    obtain ⟨-, rfl⟩ := takeHeld_eq_ok h
    exact List.suffix_refl _
  | cancelUnstarted h | cancelStarted h | dropRun h =>
    obtain ⟨-, rfl⟩ := takeRun_eq_ok h
    exact List.suffix_refl _
  | cancelOpened h | resolve h | panicOpening h | panicPolled h =>
    rw [h]
    exact List.suffix_cons _ _

theorem EndsSync.stack_suffix (h : EndsSync a d es t o d₁) : d₁.stack <:+ d.stack := by
  cases h with
  | finishGuard h | dropGuard h =>
    obtain ⟨-, rfl⟩ := takeGuard_eq_ok h
    exact List.suffix_refl _
  | cancelStarted h | dropRun h =>
    obtain ⟨-, rfl⟩ := takeSyncRun_eq_ok h
    exact List.suffix_refl _
  | resolve h | panicPolled h =>
    rw [h]
    exact List.suffix_cons _ _

theorem stack_markAllCanceled (d : Dispatcher) (ts : List Ticket) :
    (d.markAllCanceled ts).dispatcher.stack = d.stack := by
  induction ts generalizing d with
  | nil => rfl
  | cons t ts ih => exact ih (d.markCanceled t).dispatcher

/-- A pass that is set going by a request has nothing to hand over yet. -/
theorem phase_request (d : Dispatcher) :
    (request d).phase = .outside ∨ (request d).phase = .passing [] none := by
  cases hp : d.promoting <;> simp [request, hp]

theorem prompt_request (h : ∀ f ∈ d.stack, f.isPrompt = true) : (request d).Prompt := by
  refine ⟨h, fun rest callback hphase => ?_⟩
  rcases phase_request d with hp | hp <;> rw [hp] at hphase <;> cases hphase

/-- Every move keeps callbacks prompt. -/
theorem Move.prompt (h : Move a m es m₁) (hm : m.Prompt) : m₁.Prompt := by
  cases h with
  | submit | setLimit => exact prompt_request hm.stack
  | complete h hr => exact prompt_request fun f hf => hm.stack f (h.stack_suffix.subset hf)
  | completeSync h hr => exact prompt_request fun f hf => hm.stack f (h.stack_suffix.subset hf)
  | miss h hr => exact .outside fun f hf => hm.stack f (h.stack_suffix.subset hf)
  | missSync h hr => exact .outside fun f hf => hm.stack f (h.stack_suffix.subset hf)
  | submitSync | reserveSync | setIdle | cancel | close | unlatch => exact .outside hm.stack
  | cancelAll ha => exact .outside (by rw [stack_markAllCanceled]; exact hm.stack)
  | startSync ha h | pollSync ha h =>
    obtain ⟨-, rfl⟩ := takeSyncRun_eq_ok h
    exact .outside (List.forall_mem_cons.2 ⟨rfl, hm.stack⟩)
  | dropUnstarted ha h =>
    obtain ⟨-, rfl⟩ := takeSyncRun_eq_ok h
    exact .outside hm.stack
  | openRun ha h =>
    obtain ⟨-, rfl⟩ := takeHeld_eq_ok h
    exact .outside hm.stack
  | openTask ha h | pollTask ha h =>
    obtain ⟨-, rfl⟩ := takeRun_eq_ok h
    exact .outside (List.forall_mem_cons.2 ⟨rfl, hm.stack⟩)
  | pollOpened ha h | suspend ha h | suspendSync ha h =>
    have hstack := hm.stack
    simp only [h, List.forall_mem_cons] at hstack
    exact .outside (by simpa [Frame.isPrompt] using hstack.2)
  | fail ha h | failIdle ha h =>
    have hstack := hm.stack
    simp only [h, List.forall_mem_cons] at hstack
    exact .leaving hstack.2
  | resumeIdle ha h =>
    have hstack := hm.stack
    simp only [h, List.forall_mem_cons] at hstack
    exact ⟨hstack.2, fun _ _ hphase => by cases hphase⟩
  | resume ha h =>
    have hstack := hm.stack
    simp only [h, List.forall_mem_cons] at hstack
    refine ⟨hstack.2, fun rest callback hphase => ?_⟩
    cases hphase
    cases hstack.1
  | @promote d hp =>
    refine ⟨hm.stack, fun rest callback hphase => ?_⟩
    obtain ⟨hrest, hidle⟩ := Phase.passing.inj hphase
    by_contra hne
    have hadmitted : d.ledger.queue.promote.admitted ≠ [] := by
      rintro hnil
      rw [← hrest] at hne
      simp [Ledger.promote, hnil] at hne
    have hnone := Queue.promote_idle_of_admitted hadmitted
    exact Option.some_ne_none _ (hidle.symm.trans hnone)
  | @handOver d t rest idle reply =>
    refine .outside (List.forall_mem_cons.2 ⟨?_, hm.stack⟩)
    cases idle with
    | none => rfl
    | some callback => cases hm.phase _ _ rfl
  | invoke => exact .outside (List.forall_mem_cons.2 ⟨rfl, hm.stack⟩)
  | abandon | abandonMiss => exact .leaving hm.stack

/-! ## the queue that a pass finds -/

/-- A pass finds the queue as it was before the step, or altered in the step. -/
def Found (q : Queue) (next : Ticket) (q₁ : Queue) (next₁ : Ticket) : Prop :=
  q₁ = q ∨ Alters q next q₁ next₁

section Found

variable {q q₁ : Queue} {next next₁ : Ticket}

theorem Found.coherent (h : Found q next q₁ next₁) (hq : q.Coherent next) :
    ∃ next', q₁.Coherent next' := by
  rcases h with rfl | h
  · exact ⟨next, hq⟩
  · exact ⟨next₁, h.coherent hq⟩

theorem Found.validate (h : Found q next q₁ next₁) (hq : q.limits.validate = .ok ()) :
    q₁.limits.validate = .ok () := by
  rcases h with rfl | h
  · exact hq
  · exact h.validate hq

/-- A queue that is altered is busy if it was before, and keeps its callback. -/
theorem Alters.busy (h : Alters q next q₁ next₁) : q₁.busy = q.busy ∧ q₁.idle = q.idle := by
  cases h with
  | enqueue => exact ⟨rfl, rfl⟩
  | finish h =>
    obtain ⟨-, -, front, back, -, hqueue⟩ := Queue.finish?_eq_some h
    rw [hqueue]
    exact ⟨rfl, rfl⟩
  | finishSync h =>
    obtain ⟨-, rfl⟩ := Queue.finishSync?_eq_some h
    exact ⟨rfl, rfl⟩
  | setLimit h =>
    obtain ⟨-, rfl⟩ := Queue.setLimit_eq_ok_iff.1 h
    exact ⟨rfl, rfl⟩

theorem Found.busy (h : Found q next q₁ next₁) : q₁.busy = q.busy ∧ q₁.idle = q.idle := by
  rcases h with rfl | h
  · exact ⟨rfl, rfl⟩
  · exact h.busy

/-- No call begins to run when a queue is altered. -/
theorem Alters.sublist (h : Alters q next q₁ next₁) :
    q₁.running.Sublist q.running ∧ q₁.sync.Sublist q.sync := by
  cases h with
  | enqueue => exact ⟨List.Sublist.refl _, List.Sublist.refl _⟩
  | finish h =>
    obtain ⟨-, -, front, back, hrun, hqueue⟩ := Queue.finish?_eq_some h
    rw [hqueue, hrun]
    exact ⟨List.Sublist.append_left (List.sublist_cons_self _ _) _, List.Sublist.refl _⟩
  | finishSync h =>
    obtain ⟨-, rfl⟩ := Queue.finishSync?_eq_some h
    exact ⟨List.Sublist.refl _, List.erase_sublist⟩
  | setLimit h =>
    obtain ⟨-, rfl⟩ := Queue.setLimit_eq_ok_iff.1 h
    exact ⟨List.Sublist.refl _, List.Sublist.refl _⟩

theorem Found.sublist (h : Found q next q₁ next₁) :
    q₁.running.Sublist q.running ∧ q₁.sync.Sublist q.sync := by
  rcases h with rfl | h
  · exact ⟨List.Sublist.refl _, List.Sublist.refl _⟩
  · exact h.sublist

end Found

/-! ## the opening move -/

/-- When a call gives its slot back, the queue is altered. -/
theorem Ends.alters {l : Ledger} {notices : List Notice} (h : Ends a d es t o d₁)
    (hr : d₁.ledger.release t = (some l, notices)) :
    Alters d.ledger.queue d.next l.queue d₁.next := by
  have hqueue : d₁.ledger.queue = d.ledger.queue := congrArg Gate.queue h.gate.1
  have hnext : d₁.next = d.next := congrArg Gate.next h.gate.1
  obtain ⟨departure, hq, rfl⟩ := Ledger.release_eq_some hr
  rw [← hqueue, ← hnext]
  exact Alters.finish hq

theorem EndsSync.alters {l : Ledger} {notices : List Notice} (h : EndsSync a d es t o d₁)
    (hr : d₁.ledger.releaseSync t = (some l, notices)) :
    Alters d.ledger.queue d.next l.queue d₁.next := by
  have hqueue : d₁.ledger.queue = d.ledger.queue := congrArg Gate.queue h.gate.1
  have hnext : d₁.next = d.next := congrArg Gate.next h.gate.1
  obtain ⟨queue, hq, rfl⟩ := Ledger.releaseSync_eq_some hr
  rw [← hqueue, ← hnext]
  exact Alters.finishSync hq

theorem eq_none_of_phase_request (h : (request d).phase = .passing rest idle) : idle = none := by
  rcases phase_request d with hp | hp <;> rw [hp] at h <;> cases h
  rfl

/-- A move from outside after which a pass has control leaves no callback to be invoked, and alters
the queue at most in a way after which a pass is asked for. -/
theorem Move.opens (h : Move a m es m₁) (hm : m.phase = .outside) (hprompt : m.Prompt)
    (hphase : m₁.phase = .passing rest idle) :
    idle = none ∧ Found m.dispatcher.ledger.queue m.dispatcher.next m₁.dispatcher.ledger.queue
      m₁.dispatcher.next := by
  cases h with
  | @submit d r ha =>
    exact ⟨eq_none_of_phase_request hphase, .inr (Alters.enqueue r.host r.duplex)⟩
  | complete h hr =>
    have halters := h.alters hr
    exact ⟨eq_none_of_phase_request hphase, .inr halters⟩
  | completeSync h hr =>
    have halters := h.alters hr
    exact ⟨eq_none_of_phase_request hphase, .inr halters⟩
  | setLimit ha h =>
    obtain ⟨queue, hq, rfl, -⟩ := Ledger.setLimit_eq_ok h
    exact ⟨eq_none_of_phase_request hphase, .inr (Alters.setLimit hq)⟩
  | resume ha h =>
    have hstack := hprompt.stack
    simp only [h, List.forall_mem_cons] at hstack
    cases hphase
    exact ⟨Option.isNone_iff_eq_none.1 hstack.1, .inl rfl⟩
  | resumeIdle ha h =>
    cases hphase
    exact ⟨rfl, .inl rfl⟩
  | promote | handOver | invoke | close | abandon | abandonMiss | unlatch => cases hm
  | _ => cases hphase

/-! ## what a step does -/

/-- What a promotion says: calls are admitted, and then the callback is invoked if it is due. -/
def promotionMarks (p : Ledger.Promotion) : List Mark :=
  p.admitted.map .runs ++ p.idle.toList.map .invokes

namespace Custody

/-- The pass has the tokens of the calls that it admits. -/
def promote (c : Custody) : Custody :=
  { c with
    ledger := c.ledger.promote.ledger
    tokens := ↑c.ledger.promote.admitted + c.tokens }

theorem promote_queue (c : Custody) :
    c.promote.ledger.queue = c.ledger.queue.promote.queue :=
  Ledger.queue_promote c.ledger

/-- One deed after the other. -/
inductive Deeds : Custody → List (Ticket × Ending) → List Mark → Custody → Prop where
  | nil (c : Custody) : Deeds c [] [] c
  | cons {c c₁ c₂ : Custody} {ends ends' ms ms'} (h : c.Deed ends ms c₁)
    (hs : Deeds c₁ ends' ms' c₂) : Deeds c (ends ++ ends') (ms ++ ms') c₂

theorem Deed.deeds {c c₁ : Custody} {ends ms} (h : c.Deed ends ms c₁) : Deeds c ends ms c₁ := by
  have hdeeds := Deeds.cons h (Deeds.nil c₁)
  rwa [List.append_nil, List.append_nil] at hdeeds

/-- What a step does to calls and tokens. -/
inductive Step (c : Custody) : List (Ticket × Ending) → List Mark → Custody → Prop where
  | deeds {ends ms c'} (h : c.Deeds ends ms c') : Step c ends ms c'
  /-- a pass promotes, after a deed that leads to it -/
  | pass {ends ms c₁} (h : c.Deed ends ms c₁)
    (hq : Found c.ledger.queue c.next c₁.ledger.queue c₁.next) :
    Step c ends (ms ++ .passes :: promotionMarks c₁.ledger.promote) c₁.promote

end Custody

/-! ## what a deed does to the queue -/

/-- The mark is about a call that does not begin to run. -/
def Mark.isStill : Mark → Bool
  | .waits _ | .ends _ | .misses _ => true
  | .runs _ | .passes | .invokes _ => false

/-- What a deed does to the queue. -/
inductive Effect (q : Queue) (next : Ticket) : List Mark → Queue → Ticket → Prop where
  | keep {ms next'} (hms : ∀ m ∈ ms, m.isStill = true) : Effect q next ms q next'
  | alters {ms q' next'} (hms : ∀ m ∈ ms, m.isStill = true) (h : Alters q next q' next') :
    Effect q next ms q' next'
  | enqueueSync (t : Ticket) {next'} : Effect q next [.runs t] (q.enqueueSync t) next'
  | setIdle (idle : Option Callback) : Effect q next [] (q.setIdle idle) next

theorem Custody.Deed.effect {c c' : Custody} {ends : List (Ticket × Ending)} {ms : List Mark}
    (h : c.Deed ends ms c') : Effect c.ledger.queue c.next ms c'.ledger.queue c'.next := by
  have hstill : ∀ m : Mark, m.isStill = true → ∀ m' ∈ [m], m'.isStill = true := by
    intro m hm m' hm'
    rwa [List.mem_singleton.1 hm']
  cases h with
  | keep | reserve => exact Effect.keep nofun
  | enqueue r => exact Effect.alters (hstill _ rfl) (Alters.enqueue r.host r.duplex)
  | submitSync => exact Effect.enqueueSync c.next
  | @startSync c₁ t host hc =>
    subst hc
    exact Effect.enqueueSync t
  | withdraw hc =>
    subst hc
    exact Effect.keep nofun
  | finish hc hq =>
    subst hc
    exact Effect.alters (hstill _ rfl) (Alters.finish hq)
  | finishSync hc hq =>
    subst hc
    exact Effect.alters (hstill _ rfl) (Alters.finishSync hq)
  | miss hc =>
    subst hc
    exact Effect.keep (hstill _ rfl)
  | @missSync c₁ t e l hc hq hl =>
    subst hc
    have hqueue : Effect c₁.ledger.queue c₁.next [.misses t] l.queue c₁.next := by
      rw [hl]
      exact Effect.keep (hstill _ rfl)
    exact hqueue
  | setLimit hq => exact Effect.alters nofun (Alters.setLimit hq)
  | setIdle idle => exact Effect.setIdle idle
  | cancel ts =>
    have hqueue : (ts.foldl Ledger.cancel c.ledger).queue = c.ledger.queue :=
      Ledger.queue_foldl_updateCall ts Call.cancel c.ledger
    rw [hqueue]
    exact Effect.keep nofun

/-! ## the moves of a pass -/

/-- Outside a pass the step is over. -/
theorem Onward.of_outside (h : Onward a ⟨d, .outside⟩ es d₁) : es = [] ∧ d₁ = d := by
  cases h with
  | nil => exact ⟨rfl, rfl⟩
  | cons hm => exact absurd rfl hm

/-- A pass with something to do does it and gives control away. -/
theorem Onward.of_offer (h : Onward a ⟨d, .passing rest idle⟩ es d₁)
    (hprompt : Moment.Prompt ⟨d, .passing rest idle⟩)
    (hlast : rest = [] → idle = none → d.pending = false) :
    marks es = idle.toList.map .invokes ∧
      Moment.custody ⟨d₁, .outside⟩ = Moment.custody ⟨d, .passing rest idle⟩ := by
  cases h with
  | cons _ hmove hs =>
    cases hmove with
    | promote hp => exact absurd (hp.symm.trans (hlast rfl rfl)) nofun
    | @handOver d t rest idle reply =>
      obtain ⟨rfl, rfl⟩ := hs.of_outside
      have hidle : idle = none := by
        cases idle with
        | none => rfl
        | some callback => cases hprompt.phase _ _ rfl
      refine ⟨by rw [hidle]; rfl, ?_⟩
      rw [custody_push { d with held := d.held ++ [t] },
        custody_held d (List.perm_append_singleton t d.held)]
      simp [custody_eq, Custody.push, Custody.hold, Phase.tokens, Frame.tokens, Frame.syncTokens]
    | @invoke d callback reply =>
      obtain ⟨rfl, rfl⟩ := hs.of_outside
      refine ⟨rfl, ?_⟩
      rw [custody_push d]
      simp [custody_eq, Custody.push, Phase.tokens, Frame.tokens, Frame.syncTokens]
    | close hp =>
      obtain ⟨rfl, rfl⟩ := hs.of_outside
      exact ⟨rfl, rfl⟩

theorem marks_promoted (l : Ledger) :
    marks (l.promote.notices.map .said) = l.promote.admitted.map .runs := by
  simp only [marks, Ledger.promote, List.map_map, List.filterMap_map]
  exact congrFun List.filterMap_eq_map l.queue.promote.admitted

/-- A pass with nothing to do promotes if it is wanted, and then gives control away or ends. -/
theorem Onward.of_round (h : Onward a ⟨d, .passing [] none⟩ es d₁)
    (hprompt : Moment.Prompt ⟨d, .passing [] none⟩) :
    (marks es = [] ∧
        Moment.custody ⟨d₁, .outside⟩ = Moment.custody ⟨d, .passing [] none⟩) ∨
      (marks es = .passes :: promotionMarks d.ledger.promote ∧
        Moment.custody ⟨d₁, .outside⟩ = (Moment.custody ⟨d, .passing [] none⟩).promote) := by
  cases h with
  | cons _ hmove hs =>
    have hprompt' := hmove.prompt hprompt
    cases hmove with
    | promote hp =>
      obtain ⟨hmarks, hcustody⟩ := hs.of_offer hprompt' fun _ _ => rfl
      refine .inr ⟨?_, ?_⟩
      · rw [marks_append, hmarks]
        change .passes :: marks (d.ledger.promote.notices.map .said) ++ _ = _
        rw [marks_promoted]
        rfl
      · rw [hcustody]
        rfl
    | close hp =>
      obtain ⟨rfl, rfl⟩ := hs.of_outside
      exact .inl ⟨rfl, rfl⟩

/-- A pass that a panic leaves abandons the calls that it has yet to hand over. -/
theorem Onward.deeds (h : Onward a ⟨d, .leaving rest⟩ es d₁) :
    (Moment.custody ⟨d, .leaving rest⟩).Deeds (rest.map (·, .abandoned)) (marks es)
      (Moment.custody ⟨d₁, .outside⟩) := by
  generalize hm : (⟨d, .leaving rest⟩ : Moment) = m at h
  induction h generalizing d rest with
  | nil d => cases hm
  | cons hphase hmove hs ih =>
    subst hm
    cases hmove with
    | @abandon d t rest l notices hp hr =>
      have hmarks := marks_release hr
      obtain ⟨departure, hq, rfl⟩ := Ledger.release_eq_some hr
      have hhold : Moment.custody ⟨d, .leaving (t :: rest)⟩ =
          (Moment.custody ⟨d, .leaving rest⟩).hold t := rfl
      have hdeed : (Moment.custody ⟨d, .leaving (t :: rest)⟩).Deed [(t, .abandoned)] [.ends t] _ :=
        Custody.Deed.finish hhold hq nofun
      have hes : marks (.said (.dropped t (d.ledger.host t)) :: notices.map .said ++
          [.passRequested]) = [.ends t] := by
        rw [marks_append, ← hmarks]
        exact List.append_nil _
      rw [marks_append, hes]
      exact Custody.Deeds.cons hdeed (ih rfl)
    | @abandonMiss d t rest notices hr =>
      have hhold : Moment.custody ⟨d, .leaving (t :: rest)⟩ =
          (Moment.custody ⟨d, .leaving rest⟩).hold t := rfl
      have hdeed : (Moment.custody ⟨d, .leaving (t :: rest)⟩).Deed [(t, .abandoned)] [.misses t]
          (Moment.custody ⟨d, .leaving rest⟩) :=
        Custody.Deed.miss hhold (Ledger.release_eq_none hr)
      have hes : marks (.said (.dropped t (d.ledger.host t)) :: notices.map .said) =
          [.misses t] := marks_release_none hr
      rw [marks_append, hes]
      exact Custody.Deeds.cons hdeed (ih rfl)
    | unlatch =>
      obtain ⟨rfl, rfl⟩ := hs.of_outside
      exact Custody.Deeds.nil _

/-! ## every step -/

/-- Every step changes calls and tokens in one of the two ways. -/
theorem step_custody (hd : Moment.Latched ⟨d, .outside⟩) (hprompt : Moment.Prompt ⟨d, .outside⟩)
    (h : d.step a = .ok turn) :
    (Moment.custody ⟨d, .outside⟩).Step (d.endings a) (marks turn.events)
      (Moment.custody ⟨turn.dispatcher, .outside⟩) := by
  cases anatomy_step hd h with
  | refused ha e =>
    rw [ha]
    exact Custody.Step.deeds (Custody.Deeds.nil _)
  | @opened es m turn hmove hs =>
    obtain ⟨ends, hdeed, hends⟩ := hmove.deed rfl
    have hprompt' := hmove.prompt hprompt
    change Custody.Step _ _ (marks (es ++ turn.events)) _
    rw [hends, marks_append]
    obtain ⟨d₁, phase⟩ := m
    cases phase with
    | outside =>
      obtain ⟨hes, hd₁⟩ := hs.of_outside
      simp only [hes, marks_nil, List.append_nil, Phase.endings]
      change Custody.Step _ _ _ (Moment.custody ⟨turn.dispatcher, .outside⟩)
      rw [hd₁]
      exact Custody.Step.deeds hdeed.deeds
    | passing rest idle =>
      obtain ⟨rfl, hq⟩ := hmove.opens rfl hprompt rfl
      rw [Phase.endings, List.append_nil]
      have hpassing : (marks turn.events = [] ∧
            Moment.custody ⟨turn.dispatcher, .outside⟩ =
              Moment.custody ⟨d₁, .passing rest none⟩) ∨
          (marks turn.events = .passes :: promotionMarks d₁.ledger.promote ∧
            Moment.custody ⟨turn.dispatcher, .outside⟩ =
              (Moment.custody ⟨d₁, .passing rest none⟩).promote) := by
        cases rest with
        | nil => exact hs.of_round hprompt'
        | cons t rest =>
          exact .inl (hs.of_offer hprompt' fun hnil => absurd hnil (List.cons_ne_nil t rest))
      rcases hpassing with ⟨hmarks, hcustody⟩ | ⟨hmarks, hcustody⟩
      · rw [hmarks, List.append_nil]
        change Custody.Step _ _ _ (Moment.custody ⟨turn.dispatcher, .outside⟩)
        rw [hcustody]
        exact Custody.Step.deeds hdeed.deeds
      · rw [hmarks]
        change Custody.Step _ _ _ (Moment.custody ⟨turn.dispatcher, .outside⟩)
        rw [hcustody]
        have hpass := Custody.Step.pass hdeed hq
        exact hpass
    | leaving rest => exact Custody.Step.deeds (Custody.Deeds.cons hdeed hs.deeds)

/-! ## courses -/

variable {limits : Limits} {notices : List Notice} {d₀ d' : Dispatcher} {actions : List Action}

/-- The tokens that come to their end in a course, in order. -/
def endingsOf (d : Dispatcher) (actions : List Action) : List (Ticket × Ending) :=
  gather (fun d a _ => d.endings a) d actions

theorem prompt_of_follow (hcreate : create limits = .ok (d₀, notices))
    (h : d₀.follow actions = .ok (d, es)) : Moment.Prompt ⟨d, .outside⟩ := by
  have hstart : Moment.Prompt ⟨d₀, .outside⟩ := by
    obtain ⟨-, rfl⟩ := create_eq_ok hcreate
    exact ⟨nofun, nofun⟩
  exact follow_create (P := fun _ m => m.Prompt) (fun _ _ _ _ _ _ hm hmove => hmove.prompt hm)
    hcreate hstart h

/-- What a step of a course does to calls and tokens. -/
theorem step_custody_of_follow (hcreate : create limits = .ok (d₀, notices))
    (h : d₀.follow actions = .ok (d, es)) (hstep : d.step a = .ok turn) :
    (Moment.custody ⟨d, .outside⟩).Step (d.endings a) (marks turn.events)
      (Moment.custody ⟨turn.dispatcher, .outside⟩) :=
  step_custody (latched_of_follow hcreate h) (prompt_of_follow hcreate h) hstep

/-- What every step keeps of calls and tokens, of the tokens that came to their end and of the
marks that were left, a course keeps. -/
theorem custody_induction {P : List (Ticket × Ending) → List Mark → Custody → Prop}
    (hstep : ∀ ends ms c ends' ms' c', P ends ms c → c.Step ends' ms' c' →
      P (ends ++ ends') (ms ++ ms') c')
    (hcreate : create limits = .ok (d₀, notices)) (hP : P [] [] (Moment.custody ⟨d₀, .outside⟩))
    (h : d₀.follow actions = .ok (d, es)) :
    P (d₀.endingsOf actions) (marks es) (Moment.custody ⟨d, .outside⟩) := by
  induction actions using List.reverseRecOn generalizing d es with
  | nil =>
    cases h
    exact hP
  | append_singleton actions a ih =>
    obtain ⟨d₁, es₁, turn, hfollow, hturn, rfl, rfl⟩ := follow_concat_eq_ok h
    rw [endingsOf, gather_concat hfollow hturn, marks_append]
    exact hstep _ _ _ _ _ _ (ih hfollow) (step_custody_of_follow hcreate hfollow hturn)

end CallAdmission.Dispatcher
