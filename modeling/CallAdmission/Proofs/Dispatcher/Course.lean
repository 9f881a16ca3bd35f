import CallAdmission.Proofs.Dispatcher.Decomposition
import CallAdmission.Proofs.Dispatcher.Gate

/-!
# CallAdmission.Proofs.Dispatcher.Course

Courses of a dispatcher: the actions that any code takes on it, one after the other, in any order
and from any depth of the stack. A course that asks for something impossible is no course.

* `Move.latched` — the latch tells at all times whether a pass is under way;
* `gather` — what the steps of a course yield;
* `follow_create` — what a new dispatcher has and every move keeps holds after every course;
* `promoting_eq_false_of_atRest` — while no activity of a pass is on the stack, the latch is down.
-/

namespace CallAdmission.Dispatcher

variable {limits : Limits} {notices : List Notice} {d d' : Dispatcher} {actions : List Action}
  {before es : List Event}

/-- Take actions one after the other: the dispatcher after them, and all that happened. -/
def follow (d : Dispatcher) : List Action → Except Refusal (Dispatcher × List Event)
  | [] => .ok (d, [])
  | a :: actions => do
    let turn ← d.step a
    let (last, es) ← follow turn.dispatcher actions
    return (last, turn.events ++ es)

/-- No activity of a pass is on the stack: every operation that started a pass has returned. -/
def AtRest (d : Dispatcher) : Prop := ∀ f ∈ d.stack, f.isPass = false

/-- With an empty stack a dispatcher is at rest. -/
theorem atRest_of_stack_eq_nil (h : d.stack = []) : d.AtRest := by
  simp [AtRest, h]

/-- What comes of one action and of those after it. -/
theorem follow_cons_eq_ok {a : Action} (h : d.follow (a :: actions) = .ok (d', es)) :
    ∃ turn es', d.step a = .ok turn ∧ turn.dispatcher.follow actions = .ok (d', es') ∧
      es = turn.events ++ es' := by
  obtain ⟨turn, hstep, h⟩ := exists_of_bind_eq_ok h
  obtain ⟨⟨last, es'⟩, hrest, h⟩ := exists_of_bind_eq_ok h
  cases h
  exact ⟨turn, es', hstep, hrest, rfl⟩

/-- A course that goes on. -/
theorem follow_append {more : List Action} {d₁ : Dispatcher} {es' : List Event}
    (h : d.follow actions = .ok (d₁, es)) (h' : d₁.follow more = .ok (d', es')) :
    d.follow (actions ++ more) = .ok (d', es ++ es') := by
  induction actions generalizing d es with
  | nil =>
    cases h
    exact h'
  | cons a actions ih =>
    obtain ⟨turn, es₁, hstep, hrest, rfl⟩ := follow_cons_eq_ok h
    rw [List.cons_append, follow, hstep]
    simp [bind, Except.bind, ih hrest, pure, Except.pure]

/-- A course with one more action at its end. -/
theorem follow_concat {a : Action} {turn : Turn} (h : d.follow actions = .ok (d', es))
    (hstep : d'.step a = .ok turn) :
    d.follow (actions ++ [a]) = .ok (turn.dispatcher, es ++ turn.events) := by
  refine follow_append h ?_
  rw [follow, hstep]
  simp [bind, Except.bind, follow, pure, Except.pure]

/-- What comes of a course with one more action at its end. -/
theorem follow_concat_eq_ok {a : Action} (h : d.follow (actions ++ [a]) = .ok (d', es)) :
    ∃ d₁ es₁ turn, d.follow actions = .ok (d₁, es₁) ∧ d₁.step a = .ok turn ∧
      d' = turn.dispatcher ∧ es = es₁ ++ turn.events := by
  induction actions generalizing d es with
  | nil =>
    obtain ⟨turn, es', hstep, hrest, rfl⟩ := follow_cons_eq_ok h
    cases hrest
    exact ⟨d, [], turn, rfl, hstep, rfl, by simp⟩
  | cons b actions ih =>
    obtain ⟨turn, es', hstep, hrest, rfl⟩ := follow_cons_eq_ok h
    obtain ⟨d₁, es₁, last, hfollow, hlast, rfl, rfl⟩ := ih hrest
    refine ⟨d₁, turn.events ++ es₁, last, ?_, hlast, rfl, by simp⟩
    rw [follow, hstep]
    simp [bind, Except.bind, hfollow, pure, Except.pure]

/-- What the steps of a course yield, in order. -/
def gather {α : Type} (f : Dispatcher → Action → Turn → List α) (d : Dispatcher) :
    List Action → List α
  | [] => []
  | a :: actions =>
    match d.step a with
    | .error _ => []
    | .ok turn => f d a turn ++ gather f turn.dispatcher actions

theorem gather_append {α : Type} {f : Dispatcher → Action → Turn → List α}
    (h : d.follow actions = .ok (d', es)) (more : List Action) :
    gather f d (actions ++ more) = gather f d actions ++ gather f d' more := by
  induction actions generalizing d es with
  | nil =>
    cases h
    rfl
  | cons a actions ih =>
    obtain ⟨turn, es', hstep, hrest, rfl⟩ := follow_cons_eq_ok h
    rw [List.cons_append]
    simp only [gather, hstep, ih hrest, List.append_assoc]

theorem gather_concat {α : Type} {f : Dispatcher → Action → Turn → List α} {a : Action}
    {turn : Turn} (h : d.follow actions = .ok (d', es)) (hstep : d'.step a = .ok turn) :
    gather f d (actions ++ [a]) = gather f d actions ++ f d' a turn := by
  rw [gather_append h]
  simp [gather, hstep]

/-- A dispatcher is created for valid limits, with a queue without calls. -/
theorem create_eq_ok (h : create limits = .ok (d, notices)) :
    (1 ≤ limits.maxRequests ∧ 1 ≤ limits.maxPerHost) ∧
      d = { ledger := { queue := { limits } } } := by
  obtain ⟨u, hvalid, h⟩ := exists_of_bind_eq_ok h
  cases h
  exact ⟨limits.validate_eq_ok_iff.1 hvalid, rfl⟩

/-- There is a dispatcher for valid limits, and it is said that there is. -/
theorem create_of_valid (h : 1 ≤ limits.maxRequests ∧ 1 ≤ limits.maxPerHost) :
    create limits = .ok ({ ledger := { queue := { limits } } }, [.created limits]) := by
  rw [create, limits.validate_eq_ok_iff.2 h]
  rfl

/-! ## the latch -/

/-- However a gate changes, the latch tells whether a pass is under way. -/
theorem Gate.Change.latched {g g' : Gate} {leaving : Bool} (h : g.Change leaving es g')
    (hg : g.passes = g.promoting.toNat) : g'.passes = g'.promoting.toNat := by
  cases h with
  | tokens | startSync | setIdle | promote => exact hg
  | request =>
    simp only [Gate.request, hg]
    cases g.promoting <;> rfl
  | close | panic =>
    have hle : g.promoting.toNat ≤ 1 := g.promoting.toNat_le
    simp only [Gate.unlatch, Bool.toNat_false]
    omega

theorem Move.latched {a : Action} {m m₁ : Moment} (h : Move a m es m₁) (hm : m.Latched) :
    m₁.Latched :=
  h.change.latched hm

theorem Moves.latched {a : Action} {m m₁ : Moment} (h : Moves a m es m₁) (hm : m.Latched) :
    m₁.Latched := by
  induction h with
  | nil m => exact hm
  | cons hmove _ ih => exact ih (hmove.latched hm)

/-- A dispatcher starts with its latch down and an empty stack. -/
theorem latched_create (h : create limits = .ok (d, notices)) : Moment.Latched ⟨d, .outside⟩ := by
  obtain ⟨-, rfl⟩ := create_eq_ok h
  rfl

/-! ## what holds after a course -/

/-- What every move keeps, a course keeps. -/
theorem follow_induction {P : List Event → Moment → Prop}
    (hmove : ∀ a ∈ actions, ∀ before m es m₁, P before m → Move a m es m₁ → P (before ++ es) m₁)
    (hd : Moment.Latched ⟨d, .outside⟩) (hP : P before ⟨d, .outside⟩)
    (h : d.follow actions = .ok (d', es)) :
    Moment.Latched ⟨d', .outside⟩ ∧ P (before ++ es) ⟨d', .outside⟩ := by
  induction actions generalizing d before es with
  | nil =>
    cases h
    exact ⟨hd, by simpa using hP⟩
  | cons a actions ih =>
    obtain ⟨turn, es', hstep, hrest, rfl⟩ := follow_cons_eq_ok h
    have hmoves : Moves a ⟨d, .outside⟩ turn.events ⟨turn.dispatcher, .outside⟩ :=
      reaches_step hd hstep
    have hturn := hmoves.induction (hmove a List.mem_cons_self) hP
    rw [← List.append_assoc]
    exact ih (fun b hb => hmove b (List.mem_cons_of_mem a hb)) (hmoves.latched hd) hturn hrest

/-- What a new dispatcher has and every move keeps holds after every course. -/
theorem follow_create {P : List Event → Moment → Prop}
    (hmove : ∀ a ∈ actions, ∀ before m es m₁, P before m → Move a m es m₁ → P (before ++ es) m₁)
    (hcreate : create limits = .ok (d, notices)) (hP : P [] ⟨d, .outside⟩)
    (h : d.follow actions = .ok (d', es)) : P es ⟨d', .outside⟩ :=
  (follow_induction hmove (latched_create hcreate) hP h).2

/-- After every course the latch tells whether a pass is under way. -/
theorem latched_of_follow (hcreate : create limits = .ok (d, notices))
    (h : d.follow actions = .ok (d', es)) : Moment.Latched ⟨d', .outside⟩ :=
  follow_create (P := fun _ m => m.Latched) (fun _ _ _ _ _ _ hm hmove => hmove.latched hm) hcreate
    (latched_create hcreate) h

/-- While no activity of a pass is on the stack, the latch is down. -/
theorem promoting_eq_false_of_atRest (hd : Moment.Latched ⟨d, .outside⟩) (hrest : d.AtRest) :
    d.promoting = false := by
  have hnone : d.stack.countP Frame.isPass = 0 := by
    rw [List.countP_eq_zero]
    intro f hf
    simp [hrest f hf]
  unfold Moment.Latched at hd
  rw [hnone] at hd
  cases hp : d.promoting with
  | false => rfl
  | true => simp [hp, Phase.passes] at hd

end CallAdmission.Dispatcher
