import CallAdmission.Proofs.Dispatcher.Service
import CallAdmission.Proofs.Limits.Environment
import CallAdmission.Proofs.Simulation.Completion

/-!
# CallAdmission.Proofs.Simulation.Start

How a simulation starts. It asks the environment for limits first; the command line replaces them
one by one; with what comes of that a dispatcher is created. The first thing a simulation says is
that it has one, and nothing that was said is unsaid.

* `retains_simulate` — a simulation adds to what was said;
* `head?_notices_iff` — it starts exactly if the limits that it resolves are valid;
* `error_environment_iff`, `error_creation_iff` — else it fails for the first fault;
* `resolution` — which limits there are, in the environment, at the start and ever after.
-/

namespace CallAdmission.Simulation

variable {α β : Type} {a : α} {b : β} {s s₁ s' : State} {x : Progress α} {f : α → Progress β}
  {jobs : List Job}

/-! ## nothing is unsaid -/

/-- If the part comes to its end, what was said before is still there. -/
def Retains (x : Progress α) (s : State) : Prop :=
  ∀ a s', x s = some (a, s') → s.notices <:+ s'.notices

theorem retains_pure (a : α) (s : State) : Retains (pure a) s := by
  intro a' s' h
  cases h
  exact List.suffix_refl _

theorem retains_failure (s : State) : Retains (failure : Progress α) s := nofun

/-- One part after the other. -/
theorem Retains.bind (h : Retains x s) (hf : ∀ a s₁, Retains (f a) s₁) :
    Retains (x >>= f) s := by
  intro b s' hbind
  obtain ⟨⟨a, s₁⟩, hx, hrest⟩ := Option.bind_eq_some_iff.1 hbind
  exact (h a s₁ hx).trans (hf a s₁ b s' hrest)

theorem retains_get_bind {g : State → Progress β} (h : Retains (g s) s) :
    Retains (get >>= g) s := h

theorem retains_set (h : s₁.notices = s.notices) : Retains (set s₁ : Progress Unit) s := by
  intro a s' hset
  cases hset
  rw [h]

theorem retains_modify {g : State → State} (hg : (g s).notices = s.notices) :
    Retains (modify g : Progress Unit) s := by
  intro a s' hmodify
  cases hmodify
  exact hg ▸ List.suffix_refl _

theorem retains_lift (o : Option α) (s : State) : Retains (liftM o : Progress α) s := by
  intro a s' h
  obtain ⟨a, -, h⟩ := Option.bind_eq_some_iff.1 h
  cases h
  exact List.suffix_refl _

theorem retains_say (n : Notice) (s : State) : Retains (say n) s := by
  intro a s' h
  cases h
  exact List.suffix_cons _ _

theorem retains_forM {es : List Dispatcher.Event} {g : Dispatcher.Event → Progress Unit}
    (hg : ∀ e s, Retains (g e) s) (s : State) : Retains (es.forM g) s := by
  induction es generalizing s with
  | nil => exact retains_pure () s
  | cons e es ih => exact (hg e s).bind fun _ s₁ => ih s₁

theorem retains_act (action : Dispatcher.Action) (s : State) : Retains (act action) s := by
  refine retains_get_bind ?_
  split
  · exact retains_failure s
  · next turn hstep =>
    refine (retains_modify rfl).bind fun _ s₁ => ?_
    refine (retains_forM (fun e s => ?_) s₁).bind fun _ s₁ => retains_pure turn s₁
    cases e with
    | said n => exact retains_say n s
    | _ => exact retains_pure () s

theorem retains_finishWork (j : Job) (s : State) : Retains (finishWork j) s :=
  (retains_modify rfl).bind fun _ s₁ => retains_pure _ s₁

theorem retains_work (jobs : List Job) (t : Ticket) (s : State) : Retains (work jobs t) s := by
  unfold work
  split
  · exact retains_failure s
  · next j hj =>
    refine retains_get_bind ?_
    split
    · exact (retains_modify rfl).bind fun _ s₁ => retains_finishWork j s₁
    · refine (retains_modify rfl).bind fun _ s₁ => ?_
      split
      · exact retains_finishWork j s₁
      · exact (retains_modify rfl).bind fun _ s₂ => retains_pure _ s₂

theorem retains_settle (jobs : List Job) (turns : Nat) (turn : Dispatcher.Turn) (s : State) :
    Retains (settle jobs turns turn) s := by
  induction turns generalizing turn s with
  | zero => exact retains_failure s
  | succ turns ih =>
    have hact : ∀ action s, Retains (act action >>= settle jobs turns) s :=
      fun action s => (retains_act action s).bind fun turn s₁ => ih turn s₁
    unfold settle
    split
    · exact retains_pure _ s
    · refine (retains_act _ s).bind fun _ s₁ => ?_
      exact (retains_modify rfl).bind fun _ s₂ => hact .leave s₂
    · exact (retains_modify rfl).bind fun _ s₁ => hact .leave s₁
    · exact hact .leave s
    · exact (retains_work jobs _ s).bind fun action s₁ => hact action s₁
    · exact retains_failure s

theorem retains_submitAll (jobs : List Job) (turns : Nat) (rest : List Job) (s : State) :
    Retains (submitAll jobs turns rest) s := by
  induction rest generalizing s with
  | nil => exact retains_pure () s
  | cons j rest ih =>
    refine (retains_act _ s).bind fun turn s₁ => ?_
    exact (retains_settle jobs turns turn s₁).bind fun _ s₂ => ih s₂

theorem retains_runTasks (jobs : List Job) (turns : Nat) (s : State) :
    Retains (runTasks jobs turns) s := by
  induction turns generalizing s with
  | zero => exact retains_failure s
  | succ turns ih =>
    have hset : ∀ scheduler, Retains (set { s with scheduler } : Progress Unit) s :=
      fun scheduler => retains_set rfl
    refine retains_get_bind ?_
    split
    · refine (hset _).bind fun _ s₁ => ?_
      refine (retains_act _ s₁).bind fun turn s₂ => ?_
      refine (retains_settle jobs turns turn s₂).bind fun reply s₃ => ?_
      split
      · exact (retains_modify rfl).bind fun _ s₄ => ih s₄
      · exact (retains_modify rfl).bind fun _ s₄ => ih s₄
    · split
      · exact (hset _).bind fun _ s₁ => ih s₁
      · exact retains_pure () s

/-- A simulation adds to what was said. -/
theorem retains_simulate (limits : Limits) (hosts : List Host) (jobs : List Job) (s : State) :
    Retains (simulate limits hosts jobs) s := by
  refine (retains_act _ s).bind fun _ s₁ => ?_
  refine (retains_say _ s₁).bind fun _ s₂ => ?_
  refine (retains_submitAll jobs _ jobs s₂).bind fun _ s₃ => ?_
  refine retains_get_bind ?_
  refine (retains_say _ s₃).bind fun _ s₄ => ?_
  refine (retains_runTasks jobs _ s₄).bind fun _ s₅ => ?_
  refine retains_get_bind ?_
  split
  · refine (retains_failure s₅).bind fun _ s₆ => ?_
    exact (retains_lift _ s₆).bind fun _ s₇ => retains_pure _ s₇
  · exact (retains_lift _ s₅).bind fun _ s₆ => retains_pure _ s₆

/-! ## the start -/

/-- The limits that a simulation resolves to: those of the command line, and for the others what the
environment provides. -/
def Options.Resolves (o : Options) (e : Environment) (l : Limits) : Prop :=
  ∃ l₀, e.Provides l₀ ∧ ∀ limit, l.get limit = (o.limits.get? limit).getD (l₀.get limit)

variable {o : Options} {e : Environment} {l : Limits} {error : DispatchError}

theorem eq_override_iff {l₀ : Limits} {v : Override} :
    (∀ limit, l.get limit = (v.get? limit).getD (l₀.get limit)) ↔ l = l₀.override v := by
  simp only [← Limits.get_override]
  exact ⟨Limits.ext_get, fun h limit => by rw [h]⟩

/-- The limits are resolved, or the environment is rejected. -/
theorem resolve_eq_ok_iff : o.resolve e = .ok l ↔ o.Resolves e l := by
  simp only [Options.Resolves, eq_override_iff, ← Environment.ofEnvironment_eq_ok_iff]
  unfold Options.resolve
  cases Limits.ofEnvironment e with
  | error error => exact ⟨nofun, nofun⟩
  | ok l₀ =>
    constructor
    · rintro ⟨⟩
      exact ⟨l₀, rfl, rfl⟩
    · rintro ⟨_, ⟨⟩, rfl⟩
      rfl

theorem resolve_eq_error_iff {error : RunError} :
    o.resolve e = .error error ↔ ∃ cause, error = .environment cause ∧ e.Rejects cause := by
  simp only [← Environment.ofEnvironment_eq_error_iff]
  unfold Options.resolve
  cases Limits.ofEnvironment e with
  | ok l₀ => exact ⟨nofun, nofun⟩
  | error cause =>
    constructor
    · rintro ⟨⟩
      exact ⟨cause, rfl, rfl⟩
    · rintro ⟨_, rfl, ⟨⟩⟩
      rfl

theorem create_of_invalid (h : l.Invalid error) : Dispatcher.create l = .error error := by
  rw [Dispatcher.create, Limits.validate_eq_error_iff.2 h]
  rfl

/-- What a report fails its check with. -/
theorem exceeded_of_check {r : Report} {error : RunError} (h : r.check = .error error) :
    (∃ peak limit, error = .totalExceeded peak limit) ∨
      ∃ host peak limit, error = .hostExceeded host peak limit := by
  unfold Report.check at h
  split at h
  · cases h
    exact .inl ⟨_, _, rfl⟩
  · split at h
    · exact nomatch h
    · cases h
      exact .inr ⟨_, _, _, rfl⟩

theorem run_of_rejects (h : e.Rejects error) :
    run o e = { error := some (.environment error) } := by
  rw [run, resolve_eq_error_iff.2 ⟨error, rfl, h⟩]

theorem run_of_invalid (hl : o.Resolves e l) (h : l.Invalid error) :
    run o e = { error := some (.creation error) } := by
  rw [run, resolve_eq_ok_iff.2 hl]
  simp only [create_of_invalid h]

/-- With valid limits a simulation starts, and what it may fail with then is no matter of limits. -/
theorem run_of_valid (hl : o.Resolves e l) (h : 1 ≤ l.maxRequests ∧ 1 ≤ l.maxPerHost) :
    (run o e).notices.head? = some (.created l) ∧
      ∀ error, (run o e).error ≠ some (.environment error) ∧
        (run o e).error ≠ some (.creation error) := by
  rw [run, resolve_eq_ok_iff.2 hl]
  simp only [Dispatcher.create_of_valid h]
  split
  · simp
  · obtain ⟨s₁, s', -, -, -, -, -, hleads⟩ := exists_leads_simulate o.jobs o.hostList h
    obtain ⟨notices, hsimulate⟩ := hleads [.created l]
    have hnotices : [Notice.created l] <:+ notices := retains_simulate _ _ _ _ _ _ hsimulate
    rw [hsimulate]
    constructor
    · obtain ⟨more, rfl⟩ := hnotices
      simp
    · intro error
      dsimp only
      split
      · simp
      · next failure hcheck =>
        obtain ⟨peak, limit, rfl⟩ | ⟨host, peak, limit, rfl⟩ := exceeded_of_check hcheck
        · simp
        · simp

/-- The environment is rejected, or the limits are resolved and not valid, or they are valid. -/
theorem rejects_or_resolves (o : Options) (e : Environment) :
    (∃ error, e.Rejects error) ∨ (∃ l error, o.Resolves e l ∧ l.Invalid error) ∨
      ∃ l : Limits, o.Resolves e l ∧ 1 ≤ l.maxRequests ∧ 1 ≤ l.maxPerHost := by
  cases hresolve : o.resolve e with
  | error error =>
    obtain ⟨cause, -, h⟩ := resolve_eq_error_iff.1 hresolve
    exact .inl ⟨cause, h⟩
  | ok l =>
    have hl := resolve_eq_ok_iff.1 hresolve
    cases hvalid : l.validate with
    | error error => exact .inr (.inl ⟨l, error, hl, Limits.validate_eq_error_iff.1 hvalid⟩)
    | ok u => exact .inr (.inr ⟨l, hl, l.validate_eq_ok_iff.1 hvalid⟩)

/-- A simulation starts exactly if the limits that it resolves are valid. -/
theorem head?_notices_iff :
    (run o e).notices.head? = some (.created l) ↔
      o.Resolves e l ∧ 1 ≤ l.maxRequests ∧ 1 ≤ l.maxPerHost := by
  constructor
  · intro hstart
    rcases rejects_or_resolves o e with ⟨error, h⟩ | ⟨l', error, hl', h⟩ | ⟨l', hl', h⟩
    · rw [run_of_rejects h] at hstart
      exact nomatch hstart
    · rw [run_of_invalid hl' h] at hstart
      exact nomatch hstart
    · cases (run_of_valid hl' h).1.symm.trans hstart
      exact ⟨hl', h⟩
  · exact fun ⟨hl, h⟩ => (run_of_valid hl h).1

/-- It fails with an error of the environment exactly if the environment is rejected, whatever the
command line says. -/
theorem error_environment_iff :
    (run o e).error = some (.environment error) ↔ e.Rejects error := by
  constructor
  · intro herror
    rcases rejects_or_resolves o e with ⟨error', h⟩ | ⟨l, error', hl, h⟩ | ⟨l, hl, h⟩
    · rw [run_of_rejects h] at herror
      cases herror
      exact h
    · rw [run_of_invalid hl h] at herror
      exact nomatch herror
    · exact absurd herror ((run_of_valid hl h).2 error).1
  · intro h
    rw [run_of_rejects h]

/-- It fails for want of a dispatcher exactly if the resolved limits are not valid. -/
theorem error_creation_iff :
    (run o e).error = some (.creation error) ↔ ∃ l, o.Resolves e l ∧ l.Invalid error := by
  constructor
  · intro herror
    rcases rejects_or_resolves o e with ⟨error', h⟩ | ⟨l, error', hl, h⟩ | ⟨l, hl, h⟩
    · rw [run_of_rejects h] at herror
      exact nomatch herror
    · rw [run_of_invalid hl h] at herror
      cases herror
      exact ⟨l, hl, h⟩
    · exact absurd herror ((run_of_valid hl h).2 error).2
  · rintro ⟨l, hl, h⟩
    rw [run_of_invalid hl h]

/-! ## from the environment to a running dispatcher -/

/-- How a text that is no numeral is reported: by the variable, the text with its blanks, and the
fault. -/
theorem message_of_misread {limit : Limit} (h : e.Misread limit error) :
    ∃ (s : String) (fault : Text.NumeralError), (e.get limit).Holds s ∧
      error.message = "invalid configuration: " ++ limit.variableName ++ "=" ++ Text.quote s ++
        ": " ++ fault.message := by
  cases h with
  | intro hs hds hfault => exact ⟨_, _, hs, rfl⟩

/-- A dispatcher has valid limits when it is created and after every course. -/
theorem limits_of_follow {d d' : Dispatcher} {notices : List Notice}
    {actions : List Dispatcher.Action} {es : List Dispatcher.Event}
    (hcreate : Dispatcher.create l = .ok (d, notices)) (h : d.follow actions = .ok (d', es))
    (limit : Limit) :
    1 ≤ (d'.ledger.queue.limits.get limit).toNat ∧
      (d'.ledger.queue.limits.get limit).toNat ≤ 2 ^ 64 - 1 := by
  have hvalid := (Dispatcher.sound_of_follow hcreate h).valid
  obtain ⟨htotal, hhost⟩ := (Limits.validate_eq_ok_iff _).1 hvalid
  refine ⟨?_, Nat.le_sub_one_of_lt (UInt64.toNat_lt _)⟩
  cases limit with
  | total => exact UInt64.le_iff_toNat_le.1 htotal
  | perHost => exact UInt64.le_iff_toNat_le.1 hhost

/-- **Resolution of limits.** The environment provides limits, or it is rejected for its first
fault. A text that is no numeral is reported with its variable and its blanks. A simulation starts
exactly if the environment provides limits and those of them that the command line does not replace
are valid together with the ones that do; else it fails, with the fault of the environment before
one of the command line. A dispatcher is created for valid limits only, and they stay valid. -/
theorem resolution (o : Options) (e : Environment) :
    (∀ l, Limits.ofEnvironment e = .ok l ↔ e.Provides l) ∧
    (∀ error, Limits.ofEnvironment e = .error error ↔ e.Rejects error) ∧
    (∀ error, e.Misread .total error → ∃ (s : String) (fault : Text.NumeralError),
      e.maxRequests.Holds s ∧ error.message =
        "invalid configuration: CALLGATE_MAX_REQUESTS=" ++ Text.quote s ++ ": " ++
          fault.message) ∧
    (∀ error, e.Misread .perHost error → ∃ (s : String) (fault : Text.NumeralError),
      e.maxPerHost.Holds s ∧ error.message =
        "invalid configuration: CALLGATE_MAX_REQUESTS_PER_HOST=" ++ Text.quote s ++ ": " ++
          fault.message) ∧
    (∀ l, (run o e).notices.head? = some (.created l) ↔
      o.Resolves e l ∧ 1 ≤ l.maxRequests ∧ 1 ≤ l.maxPerHost) ∧
    (∀ error, (run o e).error = some (.environment error) ↔ e.Rejects error) ∧
    (∀ error, (run o e).error = some (.creation error) ↔ ∃ l, o.Resolves e l ∧ l.Invalid error) ∧
    (∀ l, (∃ r, Dispatcher.create l = .ok r) ↔ 1 ≤ l.maxRequests ∧ 1 ≤ l.maxPerHost) ∧
    ∀ l d notices actions d' es, Dispatcher.create l = .ok (d, notices) →
      d.follow actions = .ok (d', es) → ∀ limit,
        1 ≤ (d'.ledger.queue.limits.get limit).toNat ∧
          (d'.ledger.queue.limits.get limit).toNat ≤ 2 ^ 64 - 1 := by
  refine ⟨fun l => Environment.ofEnvironment_eq_ok_iff,
    fun error => Environment.ofEnvironment_eq_error_iff, fun error h => message_of_misread h,
    fun error h => message_of_misread h, fun l => head?_notices_iff,
    fun error => error_environment_iff, fun error => error_creation_iff, fun l => ?_,
    fun l d notices actions d' es => limits_of_follow⟩
  constructor
  · rintro ⟨⟨d, notices⟩, hcreate⟩
    exact (Dispatcher.create_eq_ok hcreate).1
  · exact fun h => ⟨_, Dispatcher.create_of_valid h⟩

end CallAdmission.Simulation
