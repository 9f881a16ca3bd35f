import CallAdmission.Proofs.Dispatcher.Course
import Mathlib.Data.List.Intervals

/-!
# CallAdmission.Proofs.Dispatcher.Journey

Courses that go on for ever. Whether an operation returns at all is a question about what comes
after it, however long that takes; no course of a given length can tell.

* `Journey` — a course without an end;
* `Journey.follow_upto` — every beginning of a journey is a course;
* `exists_journey_of_follow` — every course is the beginning of a journey.
-/

namespace CallAdmission.Dispatcher

variable {d₀ d : Dispatcher} {actions : List Action} {es : List Event} {n m k : ℕ}

/-- A course that goes on for ever. -/
structure Journey (d₀ : Dispatcher) where
  /-- the dispatcher before each step -/
  state : ℕ → Dispatcher
  action : ℕ → Action
  turn : ℕ → Turn
  start : state 0 = d₀
  step : ∀ k, (state k).step (action k) = .ok (turn k)
  next : ∀ k, state (k + 1) = (turn k).dispatcher

namespace Journey

/-- The first actions of a journey. -/
def upto (j : Journey d₀) (k : ℕ) : List Action := (List.range k).map j.action

/-- The actions from one step on, up to another. -/
def between (j : Journey d₀) (n m : ℕ) : List Action := (List.Ico n m).map j.action

/-- What happens from one step on, up to another. -/
def events (j : Journey d₀) (n m : ℕ) : List Event := (List.Ico n m).flatMap fun k => (j.turn k).events

variable (j : Journey d₀)

@[simp] theorem events_self (n : ℕ) : j.events n n = [] := by simp [events]

theorem events_succ (h : n ≤ m) : j.events n (m + 1) = j.events n m ++ (j.turn m).events := by
  simp [events, List.Ico.succ_top h]

theorem events_append (hnm : n ≤ m) (hmk : m ≤ k) :
    j.events n k = j.events n m ++ j.events m k := by
  rw [events, ← List.Ico.append_consecutive hnm hmk, List.flatMap_append]
  rfl

theorem between_eq_cons (h : n < m) : j.between n m = j.action n :: j.between (n + 1) m := by
  rw [between, List.Ico.eq_cons h]
  rfl

theorem between_zero (n : ℕ) : j.between 0 n = j.upto n := by
  rw [between, List.Ico.zero_bot, upto]

theorem upto_append (h : n ≤ m) : j.upto m = j.upto n ++ j.between n m := by
  rw [← between_zero, ← between_zero, between, between, between, ← List.map_append,
    List.Ico.append_consecutive (Nat.zero_le n) h]

theorem take_upto (h : k ≤ n) : (j.upto n).take k = j.upto k := by
  rw [upto, ← List.map_take, List.take_range, Nat.min_eq_left h]
  rfl

theorem getElem?_upto (h : k < n) : (j.upto n)[k]? = some (j.action k) := by
  simp [upto, h]

/-- A beginning of a journey is a course. -/
theorem follow_upto (k : ℕ) : d₀.follow (j.upto k) = .ok (j.state k, j.events 0 k) := by
  induction k with
  | zero => exact congrArg (fun d => Except.ok (d, [])) j.start.symm
  | succ k ih =>
    rw [upto, List.range_succ, List.map_append, j.next, j.events_succ (Nat.zero_le k)]
    exact follow_concat ih (j.step k)

theorem state_eq_of_follow (h : k ≤ n) (hk : d₀.follow ((j.upto n).take k) = .ok (d, es)) :
    j.state k = d := by
  rw [j.take_upto h, j.follow_upto k] at hk
  exact congrArg Prod.fst (Except.ok.inj hk)

/-- What the steps of a journey yield from one of them on. -/
theorem gather_between {α : Type} (f : Dispatcher → Action → Turn → List α) (h : n ≤ m) :
    gather f (j.state n) (j.between n m) =
      (List.Ico n m).flatMap fun k => f (j.state k) (j.action k) (j.turn k) := by
  induction h using Nat.decreasingInduction with
  | self => simp [between, gather]
  | of_succ n hlt ih =>
    rw [j.between_eq_cons hlt, List.Ico.eq_cons hlt, List.flatMap_cons, ← ih, j.next]
    simp only [gather, j.step n]

/-- What the first steps of a journey yield. -/
theorem gather_upto {α : Type} (f : Dispatcher → Action → Turn → List α) (n : ℕ) :
    gather f d₀ (j.upto n) =
      (List.range n).flatMap fun k => f (j.state k) (j.action k) (j.turn k) := by
  have hgather := j.gather_between f (Nat.zero_le n)
  rwa [j.start, j.between_zero, List.Ico.zero_bot] at hgather

/-- One step, and then a journey. -/
def cons {a : Action} {turn : Turn} (h : d.step a = .ok turn) (j : Journey turn.dispatcher) :
    Journey d where
  state
    | 0 => d
    | k + 1 => j.state k
  action
    | 0 => a
    | k + 1 => j.action k
  turn
    | 0 => turn
    | k + 1 => j.turn k
  start := rfl
  step
    | 0 => h
    | k + 1 => j.step k
  next
    | 0 => j.start
    | k + 1 => j.next k

/-- Nothing happens any more: the callback that is registered is registered again and again. -/
def stay (d : Dispatcher) : Journey d where
  state _ := d
  action _ := .setIdle d.ledger.queue.idle
  turn _ := d.answer .done
  start := rfl
  step _ := rfl
  next _ := rfl

end Journey

/-- Every course is the beginning of a journey on which nothing happens after it. -/
theorem exists_journey_of_follow (h : d₀.follow actions = .ok (d, es)) :
    ∃ j : Journey d₀, j.upto actions.length = actions ∧
      ∀ k, actions.length ≤ k → j.state k = d ∧ j.action k = .setIdle d.ledger.queue.idle ∧
        j.turn k = d.answer .done := by
  induction actions generalizing d₀ es with
  | nil =>
    cases h
    exact ⟨Journey.stay d, rfl, fun _ _ => ⟨rfl, rfl, rfl⟩⟩
  | cons a actions ih =>
    obtain ⟨turn, es', hstep, hrest, -⟩ := follow_cons_eq_ok h
    obtain ⟨j, hupto, hlater⟩ := ih hrest
    refine ⟨Journey.cons hstep j, ?_, fun k hk => ?_⟩
    · rw [Journey.upto, List.length_cons, List.range_succ_eq_map, List.map_cons, List.map_map]
      exact congrArg (a :: ·) hupto
    · cases k with
      | zero => exact absurd hk (Nat.not_succ_le_zero _)
      | succ k => exact hlater k (Nat.le_of_succ_le_succ hk)

end CallAdmission.Dispatcher
