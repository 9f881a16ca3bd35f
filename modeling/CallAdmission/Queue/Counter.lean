import CallAdmission.Notice
import CallAdmission.Text.Layout

/-!
# CallAdmission.Queue.Counter

Counters of running calls, and a store of them. Calls to one host that are not duplex share a
counter, every other call has its own; a counter is named by the ticket of the call it was made
for. A counter that stands at zero takes no place in the store.

* `get_set` — the store holds what was put into it last.
-/

namespace CallAdmission

/-! ## one counter -/

/-- The number of running calls among those that share the counter. -/
structure Counter where
  running : Nat := 0
deriving DecidableEq, Repr, Inhabited

namespace Counter

/-- One more call runs. -/
def increment (c : Counter) : Counter := ⟨c.running + 1⟩

/-- One call less runs; a counter never falls below zero. -/
def decrement (c : Counter) : Counter := ⟨c.running - 1⟩

/-- What is said when the counter is decremented. -/
def decrementNotices (c : Counter) : List Notice := if c.running = 0 then [.belowZero] else []

/-- The counter as a text. -/
def text (c : Counter) : String := toString c.running

/-- The counter for diagnostics. -/
def layout (c : Counter) : Text.Layout :=
  .record "HostCounter" [("running", .number c.running)] false

end Counter

/-! ## a store of counters -/

/-- Counters by name. -/
structure Counters where
  cells : List (Ticket × Counter) := []
deriving DecidableEq, Repr, Inhabited

namespace Counters

/-- The first counter of a name among cells. -/
def find (name : Ticket) : List (Ticket × Counter) → Counter
  | [] => {}
  | (n, c) :: rest => if n = name then c else find name rest

/-- The counter of a name. -/
def get (s : Counters) (name : Ticket) : Counter := find name s.cells

/-- Cells without those of a name. -/
def without (name : Ticket) : List (Ticket × Counter) → List (Ticket × Counter)
  | [] => []
  | (n, c) :: rest => if n = name then without name rest else (n, c) :: without name rest

/-- Change the counter of a name. -/
def set (s : Counters) (name : Ticket) (c : Counter) : Counters :=
  ⟨if c.running = 0 then without name s.cells else (name, c) :: without name s.cells⟩

theorem find_without_self (name : Ticket) (cells : List (Ticket × Counter)) :
    find name (without name cells) = {} := by
  induction cells with
  | nil => rfl
  | cons p rest ih =>
    obtain ⟨n, c⟩ := p
    by_cases h : n = name <;> simp [without, find, h, ih]

theorem find_without_of_ne {name other : Ticket} (h : other ≠ name)
    (cells : List (Ticket × Counter)) : find other (without name cells) = find other cells := by
  induction cells with
  | nil => rfl
  | cons p rest ih =>
    obtain ⟨n, c⟩ := p
    by_cases hn : n = name
    · simp [without, find, hn, ih, Ne.symm h]
    · simp [without, find, hn, ih]

/-- The store holds what was put into it last. -/
theorem get_set (s : Counters) (name other : Ticket) (c : Counter) :
    (s.set name c).get other = if other = name then c else s.get other := by
  by_cases h : other = name
  · subst h
    by_cases hc : c.running = 0
    · simp [set, get, hc, find_without_self]
      cases c; simp_all
    · simp [set, get, hc, find]
  · by_cases hc : c.running = 0
    · simp [set, get, hc, h, find_without_of_ne]
    · simp [set, get, hc, h, find, find_without_of_ne, Ne.symm h]

end Counters

end CallAdmission
