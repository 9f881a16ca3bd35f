import CallAdmission.Text.Layout
import CallAdmission.Text.Numeral

/-!
# CallAdmission.Limits.Basic

The two limits of a dispatcher: how many calls run at once, and how many calls to one host that are
not duplex. A dispatcher runs only under limits of at least one.

`Override` holds values for some of the limits, wherever they come from.

* `validate_eq_ok_iff` — limits are valid exactly when both are at least one;
* `ext_get`, `get_override` — limits by their values.
-/

namespace CallAdmission

/-! ## names of limits -/

/-- One of the two limits. -/
inductive Limit where
  /-- on all running calls -/
  | total
  /-- on the running calls to one host that are not duplex -/
  | perHost
deriving DecidableEq, Repr

namespace Limit

/-- The name of the limit in messages and in JSON. -/
def name : Limit → String
  | .total => "max_requests"
  | .perHost => "max_requests_per_host"

/-- The environment variable that sets the limit. -/
def variableName : Limit → String
  | .total => "CALLGATE_MAX_REQUESTS"
  | .perHost => "CALLGATE_MAX_REQUESTS_PER_HOST"

/-- The limit with a given name. -/
def ofName? (s : String) : Option Limit :=
  if s = total.name then some total else if s = perHost.name then some perHost else none

theorem forall_iff {P : Limit → Prop} : (∀ limit, P limit) ↔ P .total ∧ P .perHost := by
  constructor
  · exact fun h => ⟨h .total, h .perHost⟩
  · rintro ⟨htotal, hhost⟩ limit
    cases limit with
    | total => exact htotal
    | perHost => exact hhost

end Limit

/-! ## errors -/

/-- Why there is no dispatcher, or why its limits stay as they are. -/
inductive DispatchError where
  /-- the value is below one -/
  | invalidLimit (limit : Limit) (value : UInt64)
  /-- the environment sets the limit to a text that is no numeral -/
  | configuration (limit : Limit) (text : String) (fault : Text.NumeralError)
  /-- no runtime is there to run calls on -/
  | noRuntime
deriving DecidableEq, Repr

namespace DispatchError

/-- The wording of the error. -/
def message : DispatchError → String
  | .invalidLimit limit value => limit.name ++ " < 1: " ++ toString value.toNat
  | .configuration limit text fault =>
    "invalid configuration: " ++ limit.variableName ++ "=" ++ Text.quote text ++ ": " ++
      fault.message
  | .noRuntime => "No tokio runtime available"

end DispatchError

/-! ## limits -/

/-- The limits of a dispatcher. -/
structure Limits where
  /-- how many calls run at once -/
  maxRequests : UInt64 := 64
  /-- how many calls to one host that are not duplex run at once -/
  maxPerHost : UInt64 := 5
deriving DecidableEq, Repr, Inhabited

namespace Limits

/-- The value of a limit. -/
def get (l : Limits) : Limit → UInt64
  | .total => l.maxRequests
  | .perHost => l.maxPerHost

/-- Change one limit. -/
def set (l : Limits) (limit : Limit) (n : UInt64) : Limits :=
  match limit with
  | .total => { l with maxRequests := n }
  | .perHost => { l with maxPerHost := n }

/-- Limits with the same values are the same. -/
theorem ext_get {l l' : Limits} (h : ∀ limit, l.get limit = l'.get limit) : l = l' := by
  obtain ⟨maxRequests, maxPerHost⟩ := l
  exact congr (congrArg Limits.mk (h .total)) (h .perHost)

/-- A value that a limit may have. -/
def check (limit : Limit) (n : UInt64) : Except DispatchError Unit :=
  if n < 1 then .error (.invalidLimit limit n) else .ok ()

/-- A limit may have a value exactly when that is at least one. -/
theorem check_eq_ok_iff (limit : Limit) (n : UInt64) : check limit n = .ok () ↔ 1 ≤ n := by
  unfold check
  split
  · next h => exact ⟨nofun, fun h' => absurd h (UInt64.not_lt.2 h')⟩
  · next h => exact ⟨fun _ => UInt64.not_lt.1 h, fun _ => rfl⟩

/-- Both limits are at least one; of two faults the total limit's is reported. -/
def validate (l : Limits) : Except DispatchError Unit := do
  check .total l.maxRequests
  check .perHost l.maxPerHost

/-- Limits are valid exactly when both are at least one. -/
theorem validate_eq_ok_iff (l : Limits) :
    l.validate = .ok () ↔ 1 ≤ l.maxRequests ∧ 1 ≤ l.maxPerHost := by
  rw [← check_eq_ok_iff .total, ← check_eq_ok_iff .perHost]
  unfold validate
  cases check .total l.maxRequests with
  | error e => exact ⟨nofun, nofun⟩
  | ok u => exact ⟨fun h => ⟨rfl, h⟩, fun h => h.2⟩

/-- The limits for diagnostics. -/
def layout (l : Limits) : Text.Layout :=
  .record "DispatcherConfig"
    [(Limit.total.name, .number l.maxRequests.toNat),
      (Limit.perHost.name, .number l.maxPerHost.toNat)] false

end Limits

/-! ## overrides -/

/-- Values for some of the limits. -/
structure Override where
  maxRequests : Option UInt64 := none
  maxPerHost : Option UInt64 := none
deriving DecidableEq, Repr, Inhabited

namespace Override

/-- The value for a limit, if there is one. -/
def get? (o : Override) : Limit → Option UInt64
  | .total => o.maxRequests
  | .perHost => o.maxPerHost

/-- Give a limit a value. -/
def set (o : Override) (limit : Limit) (n : UInt64) : Override :=
  match limit with
  | .total => { o with maxRequests := some n }
  | .perHost => { o with maxPerHost := some n }

/-- Overrides with the same values are the same. -/
theorem ext_get? {o o' : Override} (h : ∀ limit, o.get? limit = o'.get? limit) : o = o' := by
  obtain ⟨maxRequests, maxPerHost⟩ := o
  exact congr (congrArg Override.mk (h .total)) (h .perHost)

theorem get?_set (o : Override) (limit limit' : Limit) (n : UInt64) :
    (o.set limit n).get? limit' = if limit = limit' then some n else o.get? limit' := by
  cases limit <;> cases limit' <;> rfl

end Override

/-- The limits with those values replaced that the override gives. -/
def Limits.override (l : Limits) (o : Override) : Limits where
  maxRequests := o.maxRequests.getD l.maxRequests
  maxPerHost := o.maxPerHost.getD l.maxPerHost

theorem Limits.get_override (l : Limits) (o : Override) (limit : Limit) :
    (l.override o).get limit = (o.get? limit).getD (l.get limit) := by
  cases limit <;> rfl

end CallAdmission
