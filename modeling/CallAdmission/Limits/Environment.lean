import CallAdmission.Limits.Basic
import CallAdmission.Text.Blank

/-!
# CallAdmission.Limits.Environment

Limits from the environment. A variable that is missing, or whose bytes are no text, leaves the
default. Blanks around a numeral do not count. Of several faults the first in this order is
reported: the total limit's numeral, the per-host limit's numeral, a total limit below one, a
per-host limit below one.
-/

namespace CallAdmission

/-- What the environment holds for a variable. -/
inductive Setting where
  | unset
  | text (s : String)
  /-- bytes, which need not be the UTF-8 form of a text -/
  | bytes (b : List UInt8)
deriving DecidableEq, Repr, Inhabited

/-- The text of a variable, if it is set to one. -/
def Setting.text? : Setting → Option String
  | .unset => none
  | .text s => some s
  | .bytes b => String.fromUTF8? b.toByteArray

/-- The part of the environment that limits are read from. -/
structure Environment where
  maxRequests : Setting := .unset
  maxPerHost : Setting := .unset
deriving DecidableEq, Repr, Inhabited

namespace Environment

/-- What the environment holds for a limit. -/
def get (e : Environment) : Limit → Setting
  | .total => e.maxRequests
  | .perHost => e.maxPerHost

/-- The value that the environment gives to a limit. -/
def value? (e : Environment) (limit : Limit) : Except DispatchError (Option UInt64) :=
  match (e.get limit).text? with
  | none => .ok none
  | some s =>
    match Text.readWord (Text.strip s.toList) with
    | .ok n => .ok (some n)
    | .error fault => .error (.configuration limit s fault)

/-- The values that the environment gives to the limits. -/
def readOverride (e : Environment) : Except DispatchError Override := do
  let maxRequests ← e.value? .total
  let maxPerHost ← e.value? .perHost
  return { maxRequests, maxPerHost }

end Environment

/-- The default limits with the values of the environment, if they are valid. -/
def Limits.ofEnvironment (e : Environment) : Except DispatchError Limits := do
  let l := ({} : Limits).override (← e.readOverride)
  l.validate
  return l

end CallAdmission
