import CallAdmission.Json.Reader
import CallAdmission.Limits.Basic

/-!
# CallAdmission.Limits.Json

Limits as JSON. They are written as an object with both values. They are read from an object, where
a missing value leaves the default, a repeated one is refused and unknown members are skipped, or
from an array with the values in order, of which the last ones may be missing.
-/

namespace CallAdmission.Limits

/-- The limits as JSON. -/
def toJson (l : Limits) : Json.Value :=
  .record [(Limit.total.name, .natural l.maxRequests.toNat),
    (Limit.perHost.name, .natural l.maxPerHost.toNat)]

/-- Take a member of an object into account. -/
def readMember (o : Override) (m : List Json.Symbol × Json.Value) : Option Override := do
  let key ← Json.toText? m.1
  match Limit.ofName? key with
  | none => return o
  | some limit =>
    match o.get? limit with
    | some _ => none
    | none => return o.set limit (← m.2.word?)

/-- The values that a JSON value gives to the limits. -/
def readOverride? : Json.Value → Option Override
  | .object members => members.foldlM readMember {}
  | .array [] => some {}
  | .array [a] => return { maxRequests := some (← a.word?) }
  | .array [a, b] => return { maxRequests := some (← a.word?), maxPerHost := some (← b.word?) }
  | _ => none

/-- The limits that a JSON value stands for. -/
def ofJson? (v : Json.Value) : Option Limits := (readOverride? v).map ({} : Limits).override

/-- The limits that a JSON text stands for. -/
def ofJsonText? (s : String) : Option Limits := (Json.read? s).bind ofJson?

end CallAdmission.Limits
