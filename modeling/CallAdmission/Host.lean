import CallAdmission.Json.Value
import CallAdmission.Text.Layout

/-!
# CallAdmission.Host

The destination of a call, which the per-host limit is counted by. Hosts are texts; they are
ordered by their code points, which is the order of their UTF-8 bytes.
-/

namespace CallAdmission

/-- The destination of a call. -/
structure Host where
  name : String
deriving DecidableEq, Repr, Inhabited

namespace Host

/-- The order of hosts. -/
def le (a b : Host) : Bool := a.name ≤ b.name

/-- The number of bytes of the host's UTF-8 form. -/
def size (h : Host) : Nat := h.name.utf8ByteSize

/-- The host for diagnostics. -/
def layout (h : Host) : Text.Layout := .wrapper "Host" [.quoted h.name]

/-- The host as JSON: its text. -/
def toJson (h : Host) : Json.Value := .text h.name

/-- A host is read from a string of characters. -/
def ofJson? (v : Json.Value) : Option Host := v.text?.map .mk

/-- Hosts in order, each once. -/
def sortUnique (hosts : List Host) : List Host := (hosts.mergeSort le).eraseReps

end Host

end CallAdmission
