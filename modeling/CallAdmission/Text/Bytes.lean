/-!
# CallAdmission.Text.Bytes

Places in a text, counted in bytes of UTF-8.
-/

namespace CallAdmission.Text

/-- The number of bytes of a text. -/
def byteLength : List Char → Nat
  | [] => 0
  | c :: cs => c.utf8Size + byteLength cs

/-- Cut a text after so many bytes; there is no cut inside a character or behind the end. -/
def splitBytes? : Nat → List Char → Option (List Char × List Char)
  | 0, cs => some ([], cs)
  | _ + 1, [] => none
  | n + 1, c :: cs =>
    if c.utf8Size ≤ n + 1 then
      (splitBytes? (n + 1 - c.utf8Size) cs).map fun (front, back) => (c :: front, back)
    else none

/-- The part of a text that begins after so many bytes and has a given length in bytes. -/
def bytesAt? (start length : Nat) (cs : List Char) : Option (List Char) := do
  let (_, back) ← splitBytes? start cs
  let (part, _) ← splitBytes? length back
  return part

end CallAdmission.Text
