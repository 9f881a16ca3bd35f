import CallAdmission.Json.Value
import CallAdmission.Text.Layout
import CallAdmission.Text.Numeral

/-!
# CallAdmission.Call.Id

Identifiers of calls: numbers of 128 bits. The written form is 32 hexadecimal digits in the groups
8-4-4-4-12. Four spellings are read, with digits of either case: the digits alone, the grouped
form, the grouped form in braces, and the grouped form after `urn:uuid:`.
-/

namespace CallAdmission

/-- An identifier of a call. -/
structure CallId where
  bits : BitVec 128
deriving DecidableEq, Repr

namespace CallId

/-- The order of identifiers is that of their numbers. -/
def le (a b : CallId) : Bool := a.bits.toNat ≤ b.bits.toNat

/-- The identifier whose bits are all zero. -/
def isNil (id : CallId) : Bool := id.bits == 0

/-! ## written form -/

/-- The lengths of the groups of digits. -/
def groups : List Nat := [8, 4, 4, 4, 12]

/-- A fixed number of hexadecimal digits, the last ones of the number. -/
def hexDigits : Nat → Nat → List Char
  | 0, _ => []
  | count + 1, n => hexDigits count (n / 16) ++ [Nat.digitChar (n % 16)]

/-- Cut characters into groups with a hyphen between them. -/
def hyphenate : List Nat → List Char → List Char
  | [], cs => cs
  | [_], cs => cs
  | n :: ns, cs => cs.take n ++ '-' :: hyphenate ns (cs.drop n)

/-- The written form. -/
def chars (id : CallId) : List Char := hyphenate groups (hexDigits 32 id.bits.toNat)

/-- The written form as a text. -/
def text (id : CallId) : String := String.ofList id.chars

/-! ## reading -/

/-- The number that hexadecimal digits spell, after a number read before them. -/
def readHex (n : Nat) : List Char → Option Nat
  | [] => some n
  | c :: cs => do
    let d ← Text.hexDigit? c
    readHex (16 * n + d) cs

/-- Thirty-two digits. -/
def ofDigits? (cs : List Char) : Option CallId :=
  if cs.length = 32 then (readHex 0 cs).map fun n => ⟨BitVec.ofNat 128 n⟩ else none

/-- Groups of the given lengths with a hyphen between them, put together again. -/
def unhyphenate? : List Nat → List Char → Option (List Char)
  | [], cs => if cs.isEmpty then some [] else none
  | [n], cs => if cs.length = n then some cs else none
  | n :: ns, cs =>
    match cs.drop n with
    | '-' :: rest => (unhyphenate? ns rest).map (cs.take n ++ ·)
    | _ => none

/-- Digits in their groups. -/
def ofGroups? (cs : List Char) : Option CallId := (unhyphenate? groups cs).bind ofDigits?

/-- What may stand before the groups. -/
def urnPrefix : List Char := "urn:uuid:".toList

/-- One of the four spellings; which one it can be shows in the length. -/
def ofChars? (cs : List Char) : Option CallId :=
  match cs.length with
  | 32 => ofDigits? cs
  | 36 => ofGroups? cs
  | 38 =>
    match cs with
    | '\x7b' :: rest => if rest.getLast? = some '\x7d' then ofGroups? rest.dropLast else none
    | _ => none
  | 45 =>
    if (cs.take urnPrefix.length).map Char.toLower = urnPrefix then
      ofGroups? (cs.drop urnPrefix.length)
    else none
  | _ => none

/-- The identifier that a text spells. -/
def ofText? (s : String) : Option CallId := ofChars? s.toList

/-! ## other forms -/

/-- The identifier for diagnostics. -/
def layout (id : CallId) : Text.Layout := .wrapper "CallId" [.plain id.text]

/-- The identifier as JSON: its written form. -/
def toJson (id : CallId) : Json.Value := .text id.text

/-- An identifier is read from a string that spells one. -/
def ofJson? (v : Json.Value) : Option CallId := v.text?.bind ofText?

/-- Identifiers in order, each once. -/
def sortUnique (ids : List CallId) : List CallId := (ids.mergeSort le).eraseReps

end CallId

end CallAdmission
