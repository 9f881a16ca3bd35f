import CallAdmission.Text.Quoted

/-!
# CallAdmission.Json.Value

JSON values, and their written forms on one line (`Value.compact`) and over several lines
(`Value.pretty`).

A number is kept as the characters it is written with, so that nothing is lost between `1`, `1.0`
and `1e0`. A string is a list of `Symbol`s: a text may name half of a surrogate pair alone, which
is no character.

* `toText?_ofText` — a string made from a text is that text again.
-/

namespace CallAdmission.Json

/-! ## strings -/

/-- An element of a string. -/
inductive Symbol where
  /-- a character -/
  | char (c : Char)
  /-- a surrogate code unit without its other half -/
  | lone (unit : Nat)
deriving DecidableEq, Repr

/-- The string of a text. -/
def ofText (s : String) : List Symbol := s.toList.map .char

/-- The characters of a string, if all its elements are characters. -/
def chars? : List Symbol → Option (List Char)
  | [] => some []
  | .char c :: rest => (chars? rest).map (c :: ·)
  | .lone _ :: _ => none

/-- The text of a string, if all its elements are characters. -/
def toText? (s : List Symbol) : Option String := (chars? s).map String.ofList

theorem chars?_map_char (cs : List Char) : chars? (cs.map .char) = some cs := by
  induction cs with
  | nil => rfl
  | cons c cs ih => simp [chars?, ih]

/-- Reading the string of a text gives the text. -/
theorem toText?_ofText (s : String) : toText? (ofText s) = some s := by
  simp [toText?, ofText, chars?_map_char]

/-! ## values -/

/-- A JSON value. Members of an object stand in the order of the text and may repeat a key. -/
inductive Value where
  | null
  | bool (b : Bool)
  /-- a number by the characters it is written with -/
  | number (text : List Char)
  | string (s : List Symbol)
  | array (items : List Value)
  | object (members : List (List Symbol × Value))

namespace Value

/-- A natural number. -/
def natural (n : Nat) : Value := .number (Nat.toDigits 10 n)

/-- A text. -/
def text (s : String) : Value := .string (ofText s)

/-- An object with the given members. -/
def record (members : List (String × Value)) : Value :=
  .object (members.map fun m => (ofText m.1, m.2))

/-- The number of a list of digits. -/
def ofDigits (n : Nat) : List Char → Option Nat
  | [] => some n
  | c :: cs => if c.isDigit then ofDigits (10 * n + (c.toNat - '0'.toNat)) cs else none

/-- The value as a word: a number written with digits alone, below `2 ^ 64`. -/
def word? : Value → Option UInt64
  | .number cs => do
    let n ← ofDigits 0 cs
    if n < UInt64.size then some (UInt64.ofNat n) else none
  | _ => none

/-- The value as a text: a string of characters alone. -/
def text? : Value → Option String
  | .string s => toText? s
  | _ => none

/-! ## written strings -/

/-- A code unit by its number, as four hexadecimal digits. -/
def writeUnit (n : Nat) : String :=
  let digits := Text.hex n
  "\\u" ++ String.ofList (List.replicate (4 - digits.length) '0') ++ digits

/-- How a character stands in a string: quotes, backslashes and controls are escaped. -/
def writeChar (c : Char) : String :=
  match c with
  | '"' => "\\\""
  | '\\' => "\\\\"
  | '\x08' => "\\b"
  | '\x0c' => "\\f"
  | '\n' => "\\n"
  | '\r' => "\\r"
  | '\t' => "\\t"
  | c => if c.toNat < 0x20 then writeUnit c.toNat else c.toString

/-- How an element stands in a string. -/
def writeSymbol : Symbol → String
  | .char c => writeChar c
  | .lone unit => writeUnit unit

/-- A string between quotes. -/
def writeString (s : List Symbol) : String :=
  "\"" ++ String.join (s.map writeSymbol) ++ "\""

/-! ## on one line -/

mutual

/-- The value on one line, without blanks. -/
def compact : Value → String
  | .null => "null"
  | .bool b => if b then "true" else "false"
  | .number text => String.ofList text
  | .string s => writeString s
  | .array items => "[" ++ ",".intercalate (compactItems items) ++ "]"
  | .object members => "\x7b" ++ ",".intercalate (compactMembers members) ++ "\x7d"

/-- Each item on one line. -/
def compactItems : List Value → List String
  | [] => []
  | v :: rest => v.compact :: compactItems rest

/-- Each member on one line. -/
def compactMembers : List (List Symbol × Value) → List String
  | [] => []
  | (key, v) :: rest => (writeString key ++ ":" ++ v.compact) :: compactMembers rest

end

/-! ## over several lines -/

/-- The blanks of a level of indentation. -/
def indent (level : Nat) : String := String.ofList (List.replicate (2 * level) ' ')

/-- Written parts between brackets, each on a line of its own. -/
def block (level : Nat) (left right : String) : List String → String
  | [] => left ++ right
  | parts =>
    left ++ "\n" ++ ",\n".intercalate (parts.map (indent (level + 1) ++ ·)) ++ "\n" ++
      indent level ++ right

mutual

/-- The value over several lines, where its first line already stands at `level`. -/
def prettyAt (level : Nat) : Value → String
  | .array items => block level "[" "]" (prettyItems (level + 1) items)
  | .object members => block level "\x7b" "\x7d" (prettyMembers (level + 1) members)
  | .null => "null"
  | .bool b => if b then "true" else "false"
  | .number text => String.ofList text
  | .string s => writeString s

/-- Each item from a line of its own. -/
def prettyItems (level : Nat) : List Value → List String
  | [] => []
  | v :: rest => v.prettyAt level :: prettyItems level rest

/-- Each member from a line of its own. -/
def prettyMembers (level : Nat) : List (List Symbol × Value) → List String
  | [] => []
  | (key, v) :: rest => (writeString key ++ ": " ++ v.prettyAt level) :: prettyMembers level rest

end

/-- The value over several lines, with two blanks for each level. -/
def pretty (v : Value) : String := v.prettyAt 0

end Value

end CallAdmission.Json
