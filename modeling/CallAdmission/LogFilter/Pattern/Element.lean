import CallAdmission.LogFilter.Pattern.Flags
import CallAdmission.Text.Numeral

/-!
# CallAdmission.LogFilter.Pattern.Element

The smallest parts of a pattern: characters, the places and kinds of characters that an escape
stands for, and the dot.

Not every element can be used under all flags. No tables of the characters of all scripts are at
hand, so under the flag `u` no letter stands for both cases, and no kind of characters can be named.
Without that flag nothing may stand for a byte that is no ASCII character.
-/

namespace CallAdmission.Pattern

/-- A smallest part of a pattern. -/
inductive Element where
  /-- a character, which may be written by its byte -/
  | char (c : Char) (isByte : Bool)
  /-- a digit, a blank or a character of a word, or one that is none -/
  | kind (negated : Bool)
  /-- any character -/
  | dot
  /-- the beginning or the end of a line or of the text -/
  | anchor
  /-- a boundary of a word, or a place that is none -/
  | boundary
deriving DecidableEq, Repr

namespace Element

/-- The character is one of ASCII. -/
def isAscii (c : Char) : Bool := c.toNat < 0x80

/-- The element can be used outside of classes. -/
def fits (f : Flags) : Element → Bool
  | .char c isByte => if f.unicode then !f.ignoresCase else !isByte || isAscii c
  | .kind negated => !f.unicode && !negated
  | .dot => f.unicode
  | .anchor | .boundary => true

/-- The element can be used in classes. -/
def fitsClass (f : Flags) : Element → Bool
  | .char c _ => if f.unicode then !f.ignoresCase else isAscii c
  | .kind negated => !f.unicode && !negated
  | .dot | .anchor | .boundary => false

/-! ## escapes -/

/-- A letter that stands for a character after a backslash. -/
def named? : Char → Option Char
  | 'a' => some '\x07'
  | 'f' => some '\x0c'
  | 't' => some '\t'
  | 'n' => some '\n'
  | 'r' => some '\r'
  | 'v' => some '\x0b'
  | _ => none

/-- How many digits follow a letter that announces the number of a character. -/
def hexDigits? : Char → Option Nat
  | 'x' => some 2
  | 'u' => some 4
  | 'U' => some 8
  | _ => none

/-- A character that a backslash stands before without need or to take its meaning away. -/
def isPunctuation (c : Char) : Bool := isAscii c && !c.isAlphanum && c != '<' && c != '>'

/-- Read hexadecimal digits after a number read so far; what is skipped around them is skipped. -/
def readHex (f : Flags) : Nat → Nat → List Char → Option (Nat × List Char)
  | 0, n, cs => some (n, f.skip cs)
  | digits + 1, n, cs =>
    match f.skip cs with
    | [] => none
    | c :: cs => (Text.hexDigit? c).bind fun d => readHex f digits (16 * n + d) cs

/-- Read what follows a backslash. -/
def readEscape (f : Flags) : List Char → Option (Element × List Char)
  | [] => none
  | c :: cs =>
    match named? c, hexDigits? c with
    | some named, _ => some (.char named false, cs)
    | none, some digits =>
      (readHex f digits 0 cs).bind fun (n, rest) =>
        if n.isValidChar then some (.char (Char.ofNat n) (c == 'x'), rest) else none
    | none, none =>
      if isPunctuation c then some (.char c false, cs)
      else
        match c with
        | 'd' | 's' | 'w' => some (.kind false, cs)
        | 'D' | 'S' | 'W' => some (.kind true, cs)
        | 'A' | 'z' => some (.anchor, cs)
        | 'b' | 'B' | '<' | '>' => some (.boundary, cs)
        | _ => none

/-- Read the element that begins with a character, outside of classes. -/
def read (f : Flags) (c : Char) (cs : List Char) : Option (Element × List Char) :=
  match c with
  | '\\' => readEscape f cs
  | '.' => some (.dot, cs)
  | '^' | '$' => some (.anchor, cs)
  | _ => some (.char c false, cs)

/-- Read the element that begins with a character, in a class. -/
def readInClass (f : Flags) (c : Char) (cs : List Char) : Option (Element × List Char) :=
  if c = '\\' then readEscape f cs else some (.char c false, cs)

end Element

end CallAdmission.Pattern
