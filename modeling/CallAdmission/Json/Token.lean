import CallAdmission.Json.Value
import CallAdmission.Text.Numeral

/-!
# CallAdmission.Json.Token

The tokens of a JSON text. A `Scanner` is fed one character at a time and keeps the token it is in
the middle of; `tokens?` feeds it a whole text.

Half of a surrogate pair that an escape names is joined with the other half when that follows at
once (`joinPairs`), and stays alone otherwise.
-/

namespace CallAdmission.Json

open Text (hexDigit? isDigits isExponent)

/-- A token of a JSON text. -/
inductive Token where
  | leftBrace
  | rightBrace
  | leftBracket
  | rightBracket
  | comma
  | colon
  /-- `null`, a truth value or a number -/
  | scalar (v : Value)
  | string (s : List Symbol)

/-! ## numbers and words -/

/-- The characters that numbers are made of. -/
def isNumberChar (c : Char) : Bool :=
  c.isDigit || c == '-' || c == '+' || c == '.' || c == 'e' || c == 'E'

/-- What may follow the whole part of a number: a point with digits, then an exponent. -/
def isFraction : List Char → Bool
  | '.' :: cs => isDigits (cs.takeWhile Char.isDigit) && isExponent (cs.dropWhile Char.isDigit)
  | cs => isExponent cs

/-- A number without sign: no needless zero in front. -/
def isUnsigned : List Char → Bool
  | '0' :: cs => isFraction cs
  | cs => isDigits (cs.takeWhile Char.isDigit) && isFraction (cs.dropWhile Char.isDigit)

/-- A number as JSON writes it. -/
def isNumber : List Char → Bool
  | '-' :: cs => isUnsigned cs
  | cs => isUnsigned cs

/-- The value that a word stands for. -/
def word? (cs : List Char) : Option Value :=
  match String.ofList cs with
  | "null" => some .null
  | "true" => some (.bool true)
  | "false" => some (.bool false)
  | _ => none

/-! ## strings -/

/-- The first half of a surrogate pair. -/
def isHighSurrogate (unit : Nat) : Bool := 0xd800 ≤ unit && unit < 0xdc00

/-- The second half of a surrogate pair. -/
def isLowSurrogate (unit : Nat) : Bool := 0xdc00 ≤ unit && unit < 0xe000

/-- The element that an escaped code unit names. -/
def symbolOfUnit (unit : Nat) : Symbol :=
  if isHighSurrogate unit || isLowSurrogate unit then .lone unit else .char (Char.ofNat unit)

/-- The character of a surrogate pair. -/
def charOfPair (high low : Nat) : Char :=
  Char.ofNat (0x10000 + (high - 0xd800) * 0x400 + (low - 0xdc00))

/-- Join the halves of surrogate pairs that stand side by side. -/
def joinPairs : List Symbol → List Symbol
  | .lone high :: .lone low :: rest =>
    if isHighSurrogate high && isLowSurrogate low then .char (charOfPair high low) :: joinPairs rest
    else .lone high :: joinPairs (.lone low :: rest)
  | s :: rest => s :: joinPairs rest
  | [] => []

/-- The character that a letter after a backslash names. -/
def escaped? : Char → Option Char
  | '"' => some '"'
  | '\\' => some '\\'
  | '/' => some '/'
  | 'b' => some '\x08'
  | 'f' => some '\x0c'
  | 'n' => some '\n'
  | 'r' => some '\r'
  | 't' => some '\t'
  | _ => none

/-! ## scanning -/

/-- What the scanner is in the middle of; what has been read of it stands last first. -/
inductive Scanning where
  | between
  | word (read : List Char)
  | number (read : List Char)
  | string (read : List Symbol)
  /-- after a backslash in a string -/
  | escape (read : List Symbol)
  /-- in an escaped code unit, of which `missing + 1` digits are still to come -/
  | unit (read : List Symbol) (missing : Nat) (value : Nat)

/-- A scanner: what it is in the middle of, and the tokens that are complete, last first. -/
structure Scanner where
  scanning : Scanning := .between
  tokens : List Token := []

namespace Scanner

/-- A complete token. -/
def emit (s : Scanner) (t : Token) : Scanner := ⟨.between, t :: s.tokens⟩

/-- A character between tokens: a blank, or the first character of the next token. -/
def start (s : Scanner) (c : Char) : Option Scanner :=
  match c with
  | ' ' | '\n' | '\t' | '\r' => some { s with scanning := .between }
  | '\x7b' => some (s.emit .leftBrace)
  | '\x7d' => some (s.emit .rightBrace)
  | '[' => some (s.emit .leftBracket)
  | ']' => some (s.emit .rightBracket)
  | ',' => some (s.emit .comma)
  | ':' => some (s.emit .colon)
  | '"' => some { s with scanning := .string [] }
  | c =>
    if c == '-' || c.isDigit then some { s with scanning := .number [c] }
    else if c.isAlpha then some { s with scanning := .word [c] }
    else none

/-- The end of a number or a word, if the scanner is in one; there is no end inside a string. -/
def finishToken (s : Scanner) : Option Scanner :=
  match s.scanning with
  | .between => some s
  | .number read =>
    if isNumber read.reverse then some (s.emit (.scalar (.number read.reverse))) else none
  | .word read => (word? read.reverse).map fun v => s.emit (.scalar v)
  | _ => none

/-- The next character of the text. -/
def feed (s : Scanner) (c : Char) : Option Scanner :=
  match s.scanning with
  | .between => s.start c
  | .number read =>
    if isNumberChar c then some { s with scanning := .number (c :: read) }
    else s.finishToken.bind (·.start c)
  | .word read =>
    if c.isAlpha then some { s with scanning := .word (c :: read) }
    else s.finishToken.bind (·.start c)
  | .string read =>
    if c == '"' then some (s.emit (.string (joinPairs read.reverse)))
    else if c == '\\' then some { s with scanning := .escape read }
    else if c.toNat < 0x20 then none
    else some { s with scanning := .string (.char c :: read) }
  | .escape read =>
    if c == 'u' then some { s with scanning := .unit read 3 0 }
    else (escaped? c).map fun c => { s with scanning := .string (.char c :: read) }
  | .unit read missing value =>
    (hexDigit? c).map fun d =>
      match missing with
      | 0 => { s with scanning := .string (symbolOfUnit (16 * value + d) :: read) }
      | missing + 1 => { s with scanning := .unit read missing (16 * value + d) }

end Scanner

/-- The tokens of a text. -/
def tokens? (cs : List Char) : Option (List Token) := do
  let s ← cs.foldlM Scanner.feed {}
  let s ← s.finishToken
  return s.tokens.reverse

end CallAdmission.Json
