/-!
# CallAdmission.Text.Numeral

Decimal numerals for 64-bit words, as they stand on a command line or in the environment: an
optional plus sign and at least one ASCII digit, nothing else, and a value below `2 ^ 64`.

A faulty numeral is reported by the first fault that a reading from left to right meets
(`NumeralError`), so a text that is too large before its first foreign character is too large.

Beside them stand the parts that numbers of several notations are made of: runs of digits, exponents
and hexadecimal digits.
-/

namespace CallAdmission.Text

/-- Why a text is no numeral. -/
inductive NumeralError where
  /-- there is nothing to read -/
  | empty
  /-- a character other than a digit stands where a digit belongs -/
  | invalidDigit
  /-- the digits read so far pass the largest word -/
  | tooLarge
deriving DecidableEq, Repr

/-- The wording of the fault. -/
def NumeralError.message : NumeralError → String
  | .empty => "cannot parse integer from empty string"
  | .invalidDigit => "invalid digit found in string"
  | .tooLarge => "number too large to fit in target type"

/-- The value of an ASCII decimal digit. -/
def digit? (c : Char) : Option Nat :=
  if '0'.toNat ≤ c.toNat ∧ c.toNat ≤ '9'.toNat then some (c.toNat - '0'.toNat) else none

/-- Append digits to the number read so far. -/
def readDigits (n : Nat) : List Char → Except NumeralError Nat
  | [] => .ok n
  | c :: cs =>
    match digit? c with
    | none => .error .invalidDigit
    | some d => if 10 * n + d < UInt64.size then readDigits (10 * n + d) cs else .error .tooLarge

/-- Read a whole text as a numeral. -/
def readNumeral : List Char → Except NumeralError Nat
  | [] => .error .empty
  | ['+'] => .error .invalidDigit
  | '+' :: cs => readDigits 0 cs
  | cs => readDigits 0 cs

/-- The numeral as a word. -/
def readWord (cs : List Char) : Except NumeralError UInt64 :=
  (readNumeral cs).map UInt64.ofNat

/-! ## parts of other notations -/

/-- At least one digit and nothing else. -/
def isDigits (cs : List Char) : Bool := !cs.isEmpty && cs.all Char.isDigit

/-- The exponent of a number: nothing, or its mark, an optional sign and digits. -/
def isExponent : List Char → Bool
  | [] => true
  | c :: cs =>
    (c == 'e' || c == 'E') &&
      match cs with
      | '+' :: ds => isDigits ds
      | '-' :: ds => isDigits ds
      | ds => isDigits ds

/-- The value of a hexadecimal digit of either case. -/
def hexDigit? (c : Char) : Option Nat :=
  if c.isDigit then some (c.toNat - '0'.toNat)
  else if 'a' ≤ c ∧ c ≤ 'f' then some (c.toNat - 'a'.toNat + 10)
  else if 'A' ≤ c ∧ c ≤ 'F' then some (c.toNat - 'A'.toNat + 10)
  else none

end CallAdmission.Text
