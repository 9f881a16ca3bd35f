import CallAdmission.Text.Blank

/-!
# CallAdmission.LogFilter.Pattern.Flags

The flags of a pattern, which change how the rest of it is read:

| letter | what the flag is for |
|--------|----------------------|
| `i` | a letter stands for both cases |
| `u` | characters are those of all scripts; without the flag they are bytes |
| `x` | blanks, and comments from `#` to the end of the line, are skipped |
| `m`, `s`, `R`, `U` | how lines and repetitions are matched |

A pattern begins with `u` alone. Flags of the last row make no difference to which texts are
patterns, and are not kept.
-/

namespace CallAdmission.Pattern

/-- The flags in force. -/
structure Flags where
  ignoresCase : Bool := false
  unicode : Bool := true
  spaced : Bool := false
deriving DecidableEq, Repr

namespace Flags

/-! ## changing flags -/

/-- A letter for a flag. -/
def isLetter (c : Char) : Bool := ['i', 'm', 's', 'U', 'u', 'R', 'x'].contains c

/-- Put the flag of a letter on or off. -/
def set (on : Bool) (f : Flags) : Char → Flags
  | 'i' => { f with ignoresCase := on }
  | 'u' => { f with unicode := on }
  | 'x' => { f with spaced := on }
  | _ => f

/-- Change flags as letters say: those after a hyphen are put off. Neither a letter nor the hyphen
may stand twice, and a letter must follow the hyphen. -/
def change? (f : Flags) (letters : List Char) : Option Flags :=
  if letters.all (fun c => isLetter c || c == '-') && decide letters.Nodup &&
      letters.getLast? != some '-' then
    let on := letters.takeWhile (· != '-')
    let off := letters.dropWhile (· != '-')
    some (off.foldl (set false) (on.foldl (set true) f))
  else none

/-! ## blanks and comments -/

/-- A text without the blanks and comments at its beginning. -/
def skipSpace (inComment : Bool) : List Char → List Char
  | [] => []
  | c :: cs =>
    if inComment then skipSpace (c != '\n') cs
    else if Text.isBlank c then skipSpace false cs
    else if c = '#' then skipSpace true cs
    else c :: cs

/-- A text without what is to be skipped at its beginning. -/
def skip (f : Flags) (cs : List Char) : List Char := if f.spaced then skipSpace false cs else cs

/-- The character that is taken for the next one. One hash sign is passed over with the blanks, but
not the comment that it begins. -/
def peek? (f : Flags) (cs : List Char) : Option Char :=
  if f.spaced then
    match cs.dropWhile Text.isBlank with
    | [] => cs.head?
    | '#' :: rest => (rest.dropWhile Text.isBlank).head? <|> cs.head?
    | c :: _ => some c
  else cs.head?

end Flags

end CallAdmission.Pattern
