import CallAdmission.LogFilter.Pattern.CharClass
import CallAdmission.Text.Alphanumeric

/-!
# CallAdmission.LogFilter.Pattern.Basic

Which texts are patterns for the value of a field. A pattern is a sequence of elements, classes in
brackets and groups in parentheses, with alternatives between bars and with marks for repetition.

A `Reading` keeps what is open, and of everything else only how deep it is nested; `check` reads a
whole text. Some forms are faults although they look like patterns:

* a count of repetitions in braces, since the brace that ends it would end the field;
* a group that looks ahead or back;
* two groups of one name;
* parts that are nested too deep;
* the boundary of a word under the flag `u`, with a wording of its own.
-/

namespace CallAdmission

/-- Why a text is no pattern. -/
inductive PatternFault where
  | malformed
  /-- the text asks for the boundary of a word of any script -/
  | wordBoundary
deriving DecidableEq, Repr

/-- The wording of the fault. -/
def PatternFault.message : PatternFault → String
  | .malformed => "error building NFA"
  | .wordBoundary =>
    "unsupported regex feature for DFAs: cannot build DFAs for regexes with Unicode word " ++
      "boundaries; switch to ASCII word boundaries, or heuristically enable Unicode word " ++
      "boundaries or use a different regex engine"

namespace Pattern

/-! ## what is being read -/

/-- A sequence, and the alternatives before it. -/
structure Sequence where
  /-- how deep the parts are, the latest first; a change of flags is a part without depth -/
  parts : List (Option Nat) := []
  /-- how deep the alternatives are -/
  alternatives : List Nat := []
deriving DecidableEq, Repr

namespace Sequence

/-- How deep the sequence is by itself. -/
def ownDepth (s : Sequence) : Nat := depthOf (s.parts.map (·.getD 0))

/-- How deep the sequence is with its alternatives. -/
def depth (s : Sequence) : Nat := depthOf (s.ownDepth :: s.alternatives)

/-- One more part. -/
def add (s : Sequence) (part : Option Nat) : Sequence := { s with parts := part :: s.parts }

/-- Another alternative follows. -/
def alternate (s : Sequence) : Sequence := { alternatives := s.ownDepth :: s.alternatives }

/-- The last part is repeated. A change of flags cannot be. -/
def repeat? (s : Sequence) : Option Sequence :=
  match s.parts with
  | some d :: parts => some { s with parts := some (1 + d) :: parts }
  | _ => none

end Sequence

/-- A pattern that is being read. -/
structure Reading where
  flags : Flags := {}
  sequence : Sequence := {}
  /-- the sequences in which groups are open, the innermost first, each with its flags -/
  outer : List (Sequence × Flags) := []
  /-- the names of groups -/
  names : List (List Char) := []
  /-- the boundary of a word of any script was asked for -/
  boundary : Bool := false
deriving DecidableEq, Repr

namespace Reading

/-- One more part of the sequence. -/
def add (r : Reading) (part : Option Nat) : Reading := { r with sequence := r.sequence.add part }

/-! ## groups -/

/-- A group begins. -/
def openGroup (r : Reading) (flags : Flags) : Reading :=
  { r with flags, sequence := {}, outer := (r.sequence, r.flags) :: r.outer }

/-- A group ends, and the flags from before it are in force again. -/
def closeGroup? (r : Reading) : Option Reading :=
  match r.outer with
  | [] => none
  | (sequence, flags) :: outer =>
    some { r with flags, sequence := sequence.add (some (1 + r.sequence.depth)), outer }

/-- A character with which the name of a group can begin. -/
def isNameBeginning (c : Char) : Bool := c == '_' || Text.isAlphabetic c

/-- A further character of the name of a group. -/
def isNameRest (c : Char) : Bool :=
  c == '_' || c == '.' || c == '[' || c == ']' || Text.isAlphanumeric c

/-- Read the name of a group and the bracket behind it. No two groups have one name. -/
def readName (r : Reading) (cs : List Char) : Option (Reading × List Char) :=
  let name := cs.takeWhile (· != '>')
  match name, cs.drop name.length with
  | c :: rest, _ :: after =>
    if isNameBeginning c && rest.all isNameRest && !r.names.contains name then
      some ({ r with names := name :: r.names }.openGroup r.flags, after)
    else none
  | _, _ => none

/-- Read flags: alone in parentheses they are in force from here on, else in a group that they
begin. -/
def readFlags (r : Reading) (cs : List Char) : Option (Reading × List Char) := do
  let letters := cs.takeWhile fun c => c != ':' && c != ')'
  let flags ← r.flags.change? letters
  match cs.drop letters.length with
  | ':' :: rest => return (r.openGroup flags, rest)
  | _ :: rest => if letters.isEmpty then none else return ({ r with flags }.add none, rest)
  | [] => none

/-- Read what follows an opening parenthesis. -/
def readGroup (r : Reading) (cs : List Char) : Option (Reading × List Char) :=
  match r.flags.skip cs with
  | '?' :: '=' :: _ | '?' :: '!' :: _ | '?' :: '<' :: '=' :: _ | '?' :: '<' :: '!' :: _ => none
  | '?' :: '<' :: rest | '?' :: 'P' :: '<' :: rest => r.readName rest
  | '?' :: rest => r.readFlags rest
  | rest => some (r.openGroup r.flags, rest)

/-! ## the whole -/

/-- Read an element. -/
def readElement (r : Reading) (c : Char) (cs : List Char) : Option (Reading × List Char) := do
  let (e, rest) ← Element.read r.flags c cs
  if !e.fits r.flags then none
  let boundary := r.boundary || (r.flags.unicode && e == Element.boundary)
  return ({ r with boundary }.add (some 0), rest)

/-- Read the next part. -/
def next (r : Reading) (c : Char) (cs : List Char) : Option (Reading × List Char) :=
  match c with
  | '(' => r.readGroup cs
  | ')' => r.closeGroup?.map fun r => (r, cs)
  | '|' => some ({ r with sequence := r.sequence.alternate }, cs)
  | '[' => (CharClass.read r.flags cs).map fun (depth, rest) => (r.add (some depth), rest)
  | '?' | '*' | '+' =>
    r.sequence.repeat?.map fun sequence =>
      ({ r with sequence }, if cs.head? == some '?' then cs.drop 1 else cs)
  | '\x7b' => none
  | c => r.readElement c cs

/-- Read on to the end. Every step takes a character. -/
def readAll (steps : Nat) (r : Reading) (cs : List Char) : Option Reading :=
  match steps, r.flags.skip cs with
  | _, [] => some r
  | 0, _ => none
  | steps + 1, c :: cs => (r.next c cs).bind fun (r, rest) => readAll steps r rest

end Reading

/-- How deep parts of a pattern may be nested. -/
def maxDepth : Nat := 250

/-- A text is a pattern if it can be read, nothing is open at the end, and nothing is nested too
deep. -/
def check (cs : List Char) : Except PatternFault Unit :=
  match Reading.readAll cs.length {} cs with
  | some ⟨_, sequence, [], _, boundary⟩ =>
    if maxDepth < sequence.depth then .error .malformed
    else if boundary then .error .wordBoundary
    else .ok ()
  | _ => .error .malformed

end Pattern

end CallAdmission
