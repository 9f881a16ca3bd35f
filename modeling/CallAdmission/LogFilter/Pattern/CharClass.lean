import CallAdmission.LogFilter.Pattern.Element

/-!
# CallAdmission.LogFilter.Pattern.CharClass

Classes of characters in brackets. A class holds characters, ranges, kinds of characters, classes of
ASCII by name, and further classes in brackets; operators between its parts form differences and
intersections. At its beginning

* a circumflex negates the class, which is for characters and not for bytes;
* hyphens stand for themselves, and so does a closing bracket in front of which there is nothing.

Of a class nothing is kept but how deep it is nested. Parts that stand side by side add one to the
depth of the deepest of them, and so do brackets and operators.
-/

namespace CallAdmission.Pattern

/-- How deep parts are nested that stand side by side. -/
def depthOf : List Nat → Nat
  | [] => 0
  | [d] => d
  | ds => 1 + ds.foldl max 0

namespace CharClass

/-- A class that is being read. -/
structure Level where
  /-- how deep the parts are that were read since the last operator -/
  parts : List Nat := []
  /-- how deep what stands before the last operator is -/
  left : Option Nat := none
  /-- nothing but hyphens was read -/
  isFresh : Bool := true
deriving DecidableEq, Repr

namespace Level

/-- How deep the content of the class is. -/
def depth (l : Level) : Nat :=
  match l.left with
  | none => depthOf l.parts
  | some left => 1 + max left (depthOf l.parts)

/-- One more part. -/
def add (l : Level) (depth : Nat) : Level :=
  { l with parts := depth :: l.parts, isFresh := false }

/-- A hyphen at the beginning. -/
def addHyphen (l : Level) : Level := { l with parts := 0 :: l.parts }

/-- An operator follows. -/
def operate (l : Level) : Level := { left := some l.depth, isFresh := false }

end Level

/-! ## parts -/

/-- The names of classes of ASCII. -/
def asciiNames : List String :=
  ["alnum", "alpha", "ascii", "blank", "cntrl", "digit", "graph", "lower", "print", "punct",
    "space", "upper", "word", "xdigit"]

/-- Read a class of ASCII after its opening bracket, if it is one; whether it is negated, and the
rest. -/
def readAscii? : List Char → Option (Bool × List Char)
  | ':' :: cs =>
    let negated := cs.head? == some '^'
    let cs := if negated then cs.drop 1 else cs
    let name := cs.takeWhile (· != ':')
    match cs.drop name.length with
    | ':' :: ']' :: rest =>
      if asciiNames.contains (String.ofList name) then some (negated, rest) else none
    | _ => none
  | _ => none

/-- A class of ASCII can be used: letters are not to stand for both cases of all scripts, and there
are no bytes outside of it. -/
def asciiFits (f : Flags) (negated : Bool) : Bool :=
  if f.unicode then !f.ignoresCase else !negated

/-- Begin a class after its opening bracket. -/
def openLevel (f : Flags) (cs : List Char) : Option (Level × List Char) :=
  match f.skip cs with
  | '^' :: rest => if f.unicode then some ({}, rest) else none
  | rest => some ({}, rest)

/-- Read a character, a range or a kind of characters. A hyphen makes a range unless a bracket that
closes the class, or another hyphen, is taken for the next character. -/
def readRange (f : Flags) (c : Char) (cs : List Char) : Option (List Char) := do
  let (first, rest) ← Element.readInClass f c cs
  if !first.fitsClass f then none
  match f.skip rest with
  | [] => none
  | '-' :: after =>
    if f.peek? after == some ']' || f.peek? after == some '-' then return '-' :: after
    match f.skip after with
    | [] => none
    | c :: cs =>
      let (last, rest) ← Element.readInClass f c cs
      match first, last with
      | .char a _, .char b _ => if a ≤ b && last.fitsClass f then return rest else none
      | _, _ => none
  | rest => return rest

/-- Both characters are the same one of those that make an operator when doubled. -/
def isOperator (c : Char) (next : Option Char) : Bool :=
  ['&', '-', '~'].contains c && next == some c

/-! ## classes -/

/-- Read on in a class and the classes around it; how deep the outermost one is, and the rest. Every
step takes a character. -/
def readLevels (f : Flags) (steps : Nat) (level : Level) (outer : List Level) (cs : List Char) :
    Option (Nat × List Char) :=
  match steps, f.skip cs with
  | 0, _ => none
  | _, [] => none
  | steps + 1, c :: cs =>
    if level.isFresh && c == '-' then
      if (Element.char c false).fitsClass f then readLevels f steps level.addHyphen outer cs
      else none
    else if level.isFresh && level.parts.isEmpty && c == ']' then
      if (Element.char c false).fitsClass f then readLevels f steps (level.add 0) outer cs
      else none
    else if c == '[' then
      match readAscii? cs with
      | some (negated, rest) =>
        if asciiFits f negated then readLevels f steps (level.add 0) outer rest else none
      | none =>
        match openLevel f cs with
        | none => none
        | some (inner, rest) => readLevels f steps inner (level :: outer) rest
    else if c == ']' then
      match outer with
      | [] => some (1 + level.depth, cs)
      | parent :: outer => readLevels f steps (parent.add (1 + level.depth)) outer cs
    else if isOperator c cs.head? then
      readLevels f steps level.operate outer (cs.drop 1)
    else
      match readRange f c cs with
      | none => none
      | some rest => readLevels f steps (level.add 0) outer rest

/-- Read a class after its opening bracket; how deep it is nested, and the rest. -/
def read (f : Flags) (cs : List Char) : Option (Nat × List Char) :=
  match openLevel f cs with
  | none => none
  | some (level, rest) => readLevels f (cs.length + 1) level [] rest

end CharClass

end CallAdmission.Pattern
