import CallAdmission.LogFilter.Pattern.Basic
import CallAdmission.Notice
import CallAdmission.Text.Alphanumeric
import CallAdmission.Text.Blank
import CallAdmission.Text.Bytes

/-!
# CallAdmission.LogFilter.Directive

The directives of a log filter, and how one is read.

```
directive ::= level | target | target=level | scope | scope=level
scope     ::= target[span] | target[{field}] | target[span{field}]
field     ::= name | name=value
```

A target, a span and a field limit the directive; the target and the span in front of a field may be
left out. A directive without a level lets everything through. A text that is a level is no target.

The ends of the parts are looked for in the text without the blanks around it, but the parts are cut
out of the whole text, at the same places counted in bytes. So a blank at an end is never dropped:
it belongs to a part, and one in front moves every part.
-/

namespace CallAdmission

/-- Why a text is no directive. -/
inductive DirectiveFault where
  /-- the parts are not those of a directive -/
  | malformed
  /-- the level is none -/
  | unknownLevel
  /-- the value of a field is no pattern -/
  | badValue (fault : PatternFault)
deriving DecidableEq, Repr

/-- The wording of the fault. -/
def DirectiveFault.message : DirectiveFault → String
  | .malformed => "invalid filter directive"
  | .unknownLevel =>
    "error parsing level filter: expected one of \"off\", \"error\", \"warn\", \"info\", " ++
      "\"debug\", \"trace\", or a number 0-5"
  | .badValue fault => "invalid field filter: " ++ fault.message

/-- A field that a directive asks for. -/
structure FieldCondition where
  name : String
  /-- the directive asks for a value of the field, too -/
  hasValue : Bool
deriving DecidableEq, Repr

/-- A directive of a filter. -/
structure Directive where
  /-- what the target begins with; there is none if the directive is for all targets -/
  target : Option String := none
  /-- the span in which the notice is given -/
  span : Option String := none
  field : Option FieldCondition := none
  /-- the highest rank that is logged -/
  rank : Nat := Level.trace.rank
deriving DecidableEq, Repr

namespace Directive

/-! ## levels -/

/-- The rank that a number or a word for a level stands for, in either case; `off` is below every
level. -/
def rank? (cs : List Char) : Option Nat :=
  match Text.readNumeral cs with
  | .ok n => if n ≤ Level.trace.rank then some n else none
  | .error _ =>
    match (String.ofList cs).toLower with
    | "off" => some 0
    | "error" => some Level.error.rank
    | "warn" => some Level.warn.rank
    | "info" => some Level.info.rank
    | "debug" => some Level.debug.rank
    | "trace" => some Level.trace.rank
    | _ => none

/-- The rank after an equals sign; nothing there lets everything through. -/
def readLevel (cs : List Char) : Except DirectiveFault Nat :=
  if cs.isEmpty then .ok Level.trace.rank
  else
    match rank? cs with
    | some rank => .ok rank
    | none => .error .unknownLevel

/-! ## fields -/

/-- A number with a plus sign in front, whole or not. -/
def isSignedNumber : List Char → Bool
  | '+' :: cs =>
    let whole := cs.takeWhile Char.isDigit
    ["inf", "infinity", "nan"].contains (String.ofList cs).toLower ||
      match cs.drop whole.length with
      | '.' :: rest =>
        let fraction := rest.takeWhile Char.isDigit
        (!whole.isEmpty || !fraction.isEmpty) && Text.isExponent (rest.drop fraction.length)
      | rest => !whole.isEmpty && Text.isExponent rest
  | _ => false

/-- Read a field with or without a value. The value is a number or a pattern, and it ends before a
second equals sign. A number without plus sign is a pattern. -/
def readField (cs : List Char) : Except DirectiveFault FieldCondition :=
  let isName (c : Char) : Bool := c != '='
  let name := String.ofList (cs.takeWhile isName)
  match cs.dropWhile isName with
  | [] => .ok ⟨name, false⟩
  | _ :: rest =>
    let value := rest.takeWhile isName
    if isSignedNumber value then .ok ⟨name, true⟩
    else
      match Pattern.check value with
      | .ok () => .ok ⟨name, true⟩
      | .error fault => .error (.badValue fault)

/-! ## directives -/

/-- A character with which a directive can begin. -/
def isBeginning (c : Char) : Bool :=
  c == '[' || c == '-' || c == ':' || c == '_' || Text.isAlphanumeric c

/-- The part of a whole text at a place. -/
def cut (whole : List Char) (start length : Nat) : Except DirectiveFault (List Char) :=
  match Text.bytesAt? start length whole with
  | some part => .ok part
  | none => .error .malformed

/-- Read the level after so many bytes of the whole text. -/
def levelAt (whole : List Char) (start : Nat) : Except DirectiveFault Nat := do
  readLevel (← cut whole start (Text.byteLength whole - start))

/-- Read what follows a bracket that closes a scope, so many bytes into the whole text. -/
def readAfterScope (whole : List Char) (start : Nat) (d : Directive) :
    List Char → Except DirectiveFault Directive
  | [] => .ok d
  | '=' :: _ => do return { d with rank := ← levelAt whole (start + 1) }
  | _ => .error .malformed

/-- Read what follows a bracket that opens a scope, so many bytes into the whole text. -/
def readScope (whole : List Char) (start : Nat) (d : Directive) (cs : List Char) :
    Except DirectiveFault Directive := do
  let name := cs.takeWhile fun c => c != ']' && c != '\x7b'
  let length := Text.byteLength name
  let span := String.ofList (← cut whole start length)
  match cs.drop name.length with
  | [] => .error .malformed
  | ']' :: rest => readAfterScope whole (start + length + 1) { d with span := some span } rest
  | _ :: rest =>
    let d := if name.isEmpty then d else { d with span := some span }
    let start := start + length + 1
    let text := rest.takeWhile (· != '\x7d')
    let length := Text.byteLength text
    match text, rest.drop text.length with
    | _ :: _, _ :: rest =>
      let field ← readField (← cut whole start length)
      match rest with
      | ']' :: rest => readAfterScope whole (start + length + 2) { d with field := some field } rest
      | _ => .error .malformed
    | _, _ => .error .malformed

/-- Read a directive. -/
def read (whole : List Char) : Except DirectiveFault Directive := do
  let cs := Text.strip whole
  let name := cs.takeWhile fun c => c != '=' && c != '['
  let length := Text.byteLength name
  if cs.head?.all (!isBeginning ·) then .error .malformed
  else
    match cs.drop name.length with
    | [] =>
      match rank? whole with
      | some rank => return { rank }
      | none => return { target := some (String.ofList whole) }
    | c :: rest =>
      let target := String.ofList (← cut whole 0 length)
      if c = '=' then
        return { target := some target, rank := ← levelAt whole (length + 1) }
      else
        readScope whole (length + 1) { target := if name.isEmpty then none else some target } rest

/-! ## notices -/

/-- The directive can decide about a notice: notices are given outside of all spans, and only the
names of their fields are compared. -/
def decides (d : Directive) : Bool := d.span.isNone && !d.field.any (·.hasValue)

/-- The notice falls under the directive, as far as target and field say. -/
def covers (d : Directive) (n : Notice) : Bool :=
  d.target.all (fun t => t.toList.isPrefixOf n.source.target.toList) &&
    d.field.all (n.hasField ·.name)

/-- How narrow the directive's target is. -/
def width (d : Directive) : Nat :=
  match d.target with
  | none => 0
  | some t => t.utf8ByteSize + 1

/-- The name of the directive's field; without a field it is empty. -/
def fieldName (d : Directive) : String :=
  match d.field with
  | none => ""
  | some field => field.name

/-- The directive gives way to another for the same notice: to a longer target and, for the same
target, to a later field name. -/
def yieldsTo (d e : Directive) : Bool :=
  d.width < e.width || (d.width == e.width && !decide (e.fieldName < d.fieldName))

end Directive

end CallAdmission
