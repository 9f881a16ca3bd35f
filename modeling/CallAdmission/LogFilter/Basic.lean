import CallAdmission.LogFilter.Directive

/-!
# CallAdmission.LogFilter.Basic

Which notices are written to the log. A filter is a list of directives, each of which gives the
highest rank of level that it lets through. Of the directives that a notice falls under, the
narrowest one decides; a notice that falls under none is not logged.

A filter is read from a list with commas between directives.
-/

namespace CallAdmission

/-- A log filter. -/
structure LogFilter where
  directives : List Directive
deriving DecidableEq, Repr

namespace LogFilter

/-- Cut a text at its commas. -/
def pieces : List Char → List Char → List (List Char)
  | acc, [] => [acc.reverse]
  | acc, ',' :: cs => acc.reverse :: pieces [] cs
  | acc, c :: cs => pieces (c :: acc) cs

/-- The texts between the commas, without empty ones. -/
def split (s : String) : List (List Char) := (pieces [] s.toList).filter (!·.isEmpty)

/-- The directive that a text stands for, if it is one. -/
def directive? (cs : List Char) : Option Directive :=
  match Directive.read cs with
  | .ok d => some d
  | .error _ => none

/-- What keeps a text from being a directive, and the text. -/
def fault? (cs : List Char) : Option (String × DirectiveFault) :=
  match Directive.read cs with
  | .ok _ => none
  | .error e => some (String.ofList cs, e)

/-- The texts in a list of directives that are no directives, each with its fault. -/
def faults (s : String) : List (String × DirectiveFault) := (split s).filterMap fault?

/-- Read directives; texts that are none are skipped, and without any directive errors are
logged. -/
def ofText (s : String) : LogFilter :=
  match (split s).filterMap directive? with
  | [] => ⟨[{ rank := Level.error.rank }]⟩
  | directives => ⟨directives⟩

/-- Everything this program says, up to a level. -/
def upTo (level : Level) : LogFilter :=
  ⟨["callgate", "callgate_sim"].map fun t => { target := some t, rank := level.rank }⟩

/-- The level that a short name stands for; every other name stands for `info`. -/
def levelOfName : Option String → Level
  | some "debug" => .debug
  | some "warn" | some "warning" => .warn
  | some "error" => .error
  | _ => .info

/-- The narrowest directive that the notice falls under; of two that are equally narrow the later
counts. -/
def directiveFor? (f : LogFilter) (n : Notice) : Option Directive :=
  (f.directives.filter fun d => d.decides && d.covers n).foldl
    (fun best d =>
      match best with
      | none => some d
      | some b => if b.yieldsTo d then some d else best) none

/-- The notice is written to the log. -/
def isEnabled (f : LogFilter) (n : Notice) : Bool :=
  (f.directiveFor? n).any fun d => n.level.rank ≤ d.rank

end LogFilter

end CallAdmission
