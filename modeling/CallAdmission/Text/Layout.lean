import CallAdmission.Text.Quoted

/-!
# CallAdmission.Text.Layout

Layouts of values for diagnostics. A `Layout` says what a value is made of, a record with named
parts, a wrapper with unnamed ones, a table, or text that stands as it is; `Layout.inline` writes
it on one line and `Layout.pretty` over several, with four blanks for each level.
-/

namespace CallAdmission.Text

/-- What a value is made of, ready to be written. -/
inductive Layout where
  /-- text that stands as it is -/
  | plain (text : String)
  /-- a record; `more` says that parts are left out -/
  | record (name : String) (fields : List (String × Layout)) (more : Bool)
  /-- a name around unnamed parts -/
  | wrapper (name : String) (items : List Layout)
  /-- keys with their values -/
  | table (entries : List (String × Layout))

namespace Layout

/-- A text in quotes. -/
def quoted (s : String) : Layout := .plain (quote s)

/-- A number. -/
def number (n : Nat) : Layout := .plain (toString n)

/-- A truth value. -/
def truth (b : Bool) : Layout := .plain (if b then "true" else "false")

/-! ## on one line -/

mutual

/-- The value on one line. -/
def inline : Layout → String
  | .plain text => text
  | .record name [] false => name
  | .record name fields more =>
    name ++ " \x7b " ++ ", ".intercalate (inlineFields fields ++ if more then [".."] else []) ++
      " \x7d"
  | .wrapper name items => name ++ "(" ++ ", ".intercalate (inlineItems items) ++ ")"
  | .table entries => "\x7b" ++ ", ".intercalate (inlineFields entries) ++ "\x7d"

/-- Each named part on one line. -/
def inlineFields : List (String × Layout) → List String
  | [] => []
  | (name, value) :: rest => (name ++ ": " ++ value.inline) :: inlineFields rest

/-- Each unnamed part on one line. -/
def inlineItems : List Layout → List String
  | [] => []
  | value :: rest => value.inline :: inlineItems rest

end

/-! ## over several lines -/

/-- A line at a level of indentation. -/
def line (level : Nat) (text : String) : String :=
  String.ofList (List.replicate (4 * level) ' ') ++ text ++ "\n"

/-- A closing bracket at a level of indentation. -/
def close (level : Nat) (bracket : String) : String :=
  String.ofList (List.replicate (4 * level) ' ') ++ bracket

mutual

/-- The value over several lines, where its first line already stands at `level`. -/
def prettyAt (level : Nat) : Layout → String
  | .plain text => text
  | .record name [] false => name
  | .record name fields more =>
    name ++ " \x7b\n" ++ prettyFields (level + 1) fields ++
      (if more then line (level + 1) ".." else "") ++ close level "\x7d"
  | .wrapper name items =>
    name ++ "(\n" ++ prettyItems (level + 1) items ++ close level ")"
  | .table [] => "\x7b\x7d"
  | .table entries => "\x7b\n" ++ prettyFields (level + 1) entries ++ close level "\x7d"

/-- Each named part from a line of its own. -/
def prettyFields (level : Nat) : List (String × Layout) → String
  | [] => ""
  | (name, value) :: rest =>
    line level (name ++ ": " ++ value.prettyAt level ++ ",") ++ prettyFields level rest

/-- Each unnamed part from a line of its own. -/
def prettyItems (level : Nat) : List Layout → String
  | [] => ""
  | value :: rest => line level (value.prettyAt level ++ ",") ++ prettyItems level rest

end

/-- The value over several lines. -/
def pretty (l : Layout) : String := l.prettyAt 0

/-- The value on one line or over several. -/
def write (l : Layout) (overLines : Bool) : String := if overLines then l.pretty else l.inline

end Layout

end CallAdmission.Text
