import CallAdmission.Json.Token

/-!
# CallAdmission.Json.Reader

Reading JSON values. A `Reader` is fed one token at a time; the containers that are part way
through stand on a stack, so a text may nest as deep as it likes.
-/

namespace CallAdmission.Json

/-- A container part way through; what it holds so far stands last first. -/
inductive Container where
  | array (items : List Value)
  /-- an object, with the key of the member whose value is being read -/
  | object (members : List (List Symbol × Value)) (key : List Symbol)

/-- What the text has to go on with. -/
inductive Phase where
  /-- a value -/
  | value
  /-- the first item of an array, or its end -/
  | firstItem
  /-- the first key of an object, or its end -/
  | firstKey
  /-- the next key of an object -/
  | key (members : List (List Symbol × Value))
  /-- the colon after a key -/
  | colon (members : List (List Symbol × Value)) (key : List Symbol)
  /-- a value is complete: a comma, the end of its container, or the end of the text -/
  | complete (v : Value)

/-- A reader: the open containers, innermost first, and what comes next. -/
structure Reader where
  containers : List Container := []
  phase : Phase := .value

namespace Reader

/-- The first token of a value. -/
def startValue (r : Reader) : Token → Option Reader
  | .scalar v => some { r with phase := .complete v }
  | .string s => some { r with phase := .complete (.string s) }
  | .leftBracket => some ⟨.array [] :: r.containers, .firstItem⟩
  | .leftBrace => some { r with phase := .firstKey }
  | _ => none

/-- The token after a complete value. -/
def afterValue (v : Value) : List Container → Token → Option Reader
  | .array items :: rest, .comma => some ⟨.array (v :: items) :: rest, .value⟩
  | .array items :: rest, .rightBracket => some ⟨rest, .complete (.array (v :: items).reverse)⟩
  | .object members key :: rest, .comma => some ⟨rest, .key ((key, v) :: members)⟩
  | .object members key :: rest, .rightBrace =>
    some ⟨rest, .complete (.object ((key, v) :: members).reverse)⟩
  | _, _ => none

/-- The next token of the text. -/
def feed (r : Reader) (t : Token) : Option Reader :=
  match r.phase, t with
  | .value, t => r.startValue t
  | .firstItem, .rightBracket => some ⟨r.containers.tail, .complete (.array [])⟩
  | .firstItem, t => r.startValue t
  | .firstKey, .rightBrace => some { r with phase := .complete (.object []) }
  | .firstKey, .string key => some { r with phase := .colon [] key }
  | .key members, .string key => some { r with phase := .colon members key }
  | .colon members key, .colon => some ⟨.object members key :: r.containers, .value⟩
  | .complete v, t => afterValue v r.containers t
  | _, _ => none

/-- The value that has been read, if the text may end here. -/
def result? (r : Reader) : Option Value :=
  match r.containers, r.phase with
  | [], .complete v => some v
  | _, _ => none

end Reader

/-- The value that a text spells. -/
def read? (text : String) : Option Value := do
  let ts ← tokens? text.toList
  let r ← ts.foldlM Reader.feed {}
  r.result?

end CallAdmission.Json
