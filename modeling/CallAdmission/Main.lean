import CallAdmission.CommandLine

/-!
# CallAdmission.Main

The program: it reads its arguments and its environment, and prints the report of a simulation and
the lines of the log.
-/

namespace CallAdmission.CommandLine

/-- A value of a notice as JSON. -/
def fieldJson : Field → Json.Value
  | .number n => .natural n
  | .truth b => .bool b
  | .text s => .text s
  | .call t => .text (Ticket.label t)

/-- A value of a notice as a text. -/
def fieldText : Field → String
  | .number n => toString n
  | .truth b => if b then "true" else "false"
  | .text s => s
  | .call t => Ticket.label t

/-- A line of the log. -/
def logLine (format : Format) (n : Notice) : String :=
  match format with
  | .json =>
    (Json.Value.record
      [("level", .text n.level.word),
        ("fields", .record (("message", .text n.message) ::
          n.fields.map fun f => (f.1, fieldJson f.2))),
        ("target", .text n.source.target)]).compact
  | .text =>
    String.intercalate " "
      ([n.level.word, n.source.target ++ ":", n.message] ++
        n.fields.map fun f => f.1 ++ "=" ++ fieldText f.2)

/-- What the environment holds for a variable. -/
def setting (name : String) : IO Setting := do
  match ← IO.getEnv name with
  | none => return .unset
  | some s => return .text s

end CallAdmission.CommandLine

open CallAdmission CallAdmission.CommandLine

def main (arguments : List String) : IO UInt32 := do
  let settings : Settings :=
    { limits :=
        { maxRequests := ← setting Limit.total.variableName
          maxPerHost := ← setting Limit.perHost.variableName }
      level := ← setting "CALLGATE_LOG"
      filter := ← setting "RUST_LOG"
      format := ← setting "LOG_FORMAT" }
  let output := execute arguments settings
  output.log.forM fun n => IO.eprintln (logLine output.format n)
  output.report.forM fun r => IO.print r.text
  IO.eprint output.errors
  return output.exit.toUInt32
