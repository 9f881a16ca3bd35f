import CallAdmission.LogFilter.Basic
import CallAdmission.Simulation.Run

/-!
# CallAdmission.CommandLine

The command line: from arguments and variables of the environment to an exit code, the two outputs,
and the lines of the log.
-/

namespace CallAdmission.CommandLine

/-- The variables of the environment that matter. -/
structure Settings where
  limits : Environment := {}
  /-- `CALLGATE_LOG`: a level by a short name -/
  level : Setting := .unset
  /-- `RUST_LOG`: a log filter, which goes before the level -/
  filter : Setting := .unset
  /-- `LOG_FORMAT` -/
  format : Setting := .unset

/-- How a log line is written. -/
inductive Format where
  | text
  | json
deriving DecidableEq, Repr

/-- The word for the format. -/
def Format.word : Format → String
  | .text => "text"
  | .json => "json"

/-- What a command does. -/
structure Output where
  exit : UInt8
  /-- the report to print, if there is one -/
  report : Option Simulation.Report := none
  /-- what is written to the error output, beside the log -/
  errors : String := ""
  log : List Notice := []
  format : Format := .text

/-- How the program is used. -/
def usage : String :=
  String.join (List.map (· ++ "\n")
    ["Usage: callgate-sim [options]", "", "Options:",
      "  --calls <n>          Calls to submit [default: 100]",
      "  --hosts <n>          Distinct hosts [default: 4]",
      "  --latency-ms <n>     Base call latency [default: 20]",
      "  --fail-every <n>     Fail every n-th call",
      "  --duplex-every <n>   Mark every n-th call as duplex",
      "  --max-requests <n>   Global limit [env: CALLGATE_MAX_REQUESTS]",
      "  --max-per-host <n>   Per-host limit [env: CALLGATE_MAX_REQUESTS_PER_HOST]"])

/-- The filter of the log. -/
def logFilter (v : Settings) : LogFilter :=
  match v.filter.text? with
  | some s => .ofText s
  | none => .upTo (LogFilter.levelOfName v.level.text?)

/-- What is said about texts in the filter that are no directives. -/
def filterWarnings (v : Settings) : String :=
  match v.filter.text? with
  | none => ""
  | some s =>
    String.join ((LogFilter.faults s).map fun (text, fault) =>
      "ignoring \x60" ++ text ++ "\x60: " ++ fault.message ++ "\n")

/-- The format of the log. -/
def logFormat (v : Settings) : Format :=
  if v.format.text? = some "json" then .json else .text

/-- The exit code of a simulation that fails or not. -/
def exitCode : Option Simulation.RunError → UInt8
  | none => 0
  | some .tooManyCalls => 101
  | some _ => 1

/-- Carry a command out. -/
def execute (arguments : List String) (v : Settings) : Output :=
  match Simulation.Options.read arguments with
  | .error e => { exit := 2, errors := "error: " ++ e.message ++ "\n\n" ++ usage }
  | .ok options =>
    let r := Simulation.run options v.limits
    { exit := exitCode r.error
      report := r.report
      errors := filterWarnings v ++
        match r.error with
        | none => ""
        | some e => "error: " ++ e.message ++ "\n"
      log := r.notices.filter (logFilter v).isEnabled
      format := logFormat v }

/-- What a log line is counted by: its level, its target and its format. -/
def logKey (format : Format) (n : Notice) : String :=
  n.level.word ++ " " ++ n.source.target ++ " " ++ format.word

/-- How many log lines there are of each kind. -/
def Output.logCounts (o : Output) : List (String × Nat) :=
  let keys := o.log.map (logKey o.format)
  keys.eraseDups.map fun k => (k, keys.count k)

end CallAdmission.CommandLine
