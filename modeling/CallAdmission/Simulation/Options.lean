import CallAdmission.Limits.Basic

/-!
# CallAdmission.Simulation.Options

The options of a simulation, and how they are read from command-line arguments: pairs of a flag and
a numeral. Of two pairs with one flag the later counts. The first argument that does not fit in is
reported.
-/

namespace CallAdmission.Simulation

/-! ## options -/

/-- What a simulation is to do. -/
structure Options where
  calls : UInt64 := 100
  hosts : UInt64 := 4
  /-- the latency of every third call in milliseconds; the others take twice and three times that -/
  latency : UInt64 := 20
  /-- every so many calls one fails -/
  failEvery : Option UInt64 := none
  /-- every so many calls one is duplex -/
  duplexEvery : Option UInt64 := none
  limits : Override := {}
deriving DecidableEq, Repr, Inhabited

/-- A flag of the command line. -/
inductive Flag where
  | calls
  | hosts
  | latency
  | failEvery
  | duplexEvery
  | limit (limit : Limit)
deriving DecidableEq, Repr

namespace Flag

/-- The flag as it is written. -/
def text : Flag → String
  | .calls => "--calls"
  | .hosts => "--hosts"
  | .latency => "--latency-ms"
  | .failEvery => "--fail-every"
  | .duplexEvery => "--duplex-every"
  | .limit .total => "--max-requests"
  | .limit .perHost => "--max-per-host"

/-- All flags. -/
def all : List Flag :=
  [.calls, .hosts, .latency, .failEvery, .duplexEvery, .limit .total, .limit .perHost]

/-- The flag that is written so. -/
def ofText? (s : String) : Option Flag := all.find? (·.text == s)

end Flag

/-- A period; zero stands for none. -/
def period (n : UInt64) : Option UInt64 := if n = 0 then none else some n

/-- Take a flag's value over. There is at least one host. -/
def Options.set (o : Options) (flag : Flag) (n : UInt64) : Options :=
  match flag with
  | .calls => { o with calls := n }
  | .hosts => { o with hosts := if n = 0 then 1 else n }
  | .latency => { o with latency := n }
  | .failEvery => { o with failEvery := period n }
  | .duplexEvery => { o with duplexEvery := period n }
  | .limit limit => { o with limits := o.limits.set limit n }

/-! ## reading -/

/-- Why arguments are no options. -/
inductive UsageError where
  /-- only the usage is asked for -/
  | help
  | unexpected (argument : String)
  | missingValue (flag : Flag)
  | invalidValue (flag : Flag) (text : String) (fault : Text.NumeralError)
deriving DecidableEq, Repr

/-- The wording of the error. -/
def UsageError.message : UsageError → String
  | .help => ""
  | .unexpected argument => "unexpected argument: " ++ argument
  | .missingValue flag => flag.text ++ " requires a value"
  | .invalidValue flag text fault =>
    flag.text ++ ": invalid value " ++ Text.quote text ++ ": " ++ fault.message

/-- What an argument that is no flag means where a flag belongs. -/
def UsageError.ofArgument (s : String) : UsageError :=
  if s = "--help" ∨ s = "-h" then .help else .unexpected s

namespace Options

/-- Read arguments, after options read before them. -/
def readAll (o : Options) : List String → Except UsageError Options
  | [] => .ok o
  | [s] =>
    match Flag.ofText? s with
    | none => .error (.ofArgument s)
    | some flag => .error (.missingValue flag)
  | s :: v :: rest =>
    match Flag.ofText? s with
    | none => .error (.ofArgument s)
    | some flag =>
      match Text.readWord v.toList with
      | .error fault => .error (.invalidValue flag v fault)
      | .ok n => readAll (o.set flag n) rest

/-- The options that arguments stand for. -/
def read (arguments : List String) : Except UsageError Options := readAll {} arguments

end Options

end CallAdmission.Simulation
