import TraceFold.Codec.Action
import TraceFold.CommandLine.LogFilter
import TraceFold.CommandLine.Summary
import TraceFold.Trace

/-!
# The program

What the program prints and how it exits, given its arguments and the means to read its input.
The exit code is 0 for success, 1 for a trace that cannot be had and 2 for wrong arguments.  What
is logged goes to the error output, one event a line.
-/

namespace TraceFold.CommandLine

/-- All that is seen of a finished program. -/
structure Outcome where
  code : Nat
  stdout : String
  stderr : String
deriving DecidableEq

namespace Outcome

/-- Success, with a log. -/
def printed (text log : String) : Outcome := ⟨0, text, log⟩

/-- The arguments were wrong. -/
def refused (e : ArgumentError) : Outcome := ⟨2, "", e.message ++ "\n"⟩

/-- There was no trace. -/
def failed (e : TraceError) : Outcome := ⟨1, "", "error: " ++ e.message ++ "\n"⟩

end Outcome

/-- The name of a trace in a report. -/
def Config.source (config : Config) : String := config.input.getD "<stdin>"

/-- What is printed for a run. -/
def present (config : Config) (s : Saturation) (times : Times) : String :=
  if config.json then (Json.list (s.actions.map Action.toJson)).renderPretty ++ "\n"
  else summary config.color config.source Catalog.standard s times

/-- The log of a run. -/
def logText (level : LogFilter.Level) (s : Saturation) : String :=
  match level with
  | some least => String.join ((Event.upTo least s.events).map fun e =>
      "[" ++ e.severity.name ++ "] " ++ e.message ++ "\n")
  | none => ""

/-- The run that a configuration asks for. -/
def saturate (config : Config) (F : Forest) : Saturation :=
  .ofForest Catalog.standard config.maxPasses F

/-- What is seen of a finished run. -/
def finish (level : LogFilter.Level) (config : Config) (s : Saturation) (times : Times) :
    Outcome :=
  .printed (present config s times) (logText level s)

/-- The whole program, where reading is a pure look-up: `read` gives the bytes of a file, or of
the standard input. -/
def execute (terminals : Terminals) (level : LogFilter.Level) (args : List String)
    (read : Option String → Except ReadFault ByteArray) (times : Times) : Outcome :=
  match parse terminals args with
  | .error e => .refused e
  | .ok .help => .printed (helpText ++ "\n") ""
  | .ok .version => .printed (versionText ++ "\n") ""
  | .ok (.run config) => match read config.input with
    | .error f => .failed (.unreadable f)
    | .ok bytes => match Forest.ofBytes bytes with
      | .error e => .failed e
      | .ok F => finish level config (saturate config F) times

end TraceFold.CommandLine
