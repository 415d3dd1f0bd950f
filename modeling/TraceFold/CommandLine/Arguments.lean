import TraceFold.Saturation
import TraceFold.Text.Digits

/-!
# Arguments

What the words of a command line ask for.  Options are taken in order; the first problem decides,
and a request for help or for the version is granted as soon as it is met.  A word that is no
option names the input; `-` names the standard input, which is also read when nothing is named.

The two options with a value take it as the next word or after an equals sign.  In the second form
the option may be repeated in front of the value: all the copies are dropped.
-/

namespace TraceFold.CommandLine

/-- What a run is to do. -/
structure Config where
  /-- The file to read; the standard input if there is none. -/
  input : Option String
  /-- Print the actions as a document instead of a report. -/
  json : Bool
  maxPasses : Nat
  color : Bool
deriving DecidableEq

/-- What is asked of the program. -/
inductive Request where
  | help
  | version
  | run (config : Config)
deriving DecidableEq

/-- What is wrong with some arguments. -/
inductive ArgumentError where
  | missingValue (option : String)
  | badMaxPasses (value : String)
  | repeatedInput
  | unknownOption (word : String)
  /-- Nothing is named, and the standard input is a terminal. -/
  | noInput
deriving DecidableEq

/-! ## Help -/

def programName : String := "bath"

def versionText : String := programName ++ " 0.1.0"

/-- The help, its last line complete. -/
def helpText : String :=
  versionText ++ "\n\n"
    ++ "Recognize jetton transfers and mints in an execution trace.\n\n"
    ++ "Usage:\n"
    ++ "  " ++ programName ++ " [OPTIONS] <trace.json>\n"
    ++ "  " ++ programName ++ " [OPTIONS] --input <trace.json>\n"
    ++ "  cat trace.json | " ++ programName ++ " [OPTIONS]\n\n"
    ++ "Options:\n"
    ++ "  -i, --input <path>         Trace file (JSON). Use '-' or omit to read stdin.\n"
    ++ "  --json                     Print the actions as JSON instead of a report.\n"
    ++ "  --max-passes <n>           Upper bound on catalog passes. Default: "
    ++ toString defaultMaxPasses ++ "\n"
    ++ "  --color                    Force ANSI color output.\n"
    ++ "  --no-color                 Disable ANSI color output.\n"
    ++ "  -h, --help                 Show this help message.\n"
    ++ "  -V, --version              Print version information.\n\n"
    ++ "Environment:\n"
    ++ "  RUST_LOG                   Log filter, e.g. RUST_LOG=bath=debug.\n\n"
    ++ "Exit codes:\n"
    ++ "  0  Success.\n"
    ++ "  1  The trace could not be read or decoded.\n"
    ++ "  2  Invalid arguments or missing input.\n"

namespace ArgumentError

def message : ArgumentError → String
  | missingValue option => "error: " ++ option ++ " expects a value"
  | badMaxPasses value =>
    "error: invalid --max-passes '" ++ value ++ "' (expected a non-negative integer)"
  | repeatedInput => "error: input provided multiple times"
  | unknownOption word => "error: unknown option '" ++ word ++ "'"
  | noInput => "error: no input provided\n\n" ++ helpText

end ArgumentError

/-! ## Values -/

namespace Config

/-- Nothing was asked for yet. -/
def default (color : Bool) : Config := ⟨none, false, defaultMaxPasses, color⟩

/-- Name the input.  A file may be named once; `-` names the standard input and leaves the input
unnamed, so a file may still be named after it. -/
def setInput (c : Config) (value : String) : Except ArgumentError Config :=
  if c.input.isSome then .error .repeatedInput
  else if value = "-" then .ok c
  else .ok { c with input := some value }

def setMaxPasses (c : Config) (value : String) : Except ArgumentError Config :=
  match Text.word64? value.toList with
  | some n => .ok { c with maxPasses := n }
  | none => .error (.badMaxPasses value)

end Config

/-- The characters after a beginning, if the text begins so. -/
def afterStart? : List Char → List Char → Option (List Char)
  | [], cs => some cs
  | _ :: _, [] => none
  | s :: ss, c :: cs => if s = c then afterStart? ss cs else none

/-- A text without all the copies of `start` in front of it; at most `n` copies are dropped. -/
def dropCopies (start : List Char) : Nat → List Char → List Char
  | 0, cs => cs
  | n + 1, cs => match afterStart? start cs with
    | some r => dropCopies start n r
    | none => cs

/-- The value after an option with an equals sign, in a word that begins with that option. -/
def attachedValue? (option word : String) : Option String :=
  let start := option.toList
  (afterStart? start word.toList).map fun r => String.ofList (dropCopies start r.length r)

/-! ## Words -/

/-- A word that takes no value from the next one: a name of the input, an option with an attached
value, or an option that does not exist. -/
def takeWord (c : Config) (word : String) : Except ArgumentError Config :=
  match attachedValue? "--max-passes=" word with
  | some value => c.setMaxPasses value
  | none => match attachedValue? "--input=" word with
    | some value => c.setInput value
    | none =>
      if word.toList.head? = some '-' ∧ word ≠ "-" then .error (.unknownOption word)
      else c.setInput word

/-- Take words in order, starting from what was asked for so far. -/
def takeWords : Config → List String → Except ArgumentError Request
  | c, [] => .ok (.run c)
  | c, word :: words =>
    if word = "-h" ∨ word = "--help" then .ok .help
    else if word = "-V" ∨ word = "--version" then .ok .version
    else if word = "--color" then takeWords { c with color := true } words
    else if word = "--no-color" then takeWords { c with color := false } words
    else if word = "--json" then takeWords { c with json := true } words
    else if word = "--max-passes" then match words with
      | [] => .error (.missingValue "--max-passes")
      | value :: words => match c.setMaxPasses value with
        | .ok c => takeWords c words
        | .error e => .error e
    else if word = "--input" ∨ word = "-i" then match words with
      | [] => .error (.missingValue "--input")
      | value :: words => match c.setInput value with
        | .ok c => takeWords c words
        | .error e => .error e
    else match takeWord c word with
      | .ok c => takeWords c words
      | .error e => .error e

/-- What is known of the streams of the program. -/
structure Terminals where
  /-- The standard input is a terminal. -/
  input : Bool
  /-- The standard output is a terminal, so colors are on unless they are turned off. -/
  output : Bool

/-- Neither stream is a terminal. -/
def Terminals.none : Terminals := ⟨false, false⟩

/-- What the arguments ask for. -/
def parse (terminals : Terminals) (args : List String) : Except ArgumentError Request :=
  match takeWords (.default terminals.output) args with
  | .ok (.run c) =>
    if c.input.isNone && terminals.input then .error .noInput else .ok (.run c)
  | other => other

end TraceFold.CommandLine
