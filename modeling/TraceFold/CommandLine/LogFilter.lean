import TraceFold.CommandLine.Arguments
import TraceFold.Event

/-!
# The log filter

How much of what happens in a run is logged.  A setting is a list of directives between commas: a
level alone holds for everything, `name=level` for the program of that name, and a name alone asks
for all the events of that program.  A directive for this program wins over a general one, and of
two for the same thing the later.  What makes no sense is passed over, and where no directive is
left only errors are logged.
-/

namespace TraceFold.CommandLine.LogFilter

/-- How much is logged: everything down to a severity, or nothing. -/
abbrev Level := Option Severity

/-- A level by its name, in any mixture of cases; `off` is the level of silence. -/
def level? (name : String) : Option Level :=
  if name.toLower = "off" then some none
  else (Severity.all.find? fun s => s.name.toLower == name.toLower).map some

/-- What a setting says about one program, or about all of them. -/
structure Directive where
  program : Option String
  level : Level

/-- A directive, if the text between two commas is one. -/
def directive? (piece : List Char) : Option Directive :=
  let cs := Text.trim piece
  let name := String.ofList (cs.takeWhile (· != '='))
  match cs.dropWhile (· != '=') with
  | [] =>
    if cs = [] then none
    else match level? name with
      | some level => some ⟨none, level⟩
      | none => some ⟨some name, some .trace⟩
  | _ :: rest => match Text.trim rest with
    | [] => some ⟨some name, some .trace⟩
    | level => (level? (String.ofList level)).map fun level => ⟨some name, level⟩

/-- The pieces of a text between commas. -/
def splitCommas : List Char → List (List Char)
  | [] => [[]]
  | ',' :: cs => [] :: splitCommas cs
  | c :: cs => match splitCommas cs with
    | [] => [[c]]
    | p :: ps => (c :: p) :: ps

/-- The level that some directives give to this program. -/
def levelOf (directives : List Directive) : Level :=
  let last (program : Option String) : Option Level :=
    (directives.reverse.find? fun d => d.program == program).map Directive.level
  ((last (some programName)).or (last none)).getD none

/-- The level that a setting asks for. -/
def level (setting : String) : Level :=
  match (splitCommas setting.toList).filterMap directive? with
  | [] => some .error
  | directives => levelOf directives

end TraceFold.CommandLine.LogFilter
