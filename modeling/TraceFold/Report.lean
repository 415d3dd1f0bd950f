import TraceFold.SortedMap
import TraceFold.Text.Quoted

/-!
# Reports

What is told to whoever watches a run when an action could not be built.  The data of a report are
texts by key, listed in the order of their keys; writing a key again replaces its text.
-/

namespace TraceFold

/-- How grave a report is. -/
inductive ReportLevel where
  | error | warning | info
deriving DecidableEq, Repr

/-- A report: the operation that it is about, its data and its gravity. -/
structure Report where
  operation : String
  level : ReportLevel
  data : SortedMap String String
deriving DecidableEq

namespace Report

/-- A report without data. -/
def of (operation : String) (level : ReportLevel) : Report := ⟨operation, level, .empty⟩

/-- The report with one more text. -/
def withText (r : Report) (key value : String) : Report :=
  { r with data := r.data.insert key value }

/-- The data on one line. -/
def dataText (r : Report) : String :=
  Text.braced <| ", ".intercalate <| r.data.entries.map fun e =>
    Text.quoted e.1 ++ ": " ++ Text.quoted e.2

/-- The report as a line of a log. -/
def logText (r : Report) : String :=
  "[" ++ r.operation ++ "] " ++ r.dataText

end Report
end TraceFold
