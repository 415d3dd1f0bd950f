import TraceFold.CommandLine.Arguments
import TraceFold.Saturation

/-!
# Summaries

What a run found, as a text for people: the rules, the passes, the actions and the time taken.
Times are not known here; they are handed in as the texts that are to stand for them.
-/

namespace TraceFold.CommandLine

/-! ## Colors -/

/-- How a text may be set off on a terminal. -/
inductive Style where
  | bold | dim | green | yellow | red | blue | cyan | gray
deriving DecidableEq

def Style.code : Style → String
  | bold => "1"
  | dim => "2"
  | green => "32"
  | yellow => "33"
  | red => "31"
  | blue => "34"
  | cyan => "36"
  | gray => "90"

/-- A text in a style, if colors are on. -/
def paint (color : Bool) (style : Style) (s : String) : String :=
  if color then "\x1b[" ++ style.code ++ "m" ++ s ++ "\x1b[0m" else s

/-! ## Times -/

/-- The times that a run took, as texts. -/
structure Times where
  total : String
  saturation : String
  project : String
  /-- The time of each pass, counted from 0. -/
  pass : Nat → String

/-! ## Parts -/

/-- One particular of an action, on a line of its own. -/
def fieldLine (color : Bool) (name value : String) : String :=
  "      " ++ paint color .dim (name ++ ":") ++ " " ++ paint color .cyan value ++ "\n"

/-- An address with its wallet; an unknown owner is shown as a question mark. -/
def ownerText (owner : Option Address) (wallet : Address) : String :=
  (owner.map Address.toText).getD "?" ++ " (wallet " ++ wallet.toText ++ ")"

def noteLine (color : Bool) : Option Note → String
  | none => ""
  | some (.text s) => fieldLine color "comment" s
  | some (.encrypted c) => fieldLine color "encrypted" (toString c.cipherText.length ++ " bytes")

def detailLines (color : Bool) : ActionDetails → String
  | .jettonTransfer jetton sender recipient senderWallet recipientWallet amount note =>
    fieldLine color "jetton" jetton.toText ++ fieldLine color "amount" (toString amount.val)
      ++ fieldLine color "from" (ownerText sender senderWallet)
      ++ fieldLine color "to" (ownerText recipient recipientWallet) ++ noteLine color note
  | .jettonMint jetton recipient recipientWallet amount =>
    fieldLine color "jetton" jetton.toText ++ fieldLine color "amount" (toString amount.val)
      ++ fieldLine color "to" (ownerText (some recipient) recipientWallet)

/-- An action with its number. -/
def actionLines (color : Bool) (number : Nat) (a : Action) : String :=
  "  " ++ paint color .gray ("[" ++ toString number ++ "]") ++ " "
    ++ paint color .bold (paint color .green a.kindName) ++ " " ++ paint color .dim "│" ++ " "
    ++ (if a.success then paint color .green "ok" else paint color .red "failed") ++ "\n"
    ++ detailLines color a.details

/-- A pass, counted from 0. -/
def passLine (color : Bool) (times : Times) (index : Nat) (p : PassCounts) : String :=
  let merges := toString p.merged ++ " merges"
  "  " ++ paint color .blue ("Pass " ++ toString (index + 1) ++ ":") ++ " "
    ++ (if 0 < p.merged then paint color .green ("✓ " ++ merges)
        else paint color .dim ("✗ " ++ merges))
    ++ "  " ++ paint color .dim (toString p.visited ++ " attempts in " ++ times.pass index) ++ "\n"

/-- The heading of a part. -/
def heading (color : Bool) (title : String) : String :=
  "\n" ++ paint color .gray ("━━━ " ++ title ++ " ━━━") ++ "\n"

/-- What to say when nothing was found. -/
def nothingFound (color : Bool) : String :=
  paint color .dim "  No actions recognized" ++ "\n\n"
    ++ paint color .yellow "Possible reasons:" ++ "\n"
    ++ "  • The trace holds no jetton operations\n"
    ++ "  • Decoded bodies are missing, so operation checks fail\n"
    ++ "  • A builder failed (see the error log)\n\n"
    ++ paint color .dim "  Tip: Set RUST_LOG=bath=debug to see every merge" ++ "\n"

/-- The whole summary of a run over the trace from `source`. -/
def summary (color : Bool) (source : String) (rules : Rules) (s : Saturation) (times : Times) :
    String :=
  "\n" ++ paint color .bold (paint color .cyan ("⚙  Trace: " ++ source)) ++ "\n"
    ++ "  " ++ paint color .dim "straws:" ++ " "
    ++ paint color .blue (", ".intercalate (rules.map AnyRule.name)) ++ "\n"
    ++ heading color "Saturation"
    ++ String.join (s.passes.zipIdx.map fun p => passLine color times p.2 p.1)
    ++ (if s.fixpoint then "" else
        "  " ++ paint color .yellow "! pass limit reached before a fixpoint" ++ "\n")
    ++ heading color "Actions"
    ++ (if s.actions.isEmpty then nothingFound color
        else String.join (s.actions.zipIdx.map fun a => actionLines color a.2 a.1))
    ++ heading color "Timing"
    ++ "  Total: " ++ paint color .green times.total
    ++ "  │  Saturation: " ++ paint color .cyan times.saturation
    ++ "  │  Project: " ++ paint color .dim times.project
    ++ "  │  Bubbles left: " ++ paint color .dim (toString s.forest.size) ++ "\n\n"

end TraceFold.CommandLine
