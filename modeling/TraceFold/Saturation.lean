import TraceFold.Catalog.JettonMint

/-!
# Saturation

Applying a catalog of rules to a forest until nothing merges any more.  A pass takes the rules in
order; each of them sweeps over the bubbles that are live when it begins, children before parents,
so that inner shapes merge first.  What was merged away during the sweep is skipped, and so is a
bubble at which a builder of the same rule failed earlier in the run: a failure is reported once.
Passes go on until one of them merges nothing or their number is used up.
-/

namespace TraceFold

/-- An entry of a catalog: a pattern with the type of its drafts, which may be any target.  So one
catalog can hold patterns of different targets. -/
structure AnyRule where
  Draft : Type
  [target : Target Draft]
  pattern : Pattern Draft

attribute [instance] AnyRule.target

namespace AnyRule

def name (rule : AnyRule) : String := rule.pattern.name

def merge (rule : AnyRule) (F : Forest) (id : BubbleId) : MergeStep := rule.pattern.merge F id

end AnyRule

/-- Rules in the order in which they are applied. -/
abbrev Rules := List AnyRule

/-- An entry for one of the two actions that a bubble can hold. -/
inductive Rule where
  | transfer (p : Pattern JettonTransfer)
  | mint (p : Pattern JettonMint)

namespace Rule

/-- The entry as one of any target. -/
def any : Rule → AnyRule
  | transfer p => ⟨JettonTransfer, p⟩
  | mint p => ⟨JettonMint, p⟩

instance : Coe Rule AnyRule := ⟨any⟩

instance : Coe (List Rule) Rules := ⟨List.map any⟩

def name (rule : Rule) : String := rule.any.name

def merge (rule : Rule) : Forest → BubbleId → MergeStep := rule.any.merge

end Rule

/-- The rules that are applied unless others are asked for. -/
def Catalog.standard : Rules :=
  ([.transfer Catalog.JettonTransfer.pattern, .mint Catalog.JettonMint.pattern] : List Rule)

theorem Catalog.mem_standard {rule : AnyRule} : rule ∈ Catalog.standard ↔
    rule = Rule.transfer Catalog.JettonTransfer.pattern ∨
      rule = Rule.mint Catalog.JettonMint.pattern := by
  simp [Catalog.standard]

/-- The number of passes that is allowed unless another is asked for. -/
def defaultMaxPasses : Nat := 16

/-- The counters of one pass. -/
structure PassCounts where
  merged : Nat
  /-- The rules that were applied. -/
  considered : Nat
  /-- The attempts that were made, each of one rule at one bubble. -/
  visited : Nat
deriving DecidableEq, Inhabited

/-- A run under way. -/
structure Run where
  forest : Forest
  /-- The attempts whose builders failed: the place of the rule in the catalog, and the bubble. -/
  failed : List (Nat × BubbleId)
  /-- The counters of the pass under way. -/
  counts : PassCounts
  /-- What happened so far. -/
  events : List Event

namespace Run

/-- A run that is about to begin. -/
def start (F : Forest) : Run := ⟨F, [], ⟨0, 0, 0⟩, []⟩

/-- Note something that happened. -/
def note (r : Run) (e : Event) : Run := { r with events := r.events ++ [e] }

/-- The attempt of a rule at a bubble, unless the bubble is gone or the rule failed there. -/
def visit (index : Nat) (rule : AnyRule) (r : Run) (id : BubbleId) : Run :=
  if r.forest.contains id && !r.failed.contains (index, id) then
    let step := rule.merge r.forest id
    { forest := step.forest
      failed := if !step.merged && step.reported then (index, id) :: r.failed else r.failed
      counts := { r.counts with
        merged := r.counts.merged + step.merged.toNat
        visited := r.counts.visited + 1 }
      events := r.events ++ step.events }
  else r

/-- The attempts of a rule at all bubbles, children before parents. -/
def sweep (index : Nat) (rule : AnyRule) (r : Run) : Run :=
  let r' := r.forest.postOrder.foldl (visit index rule) r
  let r' := { r' with counts := { r'.counts with considered := r'.counts.considered + 1 } }
  if r'.counts.merged = r.counts.merged then r'.note (.foundNothing rule.name) else r'

/-- One pass over the rules. -/
def pass (rules : Rules) (r : Run) : Run :=
  rules.zipIdx.foldl (fun r entry => r.sweep entry.2 entry.1) { r with counts := ⟨0, 0, 0⟩ }

end Run

/-- The passes of a run, with where they led. -/
structure Saturation where
  run : Run
  /-- The counters of the passes, in order. -/
  passes : List PassCounts
  /-- The last pass merged nothing. -/
  fixpoint : Bool

namespace Saturation

/-- No pass was made yet. -/
def start (F : Forest) : Saturation := ⟨.start F, [], false⟩

/-- One more pass. -/
def step (rules : Rules) (s : Saturation) : Saturation :=
  let r := s.run.pass rules
  let number := s.passes.length + 1
  { run := r.note (.passEnded number r.counts.merged r.counts.visited)
    passes := s.passes ++ [r.counts]
    fixpoint := r.counts.merged == 0 }

/-- At most `n` more passes, until one merges nothing. -/
def steps (rules : Rules) : Nat → Saturation → Saturation
  | 0, s => s
  | n + 1, s =>
    let s := s.step rules
    if s.fixpoint then s else steps rules n s

/-- The end of the passes: it is worth a warning if the last of them still merged something. -/
def close (maxPasses : Nat) (s : Saturation) : Saturation :=
  if s.fixpoint then s else { s with run := s.run.note (.stopped maxPasses) }

/-- A whole run. -/
def ofForest (rules : Rules) (maxPasses : Nat) (F : Forest) : Saturation :=
  ((start F).steps rules maxPasses).close maxPasses

/-- The forest at the end. -/
def forest (s : Saturation) : Forest := s.run.forest

/-- Everything that happened. -/
def events (s : Saturation) : List Event := s.run.events

/-- The actions that were found, in the order of their bubbles. -/
def actions (s : Saturation) : List Action := s.forest.actions

/-- The reports that were sent, in order. -/
def reports (s : Saturation) : List Report := Event.reports s.events

/-- The number of merges in all passes. -/
def merged (s : Saturation) : Nat := s.passes.foldl (fun n p => n + p.merged) 0

end Saturation
end TraceFold
