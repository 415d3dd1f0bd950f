import TraceFold.Event
import TraceFold.Pattern.Matching

/-!
# Merging what was matched

Turning the claimed bubbles of a successful attempt into one.  From the bubble at which the
pattern was matched, the claimed bubbles are listed parents first, together with the unclaimed
children that hang on them (`Claims.region`).  The builders run over the claimed bubbles in that
order, on one draft.  If all of them succeed, the bubble at the top is overwritten and the other
claimed bubbles are removed; if one fails, nothing changes and the failure is reported.

Accounts and flows start from those of the top bubble and then take in all claimed bubbles, the
top one included, so that it counts twice.
-/

namespace TraceFold

/-- A type of drafts that become the payload of a bubble. -/
class Target (α : Type) where
  /-- The draft before anything is built. -/
  blank : α
  payload : α → Payload

instance : Target JettonTransfer := ⟨default, .jettonTransfer⟩

instance : Target JettonMint := ⟨default, .jettonMint⟩

/-- What came of an attempt to merge: the forest after it, whether anything was merged, and what
happened on the way. -/
structure MergeStep where
  forest : Forest
  merged : Bool
  events : List Event

/-- A report was sent, which means that a builder failed. -/
def MergeStep.reported (s : MergeStep) : Bool :=
  s.events.any fun e => e.report?.isSome

namespace Claims

variable {α : Type}

/-- The claimed bubbles from `root` downwards, parents first, with the unclaimed children of each
at their places. -/
def region (c : Claims α) (F : Forest) (root : BubbleId) : List BubbleId :=
  F.below c.contains F.slots.size root

/-- The claimed bubbles from `root` downwards, parents first. -/
def inOrder (c : Claims α) (F : Forest) (root : BubbleId) : List BubbleId :=
  (c.region F root).filter c.contains

/-- The unclaimed children of claimed bubbles, in the order in which they are met. -/
def kept (c : Claims α) (F : Forest) (root : BubbleId) : List BubbleId :=
  (c.region F root).filter fun id => !c.contains id

/-- The builder of the pattern that claimed a bubble. -/
def builder? (c : Claims α) (id : BubbleId) : Option (Builder α) :=
  (c.get? id).bind Pattern.builder

/-- Run the builders of some claimed bubbles one after the other; the first failure ends it. -/
def build (c : Claims α) (F : Forest) : List BubbleId → α → Except (BubbleId × BuildError) α
  | [], draft => .ok draft
  | id :: ids, draft => match c.builder? id, F.get? id with
    | some build, some b => match build draft b with
      | (draft, none) => c.build F ids draft
      | (_, some e) => .error (id, e)
    | _, _ => c.build F ids draft

end Claims

namespace Forest

/-- The accounts of a bubble. -/
def accountsOf (F : Forest) (id : BubbleId) : List Address :=
  ((F.get? id).map Bubble.accounts).getD []

/-- The flow of a bubble. -/
def flowOf (F : Forest) (id : BubbleId) : Flow :=
  ((F.get? id).map Bubble.flow).getD .empty

/-- A bubble in one line, by its name. -/
def describe (F : Forest) (id : BubbleId) : String :=
  ((F.get? id).map Bubble.describe).getD ""

end Forest

namespace Pattern

variable {α : Type} [Target α]

/-- The bubble that takes the place of `root`. -/
def replacement (F : Forest) (root : BubbleId) (c : Claims α) :
    Except (BubbleId × BuildError) Bubble := do
  let claimed := c.inOrder F root
  let draft ← c.build F claimed Target.blank
  .ok {
    payload := Target.payload draft
    accounts := F.accountsOf root ++ claimed.flatMap F.accountsOf
    children := c.kept F root
    flow := claimed.foldl (fun flow id => flow.merge (F.flowOf id)) (F.flowOf root) }

/-- The report of a failed builder. -/
def failureReport (p : Pattern α) (F : Forest) (failed : BubbleId) (e : BuildError) : Report :=
  ((Report.of "Straw.Merge" .error).withText "straw" p.name).withText "bubble" (F.describe failed)
    |>.withText "error" e.message

/-- The forest in which `root` is overwritten and the other claimed bubbles are gone. -/
def commit (F : Forest) (root : BubbleId) (c : Claims α) (b : Bubble) : Forest :=
  (((c.inOrder F root).filter (· ≠ root)).foldl Forest.prune F).replace root b

/-- Match a pattern at a bubble and merge what it claims. -/
def merge (p : Pattern α) (F : Forest) (id : BubbleId) : MergeStep :=
  let (found, a) := p.attempt F id
  let lost := a.lost.map fun l => Event.lost l.1 l.2
  if found then
    match replacement F id a.claims with
    | .ok b => ⟨commit F id a.claims b, true, lost ++ [.merged p.name a.claims.size id]⟩
    | .error (failed, e) => ⟨F, false, lost ++ [.reported (p.failureReport F failed e)]⟩
  else ⟨F, false, lost⟩

end Pattern
end TraceFold
