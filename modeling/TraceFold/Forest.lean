import TraceFold.Bubble

/-!
# Forests

All the bubbles of a trace, in an arena.  A bubble is named by its slot; its children are a list
of names.  Bubbles are only ever added at the end, so a child has a greater number than its
parent.  A merge overwrites one slot and empties others: the bubbles that stay keep their names,
and nothing that names them has to change.

`Forest.below` lists bubbles parents first.  It descends at most as many levels as there are
slots, which is enough for every forest whose children have greater numbers than their parents;
the same bound serves `Forest.belowLast`, which lists children first.
-/

namespace TraceFold

/-- An arena of bubbles and the names of those without a parent. -/
structure Forest where
  slots : Array (Option Bubble)
  roots : List BubbleId
deriving DecidableEq

namespace Forest

/-- The forest without bubbles. -/
def empty : Forest := ⟨#[], []⟩

instance : Inhabited Forest := ⟨empty⟩

/-! ## Looking up -/

/-- The bubble of this name, if it is live. -/
def get? (F : Forest) (id : BubbleId) : Option Bubble :=
  F.slots[id]?.join

/-- A bubble of this name is live. -/
def contains (F : Forest) (id : BubbleId) : Bool :=
  (F.get? id).isSome

/-- The children of a live bubble; any other name has none. -/
def children (F : Forest) (id : BubbleId) : List BubbleId :=
  ((F.get? id).map Bubble.children).getD []

/-- The number of live bubbles. -/
def size (F : Forest) : Nat :=
  F.slots.toList.countP Option.isSome

def isEmpty (F : Forest) : Bool := F.size == 0

/-! ## Growing -/

/-- The name that the next bubble will get. -/
def nextId (F : Forest) : BubbleId := F.slots.size

/-- Add a bubble without a parent. -/
def addRoot (F : Forest) (b : Bubble) : Forest :=
  ⟨F.slots.push (some b), F.roots ++ [F.nextId]⟩

/-- Add a bubble as the last child of a live one; there is no forest for a parent that is not. -/
def addChild? (F : Forest) (parent : BubbleId) (b : Bubble) : Option Forest :=
  match F.get? parent with
  | some p =>
    let grown := { p with children := p.children ++ [F.nextId] }
    some ⟨(F.slots.push (some b)).setIfInBounds parent (some grown), F.roots⟩
  | none => none

/-! ## Rewriting -/

/-- Overwrite a slot. -/
def replace (F : Forest) (id : BubbleId) (b : Bubble) : Forest :=
  { F with slots := F.slots.setIfInBounds id (some b) }

/-- Empty a slot. -/
def prune (F : Forest) (id : BubbleId) : Forest :=
  { F with slots := F.slots.setIfInBounds id none }

/-! ## What the operations do to the bubbles -/

theorem get?_replace (F : Forest) (id j : BubbleId) (b : Bubble) :
    (F.replace id b).get? j = if id = j ∧ id < F.slots.size then some b else F.get? j := by
  unfold get? replace
  rw [Array.getElem?_setIfInBounds]
  split <;> split <;> simp_all

theorem get?_prune (F : Forest) (id j : BubbleId) :
    (F.prune id).get? j = if id = j then none else F.get? j := by
  unfold get? prune
  rw [Array.getElem?_setIfInBounds]
  split <;> simp_all
  split <;> simp_all

theorem get?_addRoot (F : Forest) (b : Bubble) (j : BubbleId) :
    (F.addRoot b).get? j = if j = F.nextId then some b else F.get? j := by
  unfold get? addRoot nextId
  rw [Array.getElem?_push]
  split <;> simp_all

/-! ## Walking -/

/-- The names from `id` downwards, parents before children and siblings in order.  The walk goes
below a bubble only where `inside` holds; elsewhere the name alone is listed. -/
def below (F : Forest) (inside : BubbleId → Bool) : Nat → BubbleId → List BubbleId
  | 0, _ => []
  | n + 1, id =>
    if inside id then
      match F.get? id with
      | some b => id :: b.children.flatMap (below F inside n)
      | none => []
    else [id]

/-- The names from `id` downwards, children before parents and siblings in order. -/
def belowLast (F : Forest) : Nat → BubbleId → List BubbleId
  | 0, _ => []
  | n + 1, id => match F.get? id with
    | some b => b.children.flatMap (belowLast F n) ++ [id]
    | none => []

/-- All live bubbles, parents before children. -/
def preOrder (F : Forest) : List BubbleId :=
  F.roots.flatMap (F.below (fun _ => true) F.slots.size)

/-- All live bubbles, children before parents. -/
def postOrder (F : Forest) : List BubbleId :=
  F.roots.flatMap (F.belowLast F.slots.size)

/-- The actions of a forest, in the order of its bubbles. -/
def actions (F : Forest) : List Action :=
  F.preOrder.filterMap fun id => (F.get? id).bind fun b => b.payload.action?

end Forest
end TraceFold
