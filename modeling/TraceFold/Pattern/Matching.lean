import TraceFold.Forest
import TraceFold.Pattern.Basic

/-!
# Matching patterns

Fitting a pattern to a bubble.  The bubble has to be live and pass the checks; then every child
pattern, in order, claims the first child of the bubble that it fits; and last the bubble itself
is claimed, unless it has been already.  A choice once made is never taken back: a child pattern
that finds nothing fails the whole, if it is required, even if other choices before it would have
left something for it.

Claims are kept for a whole attempt, in a list by which they can be undone and in a map in which
they are looked up.  When a candidate turns out not to fit, the claims made on the way are dropped
again (`Claims.rollback`): the list is cut back, and the bubbles that are cut off are erased from
the map.  So they are neither in the way of the next candidate nor part of the result.
-/

namespace TraceFold

/-- The bubbles claimed in one attempt. -/
@[ext]
structure Claims (α : Type) where
  /-- In the order in which they were claimed. -/
  bubbles : List BubbleId
  /-- The pattern that claimed each of them. -/
  patterns : SortedMap BubbleId (Pattern α)

namespace Claims

variable {α : Type}

def empty : Claims α := ⟨[], .empty⟩

/-- The number of claimed bubbles. -/
def size (c : Claims α) : Nat := c.bubbles.length

/-- The pattern that claimed a bubble. -/
def get? (c : Claims α) (id : BubbleId) : Option (Pattern α) := c.patterns.get? id

def contains (c : Claims α) (id : BubbleId) : Bool := (c.get? id).isSome

/-- The claimed bubbles, in the order in which they were claimed, each with its pattern. -/
def entries (c : Claims α) : List (BubbleId × Pattern α) :=
  c.bubbles.filterMap fun id => (c.get? id).map (id, ·)

/-- Claim one more bubble. -/
def insert (c : Claims α) (id : BubbleId) (p : Pattern α) : Claims α :=
  ⟨c.bubbles ++ [id], c.patterns.insert id p⟩

/-- A point to which the claims can go back. -/
def mark (c : Claims α) : Nat := c.bubbles.length

/-- Drop everything claimed since a mark was taken. -/
def rollback (c : Claims α) (mark : Nat) : Claims α :=
  ⟨c.bubbles.take mark, (c.bubbles.drop mark).foldl SortedMap.erase c.patterns⟩

end Claims

/-- The state of an attempt: the claims so far, and the patterns that fitted a bubble but came too
late, with that bubble.  What was lost stays noted when claims are rolled back. -/
structure Attempt (α : Type) where
  claims : Claims α
  lost : List (String × BubbleId)

namespace Attempt

variable {α : Type}

/-- Nothing is claimed yet. -/
def start : Attempt α := ⟨.empty, []⟩

/-- Go back to a mark. -/
def rollback (a : Attempt α) (mark : Nat) : Attempt α :=
  { a with claims := a.claims.rollback mark }

/-- Claim a bubble, unless it is claimed already. -/
def finish (a : Attempt α) (id : BubbleId) (p : Pattern α) : Bool × Attempt α :=
  if a.claims.contains id then (false, { a with lost := a.lost ++ [(p.name, id)] })
  else (true, { a with claims := a.claims.insert id p })

/-- Try candidates in order until one fits; each that does not is rolled back. -/
def firstFitting (fits : BubbleId → Attempt α → Bool × Attempt α) :
    List BubbleId → Attempt α → Bool × Attempt α
  | [], a => (false, a)
  | id :: ids, a =>
    let (found, a') := fits id a
    if found then (true, a') else firstFitting fits ids (a'.rollback a.claims.mark)

end Attempt

namespace Pattern

variable {α : Type}

mutual

/-- Fit a pattern to a bubble, going on from the claims of an attempt.  When it does not fit, some
of the claims made on the way may be left; whoever tried is to drop them. -/
def fit (F : Forest) : Pattern α → BubbleId → Attempt α → Bool × Attempt α
  | ⟨name, checks, builder, children, optional⟩, id, a =>
    match F.get? id with
    | none => (false, a)
    | some b =>
      if checks.all fun check => check b then
        let (found, a) := fitChildren F children b.children a
        if found then a.finish id ⟨name, checks, builder, children, optional⟩ else (false, a)
      else (false, a)

/-- Fit every child pattern, in order, to some child. -/
def fitChildren (F : Forest) :
    List (Pattern α) → List BubbleId → Attempt α → Bool × Attempt α
  | [], _, a => (true, a)
  | p :: ps, ids, a =>
    let (found, a) := a.firstFitting (fit F p) ids
    if found || p.optional then fitChildren F ps ids a else (false, a)

end

/-- A whole attempt at a bubble. -/
def attempt (p : Pattern α) (F : Forest) (id : BubbleId) : Bool × Attempt α :=
  p.fit F id .start

/-- The claims of an attempt that fits; nothing is left of one that does not. -/
def claim? (p : Pattern α) (F : Forest) (id : BubbleId) : Option (Claims α) :=
  let (found, a) := p.attempt F id
  if found then some a.claims else none

end Pattern
end TraceFold
