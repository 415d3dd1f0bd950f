import TraceFold.BuildError
import TraceFold.Outline

/-!
# Patterns

A pattern describes one bubble and, recursively, bubbles that have to be, or may be, among its
children.  The description is a list of checks, all of which must hold.  What is found is put
together by the builders of the pattern and its sub-patterns, each of which copies what it can use
out of its own bubble into one common draft of type `α`.

Checks and builders are arbitrary functions.  A builder returns the draft as it left it even when
it fails, since what it wrote before it failed stays written.
-/

namespace TraceFold

/-- A property of a bubble that can be tested. -/
abbrev Check := Bubble → Bool

/-- Copies data from a bubble into a draft; the second component is the failure, if any. -/
abbrev Builder (α : Type) := α → Bubble → α × Option BuildError

/-- The builder that only understands transactions; other payloads are unexpected. -/
def Builder.onTransaction {α : Type} (build : α → Transaction → α × Option BuildError) :
    Builder α := fun draft b =>
  match b.payload with
  | .transaction tx => build draft tx
  | other => (draft, some (.unexpectedPayload .transaction other.kind))

/-- A pattern over a bubble and what is below it. -/
structure Pattern (α : Type) where
  name : String
  /-- All must hold. -/
  checks : List Check
  builder : Option (Builder α)
  /-- Patterns of children, looked for in this order. -/
  children : List (Pattern α)
  /-- The parent fits even if no child fits this pattern. -/
  optional : Bool

/-- The payload is a transaction. -/
def Check.isTransaction : Check := fun b => b.payload.kind = .transaction

namespace Pattern

variable {α : Type}

/-- A pattern of a transaction from which something is built.  The bubble is checked to hold a
transaction before anything else, so the builder sees no other payload. -/
def building (name : String) (checks : List Check)
    (build : α → Transaction → α × Option BuildError) (children : List (Pattern α))
    (optional : Bool) : Pattern α where
  name := name
  checks := Check.isTransaction :: checks
  builder := some (.onTransaction build)
  children := children
  optional := optional

/-- All the checks hold of a bubble. -/
def accepts (p : Pattern α) (b : Bubble) : Bool :=
  p.checks.all fun check => check b

mutual

/-- A description for people; checks and builders are only counted and named. -/
def outline : Pattern α → Outline
  | ⟨name, checks, builder, children, optional⟩ =>
    .ofFields "Straw"
      [("name", .text name), ("checks", .ofNat checks.length),
       ("builder", .ofOption (builder.map fun _ => .text "<function>")),
       ("children", .list (outlines children)), ("optional", .ofBool optional)]

def outlines : List (Pattern α) → OutlineItems
  | [] => .done
  | p :: ps => .item (outline p) (outlines ps)

end

/-- The sub-pattern reached by going down through the children at these positions. -/
def descend? (p : Pattern α) : List Nat → Option (Pattern α)
  | [] => some p
  | i :: path => (p.children[i]?).bind fun q => q.descend? path

end Pattern
end TraceFold
