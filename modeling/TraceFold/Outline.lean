import TraceFold.Text.Quoted

/-!
# Outlines

Descriptions of values for people: named records, lists, maps, and leaves that are shown as they
are.  An outline can be set on one line (`Outline.line`) or as a block with one entry a line and
four spaces of indentation (`Outline.block`).  In a block every entry is followed by a comma, the
last one included, and what is empty stays on one line.
-/

namespace TraceFold

mutual

/-- A description of a value. -/
inductive Outline where
  /-- A text that is shown as it is. -/
  | leaf (text : String)
  /-- A value wrapped into a named case. -/
  | wrapped (name : String) (inner : Outline)
  /-- A record with named fields. -/
  | record (name : String) (fields : OutlineFields)
  | list (items : OutlineItems)

/-- The fields of a record, in order. -/
inductive OutlineFields where
  | done
  | field (name : String) (value : Outline) (rest : OutlineFields)

/-- The items of a list, in order. -/
inductive OutlineItems where
  | done
  | item (value : Outline) (rest : OutlineItems)

end

namespace Outline

/-- A quoted text. -/
def text (s : String) : Outline := .leaf (Text.quoted s)

def ofNat (n : Nat) : Outline := .leaf (toString n)

def ofBool (b : Bool) : Outline := .leaf (toString b)

/-- A value that may be absent. -/
def ofOption : Option Outline → Outline
  | some o => .wrapped "Some" o
  | none => .leaf "None"

/-- A record from its fields. -/
def ofFields (name : String) (fields : List (String × Outline)) : Outline :=
  .record name (fields.foldr (fun f rest => .field f.1 f.2 rest) .done)

/-! ## On one line -/

mutual

def line : Outline → String
  | .leaf s => s
  | .wrapped name o => name ++ "(" ++ line o ++ ")"
  | .record name .done => name
  | .record name fields => name ++ " " ++ Text.braced (" " ++ lineFields fields ++ " ")
  | .list items => "[" ++ lineItems items ++ "]"

def lineFields : OutlineFields → String
  | .done => ""
  | .field name o .done => name ++ ": " ++ line o
  | .field name o rest => name ++ ": " ++ line o ++ ", " ++ lineFields rest

def lineItems : OutlineItems → String
  | .done => ""
  | .item o .done => line o
  | .item o rest => line o ++ ", " ++ lineItems rest

end

/-! ## As a block -/

/-- The indentation of a nesting level. -/
def indent (level : Nat) : String := String.ofList (List.replicate (4 * level) ' ')

mutual

/-- The block of a value that stands on a line indented to `level`. -/
def blockAt (level : Nat) : Outline → String
  | .leaf s => s
  | .wrapped name o =>
    name ++ "(\n" ++ indent (level + 1) ++ blockAt (level + 1) o ++ ",\n" ++ indent level ++ ")"
  | .record name .done => name
  | .record name fields =>
    name ++ " " ++ Text.braced ("\n" ++ blockFields (level + 1) fields ++ indent level)
  | .list .done => "[]"
  | .list items => "[\n" ++ blockItems (level + 1) items ++ indent level ++ "]"

def blockFields (level : Nat) : OutlineFields → String
  | .done => ""
  | .field name o rest =>
    indent level ++ name ++ ": " ++ blockAt level o ++ ",\n" ++ blockFields level rest

def blockItems (level : Nat) : OutlineItems → String
  | .done => ""
  | .item o rest => indent level ++ blockAt level o ++ ",\n" ++ blockItems level rest

end

def block (o : Outline) : String := blockAt 0 o

end Outline
end TraceFold
