import TraceFold.Json.Text
import TraceFold.Text.Digits

/-!
# Writing documents

`Json.render` writes a document without blanks, `Json.renderPretty` with one element a line and
two spaces of indentation.  Both keep the order of members.  Values are built with `Json.ofText`,
`Json.ofInt`, `Json.list` and `Json.record`, which make complete trees only, so nothing written
here ends at a fault.
-/

namespace TraceFold.Json

/-! ## Building values -/

def null : Json := .word .null .closed

def ofBool (b : Bool) : Json := .word (if b then .true else .false) .closed

def ofNat (n : Nat) : Json := .number (Text.ofNat n) .closed

def ofInt (i : Int) : Json := .number (Text.ofInt i) .closed

def ofText (text : String) : Json := .string (glyphsOf text) .closed

/-- The value, or `null` if there is none. -/
def ofOption {α : Type} (write : α → Json) : Option α → Json
  | some a => write a
  | none => null

/-- An array of the given items. -/
def list (items : List Json) : Json := .array (.ofList .done items)

/-- An object with the given members, in this order. -/
def record (members : List (String × Json)) : Json :=
  .object (.ofList .done (members.map fun (k, v) => (ofText k, v)))

/-! ## Scalars -/

def wordChars : Word → List Char
  | .null => "null".toList
  | .true => "true".toList
  | .false => "false".toList

/-- A glyph as it is written. -/
def glyphChars : Glyph → List Char
  | .char c => match shortForm? c with
    | some e => ['\\', e]
    | none => [c]
  | .unit u => '\\' :: 'u' :: Text.padLeft 4 (Text.hexOfNat u.toNat)

def stringChars (gs : List Glyph) : List Char :=
  '"' :: gs.flatMap glyphChars ++ ['"']

/-! ## The compact form -/

mutual

/-- A value without blanks. -/
def chars : Json → List Char
  | .word w _ => wordChars w
  | .number lexeme _ => lexeme
  | .string gs _ => stringChars gs
  | .array items => '[' :: itemsChars items ++ [']']
  | .object members => '{' :: membersChars members ++ ['}']
  | .missing _ => []

/-- Items with commas between them. -/
def itemsChars : JsonItems → List Char
  | .done | .cut _ => []
  | .item v .done => chars v
  | .item v rest => chars v ++ ',' :: itemsChars rest

/-- Members with commas between them. -/
def membersChars : JsonMembers → List Char
  | .done | .cut _ => []
  | .member k v .done => chars k ++ ':' :: chars v
  | .member k v rest => chars k ++ ':' :: chars v ++ ',' :: membersChars rest

end

def render (v : Json) : String := String.ofList v.chars

/-! ## The form for people -/

/-- A line break and the indentation of a nesting level. -/
def lineBreak (level : Nat) : List Char :=
  '\n' :: List.replicate (2 * level) ' '

mutual

/-- A value that stands on a line indented to `level`. -/
def prettyChars (level : Nat) : Json → List Char
  | .array .done => ['[', ']']
  | .object .done => ['{', '}']
  | .array items => '[' :: prettyItems (level + 1) items ++ lineBreak level ++ [']']
  | .object members => '{' :: prettyMembers (level + 1) members ++ lineBreak level ++ ['}']
  | v => chars v

/-- Items, each on a line of its own. -/
def prettyItems (level : Nat) : JsonItems → List Char
  | .done | .cut _ => []
  | .item v .done => lineBreak level ++ prettyChars level v
  | .item v rest => lineBreak level ++ prettyChars level v ++ ',' :: prettyItems level rest

/-- Members, each on a line of its own. -/
def prettyMembers (level : Nat) : JsonMembers → List Char
  | .done | .cut _ => []
  | .member k v .done => lineBreak level ++ chars k ++ ": ".toList ++ prettyChars level v
  | .member k v rest =>
    lineBreak level ++ chars k ++ ": ".toList ++ prettyChars level v ++ ',' ::
      prettyMembers level rest

end

def renderPretty (v : Json) : String := String.ofList (v.prettyChars 0)

end TraceFold.Json
