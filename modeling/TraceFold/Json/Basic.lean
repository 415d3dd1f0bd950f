/-!
# JSON documents as they are written

A `Json` is what was found at a place in a document: a value, or the part of one that was read
before the text stopped making sense or ran out.  Nothing is interpreted yet: numbers are kept as
their digits and strings as their glyphs, because what they may be depends on what is expected at
their place (a number too large for a float is no fault where the value is skipped).

Faults are part of the tree, at the place where they occurred, so that whoever walks the tree in
document order meets the problems of a document in the order in which they stand there.  A fault
ends the document: in every container, at most the last element holds one.
-/

namespace TraceFold

/-- Why a text cannot be read on. -/
inductive Fault where
  /-- The next character does not belong there. -/
  | malformed
  /-- The text ended too early. -/
  | truncated
deriving DecidableEq, Inhabited, Repr

namespace Json

/-- The three words of JSON. -/
inductive Word where
  | null | true | false
deriving DecidableEq, Repr

/-- One element of a string: a character, as itself or by a short escape, or the UTF-16 unit of an
escape with four hexadecimal digits. -/
inductive Glyph where
  | char (c : Char)
  | unit (u : UInt16)
deriving DecidableEq, Repr

/-- How a word, number or string ends: as it should, or at a fault. -/
inductive Ending where
  | closed
  | cut (f : Fault)
deriving DecidableEq, Repr

end Json

mutual

/-- What stands at the place of a value. -/
inductive Json where
  | word (w : Json.Word) (e : Json.Ending)
  /-- All the characters of the number that were read, sign and exponent included. -/
  | number (lexeme : List Char) (e : Json.Ending)
  | string (glyphs : List Json.Glyph) (e : Json.Ending)
  | array (items : JsonItems)
  | object (members : JsonMembers)
  /-- No value begins here. -/
  | missing (f : Fault)

/-- The items of an array, in order. -/
inductive JsonItems where
  | done
  | cut (f : Fault)
  | item (v : Json) (rest : JsonItems)

/-- The members of an object, in order.  A key is kept as it stands, whether or not it is a
string. -/
inductive JsonMembers where
  | done
  | cut (f : Fault)
  | member (key value : Json) (rest : JsonMembers)

end

namespace Json

/-- Blanks between the tokens of a document. -/
def isBlank (c : Char) : Bool :=
  c == ' ' || c == '\t' || c == '\n' || c == '\r'

def skipBlanks (cs : List Char) : List Char :=
  cs.dropWhile isBlank

instance : Inhabited Json := ⟨.missing .malformed⟩

end Json

/-- The chain of the given items, ending as `last` does. -/
def JsonItems.ofList (last : JsonItems) : List Json → JsonItems
  | [] => last
  | v :: vs => .item v (ofList last vs)

/-- The chain of the given members, ending as `last` does. -/
def JsonMembers.ofList (last : JsonMembers) : List (Json × Json) → JsonMembers
  | [] => last
  | (k, v) :: ms => .member k v (ofList last ms)

end TraceFold
