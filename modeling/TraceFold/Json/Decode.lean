import TraceFold.Account
import TraceFold.BoundedInt
import TraceFold.Json.Number
import TraceFold.Json.Reader
import TraceFold.Json.Text
import TraceFold.Timestamp

/-!
# Decoding values

From the tree of a document to values of the domain.  A decoder looks at a `Json` and gives a
value or the first problem in document order.  A problem is either a fault of the text at the
place where the value was looked for, or a value of the wrong kind; which of the two it is decides
its `Category`.

Decoders of scalars are here, together with `Json.skip?`, which passes over a value that nobody
asked for; it finds faults of the text only, and fewer of them.  Records and tagged values are in
`Json.Schema`.
-/

namespace TraceFold

/-! ## Problems -/

/-- Why a document does not hold the value that was asked for. -/
inductive DecodeError where
  /-- The text stops making sense or ends. -/
  | unreadable (f : Fault)
  /-- A number beyond the range of floats. -/
  | numberTooLarge
  /-- An amount that is not written as plain digits within 128 bits. -/
  | badAmount
  /-- More containers inside one another than a document may have. -/
  | tooDeep
  /-- Elements after the last one of a record or tag, or text after the document. -/
  | surplus
  /-- No tag where a tagged value was expected. -/
  | untagged
  /-- A value of another kind than expected. -/
  | wrongKind
  /-- An integer outside the range of its field. -/
  | outOfRange
  /-- A record written as an array that ends before its required fields. -/
  | tooShort
  | badInterfaces
  | badTimestamp
  | invalidAddress (text : String)
  | missingField (name : String)
  | duplicateField (name : String)
  | unknownVariant (name : String) (known : List String)
deriving DecidableEq

namespace DecodeError

/-- The three kinds of problem a caller may want to tell apart. -/
inductive Category where
  /-- The text is no document, or not one that can be taken. -/
  | form
  /-- The document is fine and its content is not. -/
  | content
  /-- The text ended too early. -/
  | ended
deriving DecidableEq, Repr

def category : DecodeError → Category
  | unreadable .truncated => .ended
  | unreadable .malformed | numberTooLarge | badAmount | tooDeep | surplus | untagged => .form
  | wrongKind | outOfRange | tooShort | badInterfaces | badTimestamp | invalidAddress _
  | missingField _ | duplicateField _ | unknownVariant _ _ => .content

/-- A name between grave accents. -/
def quoted (name : String) : String := "`" ++ name ++ "`"

/-- The wording that other programs may rely on; problems without one have none. -/
def stableMessage? : DecodeError → Option String
  | invalidAddress text => some (Address.invalidMessage text)
  | missingField name => some ("missing field " ++ quoted name)
  | duplicateField name => some ("duplicate field " ++ quoted name)
  | unknownVariant name known =>
    some ("unknown variant " ++ quoted name ++ ", expected one of "
      ++ ", ".intercalate (known.map quoted))
  | _ => none

/-- The wording for people. -/
def message (e : DecodeError) : String :=
  e.stableMessage?.getD <| match e with
    | unreadable .malformed => "unexpected character"
    | unreadable .truncated => "unexpected end of text"
    | numberTooLarge => "number out of range"
    | badAmount => "invalid amount"
    | tooDeep => "nesting too deep"
    | surplus => "trailing elements"
    | untagged => "expected a tagged value"
    | outOfRange => "integer out of range"
    | tooShort => "too few elements"
    | badInterfaces => "invalid interface flags"
    | badTimestamp => "invalid instant"
    | _ => "unexpected kind of value"

end DecodeError

/-- An address from its text; a text that is none is told as it was given, with its blanks. -/
def Address.ofText (text : String) : Except DecodeError Address :=
  match ofText? text with
  | some a => .ok a
  | none => .error (.invalidAddress text)

namespace Json

open DecodeError

/-- What a decoder gives. -/
abbrev Decoded := Except DecodeError

/-! ## Values of the wrong kind -/

/-- The text of a string, with its fault as a problem. -/
def text (gs : List Glyph) (e : Ending) : Decoded String :=
  match textOf gs e with
  | .ok s => .ok s
  | .error f => .error (.unreadable f)

/-- The problem of a value that is not of the kind looked for.  A scalar is read to its end first,
so its own fault comes before its kind; a container is refused at its bracket. -/
def mismatch : Json → DecodeError
  | .word _ .closed => .wrongKind
  | .word _ (.cut f) => .unreadable f
  | .number lexeme .closed => match Number.ofLexeme lexeme with
    | .tooLarge => .numberTooLarge
    | _ => .wrongKind
  | .number _ (.cut f) => .unreadable f
  | .string gs e => match text gs e with
    | .ok _ => .wrongKind
    | .error err => err
  | .array _ | .object _ => .wrongKind
  | .missing f => .unreadable f

/-! ## Values nobody asked for -/

/-- The fault of a key of a value that is passed over, if it has one: it has to be a string. -/
def keyFault? : Json → Option Fault
  | .string _ .closed => none
  | .string _ (.cut f) => some f
  | .missing f => some f
  | _ => some .malformed

mutual

/-- The first fault of a value that is passed over.  A number that ends too early counts as
malformed, and escapes in strings need not make sense. -/
def skip? : Json → Option Fault
  | .word _ .closed | .number _ .closed | .string _ .closed => none
  | .word _ (.cut f) | .string _ (.cut f) | .missing f => some f
  | .number _ (.cut _) => some .malformed
  | .array items => skipItems? items
  | .object members => skipMembers? members

def skipItems? : JsonItems → Option Fault
  | .done => none
  | .cut f => some f
  | .item v rest => match skip? v with
    | some f => some f
    | none => skipItems? rest

def skipMembers? : JsonMembers → Option Fault
  | .done => none
  | .cut f => some f
  | .member k v rest => match keyFault? k with
    | some f => some f
    | none => match skip? v with
      | some f => some f
      | none => skipMembers? rest

end

/-! ## Scalars -/

def readBool : Json → Decoded Bool
  | .word .true .closed => .ok true
  | .word .false .closed => .ok false
  | v => .error v.mismatch

def readText : Json → Decoded String
  | .string gs e => text gs e
  | v => .error v.mismatch

/-- An integer of a field whose range is `low ≤ i < high`. -/
def readInteger (low high : Int) : Json → Decoded Int
  | .number lexeme .closed => match Number.ofLexeme lexeme with
    | .integer i => if low ≤ i ∧ i < high then .ok i else .error .outOfRange
    | .float => .error .wrongKind
    | .tooLarge => .error .numberTooLarge
  | v => .error v.mismatch

def readUInt8 (v : Json) : Decoded UInt8 :=
  (readInteger 0 UInt8.size v).map fun i => UInt8.ofNat i.toNat

def readUInt32 (v : Json) : Decoded UInt32 :=
  (readInteger 0 UInt32.size v).map fun i => UInt32.ofNat i.toNat

def readUInt64 (v : Json) : Decoded UInt64 :=
  (readInteger 0 UInt64.size v).map fun i => UInt64.ofNat i.toNat

def readNanotons (v : Json) : Decoded Nanotons :=
  (readInteger (-9223372036854775808) 9223372036854775808 v).map BoundedInt.clamp

/-- An amount of jettons.  Its digits are taken straight from the text, so anything else there,
even a value of another kind, is a fault of the text. -/
def readAmount : Json → Decoded JettonAmount
  | .missing f => .error (.unreadable f)
  | .number lexeme .closed =>
    if lexeme.all Char.isDigit then
      let n := Text.decimalValue lexeme
      if h : n < 340282366920938463463374607431768211456 then .ok ⟨n, h⟩ else .error .badAmount
    else .error .badAmount
  | _ => .error .badAmount

/-- A field that may be left empty by writing `null`. -/
def readOption {α : Type} (read : Json → Decoded α) : Json → Decoded (Option α)
  | .word .null .closed => .ok none
  | .word .null (.cut f) => .error (.unreadable f)
  | v => (read v).map some

/-! ## Scalars of the domain -/

def readAddress (v : Json) : Decoded Address := do
  Address.ofText (← readText v)

def readInterfaces (v : Json) : Decoded Interfaces := do
  let s ← readText v
  match Interfaces.ofText? s with
  | some i => .ok i
  | none => .error .badInterfaces

def readTimestamp (v : Json) : Decoded Timestamp := do
  let s ← readText v
  match Timestamp.ofText? s with
  | some t => .ok t
  | none => .error .badTimestamp

end Json
end TraceFold
