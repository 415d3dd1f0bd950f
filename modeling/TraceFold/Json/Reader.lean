import TraceFold.Json.Basic
import TraceFold.Text.Digits

/-!
# Reading a document

From characters to the tree of `Json.Basic`.  Words, numbers and strings are read by scanners that
give the text left after them.  Containers are read by a machine that keeps the unfinished
containers on a stack of its own, so that nesting has no limit here: the limit of the format is a
matter of what is decoded, not of what is written (`Json.Schema`).

Every step of the machine but the last takes a character from the text or ends it, so the number
of steps is bounded by twice the length of the text (`State.bound`).
-/

namespace TraceFold.Json

/-! ## Words -/

/-- The rest of a word after its first letter. -/
def readWord (w : Word) : List Char → List Char → Json × List Char
  | [], rest => (.word w .closed, rest)
  | _ :: _, [] => (.word w (.cut .truncated), [])
  | e :: es, c :: cs => if c = e then readWord w es cs else (.word w (.cut .malformed), cs)

/-! ## Numbers -/

/-- Split off the decimal digits in front. -/
def digitsOf (cs : List Char) : List Char × List Char :=
  (cs.takeWhile Char.isDigit, cs.dropWhile Char.isDigit)

/-- The fault of a text that has no digit where one is needed. -/
def noDigit : List Char → Fault
  | [] => .truncated
  | _ => .malformed

/-- An optional exponent; `before` is what was read of the number so far. -/
def readExponent (before cs : List Char) : Json × List Char :=
  match cs with
  | e :: r =>
    if e = 'e' ∨ e = 'E' then
      let (sign, r) := match r with
        | '+' :: r => (['+'], r)
        | '-' :: r => (['-'], r)
        | r => ([], r)
      let (digits, rest) := digitsOf r
      let lexeme := before ++ e :: sign ++ digits
      if digits = [] then (.number lexeme (.cut (noDigit rest)), rest)
      else (.number lexeme .closed, rest)
    else (.number before .closed, cs)
  | [] => (.number before .closed, [])

/-- An optional fraction and an optional exponent. -/
def readFraction (before cs : List Char) : Json × List Char :=
  match cs with
  | '.' :: r =>
    let (digits, rest) := digitsOf r
    let lexeme := before ++ '.' :: digits
    if digits = [] then (.number lexeme (.cut (noDigit rest)), rest)
    else readExponent lexeme rest
  | _ => readExponent before cs

/-- A number; `sign` is the minus sign if there is one.  A zero may not be followed by digits. -/
def readNumber (sign cs : List Char) : Json × List Char :=
  match cs with
  | '0' :: r => match r with
    | c :: _ =>
      if c.isDigit then (.number (sign ++ ['0']) (.cut .malformed), r)
      else readFraction (sign ++ ['0']) r
    | [] => (.number (sign ++ ['0']) .closed, [])
  | _ =>
    let (digits, rest) := digitsOf cs
    if digits = [] then (.number sign (.cut (noDigit rest)), rest)
    else readFraction (sign ++ digits) rest

/-! ## Strings -/

/-- The character that a short escape stands for. -/
def shortEscape? : Char → Option Char
  | '"' => some '"'
  | '\\' => some '\\'
  | '/' => some '/'
  | 'b' => some '\x08'
  | 'f' => some '\x0c'
  | 'n' => some '\n'
  | 'r' => some '\r'
  | 't' => some '\t'
  | _ => none

/-- The unit that four hexadecimal digits stand for. -/
def unit? (a b c d : Char) : Option UInt16 :=
  (Text.hexFrom? 0 [a, b, c, d]).map UInt16.ofNat

/-- The fault of an escape for which fewer than four characters are left.  Lengths count in UTF-8:
four bytes are enough to see that they are no digits. -/
def shortUnit (cs : List Char) : Fault :=
  if 4 ≤ (String.ofList cs).utf8ByteSize then .malformed else .truncated

/-- The rest of a string after its opening quote; `before` holds the glyphs so far, last first. -/
def readString (before : List Glyph) : List Char → Json × List Char
  | [] => (.string before.reverse (.cut .truncated), [])
  | '"' :: r => (.string before.reverse .closed, r)
  | '\\' :: 'u' :: a :: b :: c :: d :: r => match unit? a b c d with
    | some u => readString (.unit u :: before) r
    | none => (.string before.reverse (.cut .malformed), r)
  | '\\' :: 'u' :: r => (.string before.reverse (.cut (shortUnit r)), [])
  | '\\' :: c :: r => match shortEscape? c with
    | some e => readString (.char e :: before) r
    | none => (.string before.reverse (.cut .malformed), r)
  | ['\\'] => (.string before.reverse (.cut .truncated), [])
  | c :: r =>
    if c.toNat < 0x20 then (.string before.reverse (.cut .malformed), r)
    else readString (.char c :: before) r

/-! ## Scalars and keys -/

/-- The fault of a place where no value begins. -/
def noValue : List Char → Fault
  | [] => .truncated
  | _ => .malformed

/-- A value that is no container, without blanks before it. -/
def readScalar (cs : List Char) : Json × List Char :=
  match cs with
  | 'n' :: r => readWord .null ['u', 'l', 'l'] r
  | 't' :: r => readWord .true ['r', 'u', 'e'] r
  | 'f' :: r => readWord .false ['a', 'l', 's', 'e'] r
  | '-' :: r => readNumber ['-'] r
  | '"' :: r => readString [] r
  | c :: r => if c.isDigit then readNumber [] cs else (.missing .malformed, r)
  | [] => (.missing .truncated, [])

/-- What stands at the place of a key.  A container there is not read past its bracket, since no
document goes on after it. -/
def readKey (cs : List Char) : Json × List Char :=
  match cs with
  | '[' :: r => (.array (.cut .malformed), r)
  | '{' :: r => (.object (.cut .malformed), r)
  | _ => readScalar cs

/-- The fault inside a scalar, if there is one. -/
def scalarFault? : Json → Option Fault
  | .word _ (.cut f) | .number _ (.cut f) | .string _ (.cut f) | .missing f => some f
  | _ => none

/-! ## Containers -/

/-- A container that is being read, with what was read of it, last first. -/
inductive Frame where
  | inArray (before : List Json)
  | inObject (before : List (Json × Json)) (key : Json)

/-- The container that ends with `v` and then with a fault. -/
def Frame.abandon (f : Fault) : Frame → Json → Json
  | .inArray before, v => .array (.ofList (.cut f) (v :: before).reverse)
  | .inObject before key, v => .object (.ofList (.cut f) ((key, v) :: before).reverse)

/-- The whole document, when reading stops inside all the containers of `stack`. -/
def abandonAll (f : Fault) (stack : List Frame) (v : Json) : Json :=
  stack.foldl (fun v frame => frame.abandon f v) v

/-- The state of reading. -/
inductive State where
  /-- A value is to be read from the text. -/
  | value (cs : List Char) (stack : List Frame)
  /-- The value `v` was read, and the text follows it. -/
  | after (v : Json) (cs : List Char) (stack : List Frame)
  /-- The document was read, and the text is left over. -/
  | final (v : Json) (cs : List Char)

/-- The state after a scalar. -/
def afterScalar (v : Json) (rest : List Char) (stack : List Frame) : State :=
  match scalarFault? v with
  | some f => .final (abandonAll f stack v) rest
  | none => .after v rest stack

/-- Read a key and the colon after it; `before` holds the members so far, last first. -/
def openMember (cs : List Char) (before : List (Json × Json)) (stack : List Frame) : State :=
  let stop (f : Fault) (key : Json) : State :=
    .final (abandonAll f stack (Frame.abandon f (.inObject before key) (.missing f))) []
  let (key, rest) := readKey (skipBlanks cs)
  match key with
  | .string _ .closed => match skipBlanks rest with
    | ':' :: r => .value r (.inObject before key :: stack)
    | r => stop (noValue r) key
  | .string _ (.cut f) => stop f key
  | key => stop ((scalarFault? key).getD .malformed) key

/-- One step of reading. -/
def State.step : State → State
  | .value cs stack => match skipBlanks cs with
    | '[' :: r => match skipBlanks r with
      | ']' :: r' => .after (.array .done) r' stack
      | _ => .value r (.inArray [] :: stack)
    | '{' :: r => match skipBlanks r with
      | '}' :: r' => .after (.object .done) r' stack
      | _ => openMember r [] stack
    | cs => let (v, rest) := readScalar cs; afterScalar v rest stack
  | .after v cs [] => .final v cs
  | .after v cs (.inArray before :: stack) => match skipBlanks cs with
    | ',' :: r => .value r (.inArray (v :: before) :: stack)
    | ']' :: r => .after (.array (.ofList .done (v :: before).reverse)) r stack
    | r => .final (abandonAll (noValue r) stack (Frame.abandon (noValue r) (.inArray before) v)) r
  | .after v cs (.inObject before key :: stack) => match skipBlanks cs with
    | ',' :: r => openMember r ((key, v) :: before) stack
    | '}' :: r => .after (.object (.ofList .done ((key, v) :: before).reverse)) r stack
    | r =>
      .final (abandonAll (noValue r) stack (Frame.abandon (noValue r) (.inObject before key) v)) r
  | .final v cs => .final v cs

/-- More steps than reading can take from a state on. -/
def State.bound : State → Nat
  | .value cs _ => 2 * cs.length + 2
  | .after _ cs _ => 2 * cs.length + 1
  | .final _ _ => 0

/-- Step until the document is read. -/
def State.run : Nat → State → Json × List Char
  | _, .final v cs => (v, cs)
  | 0, _ => (.missing .malformed, [])
  | n + 1, s => s.step.run n

/-- A document: its value, and whether anything but blanks follows it. -/
structure Document where
  root : Json
  trailing : Bool

/-- Read a whole text. -/
def Document.ofText (text : String) : Document :=
  let start := State.value text.toList []
  let (root, rest) := State.run start.bound start
  ⟨root, !(skipBlanks rest).isEmpty⟩

end TraceFold.Json
