import TraceFold.Json.Basic
import TraceFold.Text.Digits

/-!
# The value of a JSON number

A number without fraction and exponent is an integer if it fits into 64 bits, with or without a
sign; every other number is a float.  Only two things are asked of a float here: that it is not an
integer, and whether it is too large for the format of 64 bits.

That second question depends on how the value is computed: the leading digits that fit into 64
bits are taken as they are, the rest only count, and the rounded digits are multiplied by a rounded
power of ten.  `Decimal.overflows` does the same with exact natural numbers.
-/

namespace TraceFold.Json

/-- What a number may be taken for. -/
inductive Number where
  | integer (i : Int)
  /-- A float in range; no field takes one, so its value is not kept. -/
  | float
  /-- A float beyond the largest finite one. -/
  | tooLarge
deriving DecidableEq, Repr

/-- The parts of a number's lexeme. -/
structure Decimal where
  negative : Bool
  whole : List Char
  /-- The digits after the point; empty if there is no point. -/
  fraction : List Char
  /-- The exponent, if one is written: its sign and its digits. -/
  exponent : Option (Bool × List Char)

namespace Decimal

/-- The sign and digits of an exponent, after its letter. -/
def exponentOf : List Char → Bool × List Char
  | '-' :: ds => (true, ds)
  | '+' :: ds => (false, ds)
  | ds => (false, ds)

/-- Take a lexeme apart; it has the form that the reader of numbers accepts. -/
def ofLexeme (lexeme : List Char) : Decimal :=
  let (negative, cs) := match lexeme with
    | '-' :: r => (true, r)
    | r => (false, r)
  let whole := cs.takeWhile Char.isDigit
  let cs := cs.dropWhile Char.isDigit
  let (fraction, cs) := match cs with
    | '.' :: r => (r.takeWhile Char.isDigit, r.dropWhile Char.isDigit)
    | r => ([], r)
  let exponent := match cs with
    | _ :: r => some (exponentOf r)
    | [] => none
  { negative, whole, fraction, exponent }

/-- Take digits into `acc` while the result stays within 64 bits; the digits left are returned. -/
def accumulate (acc : Nat) : List Char → Nat × List Char
  | [] => (acc, [])
  | d :: ds =>
    let next := 10 * acc + (d.toNat - 48)
    if next < UInt64.size then accumulate next ds else (acc, d :: ds)

/-- The significand and the power of ten that go with it. -/
def scaled (d : Decimal) : Nat × Int :=
  let (s, dropped) := accumulate 0 d.whole
  let (s, left) := accumulate s d.fraction
  let used := d.fraction.length - left.length
  let written : Int := match d.exponent with
    | some (true, ds) => -(Text.decimalValue ds : Int)
    | some (false, ds) => Text.decimalValue ds
    | none => 0
  (s, dropped.length - used + written)

/-- A natural number rounded to 53 binary digits, a tie going to the even neighbour. -/
def round53 (n : Nat) : Nat :=
  let excess := Nat.log2 n + 1 - 53
  let unit := Nat.pow 2 excess
  let q := n / unit
  let r := n % unit
  if 2 * r < unit ∨ (2 * r = unit ∧ q % 2 = 0) then q * unit else (q + 1) * unit

/-- The value is too large for a float.  Powers of ten above the 308th do not exist as floats, and
products from half a unit above the largest float on are rounded to infinity. -/
def overflows (d : Decimal) : Bool :=
  let (s, e) := d.scaled
  if s = 0 ∨ e < 0 then false
  else if 308 < e then true
  else Nat.pow 2 1024 - Nat.pow 2 970 ≤ round53 s * round53 (Nat.pow 10 e.toNat)

end Decimal

/-- What a number is, from the lexeme of one that was read to its end. -/
def Number.ofLexeme (lexeme : List Char) : Number :=
  let d := Decimal.ofLexeme lexeme
  let n := Text.decimalValue d.whole
  if d.fraction = [] ∧ d.exponent.isNone ∧ d.negative = false ∧ n < UInt64.size then .integer n
  else if d.fraction = [] ∧ d.exponent.isNone ∧ d.negative = true ∧ 0 < n ∧
      n ≤ 9223372036854775808 then
    .integer (-(n : Int))
  else if d.overflows then .tooLarge
  else .float

end TraceFold.Json
