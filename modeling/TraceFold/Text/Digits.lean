/-!
# Digits

Decimal and hexadecimal digits, in ASCII only: a digit of another script is no digit here.
Reading gives natural numbers of any size; the range of a field is checked where the field is.
Writing is `Nat.toDigits`, lower case and without leading zeros, padded where a format asks for a
fixed width.
-/

namespace TraceFold.Text

/-- The value of one hexadecimal digit, of either case. -/
def hexValue? (c : Char) : Option Nat :=
  let n := c.toNat
  if 0x30 ≤ n ∧ n ≤ 0x39 then some (n - 0x30)
  else if 0x61 ≤ n ∧ n ≤ 0x66 then some (n - 0x61 + 10)
  else if 0x41 ≤ n ∧ n ≤ 0x46 then some (n - 0x41 + 10)
  else none

/-- The number a run of decimal digits stands for. -/
def decimalValue (digits : List Char) : Nat :=
  Nat.ofDigitChars 10 digits 0

/-- A non-empty run of decimal digits and nothing else. -/
def decimal? (cs : List Char) : Option Nat :=
  if cs ≠ [] ∧ cs.all Char.isDigit then some (decimalValue cs) else none

/-- The number a run of hexadecimal digits stands for, continuing from `acc`. -/
def hexFrom? (acc : Nat) : List Char → Option Nat
  | [] => some acc
  | c :: cs => match hexValue? c with
    | some d => hexFrom? (16 * acc + d) cs
    | none => none

/-- A non-empty run of hexadecimal digits and nothing else. -/
def hex? (cs : List Char) : Option Nat :=
  if cs = [] then none else hexFrom? 0 cs

/-- A natural number of 64 bits: decimal digits, after at most one `+`. -/
def word64? (cs : List Char) : Option Nat :=
  let digits := match cs with
    | '+' :: r => r
    | r => r
  match decimal? digits with
  | some n => if n < UInt64.size then some n else none
  | none => none

/-- A natural number in decimal digits. -/
def ofNat (n : Nat) : List Char :=
  Nat.toDigits 10 n

/-- An integer in decimal digits, with a sign only if it is negative. -/
def ofInt (i : Int) : List Char :=
  if i < 0 then '-' :: ofNat i.natAbs else ofNat i.natAbs

/-- Digits with zeros in front, up to a width; longer ones stay as they are. -/
def padLeft (width : Nat) (digits : List Char) : List Char :=
  List.replicate (width - digits.length) '0' ++ digits

/-- A natural number in decimal digits, with zeros in front up to a width. -/
def ofNatPadded (width n : Nat) : List Char :=
  padLeft width (ofNat n)

/-- A natural number in hexadecimal digits. -/
def hexOfNat (n : Nat) : List Char :=
  Nat.toDigits 16 n

/-- A byte in two hexadecimal digits. -/
def hexOfByte (b : UInt8) : List Char :=
  padLeft 2 (hexOfNat b.toNat)

end TraceFold.Text
