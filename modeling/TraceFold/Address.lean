import TraceFold.Text.Blank
import TraceFold.Text.Digits

/-!
# Account addresses

An account lives in a workchain and is named there by a 256-bit hash.  Its written form is the
workchain in decimal, a colon and the hash in 64 lower-case hexadecimal digits; reading also takes
upper-case digits, leading zeros of the workchain and blanks around the whole.  Addresses are
ordered by workchain, as a number, and then by hash, byte by byte.
-/

namespace TraceFold

open Std

/-- The address of an account. -/
structure Address where
  workchain : Int32
  hash : Vector UInt8 32
deriving DecidableEq

namespace Address

/-- The all-zero address of workchain 0, which stands for an address nobody filled in. -/
def zero : Address := ⟨0, .replicate 32 0⟩

instance : Inhabited Address := ⟨zero⟩

def isZero (a : Address) : Bool :=
  a.workchain == 0 && a.hash.toList.all (· == 0)

/-! ## Order -/

instance : Ord Address where
  compare := compareLex (compareOn workchain) (compareOn fun a => a.hash.toList)

instance : TransOrd Address :=
  inferInstanceAs (TransCmp (compareLex (compareOn workchain) (compareOn fun a => a.hash.toList)))

instance : LawfulEqOrd Address where
  eq_of_compare {a b} h := by
    obtain ⟨hw, hh⟩ := Ordering.then_eq_eq.mp
      (show compareLex (compareOn workchain) (compareOn fun a => a.hash.toList) a b = .eq from h)
    have hw := LawfulEqOrd.eq_of_compare hw
    have hh := Vector.toList_inj.1 (LawfulEqOrd.eq_of_compare hh)
    cases a; cases b; simp_all

/-! ## Written form -/

/-- The hash in hexadecimal digits. -/
def hashText (a : Address) : List Char :=
  a.hash.toList.flatMap Text.hexOfByte

/-- The one canonical form of an address. -/
def toChars (a : Address) : List Char :=
  Text.ofInt a.workchain.toInt ++ ':' :: a.hashText

def toText (a : Address) : String :=
  String.ofList a.toChars

/-! ## Reading -/

/-- The bytes written by pairs of hexadecimal digits. -/
def bytes? : List Char → Option (List UInt8)
  | [] => some []
  | [_] => none
  | hi :: lo :: rest => do
    let h ← Text.hexValue? hi
    let l ← Text.hexValue? lo
    let bytes ← bytes? rest
    some (UInt8.ofNat (16 * h + l) :: bytes)

/-- A hash in exactly 64 hexadecimal digits. -/
def hash? (cs : List Char) : Option (Vector UInt8 32) :=
  match bytes? cs with
  | some bytes => if h : bytes.length = 32 then some ⟨bytes.toArray, by simpa using h⟩ else none
  | none => none

/-- A workchain: an optional minus sign and one to ten decimal digits, in the range of 32 bits. -/
def workchain? (cs : List Char) : Option Int32 :=
  let (negative, digits) := match cs with
    | '-' :: r => (true, r)
    | r => (false, r)
  if 1 ≤ digits.length ∧ digits.length ≤ 10 ∧ digits.all Char.isDigit then
    let n : Int := Text.decimalValue digits
    let w := if negative then -n else n
    if -2147483648 ≤ w ∧ w ≤ 2147483647 then some (Int32.ofInt w) else none
  else none

/-- An address in any accepted spelling, without blanks around it. -/
def ofChars? (cs : List Char) : Option Address :=
  match cs.dropWhile (· != ':') with
  | ':' :: hex => do
    let w ← workchain? (cs.takeWhile (· != ':'))
    let h ← hash? hex
    some ⟨w, h⟩
  | _ => none

/-- An address in any accepted spelling, blanks around it allowed. -/
def ofText? (text : String) : Option Address :=
  ofChars? (Text.trim text.toList)

/-- What is said of a text that is no address; the text is shown with its blanks. -/
def invalidMessage (text : String) : String :=
  "invalid account address '" ++ text ++ "' (expected <workchain>:<64 hex digits>)"

end Address
end TraceFold
