import TraceFold.Text.Blank
import TraceFold.Text.Digits

/-!
# Contract interfaces

What an account is known to implement, as a set of flags in a 32-bit word.  Five bits have names;
the others are kept when they are read and written back as one hexadecimal number, so no set is
lost in its written form.

The written form lists the names in bit order with ` | ` between them, then the unnamed bits.
Reading takes the parts in any order and with any blanks; the empty text is the empty set.
-/

namespace TraceFold

/-- A set of interface flags. -/
structure Interfaces where
  bits : UInt32
deriving DecidableEq

namespace Interfaces

/-- The empty set. -/
def none : Interfaces := ⟨0⟩

instance : Inhabited Interfaces := ⟨none⟩

def wallet : Interfaces := ⟨1⟩
def jettonMaster : Interfaces := ⟨2⟩
def jettonWallet : Interfaces := ⟨4⟩
def nftItem : Interfaces := ⟨8⟩
def dexPool : Interfaces := ⟨16⟩

/-- The flags that have a name, in bit order. -/
def named : List (String × Interfaces) :=
  [("WALLET", wallet), ("JETTON_MASTER", jettonMaster), ("JETTON_WALLET", jettonWallet),
   ("NFT_ITEM", nftItem), ("DEX_POOL", dexPool)]

/-- All the bits that have a name. -/
def namedBits : UInt32 := 31

/-- The flags of either set. -/
def union (a b : Interfaces) : Interfaces := ⟨a.bits ||| b.bits⟩

/-- Every flag of `b` is in `a`. -/
def contains (a b : Interfaces) : Bool := a.bits &&& b.bits == b.bits

/-! ## Written form -/

/-- The parts of the written form: names in bit order, then the unnamed bits in one number. -/
def parts (a : Interfaces) : List String :=
  let names := (named.filter fun f => a.contains f.2).map Prod.fst
  let rest := a.bits &&& ~~~namedBits
  if rest == 0 then names else names ++ ["0x" ++ String.ofList (Text.hexOfNat rest.toNat)]

def toText (a : Interfaces) : String :=
  " | ".intercalate a.parts

/-! ## Reading -/

/-- A number of 32 bits in hexadecimal digits, after at most one `+`. -/
def hexBits? (cs : List Char) : Option Interfaces :=
  let digits := match cs with
    | '+' :: r => r
    | r => r
  match Text.hex? digits with
  | some n => if n < UInt32.size then some ⟨UInt32.ofNat n⟩ else .none
  | .none => .none

/-- One part, blanks dropped: a flag's name or `0x` and a number.  An empty part is refused. -/
def part? (cs : List Char) : Option Interfaces :=
  match Text.trim cs with
  | '0' :: 'x' :: digits => hexBits? digits
  | name => (named.find? fun f => f.1.toList == name).map Prod.snd

/-- The pieces of a text between bars; there is always at least one. -/
def splitBars : List Char → List (List Char)
  | [] => [[]]
  | '|' :: cs => [] :: splitBars cs
  | c :: cs => match splitBars cs with
    | [] => [[c]]
    | p :: ps => (c :: p) :: ps

/-- The union of all the parts, if each of them is one. -/
def unionParts? : List (List Char) → Option Interfaces
  | [] => some none
  | p :: ps => do
    let first ← part? p
    let rest ← unionParts? ps
    some (first.union rest)

/-- A set in any accepted spelling. -/
def ofText? (text : String) : Option Interfaces :=
  let cs := text.toList
  if Text.trim cs = [] then some none else unionParts? (splitBars cs)

end Interfaces
end TraceFold
