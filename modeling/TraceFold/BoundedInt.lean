/-!
# Bounded integers

Amounts are integers of a fixed width, and sums of amounts stop at the ends of their range
instead of wrapping or failing.  A `BoundedInt greatest` lies between `greatest` and its
complement `-greatest - 1`, which is how far integers of a fixed width reach.  `BoundedInt.clamp` is
the only way a result out of range is made to fit: every operation here is the operation on
integers followed by `clamp`.
-/

namespace TraceFold

/-- An integer that is at most `greatest` and at least `-greatest - 1`. -/
structure BoundedInt (greatest : Nat) where
  val : Int
  lower : -(greatest : Int) - 1 ≤ val
  upper : val ≤ greatest
deriving DecidableEq

namespace BoundedInt

variable {greatest : Nat}

/-- The number of the range nearest to `v`. -/
def clamp (v : Int) : BoundedInt greatest :=
  if low : v < -(greatest : Int) - 1 then ⟨-(greatest : Int) - 1, by omega, by omega⟩
  else if high : (greatest : Int) < v then ⟨greatest, by omega, by omega⟩
  else ⟨v, by omega, by omega⟩

instance : Inhabited (BoundedInt greatest) := ⟨clamp 0⟩

instance : OfNat (BoundedInt greatest) 0 := ⟨clamp 0⟩

/-- The sum, stopped at the ends of the range. -/
def add (a b : BoundedInt greatest) : BoundedInt greatest := clamp (a.val + b.val)

/-- The opposite, stopped at the ends of the range: the least number has no exact opposite. -/
def neg (a : BoundedInt greatest) : BoundedInt greatest := clamp (-a.val)

instance : Add (BoundedInt greatest) := ⟨add⟩

instance : Neg (BoundedInt greatest) := ⟨neg⟩

@[ext] theorem ext {a b : BoundedInt greatest} (h : a.val = b.val) : a = b := by
  cases a; cases b; simp_all

/-- A number already in the range is left alone. -/
theorem val_clamp {v : Int} (low : -(greatest : Int) - 1 ≤ v) (high : v ≤ greatest) :
    (clamp v : BoundedInt greatest).val = v := by
  rw [clamp, dif_neg (by omega), dif_neg (by omega)]

@[simp] theorem clamp_val (a : BoundedInt greatest) : clamp a.val = a :=
  ext (val_clamp a.lower a.upper)

theorem add_eq_clamp (a b : BoundedInt greatest) : a + b = clamp (a.val + b.val) :=
  rfl

theorem neg_eq_clamp (a : BoundedInt greatest) : -a = clamp (-a.val) :=
  rfl

@[simp] theorem val_zero : (0 : BoundedInt greatest).val = 0 :=
  val_clamp (by omega) (by omega)

/-- An amount in decimal digits. -/
def toText (a : BoundedInt greatest) : String := toString a.val

end BoundedInt

/-- Nanotons: the coin amounts a message carries, in 64 bits. -/
abbrev Nanotons := BoundedInt 9223372036854775807

/-- A net movement of jettons, in 128 bits. -/
abbrev JettonNet := BoundedInt 170141183460469231731687303715884105727

/-- An amount of jettons as a message states it: 128 bits without a sign. -/
abbrev JettonAmount := Fin 340282366920938463463374607431768211456

/-- A stated amount as a movement into a wallet: amounts past the range of movements count as the
greatest movement. -/
def JettonAmount.credit (amount : JettonAmount) : JettonNet :=
  BoundedInt.clamp amount.val

/-- A stated amount as a movement out of a wallet. -/
def JettonAmount.debit (amount : JettonAmount) : JettonNet :=
  -JettonAmount.credit amount

end TraceFold
