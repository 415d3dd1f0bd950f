import TraceFold.Address
import TraceFold.Interfaces

/-!
# Accounts

An account touched by a transaction: its address together with what it is known to implement.
-/

namespace TraceFold

/-- An address and the interfaces known of it. -/
structure Account where
  address : Address
  interfaces : Interfaces
deriving DecidableEq, Inhabited

namespace Account

/-- An account of which only the address is known. -/
def ofAddress (address : Address) : Account := ⟨address, .none⟩

/-- The account with more interfaces known. -/
def withInterfaces (a : Account) (more : Interfaces) : Account :=
  { a with interfaces := a.interfaces.union more }

/-- The account implements every interface of the set. -/
def implements (a : Account) (wanted : Interfaces) : Bool :=
  a.interfaces.contains wanted

end Account
end TraceFold
