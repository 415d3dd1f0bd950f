import TraceFold.Codec.Account
import TraceFold.Flow

/-!
# The JSON form of value flows

Objects with addresses as keys, in the order of the addresses.  Flows are only ever written.
-/

namespace TraceFold

def AccountFlow.toJson (f : AccountFlow) : Json :=
  .record
    [("ton", .ofInt f.coins.val), ("fees", .ofInt f.fees.val),
     ("jettons", .record (f.jettons.entries.map fun e => (e.1.toText, .ofInt e.2.val)))]

def Flow.toJson (f : Flow) : Json :=
  .record
    [("accounts", .record (f.accounts.entries.map fun e => (e.1.toText, e.2.toJson)))]

end TraceFold
