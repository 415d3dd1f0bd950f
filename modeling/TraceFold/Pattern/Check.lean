import TraceFold.Pattern.Basic

/-!
# Checks

The vocabulary in which patterns describe bubbles.  Checks about transactions fail on any other
payload, so they need no guard.
-/

namespace TraceFold.Check

/-- The bubble holds a transaction of which `test` is true. -/
def onTransaction (test : Transaction → Bool) : Check := fun b =>
  match b.payload with
  | .transaction tx => test tx
  | _ => false

/-- The payload is of the given kind. -/
def isKind (kind : PayloadKind) : Check := fun b => b.payload.kind = kind

/-- A recognized transfer whose recipient implements all the given interfaces. -/
def isReceiver (wanted : Interfaces) : Check := fun b =>
  match b.payload with
  | .jettonTransfer t => t.recipient.any (·.implements wanted)
  | _ => false

/-- At least one of two checks holds. -/
def either (first second : Check) : Check := fun b => first b || second b

/-- The inbound message has this opcode, whether or not its body was decoded. -/
def hasOpcode (opcode : UInt32) : Check := onTransaction fun tx => tx.opcode == some opcode

/-- The decoded body carries this operation. -/
def hasOperation (op : Operation) : Check := onTransaction fun tx => tx.carries op

/-- The transaction is one of this account. -/
def isAccount (address : Address) : Check := onTransaction fun tx => tx.account.address == address

/-- The decoded body is a text comment with exactly this text. -/
def hasComment (text : String) : Check := onTransaction fun tx =>
  match tx.body with
  | some (.textComment t) => t == text
  | _ => false

/-- The account implements all the given interfaces. -/
def hasInterfaces (wanted : Interfaces) : Check :=
  onTransaction fun tx => tx.account.implements wanted

/-- The inbound amount lies between two bounds, which are included. -/
def amountWithin (low high : Nanotons) : Check :=
  onTransaction fun tx => low.val ≤ tx.amount.val && tx.amount.val ≤ high.val

end TraceFold.Check
