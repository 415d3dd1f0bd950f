import TraceFold.Account
import TraceFold.Message
import TraceFold.Timestamp

/-!
# Transactions

One transaction of an execution trace, as the decoder of the chain handed it over.  The opcode of
the inbound message may be known without its body and the body without the opcode;
`Transaction.withOpcode` fills in the second from the first.
-/

namespace TraceFold

/-- A raw execution record. -/
structure Transaction where
  /-- The account whose transaction this is. -/
  account : Account
  /-- The account that sent the inbound message, if another account did. -/
  source : Option Account
  /-- The opcode of the inbound message, decoded or not. -/
  opcode : Option UInt32
  body : Option Body
  success : Bool
  /-- The coins the inbound message carried. -/
  amount : Nanotons
  fees : Nanotons
  /-- The master of the jetton wallet that ran this transaction, where it is known. -/
  jettonMaster : Option Address
  time : Timestamp
deriving DecidableEq, Inhabited

namespace Transaction

/-- The operation of the decoded body, if there is one. -/
def operation? (tx : Transaction) : Option Operation :=
  tx.body.map Body.operation

/-- The decoded body carries the operation; an opcode alone does not count. -/
def carries (tx : Transaction) (op : Operation) : Bool :=
  tx.operation? == some op

/-- The transaction with its opcode taken from the body where it was left out. -/
def withOpcode (tx : Transaction) : Transaction :=
  match tx.opcode with
  | some _ => tx
  | none => { tx with opcode := tx.body.bind Body.opcode? }

end Transaction
end TraceFold
