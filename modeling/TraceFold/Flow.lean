import TraceFold.SortedMap
import TraceFold.Transaction

/-!
# Value flows

Who gained and who lost, summed over any number of transactions: for every account the coins
received less those sent, the fees paid, and the net movement of every jetton.  All sums stop at
the ends of their range, so merging flows is associative and commutative only as long as no sum
reaches an end.

An account that was named has an entry even if nothing moved.
-/

namespace TraceFold

/-- The net movement of one account. -/
structure AccountFlow where
  coins : Nanotons
  fees : Nanotons
  /-- Net movements by jetton master. -/
  jettons : SortedMap Address JettonNet
deriving DecidableEq

namespace AccountFlow

/-- Nothing moved. -/
def zero : AccountFlow := ⟨0, 0, .empty⟩

instance : Inhabited AccountFlow := ⟨zero⟩

def addCoins (f : AccountFlow) (amount : Nanotons) : AccountFlow :=
  { f with coins := f.coins + amount }

def addFees (f : AccountFlow) (amount : Nanotons) : AccountFlow :=
  { f with fees := f.fees + amount }

def addJettons (f : AccountFlow) (master : Address) (amount : JettonNet) : AccountFlow :=
  { f with jettons := f.jettons.upsert master fun old => old.getD 0 + amount }

/-- The sum of two movements of one account. -/
def merge (f g : AccountFlow) : AccountFlow :=
  g.jettons.entries.foldl (fun f e => f.addJettons e.1 e.2) ((f.addCoins g.coins).addFees g.fees)

end AccountFlow

/-- The net movements of all accounts that were named. -/
structure Flow where
  accounts : SortedMap Address AccountFlow
deriving DecidableEq

namespace Flow

/-- Nobody was named. -/
def empty : Flow := ⟨.empty⟩

instance : Inhabited Flow := ⟨empty⟩

def isEmpty (f : Flow) : Bool := f.accounts.isEmpty

/-- Change the movement of one account. -/
def modify (f : Flow) (account : Address) (change : AccountFlow → AccountFlow) : Flow :=
  ⟨f.accounts.upsert account fun old => change (old.getD .zero)⟩

def addCoins (f : Flow) (account : Address) (amount : Nanotons) : Flow :=
  f.modify account (·.addCoins amount)

def addFees (f : Flow) (account : Address) (amount : Nanotons) : Flow :=
  f.modify account (·.addFees amount)

def addJettons (f : Flow) (account master : Address) (amount : JettonNet) : Flow :=
  f.modify account (·.addJettons master amount)

/-- The sum of two flows: the second is folded into the first, account by account. -/
def merge (f g : Flow) : Flow :=
  g.accounts.entries.foldl (fun f e => f.modify e.1 (·.merge e.2)) f

/-- The jettons a wallet books for a body it ran: received by an internal transfer, sent by a
transfer, destroyed by a burn. -/
def bookedJettons? : Body → Option JettonNet
  | .jettonInternalTransfer t => some t.amount.credit
  | .jettonTransfer r => some r.amount.debit
  | .jettonBurn r => some r.amount.debit
  | _ => none

/-- The flow of one transaction.  The inbound coins move from the sender, where one is known, to
the account; the account pays the fees, if there are any; and a wallet whose master is known books
its jettons. -/
def ofTransaction (tx : Transaction) : Flow :=
  let account := tx.account.address
  let f := empty.addCoins account tx.amount
  let f := match tx.source with
    | some source => f.addCoins source.address (-tx.amount)
    | none => f
  let f := if tx.fees = 0 then f else f.addFees account tx.fees
  match tx.jettonMaster, tx.body.bind bookedJettons? with
  | some master, some amount => f.addJettons account master amount
  | _, _ => f

end Flow
end TraceFold
