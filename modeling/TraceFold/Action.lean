import TraceFold.Account
import TraceFold.Message

/-!
# Actions

What a trace turns out to have done.  `JettonTransfer` and `JettonMint` are the working forms, in
which a pattern collects what it finds; they start out blank and are filled step by step.
`Action` is the form in which a finished one is handed out: flat, with addresses in place of
accounts.
-/

namespace TraceFold

/-- A note that a transfer carries along. -/
inductive Note where
  | text (text : String)
  | encrypted (comment : EncryptedComment)
deriving DecidableEq

/-- The note in a forwarded body; only comments are notes. -/
def Note.ofBody? : Body → Option Note
  | .textComment words => some (.text words)
  | .encryptedComment comment => some (.encrypted comment)
  | _ => none

/-- A transfer of jettons from one owner to another, through their wallets. -/
structure JettonTransfer where
  /-- The owner of the sending wallet, unless no message started the transfer. -/
  sender : Option Account
  recipient : Option Account
  senderWallet : Address
  recipientWallet : Address
  master : Address
  amount : JettonAmount
  success : Bool
  note : Option Note
deriving DecidableEq

instance : Inhabited JettonTransfer := ⟨none, none, .zero, .zero, .zero, 0, false, none⟩

/-- Jettons made by their master.  The recipient stays the zero account if nobody was notified. -/
structure JettonMint where
  recipient : Account
  recipientWallet : Address
  master : Address
  amount : JettonAmount
  success : Bool
deriving DecidableEq

instance : Inhabited JettonMint := ⟨.ofAddress .zero, .zero, .zero, 0, false⟩

/-- The particulars of an action that is handed out. -/
inductive ActionDetails where
  | jettonTransfer (jetton : Address) (sender recipient : Option Address)
      (senderWallet recipientWallet : Address) (amount : JettonAmount) (note : Option Note)
  | jettonMint (jetton recipient recipientWallet : Address) (amount : JettonAmount)
deriving DecidableEq

/-- A recognized action, as it is handed out. -/
structure Action where
  success : Bool
  details : ActionDetails
deriving DecidableEq

namespace Action

/-- The name of the kind of action. -/
def kindName (a : Action) : String :=
  match a.details with
  | .jettonTransfer .. => "JettonTransfer"
  | .jettonMint .. => "JettonMint"

end Action

def JettonTransfer.toAction (t : JettonTransfer) : Action where
  success := t.success
  details := .jettonTransfer t.master (t.sender.map Account.address)
    (t.recipient.map Account.address) t.senderWallet t.recipientWallet t.amount t.note

def JettonMint.toAction (m : JettonMint) : Action where
  success := m.success
  details := .jettonMint m.master m.recipient.address m.recipientWallet m.amount

end TraceFold
