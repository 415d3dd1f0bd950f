import TraceFold.Action
import TraceFold.Codec.Body

/-!
# The JSON form of actions

Amounts are written as texts, since they overflow the numbers of most readers.  The particulars
stand under a key that tells their kind; notes that are absent are left out.  Actions are only
ever written.
-/

namespace TraceFold

def JettonAmount.toJson (amount : JettonAmount) : Json := .ofText (toString amount.val)

/-- The members for a note. -/
def Note.members : Option Note → List (String × Json)
  | none => []
  | some (.text words) => [("comment", .ofText words)]
  | some (.encrypted c) => [("encrypted_comment", c.toJson)]

namespace Action

def detailsMember : ActionDetails → String × Json
  | .jettonTransfer jetton sender recipient senderWallet recipientWallet amount note =>
    ("jetton_transfer", .record
      ([("jetton", jetton.toJson), ("sender", .ofOption Address.toJson sender),
        ("recipient", .ofOption Address.toJson recipient),
        ("senders_wallet", senderWallet.toJson), ("recipients_wallet", recipientWallet.toJson),
        ("amount", amount.toJson)] ++ Note.members note))
  | .jettonMint jetton recipient recipientWallet amount =>
    ("jetton_mint", .record
      [("jetton", jetton.toJson), ("recipient", recipient.toJson),
       ("recipients_wallet", recipientWallet.toJson), ("amount", amount.toJson)])

def toJson (a : Action) : Json :=
  .record [("type", .ofText a.kindName), ("success", .ofBool a.success), detailsMember a.details]

end Action
end TraceFold
