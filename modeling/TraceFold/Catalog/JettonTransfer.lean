import TraceFold.Pattern.Check
import TraceFold.Pattern.Merge

/-!
# Jetton transfers

A plain transfer of jettons on chain:

```text
sender wallet        JettonTransfer          (owner to own jetton wallet)
└── recipient wallet JettonInternalTransfer  (wallet to wallet)
    ├── recipient    JettonNotify            (optional, coins were passed on)
    └── sender       Excess                  (optional, left-over coins)
```

The transfer succeeds if both wallets did; whether the notice and the excess arrived does not
matter.
-/

namespace TraceFold.Catalog

/-- A body that is not the one that was expected. -/
def unexpectedBody (expected : Operation) (tx : Transaction) : BuildError :=
  .unexpectedBody expected tx.operation?

/-- The excess message that may end a chain of jetton messages; nothing is taken from it. -/
def excess {α : Type} : Pattern α where
  name := "excess"
  checks := [.isTransaction, .hasOperation .excess]
  builder := none
  children := []
  optional := true

namespace JettonTransfer

/-- From the sending wallet: everything the owner asked for. -/
def buildRequest (t : TraceFold.JettonTransfer) (tx : Transaction) :
    TraceFold.JettonTransfer × Option BuildError :=
  match tx.body with
  | some (.jettonTransfer request) =>
    ({ t with
        sender := tx.source
        senderWallet := tx.account.address
        recipient := some (.ofAddress request.destination)
        amount := request.amount
        success := tx.success
        note := request.forwardPayload.bind Note.ofBody?
        master := tx.jettonMaster.getD t.master }, none)
  | _ => (t, some (unexpectedBody .jettonTransfer tx))

/-- From the receiving wallet: its address, and the master if the sending wallet did not tell. -/
def buildArrival (t : TraceFold.JettonTransfer) (tx : Transaction) :
    TraceFold.JettonTransfer × Option BuildError :=
  let t := { t with
    recipientWallet := tx.account.address
    success := t.success && tx.success }
  if t.master.isZero then
    match tx.jettonMaster with
    | some master => ({ t with master := master }, none)
    | none => (t, some (.missingField "jetton master"))
  else (t, none)

/-- From the recipient: the account as it is known, and a note if the request had none. -/
def buildNotice (t : TraceFold.JettonTransfer) (tx : Transaction) :
    TraceFold.JettonTransfer × Option BuildError :=
  match tx.body with
  | some (.jettonNotify notice) =>
    ({ t with
        recipient := some tx.account
        note := t.note.or (notice.forwardPayload.bind Note.ofBody?) }, none)
  | _ => (t, some (unexpectedBody .jettonNotify tx))

def notice : Pattern TraceFold.JettonTransfer :=
  .building "jetton transfer: notify" [.hasOperation .jettonNotify] buildNotice [] true

def arrival : Pattern TraceFold.JettonTransfer :=
  .building "jetton transfer: internal transfer" [.hasOperation .jettonInternalTransfer]
    buildArrival [notice, excess] false

/-- The pattern of a transfer. -/
def pattern : Pattern TraceFold.JettonTransfer :=
  .building "jetton transfer" [.hasOperation .jettonTransfer] buildRequest [arrival] false

end JettonTransfer
end TraceFold.Catalog
