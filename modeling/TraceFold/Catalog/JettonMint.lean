import TraceFold.Catalog.JettonTransfer

/-!
# Jetton mints

A mint has the shape of a transfer with the jetton master in the place of the sending wallet.  It
is recognized by its opcode, whatever its body; two opcodes are in use.  It succeeds if the
master, the wallet and, where there is one, the notice did.
-/

namespace TraceFold.Catalog.JettonMint

/-- The opcode with which a liquidity pool mints. -/
def poolOpcode : UInt32 := 0xb56b9598

/-- The opcode of the standard message to a jetton master. -/
def masterOpcode : UInt32 := 0x1674b0a0

/-- From the master: its own address. -/
def buildOrder (m : TraceFold.JettonMint) (tx : Transaction) :
    TraceFold.JettonMint × Option BuildError :=
  ({ m with master := tx.account.address, success := tx.success }, none)

/-- From the receiving wallet: the amount and its address. -/
def buildArrival (m : TraceFold.JettonMint) (tx : Transaction) :
    TraceFold.JettonMint × Option BuildError :=
  match tx.body with
  | some (.jettonInternalTransfer transfer) =>
    ({ m with
        amount := transfer.amount
        recipientWallet := tx.account.address
        success := m.success && tx.success }, none)
  | _ => (m, some (unexpectedBody .jettonInternalTransfer tx))

/-- From the recipient: the account as it is known. -/
def buildNotice (m : TraceFold.JettonMint) (tx : Transaction) :
    TraceFold.JettonMint × Option BuildError :=
  ({ m with recipient := tx.account, success := m.success && tx.success }, none)

def notice : Pattern TraceFold.JettonMint :=
  .building "jetton mint: notify" [.hasOperation .jettonNotify] buildNotice [] true

def arrival : Pattern TraceFold.JettonMint :=
  .building "jetton mint: internal transfer" [.hasOperation .jettonInternalTransfer]
    buildArrival [notice, excess] false

/-- The pattern of a mint. -/
def pattern : Pattern TraceFold.JettonMint :=
  .building "jetton mint" [.either (.hasOpcode poolOpcode) (.hasOpcode masterOpcode)]
    buildOrder [arrival] false

end TraceFold.Catalog.JettonMint
