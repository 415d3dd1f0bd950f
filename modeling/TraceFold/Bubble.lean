import TraceFold.Action
import TraceFold.Flow

/-!
# Bubbles

One node of a trace.  At first every bubble holds a transaction; when a group of bubbles is
recognized they become one bubble that holds the action.  Whatever it holds, a bubble keeps the
accounts and the value flow of all the transactions that went into it.
-/

namespace TraceFold

/-- The place of a bubble in its forest.  It never changes and is never used again. -/
abbrev BubbleId := Nat

/-- How a place is shown in messages. -/
def BubbleId.toText (id : BubbleId) : String := "BubbleId(" ++ toString id ++ ")"

/-- The kinds of payload. -/
inductive PayloadKind where
  | transaction
  | jettonTransfer
  | jettonMint
deriving DecidableEq, Repr

namespace PayloadKind

def name : PayloadKind → String
  | transaction => "Tx"
  | jettonTransfer => "JettonTransfer"
  | jettonMint => "JettonMint"

end PayloadKind

/-- What a bubble holds. -/
inductive Payload where
  | transaction (tx : Transaction)
  | jettonTransfer (t : JettonTransfer)
  | jettonMint (m : JettonMint)
deriving DecidableEq

namespace Payload

def kind : Payload → PayloadKind
  | transaction _ => .transaction
  | jettonTransfer _ => .jettonTransfer
  | jettonMint _ => .jettonMint

def transaction? : Payload → Option Transaction
  | transaction tx => some tx
  | _ => none

/-- The action to hand out; a transaction is none. -/
def action? : Payload → Option Action
  | transaction _ => none
  | jettonTransfer t => some t.toAction
  | jettonMint m => some m.toAction

end Payload

/-- A node of a trace. -/
structure Bubble where
  payload : Payload
  /-- The accounts of everything that went into the bubble; one may occur repeatedly. -/
  accounts : List Address
  children : List BubbleId
  flow : Flow
deriving DecidableEq

namespace Bubble

/-- A childless bubble with no accounts and no flow. -/
def ofPayload (payload : Payload) : Bubble := ⟨payload, [], [], .empty⟩

/-- A childless bubble for a transaction, with its own account first and then the sender. -/
def ofTransaction (tx : Transaction) : Bubble where
  payload := .transaction tx
  accounts := tx.account.address :: (tx.source.map Account.address).toList
  children := []
  flow := .ofTransaction tx

instance : Inhabited Bubble := ⟨ofTransaction default⟩

def transaction? (b : Bubble) : Option Transaction := b.payload.transaction?

/-- A bubble in one line, for messages. -/
def describe (b : Bubble) : String :=
  let head := match b.payload with
    | .transaction tx =>
      let opcode := match tx.opcode with
        | some n => " opcode=0x" ++ String.ofList (Text.padLeft 8 (Text.hexOfNat n.toNat))
        | none => ""
      let body := match tx.operation? with
        | some op => " body=" ++ op.name
        | none => ""
      "tx account=" ++ tx.account.address.toText ++ " success=" ++ toString tx.success
        ++ " amount=" ++ tx.amount.toText ++ opcode ++ body ++ " utime=" ++ tx.time.toShortText
    | other => other.kind.name
  head ++ " children=" ++ toString b.children.length

end Bubble
end TraceFold
