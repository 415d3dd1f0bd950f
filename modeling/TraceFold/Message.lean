import TraceFold.Address
import TraceFold.BoundedInt

/-!
# Message bodies

What a message asks for, as far as it was decoded.  Every body carries one `Operation`, and every
operation but `other` is announced on the wire by a fixed 32-bit opcode.  Jetton transfers and the
notices of them may carry a further body for the recipient, so bodies are nested.
-/

namespace TraceFold

/-- The operations that are told apart. -/
inductive Operation where
  | textComment
  | encryptedComment
  | jettonTransfer
  | jettonInternalTransfer
  | jettonNotify
  | excess
  | jettonBurn
  | other
deriving DecidableEq, Repr

namespace Operation

def name : Operation → String
  | textComment => "TextComment"
  | encryptedComment => "EncryptedComment"
  | jettonTransfer => "JettonTransfer"
  | jettonInternalTransfer => "JettonInternalTransfer"
  | jettonNotify => "JettonNotify"
  | excess => "Excess"
  | jettonBurn => "JettonBurn"
  | other => "Other"

/-- All operations, in the order in which they are listed to people. -/
def all : List Operation :=
  [textComment, encryptedComment, jettonTransfer, jettonInternalTransfer, jettonNotify, excess,
   jettonBurn, other]

/-- The operations by name. -/
def byName : List (String × Operation) :=
  all.map fun op => (op.name, op)

def ofName? (name : String) : Option Operation :=
  (byName.find? fun t => t.1 == name).map Prod.snd

/-- The opcode that announces the operation, where it is fixed. -/
def opcode? : Operation → Option UInt32
  | textComment => some 0x00000000
  | encryptedComment => some 0x2167da4b
  | jettonTransfer => some 0x0f8a7ea5
  | jettonInternalTransfer => some 0x178d4519
  | jettonNotify => some 0x7362d09c
  | excess => some 0xd53276db
  | jettonBurn => some 0x595f07bc
  | other => none

end Operation

/-- A comment that only its recipient can read; it is carried along unopened. -/
structure EncryptedComment where
  encryptionType : String
  cipherText : List UInt8
deriving DecidableEq, Inhabited

/-- An owner asks a jetton wallet to send jettons; `β` is the type of the body passed on. -/
structure TransferRequest (β : Type) where
  queryId : UInt64
  amount : JettonAmount
  destination : Address
  responseDestination : Option Address
  forwardAmount : Nanotons
  forwardPayload : Option β
deriving DecidableEq, Inhabited

/-- One jetton wallet hands jettons to another. -/
structure InternalTransfer where
  queryId : UInt64
  amount : JettonAmount
  sender : Option Address
  responseAddress : Option Address
  forwardAmount : Nanotons
deriving DecidableEq, Inhabited

/-- A jetton wallet tells its owner of received jettons; `β` is the type of the body passed on. -/
structure TransferNotice (β : Type) where
  queryId : UInt64
  amount : JettonAmount
  sender : Option Address
  forwardPayload : Option β
deriving DecidableEq, Inhabited

/-- An owner asks a jetton wallet to destroy jettons. -/
structure BurnRequest where
  queryId : UInt64
  amount : JettonAmount
  responseDestination : Option Address
deriving DecidableEq, Inhabited

/-- A decoded message body. -/
inductive Body where
  | textComment (text : String)
  | encryptedComment (comment : EncryptedComment)
  | jettonTransfer (request : TransferRequest Body)
  | jettonInternalTransfer (transfer : InternalTransfer)
  | jettonNotify (notice : TransferNotice Body)
  | excess (queryId : UInt64)
  | jettonBurn (request : BurnRequest)
  /-- A body of which only the opcode is known. -/
  | other (opcode : UInt32)
deriving Inhabited

namespace Body

/-- The operation a body carries. -/
def operation : Body → Operation
  | textComment _ => .textComment
  | encryptedComment _ => .encryptedComment
  | jettonTransfer _ => .jettonTransfer
  | jettonInternalTransfer _ => .jettonInternalTransfer
  | jettonNotify _ => .jettonNotify
  | excess _ => .excess
  | jettonBurn _ => .jettonBurn
  | other _ => .other

/-- The opcode that announces a body. -/
def opcode? : Body → Option UInt32
  | other opcode => some opcode
  | body => body.operation.opcode?

/-! ## Equality

Bodies are compared field by field, and then the bodies they pass on. -/

/-- Two bodies are the same. -/
def same : Body → Body → Bool
  | textComment s, textComment t => s == t
  | encryptedComment c, encryptedComment d => c == d
  | jettonTransfer ⟨q, a, d, r, f, none⟩, jettonTransfer ⟨q', a', d', r', f', none⟩ =>
    q == q' && a == a' && d == d' && r == r' && f == f'
  | jettonTransfer ⟨q, a, d, r, f, some b⟩, jettonTransfer ⟨q', a', d', r', f', some b'⟩ =>
    q == q' && a == a' && d == d' && r == r' && f == f' && same b b'
  | jettonInternalTransfer t, jettonInternalTransfer u => t == u
  | jettonNotify ⟨q, a, s, none⟩, jettonNotify ⟨q', a', s', none⟩ =>
    q == q' && a == a' && s == s'
  | jettonNotify ⟨q, a, s, some b⟩, jettonNotify ⟨q', a', s', some b'⟩ =>
    q == q' && a == a' && s == s' && same b b'
  | excess q, excess q' => q == q'
  | jettonBurn r, jettonBurn s => r == s
  | other o, other p => o == p
  | _, _ => false

theorem eq_of_same {a b : Body} (h : same a b = true) : a = b := by
  fun_induction same a b <;> simp_all

theorem same_self (a : Body) : same a a = true := by
  match a with
  | textComment _ | encryptedComment _ | jettonInternalTransfer _ | excess _ | jettonBurn _
  | other _ => simp [same]
  | jettonTransfer ⟨_, _, _, _, _, none⟩ | jettonNotify ⟨_, _, _, none⟩ => simp [same]
  | jettonTransfer ⟨_, _, _, _, _, some b⟩ => simp [same, same_self b]
  | jettonNotify ⟨_, _, _, some b⟩ => simp [same, same_self b]

instance : DecidableEq Body := fun a b =>
  decidable_of_iff (same a b = true) ⟨eq_of_same, fun h => h ▸ same_self a⟩

end Body
end TraceFold
