import TraceFold.Codec.Account
import TraceFold.Message

/-!
# The JSON form of message bodies

A body is an object whose only key is the name of its operation and whose value is a record of the
particulars.  A body that is passed on stands inside that record, two levels further down.
-/

namespace TraceFold

open Json (Decoded)

/-! ## Encrypted comments -/

def EncryptedComment.toJson (c : EncryptedComment) : Json :=
  .record [("encryption_type", .ofText c.encryptionType),
    ("cipher_text", .list (c.cipherText.map fun b => .ofNat b.toNat))]

/-- The fields of an encrypted comment whose inside has `levels` levels left. -/
def EncryptedComment.fields (levels : Nat) : List (Json.Field EncryptedComment) :=
  [.require "encryption_type" Json.readText fun encryptionType c => { c with encryptionType },
   .require "cipher_text" (Json.readList (if levels = 0 then none else some Json.readUInt8))
     fun cipherText c => { c with cipherText }]

/-- The fields of an encrypted comment, if there is a level left for it. -/
def EncryptedComment.fieldsAt : Nat → Option (List (Json.Field EncryptedComment))
  | 0 => none
  | levels + 1 => some (fields levels)

def EncryptedComment.ofJson (levels : Nat) (v : Json) : Decoded EncryptedComment :=
  Json.readRecord (fieldsAt levels) default v

namespace Body

/-! ## Writing -/

mutual

def toJson : Body → Json
  | .textComment text => .record [("TextComment", .record [("text", .ofText text)])]
  | .encryptedComment c => .record [("EncryptedComment", c.toJson)]
  | .jettonTransfer ⟨queryId, amount, destination, response, forwardAmount, payload⟩ =>
    .record [("JettonTransfer", .record
      [("query_id", .ofNat queryId.toNat), ("amount", .ofNat amount.val),
       ("destination", destination.toJson),
       ("response_destination", .ofOption Address.toJson response),
       ("forward_ton_amount", .ofInt forwardAmount.val),
       ("forward_payload", payloadToJson payload)])]
  | .jettonInternalTransfer t =>
    .record [("JettonInternalTransfer", .record
      [("query_id", .ofNat t.queryId.toNat), ("amount", .ofNat t.amount.val),
       ("from", .ofOption Address.toJson t.sender),
       ("response_address", .ofOption Address.toJson t.responseAddress),
       ("forward_ton_amount", .ofInt t.forwardAmount.val)])]
  | .jettonNotify ⟨queryId, amount, sender, payload⟩ =>
    .record [("JettonNotify", .record
      [("query_id", .ofNat queryId.toNat), ("amount", .ofNat amount.val),
       ("sender", .ofOption Address.toJson sender),
       ("forward_payload", payloadToJson payload)])]
  | .excess queryId => .record [("Excess", .record [("query_id", .ofNat queryId.toNat)])]
  | .jettonBurn r =>
    .record [("JettonBurn", .record
      [("query_id", .ofNat r.queryId.toNat), ("amount", .ofNat r.amount.val),
       ("response_destination", .ofOption Address.toJson r.responseDestination)])]
  | .other opcode => .record [("Other", .record [("op_code", .ofNat opcode.toNat)])]

def payloadToJson : Option Body → Json
  | none => .null
  | some b => toJson b

end

/-! ## Reading -/

def textFields : List (Json.Field String) :=
  [.require "text" Json.readText fun text _ => text]

def transferFields (nested : Json → Decoded Body) : List (Json.Field (TransferRequest Body)) :=
  [.optional "query_id" Json.readUInt64 fun queryId r => { r with queryId },
   .require "amount" Json.readAmount fun amount r => { r with amount },
   .require "destination" Json.readAddress fun destination r => { r with destination },
   .optional "response_destination" (Json.readOption Json.readAddress)
     fun responseDestination r => { r with responseDestination },
   .optional "forward_ton_amount" Json.readNanotons fun forwardAmount r => { r with forwardAmount },
   .optional "forward_payload" (Json.readOption nested)
     fun forwardPayload r => { r with forwardPayload }]

def internalFields : List (Json.Field InternalTransfer) :=
  [.optional "query_id" Json.readUInt64 fun queryId t => { t with queryId },
   .require "amount" Json.readAmount fun amount t => { t with amount },
   .optional "from" (Json.readOption Json.readAddress) fun sender t => { t with sender },
   .optional "response_address" (Json.readOption Json.readAddress)
     fun responseAddress t => { t with responseAddress },
   .optional "forward_ton_amount" Json.readNanotons fun forwardAmount t => { t with forwardAmount }]

def noticeFields (nested : Json → Decoded Body) : List (Json.Field (TransferNotice Body)) :=
  [.optional "query_id" Json.readUInt64 fun queryId n => { n with queryId },
   .require "amount" Json.readAmount fun amount n => { n with amount },
   .optional "sender" (Json.readOption Json.readAddress) fun sender n => { n with sender },
   .optional "forward_payload" (Json.readOption nested)
     fun forwardPayload n => { n with forwardPayload }]

def excessFields : List (Json.Field UInt64) :=
  [.optional "query_id" Json.readUInt64 fun queryId _ => queryId]

def burnFields : List (Json.Field BurnRequest) :=
  [.optional "query_id" Json.readUInt64 fun queryId r => { r with queryId },
   .require "amount" Json.readAmount fun amount r => { r with amount },
   .optional "response_destination" (Json.readOption Json.readAddress)
     fun responseDestination r => { r with responseDestination }]

def otherFields : List (Json.Field UInt32) :=
  [.require "op_code" Json.readUInt32 fun opcode _ => opcode]

/-- The particulars of an operation.  `inside` tells the levels left inside the record, with the
decoder for bodies there; it is `none` if no level is left for the record itself. -/
def readContent (inside : Option (Nat × (Json → Decoded Body))) (op : Operation) (v : Json) :
    Decoded Body :=
  match op with
  | .textComment =>
    (Json.readRecord (inside.map fun _ => textFields) "" v).map .textComment
  | .encryptedComment =>
    (Json.readRecord (inside.map fun i => EncryptedComment.fields i.1) default v).map
      .encryptedComment
  | .jettonTransfer =>
    (Json.readRecord (inside.map fun i => transferFields i.2) default v).map .jettonTransfer
  | .jettonInternalTransfer =>
    (Json.readRecord (inside.map fun _ => internalFields) default v).map .jettonInternalTransfer
  | .jettonNotify =>
    (Json.readRecord (inside.map fun i => noticeFields i.2) default v).map .jettonNotify
  | .excess => (Json.readRecord (inside.map fun _ => excessFields) 0 v).map .excess
  | .jettonBurn => (Json.readRecord (inside.map fun _ => burnFields) default v).map .jettonBurn
  | .other => (Json.readRecord (inside.map fun _ => otherFields) 0 v).map .other

/-- A body, where `levels` levels are left: one goes to the object with the tag and one to the
record of the particulars. -/
def ofJson : Nat → Json → Decoded Body
  | 0 => Json.readTagged Operation.byName none
  | 1 => Json.readTagged Operation.byName (some (readContent none))
  | levels + 2 =>
    Json.readTagged Operation.byName (some (readContent (some (levels, ofJson levels))))

end Body
end TraceFold
