import TraceFold.Codec.Body
import TraceFold.Transaction

/-!
# The JSON form of transactions

A record in which only the account is required.  Reading a document that was written here gives
back the transaction that was written, as long as its bodies are not nested beyond the limit of
documents.
-/

namespace TraceFold.Transaction

open Json (Decoded)

def toJson (tx : Transaction) : Json :=
  .record
    [("account", tx.account.toJson), ("input_from", .ofOption Account.toJson tx.source),
     ("op_code", .ofOption (fun n => .ofNat n.toNat) tx.opcode),
     ("decoded_body", .ofOption Body.toJson tx.body), ("success", .ofBool tx.success),
     ("input_amount", .ofInt tx.amount.val), ("total_fees", .ofInt tx.fees.val),
     ("jetton_master", .ofOption Address.toJson tx.jettonMaster),
     ("utime", .ofText tx.time.toText)]

/-- The fields of a record whose inside has `levels` levels left. -/
def fields (levels : Nat) : List (Json.Field Transaction) :=
  [.require "account" (Account.ofJson levels) fun account tx => { tx with account },
   .optional "input_from" (Json.readOption (Account.ofJson levels))
     fun source tx => { tx with source },
   .optional "op_code" (Json.readOption Json.readUInt32) fun opcode tx => { tx with opcode },
   .optional "decoded_body" (Json.readOption (Body.ofJson levels)) fun body tx => { tx with body },
   .optional "success" Json.readBool fun success tx => { tx with success },
   .optional "input_amount" Json.readNanotons fun amount tx => { tx with amount },
   .optional "total_fees" Json.readNanotons fun fees tx => { tx with fees },
   .optional "jetton_master" (Json.readOption Json.readAddress)
     fun jettonMaster tx => { tx with jettonMaster },
   .optional "utime" Json.readTimestamp fun time tx => { tx with time }]

/-- The fields of a record, if there is a level left for it. -/
def fieldsAt : Nat → Option (List (Json.Field Transaction))
  | 0 => none
  | levels + 1 => some (fields levels)

def ofJson (levels : Nat) (v : Json) : Decoded Transaction :=
  Json.readRecord (fieldsAt levels) default v

end TraceFold.Transaction
