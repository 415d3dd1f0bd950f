import TraceFold.Codec.Transaction
import TraceFold.Proofs.Codec.Bodies

/-!
# Records that survive being written and read again

A transaction, a message body or an account that was decoded from any text is decoded again from
the text that is written for it, and that text is written for the second one as well
(`Json.Survives`).  The text that was read first need not look like the one that is written:
its records may be arrays, its members stand in any order with unknown ones among them, and
values with a default may have been left out.

Every account can be read, and a transaction or body exactly if it is not nested too deeply for a
document (`Json.records_survive`).  No other value has a limit: numbers survive to the ends of
their ranges, and texts, bytes, flags, addresses and instants whatever they are.
-/

namespace TraceFold

open Json (Decoded)

variable {v : Json} {n : Nat}

/-! ## Accounts -/

namespace Account

lemma ofJson_toJson (a : Account) : ofJson (n + 1) a.toJson = .ok a := by
  refine Json.readRecord_record rfl (by simp) ?_
  exact .cons (Json.Field.read_require (Json.readAddress_toJson a.address)) <|
    .cons (Json.Field.read_optional (Json.readInterfaces_toJson a.interfaces)) (.nil a)

lemma written_toJson (a : Account) : a.toJson.Written :=
  .record (by simp [Address.toJson, Interfaces.toJson])

end Account

/-! ## Transactions -/

namespace Transaction

variable {tx : Transaction}

lemma written_toJson (tx : Transaction) : tx.toJson.Written := by
  have hsource : (Json.ofOption Account.toJson tx.source).Written :=
    Json.written_ofOption fun a _ => a.written_toJson
  have hopcode : (Json.ofOption (fun n : UInt32 => .ofNat n.toNat) tx.opcode).Written :=
    Json.written_ofOption fun n _ => Json.written_ofNat n.toNat
  have hbody : (Json.ofOption Body.toJson tx.body).Written :=
    Json.written_ofOption fun b _ => b.written_toJson
  refine .record ?_
  simp [tx.account.written_toJson, hsource, hopcode, hbody, Body.written_addressOption]

/-- A transaction is decoded from its own form if the levels inside suffice for its body. -/
lemma ofJson_toJson (h : ∀ b, tx.body = some b → b.levels ≤ n + 1) :
    ofJson (n + 2) tx.toJson = .ok tx := by
  refine Json.readRecord_record rfl (by simp) ?_
  exact .cons (Json.Field.read_require (Account.ofJson_toJson _)) <|
    .cons (Json.Field.read_optional
      (Json.readOption_ofOption (fun _ _ => nofun) fun a _ => a.ofJson_toJson)) <|
    .cons (Json.Field.read_optional
      (Json.readOption_ofOption (fun _ _ => nofun) fun n _ => Json.readUInt32_ofNat n)) <|
    .cons (Json.Field.read_optional
      (Json.readOption_ofOption (Body.ofJson_null_ne_ok _) fun b hb => b.ofJson_toJson (h b hb))) <|
    .cons (Json.Field.read_optional (Json.readBool_ofBool _)) <|
    .cons (Json.Field.read_optional (Json.readNanotons_ofInt _)) <|
    .cons (Json.Field.read_optional (Json.readNanotons_ofInt _)) <|
    .cons (Json.Field.read_optional (Body.readOption_addressOption _)) <|
    .cons (Json.Field.read_optional (Json.readTimestamp_ofText _)) (.nil tx)

/-- The body of a transaction that was decoded needs no more levels than were left inside. -/
lemma levels_body_le (h : ofJson (n + 1) v = .ok tx) :
    ∀ b, tx.body = some b → b.levels ≤ n := by
  have hbody : ∀ b, tx.body = some b → ∃ w, Body.ofJson n w = .ok b := by
    refine Json.exists_read_of_readRecord h rfl fun f hf w t t' hread => ?_
    simp only [fields, List.mem_cons, List.not_mem_nil, or_false] at hf
    rcases hf with rfl | rfl | rfl | rfl | rfl | rfl | rfl | rfl | rfl
    all_goals obtain ⟨a, ha, rfl⟩ := Json.map_eq_ok.1 hread
    case inr.inr.inr.inl => exact .inr ha
    all_goals exact .inl rfl
  intro b hb
  obtain ⟨w, hw⟩ := hbody b hb
  exact Body.levels_le hw

end Transaction

/-! ## Documents -/

namespace Json

variable {α : Type} {read : Nat → Json → Decoded α} {write : α → Json}

/-- Values survive being written and read again, and those that fit are all that are ever read. -/
structure Survives (read : Nat → Json → Decoded α) (write : α → Json) (fits : α → Prop) :
    Prop where
  /-- Whatever text a value is decoded from, it is decoded again from the text written for it. -/
  again : ∀ text a, decode read text = .ok a → decode read (write a).render = .ok a
  /-- That text is written again for what is decoded from it. -/
  stable : ∀ text a, decode read text = .ok a →
    (decode read (write a).render).map (fun b => (write b).render) = .ok (write a).render
  decoded_iff : ∀ a, (∃ text, decode read text = .ok a) ↔ fits a

/-- The value in a document was decoded with all levels of a document left. -/
lemma read_root_of_decode {text : String} {a : α} (h : decode read text = .ok a) :
    read maxLevels (Document.ofText text).root = .ok a := by
  obtain ⟨b, hread, h⟩ := bind_eq_ok.1 h
  split at h
  · cases h
  · rwa [← Except.ok.inj h]

/-- It suffices that what fits is decoded from its own form and nothing else is decoded at all. -/
lemma survives_of_read {fits : α → Prop} (hwritten : ∀ a, (write a).Written)
    (hfits : ∀ v a, read maxLevels v = .ok a → fits a)
    (hread : ∀ a, fits a → read maxLevels (write a) = .ok a) : Survives read write fits := by
  have hdecoded : ∀ text a, decode read text = .ok a → fits a :=
    fun text a h => hfits _ a (read_root_of_decode h)
  have hagain : ∀ a, fits a → decode read (write a).render = .ok a := by
    intro a ha
    rw [decode_render (hwritten a), hread a ha]
  refine ⟨fun text a h => hagain a (hdecoded text a h), fun text a h => ?_, fun a => ⟨?_, ?_⟩⟩
  · rw [hagain a (hdecoded text a h)]
    rfl
  · rintro ⟨text, h⟩
    exact hdecoded text a h
  · exact fun ha => ⟨_, hagain a ha⟩

/-- Transactions, message bodies and accounts survive being written and read again.  All of them can
be read but for bodies that are nested more deeply than a document may be. -/
theorem records_survive :
    Survives Transaction.ofJson Transaction.toJson
      (fun tx => ∀ b, tx.body = some b → b.levels + 1 ≤ maxLevels) ∧
    Survives Body.ofJson Body.toJson (fun b => b.levels ≤ maxLevels) ∧
    Survives Account.ofJson Account.toJson (fun _ => True) := by
  refine ⟨survives_of_read Transaction.written_toJson (fun v tx h b hb => ?_) fun tx h => ?_,
    survives_of_read Body.written_toJson (fun v b => Body.levels_le) fun b => Body.ofJson_toJson,
    survives_of_read Account.written_toJson (fun _ _ _ => trivial) fun a _ => a.ofJson_toJson⟩
  · exact Nat.succ_le_succ (Transaction.levels_body_le h b hb)
  · exact Transaction.ofJson_toJson fun b hb => Nat.le_of_succ_le_succ (h b hb)

/-- The text of a transaction as an array that ends early, with a comment passed on to the owner
of a jetton wallet. -/
def noticeText : String :=
  "[[\"" ++ Address.zero.toText ++ "\"],null,null, \x7b\"JettonNotify\":" ++
    "[8,64,null,\x7b\"TextComment\":[\"\\u0001\\u00e9\"]\x7d]\x7d,true]"

def noticeTransaction : Transaction :=
  { (default : Transaction) with
    body := some (.jettonNotify { (default : TransferNotice Body) with
      queryId := 8, amount := ⟨64, by decide⟩
      forwardPayload := some (.textComment "\x01é") })
    success := true }

/-- Read from an array or from the object that is written for it, it is the same transaction. -/
theorem records_survive_notice : decode Transaction.ofJson noticeText = .ok noticeTransaction ∧
    decode Transaction.ofJson noticeTransaction.toJson.render = .ok noticeTransaction ∧
    noticeTransaction.toJson.render ≠ noticeText := by
  have hread : decode Transaction.ofJson noticeText = .ok noticeTransaction := by decide +kernel
  exact ⟨hread, records_survive.1.again noticeText _ hread, by decide +kernel⟩

end Json
end TraceFold
