import TraceFold.Codec.Body
import TraceFold.Proofs.Json.Records

/-!
# Message bodies that are read back

A body is decoded from its own JSON form if the levels that are left suffice for it
(`Body.ofJson_toJson`): `Body.levels` counts the containers that its form has inside one another.
Conversely, a body that was decoded, from whatever form, needs no more levels than were left for it
(`Body.levels_le`), since every container of its form stands for one that was decoded: bodies that
are passed on were decoded themselves, and the bytes of an encrypted comment, which stand in a list
of their own, may not be left out.
-/

namespace TraceFold

open Json (Decoded)

variable {v : Json} {n : Nat}

/-! ## Encrypted comments -/

lemma EncryptedComment.readRecord_toJson (c : EncryptedComment) :
    Json.readRecord (some (fields (n + 1))) default c.toJson = .ok c := by
  refine Json.readRecord_record rfl (by simp) ?_
  exact .cons (Json.Field.read_require (Json.readText_ofText _))
    (.cons (Json.Field.read_require (Json.readList_list fun b _ => Json.readUInt8_ofNat b))
      (.nil _))

/-- The bytes of a comment stand in a list, so there is a level left for it. -/
lemma EncryptedComment.levels_ne_zero {c : EncryptedComment}
    (h : Json.readRecord (some (fields n)) default v = .ok c) : n ≠ 0 := by
  rintro rfl
  obtain ⟨entries, hfills, hmem, hrequired⟩ := Json.filledWith_of_readRecord h
  obtain ⟨e, he, hname⟩ := hrequired "cipher_text" ⟨(fields 0)[1], List.getElem_mem _, rfl, rfl⟩
  obtain ⟨t, t', hread⟩ := hfills.exists_read he
  have hfield := hmem e he
  simp only [fields, List.mem_cons, List.not_mem_nil, or_false] at hfield
  rcases hfield with hfield | hfield
  · rw [hfield] at hname
    simp [Json.Field.require] at hname
  · rw [hfield] at hread
    obtain ⟨a, hlist, -⟩ := Json.map_eq_ok.1 hread
    exact Json.readList_none_ne_ok _ _ hlist

namespace Body

variable {b : Body}

/-- How many containers the JSON form of a body has inside one another. -/
def levels : Body → Nat
  | jettonTransfer ⟨_, _, _, _, _, some b⟩ | jettonNotify ⟨_, _, _, some b⟩ => levels b + 2
  | encryptedComment _ => 3
  | _ => 2

lemma two_le_levels (b : Body) : 2 ≤ b.levels := by
  unfold levels
  split <;> omega

lemma payloadToJson_eq (payload : Option Body) :
    payloadToJson payload = .ofOption toJson payload := by
  cases payload <;> rfl

lemma levels_jettonTransfer_le {r : TransferRequest Body} :
    (jettonTransfer r).levels ≤ n + 2 ↔ ∀ b, r.forwardPayload = some b → b.levels ≤ n := by
  obtain ⟨queryId, amount, destination, response, forwardAmount, _ | b⟩ := r <;>
    simp [levels]

lemma levels_jettonNotify_le {r : TransferNotice Body} :
    (jettonNotify r).levels ≤ n + 2 ↔ ∀ b, r.forwardPayload = some b → b.levels ≤ n := by
  obtain ⟨queryId, amount, sender, _ | b⟩ := r <;> simp [levels]

/-! ## Written bodies -/

lemma written_addressOption (a : Option Address) : (Json.ofOption Address.toJson a).Written :=
  Json.written_ofOption fun a _ => .text a.toText

lemma written_toJson (b : Body) : b.toJson.Written := by
  have hone {name : String} {v : Json} (hv : v.Written) : (Json.record [(name, v)]).Written :=
    .record (by simpa using hv)
  match b with
  | textComment _ | excess _ | other _ => exact hone (.record (by simp))
  | encryptedComment c =>
    refine hone (.record ?_)
    have hbytes : (Json.list (c.cipherText.map fun b => .ofNat b.toNat)).Written :=
      .list (by simp)
    simp [hbytes]
  | jettonTransfer ⟨_, _, _, _, _, none⟩ | jettonNotify ⟨_, _, _, none⟩
  | jettonInternalTransfer _ | jettonBurn _ =>
    refine hone (.record ?_)
    simp [written_addressOption, payloadToJson, Address.toJson]
  | jettonTransfer ⟨_, _, _, _, _, some b⟩ | jettonNotify ⟨_, _, _, some b⟩ =>
    refine hone (.record ?_)
    simp [written_addressOption, payloadToJson, Address.toJson, written_toJson b]

/-! ## Bodies that were written -/

lemma ofJson_record (op : Operation) (h : readContent (some (n, ofJson n)) op v = .ok b) :
    ofJson (n + 2) (.record [(op.name, v)]) = .ok b :=
  Json.readTagged_record (by cases op <;> rfl) h

lemma ofJson_null_ne_ok (n : Nat) (e : Json.Ending) (b : Body) :
    ofJson n (.word .null e) ≠ .ok b := by
  unfold ofJson
  split <;> exact nofun

lemma readOption_addressOption (a : Option Address) :
    Json.readOption Json.readAddress (.ofOption Address.toJson a) = .ok a :=
  Json.readOption_ofOption (fun _ _ => nofun) fun a _ => Json.readAddress_toJson a

lemma readOption_payload {payload : Option Body}
    (h : ∀ b, payload = some b → ofJson n b.toJson = .ok b) :
    Json.readOption (ofJson n) (payloadToJson payload) = .ok payload := by
  rw [payloadToJson_eq]
  exact Json.readOption_ofOption (ofJson_null_ne_ok n) h

lemma ofJson_transfer {r : TransferRequest Body}
    (h : ∀ b, r.forwardPayload = some b → ofJson n b.toJson = .ok b) :
    ofJson (n + 2) (jettonTransfer r).toJson = .ok (jettonTransfer r) := by
  refine ofJson_record .jettonTransfer (Json.map_eq_ok.2 ⟨r, ?_, rfl⟩)
  refine Json.readRecord_record rfl (by simp) ?_
  exact .cons (Json.Field.read_optional (Json.readUInt64_ofNat _)) <|
    .cons (Json.Field.read_require (Json.readAmount_ofNat _)) <|
    .cons (Json.Field.read_require (Json.readAddress_toJson _)) <|
    .cons (Json.Field.read_optional (readOption_addressOption _)) <|
    .cons (Json.Field.read_optional (Json.readNanotons_ofInt _)) <|
    .cons (Json.Field.read_optional (readOption_payload h)) (.nil _)

lemma ofJson_notice {r : TransferNotice Body}
    (h : ∀ b, r.forwardPayload = some b → ofJson n b.toJson = .ok b) :
    ofJson (n + 2) (jettonNotify r).toJson = .ok (jettonNotify r) := by
  refine ofJson_record .jettonNotify (Json.map_eq_ok.2 ⟨r, ?_, rfl⟩)
  refine Json.readRecord_record rfl (by simp) ?_
  exact .cons (Json.Field.read_optional (Json.readUInt64_ofNat _)) <|
    .cons (Json.Field.read_require (Json.readAmount_ofNat _)) <|
    .cons (Json.Field.read_optional (readOption_addressOption _)) <|
    .cons (Json.Field.read_optional (readOption_payload h)) (.nil _)

lemma ofJson_internal (t : InternalTransfer) :
    ofJson (n + 2) (jettonInternalTransfer t).toJson = .ok (jettonInternalTransfer t) := by
  refine ofJson_record .jettonInternalTransfer (Json.map_eq_ok.2 ⟨t, ?_, rfl⟩)
  refine Json.readRecord_record rfl (by simp) ?_
  exact .cons (Json.Field.read_optional (Json.readUInt64_ofNat _)) <|
    .cons (Json.Field.read_require (Json.readAmount_ofNat _)) <|
    .cons (Json.Field.read_optional (readOption_addressOption _)) <|
    .cons (Json.Field.read_optional (readOption_addressOption _)) <|
    .cons (Json.Field.read_optional (Json.readNanotons_ofInt _)) (.nil _)

lemma ofJson_burn (r : BurnRequest) :
    ofJson (n + 2) (jettonBurn r).toJson = .ok (jettonBurn r) := by
  refine ofJson_record .jettonBurn (Json.map_eq_ok.2 ⟨r, ?_, rfl⟩)
  refine Json.readRecord_record rfl (by simp) ?_
  exact .cons (Json.Field.read_optional (Json.readUInt64_ofNat _)) <|
    .cons (Json.Field.read_require (Json.readAmount_ofNat _)) <|
    .cons (Json.Field.read_optional (readOption_addressOption _)) (.nil _)

/-- A body is decoded from its own form if the levels that are left suffice for it. -/
theorem ofJson_toJson (h : b.levels ≤ n) : ofJson n b.toJson = .ok b := by
  induction n using Nat.strongRecOn generalizing b with
  | ind n ih =>
    have htwo := two_le_levels b
    obtain ⟨n, rfl⟩ : ∃ k, n = k + 2 := ⟨n - 2, by omega⟩
    cases b with
    | textComment t =>
      refine ofJson_record .textComment (Json.map_eq_ok.2 ⟨t, ?_, rfl⟩)
      refine Json.readRecord_record rfl (by simp) ?_
      exact .cons (Json.Field.read_require (Json.readText_ofText t)) (.nil t)
    | encryptedComment c =>
      obtain ⟨n, rfl⟩ : ∃ k, n = k + 1 := ⟨n - 1, by simp only [levels] at h; omega⟩
      exact ofJson_record .encryptedComment
        (Json.map_eq_ok.2 ⟨c, EncryptedComment.readRecord_toJson c, rfl⟩)
    | jettonTransfer r =>
      exact ofJson_transfer fun b hb => ih n (by omega) (levels_jettonTransfer_le.1 h b hb)
    | jettonInternalTransfer t => exact ofJson_internal t
    | jettonNotify r =>
      exact ofJson_notice fun b hb => ih n (by omega) (levels_jettonNotify_le.1 h b hb)
    | excess queryId =>
      refine ofJson_record .excess (Json.map_eq_ok.2 ⟨queryId, ?_, rfl⟩)
      refine Json.readRecord_record rfl (by simp) ?_
      exact .cons (Json.Field.read_optional (Json.readUInt64_ofNat queryId)) (.nil queryId)
    | jettonBurn r => exact ofJson_burn r
    | other opcode =>
      refine ofJson_record .other (Json.map_eq_ok.2 ⟨opcode, ?_, rfl⟩)
      refine Json.readRecord_record rfl (by simp) ?_
      exact .cons (Json.Field.read_require (Json.readUInt32_ofNat opcode)) (.nil opcode)

/-! ## Bodies that were decoded -/

/-- The payload of a transfer request that was decoded was decoded itself. -/
lemma payload_of_readRecord_transfer {nested : Json → Decoded Body} {r : TransferRequest Body}
    (h : Json.readRecord (some (transferFields nested)) default v = .ok r) :
    ∀ b, r.forwardPayload = some b → ∃ w, nested w = .ok b := by
  refine Json.exists_read_of_readRecord h rfl fun f hf w t t' hread => ?_
  simp only [transferFields, List.mem_cons, List.not_mem_nil, or_false] at hf
  rcases hf with rfl | rfl | rfl | rfl | rfl | rfl
  all_goals obtain ⟨a, ha, rfl⟩ := Json.map_eq_ok.1 hread
  case inr.inr.inr.inr.inr => exact .inr ha
  all_goals exact .inl rfl

/-- The payload of a transfer notice that was decoded was decoded itself. -/
lemma payload_of_readRecord_notice {nested : Json → Decoded Body} {r : TransferNotice Body}
    (h : Json.readRecord (some (noticeFields nested)) default v = .ok r) :
    ∀ b, r.forwardPayload = some b → ∃ w, nested w = .ok b := by
  refine Json.exists_read_of_readRecord h rfl fun f hf w t t' hread => ?_
  simp only [noticeFields, List.mem_cons, List.not_mem_nil, or_false] at hf
  rcases hf with rfl | rfl | rfl | rfl
  all_goals obtain ⟨a, ha, rfl⟩ := Json.map_eq_ok.1 hread
  case inr.inr.inr => exact .inr ha
  all_goals exact .inl rfl

lemma levels_of_readContent (hnested : ∀ v b, ofJson n v = .ok b → b.levels ≤ n)
    {op : Operation} (h : readContent (some (n, ofJson n)) op v = .ok b) : b.levels ≤ n + 2 := by
  cases op
  case encryptedComment =>
    obtain ⟨c, hc, rfl⟩ := Json.map_eq_ok.1 h
    have hlist := EncryptedComment.levels_ne_zero hc
    simp only [levels]
    omega
  case jettonTransfer =>
    obtain ⟨r, hr, rfl⟩ := Json.map_eq_ok.1 h
    refine levels_jettonTransfer_le.2 fun b hb => ?_
    obtain ⟨w, hw⟩ := payload_of_readRecord_transfer hr b hb
    exact hnested w b hw
  case jettonNotify =>
    obtain ⟨r, hr, rfl⟩ := Json.map_eq_ok.1 h
    refine levels_jettonNotify_le.2 fun b hb => ?_
    obtain ⟨w, hw⟩ := payload_of_readRecord_notice hr b hb
    exact hnested w b hw
  all_goals
    obtain ⟨r, -, rfl⟩ := Json.map_eq_ok.1 h
    simp [levels]

lemma readContent_none_ne_ok (op : Operation) (v : Json) (b : Body) :
    readContent none op v ≠ .ok b := by
  intro h
  cases op
  all_goals
    obtain ⟨r, hr, -⟩ := Json.map_eq_ok.1 h
    exact Json.readRecord_none_ne_ok _ _ _ hr

/-- A body that was decoded needs no more levels than were left. -/
theorem levels_le (h : ofJson n v = .ok b) : b.levels ≤ n := by
  induction n using Nat.strongRecOn generalizing v b with
  | ind n ih =>
    obtain _ | _ | n := n
    all_goals obtain ⟨content, op, w, hcontent, hread⟩ := Json.exists_content_of_readTagged h
    · cases hcontent
    · obtain rfl := Option.some.inj hcontent
      exact absurd hread (readContent_none_ne_ok op w b)
    · obtain rfl := Option.some.inj hcontent
      exact levels_of_readContent (fun v b => ih n (by omega)) hread

end Body
end TraceFold
