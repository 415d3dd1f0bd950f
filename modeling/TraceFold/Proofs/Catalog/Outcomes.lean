import TraceFold.Proofs.Catalog.Chain
import TraceFold.Proofs.Saturation.Invariant

/-!
# What becomes of a transfer

When a chain is drawn together, its top takes in the internal transfer and the ends, in the order in
which they stand below it, and gets what hung on any of them (`Chain.Effect`).  That is the same for
all chains.

For a transfer, `Found` says what has to be there and `Tells` what is made of it.  Three builders
write on one draft, so what the recognized transfer says of the recipient, of the master and of the
note depends on which of them come to write (`tells_drafted`).  `transfer_outcome` puts it together:
a merge succeeds just where a transfer is found, and then has this outcome.
-/

namespace TraceFold

variable {α : Type} {F : Forest} {p c x id : BubbleId} {sent arrived : Transaction}
  {request : TransferRequest Body}

namespace Forest

lemma txOf_eq {tx : Transaction} (h : F.transaction? id = some tx) : F.txOf id = tx := by
  rw [txOf, h]; rfl

/-! ## The ends of a chain in order -/

/-- The notice and the excess message below an internal transfer, in the order in which they stand
among its children. -/
def endsInOrder (F : Forest) (id : BubbleId) : List BubbleId :=
  (F.children id).filter (F.ends id).contains

lemma mem_endsInOrder : x ∈ F.endsInOrder id ↔ x ∈ F.ends id := by
  rw [endsInOrder, List.mem_filter, List.contains_iff_mem]
  exact and_iff_right_of_imp ends_mem_children

/-- Siblings come one after the other in the walk with parents first. -/
lemma WellFormed.children_sublist_preOrder (hF : F.WellFormed) (hid : F.contains id = true) :
    (F.children id).Sublist F.preOrder := by
  refine List.Sublist.trans ?_ (hF.below_sublist_preOrder hid)
  obtain ⟨b, hb⟩ := contains_iff.1 hid
  obtain ⟨n, hn⟩ : ∃ n, F.slots.size = n + 1 := by
    have := lt_size_of_contains hid
    exact ⟨F.slots.size - 1, by omega⟩
  have hchild : ∀ x ∈ b.children, [x].Sublist (F.below (fun _ => true) n x) := by
    intro x hx
    rw [← children_eq hb] at hx
    have hlt := hF.lt_of_mem_children hx
    rw [List.singleton_sublist, hF.mem_below (hF.children_live id x hx) (by omega)]
    exact .refl
  have hsub := List.Sublist.flatMap_right b.children hchild
  rw [hn, below_of_inside rfl hb, children_eq hb]
  rw [List.flatMap_singleton'] at hsub
  exact hsub.trans (List.sublist_cons_self _ _)

end Forest

open Forest

/-! ## Chains -/

namespace Chain

variable (k : Chain α)

lemma inOrder_claims (hF : F.WellFormed) (h : k.pattern.claim? F p = some (k.claims F p c))
    (hfirst : F.first? .jettonInternalTransfer p = some c) :
    (k.claims F p c).inOrder F p = p :: c :: F.endsInOrder c := by
  obtain ⟨rest, hinOrder, -, hmem⟩ := k.exists_inOrder hF h
  have hwhole : (p :: c :: rest).Sublist F.preOrder := by
    rw [← hinOrder, Pattern.inOrder_eq hF h]
    exact List.filter_sublist
  have hrest : rest.Sublist F.preOrder :=
    ((List.sublist_cons_self c rest).trans (List.sublist_cons_self p _)).trans hwhole
  have hends : (F.endsInOrder c).Sublist F.preOrder :=
    List.filter_sublist.trans
      (hF.children_sublist_preOrder (contains_of_carries (first?_eq_some hfirst).2))
  -- Both are the same part of one walk.
  have hsame : rest = F.endsInOrder c := by
    calc rest = F.preOrder.filter rest.contains :=
          (filter_contains_of_sublist hrest hF.preOrder_nodup).symm
      _ = F.preOrder.filter (F.endsInOrder c).contains := by
          refine List.filter_congr fun x _ => ?_
          rw [Bool.eq_iff_iff, List.contains_iff_mem, List.contains_iff_mem, hmem, mem_endsInOrder]
      _ = F.endsInOrder c := filter_contains_of_sublist hends hF.preOrder_nodup
  rw [hinOrder, hsame]

/-- What is different after a chain with the top `p` and the internal transfer `c` was drawn
together. -/
structure Effect (F F' : Forest) (p c : BubbleId) : Prop where
  /-- The internal transfer and the ends are gone, and nothing else. -/
  gone_iff : ∀ x, F.contains x = true ∧ F'.contains x = false ↔
    x = c ∨ F.first? .jettonNotify c = some x ∨ F.first? .excess c = some x
  frame : ∀ x, x ≠ p → x ≠ c → x ∉ F.ends c → F'.get? x = F.get? x
  roots : F'.roots = F.roots
  /-- The accounts of the top come twice. -/
  accounts : F'.accountsOf p =
    F.accountsOf p ++ F.accountsOf p ++ F.accountsOf c ++ (F.endsInOrder c).flatMap F.accountsOf
  /-- The flow of the top is counted twice. -/
  flow : F'.flowOf p = (F.endsInOrder c).foldl (fun flow x => flow.merge (F.flowOf x))
    (((F.flowOf p).merge (F.flowOf p)).merge (F.flowOf c))
  /-- What hung on the chain hangs on its top, in the order of the walk with parents first. -/
  children : F'.children p = F.preOrder.filter fun x =>
    !(F.ends c ++ [c]).contains x && (p :: c :: F.ends c).any fun y => (F.children y).contains x

lemma hanging_bubbles (hF : F.WellFormed)
    (hfirst : F.first? .jettonInternalTransfer p = some c) :
    F.hanging (F.ends c ++ [c] ++ [p]) = F.preOrder.filter fun x =>
      !(F.ends c ++ [c]).contains x &&
        (p :: c :: F.ends c).any fun y => (F.children y).contains x := by
  have hcp := (first?_eq_some hfirst).1
  rw [hanging]
  refine List.filter_congr fun x _ => ?_
  rw [Bool.eq_iff_iff]
  simp only [Bool.and_eq_true, Bool.not_eq_true', List.any_eq_true, List.contains_iff_mem,
    ← Bool.not_eq_true, List.mem_append, List.mem_cons, List.not_mem_nil, or_false]
  constructor
  · rintro ⟨hnot, y, hy, hxy⟩
    exact ⟨fun hx => hnot (.inl hx), y, by tauto, hxy⟩
  · rintro ⟨hnot, y, hy, hxy⟩
    refine ⟨?_, y, by tauto, hxy⟩
    rintro (hx | rfl)
    · exact hnot hx
    · -- The top lies above everything in the chain, so it hangs on none of it.
      have hbelow : F.Below x y := by
        rcases hy with rfl | rfl | hy
        · exact .refl F y
        · exact below_of_mem_children hcp
        · exact .of_child hcp (below_of_mem_children (ends_mem_children hy))
      exact hF.not_below_of_mem_children hxy hbelow

variable [Target α]

/-- A chain that is merged is drawn together. -/
theorem effect (hF : F.WellFormed) (hmerged : (k.pattern.merge F p).merged = true)
    (hfirst : F.first? .jettonInternalTransfer p = some c) :
    Effect F (k.pattern.merge F p).forest p c := by
  cases Pattern.mergeCase k.pattern F p with
  | notFound _ _ hno => rw [hno] at hmerged; cases hmerged
  | failed _ _ _ _ _ hno => rw [hno] at hmerged; cases hmerged
  | success claims b hclaim hrep hforest =>
    obtain ⟨-, c', hfirst', rfl⟩ := k.eq_claims hF hclaim
    obtain rfl : c = c' := Option.some.inj (hfirst.symm.trans hfirst')
    have h := Pattern.commit_effect hF hclaim hrep
    rw [← hforest] at h
    have hinOrder := (Pattern.inOrder_eq hF hclaim).symm.trans (k.inOrder_claims hF hclaim hfirst)
    have hbubbles : ∀ x, x ∈ (k.claims F p c).bubbles ↔ x ∈ F.ends c ∨ x = c ∨ x = p := by
      intro x
      rw [bubbles_claims, List.mem_append, List.mem_append, List.mem_singleton,
        List.mem_singleton, or_assoc]
    have hcp := (first?_eq_some hfirst).1
    constructor
    · intro x
      rw [h.gone_iff, hbubbles, mem_ends]
      constructor
      · rintro ⟨hx | rfl | rfl, hne⟩
        · exact .inr hx
        · exact .inl rfl
        · exact absurd rfl hne
      · rintro (rfl | hx)
        · refine ⟨.inr (.inl rfl), ?_⟩
          rintro rfl
          exact hF.not_below_of_mem_children hcp (.refl F x)
        · refine ⟨.inl hx, ?_⟩
          rintro rfl
          exact hF.not_below_of_mem_children (ends_mem_children (mem_ends.2 hx))
            (below_of_mem_children hcp)
    · intro x hp hc hends
      refine h.frame x fun hx => ?_
      rcases (hbubbles x).1 hx with hx | hx | hx
      · exact hends hx
      · exact hc hx
      · exact hp hx
    · exact h.roots
    · rw [h.accounts, hinOrder, List.flatMap_cons, List.flatMap_cons]
      simp only [List.append_assoc]
    · rw [h.flow, hinOrder, List.foldl_cons, List.foldl_cons]
    · rw [h.children, bubbles_claims, hanging_bubbles hF hfirst]

lemma payload_of_merged (hF : F.WellFormed) (hmerged : (k.pattern.merge F p).merged = true)
    (hfirst : F.first? .jettonInternalTransfer p = some c) :
    ((k.pattern.merge F p).forest.get? p).map Bubble.payload =
      some (Target.payload (k.drafted F p c)) := by
  cases k.outcome hF p with
  | missing _ _ hno _ => rw [hno] at hmerged; cases hmerged
  | failed _ _ _ _ _ _ hno _ => rw [hno] at hmerged; cases hmerged
  | success c' _ hfirst' _ _ hpayload _ _ =>
    obtain rfl := Option.some.inj (hfirst.symm.trans hfirst')
    exact hpayload

/-- A chain is merged where its upper links are there and the builder for the internal transfer does
not fail. -/
lemma merged_iff (hF : F.WellFormed) : (k.pattern.merge F p).merged = true ↔
    ∃ c, k.isTopAt F p = true ∧ F.first? .jettonInternalTransfer p = some c ∧
      (k.arrived F p c).2 = none := by
  cases k.outcome hF p with
  | missing hlinks _ hmerged _ =>
    refine iff_of_false (Bool.eq_false_iff.1 hmerged) ?_
    rintro ⟨c, htop, hfirst, -⟩
    rcases hlinks with hno | hno
    · exact Bool.eq_false_iff.1 hno htop
    · rw [hfirst] at hno
      cases hno
  | failed c e _ hfirst hfailure _ hmerged _ =>
    refine iff_of_false (Bool.eq_false_iff.1 hmerged) ?_
    rintro ⟨c', -, hfirst', hok⟩
    obtain rfl := Option.some.inj (hfirst.symm.trans hfirst')
    rw [hok] at hfailure
    cases hfailure
  | success c htop hfirst hbuilt _ _ hmerged _ =>
    exact iff_of_true hmerged ⟨c, htop, hfirst, hbuilt⟩

end Chain

/-! ## Transfers -/

lemma Address.isZero_iff {a : Address} : a.isZero = true ↔ a = .zero := by
  obtain ⟨workchain, hash⟩ := a
  rw [Address.isZero, Bool.and_eq_true, beq_iff_eq, List.all_eq_true, Address.zero,
    Address.mk.injEq]
  refine and_congr_right fun _ => ?_
  constructor
  · intro h
    refine Vector.toList_inj.1 ?_
    rw [Vector.toList_replicate]
    exact List.eq_replicate_iff.2 ⟨Vector.length_toList, fun b hb => beq_iff_eq.1 (h b hb)⟩
  · rintro rfl b hb
    rw [Vector.toList_replicate] at hb
    exact beq_iff_eq.2 (List.eq_of_mem_replicate hb)

namespace Catalog.JettonTransfer

lemma buildRequest_eq (hbody : sent.body = some (.jettonTransfer request)) :
    buildRequest default sent = ({
      sender := sent.source
      recipient := some ⟨request.destination, .none⟩
      senderWallet := sent.account.address
      recipientWallet := .zero
      master := sent.jettonMaster.getD .zero
      amount := request.amount
      success := sent.success
      note := request.forwardPayload.bind Note.ofBody? }, none) := by
  rw [buildRequest, hbody]; rfl

lemma onNotice_fst {tx : Transaction} {notice : TransferNotice Body}
    (hbody : tx.body = some (.jettonNotify notice)) (t : TraceFold.JettonTransfer) :
    (chain.onNotice t tx).1 = { t with
      recipient := some tx.account
      note := t.note.or (notice.forwardPayload.bind Note.ofBody?) } := by
  show (buildNotice t tx).1 = _
  rw [buildNotice, hbody]

/-- A transfer that can be merged: the transaction `sent` at `p` carries the request, that of the
first internal transfer below it is `arrived`, and one of them tells the jetton master. -/
structure Found (F : Forest) (p c : BubbleId) (sent arrived : Transaction)
    (request : TransferRequest Body) : Prop where
  top : F.transaction? p = some sent
  body : sent.body = some (.jettonTransfer request)
  first : F.first? .jettonInternalTransfer p = some c
  arrival : F.transaction? c = some arrived
  master : (∃ m, sent.jettonMaster = some m ∧ m ≠ .zero) ∨ arrived.jettonMaster.isSome = true

/-- What the links of a transfer tell of it.  The notice is looked for below the internal transfer
`c`; what became of it and of an excess message does not matter for the success. -/
structure Tells (F : Forest) (c : BubbleId) (sent arrived : Transaction)
    (request : TransferRequest Body) (t : TraceFold.JettonTransfer) : Prop where
  sender : t.sender = sent.source
  senderWallet : t.senderWallet = sent.account.address
  recipientWallet : t.recipientWallet = arrived.account.address
  amount : t.amount = request.amount
  success : t.success = (sent.success && arrived.success)
  master_sent : ∀ m, sent.jettonMaster = some m → m ≠ .zero → t.master = m
  master_arrived : (∀ m, sent.jettonMaster = some m → m = .zero) →
    arrived.jettonMaster = some t.master
  /-- A notice tells the recipient in full, and the note if the request has none. -/
  notified : ∀ n, F.first? .jettonNotify c = some n → ∃ tx notice,
    F.transaction? n = some tx ∧ tx.body = some (.jettonNotify notice) ∧
      t.recipient = some tx.account ∧
        t.note = (request.forwardPayload.bind Note.ofBody?).or
          (notice.forwardPayload.bind Note.ofBody?)
  unnoticed : F.first? .jettonNotify c = none →
    t.recipient = some ⟨request.destination, .none⟩ ∧
      t.note = request.forwardPayload.bind Note.ofBody?

namespace Found

variable (h : Found F p c sent arrived request)

include h

lemma carries_top : F.carries .jettonTransfer p = true :=
  carries_iff.2 ⟨sent, h.top, by rw [Transaction.carries, Transaction.operation?, h.body]; rfl⟩

lemma masterKnown : masterKnown F p c = true := by
  rw [JettonTransfer.masterKnown, txOf_eq h.top, txOf_eq h.arrival, Bool.or_eq_true,
    Option.any_eq_true]
  refine h.master.imp_left ?_
  rintro ⟨m, hm, hne⟩
  exact ⟨m, hm, by rwa [Bool.not_eq_true', ← Bool.not_eq_true, Address.isZero_iff]⟩

/-- The draft after the two wallets, with the master that the sending one tells, or else the
receiving one. -/
lemma arrived_fst : ∃ master, (chain.arrived F p c).1 = {
      sender := sent.source
      recipient := some ⟨request.destination, .none⟩
      senderWallet := sent.account.address
      recipientWallet := arrived.account.address
      master := master
      amount := request.amount
      success := sent.success && arrived.success
      note := request.forwardPayload.bind Note.ofBody? } ∧
    (∀ m, sent.jettonMaster = some m → m ≠ .zero → master = m) ∧
    ((∀ m, sent.jettonMaster = some m → m = .zero) → arrived.jettonMaster = some master) := by
  have harrived : chain.arrived F p c = buildArrival (buildRequest default sent).1 arrived := by
    rw [Chain.arrived, txOf_eq h.top, txOf_eq h.arrival]; rfl
  rw [harrived, buildRequest_eq h.body, buildArrival]
  by_cases hzero : sent.jettonMaster.getD .zero = .zero
  · -- The sending wallet does not tell, so the receiving one has to.
    obtain ⟨master, hmaster⟩ : ∃ master, arrived.jettonMaster = some master := by
      rcases h.master with ⟨m, hm, hne⟩ | hsome
      · rw [hm] at hzero
        exact absurd hzero hne
      · exact Option.isSome_iff_exists.1 hsome
    refine ⟨master, ?_, fun m hm hne => ?_, fun _ => hmaster⟩
    · simp only [Address.isZero_iff.2 hzero, if_true, hmaster]
    · rw [hm] at hzero
      exact absurd hzero hne
  · have hno : (sent.jettonMaster.getD .zero).isZero = false := by
      rwa [← Bool.not_eq_true, Address.isZero_iff]
    refine ⟨sent.jettonMaster.getD .zero, ?_, fun m hm _ => by rw [hm]; rfl, fun hall => ?_⟩
    · simp only [hno, Bool.false_eq_true, if_false]
    · cases hsent : sent.jettonMaster with
      | none => rw [hsent] at hzero; exact absurd rfl hzero
      | some m => rw [hsent] at hzero; exact absurd (hall m hsent) hzero

/-- What is built says what the links tell. -/
theorem tells_drafted : Tells F c sent arrived request (chain.drafted F p c) := by
  obtain ⟨master, harrived, hsent, harr⟩ := h.arrived_fst
  rw [Chain.drafted, Chain.draftedWith, harrived]
  cases hnotice : F.first? .jettonNotify c with
  | none =>
    refine ⟨rfl, rfl, rfl, rfl, rfl, hsent, harr, fun n hn => ?_, fun _ => ⟨rfl, rfl⟩⟩
    rw [hnotice] at hn
    cases hn
  | some n =>
    obtain ⟨tx, htx, hcarries⟩ := carries_iff.1 (first?_eq_some hnotice).2
    obtain ⟨body, hbody, hop⟩ := Transaction.exists_body hcarries
    cases body <;> cases hop
    rename_i notice
    rw [Option.elim_some, txOf_eq htx, onNotice_fst hbody]
    refine ⟨rfl, rfl, rfl, rfl, rfl, hsent, harr, fun n' hn => ?_, fun hn => ?_⟩
    · obtain rfl := Option.some.inj (hnotice.symm.trans hn)
      exact ⟨tx, notice, htx, hbody, rfl, rfl⟩
    · rw [hnotice] at hn
      cases hn

end Found

/-- A transfer is found where a request is followed by an internal transfer and the master is
known. -/
lemma exists_found_iff : (∃ sent arrived request, Found F p c sent arrived request) ↔
    F.carries .jettonTransfer p = true ∧ F.first? .jettonInternalTransfer p = some c ∧
      masterKnown F p c = true := by
  constructor
  · rintro ⟨sent, arrived, request, h⟩
    exact ⟨h.carries_top, h.first, h.masterKnown⟩
  · rintro ⟨htop, hfirst, hmaster⟩
    obtain ⟨sent, hsent, hcarries⟩ := carries_iff.1 htop
    obtain ⟨arrived, harrived, -⟩ := carries_iff.1 (first?_eq_some hfirst).2
    obtain ⟨body, hbody, hop⟩ := Transaction.exists_body hcarries
    cases body <;> cases hop
    rename_i request
    refine ⟨sent, arrived, request, hsent, hbody, hfirst, harrived, ?_⟩
    rw [masterKnown, txOf_eq hsent, txOf_eq harrived, Bool.or_eq_true,
      Option.any_eq_true] at hmaster
    refine hmaster.imp_left ?_
    rintro ⟨m, hm, hne⟩
    exact ⟨m, hm, by rwa [Bool.not_eq_true', ← Bool.not_eq_true, Address.isZero_iff] at hne⟩

lemma merged_iff (hF : F.WellFormed) : (pattern.merge F p).merged = true ↔
    ∃ c sent arrived request, Found F p c sent arrived request := by
  simp only [exists_found_iff]
  refine (chain.merged_iff hF).trans (exists_congr fun c => and_congr_right fun htop => ?_)
  exact and_congr_right fun _ => arrived_ok htop

/-- In a well-formed forest a transfer is merged just where one is found.  Then its chain is drawn
together, and what is recognized says what the links tell.  Otherwise nothing changes. -/
theorem transfer_outcome (hF : F.WellFormed) (p : BubbleId) :
    ((pattern.merge F p).merged = true ↔
      ∃ c sent arrived request, Found F p c sent arrived request) ∧
    (∀ c sent arrived request, Found F p c sent arrived request →
      Chain.Effect F (pattern.merge F p).forest p c ∧
      ∃ t, ((pattern.merge F p).forest.get? p).map Bubble.payload = some (.jettonTransfer t) ∧
        Tells F c sent arrived request t) ∧
    ((pattern.merge F p).merged = false → (pattern.merge F p).forest = F) := by
  refine ⟨merged_iff hF, fun c sent arrived request h => ?_, Pattern.merge_forest_of_not_merged⟩
  have hmerged := (merged_iff hF).2 ⟨c, sent, arrived, request, h⟩
  exact ⟨chain.effect hF hmerged h.first, _, chain.payload_of_merged hF hmerged h.first,
    h.tells_drafted⟩

end Catalog.JettonTransfer

/-- A transfer of which only the receiving wallet tells the master, and only the notice, which comes
after the excess message and another one, has a note. -/
def Forest.notedTransfer : Forest where
  slots := #[
    some { Bubble.ofTransaction { (default : Transaction) with
        source := some (.ofAddress ⟨0, .replicate 32 7⟩)
        body := some (.jettonTransfer { (default : TransferRequest Body) with
          amount := ⟨6, by decide⟩ })
        success := true } with children := [1] },
    some { Bubble.ofTransaction { (default : Transaction) with
        body := some (.jettonInternalTransfer default)
        success := true
        jettonMaster := some ⟨1, .replicate 32 0⟩ } with children := [2, 3, 4] },
    some (Bubble.ofTransaction { (default : Transaction) with body := some (.excess 0) }),
    some default,
    some (Bubble.ofTransaction { (default : Transaction) with
        account := ⟨⟨0, .replicate 32 8⟩, .wallet⟩
        body := some (.jettonNotify { (default : TransferNotice Body) with
          forwardPayload := some (.textComment "thanks") }) })]
  roots := [0]

open Catalog JettonTransfer in
/-- The other message is kept, and the transfer is recognized. -/
theorem Catalog.JettonTransfer.transfer_outcome_noted : notedTransfer.WellFormed ∧
    notedTransfer.endsInOrder 1 = [2, 4] ∧ (pattern.merge notedTransfer 0).merged = true ∧
    (pattern.merge notedTransfer 0).forest.children 0 = [3] ∧
    ∃ c sent arrived request, Found notedTransfer 0 c sent arrived request ∧
      Chain.Effect notedTransfer (pattern.merge notedTransfer 0).forest 0 c ∧
      ∃ t, ((pattern.merge notedTransfer 0).forest.get? 0).map Bubble.payload =
          some (.jettonTransfer t) ∧
        Tells notedTransfer c sent arrived request t := by
  have hF : notedTransfer.WellFormed := by decide
  have hmerged : (pattern.merge notedTransfer 0).merged = true := by decide
  obtain ⟨hiff, hout, -⟩ := transfer_outcome hF 0
  obtain ⟨c, sent, arrived, request, hfound⟩ := hiff.1 hmerged
  exact ⟨hF, by decide, hmerged, by decide, c, sent, arrived, request, hfound,
    hout c sent arrived request hfound⟩

end TraceFold
