import Mathlib.Data.List.Perm.Subperm
import TraceFold.Proofs.Forest.Contraction

/-!
# What the bubbles hold

A live bubble holds a transaction or an action.  Both are told from the name of the bubble
(`transaction?`, `action?`), and the bubbles of either kind are listed in the order of their slots
(`transactionIds`, `actionIds`).  A forest hands out as many actions as it has bubbles that hold one
(`length_actions`).

A contraction whose top was a transaction and becomes an action leaves fewer transactions than
there were (`Contracts.length_transactionIds_lt`).  If it draws nothing but transactions together,
it leaves the actions that were there alone and adds one (`Contracts.perm_actionIds`).
-/

namespace TraceFold

/-- A payload that is no transaction is handed out as an action. -/
lemma Payload.isSome_action? (payload : Payload) :
    payload.action?.isSome = !payload.transaction?.isSome := by
  cases payload <;> rfl

lemma Bubble.payload_of_transaction? {b : Bubble} {tx : Transaction}
    (h : b.transaction? = some tx) : b.payload = .transaction tx := by
  rw [transaction?] at h
  cases hpayload : b.payload with
  | transaction tx' => rw [hpayload] at h; rw [Option.some.inj h]
  | jettonTransfer t => rw [hpayload] at h; cases h
  | jettonMint m => rw [hpayload] at h; cases h

namespace Forest

variable {F F' : Forest} {b : Bubble} {K : List BubbleId} {root id x : BubbleId}

/-! ## Transactions and actions by name -/

/-- The transaction of a live bubble, if it holds one. -/
def transaction? (F : Forest) (id : BubbleId) : Option Transaction :=
  (F.get? id).bind Bubble.transaction?

/-- The same, for a bubble that is known to hold one. -/
def txOf (F : Forest) (id : BubbleId) : Transaction := (F.transaction? id).getD default

/-- The action of a live bubble, if it holds one. -/
def action? (F : Forest) (id : BubbleId) : Option Action :=
  (F.get? id).bind fun b => b.payload.action?

lemma transaction?_congr {G : Forest} (h : G.get? id = F.get? id) :
    G.transaction? id = F.transaction? id := by
  rw [transaction?, transaction?, h]

lemma txOf_congr {G : Forest} (h : G.get? id = F.get? id) : G.txOf id = F.txOf id := by
  rw [txOf, txOf, transaction?_congr h]

lemma action?_congr {G : Forest} (h : G.get? id = F.get? id) : G.action? id = F.action? id := by
  rw [action?, action?, h]

lemma transaction?_eq_some {tx : Transaction} (h : F.transaction? id = some tx) :
    ∃ b, F.get? id = some b ∧ b.payload = .transaction tx := by
  obtain ⟨b, hb, hbtx⟩ := Option.bind_eq_some_iff.1 h
  exact ⟨b, hb, Bubble.payload_of_transaction? hbtx⟩

lemma transaction?_of_payload {payload : Payload}
    (h : (F.get? id).map Bubble.payload = some payload) :
    F.transaction? id = payload.transaction? := by
  obtain ⟨b, hb, rfl⟩ := Option.map_eq_some_iff.1 h
  rw [transaction?, hb]
  rfl

lemma action?_of_get? (h : F.get? id = some b) : F.action? id = b.payload.action? := by
  rw [action?, h]; rfl

lemma contains_of_transaction? (h : (F.transaction? id).isSome = true) :
    F.contains id = true := by
  rw [contains, Option.isSome_of_isSome_bind h]

lemma contains_of_action? (h : (F.action? id).isSome = true) : F.contains id = true := by
  rw [contains, Option.isSome_of_isSome_bind h]

/-- No bubble holds both. -/
lemma action?_eq_none (h : (F.transaction? id).isSome = true) : F.action? id = none := by
  obtain ⟨tx, htx⟩ := Option.isSome_iff_exists.1 h
  obtain ⟨b, hb, hpayload⟩ := transaction?_eq_some htx
  rw [action?_of_get? hb, hpayload]
  rfl

lemma ne_of_action? (hx : (F.transaction? x).isSome = true)
    (hid : (F.action? id).isSome = true) : x ≠ id := by
  rintro rfl
  rw [action?_eq_none hx] at hid
  cases hid

/-- A live bubble that holds no transaction holds an action. -/
lemma isSome_action? (hlive : F.contains id = true) (h : F.transaction? id = none) :
    (F.action? id).isSome = true := by
  obtain ⟨b, hb⟩ := contains_iff.1 hlive
  rw [transaction?, hb, Option.bind_some, Bubble.transaction?] at h
  rw [action?_of_get? hb, b.payload.isSome_action?, h]
  rfl

/-! ## All of them -/

/-- The bubbles that hold transactions. -/
def transactionIds (F : Forest) : List BubbleId :=
  F.live.filter fun id => (F.transaction? id).isSome

/-- The bubbles that hold actions. -/
def actionIds (F : Forest) : List BubbleId :=
  F.live.filter fun id => (F.action? id).isSome

lemma mem_transactionIds : x ∈ F.transactionIds ↔ (F.transaction? x).isSome = true := by
  rw [transactionIds, List.mem_filter, mem_live]
  exact ⟨And.right, fun h => ⟨contains_of_transaction? h, h⟩⟩

lemma mem_actionIds : x ∈ F.actionIds ↔ (F.action? x).isSome = true := by
  rw [actionIds, List.mem_filter, mem_live]
  exact ⟨And.right, fun h => ⟨contains_of_action? h, h⟩⟩

lemma transactionIds_nodup (F : Forest) : F.transactionIds.Nodup := F.live_nodup.filter _

lemma actionIds_nodup (F : Forest) : F.actionIds.Nodup := F.live_nodup.filter _

/-- Every action bubble gives one action, and nothing else does. -/
theorem WellFormed.length_actions (hF : F.WellFormed) :
    F.actions.length = F.actionIds.length := by
  have hactions : F.actions = F.preOrder.filterMap F.action? := rfl
  rw [hactions, List.length_filterMap_eq_countP, hF.preOrder_perm_live.countP_eq, actionIds,
    List.countP_eq_length_filter]

/-- What holds a transaction in `G` holds it in `F`, and has not changed. -/
def Keeps (F G : Forest) : Prop :=
  ∀ x tx, G.transaction? x = some tx → G.get? x = F.get? x

namespace Keeps

lemma refl (F : Forest) : F.Keeps F := fun _ _ _ => rfl

lemma trans {G H : Forest} (h : F.Keeps G) (h' : G.Keeps H) : F.Keeps H := by
  intro x tx htx
  have hsame := h' x tx htx
  exact hsame.trans (h x tx (by rwa [← transaction?_congr hsame]))

lemma get?_eq {G : Forest} (h : F.Keeps G) (hx : (G.transaction? x).isSome = true) :
    G.get? x = F.get? x := by
  obtain ⟨tx, htx⟩ := Option.isSome_iff_exists.1 hx
  exact h x tx htx

lemma transaction?_eq {G : Forest} (h : F.Keeps G) (hx : (G.transaction? x).isSome = true) :
    F.transaction? x = G.transaction? x :=
  transaction?_congr (h.get?_eq hx).symm

end Keeps

/-! ## What a contraction does to them -/

namespace Contracts

/-- What is not drawn together stays, and its top takes the place of the rest. -/
lemma perm_live (h : F.Contracts F' root K) : ∃ others, F.live.Perm (K ++ others) ∧
    F'.live.Perm (root :: others) ∧ ∀ x ∈ others, F'.get? x = F.get? x := by
  refine ⟨F.live.filter fun x => decide (x ∉ K), ?_, ?_, fun x hx => ?_⟩
  · refine (List.perm_ext_iff_of_nodup F.live_nodup ?_).2 fun x => ?_
    · refine List.nodup_append.2 ⟨h.group.nodup, F.live_nodup.filter _, fun x hx y hy hxy => ?_⟩
      simp [← hxy, hx] at hy
    · have hlive := fun hx : x ∈ K => mem_live.2 (h.group.live x hx)
      by_cases hx : x ∈ K <;> simp [hx, hlive]
  · refine (List.perm_ext_iff_of_nodup F'.live_nodup ?_).2 fun x => ?_
    · exact List.nodup_cons.2 ⟨by simp [h.group.root_mem], F.live_nodup.filter _⟩
    · have hroot := h.group.contains_root
      rw [mem_live, h.contains_iff, List.mem_cons, List.mem_filter, mem_live]
      by_cases hx : x = root
      · simp [hx, hroot]
      · simp [hx]
  · exact h.outside x (by simpa using (List.mem_filter.1 hx).2)

/-- If the top becomes an action, whatever holds a transaction afterwards is as it was. -/
lemma get?_of_transaction? (h : F.Contracts F' root K)
    (haction : (F'.action? root).isSome = true)
    (hx : (F'.transaction? x).isSome = true) : F'.get? x = F.get? x :=
  h.get?_of_contains (contains_of_transaction? hx) (ne_of_action? hx haction)

lemma keeps (h : F.Contracts F' root K) (haction : (F'.action? root).isSome = true) :
    F.Keeps F' :=
  fun _ _ htx => h.get?_of_transaction? haction (Option.isSome_of_eq_some htx)

/-- If the top was a transaction and becomes an action, there are fewer transactions. -/
theorem length_transactionIds_lt (h : F.Contracts F' root K)
    (htop : (F.transaction? root).isSome = true) (haction : (F'.action? root).isSome = true) :
    F'.transactionIds.length < F.transactionIds.length := by
  have hsub : F'.transactionIds ⊆ F.transactionIds.erase root := by
    intro x hx
    rw [mem_transactionIds] at hx
    rw [F.transactionIds_nodup.mem_erase_iff, mem_transactionIds]
    refine ⟨ne_of_action? hx haction, ?_⟩
    rwa [← transaction?_congr (h.get?_of_transaction? haction hx)]
  have hmem : root ∈ F.transactionIds := mem_transactionIds.2 htop
  have hle := (List.subperm_of_subset F'.transactionIds_nodup hsub).length_le
  rw [List.length_erase_of_mem hmem] at hle
  have hpos := List.length_pos_of_mem hmem
  omega

section OnlyTransactions

variable (h : F.Contracts F' root K) (hK : ∀ x ∈ K, (F.transaction? x).isSome = true)

include h hK

/-- What draws only transactions together does not touch an action. -/
lemma get?_of_action? (hx : (F.action? x).isSome = true) : F'.get? x = F.get? x :=
  h.outside x fun hmem => ne_of_action? (hK x hmem) hx rfl

/-- It leaves all actions where they were, and there is one more, at its top. -/
theorem perm_actionIds (haction : (F'.action? root).isSome = true) :
    F'.actionIds.Perm (root :: F.actionIds) := by
  have hroot : root ∉ F.actionIds := fun hmem =>
    ne_of_action? (hK root h.group.root_mem) (mem_actionIds.1 hmem) rfl
  refine (List.perm_ext_iff_of_nodup F'.actionIds_nodup
    (List.nodup_cons.2 ⟨hroot, F.actionIds_nodup⟩)).2 fun x => ?_
  rw [List.mem_cons, mem_actionIds, mem_actionIds]
  constructor
  · intro hx
    by_cases hne : x = root
    · exact .inl hne
    · exact .inr (by rwa [← action?_congr (h.get?_of_contains (contains_of_action? hx) hne)])
  · rintro (rfl | hx)
    · exact haction
    · rwa [action?_congr (h.get?_of_action? hK hx)]

end OnlyTransactions

end Contracts
end Forest
end TraceFold
