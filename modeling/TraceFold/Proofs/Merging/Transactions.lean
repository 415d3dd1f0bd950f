import TraceFold.Proofs.Forest.Payloads
import TraceFold.Proofs.Matching.Acceptance
import TraceFold.Proofs.Merging.Effect
import TraceFold.Saturation

/-!
# Merges of transactions

What can be said of a merge without looking at its pattern: it draws some bubbles together
(`AnyRule.contracts_of_merged`).  The one at the top takes over their flows, and it becomes an
action if the rule makes actions (`AnyRule.draws_of_merged`), as rules for transfers and mints do
(`Rule.makesActions`).

More is known of rules that ask for transactions.  If the pattern at the top needs one, every merge
that makes an action uses one up (`AnyRule.length_transactionIds_lt`).  If all sub-patterns do,
nothing but transactions is drawn together (`AnyRule.transaction?_of_claimed`), so that actions are
left alone.  The rules of the standard catalog are of this kind
(`Catalog.standard_takesTransactions`).
-/

namespace TraceFold

variable {α : Type} {F F' : Forest} {p q : Pattern α} {c : Claims α} {rule : AnyRule}
  {K : List BubbleId} {id root x : BubbleId}

/-- A forest after some bubbles were drawn together: the one at the top has become an action, and
its flow has taken in those of all of them, in the order of the walk through the forest. -/
structure Forest.Draws (F F' : Forest) (root : BubbleId) (K : List BubbleId) : Prop where
  contracts : F.Contracts F' root K
  action : (F'.action? root).isSome = true
  flow : F'.flowOf root = (F.preOrder.filter fun x => decide (x ∈ K)).foldl
    (fun flow x => flow.merge (F.flowOf x)) (F.flowOf root)

/-! ## Patterns -/

namespace Pattern

/-- The bubbles that are claimed in an attempt; there are none if it does not fit. -/
def claimed (p : Pattern α) (F : Forest) (id : BubbleId) : List BubbleId :=
  ((p.claim? F id).map Claims.bubbles).getD []

lemma claimed_eq (h : p.claim? F id = some c) : p.claimed F id = c.bubbles := by
  rw [claimed, h]; rfl

lemma exists_claim?_of_mem_claimed (hx : x ∈ p.claimed F id) :
    ∃ c, p.claim? F id = some c ∧ x ∈ c.bubbles := by
  cases hclaim : p.claim? F id with
  | none => rw [claimed, hclaim] at hx; cases hx
  | some c => exact ⟨c, rfl, claimed_eq hclaim ▸ hx⟩

/-- A pattern that needs a transaction has one at the top of what it claims. -/
lemma transaction?_of_claimed_root (hp : p.NeedsTransaction) (hF : F.WellFormed)
    (hx : id ∈ p.claimed F id) : (F.transaction? id).isSome = true := by
  obtain ⟨c, hclaim, -⟩ := exists_claim?_of_mem_claimed hx
  obtain ⟨-, b, hb, hacc⟩ := accepts_of_get? hF hclaim (get?_root hF hclaim)
  rw [Forest.transaction?, hb]
  exact hp.transaction? hacc

lemma transaction?_of_claimed (hp : p.TakesTransactions) (hF : F.WellFormed) :
    ∀ x ∈ p.claimed F id, (F.transaction? x).isSome = true := by
  intro x hx
  obtain ⟨c, hclaim, hx⟩ := exists_claim?_of_mem_claimed hx
  obtain ⟨q, hq⟩ := (inStep_of_claim? hclaim).exists_get? hx
  obtain ⟨hsub, b, hb, hacc⟩ := accepts_of_get? hF hclaim hq
  rw [Forest.transaction?, hb]
  exact (hp q hsub).transaction? hacc

section Merged

variable [Target α] (hF : F.WellFormed) (h : (p.merge F id).merged = true)

include hF h

/-- A merge draws the claimed bubbles together. -/
lemma contracts_of_merged : F.Contracts (p.merge F id).forest id (p.claimed F id) := by
  obtain ⟨c, b, hclaim, hrep, hforest⟩ := exists_commit_of_merged h
  rw [hforest, claimed_eq hclaim]
  exact commit_contracts hF hclaim hrep

/-- If the drafts of the target become actions, the bubble at the top becomes one. -/
lemma draws_of_merged (htarget : ∀ draft : α, (Target.payload draft).action?.isSome = true) :
    F.Draws (p.merge F id).forest id (p.claimed F id) := by
  have hcontracts := contracts_of_merged hF h
  obtain ⟨c, b, hclaim, hrep, hforest⟩ := exists_commit_of_merged h
  have hget : (commit F id c b).get? id = some b := by rw [get?_commit hF hclaim, if_pos rfl]
  rw [hforest, claimed_eq hclaim] at hcontracts ⊢
  refine ⟨hcontracts, ?_, ?_⟩
  · obtain ⟨draft, -, rfl⟩ := replacement_eq_ok hrep
    rw [Forest.action?_of_get? hget]
    exact htarget draft
  · rw [(commit_effect hF hclaim hrep).flow]
    congr 1
    exact List.filter_congr fun x _ => by
      rw [Bool.eq_iff_iff, (inStep_of_claim? hclaim).contains_iff]; simp

end Merged
end Pattern

/-! ## Rules -/

namespace AnyRule

/-- The pattern at the top needs a transaction. -/
def NeedsTransaction (rule : AnyRule) : Prop := rule.pattern.NeedsTransaction

/-- The pattern and all its sub-patterns need transactions. -/
def TakesTransactions (rule : AnyRule) : Prop := rule.pattern.TakesTransactions

/-- Whatever is built becomes an action. -/
def MakesActions (rule : AnyRule) : Prop :=
  ∀ draft : rule.Draft, (Target.payload draft).action?.isSome = true

/-- The bubbles that are claimed in an attempt; there are none if it does not fit. -/
def claimed (rule : AnyRule) (F : Forest) (id : BubbleId) : List BubbleId :=
  rule.pattern.claimed F id

lemma TakesTransactions.needs (h : rule.TakesTransactions) : rule.NeedsTransaction :=
  Pattern.TakesTransactions.needs h

/-- A rule that takes nothing but transactions draws nothing else together. -/
theorem transaction?_of_claimed (htakes : rule.TakesTransactions) (hF : F.WellFormed)
    (id : BubbleId) : ∀ x ∈ rule.claimed F id, (F.transaction? x).isSome = true :=
  Pattern.transaction?_of_claimed htakes hF

section Merged

variable (hF : F.WellFormed) (hmerged : (rule.merge F id).merged = true)

include hF hmerged

/-- Every merge draws together what its rule claims. -/
theorem contracts_of_merged : F.Contracts (rule.merge F id).forest id (rule.claimed F id) :=
  Pattern.contracts_of_merged hF hmerged

theorem draws_of_merged (hmakes : rule.MakesActions) :
    F.Draws (rule.merge F id).forest id (rule.claimed F id) :=
  Pattern.draws_of_merged hF hmerged hmakes

lemma transaction?_of_merged (hneeds : rule.NeedsTransaction) :
    (F.transaction? id).isSome = true :=
  Pattern.transaction?_of_claimed_root hneeds hF (contracts_of_merged hF hmerged).group.root_mem

/-- A merge that needs a transaction and makes an action uses one up. -/
theorem length_transactionIds_lt (hmakes : rule.MakesActions) (hneeds : rule.NeedsTransaction) :
    (rule.merge F id).forest.transactionIds.length < F.transactionIds.length := by
  have hdraws := draws_of_merged hF hmerged hmakes
  exact hdraws.contracts.length_transactionIds_lt (transaction?_of_merged hF hmerged hneeds)
    hdraws.action

end Merged
end AnyRule

/-- Transfers and mints are actions. -/
lemma Rule.makesActions (rules : List Rule) : ∀ rule ∈ (rules : Rules), rule.MakesActions := by
  intro rule hrule
  obtain ⟨known, -, rfl⟩ := List.mem_map.1 hrule
  cases known <;> exact fun _ => rfl

/-! ## The standard catalog -/

namespace Pattern

variable {name : String} {checks : List Check} {children : List (Pattern α)} {optional : Bool}
  {build : α → Transaction → α × Option BuildError}

lemma building_takesTransactions (h : ∀ q ∈ children, q.TakesTransactions) :
    (building name checks build children optional).TakesTransactions :=
  forall_sub_iff.2 ⟨needsTransaction_of_checks rfl, h⟩

lemma excess_takesTransactions : (Catalog.excess : Pattern α).TakesTransactions :=
  forall_sub_iff.2 ⟨needsTransaction_of_checks rfl, fun _ hq => by cases hq⟩

end Pattern

namespace Catalog

open Pattern in
lemma JettonTransfer.pattern_takesTransactions : JettonTransfer.pattern.TakesTransactions := by
  have hnotice : JettonTransfer.notice.TakesTransactions := building_takesTransactions (by simp)
  have harrival : JettonTransfer.arrival.TakesTransactions :=
    building_takesTransactions (by simpa using ⟨hnotice, excess_takesTransactions⟩)
  exact building_takesTransactions (by simpa using harrival)

open Pattern in
lemma JettonMint.pattern_takesTransactions : JettonMint.pattern.TakesTransactions := by
  have hnotice : JettonMint.notice.TakesTransactions := building_takesTransactions (by simp)
  have harrival : JettonMint.arrival.TakesTransactions :=
    building_takesTransactions (by simpa using ⟨hnotice, excess_takesTransactions⟩)
  exact building_takesTransactions (by simpa using harrival)

theorem standard_takesTransactions : ∀ rule ∈ standard, rule.TakesTransactions := by
  intro rule hrule
  rcases mem_standard.1 hrule with rfl | rfl
  · exact JettonTransfer.pattern_takesTransactions
  · exact JettonMint.pattern_takesTransactions

theorem standard_makesActions : ∀ rule ∈ standard, rule.MakesActions := Rule.makesActions _

end Catalog
end TraceFold
