import TraceFold.Proofs.Catalog.Transfers
import TraceFold.Proofs.Merging.Commutation

/-!
# Transfers in any order

Transfers can be merged in any order, also where one of them begins below another.  Merging some of
them leaves alone what another one claims (`TransfersMerged.sameClaim`), since a bubble carries one
operation only, and no bubble is claimed by two of them (`claimed_apart`).  So any two commute, and
a sweep of transfers may go through the bubbles in any order (`transfers_commute`).
-/

namespace TraceFold

open Catalog Forest

variable {F G : Forest} {done ids ids' : List BubbleId} {r : Run} {index : Nat}
  {a b p c x : BubbleId}

/-! ## What a transfer claims -/

namespace Catalog.JettonTransfer

lemma claim?_pattern (hF : F.WellFormed) : pattern.claim? F p =
    if F.carries .jettonTransfer p then
      (F.first? .jettonInternalTransfer p).map (chain.claims F p)
    else none :=
  chain.claim?_eq hF

/-- What is claimed is the top of a chain, its first internal transfer and the ends of that. -/
lemma mem_claimed (hF : F.WellFormed) (hx : x ∈ pattern.claimed F p) :
    F.carries .jettonTransfer p = true ∧ ∃ c, F.first? .jettonInternalTransfer p = some c ∧
      (x ∈ F.ends c ∨ x = c ∨ x = p) := by
  obtain ⟨claims, hclaim, hx⟩ := Pattern.exists_claim?_of_mem_claimed hx
  obtain ⟨htop, c, hfirst, rfl⟩ := chain.eq_claims hF hclaim
  rw [Chain.bubbles_claims] at hx
  refine ⟨htop, c, hfirst, ?_⟩
  simpa only [List.mem_append, List.mem_singleton, or_assoc] using hx

/-- No bubble is claimed from two places. -/
lemma claimed_apart (hF : F.WellFormed) (hab : a ≠ b) :
    ∀ x ∈ pattern.claimed F a, x ∉ pattern.claimed F b := by
  intro x hxa hxb
  obtain ⟨htopa, c, hc, hxa⟩ := mem_claimed hF hxa
  obtain ⟨htopb, d, hd, hxb⟩ := mem_claimed hF hxb
  have hlinka : x ≠ a → x ∈ F.links a := fun hne =>
    mem_links.2 ⟨c, hc, by simpa only [hne, or_false] using hxa⟩
  have hlinkb : x ≠ b → x ∈ F.links b := fun hne =>
    mem_links.2 ⟨d, hd, by simpa only [hne, or_false] using hxb⟩
  by_cases ha : x = a
  · exact not_mem_links_of_carries (ha ▸ htopa) (hlinkb fun hb => hab (ha.symm.trans hb))
  · by_cases hb : x = b
    · exact not_mem_links_of_carries (hb ▸ htopb) (hlinka ha)
    · -- A link of both hangs on both, directly or by way of one internal transfer.
      cases hx : F.carries .jettonInternalTransfer x with
      | true =>
        exact hab (hF.parent_unique (mem_children_of_mem_links hx (hlinka ha))
          (mem_children_of_mem_links hx (hlinkb hb)))
      | false =>
        obtain ⟨c, hc, hxc⟩ := exists_first_of_mem_links hx (hlinka ha)
        obtain ⟨d, hd, hxd⟩ := exists_first_of_mem_links hx (hlinkb hb)
        have hcd := hF.parent_unique hxc hxd
        exact hab (hF.parent_unique (first?_eq_some hc).1 (hcd ▸ (first?_eq_some hd).1))

end Catalog.JettonTransfer

open Catalog.JettonTransfer

namespace TransfersMerged

lemma carries_top (h : TransfersMerged F G done) (hp : p ∉ done) :
    G.carries .jettonTransfer p = F.carries .jettonTransfer p := by
  cases htop : F.carries .jettonTransfer p with
  | true => rw [carries_congr (h.get?_top hp htop), htop]
  | false =>
    exact Bool.eq_false_iff.2 fun hyes => Bool.eq_false_iff.1 htop (h.keeps.carries_back hyes)

/-- Merging transfers leaves alone what another transfer claims. -/
theorem sameClaim (hF : F.WellFormed) (h : TransfersMerged F G done)
    (hslots : G.slots.size = F.slots.size) (hp : p ∉ done) :
    JettonTransfer.pattern.SameClaim F G p where
  slots := hslots
  claim := by
    rw [claim?_pattern h.wellFormed, claim?_pattern hF, h.carries_top hp]
    cases htop : F.carries .jettonTransfer p with
    | false => rfl
    | true =>
      rw [h.first_arrival hF hp htop]
      cases hc : F.first? .jettonInternalTransfer p with
      | none => rfl
      | some c =>
        have hends : chain.endEntries G c = chain.endEntries F c := by
          rw [Chain.endEntries, Chain.endEntries, h.first_end hF hp hc (by decide) (by decide),
            h.first_end hF hp hc (by decide) (by decide)]
        simp only [if_true, Option.map_some, Chain.claims, Chain.linkEntries, hends]
  bubbles := by
    intro x hx
    obtain ⟨htop, c, hc, hends | rfl | rfl⟩ := mem_claimed hF hx
    · rcases mem_ends.1 hends with hfirst | hfirst
      all_goals
        obtain ⟨hxc, hcarries⟩ := first?_eq_some hfirst
        exact h.get?_end hF hp hc hxc hcarries (by decide) (by decide)
    · obtain ⟨hxp, hcarries⟩ := first?_eq_some hc
      exact h.get?_arrival hF hp hcarries hxp
    · exact h.get?_top hp htop

end TransfersMerged

/-! ## Two transfers -/

lemma transfersMerged_merge (hF : F.WellFormed) (p : BubbleId) :
    TransfersMerged F (JettonTransfer.pattern.merge F p).forest [p] := by
  have hstart := transfersMerged_nil hF
  cases hstart.step hF (p := p) List.not_mem_nil with
  | merged _ _ hnext => exact hnext
  | refused htransfer hmerged =>
    have hsame : (JettonTransfer.pattern.merge F p).forest = F :=
      Pattern.merge_forest_of_not_merged hmerged
    rw [hsame]
    exact hstart.skip htransfer

lemma commute_transfers (hF : F.WellFormed) (hab : a ≠ b) :
    Pattern.Commute JettonTransfer.pattern JettonTransfer.pattern F a b := by
  have hsame : ∀ {a b}, a ≠ b →
      JettonTransfer.pattern.SameClaim F (JettonTransfer.pattern.merge F b).forest a :=
    fun {a b} hab => (transfersMerged_merge hF b).sameClaim hF (Pattern.merge_slots hF _ b)
      (by rwa [List.mem_singleton])
  exact Pattern.commute_of_sameClaim hF (hsame hab) (hsame hab.symm) (claimed_apart hF hab)

/-! ## Sweeps in any order -/

/-- Visiting different bubbles comes to merging at those of them where the rule did not fail. -/
lemma Run.forest_visits (hids : ids.Nodup) (p : Pattern TraceFold.JettonTransfer) (r : Run) :
    (ids.foldl (Run.visit index (Rule.transfer p)) r).forest =
      p.mergeAll r.forest (ids.filter fun id => !r.failed.contains (index, id)) := by
  induction ids generalizing r with
  | nil => rfl
  | cons id ids ih =>
    obtain ⟨hid, hids⟩ := List.nodup_cons.1 hids
    -- A visit may only add its own bubble to those where the rule failed.
    have hfailed : ∀ x ∈ ids, (r.visit index (Rule.transfer p) id).failed.contains (index, x) =
        r.failed.contains (index, x) := by
      intro x hx
      have hne : x ≠ id := fun e => hid (e ▸ hx)
      cases Run.visitCase r index (Rule.transfer p) id with
      | skipped _ hsame => rw [hsame]
      | merged _ _ _ _ hfailed => rw [hfailed]
      | refused _ _ _ _ hfailed =>
        rw [hfailed]
        split <;> simp [hne]
    have hrest :
        ids.filter (fun x => !(r.visit index (Rule.transfer p) id).failed.contains (index, x)) =
          ids.filter fun x => !r.failed.contains (index, x) :=
      List.filter_congr fun x hx => by rw [hfailed x hx]
    rw [List.foldl_cons, ih hids, hrest]
    cases Run.visitCase r index (Rule.transfer p) id with
    | skipped why hsame =>
      rw [hsame]
      by_cases hmem : (index, id) ∈ r.failed
      · rw [List.filter_cons_of_neg (by simpa using hmem)]
      · have hgone := why.resolve_right hmem
        rw [List.filter_cons_of_pos (by simpa using hmem), Pattern.mergeAll, Pattern.mergeAll,
          List.foldl_cons, Pattern.merge_of_gone hgone]
    | merged _ hfresh _ hforest =>
      rw [List.filter_cons_of_pos (by simpa using hfresh), hforest]
      rfl
    | refused _ hfresh hmerged hforest =>
      have hsame : (p.merge r.forest id).forest = r.forest :=
        Pattern.merge_forest_of_not_merged hmerged
      rw [List.filter_cons_of_pos (by simpa using hfresh), hforest, Pattern.mergeAll,
        Pattern.mergeAll, List.foldl_cons, hsame]

/-- Only the live bubbles among the places matter. -/
lemma mergeAll_transfers (hF : F.WellFormed) (hids : ids.Nodup) (hids' : ids'.Nodup)
    (hsame : ∀ x, F.contains x = true → (x ∈ ids ↔ x ∈ ids')) :
    JettonTransfer.pattern.mergeAll F ids = JettonTransfer.pattern.mergeAll F ids' := by
  have hperm : (ids.filter F.contains).Perm (ids'.filter F.contains) := by
    refine (List.perm_ext_iff_of_nodup (hids.filter _) (hids'.filter _)).2 fun x => ?_
    rw [List.mem_filter, List.mem_filter]
    exact and_congr_left fun hlive => hsame x hlive
  have hlive : ∀ ids : List BubbleId, JettonTransfer.pattern.mergeAll F (ids.filter F.contains) =
      JettonTransfer.pattern.mergeAll F ids := fun _ => Pattern.mergeAll_filter hF fun _ h => h
  rw [← hlive ids, ← hlive ids']
  exact Pattern.mergeAll_perm (fun _ hF _ _ => commute_transfers hF) hF hperm

/-- All the ways in which the transfers of a forest can be merged come to the same. -/
structure Forest.TransfersCommute (F : Forest) : Prop where
  /-- Two different places may be tried in either order, wherever they are. -/
  pairs : ∀ a b, a ≠ b → Pattern.Commute JettonTransfer.pattern JettonTransfer.pattern F a b
  /-- So may all the live bubbles. -/
  merges : ∀ ids ids' : List BubbleId, ids.Nodup → ids'.Nodup →
    (∀ x, F.contains x = true → x ∈ ids) → (∀ x, F.contains x = true → x ∈ ids') →
    JettonTransfer.pattern.mergeAll F ids = JettonTransfer.pattern.mergeAll F ids'
  /-- In any run, visits in any order lead to the forest of a sweep. -/
  sweeps : ∀ (index : Nat) (r : Run) (ids : List BubbleId), r.forest = F → ids.Nodup →
    (∀ x, F.contains x = true → x ∈ ids) →
    (ids.foldl (Run.visit index (Rule.transfer JettonTransfer.pattern)) r).forest =
      (r.sweep index (Rule.transfer JettonTransfer.pattern)).forest

/-- In a well-formed forest transfers can be merged in any order. -/
theorem transfers_commute (hF : F.WellFormed) : F.TransfersCommute where
  pairs := fun _ _ => commute_transfers hF
  merges := fun ids ids' hids hids' hall hall' => mergeAll_transfers hF hids hids' fun x hx =>
    iff_of_true (hall x hx) (hall' x hx)
  sweeps := by
    rintro index r ids rfl hids hall
    have hsweep := (Run.sweep_silent r index (Rule.transfer JettonTransfer.pattern)).forest
    rw [hsweep, Run.forest_visits hids, Run.forest_visits hF.postOrder_nodup]
    refine mergeAll_transfers hF (hids.filter _) (hF.postOrder_nodup.filter _) fun x hx => ?_
    rw [List.mem_filter, List.mem_filter]
    exact and_congr_left fun _ => iff_of_true (hall x hx) (hF.mem_postOrder.2 hx)

/-- A transfer that begins below the receiving wallet of another one. -/
def Forest.nestedTransfers : Forest where
  slots :=
    let top : Bubble := .ofTransaction { (default : Transaction) with
      body := some (.jettonTransfer default)
      jettonMaster := some ⟨1, .replicate 32 0⟩ }
    let arrival : Bubble := .ofTransaction { (default : Transaction) with
      body := some (.jettonInternalTransfer default) }
    #[some { top with children := [1] }, some { arrival with children := [2] },
      some { top with children := [3] }, some arrival]
  roots := [0]

/-- Both of them can be merged, and so they can in either order. -/
theorem transfers_commute_nested : nestedTransfers.WellFormed ∧ nestedTransfers.Below 0 2 ∧
    (JettonTransfer.pattern.merge nestedTransfers 0).merged = true ∧
    (JettonTransfer.pattern.merge nestedTransfers 2).merged = true ∧
    nestedTransfers.TransfersCommute := by
  have hF : nestedTransfers.WellFormed := by decide
  have h01 : 1 ∈ nestedTransfers.children 0 := by decide
  have h12 : 2 ∈ nestedTransfers.children 1 := by decide
  have hbelow : nestedTransfers.Below 0 2 := .of_child h01 (.of_child h12 (.refl _ 2))
  exact ⟨hF, hbelow, by decide, by decide, transfers_commute hF⟩

end TraceFold
