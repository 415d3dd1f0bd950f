import Mathlib.Algebra.Order.BigOperators.Group.List
import Mathlib.Algebra.Order.Group.Nat
import Mathlib.Algebra.Order.Ring.Int
import TraceFold.Proofs.Flow.Entries
import TraceFold.Proofs.Merging.Transactions

/-!
# The accounts of a merge

A merge folds the flows of all bubbles that it draws together into that of the one at the top, which
so is counted twice.  Here all of them are transactions of a forest `F` as it was at first
(`Forest.Fresh`), and the forest of the merge is a later one (`Forest.Keeps`).

Since nothing is drawn together twice, the entries of the new flow are sums of integers wherever
twice the movements of all transactions are in the range (`val_entry_of_draws`).  Over all bubbles
the merge adds what the transaction at the top moved (`total_of_draws`).
-/

namespace TraceFold.Forest

variable {F G G' : Forest} {K L : List BubbleId} {root x : BubbleId} {place : Flow.Place}

/-! ## Transactions and their flows -/

/-- Every bubble is as it was made for a transaction: it holds this and has its flow. -/
def Fresh (F : Forest) : Prop :=
  ∀ id b, F.get? id = some b →
    ∃ tx : Transaction, b.payload = .transaction tx ∧ b.flow = .ofTransaction tx

/-- What the transaction of a bubble moves at a place. -/
def moved (F : Forest) (place : Flow.Place) (id : BubbleId) : Int :=
  ((Flow.ofTransaction (F.txOf id)).entry place).val

/-- The entries of all live bubbles together. -/
def total (F : Forest) (place : Flow.Place) : Int :=
  (F.live.map fun id => ((F.flowOf id).entry place).val).sum

/-- Twice the movements of all transactions are in the range, in absolute value. -/
def InRange (F : Forest) (place : Flow.Place) : Prop :=
  2 * (F.transactionIds.map fun id => (F.moved place id).natAbs).sum ≤ place.greatest

/-- The flow of a bubble that was not touched. -/
lemma Fresh.flowOf (hF : F.Fresh) (h : F.Keeps G) (hx : (G.transaction? x).isSome = true) :
    G.flowOf x = .ofTransaction (F.txOf x) := by
  obtain ⟨tx, htx⟩ := Option.isSome_iff_exists.1 hx
  obtain ⟨b, hb, hpayload⟩ := transaction?_eq_some htx
  rw [← h.transaction?_eq hx] at htx
  obtain ⟨tx', hpayload', hflow⟩ := hF x b ((h.get?_eq hx).symm.trans hb)
  rw [hpayload] at hpayload'
  cases hpayload'
  rw [Forest.flowOf, hb, txOf, htx]
  exact hflow

/-- What still holds a transaction held it at first. -/
lemma Keeps.subset_transactionIds (h : F.Keeps G)
    (hK : ∀ x ∈ K, (G.transaction? x).isSome = true) : K ⊆ F.transactionIds := by
  intro x hx
  rw [mem_transactionIds, h.transaction?_eq (hK x hx)]
  exact hK x hx

/-! ## One merge -/

lemma sum_map_le_of_subset {α : Type} {l l' : List α} (f : α → Nat) (hl : l.Nodup) (h : l ⊆ l') :
    (l.map f).sum ≤ (l'.map f).sum := by
  obtain ⟨m, hperm, hsub⟩ := List.subperm_of_subset hl h
  rw [← (hperm.map f).sum_eq]
  exact (hsub.map f).sum_le_sum fun _ _ => Nat.zero_le _

section Draws

variable (hF : F.Fresh) (hkeeps : F.Keeps G) (hdraws : G.Draws G' root K)
  (hK : ∀ x ∈ K, (G.transaction? x).isSome = true)

include hF hkeeps hdraws hK

/-- The flow at the top, as it comes of the merge. -/
lemma flowOf_of_draws (hG : G.WellFormed) : ∃ L : List BubbleId, L.Perm K ∧ G'.flowOf root =
    (L.map fun x => Flow.ofTransaction (F.txOf x)).foldl Flow.merge
      (.ofTransaction (F.txOf root)) := by
  have hgroup := hdraws.contracts.group
  refine ⟨G.preOrder.filter fun x => decide (x ∈ K), ?_, ?_⟩
  · refine (List.perm_ext_iff_of_nodup (hG.preOrder_nodup.filter _) hgroup.nodup).2 fun x => ?_
    rw [List.mem_filter, hG.mem_preOrder, decide_eq_true_iff]
    exact ⟨And.right, fun hx => ⟨hgroup.live x hx, hx⟩⟩
  · rw [hdraws.flow, List.foldl_map, hF.flowOf hkeeps (hK root hgroup.root_mem)]
    refine List.foldl_ext _ _ _ fun flow x hx => ?_
    rw [hF.flowOf hkeeps (hK x (of_decide_eq_true (List.mem_filter.1 hx).2))]

/-- The entries of the new flow are sums of integers, in which the one at the top comes twice. -/
theorem val_entry_of_draws (hG : G.WellFormed) (hplace : F.InRange place) :
    ((G'.flowOf root).entry place).val =
      F.moved place root + (K.map (F.moved place)).sum := by
  have hgroup := hdraws.contracts.group
  have hsub := hkeeps.subset_transactionIds hK
  obtain ⟨L, hperm, hflow⟩ := flowOf_of_draws hF hkeeps hdraws hK hG
  have hroot : ([root].map fun x => (F.moved place x).natAbs).sum ≤
      (F.transactionIds.map fun x => (F.moved place x).natAbs).sum :=
    sum_map_le_of_subset _ (List.nodup_singleton root) (by simpa using hsub hgroup.root_mem)
  have hall := sum_map_le_of_subset (fun x => (F.moved place x).natAbs) hgroup.nodup hsub
  unfold InRange at hplace
  rw [List.map_singleton, List.sum_singleton] at hroot
  rw [hflow, Flow.val_entry_foldl]
  · rw [List.map_map]
    exact congrArg _ (hperm.map (F.moved place)).sum_eq
  · rw [List.map_map]
    show (F.moved place root).natAbs + (L.map fun x => (F.moved place x).natAbs).sum ≤ _
    rw [(hperm.map _).sum_eq]
    omega

/-- Over all bubbles the transaction at the top is added once more. -/
theorem total_of_draws (hG : G.WellFormed) (hplace : F.InRange place) :
    G'.total place = G.total place + F.moved place root := by
  obtain ⟨others, hbefore, hafter, hsame⟩ := hdraws.contracts.perm_live
  have hentry := val_entry_of_draws hF hkeeps hdraws hK hG hplace
  have hothers : others.map (fun x => ((G'.flowOf x).entry place).val) =
      others.map fun x => ((G.flowOf x).entry place).val := by
    refine List.map_congr_left fun x hx => ?_
    rw [flowOf, hsame x hx, ← flowOf]
  have hdrawn : K.map (fun x => ((G.flowOf x).entry place).val) = K.map (F.moved place) := by
    refine List.map_congr_left fun x hx => ?_
    rw [hF.flowOf hkeeps (hK x hx), moved]
  rw [total, total, (hbefore.map _).sum_eq, (hafter.map _).sum_eq, List.map_append, List.sum_append,
    List.map_cons, List.sum_cons, hothers, hdrawn, hentry]
  omega

end Draws
end TraceFold.Forest
