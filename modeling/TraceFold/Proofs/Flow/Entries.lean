import Mathlib.Algebra.BigOperators.Group.Finset.Basic
import Mathlib.Algebra.BigOperators.Group.Finset.Piecewise
import Mathlib.Algebra.BigOperators.Group.Finset.Sigma
import Mathlib.Algebra.Order.BigOperators.Group.List
import Mathlib.Algebra.Order.Group.Nat
import Mathlib.Algebra.Order.Ring.Int
import TraceFold.Flow
import TraceFold.Proofs.SortedMap

/-!
# The entries of a flow

A flow is read off place by place: the coins and the fees of an account, and its jettons by master
(`Flow.Place`, `Flow.entry`).  Where a flow names nobody its entries are 0, so that merging two
flows adds their entries at every place (`entry_merge`), with sums that stop at the ends of the
range.

Sums stop nowhere if the absolute values of all summands together are in the range
(`val_foldl_add`), and then a merge of many flows has the sums of integers as its entries
(`val_entry_foldl`).  What one transaction moves from one account to another adds up to nothing
(`coinsTotal_ofTransaction`).
-/

namespace TraceFold

open Std

/-! ## Sums that stay in the range -/

namespace BoundedInt

variable {greatest : Nat}

@[simp] lemma zero_add (a : BoundedInt greatest) : 0 + a = a := by
  rw [add_eq_clamp, val_zero, Int.zero_add, clamp_val]

@[simp] lemma add_zero (a : BoundedInt greatest) : a + 0 = a := by
  rw [add_eq_clamp, val_zero, Int.add_zero, clamp_val]

/-- If all summands together are in the range, in absolute value, no sum stops at its ends. -/
theorem val_foldl_add (xs : List (BoundedInt greatest)) (a : BoundedInt greatest)
    (h : a.val.natAbs + (xs.map fun x => x.val.natAbs).sum ≤ greatest) :
    (xs.foldl (· + ·) a).val = a.val + (xs.map val).sum := by
  induction xs generalizing a with
  | nil => simp
  | cons x xs ih =>
    rw [List.map_cons, List.sum_cons] at h ⊢
    have hadd : (a + x).val = a.val + x.val := by
      rw [add_eq_clamp]
      exact val_clamp (by omega) (by omega)
    rw [List.foldl_cons, ih (a + x) (by rw [hadd]; omega), hadd]
    omega

end BoundedInt

/-! ## Movements of one account -/

namespace AccountFlow

variable (f g : AccountFlow) (m : Address)

/-- The net movement of the jettons of a master. -/
def net : JettonNet := (f.jettons.get? m).getD 0

lemma foldl_addJettons (es : List (Address × JettonNet)) (f : AccountFlow) :
    es.foldl (fun f e => f.addJettons e.1 e.2) f = { f with
      jettons := es.foldl (fun js e => js.upsert e.1 fun old => old.getD 0 + e.2) f.jettons } := by
  induction es generalizing f with
  | nil => rfl
  | cons e es ih => rw [List.foldl_cons, ih]; rfl

@[simp] lemma merge_coins : (f.merge g).coins = f.coins + g.coins := by
  rw [merge, foldl_addJettons]; rfl

@[simp] lemma merge_fees : (f.merge g).fees = f.fees + g.fees := by
  rw [merge, foldl_addJettons]; rfl

@[simp] lemma merge_net : (f.merge g).net m = f.net m + g.net m := by
  rw [merge, foldl_addJettons, net]
  show ((g.jettons.entries.foldl (fun js e => js.upsert e.1 fun old => old.getD 0 + e.2)
    f.jettons).get? m).getD 0 = f.net m + g.net m
  rw [SortedMap.get?_foldl_upsert (fun old v => old.getD 0 + v) _ g.jettons.sorted,
    ← SortedMap.get?]
  unfold net
  cases g.jettons.get? m <;> simp

lemma merge_zero : f.merge zero = f := by
  obtain ⟨coins, fees, jettons⟩ := f
  simp [merge, zero, SortedMap.empty, addCoins, addFees]

/-- All entries together, in absolute value. -/
def volume : Nat :=
  f.coins.val.natAbs + f.fees.val.natAbs + (f.jettons.entries.map fun e => e.2.val.natAbs).sum

lemma natAbs_net_le : (f.net m).val.natAbs ≤ f.volume := by
  rw [net, volume]
  cases hm : f.jettons.get? m with
  | none => simp
  | some amount =>
    have hmem := List.mem_map_of_mem (f := fun e : Address × JettonNet => e.2.val.natAbs)
      (SortedMap.get?_eq_some_iff.1 hm)
    exact Nat.le_add_left_of_le (List.le_sum_of_mem hmem)

end AccountFlow

/-! ## Places -/

namespace Flow

/-- The movement of an account; of one that was not named there is none. -/
def account (f : Flow) (a : Address) : AccountFlow := (f.accounts.get? a).getD .zero

/-- What a flow has an entry for. -/
inductive Place where
  | coins (account : Address)
  | fees (account : Address)
  | jettons (account master : Address)

/-- The greatest entry at a place. -/
def Place.greatest : Place → Nat
  | coins _ | fees _ => 9223372036854775807
  | jettons _ _ => 170141183460469231731687303715884105727

/-- The entry at a place; where there is none, nothing moved. -/
def entry (f : Flow) : (place : Place) → BoundedInt place.greatest
  | .coins a => (f.account a).coins
  | .fees a => (f.account a).fees
  | .jettons a master => (f.account a).net master

variable {f : Flow} {a x : Address}

lemma account_modify (f : Flow) (x : Address) (change : AccountFlow → AccountFlow) (a : Address) :
    (f.modify x change).account a = if x = a then change (f.account a) else f.account a := by
  unfold account modify
  rw [SortedMap.get?_upsert]
  split
  · rename_i heq
    rw [heq]
    rfl
  · rfl

lemma foldl_modify (es : List (Address × AccountFlow)) (f : Flow) :
    es.foldl (fun f e => f.modify e.1 (·.merge e.2)) f =
      ⟨es.foldl (fun m e => m.upsert e.1 fun old => (old.getD .zero).merge e.2) f.accounts⟩ := by
  induction es generalizing f with
  | nil => rfl
  | cons e es ih => rw [List.foldl_cons, ih]; rfl

lemma account_merge (f g : Flow) (a : Address) :
    (f.merge g).account a = (f.account a).merge (g.account a) := by
  unfold merge account
  rw [foldl_modify]
  show ((g.accounts.entries.foldl (fun m e => m.upsert e.1 fun old => (old.getD .zero).merge e.2)
    f.accounts).get? a).getD .zero = _
  rw [SortedMap.get?_foldl_upsert
    (fun (old : Option AccountFlow) (v : AccountFlow) => (old.getD .zero).merge v) _
    g.accounts.sorted, ← SortedMap.get?]
  cases g.accounts.get? a with
  | none => exact (AccountFlow.merge_zero _).symm
  | some v => rfl

/-- Merging adds at every place. -/
theorem entry_merge (f g : Flow) (place : Place) :
    (f.merge g).entry place = f.entry place + g.entry place := by
  cases place with
  | coins a => simp only [entry, account_merge, AccountFlow.merge_coins]; rfl
  | fees a => simp only [entry, account_merge, AccountFlow.merge_fees]; rfl
  | jettons a m => simp only [entry, account_merge, AccountFlow.merge_net]; rfl

lemma entry_foldl_merge (gs : List Flow) (f : Flow) (place : Place) :
    (gs.foldl merge f).entry place =
      (gs.map fun g => g.entry place).foldl (· + ·) (f.entry place) := by
  induction gs generalizing f with
  | nil => rfl
  | cons g gs ih => rw [List.foldl_cons, ih, entry_merge]; rfl

/-- A merge of many flows adds integers at a place where their absolute values stay in the range. -/
theorem val_entry_foldl (gs : List Flow) (f : Flow) (place : Place)
    (h : (f.entry place).val.natAbs + (gs.map fun g => (g.entry place).val.natAbs).sum ≤
      place.greatest) :
    ((gs.foldl merge f).entry place).val =
      (f.entry place).val + (gs.map fun g => (g.entry place).val).sum := by
  rw [entry_foldl_merge, BoundedInt.val_foldl_add, List.map_map]
  · rfl
  · rwa [List.map_map]

/-- All entries together, in absolute value; no single one is greater. -/
def volume (f : Flow) : Nat := (f.accounts.entries.map fun e => e.2.volume).sum

lemma volume_account_le (f : Flow) (a : Address) : (f.account a).volume ≤ f.volume := by
  rw [account]
  cases ha : f.accounts.get? a with
  | none => simp [AccountFlow.volume, AccountFlow.zero, SortedMap.empty]
  | some v =>
    exact List.le_sum_of_mem (List.mem_map_of_mem (f := fun e : Address × AccountFlow => e.2.volume)
      (SortedMap.get?_eq_some_iff.1 ha))

lemma natAbs_entry_le (f : Flow) (place : Place) :
    (f.entry place).val.natAbs ≤ f.volume := by
  cases place with
  | coins a =>
    refine Nat.le_trans ?_ (f.volume_account_le a)
    rw [AccountFlow.volume, Nat.add_assoc]
    exact Nat.le_add_right _ _
  | fees a =>
    refine Nat.le_trans ?_ (f.volume_account_le a)
    rw [AccountFlow.volume, Nat.add_right_comm]
    exact Nat.le_add_left _ _
  | jettons a m => exact Nat.le_trans ((f.account a).natAbs_net_le m) (f.volume_account_le a)

/-- If all flows together are in the range of coins, twice what they move is in the range at every
place. -/
theorem inRange_of_volume (fs : List Flow) (h : 2 * (fs.map volume).sum ≤ 9223372036854775807)
    (place : Place) :
    2 * (fs.map fun f => (f.entry place).val.natAbs).sum ≤ place.greatest := by
  have hsum : (fs.map fun f => (f.entry place).val.natAbs).sum ≤ (fs.map volume).sum :=
    List.sum_le_sum fun f _ => f.natAbs_entry_le place
  have hgreatest : 9223372036854775807 ≤ place.greatest := by
    cases place <;> simp [Place.greatest]
  omega

/-! ## Sums over accounts -/

/-- The coins of all accounts together. -/
def coinsTotal (f : Flow) : Int := (f.accounts.entries.map fun e => e.2.coins.val).sum

/-- The accounts that are named. -/
def named (f : Flow) : Finset Address := (f.accounts.entries.map Prod.fst).toFinset

lemma entry_coins_of_not_named (h : a ∉ f.named) : (f.entry (.coins a)).val = 0 := by
  have hno : f.accounts.get? a = none := by
    refine Option.eq_none_iff_forall_ne_some.2 fun v hv => h ?_
    rw [named, List.mem_toFinset]
    exact List.mem_map_of_mem (SortedMap.get?_eq_some_iff.1 hv)
  show ((f.accounts.get? a).getD .zero).coins.val = 0
  rw [hno]
  exact BoundedInt.val_zero

/-- The sum may be taken over any accounts that include those that are named. -/
lemma coinsTotal_eq_sum {S : Finset Address} (h : f.named ⊆ S) :
    f.coinsTotal = ∑ a ∈ S, (f.entry (.coins a)).val := by
  have hentries : f.coinsTotal =
      ((f.accounts.entries.map Prod.fst).map fun a => (f.entry (.coins a)).val).sum := by
    rw [coinsTotal, List.map_map]
    congr 1
    refine List.map_congr_left fun e he => ?_
    show e.2.coins.val = ((f.accounts.get? e.1).getD .zero).coins.val
    rw [SortedMap.get?_eq_some_iff.2 he]
    rfl
  rw [hentries, ← List.sum_toFinset _ f.accounts.keys_nodup]
  exact Finset.sum_subset h fun a _ ha => entry_coins_of_not_named ha

/-- If entries add up, their sums do. -/
lemma coinsTotal_eq_add {ι : Type} [DecidableEq ι] {f g : Flow} {parts : ι → Flow} {K : List ι}
    (hK : K.Nodup) (h : ∀ a, (f.entry (.coins a)).val =
      (g.entry (.coins a)).val + (K.map fun x => ((parts x).entry (.coins a)).val).sum) :
    f.coinsTotal = g.coinsTotal + (K.map fun x => (parts x).coinsTotal).sum := by
  let S := f.named ∪ (g.named ∪ K.toFinset.biUnion fun x => (parts x).named)
  have hf : f.named ⊆ S := Finset.subset_union_left
  have hg : g.named ⊆ S := Finset.subset_union_left.trans Finset.subset_union_right
  have hparts : ∀ x ∈ K.toFinset, (parts x).named ⊆ S := fun x hx =>
    (Finset.subset_biUnion_of_mem (fun x => (parts x).named) hx).trans
      (Finset.subset_union_right.trans Finset.subset_union_right)
  have hentry : ∀ a, (f.entry (.coins a)).val = (g.entry (.coins a)).val +
      ∑ x ∈ K.toFinset, ((parts x).entry (.coins a)).val := fun a => by
    rw [h a, List.sum_toFinset _ hK]
  rw [coinsTotal_eq_sum hf, coinsTotal_eq_sum hg, ← List.sum_toFinset _ hK]
  calc ∑ a ∈ S, (f.entry (.coins a)).val
      = ∑ a ∈ S, ((g.entry (.coins a)).val +
          ∑ x ∈ K.toFinset, ((parts x).entry (.coins a)).val) :=
        Finset.sum_congr rfl fun a _ => hentry a
    _ = ∑ a ∈ S, (g.entry (.coins a)).val +
          ∑ x ∈ K.toFinset, ∑ a ∈ S, ((parts x).entry (.coins a)).val := by
        rw [Finset.sum_add_distrib, Finset.sum_comm]
    _ = ∑ a ∈ S, (g.entry (.coins a)).val + ∑ x ∈ K.toFinset, (parts x).coinsTotal := by
        congr 1
        exact Finset.sum_congr rfl fun x hx => (coinsTotal_eq_sum (hparts x hx)).symm

/-! ## Flows of transactions -/

/-- The opcode does not matter to the flow of a transaction. -/
lemma ofTransaction_withOpcode (tx : Transaction) :
    ofTransaction tx.withOpcode = ofTransaction tx := by
  unfold Transaction.withOpcode
  split <;> rfl

lemma coins_addCoins (f : Flow) (x a : Address) (amount : Nanotons) :
    ((f.addCoins x amount).account a).coins =
      if x = a then (f.account a).coins + amount else (f.account a).coins := by
  rw [addCoins, account_modify]
  split <;> rfl

lemma coins_addFees (f : Flow) (x a : Address) (amount : Nanotons) :
    ((f.addFees x amount).account a).coins = (f.account a).coins := by
  rw [addFees, account_modify]
  split <;> rfl

lemma coins_addJettons (f : Flow) (x master a : Address) (amount : JettonNet) :
    ((f.addJettons x master amount).account a).coins = (f.account a).coins := by
  rw [addJettons, account_modify]
  split <;> rfl

/-- The coins of a transaction go from its source to its account. -/
lemma entry_coins_ofTransaction {tx : Transaction} {source : Account}
    (hsource : tx.source = some source) (hamount : -(2 ^ 63 : Int) < tx.amount.val) (a : Address) :
    ((ofTransaction tx).entry (.coins a)).val =
      (if tx.account.address = a then tx.amount.val else 0) +
        if source.address = a then -tx.amount.val else 0 := by
  have hcoins : ((ofTransaction tx).account a).coins =
      (((empty.addCoins tx.account.address tx.amount).addCoins source.address
        (-tx.amount)).account a).coins := by
    unfold ofTransaction
    rw [hsource]
    dsimp only
    split <;> split <;> simp only [coins_addJettons, coins_addFees]
  have hneg : (-tx.amount).val = -tx.amount.val := by
    have hupper := tx.amount.upper
    rw [BoundedInt.neg_eq_clamp]
    exact BoundedInt.val_clamp (by omega) (by omega)
  have hback : (tx.amount + -tx.amount).val = 0 := by
    rw [BoundedInt.add_eq_clamp, hneg, Int.add_right_neg]
    exact BoundedInt.val_zero
  have hzero : ((empty : Flow).account a).coins = 0 := rfl
  show ((ofTransaction tx).account a).coins.val = _
  rw [hcoins, coins_addCoins, coins_addCoins, hzero]
  split <;> split
  all_goals simp [hback, hneg]

/-- So over all accounts they add up to nothing. -/
theorem coinsTotal_ofTransaction {tx : Transaction} {source : Account}
    (hsource : tx.source = some source) (hamount : -(2 ^ 63 : Int) < tx.amount.val) :
    (ofTransaction tx).coinsTotal = 0 := by
  let S := (ofTransaction tx).named ∪ {tx.account.address, source.address}
  have haccount : tx.account.address ∈ S := by simp [S]
  have hother : source.address ∈ S := by simp [S]
  rw [coinsTotal_eq_sum (S := S) Finset.subset_union_left]
  simp only [entry_coins_ofTransaction hsource hamount, Finset.sum_add_distrib, Finset.sum_ite_eq,
    if_pos haccount, if_pos hother]
  omega

end Flow
end TraceFold
