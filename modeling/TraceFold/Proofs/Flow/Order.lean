import Mathlib.Data.List.Perm.Basic
import TraceFold.Proofs.Flow.Entries

/-!
# The order of merging

Sums of amounts stop at the ends of their range, so the order of the summands can matter: what is
cut off at one end is missing when the sum turns back.  It does not matter if the sum never turns
back after a cut, that is, if all summands have the same sign, or if neither the positive nor the
negative ones reach past an end by themselves (`BoundedInt.OrderFree`).  In all other cases some
order gives another sum (`foldl_add_perm_iff`).

A merge of many flows adds at every place, so its order is free exactly if it is free at every
place (`merge_orders_agree_iff`).  Which accounts and jettons are named never depends on it.
-/

namespace TraceFold

open Std

/-! ## Sums of amounts -/

namespace BoundedInt

variable {greatest : Nat} {ι : Type}

lemma val_clamp_eq (v : Int) : (clamp v : BoundedInt greatest).val =
    max (-(greatest : Int) - 1) (min v greatest) := by
  unfold clamp
  split
  · simp; omega
  · split <;> simp <;> omega

/-- The sum of the positive summands. -/
def rise (xs : List (BoundedInt greatest)) : Int := (xs.map fun x => max x.val 0).sum

/-- The sum of the negative summands. -/
def fall (xs : List (BoundedInt greatest)) : Int := (xs.map fun x => min x.val 0).sum

@[simp] lemma rise_nil : rise ([] : List (BoundedInt greatest)) = 0 := rfl

@[simp] lemma fall_nil : fall ([] : List (BoundedInt greatest)) = 0 := rfl

@[simp] lemma rise_cons (x : BoundedInt greatest) (xs : List (BoundedInt greatest)) :
    rise (x :: xs) = max x.val 0 + rise xs := by simp [rise]

@[simp] lemma fall_cons (x : BoundedInt greatest) (xs : List (BoundedInt greatest)) :
    fall (x :: xs) = min x.val 0 + fall xs := by simp [fall]

variable (xs : List (BoundedInt greatest))

lemma rise_nonneg : 0 ≤ rise xs := by
  induction xs with
  | nil => simp
  | cons x xs ih => simp; omega

lemma fall_nonpos : fall xs ≤ 0 := by
  induction xs with
  | nil => simp
  | cons x xs ih => simp; omega

lemma sum_eq_rise_add_fall : (xs.map val).sum = rise xs + fall xs := by
  induction xs with
  | nil => simp
  | cons x xs ih => simp; omega

/-- The order in which these are added does not matter: neither the positive nor the negative ones
leave the range by themselves, or there are none of one kind. -/
def OrderFree : Prop :=
  (rise xs ≤ greatest ∧ -(greatest : Int) - 1 ≤ fall xs) ∨ rise xs = 0 ∨ fall xs = 0

/-- A sum that never turns back after it was cut off is the sum of integers, cut off once. -/
theorem foldl_add_eq_clamp (a : BoundedInt greatest)
    (h : (a.val + rise xs ≤ greatest ∧ -(greatest : Int) - 1 ≤ a.val + fall xs) ∨
      rise xs = 0 ∨ fall xs = 0) :
    xs.foldl (· + ·) a = clamp (a.val + (xs.map val).sum) := by
  induction xs generalizing a with
  | nil => simp
  | cons x xs ih =>
    have hrise := rise_nonneg xs
    have hfall := fall_nonpos xs
    have hsum := sum_eq_rise_add_fall xs
    have hlower := a.lower
    have hupper := a.upper
    have hadd : (a + x).val = max (-(greatest : Int) - 1) (min (a.val + x.val) greatest) := by
      rw [add_eq_clamp, val_clamp_eq]
    rw [rise_cons, fall_cons] at h
    rw [List.foldl_cons, ih (a + x) (by omega)]
    ext
    rw [val_clamp_eq, val_clamp_eq, hadd, List.map_cons, List.sum_cons]
    omega

lemma rise_append (ys : List (BoundedInt greatest)) : rise (xs ++ ys) = rise xs + rise ys := by
  simp [rise]

lemma fall_append (ys : List (BoundedInt greatest)) : fall (xs ++ ys) = fall xs + fall ys := by
  simp [fall]

variable {xs}

lemma rise_perm {ys : List (BoundedInt greatest)} (h : xs.Perm ys) : rise xs = rise ys :=
  (h.map _).sum_eq

lemma fall_perm {ys : List (BoundedInt greatest)} (h : xs.Perm ys) : fall xs = fall ys :=
  (h.map _).sum_eq

lemma rise_eq_zero (h : ∀ x ∈ xs, x.val < 0) : rise xs = 0 := by
  induction xs with
  | nil => simp
  | cons x xs ih =>
    have hx := h x List.mem_cons_self
    have ih := ih fun y hy => h y (List.mem_cons_of_mem x hy)
    simp; omega

lemma fall_eq_zero (h : ∀ x ∈ xs, 0 ≤ x.val) : fall xs = 0 := by
  induction xs with
  | nil => simp
  | cons x xs ih =>
    have hx := h x List.mem_cons_self
    have ih := ih fun y hy => h y (List.mem_cons_of_mem x hy)
    simp; omega

/-- Summands of one sign after summands of the other: each part is cut off at its end. -/
lemma val_foldl_append {ys : List (BoundedInt greatest)} (hxs : rise xs = 0 ∨ fall xs = 0)
    (hys : rise ys = 0 ∨ fall ys = 0) : ((xs ++ ys).foldl (· + ·) 0).val =
      (clamp ((clamp (rise xs + fall xs) : BoundedInt greatest).val +
        (rise ys + fall ys)) : BoundedInt greatest).val := by
  rw [List.foldl_append, foldl_add_eq_clamp xs 0 (.inr hxs), foldl_add_eq_clamp ys _ (.inr hys),
    val_zero, Int.zero_add, sum_eq_rise_add_fall, sum_eq_rise_add_fall]

/-- The sum is the same in all orders exactly if the order is free: otherwise it makes a difference
whether the positive summands come first or the negative ones. -/
theorem foldl_add_perm_iff (v : ι → BoundedInt greatest) (l : List ι) :
    (∀ l' : List ι, l'.Perm l → (l'.map v).foldl (· + ·) 0 = (l.map v).foldl (· + ·) 0) ↔
      OrderFree (l.map v) := by
  constructor
  · intro h
    let ups := l.filter fun i => decide (0 ≤ (v i).val)
    let downs := l.filter fun i => !decide (0 ≤ (v i).val)
    have hups : fall (ups.map v) = 0 := fall_eq_zero fun x hx => by
      obtain ⟨i, hi, rfl⟩ := List.mem_map.1 hx
      simpa using (List.mem_filter.1 hi).2
    have hdowns : rise (downs.map v) = 0 := rise_eq_zero fun x hx => by
      obtain ⟨i, hi, rfl⟩ := List.mem_map.1 hx
      simpa using (List.mem_filter.1 hi).2
    have hperm : (ups ++ downs).Perm l := List.filter_append_perm _ l
    have hrise : rise (ups.map v) = rise (l.map v) := by
      have happend := rise_perm (hperm.map v)
      rw [List.map_append, rise_append] at happend
      omega
    have hfall : fall (downs.map v) = fall (l.map v) := by
      have happend := fall_perm (hperm.map v)
      rw [List.map_append, fall_append] at happend
      omega
    have hsame := congrArg val
      ((h _ hperm).trans (h _ (List.perm_append_comm.trans hperm)).symm)
    rw [List.map_append, List.map_append, val_foldl_append (.inr hups) (.inl hdowns),
      val_foldl_append (.inl hdowns) (.inr hups), hups, hdowns, hrise, hfall] at hsame
    have hnonneg := rise_nonneg (l.map v)
    have hnonpos := fall_nonpos (l.map v)
    simp only [val_clamp_eq] at hsame
    unfold OrderFree
    omega
  · intro h l' hperm
    have hmap := hperm.map v
    have h' : OrderFree (l'.map v) := by
      unfold OrderFree at h ⊢
      rwa [rise_perm hmap, fall_perm hmap]
    rw [foldl_add_eq_clamp _ 0 (by simpa [OrderFree] using h'),
      foldl_add_eq_clamp _ 0 (by simpa [OrderFree] using h), (hmap.map val).sum_eq]

end BoundedInt

/-! ## Equal flows -/

namespace Flow

variable {f g : Flow}

/-- Two flows have entries for the same accounts, and there for the same jettons. -/
structure SameNames (f g : Flow) : Prop where
  accounts : ∀ a, (f.accounts.get? a).isSome = (g.accounts.get? a).isSome
  jettons : ∀ a m, ((f.account a).jettons.get? m).isSome = ((g.account a).jettons.get? m).isSome

/-- Flows are the same if they name the same and have the same entries. -/
lemma eq_of_entries (hnames : SameNames f g) (h : ∀ place, f.entry place = g.entry place) :
    f = g := by
  have haccount : ∀ a, f.account a = g.account a := by
    intro a
    have hjettons : (f.account a).jettons = (g.account a).jettons := by
      refine SortedMap.ext_get? fun m => ?_
      have hsome := hnames.jettons a m
      have hnet : ((f.account a).jettons.get? m).getD 0 = ((g.account a).jettons.get? m).getD 0 :=
        h (.jettons a m)
      cases hf : (f.account a).jettons.get? m <;> cases hg : (g.account a).jettons.get? m <;>
        simp_all
    have hcoins : (f.account a).coins = (g.account a).coins := h (.coins a)
    have hfees : (f.account a).fees = (g.account a).fees := h (.fees a)
    calc f.account a = ⟨(f.account a).coins, (f.account a).fees, (f.account a).jettons⟩ := rfl
      _ = g.account a := by rw [hcoins, hfees, hjettons]
  have hmaps : f.accounts = g.accounts := by
    refine SortedMap.ext_get? fun a => ?_
    have hsome := hnames.accounts a
    have hget : (f.accounts.get? a).getD .zero = (g.accounts.get? a).getD .zero := haccount a
    cases hf : f.accounts.get? a <;> cases hg : g.accounts.get? a <;> simp_all
  cases f; cases g
  simp_all

/-! ## Merging many flows -/

/-- The merge of some flows, one after the other, into the empty one. -/
def mergeAll (flows : List Flow) : Flow := flows.foldl merge empty

lemma isSome_get?_merge (f g : Flow) (a : Address) : ((f.merge g).accounts.get? a).isSome =
    ((f.accounts.get? a).isSome || (g.accounts.get? a).isSome) := by
  rw [merge, foldl_modify]
  exact SortedMap.isSome_get?_foldl_upsert (fun old (v : AccountFlow) => (old.getD .zero).merge v)
    f.accounts g.accounts a

lemma isSome_get?_jettons_merge (f g : Flow) (a m : Address) :
    (((f.merge g).account a).jettons.get? m).isSome =
      (((f.account a).jettons.get? m).isSome || ((g.account a).jettons.get? m).isSome) := by
  rw [account_merge, AccountFlow.merge, AccountFlow.foldl_addJettons]
  exact SortedMap.isSome_get?_foldl_upsert (fun old (v : JettonNet) => old.getD 0 + v)
    (f.account a).jettons (g.account a).jettons m

/-- What a merge has if one of its parts has it, a merge of many has if any of them has it. -/
lemma mergeAll_any (has : Flow → Bool) (hempty : has empty = false)
    (hmerge : ∀ f g : Flow, has (f.merge g) = (has f || has g)) (flows : List Flow) :
    has (mergeAll flows) = flows.any has := by
  have key : ∀ f : Flow, has (flows.foldl merge f) = (has f || flows.any has) := by
    induction flows with
    | nil => simp
    | cons g flows ih => intro f; rw [List.foldl_cons, ih, hmerge, List.any_cons, Bool.or_assoc]
  rw [mergeAll, key, hempty, Bool.false_or]

lemma sameNames_of_perm {flows other : List Flow} (h : other.Perm flows) :
    SameNames (mergeAll other) (mergeAll flows) where
  accounts a := by
    have hany := mergeAll_any (fun f => (f.accounts.get? a).isSome) rfl
      fun f g => isSome_get?_merge f g a
    rw [hany, hany, h.any_eq]
  jettons a m := by
    have hany := mergeAll_any (fun f => ((f.account a).jettons.get? m).isSome) rfl
      fun f g => isSome_get?_jettons_merge f g a m
    rw [hany, hany, h.any_eq]

lemma entry_mergeAll (flows : List Flow) (place : Place) :
    (mergeAll flows).entry place = (flows.map fun f => f.entry place).foldl (· + ·) 0 := by
  rw [mergeAll, entry_foldl_merge]
  cases place <;> rfl

/-- In whatever order flows are merged, the same accounts and jettons are named; and all orders give
the same flow exactly if at every place the order of the entries is free. -/
theorem merge_orders_agree_iff (flows : List Flow) :
    (∀ other : List Flow, other.Perm flows → SameNames (mergeAll other) (mergeAll flows)) ∧
    ((∀ other : List Flow, other.Perm flows → mergeAll other = mergeAll flows) ↔
      ∀ place : Place, BoundedInt.OrderFree (flows.map fun f => f.entry place)) := by
  refine ⟨fun other h => sameNames_of_perm h, fun h place => ?_, fun h other hperm => ?_⟩
  · refine (BoundedInt.foldl_add_perm_iff (fun f => f.entry place) flows).1 fun other hperm => ?_
    rw [← entry_mergeAll, ← entry_mergeAll, h other hperm]
  · refine eq_of_entries (sameNames_of_perm hperm) fun place => ?_
    rw [entry_mergeAll, entry_mergeAll]
    exact (BoundedInt.foldl_add_perm_iff (fun f => f.entry place) flows).2 (h place) other hperm

/-- Somebody has all the coins there can be, receives one more and sends one. -/
theorem merge_order_matters :
    let received := empty.addCoins .zero (BoundedInt.clamp (2 ^ 63 - 1))
    let more := empty.addCoins .zero (BoundedInt.clamp 1)
    let sent := empty.addCoins .zero (BoundedInt.clamp (-1))
    [received, sent, more].Perm [received, more, sent] ∧
      mergeAll [received, sent, more] ≠ mergeAll [received, more, sent] := by
  decide

end Flow
end TraceFold
