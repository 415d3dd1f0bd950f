import Mathlib.Data.List.Nodup
import Mathlib.Data.List.Perm.Basic
import TraceFold.SortedMap

/-!
# Sorted maps

A map is determined by its values (`ext_get?`), since its entries stand in the order of their keys
and every key occurs once.  What many writes do to the values, one after the other, is told from
the keys that they name (`get?_foldl_upsert`, `get?_foldl_erase`).
-/

namespace TraceFold

open Std

namespace SortedMap

variable {κ ν μ : Type} [Ord κ] [TransOrd κ] {m m' : SortedMap κ ν} {k : κ} {v : ν}

lemma keys_nodup (m : SortedMap κ ν) : (m.entries.map Prod.fst).Nodup := by
  rw [List.Nodup, List.pairwise_map]
  refine m.sorted.imp fun {a b} hlt heq => ?_
  have hself : compare b.1 b.1 = .eq := ReflCmp.compare_self
  rw [heq, hself] at hlt
  cases hlt

/-- Nothing after an entry has the same key. -/
lemma find?_eq_none_of_lt {es : List (κ × μ)} (h : ∀ e ∈ es, compare k e.1 = .lt) :
    (es.find? fun e => compare e.1 k == .eq) = none := by
  refine List.find?_eq_none.2 fun e he => ?_
  rw [@OrientedCmp.eq_swap κ compare _ e.1 k, h e he]
  decide

variable [LawfulEqOrd κ]

omit [TransOrd κ] in
lemma get?_eq_some_iff : m.get? k = some v ↔ (k, v) ∈ m.entries := by
  obtain ⟨es, hes⟩ := m
  show ((es.find? fun e => compare e.1 k == .eq).map Prod.snd = some v) ↔ (k, v) ∈ es
  induction es with
  | nil => simp
  | cons e es ih =>
    have ⟨he, hes⟩ := List.pairwise_cons.1 hes
    have ih := ih hes
    by_cases hk : e.1 = k
    · subst hk
      have hno : (e.1, v) ∉ es := fun hmem => by simpa using he _ hmem
      rw [List.find?_cons_of_pos (by simp), List.mem_cons, or_iff_left hno]
      simp [Prod.ext_iff, eq_comm]
    · have hne : (compare e.1 k == .eq) = false := by simpa using hk
      have hpair : (k, v) ≠ e := fun heq => hk (by rw [← heq])
      rw [List.find?_cons_of_neg (by simp [hne]), ih, List.mem_cons, or_iff_right hpair]

/-- Maps with the same values are the same. -/
lemma ext_get? (h : ∀ k, m.get? k = m'.get? k) : m = m' := by
  have hnodup : ∀ m : SortedMap κ ν, m.entries.Nodup := fun m => m.keys_nodup.of_map _
  have hperm : m.entries.Perm m'.entries := by
    refine (List.perm_ext_iff_of_nodup (hnodup m) (hnodup m')).2 fun ⟨k, v⟩ => ?_
    rw [← get?_eq_some_iff, ← get?_eq_some_iff, h k]
  have hentries : m.entries = m'.entries := by
    refine hperm.eq_of_pairwise (fun a b _ _ hab hba => ?_) m.sorted m'.sorted
    exact absurd hba (OrientedCmp.not_lt_of_lt hab)
  cases m; cases m'
  simp_all

/-! ## Many writes -/

variable [DecidableEq κ]

/-- Writing entries one after the other changes each key once. -/
lemma get?_foldl_upsert (f : Option ν → μ → ν) (es : List (κ × μ))
    (hes : es.Pairwise fun a b => compare a.1 b.1 = .lt) (m : SortedMap κ ν) (k : κ) :
    (es.foldl (fun m e => m.upsert e.1 fun old => f old e.2) m).get? k =
      match (es.find? fun e => compare e.1 k == .eq).map Prod.snd with
      | some v => some (f (m.get? k) v)
      | none => m.get? k := by
  induction es generalizing m with
  | nil => rfl
  | cons e es ih =>
    have ⟨he, hes⟩ := List.pairwise_cons.1 hes
    rw [List.foldl_cons, ih hes, get?_upsert]
    by_cases hk : e.1 = k
    · subst hk
      rw [find?_eq_none_of_lt he, List.find?_cons_of_pos (by simp)]
      simp
    · have hne : (compare e.1 k == .eq) = false := by simpa using hk
      rw [if_neg hk, List.find?_cons_of_neg (by simp [hne])]

/-- Writing all entries of a map into another one names what either of them names. -/
lemma isSome_get?_foldl_upsert (f : Option ν → μ → ν) (m : SortedMap κ ν) (m' : SortedMap κ μ)
    (k : κ) :
    ((m'.entries.foldl (fun m e => m.upsert e.1 fun old => f old e.2) m).get? k).isSome =
      ((m.get? k).isSome || (m'.get? k).isSome) := by
  rw [get?_foldl_upsert f m'.entries m'.sorted, ← get?]
  cases m'.get? k <;> simp

/-- Erasing keys one after the other erases all of them, and no others. -/
lemma get?_foldl_erase (ks : List κ) (m : SortedMap κ ν) (k : κ) :
    (ks.foldl erase m).get? k = if k ∈ ks then none else m.get? k := by
  induction ks generalizing m with
  | nil => simp
  | cons i ks ih =>
    rw [List.foldl_cons, ih, get?_erase]
    by_cases hk : k ∈ ks
    · simp [hk]
    · by_cases hik : i = k
      · simp [hik]
      · simp [hk, hik, Ne.symm hik]

end SortedMap
end TraceFold
