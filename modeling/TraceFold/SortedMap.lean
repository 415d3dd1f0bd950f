/-!
# Sorted maps

A finite map kept as a list of entries in ascending key order, each key once.  The order is part
of the type, so equal maps are equal values whatever the sequence of writes that made them, and
listing a map needs no sorting.  Maps here are small (the accounts one bubble touches), so a list
is enough.
-/

namespace TraceFold

open Std

/-- A map from `κ` to `ν`, its entries in strictly ascending key order. -/
structure SortedMap (κ ν : Type) [Ord κ] where
  entries : List (κ × ν)
  sorted : entries.Pairwise fun a b => compare a.1 b.1 = .lt

namespace SortedMap

variable {κ ν : Type} [Ord κ]

/-- The map without entries. -/
def empty : SortedMap κ ν := ⟨[], .nil⟩

instance : Inhabited (SortedMap κ ν) := ⟨empty⟩

instance [DecidableEq κ] [DecidableEq ν] : DecidableEq (SortedMap κ ν) := fun a b =>
  decidable_of_iff (a.entries = b.entries) (by cases a; cases b; simp)

/-- The value at a key. -/
def get? (m : SortedMap κ ν) (k : κ) : Option ν :=
  (m.entries.find? fun e => compare e.1 k == .eq).map Prod.snd

def isEmpty (m : SortedMap κ ν) : Bool := m.entries.isEmpty

/-- Write `f old` at key `k`, where `old` is the value there, if there is one. -/
def upsertEntries (k : κ) (f : Option ν → ν) : List (κ × ν) → List (κ × ν)
  | [] => [(k, f none)]
  | e :: es => match compare k e.1 with
    | .lt => (k, f none) :: e :: es
    | .eq => (e.1, f (some e.2)) :: es
    | .gt => e :: upsertEntries k f es

/-- A write adds no key but the one written. -/
theorem mem_upsertEntries {k : κ} {f : Option ν → ν} {es : List (κ × ν)} {x : κ × ν}
    (h : x ∈ upsertEntries k f es) : x.1 = k ∨ ∃ y ∈ es, x.1 = y.1 := by
  induction es with
  | nil => simp only [upsertEntries, List.mem_singleton] at h; exact .inl (by rw [h])
  | cons e es ih =>
    rw [upsertEntries] at h
    split at h
    · rcases List.mem_cons.1 h with rfl | h
      · exact .inl rfl
      · exact .inr ⟨x, h, rfl⟩
    · rcases List.mem_cons.1 h with rfl | h
      · exact .inr ⟨e, List.mem_cons_self, rfl⟩
      · exact .inr ⟨x, List.mem_cons_of_mem _ h, rfl⟩
    · rcases List.mem_cons.1 h with rfl | h
      · exact .inr ⟨x, List.mem_cons_self, rfl⟩
      · rcases ih h with h | ⟨y, hy, h⟩
        · exact .inl h
        · exact .inr ⟨y, List.mem_cons_of_mem _ hy, h⟩

theorem sorted_upsertEntries [TransOrd κ] (k : κ) (f : Option ν → ν) {es : List (κ × ν)}
    (h : es.Pairwise fun a b => compare a.1 b.1 = .lt) :
    (upsertEntries k f es).Pairwise fun a b => compare a.1 b.1 = .lt := by
  induction es with
  | nil => simp [upsertEntries]
  | cons e es ih =>
    have ⟨he, hes⟩ := List.pairwise_cons.1 h
    rw [upsertEntries]
    split
    · rename_i hk
      refine List.pairwise_cons.2 ⟨fun x hx => ?_, h⟩
      rcases List.mem_cons.1 hx with rfl | hx
      · exact hk
      · exact TransCmp.lt_trans hk (he x hx)
    · exact List.pairwise_cons.2 ⟨fun x hx => he x hx, hes⟩
    · rename_i hk
      refine List.pairwise_cons.2 ⟨fun x hx => ?_, ih hes⟩
      rcases mem_upsertEntries hx with hx | ⟨y, hy, hx⟩
      · rw [hx]; exact OrientedCmp.gt_iff_lt.1 hk
      · rw [hx]; exact he y hy

/-- The map with `f old` at key `k`, where `old` is what was there before, if anything. -/
def upsert [TransOrd κ] (m : SortedMap κ ν) (k : κ) (f : Option ν → ν) : SortedMap κ ν :=
  ⟨upsertEntries k f m.entries, sorted_upsertEntries k f m.sorted⟩

/-- The map with `v` at key `k`. -/
def insert [TransOrd κ] (m : SortedMap κ ν) (k : κ) (v : ν) : SortedMap κ ν :=
  m.upsert k fun _ => v

/-- The map without key `k`. -/
def erase (m : SortedMap κ ν) (k : κ) : SortedMap κ ν :=
  ⟨m.entries.filter fun e => compare e.1 k != .eq, m.sorted.filter _⟩

/-! ## What a write does to the values -/

@[simp] theorem get?_empty (k : κ) : (empty : SortedMap κ ν).get? k = none := rfl

/-- A write into entries is seen at its key and nowhere else. -/
theorem find?_upsertEntries [TransOrd κ] [LawfulEqOrd κ] (k k' : κ) (f : Option ν → ν)
    (es : List (κ × ν)) (h : es.Pairwise fun a b => compare a.1 b.1 = .lt) :
    ((upsertEntries k f es).find? fun e => compare e.1 k' == .eq).map Prod.snd =
      if compare k k' = .eq then some (f ((es.find? fun e => compare e.1 k == .eq).map Prod.snd))
      else (es.find? fun e => compare e.1 k' == .eq).map Prod.snd := by
  induction es with
  | nil => by_cases hk : compare k k' = .eq <;> simp [upsertEntries, hk]
  | cons e es ih =>
    have ⟨he, hes⟩ := List.pairwise_cons.1 h
    rw [upsertEntries]
    split
    · rename_i hk
      by_cases hk' : compare k k' = .eq
      · have hkk : k = k' := LawfulEqOrd.eq_of_compare hk'
        subst hkk
        have hno : (e :: es).find? (fun x => compare x.1 k == .eq) = none := by
          rw [List.find?_eq_none]
          intro x hx
          rcases List.mem_cons.1 hx with rfl | hx
          · rw [@OrientedCmp.eq_swap κ compare _ x.1 k, hk]; decide
          · have hxk := TransCmp.lt_trans hk (he x hx)
            rw [@OrientedCmp.eq_swap κ compare _ x.1 k, hxk]; decide
        rw [hno, List.find?_cons_of_pos (by simp), if_pos hk']
        rfl
      · rw [List.find?_cons_of_neg (by simpa using hk'), if_neg hk']
    · rename_i hk
      have hke : k = e.1 := LawfulEqOrd.eq_of_compare hk
      subst hke
      by_cases hk' : compare e.1 k' = .eq
      · simp [hk']
      · simp [hk']
    · rename_i hk
      have hek : compare e.1 k ≠ .eq := by
        rw [@OrientedCmp.eq_swap κ compare _ e.1 k, hk]; decide
      by_cases hk' : compare e.1 k' = .eq
      · have hkk : e.1 = k' := LawfulEqOrd.eq_of_compare hk'
        have hno : compare k k' ≠ .eq := by rw [← hkk, hk]; decide
        simp [hk', hno]
      · have hb : (compare e.1 k == .eq) = false := by simpa using hek
        have hb' : (compare e.1 k' == .eq) = false := by simpa using hk'
        simp only [List.find?_cons, hb, hb', ih hes]

/-- A write is seen at its key and nowhere else. -/
theorem get?_upsert [TransOrd κ] [LawfulEqOrd κ] [DecidableEq κ] (m : SortedMap κ ν) (k k' : κ)
    (f : Option ν → ν) :
    (m.upsert k f).get? k' = if k = k' then some (f (m.get? k)) else m.get? k' := by
  rw [get?, upsert, find?_upsertEntries k k' f m.entries m.sorted]
  by_cases h : k = k'
  · simp [h, get?]
  · rw [if_neg h, if_neg (fun e => h (LawfulEqOrd.eq_of_compare e))]; rfl

/-- An erased key is gone, and no other. -/
theorem get?_erase [TransOrd κ] [LawfulEqOrd κ] [DecidableEq κ] (m : SortedMap κ ν) (k k' : κ) :
    (m.erase k).get? k' = if k = k' then none else m.get? k' := by
  rw [get?, erase, List.find?_filter]
  by_cases h : k = k'
  · subst h
    simp
  · rw [if_neg h, get?]
    congr 2
    funext e
    by_cases he : e.1 = k' <;> simp [he, Ne.symm h]

end SortedMap
end TraceFold
