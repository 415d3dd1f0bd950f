import TraceFold.Proofs.Forest.Walks

/-!
# Contractions

A group of bubbles that hang together (`Forest.Group`) is drawn together into the one at its top:
the others go, and what hung on any of them hangs on the top one afterwards, in the order in which
the walk through the old forest meets it (`Forest.Contracts`).

A contraction keeps a forest well-formed (`Contracts.wellFormed`), takes away as many bubbles as
there are in the group but one (`Contracts.size_add`), and leaves the others in the order in which
they were (`Contracts.preOrder`, `Contracts.postOrder`).
-/

namespace TraceFold.Forest

variable {F F' : Forest} {b : Bubble} {K : List BubbleId} {n m : Nat}
  {root id c p x y : BubbleId}

/-! ## Groups -/

/-- Live bubbles, each listed once, all of which hang on one of them, either directly or by way of
others. -/
structure Group (F : Forest) (root : BubbleId) (K : List BubbleId) : Prop where
  root_mem : root ∈ K
  nodup : K.Nodup
  live : ∀ x ∈ K, F.contains x = true
  parent : ∀ x ∈ K, x = root ∨ ∃ y ∈ K, x ∈ F.children y

namespace Group

/-- Going up from parent to parent ends at the top. -/
lemma below (hF : F.WellFormed) (hK : F.Group root K) (hx : x ∈ K) : F.Below root x := by
  induction x using Nat.strongRecOn with
  | ind x ih =>
    rcases hK.parent x hx with rfl | ⟨y, hy, hxy⟩
    · exact .refl F x
    · exact (ih y (hF.lt_of_mem_children hxy) hy).child hxy

lemma parent_mem (hF : F.WellFormed) (hK : F.Group root K) (hx : x ∈ K) (hne : x ≠ root)
    (hp : x ∈ F.children p) : p ∈ K := by
  rcases hK.parent x hx with h | ⟨y, hy, hxy⟩
  · exact absurd h hne
  · rwa [hF.parent_unique hp hxy]

/-- Only the top of a group can be a root of the forest. -/
lemma eq_root_of_mem_roots (hF : F.WellFormed) (hK : F.Group root K) (hx : x ∈ K)
    (hroot : x ∈ F.roots) : x = root := by
  rcases hK.parent x hx with h | ⟨y, -, hxy⟩
  · exact h
  · exact absurd hroot (hF.not_mem_roots hxy)

lemma not_mem_of_root_child (hF : F.WellFormed) (hK : F.Group root K)
    (hp : root ∈ F.children p) : p ∉ K :=
  fun hmem => hF.not_below_of_mem_children hp (hK.below hF hmem)

lemma contains_root (hK : F.Group root K) : F.contains root = true := hK.live root hK.root_mem

/-- A walk that stays within the group meets its bubbles and what hangs on them. -/
lemma within_iff (hF : F.WellFormed) (hK : F.Group root K) :
    F.Within K.contains root x ↔ x ∈ K ∨ ∃ y ∈ K, x ∈ F.children y := by
  constructor
  · intro h
    rcases Relation.ReflTransGen.cases_tail h with rfl | ⟨y, -, hy, hx⟩
    · exact .inl hK.root_mem
    · exact .inr ⟨y, List.contains_iff_mem.1 hy, hx⟩
  · have hin : ∀ x : Nat, x ∈ K → F.Within K.contains root x := by
      intro x
      induction x using Nat.strongRecOn with
      | ind x ih =>
        intro hx
        rcases hK.parent x hx with rfl | ⟨y, hy, hxy⟩
        · exact .refl
        · exact (ih y (hF.lt_of_mem_children hxy) hy).tail ⟨List.contains_iff_mem.2 hy, hxy⟩
    rintro (hx | ⟨y, hy, hxy⟩)
    · exact hin x hx
    · exact (hin y hy).tail ⟨List.contains_iff_mem.2 hy, hxy⟩

end Group

/-! ## What hangs on a group, in order -/

/-- The children of bubbles of `K` that are not themselves in `K`, in the order of the walk with
parents first. -/
def hanging (F : Forest) (K : List BubbleId) : List BubbleId :=
  F.preOrder.filter fun x => !K.contains x && K.any fun y => (F.children y).contains x

lemma mem_hanging (hF : F.WellFormed) :
    x ∈ F.hanging K ↔ x ∉ K ∧ ∃ y ∈ K, x ∈ F.children y := by
  simp only [hanging, List.mem_filter, Bool.and_eq_true, Bool.not_eq_true', List.any_eq_true,
    List.contains_iff_mem, hF.mem_preOrder, ← Bool.not_eq_true]
  constructor
  · exact fun h => h.2
  · rintro ⟨hx, y, hy, hxy⟩
    exact ⟨hF.children_live y x hxy, hx, y, hy, hxy⟩

/-- Part of a list without repetitions is picked out by its members. -/
lemma filter_contains_of_sublist {l L : List BubbleId} (h : l.Sublist L) (hL : L.Nodup) :
    L.filter l.contains = l := by
  induction h with
  | slnil => rfl
  | @cons l L a h ih =>
    have ha := (List.nodup_cons.1 hL).1
    have hal : a ∉ l := fun hmem => ha (h.subset hmem)
    rw [List.filter_cons_of_neg (by rw [List.contains_iff_mem]; exact hal),
      ih (List.nodup_cons.1 hL).2]
  | @cons_cons l L a h ih =>
    have ha := (List.nodup_cons.1 hL).1
    rw [List.filter_cons_of_pos (by rw [List.contains_iff_mem]; exact List.mem_cons_self)]
    congr 1
    rw [← ih (List.nodup_cons.1 hL).2]
    refine List.filter_congr fun x hx => ?_
    have hne : x ≠ a := fun e => ha (e ▸ hx)
    rw [ih (List.nodup_cons.1 hL).2, Bool.eq_iff_iff, List.contains_iff_mem,
      List.contains_iff_mem, List.mem_cons]
    exact or_iff_right hne

/-- The walk from a bubble is part of the walk from any bubble above it. -/
lemma WellFormed.below_sublist_below (hF : F.WellFormed) (h : F.Below p x) :
    (F.below (fun _ => true) F.slots.size x).Sublist
      (F.below (fun _ => true) F.slots.size p) := by
  induction h with
  | refl => exact List.Sublist.refl _
  | @tail y z hy hz ih =>
    refine List.Sublist.trans ?_ ih
    obtain ⟨b, hb⟩ := contains_iff.1 (contains_of_mem_children hz)
    obtain ⟨k, hk⟩ : ∃ k, F.slots.size = k + 1 := by
      have := lt_size_of_contains (contains_of_get? hb)
      exact ⟨F.slots.size - 1, by omega⟩
    have hlt := hF.lt_of_mem_children hz
    have hlive := hF.children_live y z hz
    have hlevels : F.below (fun _ => true) k z = F.below (fun _ => true) F.slots.size z :=
      hF.below_levels hlive (Nat.le_add_right F.slots.size z) k (by omega)
    rw [← hlevels, hk, below_of_inside rfl hb]
    rw [children_eq hb] at hz
    exact (List.sublist_flatten_of_mem (List.mem_map_of_mem hz)).trans
      (by rw [← List.flatMap_def]; exact List.sublist_cons_self _ _)

lemma WellFormed.below_sublist_preOrder (hF : F.WellFormed) (hid : F.contains id = true) :
    (F.below (fun _ => true) F.slots.size id).Sublist F.preOrder := by
  obtain ⟨r, hr, hrid⟩ := hF.exists_root_below hid
  refine (hF.below_sublist_below hrid).trans ?_
  rw [preOrder, List.flatMap_def]
  exact List.sublist_flatten_of_mem (List.mem_map_of_mem hr)

namespace Group

/-- The walk within a group is the part of the whole walk that meets the group and what hangs on
it. -/
lemma below_eq_filter (hF : F.WellFormed) (hK : F.Group root K) :
    F.below K.contains F.slots.size root = F.preOrder.filter fun x =>
      K.contains x || K.any fun y => (F.children y).contains x := by
  have hlive := hK.contains_root
  have hsub := (hF.below_sublist K.contains hlive (Nat.le_add_right _ root)).trans
    (hF.below_sublist_preOrder hlive)
  rw [← filter_contains_of_sublist hsub hF.preOrder_nodup]
  refine List.filter_congr fun x _ => ?_
  rw [Bool.eq_iff_iff, List.contains_iff_mem, hF.mem_below hlive (Nat.le_add_right _ root),
    hK.within_iff hF]
  simp only [Bool.or_eq_true, List.any_eq_true, List.contains_iff_mem]

/-- The bubbles of a group, in the order of the walk within it. -/
lemma filter_below (hF : F.WellFormed) (hK : F.Group root K) :
    (F.below K.contains F.slots.size root).filter K.contains = F.preOrder.filter K.contains := by
  rw [hK.below_eq_filter hF, List.filter_filter]
  refine List.filter_congr fun x _ => ?_
  cases K.contains x <;> rfl

/-- What hangs on a group, in the order of the walk within it. -/
lemma filter_below_not (hF : F.WellFormed) (hK : F.Group root K) :
    ((F.below K.contains F.slots.size root).filter fun x => !K.contains x) = F.hanging K := by
  rw [hK.below_eq_filter hF, List.filter_filter, hanging]
  refine List.filter_congr fun x _ => ?_
  cases K.contains x <;> rfl

end Group

/-! ## Drawing a group together -/

/-- `F'` is `F` with the group `K` drawn together into the bubble at its top. -/
structure Contracts (F F' : Forest) (root : BubbleId) (K : List BubbleId) : Prop where
  group : F.Group root K
  slots : F'.slots.size = F.slots.size
  roots : F'.roots = F.roots
  outside : ∀ x, x ∉ K → F'.get? x = F.get? x
  gone : ∀ x ∈ K, x ≠ root → F'.get? x = none
  root_live : F'.contains root = true
  root_children : F'.children root = F.hanging K

namespace Contracts

lemma contains_iff (h : F.Contracts F' root K) :
    F'.contains x = true ↔ F.contains x = true ∧ (x ∈ K → x = root) := by
  by_cases hx : x ∈ K
  · by_cases hroot : x = root
    · subst hroot
      exact ⟨fun _ => ⟨h.group.contains_root, fun _ => rfl⟩, fun _ => h.root_live⟩
    · rw [contains, h.gone x hx hroot]
      exact ⟨fun hfalse => absurd hfalse (by decide), fun hand => absurd (hand.2 hx) hroot⟩
  · rw [contains_congr (h.outside x hx)]
    exact ⟨fun hlive => ⟨hlive, fun hmem => absurd hmem hx⟩, And.left⟩

/-- What is left, except for the top of the group, is as it was. -/
lemma get?_of_contains (h : F.Contracts F' root K) (hx : F'.contains x = true) (hne : x ≠ root) :
    F'.get? x = F.get? x :=
  h.outside x fun hmem => hne ((h.contains_iff.1 hx).2 hmem)

/-- A child in the new forest was a child of the same bubble, or hung on the group. -/
lemma mem_children (hF : F.WellFormed) (h : F.Contracts F' root K) (hc : c ∈ F'.children p) :
    p ∉ K ∧ c ∈ F.children p ∨ p = root ∧ c ∉ K ∧ ∃ y ∈ K, c ∈ F.children y := by
  by_cases hp : p ∈ K
  · by_cases hroot : p = root
    · subst hroot
      rw [h.root_children, mem_hanging hF] at hc
      exact .inr ⟨rfl, hc⟩
    · rw [children_eq_nil (h.gone p hp hroot)] at hc
      cases hc
  · rw [children_congr (h.outside p hp)] at hc
    exact .inl ⟨hp, hc⟩

/-- Contraction keeps a forest well-formed. -/
theorem wellFormed (hF : F.WellFormed) (h : F.Contracts F' root K) : F'.WellFormed := by
  have hK := h.group
  apply wellFormed_of_lists
  · intro x hx
    rw [h.roots] at hx
    exact h.contains_iff.2 ⟨hF.roots_live x hx, fun hmem => hK.eq_root_of_mem_roots hF hmem hx⟩
  · intro p c hc
    rcases h.mem_children hF hc with ⟨hp, hc⟩ | ⟨-, hcK, y, -, hc⟩
    · refine h.contains_iff.2 ⟨hF.children_live p c hc, fun hmem => ?_⟩
      by_contra hne
      exact hp (hK.parent_mem hF hmem hne hc)
    · exact h.contains_iff.2 ⟨hF.children_live y c hc, fun hmem => absurd hmem hcK⟩
  · intro p c hc
    rcases h.mem_children hF hc with ⟨-, hc⟩ | ⟨rfl, -, y, hy, hc⟩
    · exact hF.parent_lt p c hc
    · exact Nat.lt_of_le_of_lt (hF.le_of_below (hK.below hF hy)) (hF.lt_of_mem_children hc)
  · rw [h.roots]
    exact hF.roots_nodup
  · intro p
    by_cases hp : p ∈ K
    · by_cases hroot : p = root
      · rw [hroot, h.root_children]
        exact hF.preOrder_nodup.filter _
      · rw [children_eq_nil (h.gone p hp hroot)]
        exact List.nodup_nil
    · rw [children_congr (h.outside p hp)]
      exact hF.children_nodup p
  · intro p c hc
    rw [h.roots]
    rcases h.mem_children hF hc with ⟨-, hc⟩ | ⟨-, -, y, -, hc⟩
    · exact hF.not_mem_roots hc
    · exact hF.not_mem_roots hc
  · intro p q c hp hq
    rcases h.mem_children hF hp with ⟨hpK, hp⟩ | ⟨rfl, -, y, hy, hp⟩ <;>
      rcases h.mem_children hF hq with ⟨hqK, hq⟩ | ⟨rfl, -, z, hz, hq⟩
    · exact hF.parent_unique hp hq
    · exact absurd (hF.parent_unique hp hq ▸ hz) hpK
    · exact absurd (hF.parent_unique hp hq ▸ hy) hqK
    · rfl
  · intro x hx
    obtain ⟨hlive, hxK⟩ := h.contains_iff.1 hx
    rw [h.roots]
    rcases hF.root_or_child hlive with hroot | ⟨p, hp⟩
    · exact .inl hroot
    · by_cases hpK : p ∈ K
      · have hxnot : x ∉ K := fun hmem =>
          hK.not_mem_of_root_child hF (hxK hmem ▸ hp) hpK
        refine .inr ⟨root, ?_⟩
        rw [h.root_children, mem_hanging hF]
        exact ⟨hxnot, p, hpK, hp⟩
      · refine .inr ⟨p, ?_⟩
        rw [children_congr (h.outside p hpK)]
        exact hp

/-- All bubbles of the group but one are gone. -/
theorem size_add (h : F.Contracts F' root K) : F'.size + K.length = F.size + 1 := by
  have hK := h.group
  have hperm : F.live.Perm (F'.live ++ K.erase root) := by
    refine (List.perm_ext_iff_of_nodup F.live_nodup ?_).2 ?_
    · refine List.nodup_append.2 ⟨F'.live_nodup, hK.nodup.erase root, ?_⟩
      rintro x hx y hy rfl
      rw [hK.nodup.mem_erase_iff] at hy
      exact hy.1 ((h.contains_iff.1 (mem_live.1 hx)).2 hy.2)
    · intro x
      rw [List.mem_append, mem_live, mem_live, h.contains_iff, hK.nodup.mem_erase_iff]
      constructor
      · intro hlive
        by_cases hx : x ∈ K ∧ x ≠ root
        · exact .inr ⟨hx.2, hx.1⟩
        · exact .inl ⟨hlive, fun hmem => by_contra fun hne => hx ⟨hmem, hne⟩⟩
      · rintro (⟨hlive, -⟩ | ⟨-, hx⟩)
        · exact hlive
        · exact hK.live x hx
  have hlen := hperm.length_eq
  rw [List.length_append, length_live, length_live, List.length_erase_of_mem hK.root_mem] at hlen
  have hpos := List.length_pos_of_mem hK.root_mem
  omega

/-! ### The order of what is left -/

/-- Of the walk from a bubble of the group, what is left consists of the top, if the walk began
there, and of what is left of the walks from what hangs on the part of the group below. -/
lemma filter_walk {early : Bool} (hF : F.WellFormed) (h : F.Contracts F' root K) :
    ∀ n id, F.contains id = true → F.slots.size ≤ n + id → root ≤ id →
      (F.walk early n id).filter F'.contains =
        (if early = true ∧ id = root then [root] else []) ++
          (((F.below K.contains n id).filter fun x => !K.contains x).flatMap fun k =>
            (F.walk early F.slots.size k).filter F'.contains) ++
          if early = false ∧ id = root then [root] else [] := by
  refine hF.levels_induction fun n id b hb hn ih hid => ?_
  have hchildren := children_eq hb
  by_cases hmem : id ∈ K
  · have hin : K.contains id = true := List.contains_iff_mem.2 hmem
    -- No bubble further down is the top of the group.
    have hrest : b.children.flatMap (fun c => (F.walk early n c).filter F'.contains) =
        b.children.flatMap fun c =>
          ((F.below K.contains n c).filter fun x => !K.contains x).flatMap fun k =>
            (F.walk early F.slots.size k).filter F'.contains := by
      refine List.flatMap_congr fun c hc => ?_
      have hlt := hF.lt_of_mem_children (hchildren ▸ hc)
      have hc' := Nat.lt_of_le_of_lt hid hlt
      rw [ih c hc (Nat.le_of_lt hc')]
      simp [Nat.ne_of_gt hc']
    -- Of the bubble itself something is left if it is the top.
    have hown : [id].filter F'.contains = if id = root then [root] else [] := by
      by_cases hroot : id = root
      · simp [hroot, h.root_live]
      · have hgone : F'.contains id ≠ true := fun hlive => hroot ((h.contains_iff.1 hlive).2 hmem)
        simp [hroot, hgone]
    rw [walk_succ hb, below_of_inside hin hb, List.filter_cons_of_neg (a := id)
      (p := fun x => !K.contains x) (by rw [hin]; decide), List.filter_append,
      List.filter_append, List.filter_flatMap, List.filter_flatMap, List.flatMap_assoc, hrest]
    cases early <;> simp [hown]
  · have hroot : id ≠ root := fun e => hmem (e ▸ h.group.root_mem)
    have hout : K.contains id = false := by
      rw [← Bool.not_eq_true, List.contains_iff_mem]; exact hmem
    rw [below_of_outside hout, List.filter_cons_of_pos (by rw [hout]; rfl), List.filter_nil,
      List.flatMap_singleton,
      hF.walk_levels (contains_of_get? hb) (Nat.le_add_right _ id) (n + 1) hn]
    simp [hroot]

/-- What a walk from a bubble that is left lists afterwards is what is left of the walk before. -/
lemma walk {early : Bool} (hF : F.WellFormed) (h : F.Contracts F' root K) :
    ∀ n id, F'.contains id = true → F'.slots.size ≤ n + id →
      F'.walk early n id = (F.walk early n id).filter F'.contains := by
  have hF' := h.wellFormed hF
  refine hF'.levels_induction fun n id b hb hn ih => ?_
  rw [h.slots] at hn
  have hlive := contains_of_get? hb
  have hchildren := children_eq hb
  -- The walks from the children have enough levels left.
  have hlist : b.children.flatMap (F'.walk early n) = b.children.flatMap
      (fun c => (F.walk early F.slots.size c).filter F'.contains) := by
    refine List.flatMap_congr fun c hc => ?_
    have hlt := hF'.lt_of_mem_children (hchildren ▸ hc)
    have hc' := (h.contains_iff.1 (hF'.children_live id c (hchildren ▸ hc))).1
    rw [ih c hc, hF.walk_levels hc' (Nat.le_add_right _ c) n (by omega)]
  rw [walk_succ hb, hlist]
  by_cases hmem : id ∈ K
  · obtain rfl := (h.contains_iff.1 hlive).2 hmem
    rw [h.filter_walk hF (n + 1) id h.group.contains_root hn (Nat.le_refl id),
      hF.below_levels h.group.contains_root (Nat.le_add_right _ id) (n + 1) hn,
      h.group.filter_below_not hF, ← h.root_children, hchildren]
    cases early <;> simp
  · have hb' : F.get? id = some b := (h.outside id hmem).symm.trans hb
    have hlevels : b.children.flatMap (F.walk early n) =
        b.children.flatMap (F.walk early F.slots.size) := by
      refine List.flatMap_congr fun c hc => ?_
      have hlt := hF'.lt_of_mem_children (hchildren ▸ hc)
      have hc' := (h.contains_iff.1 (hF'.children_live id c (hchildren ▸ hc))).1
      exact hF.walk_levels hc' (Nat.le_add_right _ c) n (by omega)
    rw [walk_succ hb', hlevels]
    cases early <;> simp [List.filter_flatMap, hlive]

lemma walks (early : Bool) (hF : F.WellFormed) (h : F.Contracts F' root K) :
    F'.roots.flatMap (F'.walk early F'.slots.size) =
      (F.roots.flatMap (F.walk early F.slots.size)).filter F'.contains := by
  rw [List.filter_flatMap, h.roots, h.slots]
  refine List.flatMap_congr fun r hr => ?_
  have hr' := (h.wellFormed hF).roots_live r (h.roots ▸ hr)
  exact h.walk hF F.slots.size r hr' (by rw [h.slots]; omega)

/-- A contraction does not change the order of what is left. -/
theorem preOrder (hF : F.WellFormed) (h : F.Contracts F' root K) :
    F'.preOrder = F.preOrder.filter F'.contains :=
  h.walks true hF

theorem postOrder (hF : F.WellFormed) (h : F.Contracts F' root K) :
    F'.postOrder = F.postOrder.filter F'.contains :=
  h.walks false hF

/-- What is left of an order after a contraction is what is left of any order that it came from. -/
lemma preOrder_trans {G : Forest} (hF : F.WellFormed) (h : F.Contracts F' root K)
    (hG : F.preOrder = G.preOrder.filter F.contains) :
    F'.preOrder = G.preOrder.filter F'.contains := by
  rw [h.preOrder hF, hG, List.filter_filter]
  refine List.filter_congr fun x _ => ?_
  rw [Bool.and_eq_left_iff_imp]
  exact fun hx => (h.contains_iff.1 hx).1

/-- What is not live does not come back. -/
lemma get?_eq_none (h : F.Contracts F' root K) (hx : F.get? x = none) : F'.get? x = none := by
  rw [← contains_eq_false, Bool.eq_false_iff] at hx ⊢
  exact fun hlive => hx (h.contains_iff.1 hlive).1

end Contracts
end TraceFold.Forest
