import Mathlib.Data.List.Count
import Mathlib.Data.List.Nodup
import Mathlib.Data.List.Pairwise
import Mathlib.Logic.Relation
import Mathlib.Tactic.Lemma
import TraceFold.Forest

/-!
# Well-formed forests

A forest is an arena in which bubbles name their children, so nothing in its type keeps it from
naming a bubble twice, naming one that is gone, or naming in a circle.  `Forest.WellFormed`
excludes all three: every name in use is the name of a live bubble, every live bubble is named
once, and a child has a greater number than its parent.

The names below a bubble (`Forest.Below`) then form a tree: what lies below two bubbles at once
lies below one of them (`below_or_below`), and the bubbles below two siblings are different
(`eq_of_below_siblings`).  Adding a bubble keeps a forest well-formed (`wellFormed_addRoot`,
`wellFormed_addChild`).
-/

namespace TraceFold.Forest

variable {F F' : Forest} {b : Bubble} {id p q c x y : BubbleId}

/-! ## Reading a forest -/

lemma contains_iff : F.contains id = true ↔ ∃ b, F.get? id = some b :=
  Option.isSome_iff_exists

lemma contains_of_get? (h : F.get? id = some b) : F.contains id = true :=
  contains_iff.2 ⟨b, h⟩

lemma contains_eq_false : F.contains id = false ↔ F.get? id = none := by
  rw [contains, Option.isSome_eq_false_iff, Option.isNone_iff_eq_none]

lemma contains_congr (h : F'.get? id = F.get? id) : F'.contains id = F.contains id := by
  rw [contains, contains, h]

lemma children_eq (h : F.get? id = some b) : F.children id = b.children := by
  rw [children, h]; rfl

lemma children_eq_nil (h : F.get? id = none) : F.children id = [] := by
  rw [children, h]; rfl

lemma children_congr (h : F'.get? id = F.get? id) : F'.children id = F.children id := by
  rw [children, children, h]

lemma contains_of_mem_children (h : c ∈ F.children p) : F.contains p = true := by
  cases hp : F.get? p with
  | none => rw [children_eq_nil hp] at h; cases h
  | some b => exact contains_of_get? hp

lemma lt_size_of_contains {id : Nat} (h : F.contains id = true) : id < F.slots.size := by
  by_contra hlt
  have hnone : F.get? id = none := by
    rw [get?, Array.getElem?_eq_none (Nat.le_of_not_lt hlt)]; rfl
  rw [contains, hnone] at h
  cases h

/-! ## The invariant -/

/-- A name is listed once: among the roots, or else among the children of a single bubble. -/
def ListedOnce (F : Forest) (id : BubbleId) : Prop :=
  (F.roots.count id = 1 ∧ ∀ p, id ∉ F.children p) ∨
    (id ∉ F.roots ∧ ∃ p, (F.children p).count id = 1 ∧ ∀ q, id ∈ F.children q → q = p)

/-- Only live bubbles are named, each of them once, and children come after their parents. -/
structure WellFormed (F : Forest) : Prop where
  roots_live : ∀ id ∈ F.roots, F.contains id = true
  children_live : ∀ p, ∀ c ∈ F.children p, F.contains c = true
  listed_once : ∀ id, F.contains id = true → F.ListedOnce id
  parent_lt : ∀ p, ∀ c ∈ F.children p, p < c

namespace WellFormed

lemma lt_of_mem_children {p c : Nat} (hF : F.WellFormed) (h : c ∈ F.children p) : p < c :=
  hF.parent_lt p c h

lemma not_mem_roots (hF : F.WellFormed) (h : c ∈ F.children p) : c ∉ F.roots := by
  rcases hF.listed_once c (hF.children_live p c h) with ⟨-, hno⟩ | ⟨hno, -⟩
  · exact absurd h (hno p)
  · exact hno

lemma parent_unique (hF : F.WellFormed) (hp : c ∈ F.children p) (hq : c ∈ F.children q) :
    p = q := by
  rcases hF.listed_once c (hF.children_live p c hp) with ⟨-, hno⟩ | ⟨-, r, -, hr⟩
  · exact absurd hp (hno p)
  · rw [hr p hp, hr q hq]

lemma roots_nodup (hF : F.WellFormed) : F.roots.Nodup := by
  rw [List.nodup_iff_count_le_one]
  intro r
  by_cases hr : r ∈ F.roots
  · rcases hF.listed_once r (hF.roots_live r hr) with ⟨hone, -⟩ | ⟨hno, -⟩
    · exact Nat.le_of_eq hone
    · exact absurd hr hno
  · rw [List.count_eq_zero_of_not_mem hr]; exact Nat.zero_le 1

lemma children_nodup (hF : F.WellFormed) (p : BubbleId) : (F.children p).Nodup := by
  rw [List.nodup_iff_count_le_one]
  intro c
  by_cases hc : c ∈ F.children p
  · rcases hF.listed_once c (hF.children_live p c hc) with ⟨-, hno⟩ | ⟨-, q, hone, hq⟩
    · exact absurd hc (hno p)
    · rw [hq p hc]; exact Nat.le_of_eq hone
  · rw [List.count_eq_zero_of_not_mem hc]; exact Nat.zero_le 1

lemma root_or_child (hF : F.WellFormed) (h : F.contains id = true) :
    id ∈ F.roots ∨ ∃ p, id ∈ F.children p := by
  rcases hF.listed_once id h with ⟨hone, -⟩ | ⟨-, p, hone, -⟩
  · exact .inl (List.count_pos_iff.1 (by omega))
  · exact .inr ⟨p, List.count_pos_iff.1 (by omega)⟩

end WellFormed

/-- The invariant in the form in which it is usually checked: no name twice in one list, none in
two lists, and none missing. -/
lemma wellFormed_of_lists
    (hroots : ∀ id ∈ F.roots, F.contains id = true)
    (hlive : ∀ p, ∀ c ∈ F.children p, F.contains c = true)
    (hlt : ∀ p, ∀ c ∈ F.children p, p < c)
    (hnodup : F.roots.Nodup)
    (hchildren : ∀ p, (F.children p).Nodup)
    (hroot : ∀ p, ∀ c ∈ F.children p, c ∉ F.roots)
    (hparent : ∀ p q c, c ∈ F.children p → c ∈ F.children q → p = q)
    (hall : ∀ id, F.contains id = true → id ∈ F.roots ∨ ∃ p, id ∈ F.children p) :
    F.WellFormed where
  roots_live := hroots
  children_live := hlive
  parent_lt := hlt
  listed_once := by
    intro id hid
    rcases hall id hid with hr | ⟨p, hp⟩
    · exact .inl ⟨List.count_eq_one_of_mem hnodup hr, fun p hp => hroot p id hp hr⟩
    · exact .inr ⟨hroot p id hp, p, List.count_eq_one_of_mem (hchildren p) hp,
        fun q hq => hparent q p id hq hp⟩

/-- All names that are listed anywhere: the roots, and then the children of each slot. -/
def listed (F : Forest) : List BubbleId :=
  F.roots ++ (List.range F.slots.size).flatMap F.children

lemma mem_listed : x ∈ F.listed ↔ x ∈ F.roots ∨ ∃ p, x ∈ F.children p := by
  rw [listed, List.mem_append, List.mem_flatMap]
  refine or_congr Iff.rfl ⟨fun ⟨p, _, hx⟩ => ⟨p, hx⟩, fun ⟨p, hx⟩ => ⟨p, ?_, hx⟩⟩
  exact List.mem_range.2 (lt_size_of_contains (contains_of_mem_children hx))

lemma WellFormed.listed_nodup (hF : F.WellFormed) : F.listed.Nodup := by
  refine List.nodup_append.2 ⟨hF.roots_nodup, List.nodup_flatMap.2 ⟨?_, ?_⟩, ?_⟩
  · exact fun p _ => hF.children_nodup p
  · refine List.nodup_range.imp fun {p q} hne => ?_
    exact fun c hp hq => hne (hF.parent_unique hp hq)
  · rintro r hr c hc rfl
    obtain ⟨p, -, hc⟩ := List.mem_flatMap.1 hc
    exact hF.not_mem_roots hc hr

/-- The invariant as a test of every slot: the names that are listed are those of the live bubbles,
none is repeated, and children come after their parents. -/
theorem wellFormed_iff : F.WellFormed ↔
    (∀ x ∈ F.listed, F.contains x = true) ∧
    (∀ x < F.slots.size, F.contains x = true → x ∈ F.listed) ∧
    F.listed.Nodup ∧ ∀ p < F.slots.size, ∀ c ∈ F.children p, p < c := by
  constructor
  · intro hF
    refine ⟨?_, ?_, hF.listed_nodup, fun p _ => hF.parent_lt p⟩
    · intro x hx
      rcases mem_listed.1 hx with hx | ⟨p, hx⟩
      · exact hF.roots_live x hx
      · exact hF.children_live p x hx
    · exact fun x _ hx => mem_listed.2 (hF.root_or_child hx)
  · rintro ⟨hlive, hall, hnodup, hlt⟩
    have hparts := List.nodup_append.1 hnodup
    have hchildren := List.nodup_flatMap.1 hparts.2.1
    have hslot : ∀ p c, c ∈ F.children p → p ∈ List.range F.slots.size := fun p c hc =>
      List.mem_range.2 (lt_size_of_contains (contains_of_mem_children hc))
    apply wellFormed_of_lists
    · exact fun x hx => hlive x (mem_listed.2 (.inl hx))
    · exact fun p c hc => hlive c (mem_listed.2 (.inr ⟨p, hc⟩))
    · exact fun p c hc => hlt p (List.mem_range.1 (hslot p c hc)) c hc
    · exact hparts.1
    · intro p
      by_cases hp : p ∈ List.range F.slots.size
      · exact hchildren.1 p hp
      · rw [List.eq_nil_iff_forall_not_mem.2 fun c hc => hp (hslot p c hc)]
        exact List.nodup_nil
    · intro p c hc hroot
      exact hparts.2.2 c hroot c (List.mem_flatMap.2 ⟨p, hslot p c hc, hc⟩) rfl
    · intro p q c hp hq
      by_contra hne
      have : Std.Symm (Function.onFun List.Disjoint F.children) := ⟨fun _ _ h _ hq hp => h hp hq⟩
      exact hchildren.2.forall (hslot p c hp) (hslot q c hq) hne hp hq
    · exact fun x hx => mem_listed.1 (hall x (lt_size_of_contains hx) hx)

instance : Decidable F.WellFormed := decidable_of_iff _ wellFormed_iff.symm

/-! ## What lies below a bubble -/

/-- `x` is `p`, or a child of it, or a child of a child, and so on. -/
def Below (F : Forest) : BubbleId → BubbleId → Prop :=
  Relation.ReflTransGen fun p c => c ∈ F.children p

lemma Below.refl (F : Forest) (p : BubbleId) : F.Below p p := Relation.ReflTransGen.refl

lemma Below.trans (h₁ : F.Below p q) (h₂ : F.Below q x) : F.Below p x :=
  Relation.ReflTransGen.trans h₁ h₂

lemma below_of_mem_children (h : c ∈ F.children p) : F.Below p c :=
  Relation.ReflTransGen.single h

lemma Below.child (h : F.Below p x) (hy : y ∈ F.children x) : F.Below p y :=
  Relation.ReflTransGen.tail h hy

lemma Below.of_child (hc : c ∈ F.children p) (h : F.Below c x) : F.Below p x :=
  Relation.ReflTransGen.head hc h

/-- A bubble below another is that one or a child of something below it. -/
lemma Below.eq_or_child (h : F.Below p x) : x = p ∨ ∃ y, F.Below p y ∧ x ∈ F.children y := by
  rcases Relation.ReflTransGen.cases_tail h with rfl | ⟨y, hy, hx⟩
  · exact .inl rfl
  · exact .inr ⟨y, hy, hx⟩

namespace WellFormed

lemma le_of_below {p x : Nat} (hF : F.WellFormed) (h : F.Below p x) : p ≤ x := by
  induction h with
  | refl => exact Nat.le_refl p
  | tail _ hc ih => exact Nat.le_trans ih (Nat.le_of_lt (hF.lt_of_mem_children hc))

lemma contains_of_below (hF : F.WellFormed) (hp : F.contains p = true) (h : F.Below p x) :
    F.contains x = true := by
  rcases h.eq_or_child with rfl | ⟨y, -, hx⟩
  · exact hp
  · exact hF.children_live y x hx

/-- Two bubbles with something below both of them lie one below the other. -/
lemma below_or_below (hF : F.WellFormed) (hp : F.Below p x) (hq : F.Below q x) :
    F.Below p q ∨ F.Below q p := by
  induction hp with
  | refl => exact .inr hq
  | @tail y z hpy hz ih =>
    rcases hq.eq_or_child with rfl | ⟨w, hqw, hw⟩
    · exact .inl (Below.child hpy hz)
    · rw [hF.parent_unique hw hz] at hqw
      exact ih hqw

lemma not_below_of_mem_children (hF : F.WellFormed) (hc : c ∈ F.children p) : ¬ F.Below c p :=
  fun h => absurd (hF.le_of_below h) (Nat.not_le_of_lt (hF.lt_of_mem_children hc))

lemma eq_of_below_sibling (hF : F.WellFormed) (hc : c ∈ F.children p) (hx : x ∈ F.children p)
    (h : F.Below c x) : c = x := by
  rcases h.eq_or_child with rfl | ⟨y, hy, hxy⟩
  · rfl
  · rw [hF.parent_unique hxy hx] at hy
    exact absurd hy (hF.not_below_of_mem_children hc)

/-- The bubbles below two different siblings are different. -/
lemma eq_of_below_siblings (hF : F.WellFormed) (hp : p ∈ F.children id) (hq : q ∈ F.children id)
    (hpx : F.Below p x) (hqx : F.Below q x) : p = q := by
  rcases hF.below_or_below hpx hqx with h | h
  · exact hF.eq_of_below_sibling hp hq h
  · exact (hF.eq_of_below_sibling hq hp h).symm

lemma eq_of_below_root (hF : F.WellFormed) (hx : x ∈ F.roots) (h : F.Below p x) : p = x := by
  rcases h.eq_or_child with rfl | ⟨y, -, hxy⟩
  · rfl
  · exact absurd hx (hF.not_mem_roots hxy)

/-- The bubbles below two different roots are different. -/
lemma eq_of_below_roots (hF : F.WellFormed) (hp : p ∈ F.roots) (hq : q ∈ F.roots)
    (hpx : F.Below p x) (hqx : F.Below q x) : p = q := by
  rcases hF.below_or_below hpx hqx with h | h
  · exact hF.eq_of_below_root hq h
  · exact (hF.eq_of_below_root hp h).symm

/-- Every live bubble lies below a root.  Going up from it ends, since numbers get smaller. -/
lemma exists_root_below (hF : F.WellFormed) (h : F.contains id = true) :
    ∃ r ∈ F.roots, F.Below r id := by
  induction id using Nat.strongRecOn with
  | ind id ih =>
    rcases hF.root_or_child h with hr | ⟨p, hp⟩
    · exact ⟨id, hr, .refl F id⟩
    · obtain ⟨r, hr, hrp⟩ := ih p (hF.parent_lt p id hp) (contains_of_mem_children hp)
      exact ⟨r, hr, hrp.child hp⟩

end WellFormed

/-! ## Adding bubbles -/

lemma wellFormed_empty : empty.WellFormed where
  roots_live := by intro id h; cases h
  children_live := by intro p c h; rw [children_eq_nil rfl] at h; cases h
  listed_once := by intro id h; cases h
  parent_lt := by intro p c h; rw [children_eq_nil rfl] at h; cases h

lemma get?_nextId (F : Forest) : F.get? F.nextId = none := by
  rw [get?, nextId, Array.getElem?_eq_none (Nat.le_refl _)]; rfl

lemma ne_nextId_of_contains (h : F.contains id = true) : id ≠ F.nextId :=
  Nat.ne_of_lt (lt_size_of_contains h)

lemma children_addRoot (hb : b.children = []) (p : BubbleId) :
    (F.addRoot b).children p = F.children p := by
  rw [children, get?_addRoot]
  by_cases hp : p = F.nextId
  · rw [if_pos hp, hp, children_eq_nil F.get?_nextId]; exact hb
  · rw [if_neg hp]; rfl

lemma contains_addRoot :
    (F.addRoot b).contains id = true ↔ id = F.nextId ∨ F.contains id = true := by
  rw [contains, get?_addRoot]
  by_cases h : id = F.nextId
  · simp [h]
  · simp [h, contains]

/-- A childless bubble without a parent may be added. -/
lemma wellFormed_addRoot (hF : F.WellFormed) (hb : b.children = []) :
    (F.addRoot b).WellFormed := by
  have hroots : (F.addRoot b).roots = F.roots ++ [F.nextId] := rfl
  have hfresh : ∀ p, F.nextId ∉ F.children p := fun p hp =>
    ne_nextId_of_contains (hF.children_live p _ hp) rfl
  apply wellFormed_of_lists
  · intro id hid
    rw [hroots, List.mem_append, List.mem_singleton] at hid
    rcases hid with hid | rfl
    · exact contains_addRoot.2 (.inr (hF.roots_live id hid))
    · exact contains_addRoot.2 (.inl rfl)
  · intro p c hc
    rw [children_addRoot hb] at hc
    exact contains_addRoot.2 (.inr (hF.children_live p c hc))
  · intro p c hc
    rw [children_addRoot hb] at hc
    exact hF.parent_lt p c hc
  · rw [hroots, List.nodup_append]
    refine ⟨hF.roots_nodup, List.nodup_singleton _, ?_⟩
    intro r hr n hn
    rw [List.mem_singleton.1 hn]
    exact ne_nextId_of_contains (hF.roots_live r hr)
  · intro p
    rw [children_addRoot hb]
    exact hF.children_nodup p
  · intro p c hc
    rw [children_addRoot hb] at hc
    rw [hroots, List.mem_append, List.mem_singleton]
    rintro (hr | rfl)
    · exact hF.not_mem_roots hc hr
    · exact hfresh p hc
  · intro p q c hp hq
    rw [children_addRoot hb] at hp hq
    exact hF.parent_unique hp hq
  · intro id hid
    rcases contains_addRoot.1 hid with rfl | hid
    · exact .inl (by rw [hroots]; exact List.mem_append_right _ (List.mem_singleton.2 rfl))
    · rcases hF.root_or_child hid with hr | ⟨p, hp⟩
      · exact .inl (by rw [hroots]; exact List.mem_append_left _ hr)
      · exact .inr ⟨p, by rw [children_addRoot hb]; exact hp⟩

/-- What adding a child does to the slots. -/
lemma get?_addChild (h : F.addChild? p b = some F') (j : BubbleId) :
    ∃ parent, F.get? p = some parent ∧ F'.get? j =
      if j = F.nextId then some b
      else if j = p then some { parent with children := parent.children ++ [F.nextId] }
      else F.get? j := by
  rw [addChild?] at h
  split at h
  · rename_i parent hparent
    obtain rfl := Option.some.inj h
    have hp : p < F.slots.size := lt_size_of_contains (contains_of_get? hparent)
    refine ⟨parent, hparent, ?_⟩
    rw [get?, Array.getElem?_setIfInBounds, Array.size_push, Array.getElem?_push, nextId]
    have hp' : p < F.slots.size + 1 := Nat.lt_succ_of_lt hp
    by_cases hjp : p = j
    · subst hjp
      rw [if_pos rfl, if_pos hp', if_neg (Nat.ne_of_lt hp), if_pos rfl]; rfl
    · rw [if_neg hjp, if_neg (Ne.symm hjp)]
      by_cases hj : j = F.slots.size
      · rw [if_pos hj, if_pos hj]; rfl
      · rw [if_neg hj, if_neg hj]; rfl
  · cases h

lemma children_addChild (h : F.addChild? p b = some F') (hb : b.children = []) (j : BubbleId) :
    F'.children j = if j = p then F.children p ++ [F.nextId] else F.children j := by
  obtain ⟨parent, hparent, hget⟩ := get?_addChild h j
  have hp : p ≠ F.nextId := ne_nextId_of_contains (contains_of_get? hparent)
  rw [children, hget]
  by_cases hj : j = F.nextId
  · rw [if_pos hj, if_neg (hj.trans_ne (Ne.symm hp)), hj, children_eq_nil F.get?_nextId]
    exact hb
  · by_cases hjp : j = p
    · rw [if_neg hj, if_pos hjp, if_pos hjp, children_eq hparent]; rfl
    · rw [if_neg hj, if_neg hjp, if_neg hjp]; rfl

lemma contains_addChild (h : F.addChild? p b = some F') :
    F'.contains id = true ↔ id = F.nextId ∨ F.contains id = true := by
  obtain ⟨parent, hparent, hget⟩ := get?_addChild h id
  rw [contains, hget]
  by_cases hid : id = F.nextId
  · simp [hid]
  · by_cases hidp : id = p
    · subst hidp; simp [hid, contains, hparent]
    · simp [hid, hidp, contains]

lemma roots_addChild (h : F.addChild? p b = some F') : F'.roots = F.roots := by
  rw [addChild?] at h
  split at h
  · rw [← Option.some.inj h]
  · cases h

/-- A childless bubble may be added below a live one. -/
lemma wellFormed_addChild (hF : F.WellFormed) (hb : b.children = [])
    (h : F.addChild? p b = some F') : F'.WellFormed := by
  have hfresh : ∀ p, F.nextId ∉ F.children p := fun p hp =>
    ne_nextId_of_contains (hF.children_live p _ hp) rfl
  have hp : F.contains p = true := by
    obtain ⟨parent, hparent, -⟩ := get?_addChild h p
    exact contains_of_get? hparent
  -- A name in a new list was in the old list already, or is the new name below `p`.
  have hmem : ∀ {j c}, c ∈ F'.children j ↔ c ∈ F.children j ∨ (j = p ∧ c = F.nextId) := by
    intro j c
    rw [children_addChild h hb]
    by_cases hj : j = p
    · subst hj; rw [if_pos rfl, List.mem_append, List.mem_singleton]; simp
    · rw [if_neg hj]; simp [hj]
  apply wellFormed_of_lists
  · intro id hid
    rw [roots_addChild h] at hid
    exact (contains_addChild h).2 (.inr (hF.roots_live id hid))
  · intro j c hc
    rcases hmem.1 hc with hc | ⟨-, rfl⟩
    · exact (contains_addChild h).2 (.inr (hF.children_live j c hc))
    · exact (contains_addChild h).2 (.inl rfl)
  · intro j c hc
    rcases hmem.1 hc with hc | ⟨rfl, rfl⟩
    · exact hF.parent_lt j c hc
    · exact lt_size_of_contains hp
  · rw [roots_addChild h]; exact hF.roots_nodup
  · intro j
    rw [children_addChild h hb]
    split
    · rw [List.nodup_append]
      refine ⟨hF.children_nodup p, List.nodup_singleton _, ?_⟩
      rintro c hc n hn rfl
      rw [List.mem_singleton.1 hn] at hc
      exact hfresh p hc
    · exact hF.children_nodup j
  · intro j c hc
    rw [roots_addChild h]
    rcases hmem.1 hc with hc | ⟨-, rfl⟩
    · exact hF.not_mem_roots hc
    · exact fun hr => ne_nextId_of_contains (hF.roots_live _ hr) rfl
  · intro i j c hi hj
    rcases hmem.1 hi with hi | ⟨rfl, rfl⟩ <;> rcases hmem.1 hj with hj | ⟨rfl, hc⟩
    · exact hF.parent_unique hi hj
    · exact absurd (hc ▸ hi) (hfresh i)
    · exact absurd hj (hfresh j)
    · rfl
  · intro id hid
    rcases (contains_addChild h).1 hid with rfl | hid
    · exact .inr ⟨p, hmem.2 (.inr ⟨rfl, rfl⟩)⟩
    · rw [roots_addChild h]
      rcases hF.root_or_child hid with hr | ⟨q, hq⟩
      · exact .inl hr
      · exact .inr ⟨q, hmem.2 (.inl hq)⟩

end TraceFold.Forest
