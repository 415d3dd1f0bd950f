import TraceFold.Proofs.Forest.Walks

/-!
# Forests side by side

A name means a place in one arena, so a forest that becomes part of a larger one has all its names
raised by the same amount (`Forest.Hosts`).  Nothing else changes: a walk from a raised name lists
the raised names of the old walk (`Hosts.below`, `Hosts.walk`).

Forests become part of a larger one in two ways: they are put side by side (`Forest.append`), or
under a new bubble (`Forest.under`).  Both walks through the result, and the actions that are found
on the way, are put together from those of the parts.
-/

namespace TraceFold

variable {F G H : Forest} {b : Bubble} {inside : BubbleId → Bool} {n o x : Nat}

/-! ## Raising names -/

/-- The bubble with the names of its children raised. -/
def Bubble.raise (o : Nat) (b : Bubble) : Bubble :=
  { b with children := b.children.map (· + o) }

namespace Bubble

@[simp] lemma payload_raise (o : Nat) (b : Bubble) : (b.raise o).payload = b.payload := rfl

@[simp] lemma children_raise (o : Nat) (b : Bubble) :
    (b.raise o).children = b.children.map (· + o) := rfl

@[simp] lemma raise_zero (b : Bubble) : b.raise 0 = b := by
  simp [raise]

/-- Names that are raised twice are raised by the sum. -/
lemma map_add_map_add (ids : List BubbleId) (o o' : Nat) :
    (ids.map (· + o)).map (· + o') = ids.map (· + (o + o')) := by
  rw [List.map_map]
  exact List.map_congr_left fun x _ => Nat.add_assoc x o o'

lemma raise_raise (b : Bubble) (o o' : Nat) : (b.raise o).raise o' = b.raise (o + o') := by
  rw [raise, raise, raise, map_add_map_add]

/-- A description mentions the number of children only. -/
@[simp] lemma describe_raise (o : Nat) (b : Bubble) : (b.raise o).describe = b.describe := by
  simp [describe]

end Bubble

namespace Forest

/-! ## Forests within forests -/

/-- The slots of `F` from `o` on are those of `G`, with the names raised by `o`. -/
structure Hosts (F : Forest) (o : Nat) (G : Forest) : Prop where
  room : G.slots.size + o ≤ F.slots.size
  slot : ∀ x < G.slots.size, F.get? (x + o) = (G.get? x).map (Bubble.raise o)

namespace Hosts

lemma contains_add (h : F.Hosts o G) (hx : x < G.slots.size) :
    F.contains (x + o) = G.contains x := by
  unfold contains
  rw [h.slot x hx, Option.isSome_map]

/-- What is hosted by a hosted forest is hosted. -/
lemma trans {o' : Nat} (h : F.Hosts o G) (h' : G.Hosts o' H) : F.Hosts (o + o') H := by
  have hroom := h.room
  have hroom' := h'.room
  refine ⟨by omega, fun x hx => ?_⟩
  rw [Nat.add_comm o, ← Nat.add_assoc, h.slot (x + o') (by omega), h'.slot x hx, Option.map_map]
  refine congrArg (Option.map · (H.get? x)) (funext fun b => ?_)
  rw [Function.comp_apply, Bubble.raise_raise, Nat.add_comm]

/-- The walk from a raised name lists the raised names of the walk from the old one. -/
lemma below (h : F.Hosts o G) (hG : G.WellFormed) (inside : BubbleId → Bool) :
    ∀ n x, x < G.slots.size → F.below inside n (x + o) =
      (G.below (fun y => inside (y + o)) n x).map (· + o) := by
  intro n
  induction n with
  | zero => intro x _; rfl
  | succ n ih =>
    intro x hx
    unfold Forest.below
    rw [h.slot x hx]
    cases hin : inside (x + o) with
    | false => simp
    | true =>
      cases hb : G.get? x with
      | none => rfl
      | some b =>
        have hrest : b.children.flatMap (fun c => F.below inside n (c + o)) =
            b.children.flatMap fun c =>
              (G.below (fun y => inside (y + o)) n c).map (· + o) := by
          refine List.flatMap_congr fun c hc => ih c ?_
          exact lt_size_of_contains (hG.children_live x c (children_eq hb ▸ hc))
        simp [List.flatMap_map, List.map_flatMap, hrest]

lemma walk (h : F.Hosts o G) (hG : G.WellFormed) (early : Bool) :
    ∀ n x, x < G.slots.size → F.walk early n (x + o) = (G.walk early n x).map (· + o) := by
  intro n
  induction n with
  | zero => intro x _; cases early <;> rfl
  | succ n ih =>
    intro x hx
    have hslot := h.slot x hx
    cases hb : G.get? x with
    | none =>
      rw [hb] at hslot
      rw [walk_of_gone hb, walk_of_gone hslot]
      rfl
    | some b =>
      rw [hb] at hslot
      have hrest : b.children.flatMap (fun c => F.walk early n (c + o)) =
          b.children.flatMap fun c => (G.walk early n c).map (· + o) := by
        refine List.flatMap_congr fun c hc => ih c ?_
        exact lt_size_of_contains (hG.children_live x c (children_eq hb ▸ hc))
      rw [walk_succ hb, walk_succ hslot]
      cases early <;> simp [List.flatMap_map, List.map_flatMap, hrest]

/-- The walks from raised roots, together. -/
lemma walks (h : F.Hosts o G) (hG : G.WellFormed) (early : Bool) :
    (G.roots.map (· + o)).flatMap (F.walk early F.slots.size) =
      (G.roots.flatMap (G.walk early G.slots.size)).map (· + o) := by
  rw [List.flatMap_map, List.map_flatMap]
  refine List.flatMap_congr fun r hr => ?_
  have hlive := hG.roots_live r hr
  have hroom := h.room
  rw [h.walk hG early _ r (lt_size_of_contains hlive),
    hG.walk_levels hlive (Nat.le_add_right _ r) F.slots.size (by omega)]

end Hosts

/-- Forests with as many slots, the same roots and the same bubbles are the same. -/
lemma eq_of_get? (hsize : F.slots.size = G.slots.size) (hroots : F.roots = G.roots)
    (hget : ∀ x < F.slots.size, F.get? x = G.get? x) : F = G := by
  have hslots : F.slots = G.slots := by
    apply Array.ext hsize
    intro x hx hx'
    have h := hget x hx
    unfold get? at h
    rw [Array.getElem?_eq_getElem hx, Array.getElem?_eq_getElem hx'] at h
    simpa using h
  cases F; cases G
  simp_all

/-! ## Side by side -/

/-- Two forests in one, the bubbles of the first before those of the second. -/
def append (F G : Forest) : Forest where
  slots := F.slots ++ G.slots.map (Option.map (Bubble.raise F.slots.size))
  roots := F.roots ++ G.roots.map (· + F.slots.size)

@[simp] lemma size_append (F G : Forest) :
    (F.append G).slots.size = F.slots.size + G.slots.size := by
  simp [append]

@[simp] lemma roots_append (F G : Forest) :
    (F.append G).roots = F.roots ++ G.roots.map (· + F.slots.size) := rfl

lemma get?_append_left (G : Forest) (hx : x < F.slots.size) :
    (F.append G).get? x = F.get? x := by
  unfold get? append
  rw [Array.getElem?_append_left hx]

lemma get?_append_right (F G : Forest) (x : Nat) :
    (F.append G).get? (x + F.slots.size) = (G.get? x).map (Bubble.raise F.slots.size) := by
  unfold get? append
  rw [Array.getElem?_append_right (Nat.le_add_left _ x), Nat.add_sub_cancel, Array.getElem?_map]
  cases G.slots[x]? with
  | none => rfl
  | some slot => cases slot <;> rfl

lemma hosts_append_left (F G : Forest) : (F.append G).Hosts 0 F where
  room := by simp
  slot := by
    intro x hx
    rw [Nat.add_zero, get?_append_left G hx]
    cases F.get? x <;> simp

lemma hosts_append_right (F G : Forest) : (F.append G).Hosts F.slots.size G where
  room := by simp [Nat.add_comm]
  slot := fun x _ => get?_append_right F G x

/-- A forest that hosts two others, one after the other, and nothing else. -/
lemma eq_append (hsize : H.slots.size = F.slots.size + G.slots.size)
    (hroots : H.roots = F.roots ++ G.roots.map (· + F.slots.size)) (hF : H.Hosts 0 F)
    (hG : H.Hosts F.slots.size G) : H = F.append G := by
  apply eq_of_get? (by simpa using hsize) hroots
  intro x hx
  by_cases hlt : x < F.slots.size
  · have hslot := hF.slot x hlt
    rw [get?_append_left G hlt]
    cases hx : F.get? x <;> simpa [hx] using hslot
  · obtain ⟨y, rfl⟩ : ∃ y, x = y + F.slots.size := ⟨x - F.slots.size, by omega⟩
    rw [get?_append_right, hG.slot y (by omega)]

lemma append_empty (F : Forest) : F.append empty = F := by
  simp [append, empty]

lemma empty_append (F : Forest) : empty.append F = F := by
  have hraise : Option.map (Bubble.raise 0) = id := by
    funext b; cases b <;> simp
  simp [append, empty, hraise]

lemma append_assoc (F G H : Forest) : (F.append G).append H = F.append (G.append H) := by
  simp [append, Array.append_assoc, Function.comp_def, Bubble.raise_raise, Nat.add_assoc,
    Nat.add_comm F.slots.size]

/-- A walk through two forests side by side walks through one and then through the other. -/
lemma walks_append (hF : F.WellFormed) (hG : G.WellFormed) (early : Bool) :
    (F.append G).roots.flatMap ((F.append G).walk early (F.append G).slots.size) =
      F.roots.flatMap (F.walk early F.slots.size) ++
        (G.roots.flatMap (G.walk early G.slots.size)).map (· + F.slots.size) := by
  have hleft := (hosts_append_left F G).walks hF early
  simp only [Nat.add_zero, List.map_id'] at hleft
  rw [roots_append, List.flatMap_append, hleft, (hosts_append_right F G).walks hG early]

theorem preOrder_append (hF : F.WellFormed) (hG : G.WellFormed) :
    (F.append G).preOrder = F.preOrder ++ G.preOrder.map (· + F.slots.size) :=
  walks_append hF hG true

theorem postOrder_append (hF : F.WellFormed) (hG : G.WellFormed) :
    (F.append G).postOrder = F.postOrder ++ G.postOrder.map (· + F.slots.size) :=
  walks_append hF hG false

/-- The actions of two forests side by side are those of one and then those of the other. -/
theorem actions_append (hF : F.WellFormed) (hG : G.WellFormed) :
    (F.append G).actions = F.actions ++ G.actions := by
  unfold actions
  rw [preOrder_append hF hG, List.filterMap_append, List.filterMap_map]
  congr 1
  · refine List.filterMap_congr fun x hx => ?_
    rw [get?_append_left G (lt_size_of_contains (hF.mem_preOrder.1 hx))]
  · refine List.filterMap_congr fun x _ => ?_
    rw [Function.comp_apply, get?_append_right]
    cases G.get? x <;> rfl

/-! ## Under a new bubble -/

/-- All the roots of a forest as the children of a new bubble. -/
def under (G : Forest) (b : Bubble) : Forest where
  slots := #[some { b with children := G.roots.map (· + 1) }] ++
    G.slots.map (Option.map (Bubble.raise 1))
  roots := [0]

@[simp] lemma size_under (G : Forest) (b : Bubble) :
    (G.under b).slots.size = G.slots.size + 1 := by
  simp [under, Nat.add_comm]

lemma get?_under_zero (G : Forest) (b : Bubble) :
    (G.under b).get? 0 = some { b with children := G.roots.map (· + 1) } := by
  unfold get? under
  rw [Array.getElem?_append_left (by simp)]
  rfl

lemma hosts_under (G : Forest) (b : Bubble) : (G.under b).Hosts 1 G where
  room := by simp
  slot := by
    intro x _
    unfold get? under
    rw [Array.getElem?_append_right (by simp), List.size_toArray, List.length_singleton,
      Nat.add_sub_cancel, Array.getElem?_map]
    cases G.slots[x]? with
    | none => rfl
    | some slot => cases slot <;> rfl

theorem preOrder_under (hG : G.WellFormed) (b : Bubble) :
    (G.under b).preOrder = 0 :: G.preOrder.map (· + 1) := by
  have hhosts := hosts_under G b
  have hlevels : (G.roots.map (· + 1)).flatMap ((G.under b).walk true G.slots.size) =
      G.preOrder.map (· + 1) := by
    rw [List.flatMap_map, preOrder, List.map_flatMap]
    refine List.flatMap_congr fun r hr => ?_
    exact hhosts.walk hG true _ r (lt_size_of_contains (hG.roots_live r hr))
  show ([0] : List Nat).flatMap ((G.under b).walk true (G.under b).slots.size) = _
  rw [size_under, List.flatMap_singleton, walk_succ (get?_under_zero G b), hlevels]
  simp

end Forest
end TraceFold
