import Mathlib.Data.List.Flatten
import Mathlib.Data.List.Perm.Basic
import TraceFold.Proofs.Forest.WellFormed

/-!
# Walks through a forest

The two walks through a forest descend at most as many levels as there are slots.  In a
well-formed forest this bound is never met: every live bubble is listed (`mem_preOrder`,
`mem_postOrder`), once, and before or after all the bubbles below it (`preOrder_pairwise`,
`postOrder_pairwise`).  The walks are also what comes out of a loop over a pile of names, which
knows of no bound (`visits_preOrder`, `visitsLast_postOrder`).
-/

namespace TraceFold.Forest

variable {F F' : Forest} {b : Bubble} {inside : BubbleId → Bool} {n : Nat}
  {id p c x y : BubbleId}

/-! ## One level of a walk -/

lemma below_of_inside (hin : inside id = true) (hb : F.get? id = some b) :
    F.below inside (n + 1) id = id :: b.children.flatMap (F.below inside n) := by
  rw [below, if_pos hin, hb]

lemma below_of_outside (hin : inside id = false) : F.below inside (n + 1) id = [id] := by
  rw [below, hin]; rfl

lemma belowLast_succ (hb : F.get? id = some b) :
    F.belowLast (n + 1) id = b.children.flatMap (F.belowLast n) ++ [id] := by
  rw [belowLast, hb]

/-- Both walks in one: a bubble is listed before what lies below it, or after it. -/
def walk (F : Forest) (early : Bool) : Nat → BubbleId → List BubbleId :=
  if early then F.below (fun _ => true) else F.belowLast

lemma walk_succ {early : Bool} (hb : F.get? id = some b) :
    F.walk early (n + 1) id = (if early then [id] else []) ++
      b.children.flatMap (F.walk early n) ++ if early then [] else [id] := by
  cases early with
  | true =>
    have hbelow : F.below (fun _ => true) (n + 1) id =
        id :: b.children.flatMap (F.below (fun _ => true) n) := below_of_inside rfl hb
    simpa [walk] using hbelow
  | false => simp [walk, belowLast_succ hb]

lemma walk_of_gone {early : Bool} (hb : F.get? id = none) : F.walk early (n + 1) id = [] := by
  cases early with
  | true => simp [walk, below, hb]
  | false => simp [walk, belowLast, hb]

/-- To show something of a walk from a live bubble with enough levels left, it may be assumed of
the walks from its children.  The levels needed below a bubble get fewer because numbers grow. -/
lemma WellFormed.levels_induction (hF : F.WellFormed) {motive : Nat → BubbleId → Prop}
    (step : ∀ n id b, F.get? id = some b → F.slots.size ≤ n + 1 + id →
      (∀ c ∈ b.children, motive n c) → motive (n + 1) id) :
    ∀ n id, F.contains id = true → F.slots.size ≤ n + id → motive n id := by
  intro n
  induction n with
  | zero =>
    intro id hid hn
    exact absurd (lt_size_of_contains hid) (by omega)
  | succ n ih =>
    intro id hid hn
    obtain ⟨b, hb⟩ := contains_iff.1 hid
    refine step n id b hb hn fun c hc => ?_
    have hmem : c ∈ F.children id := by rw [children_eq hb]; exact hc
    have hlt := hF.lt_of_mem_children hmem
    exact ih c (hF.children_live id c hmem) (by omega)

/-! ## What a walk meets -/

/-- `x` is `p`, or is reached from it by steps down, each from a bubble where `inside` holds. -/
def Within (F : Forest) (inside : BubbleId → Bool) : BubbleId → BubbleId → Prop :=
  Relation.ReflTransGen fun p c => inside p = true ∧ c ∈ F.children p

lemma within_iff :
    F.Within inside p x ↔ x = p ∨ inside p = true ∧ ∃ c ∈ F.children p, F.Within inside c x := by
  constructor
  · intro h
    rcases Relation.ReflTransGen.cases_head h with rfl | ⟨c, ⟨hin, hc⟩, h⟩
    · exact .inl rfl
    · exact .inr ⟨hin, c, hc, h⟩
  · rintro (rfl | ⟨hin, c, hc, h⟩)
    · exact .refl
    · exact .head ⟨hin, hc⟩ h

lemma within_everywhere : F.Within (fun _ => true) p x ↔ F.Below p x := by
  constructor <;> intro h
  · induction h with
    | refl => exact .refl F p
    | tail _ hstep ih => exact ih.child hstep.2
  · induction h with
    | refl => exact .refl
    | tail _ hstep ih => exact ih.tail ⟨rfl, hstep⟩

/-- A walk lists what it reaches. -/
lemma WellFormed.mem_below (hF : F.WellFormed) (hid : F.contains id = true)
    (hn : F.slots.size ≤ n + id) : x ∈ F.below inside n id ↔ F.Within inside id x := by
  revert hid hn
  refine hF.levels_induction (motive := fun n id =>
    x ∈ F.below inside n id ↔ F.Within inside id x) ?_ n id
  intro n id b hb _ ih
  rw [within_iff, children_eq hb]
  cases hin : inside id with
  | false => rw [below_of_outside hin]; simp
  | true =>
    rw [below_of_inside hin hb, List.mem_cons, List.mem_flatMap]
    refine or_congr Iff.rfl ⟨?_, ?_⟩
    · rintro ⟨c, hc, hx⟩
      exact ⟨rfl, c, hc, (ih c hc).1 hx⟩
    · rintro ⟨-, c, hc, hx⟩
      exact ⟨c, hc, (ih c hc).2 hx⟩

/-- A walk that stops early lists part of the whole walk. -/
lemma WellFormed.below_sublist (hF : F.WellFormed) (inside : BubbleId → Bool)
    (hid : F.contains id = true) (hn : F.slots.size ≤ n + id) :
    (F.below inside n id).Sublist (F.below (fun _ => true) n id) := by
  revert hid hn
  refine hF.levels_induction (motive := fun n id =>
    (F.below inside n id).Sublist (F.below (fun _ => true) n id)) ?_ n id
  intro n id b hb _ ih
  have hall : F.below (fun _ => true) (n + 1) id =
      id :: b.children.flatMap (F.below (fun _ => true) n) := below_of_inside rfl hb
  rw [hall]
  cases hin : inside id with
  | false => rw [below_of_outside hin]; exact (List.nil_sublist _).cons_cons id
  | true =>
    rw [below_of_inside hin hb]
    exact (List.Sublist.flatMap_right _ ih).cons_cons id

/-- More levels than are needed make no difference. -/
lemma WellFormed.below_levels (hF : F.WellFormed) (hid : F.contains id = true)
    (hn : F.slots.size ≤ n + id) :
    ∀ m, F.slots.size ≤ m + id → F.below inside m id = F.below inside n id := by
  revert hid hn
  refine hF.levels_induction (motive := fun n id => ∀ m, F.slots.size ≤ m + id →
    F.below inside m id = F.below inside n id) ?_ n id
  intro n id b hb _ ih m hm
  obtain ⟨m, rfl⟩ : ∃ k, m = k + 1 := by
    have := lt_size_of_contains (contains_of_get? hb)
    exact ⟨m - 1, by omega⟩
  cases hin : inside id with
  | false => rw [below_of_outside hin, below_of_outside hin]
  | true =>
    rw [below_of_inside hin hb, below_of_inside hin hb]
    congr 1
    refine List.flatMap_congr fun c hc => ih c hc m ?_
    have hlt := hF.lt_of_mem_children (children_eq hb ▸ hc)
    omega

lemma WellFormed.walk_levels {early : Bool} (hF : F.WellFormed) (hid : F.contains id = true)
    (hn : F.slots.size ≤ n + id) :
    ∀ m, F.slots.size ≤ m + id → F.walk early m id = F.walk early n id := by
  revert hid hn
  refine hF.levels_induction (motive := fun n id => ∀ m, F.slots.size ≤ m + id →
    F.walk early m id = F.walk early n id) ?_ n id
  intro n id b hb _ ih m hm
  obtain ⟨m, rfl⟩ : ∃ k, m = k + 1 := by
    have := lt_size_of_contains (contains_of_get? hb)
    exact ⟨m - 1, by omega⟩
  rw [walk_succ hb, walk_succ hb]
  congr 2
  refine List.flatMap_congr fun c hc => ih c hc m ?_
  have hlt := hF.lt_of_mem_children (children_eq hb ▸ hc)
  omega

/-! ## The order of a walk -/

/-- Where nothing lies below two names of a list at once, an order that holds along the walk from
each of them holds along all the walks together. -/
lemma pairwise_flatMap_of_apart {R : BubbleId → BubbleId → Prop} {l : List BubbleId}
    {walk : BubbleId → List BubbleId} (hl : l.Nodup)
    (hwalk : ∀ c ∈ l, ∀ x ∈ walk c, F.Below c x)
    (hapart : ∀ c ∈ l, ∀ d ∈ l, ∀ x y, F.Below c x → F.Below d y → c ≠ d → R x y)
    (heach : ∀ c ∈ l, (walk c).Pairwise R) : (l.flatMap walk).Pairwise R := by
  refine List.pairwise_flatMap.2 ⟨heach, hl.imp_of_mem ?_⟩
  intro c d hc hd hne x hx y hy
  exact hapart c hc d hd x y (hwalk c hc x hx) (hwalk d hd y hy) hne

/-- Nothing in the walk from a bubble is followed by something that it lies below.  Since a
bubble lies below itself, nothing is listed twice. -/
lemma WellFormed.below_pairwise (hF : F.WellFormed) (hid : F.contains id = true)
    (hn : F.slots.size ≤ n + id) :
    (F.below (fun _ => true) n id).Pairwise fun x y => ¬ F.Below y x := by
  have key : ∀ n id, F.contains id = true → F.slots.size ≤ n + id →
      (∀ x ∈ F.below (fun _ => true) n id, F.Below id x) ∧
      (F.below (fun _ => true) n id).Pairwise fun x y => ¬ F.Below y x := by
    refine hF.levels_induction fun n id b hb _ ih => ?_
    have hchildren := children_eq hb
    rw [below_of_inside rfl hb]
    have hmem : ∀ x ∈ b.children.flatMap (F.below (fun _ => true) n),
        ∃ c ∈ F.children id, F.Below c x := by
      intro x hx
      obtain ⟨c, hc, hx⟩ := List.mem_flatMap.1 hx
      exact ⟨c, by rw [hchildren]; exact hc, (ih c hc).1 x hx⟩
    constructor
    · intro x hx
      rcases List.mem_cons.1 hx with rfl | hx
      · exact .refl F x
      · obtain ⟨c, hc, hx⟩ := hmem x hx
        exact .of_child hc hx
    · refine List.pairwise_cons.2 ⟨?_, ?_⟩
      · intro x hx h
        obtain ⟨c, hc, hx⟩ := hmem x hx
        exact hF.not_below_of_mem_children hc (hx.trans h)
      · rw [← hchildren] at ih ⊢
        refine pairwise_flatMap_of_apart (hF.children_nodup id) (fun c hc => (ih c hc).1) ?_
          fun c hc => (ih c hc).2
        intro c hc d hd x y hx hy hne h
        exact hne (hF.eq_of_below_siblings hc hd hx (hy.trans h))
  exact (key n id hid hn).2

lemma nodup_of_not_below {l : List BubbleId} (h : l.Pairwise fun x y => ¬ F.Below y x) :
    l.Nodup := by
  refine h.imp ?_
  rintro x y hxy rfl
  exact hxy (.refl F x)

/-- The walk with children first lists the same bubbles. -/
lemma WellFormed.belowLast_perm (hF : F.WellFormed) (hid : F.contains id = true)
    (hn : F.slots.size ≤ n + id) :
    (F.belowLast n id).Perm (F.below (fun _ => true) n id) := by
  revert hid hn
  refine hF.levels_induction (motive := fun n id =>
    (F.belowLast n id).Perm (F.below (fun _ => true) n id)) ?_ n id
  intro n id b hb _ ih
  rw [belowLast_succ hb, below_of_inside rfl hb]
  exact List.perm_append_singleton _ _ |>.trans ((List.Perm.flatMap_left _ ih).cons id)

/-- Nothing in the walk with children first is followed by something below it. -/
lemma WellFormed.belowLast_pairwise (hF : F.WellFormed) (hid : F.contains id = true)
    (hn : F.slots.size ≤ n + id) :
    (F.belowLast n id).Pairwise fun x y => ¬ F.Below x y := by
  have key : ∀ n id, F.contains id = true → F.slots.size ≤ n + id →
      (∀ x ∈ F.belowLast n id, F.Below id x) ∧
      (F.belowLast n id).Pairwise fun x y => ¬ F.Below x y := by
    refine hF.levels_induction fun n id b hb _ ih => ?_
    have hchildren := children_eq hb
    rw [belowLast_succ hb, ← hchildren]
    rw [← hchildren] at ih
    constructor
    · intro x hx
      rcases List.mem_append.1 hx with hx | hx
      · obtain ⟨c, hc, hx⟩ := List.mem_flatMap.1 hx
        exact .of_child hc ((ih c hc).1 x hx)
      · rw [List.mem_singleton.1 hx]
        exact .refl F id
    · refine List.pairwise_append.2 ⟨?_, List.pairwise_singleton _ _, ?_⟩
      · refine pairwise_flatMap_of_apart (hF.children_nodup id) (fun c hc => (ih c hc).1) ?_
          fun c hc => (ih c hc).2
        intro c hc d hd x y hx hy hne h
        exact hne (hF.eq_of_below_siblings hc hd (hx.trans h) hy)
      · intro x hx y hy h
        obtain ⟨c, hc, hx⟩ := List.mem_flatMap.1 hx
        rw [List.mem_singleton.1 hy] at h
        exact hF.not_below_of_mem_children hc (((ih c hc).1 x hx).trans h)
  exact (key n id hid hn).2

/-! ## The walks through a whole forest -/

lemma WellFormed.mem_preOrder (hF : F.WellFormed) : x ∈ F.preOrder ↔ F.contains x = true := by
  rw [preOrder, List.mem_flatMap]
  constructor
  · rintro ⟨r, hr, hx⟩
    have hlive := hF.roots_live r hr
    rw [hF.mem_below hlive (by omega), within_everywhere] at hx
    exact hF.contains_of_below hlive hx
  · intro hx
    obtain ⟨r, hr, hrx⟩ := hF.exists_root_below hx
    refine ⟨r, hr, (hF.mem_below (hF.roots_live r hr) (by omega)).2 ?_⟩
    exact within_everywhere.2 hrx

lemma WellFormed.postOrder_perm (hF : F.WellFormed) : F.postOrder.Perm F.preOrder :=
  List.Perm.flatMap_left _ fun r hr => hF.belowLast_perm (hF.roots_live r hr) (by omega)

lemma WellFormed.mem_postOrder (hF : F.WellFormed) : x ∈ F.postOrder ↔ F.contains x = true :=
  hF.postOrder_perm.mem_iff.trans hF.mem_preOrder

/-- Nothing in the pre-order is followed by something that it lies below. -/
lemma WellFormed.preOrder_pairwise (hF : F.WellFormed) :
    F.preOrder.Pairwise fun x y => ¬ F.Below y x := by
  refine pairwise_flatMap_of_apart (F := F) hF.roots_nodup ?_ ?_ ?_
  · intro r hr x hx
    exact within_everywhere.1 ((hF.mem_below (hF.roots_live r hr) (by omega)).1 hx)
  · intro r hr s hs x y hx hy hne h
    exact hne (hF.eq_of_below_roots hr hs hx (hy.trans h))
  · exact fun r hr => hF.below_pairwise (hF.roots_live r hr) (by omega)

lemma WellFormed.preOrder_nodup (hF : F.WellFormed) : F.preOrder.Nodup :=
  nodup_of_not_below hF.preOrder_pairwise

lemma WellFormed.postOrder_nodup (hF : F.WellFormed) : F.postOrder.Nodup :=
  hF.postOrder_perm.nodup_iff.2 hF.preOrder_nodup

/-- Nothing in the post-order is followed by something below it. -/
lemma WellFormed.postOrder_pairwise (hF : F.WellFormed) :
    F.postOrder.Pairwise fun x y => ¬ F.Below x y := by
  refine pairwise_flatMap_of_apart (F := F) hF.roots_nodup ?_ ?_ ?_
  · intro r hr x hx
    have hlive := hF.roots_live r hr
    rw [(hF.belowLast_perm hlive (by omega)).mem_iff, hF.mem_below hlive (by omega)] at hx
    exact within_everywhere.1 hx
  · intro r hr s hs x y hx hy hne h
    exact hne (hF.eq_of_below_roots hr hs (hx.trans h) hy)
  · exact fun r hr => hF.belowLast_pairwise (hF.roots_live r hr) (by omega)

/-! ## Before and after -/

/-- Of two members of a list, one stands before the other. -/
lemma pair_sublist_or {l : List BubbleId} (hx : x ∈ l) (hy : y ∈ l) (hne : x ≠ y) :
    [x, y].Sublist l ∨ [y, x].Sublist l := by
  induction l with
  | nil => cases hx
  | cons a l ih =>
    rcases List.mem_cons.1 hx with rfl | hx'
    · have hy' : y ∈ l := (List.mem_cons.1 hy).resolve_left (Ne.symm hne)
      exact .inl ((List.singleton_sublist.2 hy').cons_cons x)
    · rcases List.mem_cons.1 hy with rfl | hy'
      · exact .inr ((List.singleton_sublist.2 hx').cons_cons y)
      · exact (ih hx' hy').imp (·.cons a) (·.cons a)

/-- In the pre-order a bubble stands before everything below it. -/
lemma WellFormed.pair_sublist_preOrder (hF : F.WellFormed) (hp : F.contains p = true)
    (h : F.Below p x) (hne : p ≠ x) : [p, x].Sublist F.preOrder := by
  have hx := hF.contains_of_below hp h
  rcases pair_sublist_or (hF.mem_preOrder.2 hp) (hF.mem_preOrder.2 hx) hne with hsub | hsub
  · exact hsub
  · exact absurd h (List.pairwise_iff_forall_sublist.1 hF.preOrder_pairwise hsub)

/-- In the post-order a bubble stands after everything below it. -/
lemma WellFormed.pair_sublist_postOrder (hF : F.WellFormed) (hp : F.contains p = true)
    (h : F.Below p x) (hne : p ≠ x) : [x, p].Sublist F.postOrder := by
  have hx := hF.contains_of_below hp h
  rcases pair_sublist_or (hF.mem_postOrder.2 hp) (hF.mem_postOrder.2 hx) hne with hsub | hsub
  · exact absurd h (List.pairwise_iff_forall_sublist.1 hF.postOrder_pairwise hsub)
  · exact hsub

/-! ## The number of live bubbles -/

/-- The names of the live bubbles, in ascending order. -/
def live (F : Forest) : List BubbleId :=
  (List.range F.slots.size).filter F.contains

lemma mem_live : x ∈ F.live ↔ F.contains x = true := by
  rw [live, List.mem_filter, List.mem_range]
  exact ⟨And.right, fun h => ⟨lt_size_of_contains h, h⟩⟩

lemma live_nodup (F : Forest) : F.live.Nodup := List.nodup_range.filter _

lemma map_get?_range (F : Forest) :
    (List.range F.slots.size).map F.get? = F.slots.toList := by
  apply List.ext_getElem
  · rw [List.length_map, List.length_range, Array.length_toList]
  · intro i hi hi'
    rw [List.getElem_map, List.getElem_range, get?, Array.getElem_toList,
      Array.getElem?_eq_getElem (by simpa using hi')]
    rfl

lemma length_live (F : Forest) : F.live.length = F.size := by
  rw [live, ← List.countP_eq_length_filter, size, ← F.map_get?_range, List.countP_map]
  rfl

lemma WellFormed.preOrder_perm_live (hF : F.WellFormed) : F.preOrder.Perm F.live :=
  (List.perm_ext_iff_of_nodup hF.preOrder_nodup F.live_nodup).2 fun _ =>
    hF.mem_preOrder.trans mem_live.symm

lemma WellFormed.length_preOrder (hF : F.WellFormed) : F.preOrder.length = F.size :=
  hF.preOrder_perm_live.length_eq.trans F.length_live

lemma WellFormed.length_postOrder (hF : F.WellFormed) : F.postOrder.length = F.size :=
  hF.postOrder_perm.length_eq.trans hF.length_preOrder

/-! ## The walks as loops over a pile

A loop that keeps a pile of names takes the topmost, lists it and piles its children on what is
left.  Nothing bounds the number of its rounds: that a pile is worked off to a list means that the
loop ends. -/

/-- The pile is worked off, and the names are listed in this order: each before its children. -/
inductive Visits (F : Forest) : List BubbleId → List BubbleId → Prop
  | done : Visits F [] []
  | gone {id pile out} : F.get? id = none → Visits F pile out → Visits F (id :: pile) out
  | live {id b pile out} : F.get? id = some b → Visits F (b.children ++ pile) out →
      Visits F (id :: pile) (id :: out)

/-- The pile is worked off, and the names are listed in this order: each after its children.  A
name is put back, marked, under its children, and listed when it comes up again. -/
inductive VisitsLast (F : Forest) : List (BubbleId × Bool) → List BubbleId → Prop
  | done : VisitsLast F [] []
  | gone {id mark pile out} : F.get? id = none → VisitsLast F pile out →
      VisitsLast F ((id, mark) :: pile) out
  | expand {id b pile out} : F.get? id = some b →
      VisitsLast F (b.children.map (fun c => (c, false)) ++ (id, true) :: pile) out →
      VisitsLast F ((id, false) :: pile) out
  | list {id b pile out} : F.get? id = some b → VisitsLast F pile out →
      VisitsLast F ((id, true) :: pile) (id :: out)

/-- A pile is worked off in one way only. -/
lemma Visits.unique {pile out out' : List BubbleId} (h : F.Visits pile out)
    (h' : F.Visits pile out') : out = out' := by
  induction h generalizing out' with
  | done => cases h'; rfl
  | gone hnone _ ih =>
    cases h' with
    | gone _ h' => exact ih h'
    | live hsome _ => rw [hnone] at hsome; cases hsome
  | live hsome _ ih =>
    cases h' with
    | gone hnone _ => rw [hnone] at hsome; cases hsome
    | live hsome' h' =>
      obtain rfl := Option.some.inj (hsome.symm.trans hsome')
      rw [ih h']

/-- A marked pile is worked off in one way only. -/
lemma VisitsLast.unique {pile : List (BubbleId × Bool)} {out out' : List BubbleId}
    (h : F.VisitsLast pile out) (h' : F.VisitsLast pile out') : out = out' := by
  induction h generalizing out' with
  | done => cases h'; rfl
  | gone hnone _ ih =>
    cases h' with
    | gone _ h' => exact ih h'
    | expand hsome _ => rw [hnone] at hsome; cases hsome
    | list hsome _ => rw [hnone] at hsome; cases hsome
  | expand hsome _ ih =>
    cases h' with
    | gone hnone _ => rw [hnone] at hsome; cases hsome
    | expand hsome' h' =>
      obtain rfl := Option.some.inj (hsome.symm.trans hsome')
      exact ih h'
  | list hsome _ ih =>
    cases h' with
    | gone hnone _ => rw [hnone] at hsome; cases hsome
    | list _ h' => rw [ih h']

/-- Names that are worked off one by one, whatever lies under them, are worked off together. -/
lemma visits_append {walk : BubbleId → List BubbleId} {pile out : List BubbleId} :
    ∀ l : List BubbleId,
      (∀ c ∈ l, ∀ pile out, F.Visits pile out → F.Visits (c :: pile) (walk c ++ out)) →
      F.Visits pile out → F.Visits (l ++ pile) (l.flatMap walk ++ out)
  | [], _, h => h
  | c :: l, hl, h => by
    rw [List.cons_append, List.flatMap_cons, List.append_assoc]
    exact hl c List.mem_cons_self _ _
      (visits_append l (fun d hd => hl d (List.mem_cons_of_mem c hd)) h)

lemma visitsLast_append {walk : BubbleId → List BubbleId} {pile : List (BubbleId × Bool)}
    {out : List BubbleId} :
    ∀ l : List BubbleId,
      (∀ c ∈ l, ∀ pile out, F.VisitsLast pile out →
        F.VisitsLast ((c, false) :: pile) (walk c ++ out)) →
      F.VisitsLast pile out →
      F.VisitsLast (l.map (fun c => (c, false)) ++ pile) (l.flatMap walk ++ out)
  | [], _, h => h
  | c :: l, hl, h => by
    rw [List.map_cons, List.cons_append, List.flatMap_cons, List.append_assoc]
    exact hl c List.mem_cons_self _ _
      (visitsLast_append l (fun d hd => hl d (List.mem_cons_of_mem c hd)) h)

lemma WellFormed.visits_below (hF : F.WellFormed) (hid : F.contains id = true)
    (hn : F.slots.size ≤ n + id) : ∀ pile out, F.Visits pile out →
      F.Visits (id :: pile) (F.below (fun _ => true) n id ++ out) := by
  revert hid hn
  refine hF.levels_induction (motive := fun n id => ∀ pile out, F.Visits pile out →
    F.Visits (id :: pile) (F.below (fun _ => true) n id ++ out)) ?_ n id
  intro n id b hb _ ih pile out h
  rw [below_of_inside rfl hb, List.cons_append]
  exact .live hb (visits_append b.children ih h)

lemma WellFormed.visitsLast_belowLast (hF : F.WellFormed) (hid : F.contains id = true)
    (hn : F.slots.size ≤ n + id) : ∀ pile out, F.VisitsLast pile out →
      F.VisitsLast ((id, false) :: pile) (F.belowLast n id ++ out) := by
  revert hid hn
  refine hF.levels_induction (motive := fun n id => ∀ pile out, F.VisitsLast pile out →
    F.VisitsLast ((id, false) :: pile) (F.belowLast n id ++ out)) ?_ n id
  intro n id b hb _ ih pile out h
  rw [belowLast_succ hb, List.append_assoc]
  exact .expand hb (visitsLast_append b.children ih (.list hb h))

/-- The loop that lists parents first ends with the pre-order. -/
lemma WellFormed.visits_preOrder (hF : F.WellFormed) : F.Visits F.roots F.preOrder := by
  have h := visits_append F.roots
    (fun r hr => hF.visits_below (hF.roots_live r hr) (Nat.le_add_right _ r)) .done
  rwa [List.append_nil, List.append_nil] at h

/-- The loop that lists children first ends with the post-order. -/
lemma WellFormed.visitsLast_postOrder (hF : F.WellFormed) :
    F.VisitsLast (F.roots.map fun r => (r, false)) F.postOrder := by
  have h := visitsLast_append F.roots
    (fun r hr => hF.visitsLast_belowLast (hF.roots_live r hr) (Nat.le_add_right _ r)) .done
  rwa [List.append_nil, List.append_nil] at h

end TraceFold.Forest
