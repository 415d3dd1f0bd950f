import Mathlib.Data.List.ReduceOption
import TraceFold.Pattern.Check
import TraceFold.Proofs.Matching.Agreement

/-!
# What a pattern claims

The claims of an attempt are those of the greedy choice, bubble by bubble and in the same order
(`claim?_eq_greedy`).  Here the greedy choice is looked at from each bubble that it takes: the
child patterns share out the children of the bubble among themselves (`Shares`), and the bubble is
listed after everything that was taken below it.

Both hold of what is taken from one place (`arranged_of_greedy`), because nothing is taken below
two siblings at once: whatever is taken elsewhere neither is one of the children that are shared
out here nor lies below any of them.
-/

namespace TraceFold
namespace Pattern

variable {α : Type} {F : Forest} {p q : Pattern α} {ps : List (Pattern α)} {b : Bubble}
  {es es' es₁ es₂ : List (BubbleId × Pattern α)} {ids taken : List BubbleId}
  {picks : List (Option BubbleId)} {id x y : BubbleId}

/-! ## Sharing out the children of a bubble -/

/-- A pattern has taken one of some siblings, or it is optional and has taken none. -/
def Takes (es : List (BubbleId × Pattern α)) (siblings : List BubbleId) (q : Pattern α) :
    Option BubbleId → Prop
  | some y => y ∈ siblings ∧ (y, q) ∈ es
  | none => q.optional = true

/-- The child patterns of `q` have shared out the children of `x`: each pick belongs to the child
pattern at the same place, no child was picked twice, and none is taken without being picked. -/
structure Shares (F : Forest) (es : List (BubbleId × Pattern α)) (x : BubbleId) (q : Pattern α)
    (picks : List (Option BubbleId)) : Prop where
  takes : List.Forall₂ (Takes es (F.children x)) q.children picks
  distinct : picks.reduceOption.Nodup
  complete : ∀ y ∈ F.children x, y ∈ es.map Prod.fst → some y ∈ picks

lemma Takes.mono {pick : Option BubbleId} (hsub : es ⊆ es') (h : Takes es ids q pick) :
    Takes es' ids q pick := by
  cases pick with
  | none => exact h
  | some y => exact ⟨h.1, hsub h.2⟩

/-- What else is taken does not matter, as long as it is none of the children. -/
lemma Shares.mono (h : Shares F es x q picks) (hsub : es ⊆ es')
    (hnew : ∀ y ∈ F.children x, y ∈ es'.map Prod.fst → y ∈ es.map Prod.fst) :
    Shares F es' x q picks where
  takes := h.takes.imp fun _ _ => .mono hsub
  distinct := h.distinct
  complete := fun y hy hmem => h.complete y hy (hnew y hy hmem)

/-- The patterns that choose among siblings share them out. -/
lemma exists_picks (hF : F.WellFormed) (hids : Apart F ids) (ps : List (Pattern α)) :
    ∀ (taken : List BubbleId) (es : List (BubbleId × Pattern α)),
      greedyChildren F ps ids taken = some es →
      ∃ picks, List.Forall₂ (Takes es ids) ps picks ∧ picks.reduceOption.Nodup ∧
        (∀ y ∈ picks.reduceOption, y ∉ taken) ∧
        ∀ y ∈ ids, y ∈ es.map Prod.fst → some y ∈ picks := by
  induction ps with
  | nil =>
    intro taken es h
    rw [greedyChildren] at h
    obtain rfl := Option.some.inj h
    exact ⟨[], .nil, by simp⟩
  | cons p ps ih =>
    intro taken es h
    rw [greedyChildren] at h
    split at h
    · rename_i id es₁ hfirst
      obtain ⟨es₂, hes₂, rfl⟩ := Option.map_eq_some_iff.1 h
      obtain ⟨hid, hfree, hes₁⟩ := firstFree_eq_some hfirst
      obtain ⟨picks, htakes, hdistinct, hfresh, hcomplete⟩ := ih _ _ hes₂
      have hco := coherent_of_greedy hF hes₁
      refine ⟨some id :: picks, .cons ?_ ?_, ?_, ?_, ?_⟩
      · exact ⟨hid, List.mem_append_left _ hco.root_mem⟩
      · exact htakes.imp fun _ _ => .mono (List.subset_append_right _ _)
      · rw [List.reduceOption_cons_of_some, List.nodup_cons]
        exact ⟨fun hmem => hfresh id hmem List.mem_cons_self, hdistinct⟩
      · rw [List.reduceOption_cons_of_some]
        simp only [List.mem_cons, forall_eq_or_imp]
        exact ⟨hfree, fun y hy hmem => hfresh y hy (List.mem_cons_of_mem id hmem)⟩
      · intro y hy hmem
        rw [List.map_append, List.mem_append] at hmem
        rcases hmem with hmem | hmem
        -- What was taken with `id` lies below it, so no other sibling is among it.
        · obtain ⟨e, he, rfl⟩ := List.mem_map.1 hmem
          rw [hids id hid e.1 hy e.1 (hco.below hF e he) (.refl F _)]
          exact List.mem_cons_self
        · exact List.mem_cons_of_mem _ (hcomplete y hy hmem)
    · split at h
      · rename_i hopt
        obtain ⟨picks, htakes, hdistinct, hfresh, hcomplete⟩ := ih _ _ h
        refine ⟨none :: picks, .cons hopt htakes, ?_, ?_, ?_⟩
        · rwa [List.reduceOption_cons_of_none]
        · rwa [List.reduceOption_cons_of_none]
        · exact fun y hy hmem => List.mem_cons_of_mem _ (hcomplete y hy hmem)
      · cases h

/-! ## The order of what is taken -/

/-- Nothing that is taken is followed by something below it, and wherever a pattern has taken a
bubble its child patterns have shared out the children. -/
structure Arranged (F : Forest) (es : List (BubbleId × Pattern α)) : Prop where
  order : (es.map Prod.fst).Pairwise fun x y => ¬ F.Below x y
  shares : ∀ e ∈ es, ∃ picks, Shares F es e.1 e.2 picks

/-- What is taken in two places, neither of which lies below the other, may be put together. -/
lemma Arranged.append (h₁ : Arranged F es₁) (h₂ : Arranged F es₂)
    (hapart : ∀ e₁ ∈ es₁, ∀ e₂ ∈ es₂, ¬ F.Below e₁.1 e₂.1 ∧ ¬ F.Below e₂.1 e₁.1) :
    Arranged F (es₁ ++ es₂) where
  order := by
    rw [List.map_append, List.pairwise_append]
    refine ⟨h₁.order, h₂.order, ?_⟩
    intro x hx y hy
    obtain ⟨e₁, he₁, rfl⟩ := List.mem_map.1 hx
    obtain ⟨e₂, he₂, rfl⟩ := List.mem_map.1 hy
    exact (hapart e₁ he₁ e₂ he₂).1
  shares := by
    intro e he
    rcases List.mem_append.1 he with he | he
    · obtain ⟨picks, hpicks⟩ := h₁.shares e he
      refine ⟨picks, hpicks.mono (List.subset_append_left _ _) fun y hy hmem => ?_⟩
      rw [List.map_append, List.mem_append] at hmem
      refine hmem.resolve_right fun hmem => ?_
      obtain ⟨d, hd, rfl⟩ := List.mem_map.1 hmem
      exact (hapart e he d hd).1 (Forest.below_of_mem_children hy)
    · obtain ⟨picks, hpicks⟩ := h₂.shares e he
      refine ⟨picks, hpicks.mono (List.subset_append_right _ _) fun y hy hmem => ?_⟩
      rw [List.map_append, List.mem_append] at hmem
      refine hmem.resolve_left fun hmem => ?_
      obtain ⟨d, hd, rfl⟩ := List.mem_map.1 hmem
      exact (hapart d hd e he).2 (Forest.below_of_mem_children hy)

lemma arranged_of_greedyChildren (hF : F.WellFormed) (hids : Apart F ids)
    (ps : List (Pattern α)) :
    ∀ (taken : List BubbleId) (es : List (BubbleId × Pattern α)),
      (∀ q ∈ ps, ∀ id es, q.greedy F id = some es → Arranged F es) →
      greedyChildren F ps ids taken = some es → Arranged F es := by
  induction ps with
  | nil =>
    intro taken es _ h
    rw [greedyChildren] at h
    obtain rfl := Option.some.inj h
    exact ⟨.nil, by simp⟩
  | cons p ps ih =>
    intro taken es hps h
    have hps' : ∀ q ∈ ps, ∀ id es, q.greedy F id = some es → Arranged F es :=
      fun q hq => hps q (List.mem_cons_of_mem p hq)
    rw [greedyChildren] at h
    split at h
    · rename_i id es₁ hfirst
      obtain ⟨es₂, hes₂, rfl⟩ := Option.map_eq_some_iff.1 h
      obtain ⟨hid, hfree, hes₁⟩ := firstFree_eq_some hfirst
      have hco := coherent_of_greedy hF hes₁
      have hco' := coherentChildren_of_greedyChildren hF hids ps _ es₂
        (fun _ _ _ _ h => coherent_of_greedy hF h) hes₂
      refine (hps p List.mem_cons_self id es₁ hes₁).append (ih _ _ hps' hes₂) ?_
      intro e₁ he₁ e₂ he₂
      obtain ⟨k, hk, hknot, hke⟩ := hco'.below e₂ he₂
      have hne : id ≠ k := by
        rintro rfl
        exact hknot List.mem_cons_self
      have hide := hco.below hF e₁ he₁
      exact ⟨fun h => hne (hids id hid k hk _ (hide.trans h) hke),
        fun h => hne (hids id hid k hk _ hide (hke.trans h))⟩
    · split at h
      · exact ih _ _ hps' h
      · cases h

/-- What a pattern takes is arranged: the bubble itself comes last, after all that its child
patterns have shared out. -/
theorem arranged_of_greedy (hF : F.WellFormed) (h : p.greedy F id = some es) :
    Arranged F es := by
  induction p using children_induction generalizing id es with
  | step p ih =>
    have hco := coherent_of_greedy hF h
    obtain ⟨b, es', hb, hacc, hes', rfl⟩ := greedy_eq_some_iff.1 h
    rw [← Forest.children_eq hb] at hes'
    have hids := apart_children hF id
    have hbelow := (coherentChildren_of_greedyChildren hF hids p.children [] es'
      (fun _ _ _ _ h => coherent_of_greedy hF h) hes').below
    have hrest := arranged_of_greedyChildren hF hids p.children [] es'
      (fun q hq id es h => ih q hq h) hes'
    have hup : ∀ e ∈ es', ¬ F.Below e.1 id := by
      intro e he h
      obtain ⟨k, hk, -, hke⟩ := hbelow e he
      exact hF.not_below_of_mem_children hk (hke.trans h)
    constructor
    · rw [List.map_append, List.pairwise_append]
      refine ⟨hrest.order, List.pairwise_singleton _ _, ?_⟩
      intro x hx y hy
      obtain ⟨e, he, rfl⟩ := List.mem_map.1 hx
      rw [List.mem_singleton.1 hy]
      exact hup e he
    · intro e he
      rcases List.mem_append.1 he with hin | hlast
      · obtain ⟨picks, hpicks⟩ := hrest.shares e hin
        refine ⟨picks, hpicks.mono (List.subset_append_left _ _) fun y hy hmem => ?_⟩
        rw [List.map_append, List.mem_append] at hmem
        refine hmem.resolve_right fun hself => hup e hin ?_
        have hyid : y = id := List.mem_singleton.1 hself
        rw [hyid] at hy
        exact Forest.below_of_mem_children hy
      · obtain rfl := List.mem_singleton.1 hlast
        obtain ⟨picks, htakes, hdistinct, -, hcomplete⟩ := exists_picks hF hids _ _ _ hes'
        refine ⟨picks, htakes.imp fun _ _ => .mono (List.subset_append_left _ _), hdistinct, ?_⟩
        intro y hy hmem
        rw [List.map_append, List.mem_append] at hmem
        refine hcomplete y hy (hmem.resolve_right fun hself => ?_)
        have hyid : y = id := List.mem_singleton.1 hself
        rw [hyid] at hy
        exact hF.not_below_of_mem_children hy (.refl F _)

/-! ## The claims of a whole attempt -/

/-- The claims `c` are what `p` takes from `id` downwards. -/
structure Fitting (F : Forest) (p : Pattern α) (id : BubbleId) (c : Claims α) : Prop where
  /-- They are the greedy choice, in the same order. -/
  greedy : p.greedy F id = some c.entries
  /-- What is looked up for a bubble is the pattern that the greedy choice gives to it. -/
  get?_iff : ∀ x q, c.get? x = some q ↔ (x, q) ∈ c.entries
  once : c.bubbles.Nodup
  top : c.get? id = some p
  accepted : ∀ x q, c.get? x = some q → ∃ b, F.get? x = some b ∧ q.accepts b = true
  /-- The parent of a claimed bubble other than `id` is claimed by the parent pattern. -/
  parent : ∀ x q, c.get? x = some q → x ≠ id →
    ∃ y r, x ∈ F.children y ∧ c.get? y = some r ∧ q ∈ r.children
  /-- Child patterns take different children, and all that are required take one. -/
  shares : ∀ x q, c.get? x = some q → ∃ picks, Shares F c.entries x q picks
  /-- A bubble is claimed after everything that is claimed below it. -/
  order : ∀ x y, x ∈ c.bubbles → y ∈ c.bubbles → F.Below x y → x ≠ y → [y, x].Sublist c.bubbles

lemma fitting_of_greedy (hF : F.WellFormed) (h : p.greedy F id = some es) :
    Fitting F p id (.ofEntries es) := by
  have hco := coherent_of_greedy hF h
  have harr := arranged_of_greedy hF h
  have hbubbles := Claims.bubbles_ofEntries es
  have hnodup : (Claims.ofEntries es).bubbles.Nodup := hbubbles ▸ hco.nodup
  have hentries := (Claims.inStep_ofEntries hnodup).2
  have hget : ∀ x q, (Claims.ofEntries es).get? x = some q ↔ (x, q) ∈ es :=
    fun _ _ => Claims.get?_eq_some_iff hnodup
  constructor
  · rw [hentries, h]
  · rwa [hentries]
  · exact hnodup
  · exact (hget id p).2 hco.root_mem
  · exact fun x q hx => hco.accepted (x, q) ((hget x q).1 hx)
  · intro x q hx hne
    obtain ⟨d, hd, hchild, hq⟩ := (hco.parent (x, q) ((hget x q).1 hx)).resolve_left hne
    exact ⟨d.1, d.2, hchild, (hget d.1 d.2).2 hd, hq⟩
  · rw [hentries]
    exact fun x q hx => harr.shares (x, q) ((hget x q).1 hx)
  · intro x y hx hy hbelow hne
    have horder := harr.order
    rw [← hbubbles] at horder
    rcases Forest.pair_sublist_or hx hy hne with hsub | hsub
    · exact absurd hbelow (List.pairwise_iff_forall_sublist.1 horder hsub)
    · exact hsub

/-- In a well-formed forest an attempt succeeds just where there is a greedy choice, and then its
claims are that choice. -/
theorem claims_fitting (hF : F.WellFormed) (p : Pattern α) (id : BubbleId) :
    ((p.claim? F id).isSome ↔ (p.greedy F id).isSome) ∧
      ∀ c, p.claim? F id = some c → Fitting F p id c := by
  rw [claim?_eq_greedy hF]
  constructor
  · rw [Option.isSome_map]
  · intro c hc
    obtain ⟨es, hes, rfl⟩ := Option.map_eq_some_iff.1 hc
    exact fitting_of_greedy hF hes

end Pattern

/-- A bubble with two children that look alike, of which the second alone has a child with the
opcode 4. -/
def Forest.lookalikes : Forest where
  slots := #[bubble 1 [1, 3], bubble 2 [2], bubble 3 [], bubble 2 [4], bubble 4 []]
  roots := [0]
where
  bubble (opcode : UInt32) (children : List BubbleId) : Option Bubble :=
    some { (Bubble.ofTransaction { (default : Transaction) with opcode := some opcode }) with
      children }

/-- A pattern that is content with the first of two lookalikes until its last child is missing. -/
def Pattern.grandchild : Pattern Unit :=
  node "top" 1 [node "middle" 2 [node "aside" 3 [] true, node "below" 4 [] false] false] false
where
  node (name : String) (opcode : UInt32) (children : List (Pattern Unit)) (optional : Bool) :
      Pattern Unit :=
    ⟨name, [.hasOpcode opcode], none, children, optional⟩

open Forest Pattern in
/-- What was claimed below the first lookalike is given up with it. -/
theorem Pattern.claims_fitting_lookalikes : lookalikes.WellFormed ∧
    (grandchild.claim? lookalikes 0).map Claims.bubbles = some [4, 3, 0] ∧
    ∃ c, grandchild.claim? lookalikes 0 = some c ∧ Fitting lookalikes grandchild 0 c := by
  have hF : lookalikes.WellFormed := by decide
  obtain ⟨c, hc⟩ : ∃ c, grandchild.claim? lookalikes 0 = some c :=
    Option.isSome_iff_exists.1 (by decide)
  exact ⟨hF, by decide, c, hc, (claims_fitting hF grandchild 0).2 c hc⟩

end TraceFold
