import TraceFold.Proofs.Saturation.Fixpoint
import TraceFold.Proofs.Trace.Layout

/-!
# The order of what is left

A merge takes bubbles out of both walks through a forest and leaves the others in their order
(`Thinned`), and so does everything that is made of merges.

Hence the list of bubbles that a sweep makes at its beginning never goes stale: what is still live
of it is at all times the walk through the current forest, and a sweep that looks for its next
bubble in the current forest each time goes to the same ones (`sweptAfresh_turns`).  In a loaded
trace the walk with parents first is the ascending order of the names, which is the order of the
document; so it stays, and the actions come out in that order.
-/

namespace TraceFold

variable {F F' F'' G : Forest} {rules : Rules} {rule : AnyRule} {r r₁ r₂ : Run}
  {index n : Nat} {id next : BubbleId} {todo ids ids' tried : List BubbleId}

namespace Forest

/-- Some bubbles are gone, and the others stand in both walks in the same order as before. -/
structure Thinned (F F' : Forest) : Prop where
  live : ∀ x, F'.contains x = true → F.contains x = true
  slots : F'.slots.size = F.slots.size
  preOrder : F'.preOrder = F.preOrder.filter F'.contains
  postOrder : F'.postOrder = F.postOrder.filter F'.contains

namespace Thinned

lemma refl (hF : F.WellFormed) : F.Thinned F where
  live := fun _ hx => hx
  slots := rfl
  preOrder := (List.filter_eq_self.2 fun _ hx => hF.mem_preOrder.1 hx).symm
  postOrder := (List.filter_eq_self.2 fun _ hx => hF.mem_postOrder.1 hx).symm

/-- What is left of what was left. -/
lemma filter_filter_contains (h : ∀ x, F''.contains x = true → F'.contains x = true)
    (l : List BubbleId) :
    (l.filter F'.contains).filter F''.contains = l.filter F''.contains := by
  rw [List.filter_filter]
  refine List.filter_congr fun x _ => ?_
  rw [Bool.and_eq_left_iff_imp]
  exact h x

lemma trans (h : F.Thinned F') (h' : F'.Thinned F'') : F.Thinned F'' where
  live := fun x hx => h.live x (h'.live x hx)
  slots := h'.slots.trans h.slots
  preOrder := by rw [h'.preOrder, h.preOrder, filter_filter_contains h'.live]
  postOrder := by rw [h'.postOrder, h.postOrder, filter_filter_contains h'.live]

/-- If the walk with parents first was the ascending order of the names, it still is. -/
lemma preOrder_eq_live (h : F.Thinned F') (hF : F.preOrder = List.range F.slots.size) :
    F'.preOrder = F'.live := by
  rw [h.preOrder, hF, Forest.live, h.slots]

end Thinned

lemma Contracts.thinned {root : BubbleId} {K : List BubbleId} (hF : F.WellFormed)
    (h : F.Contracts F' root K) : F.Thinned F' where
  live := fun _ hx => (h.contains_iff.1 hx).1
  slots := h.slots
  preOrder := h.preOrder hF
  postOrder := h.postOrder hF

end Forest

/-! ## Merges and runs -/

namespace Run

lemma visit_thinned (hF : r.forest.WellFormed) (index : Nat) (rule : AnyRule) (id : BubbleId) :
    r.forest.Thinned (r.visit index rule id).forest := by
  rcases visit_contracts hF index rule id with hsame | ⟨K, hcon⟩
  · rw [hsame]; exact .refl hF
  · exact hcon.thinned hF

lemma visits_thinned (index : Nat) (rule : AnyRule) (ids : List BubbleId)
    (hF : r.forest.WellFormed) :
    r.forest.Thinned (ids.foldl (visit index rule) r).forest := by
  induction ids generalizing r with
  | nil => exact .refl hF
  | cons id ids ih =>
    exact (visit_thinned hF index rule id).trans (ih (visit_wellFormed hF index rule id))

/-- Every state of a run has a forest with fewer bubbles, in the same order. -/
theorem Reached.thinned (hF : F.WellFormed) (h : Reached rules F r) : F.Thinned r.forest := by
  induction h with
  | start => exact .refl hF
  | visit hrule hreached id ih =>
    exact ih.trans (visit_thinned (hreached.wellFormed hF) _ _ id)
  | record hforest _ _ ih => rw [hforest]; exact ih

/-! ## Sweeps that look again -/

/-- The bubbles of a list that are live when their turn comes. -/
def turns (index : Nat) (rule : AnyRule) (r : Run) : List BubbleId → List BubbleId
  | [] => []
  | id :: ids =>
    (if r.forest.contains id then [id] else []) ++ (r.visit index rule id).turns index rule ids

/-- The bubbles of the current forest that have not had their turn, in the order of a sweep. -/
def waiting (r : Run) (tried : List BubbleId) : List BubbleId :=
  r.forest.postOrder.filter fun x => !tried.contains x

/-- A sweep that looks for its next bubble in the current forest each time: as long as there are
bubbles that have not had their turn, the first of them has it.  It ends in `r'` after the given
turns. -/
inductive SweptAfresh (index : Nat) (rule : AnyRule) :
    List BubbleId → Run → List BubbleId → Run → Prop
  | finished {tried : List BubbleId} {r : Run} (none : r.waiting tried = []) :
      SweptAfresh index rule tried r [] r
  | next {tried rest ids : List BubbleId} {r r' : Run} {id : BubbleId}
      (first : r.waiting tried = id :: rest)
      (onwards : SweptAfresh index rule (id :: tried) (r.visit index rule id) ids r') :
      SweptAfresh index rule tried r (id :: ids) r'

/-- Such a sweep can go in one way only. -/
lemma SweptAfresh.unique (h : SweptAfresh index rule tried r ids r₁)
    (h' : SweptAfresh index rule tried r ids' r₂) : ids = ids' ∧ r₁ = r₂ := by
  induction h generalizing ids' with
  | finished hnone =>
    cases h' with
    | finished _ => exact ⟨rfl, rfl⟩
    | next hfirst _ => rw [hnone] at hfirst; cases hfirst
  | next hfirst _ ih =>
    cases h' with
    | finished hnone => rw [hnone] at hfirst; cases hfirst
    | next hfirst' honwards =>
      obtain ⟨rfl, -⟩ := List.cons.inj (hfirst.symm.trans hfirst')
      obtain ⟨rfl, hend⟩ := ih honwards
      exact ⟨rfl, hend⟩

/-- After a turn the same bubbles wait, except the one that had it and those that are gone. -/
lemma waiting_visit (hF : r.forest.WellFormed) (index : Nat) (rule : AnyRule) (id : BubbleId)
    (tried : List BubbleId) : (r.visit index rule id).waiting (id :: tried) =
      ((r.waiting tried).filter (· != id)).filter (r.visit index rule id).forest.contains := by
  unfold waiting
  rw [(visit_thinned hF index rule id).postOrder, List.filter_filter, List.filter_filter,
    List.filter_filter]
  refine List.filter_congr fun x _ => ?_
  rw [List.contains_cons, Bool.not_or, bne]
  cases x == id <;> cases tried.contains x <;> simp

/-- Going through a list is looking again each time, if what is live of the list is what waits. -/
lemma sweptAfresh_of_waiting (index : Nat) (rule : AnyRule) (hF : r.forest.WellFormed)
    (htodo : todo.Nodup) (h : r.waiting tried = todo.filter r.forest.contains) :
    SweptAfresh index rule tried r (r.turns index rule todo)
      (todo.foldl (visit index rule) r) := by
  induction todo generalizing r tried with
  | nil => exact .finished h
  | cons id todo ih =>
    obtain ⟨hid, htodo⟩ := List.nodup_cons.1 htodo
    rw [List.foldl_cons, turns]
    by_cases hlive : r.forest.contains id = true
    · rw [List.filter_cons_of_pos hlive] at h
      rw [if_pos hlive]
      refine .next h (ih (visit_wellFormed hF index rule id) htodo ?_)
      have hothers : (todo.filter r.forest.contains).filter (· != id) =
          todo.filter r.forest.contains := by
        refine List.filter_eq_self.2 fun x hx => bne_iff_ne.2 fun heq => ?_
        exact hid (heq ▸ (List.mem_filter.1 hx).1)
      rw [waiting_visit hF, h, List.filter_cons_of_neg (by simp), hothers]
      exact Forest.Thinned.filter_filter_contains (visit_thinned hF index rule id).live todo
    · have hsame : r.visit index rule id = r := by
        unfold visit
        rw [Bool.eq_false_iff.2 hlive]
        rfl
      rw [List.filter_cons_of_neg hlive] at h
      rw [if_neg hlive, hsame]
      exact ih hF htodo h

/-- A sweep goes where one would go that looks for its next bubble again each time. -/
theorem sweptAfresh_turns (hF : r.forest.WellFormed) (index : Nat) (rule : AnyRule) :
    SweptAfresh index rule [] r (r.turns index rule r.forest.postOrder)
      (r.forest.postOrder.foldl (visit index rule) r) := by
  apply sweptAfresh_of_waiting index rule hF hF.postOrder_nodup
  unfold waiting
  refine List.filter_congr fun x hx => ?_
  rw [hF.mem_postOrder.1 hx]
  rfl

/-- The bubbles that are live at a moment of a sweep are those of its list that are still live, in
the same order. -/
lemma moment_postOrder (hF : F.WellFormed) (passes sweeps visits : Nat) :
    (moment rules F passes sweeps visits).forest.postOrder =
      (betweenSweeps rules F passes sweeps).forest.postOrder.filter
        (moment rules F passes sweeps visits).forest.contains := by
  have hbefore := (reached_betweenSweeps rules F passes sweeps).wellFormed hF
  unfold moment
  split
  · exact (visits_thinned _ _ _ hbefore).postOrder
  · exact (Forest.Thinned.refl hbefore).postOrder

/-! ## Where actions come from -/

/-- In the run with at most `n` passes a rule merges at the bubble. -/
def MergedAt (rules : Rules) (F : Forest) (n : Nat) (id : BubbleId) : Prop :=
  ∃ passes sweeps visits rule, Makes rules F n passes sweeps visits rule id ∧
    (sweeps, id) ∉ (moment rules F passes sweeps visits).failed ∧
    (AnyRule.merge rule (moment rules F passes sweeps visits).forest id).merged = true

/-- A bubble at which no rule merges stays as it is for as long as it is there. -/
lemma get?_of_not_mergedAt (hF : F.WellFormed) (n : Nat)
    (hlive : ((Saturation.start F).steps rules n).run.forest.contains id = true)
    (hnot : ¬ MergedAt rules F n id) :
    ((Saturation.start F).steps rules n).run.forest.get? id = F.get? id := by
  refine steps_induction (motive := fun r => r.forest.contains id = true →
    r.forest.get? id = F.get? id) (n := n) ?_ ?_ (fun _ => rfl) hlive
  · intro r r' halike h
    rwa [halike.forest]
  · intro passes sweeps visits rule next hmakes h hlive
    have hwf := (reached_moment rules F passes sweeps visits).wellFormed hF
    cases visitCase (moment rules F passes sweeps visits) sweeps rule next with
    | skipped _ hsame => rw [hsame] at hlive ⊢; exact h hlive
    | refused _ _ _ hforest => rw [hforest] at hlive ⊢; exact h hlive
    | merged _ hfresh hmerged _ =>
      have hne : id ≠ next := by
        rintro rfl
        exact hnot ⟨passes, sweeps, visits, rule, hmakes, hfresh, hmerged⟩
      rcases visit_contracts hwf sweeps rule next with hsame | ⟨K, hcon⟩
      · rw [hsame] at hlive ⊢
        exact h hlive
      · rw [hcon.get?_of_contains hlive hne]
        exact h (hcon.contains_iff.1 hlive).1

end Run

namespace Saturation

/-- What can be relied on in any run over a forest `F` whose slots are in the order of a document,
when it has made at most `n` passes and ended in `s`. -/
structure InOrder (rules : Rules) (F : Forest) (n : Nat) (s : Saturation) : Prop where
  preOrder : s.forest.preOrder = s.forest.live
  /-- The actions come in the order of their slots. -/
  actions : s.actions = (List.range F.slots.size).filterMap fun i =>
    (s.forest.get? i).bind fun b => b.payload.action?
  /-- An action stands in the slot of the transaction at which a rule merged. -/
  origin : ∀ id b, s.forest.get? id = some b → b.payload.kind ≠ .transaction →
    Run.MergedAt rules F n id

lemma inOrder_ofForest (hF : F.WellFormed) (horder : F.preOrder = List.range F.slots.size)
    (htx : F.AllTransactions) (n : Nat) : InOrder rules F n (ofForest rules n F) := by
  have hthinned := (Run.reached_ofForest rules n F).thinned hF
  have hpre := hthinned.preOrder_eq_live horder
  refine ⟨hpre, ?_, ?_⟩
  · show (ofForest rules n F).forest.actions = _
    unfold Forest.actions
    rw [show (ofForest rules n F).forest.preOrder = _ from hpre, Forest.live, hthinned.slots,
      List.filterMap_filter]
    refine List.filterMap_congr fun i _ => ?_
    cases hi : (ofForest rules n F).run.forest.get? i with
    | none => simp [Forest.contains, Saturation.forest, hi]
    | some b => simp [Forest.contains, Saturation.forest, hi]
  · intro id b hb hkind
    have hend : (ofForest rules n F).forest = ((start F).steps rules n).run.forest :=
      close_forest n _
    rw [hend] at hb
    by_contra hnot
    have hsame := Run.get?_of_not_mergedAt hF n (Forest.contains_of_get? hb) hnot
    obtain ⟨tx, htx⟩ := htx id b (hsame.symm.trans hb)
    rw [htx] at hkind
    exact hkind rfl

end Saturation

/-! ## All together -/

/-- The bubble is not swallowed by a merge at `root` that claims these bubbles. -/
def Claims.spares {α : Type} (c : Claims α) (root x : BubbleId) : Bool :=
  !c.contains x || x == root

lemma Pattern.merge_order {α : Type} [Target α] (p : Pattern α) (hF : F.WellFormed)
    (h : (p.merge F id).merged = true) : ∃ c, p.claim? F id = some c ∧
      (p.merge F id).forest.preOrder = F.preOrder.filter (c.spares id) ∧
      (p.merge F id).forest.postOrder = F.postOrder.filter (c.spares id) := by
  cases mergeCase p F id with
  | notFound _ _ hmerged => rw [hmerged] at h; cases h
  | failed _ _ _ _ _ hmerged => rw [hmerged] at h; cases h
  | success c b hclaim hrep hforest =>
    have hcon := commit_contracts hF hclaim hrep
    have hspares : ∀ x, F.contains x = true →
        (p.merge F id).forest.contains x = c.spares id x := by
      intro x hx
      rw [hforest, Bool.eq_iff_iff, hcon.contains_iff, Claims.spares, Bool.or_eq_true,
        Bool.not_eq_true', ← Bool.not_eq_true, (inStep_of_claim? hclaim).contains_iff, beq_iff_eq]
      by_cases hmem : x ∈ c.bubbles <;> simp [hx, hmem]
    refine ⟨c, hclaim, ?_, ?_⟩
    · rw [hforest, hcon.preOrder hF, ← hforest]
      exact List.filter_congr fun x hx => hspares x (hF.mem_preOrder.1 hx)
    · rw [hforest, hcon.postOrder hF, ← hforest]
      exact List.filter_congr fun x hx => hspares x (hF.mem_postOrder.1 hx)

/-- Merging keeps both walks in order: a merge only takes the swallowed bubbles out of them; the
list of a sweep is current at every moment, so that the sweep goes as if it looked again before
every turn; and in a loaded trace the ascending order of the names, which is the order of the
document, is at all times the order of the walk with parents first and in the end that of the
actions. -/
theorem orders_kept :
    (∀ {α : Type} [Target α] (p : Pattern α) (F : Forest) (id : BubbleId), F.WellFormed →
      (p.merge F id).merged = true → ∃ c, p.claim? F id = some c ∧
        (p.merge F id).forest.preOrder = F.preOrder.filter (c.spares id) ∧
        (p.merge F id).forest.postOrder = F.postOrder.filter (c.spares id)) ∧
    (∀ (rules : Rules) (F : Forest), F.WellFormed → ∀ passes sweeps,
      (∀ visits, (Run.moment rules F passes sweeps visits).forest.postOrder =
        (Run.betweenSweeps rules F passes sweeps).forest.postOrder.filter
          (Run.moment rules F passes sweeps visits).forest.contains) ∧
      ∀ rule, rules[sweeps]? = some rule →
        let r := Run.betweenSweeps rules F passes sweeps
        ∀ ids r', Run.SweptAfresh sweeps rule [] r ids r' ↔
          ids = r.turns sweeps rule r.forest.postOrder ∧
            r' = r.forest.postOrder.foldl (Run.visit sweeps rule) r) ∧
    ∀ roots : List TraceNode, roots ≠ [] → ∃ F, Forest.ofNodes roots = .ok F ∧
      F.payloads = (TraceNode.transactionsAll roots).map
        (fun tx => some (.transaction tx.withOpcode)) ∧
      ∀ rules : Rules,
        (∀ passes sweeps visits, (Run.moment rules F passes sweeps visits).forest.preOrder =
          (Run.moment rules F passes sweeps visits).forest.live) ∧
        ∀ n, Saturation.InOrder rules F n (Saturation.ofForest rules n F) := by
  refine ⟨fun p F id hF h => p.merge_order hF h, fun rules F hF passes sweeps => ⟨?_, ?_⟩, ?_⟩
  · exact Run.moment_postOrder hF passes sweeps
  · intro rule _ r ids r'
    have hwf := (Run.reached_betweenSweeps rules F passes sweeps).wellFormed hF
    have hturns := Run.sweptAfresh_turns hwf sweeps rule
    constructor
    · exact fun h => h.unique hturns
    · rintro ⟨rfl, rfl⟩
      exact hturns
  · intro roots hroots
    obtain ⟨F, hload, hF, htx⟩ := Forest.exists_ofNodes hroots
    obtain rfl : Forest.layoutAll roots = F :=
      Except.ok.inj ((Forest.ofNodes_eq_layoutAll hroots).symm.trans hload)
    have horder := Forest.preOrder_layoutAll roots
    refine ⟨_, hload, Forest.payloads_layoutAll roots, fun rules => ⟨?_, ?_⟩⟩
    · intro passes sweeps visits
      exact ((Run.reached_moment rules _ passes sweeps visits).thinned hF).preOrder_eq_live horder
    · exact fun n => Saturation.inOrder_ofForest hF horder htx n

open Saturation in
/-- A mint in the middle of a trace swallows one bubble of four, and the others stay in order. -/
theorem orders_kept_lateMaster : lateMaster.WellFormed ∧
    (Catalog.JettonMint.pattern.merge lateMaster 1).merged = true ∧
    (∃ c, Catalog.JettonMint.pattern.claim? lateMaster 1 = some c ∧
      (Catalog.JettonMint.pattern.merge lateMaster 1).forest.preOrder =
        lateMaster.preOrder.filter (c.spares 1) ∧
      (Catalog.JettonMint.pattern.merge lateMaster 1).forest.postOrder =
        lateMaster.postOrder.filter (c.spares 1)) ∧
    lateMaster.preOrder = [0, 1, 2, 3] ∧
    (Catalog.JettonMint.pattern.merge lateMaster 1).forest.preOrder = [0, 1, 3] ∧
    ∃ F, Forest.ofNodes [lateMasterNode] = .ok F ∧
      InOrder Catalog.standard F 16 (ofForest Catalog.standard 16 F) := by
  have hF : lateMaster.WellFormed := by decide
  have hmerged : (Catalog.JettonMint.pattern.merge lateMaster 1).merged = true := by decide
  obtain ⟨hmerge, -, hloaded⟩ := orders_kept
  obtain ⟨F, hload, -, hrun⟩ := hloaded [lateMasterNode] (by simp)
  exact ⟨hF, hmerged, hmerge _ lateMaster 1 hF hmerged, by decide, by decide, F, hload,
    (hrun Catalog.standard).2 16⟩

end TraceFold
