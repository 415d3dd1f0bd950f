import TraceFold.Proofs.Merging.Transactions
import TraceFold.Proofs.Saturation.Progress

/-!
# Actions stay

If all patterns of a catalog, with their sub-patterns, need transactions, what has become an action
is never claimed again.  A merge further up may hang it on another bubble, but its own slot stays as
it is, and it stays below a root, so that it is handed out at the end (`HandsOut`).

If moreover all rules make actions, every merge makes one and takes none away.  So the actions that
are handed out can be counted: those there were at the beginning, and one for every merge
(`actions_kept`).  For the same reason no two merges of a run are made at the same bubble
(`Run.Merges.unique`).
-/

namespace TraceFold

variable {F : Forest} {rules : Rules} {rule : AnyRule} {r : Run} {b : Bubble} {index : Nat}
  {id x : BubbleId}

/-- A bubble that a forest hands out as one action: it is in its slot, it can be got to from a root,
and the walk through the forest comes to it once, where it gives its action. -/
structure Forest.HandsOut (F : Forest) (id : BubbleId) (b : Bubble) : Prop where
  slot : F.get? id = some b
  reachable : ∃ root ∈ F.roots, F.Below root id
  once : ∃ (before after : List BubbleId) (action : Action), b.payload.action? = some action ∧
    F.preOrder = before ++ id :: after ∧ id ∉ before ∧ id ∉ after ∧
    F.actions = before.filterMap F.action? ++ action :: after.filterMap F.action?

lemma Forest.WellFormed.handsOut (hF : F.WellFormed) (hb : F.get? id = some b)
    (haction : b.payload.action?.isSome = true) : F.HandsOut id b := by
  have hlive := Forest.contains_of_get? hb
  refine ⟨hb, hF.exists_root_below hlive, ?_⟩
  obtain ⟨action, haction⟩ := Option.isSome_iff_exists.1 haction
  obtain ⟨before, after, hsplit⟩ := List.append_of_mem (hF.mem_preOrder.2 hlive)
  have hnodup := hF.preOrder_nodup
  rw [hsplit, List.nodup_middle, List.nodup_cons, List.mem_append, not_or] at hnodup
  refine ⟨before, after, action, haction, hsplit, hnodup.1.1, hnodup.1.2, ?_⟩
  have hgives : F.action? id = some action := by rw [Forest.action?_of_get? hb, haction]
  show F.preOrder.filterMap F.action? = _
  rw [hsplit, List.filterMap_append, List.filterMap_cons_some hgives]

/-! ## One merge, one visit -/

/-- A merge of transactions does not touch an action. -/
lemma AnyRule.get?_of_action? (htakes : rule.TakesTransactions) (hF : F.WellFormed)
    (hx : (F.action? x).isSome = true) : (rule.merge F id).forest.get? x = F.get? x := by
  cases hmerged : (rule.merge F id).merged with
  | false => rw [AnyRule.merge_forest_of_not_merged hmerged]
  | true =>
    exact (AnyRule.contracts_of_merged hF hmerged).get?_of_action?
      (AnyRule.transaction?_of_claimed htakes hF id) hx

/-- Where every action is kept and one is made, there is one more. -/
lemma AnyRule.length_actionIds (htakes : rule.TakesTransactions) (hmakes : rule.MakesActions)
    (hF : F.WellFormed) (hmerged : (rule.merge F id).merged = true) :
    (rule.merge F id).forest.actionIds.length = F.actionIds.length + 1 := by
  have hdraws := AnyRule.draws_of_merged hF hmerged hmakes
  have hperm := hdraws.contracts.perm_actionIds (AnyRule.transaction?_of_claimed htakes hF id)
    hdraws.action
  rw [hperm.length_eq, List.length_cons]

lemma Run.visit_get?_of_action? (htakes : rule.TakesTransactions) (hF : r.forest.WellFormed)
    (hx : (r.forest.action? x).isSome = true) :
    (r.visit index rule id).forest.get? x = r.forest.get? x := by
  cases visitCase r index rule id with
  | skipped _ hsame => rw [hsame]
  | merged _ _ _ hforest => rw [hforest]; exact AnyRule.get?_of_action? htakes hF hx
  | refused _ _ _ hforest => rw [hforest]

/-! ## Whole runs -/

/-- The forest is as it should be, and the bubble is in its slot. -/
def Run.Has (id : BubbleId) (b : Bubble) (r : Run) : Prop :=
  r.forest.WellFormed ∧ r.forest.get? id = some b

lemma Run.Has.visit (htakes : ∀ rule ∈ rules, rule.TakesTransactions)
    (haction : b.payload.action?.isSome = true) (r : Run) (index : Nat) (rule : AnyRule)
    (next : BubbleId) (hrule : rules[index]? = some rule) (h : Has id b r) :
    Has id b (r.visit index rule next) := by
  obtain ⟨hwf, hb⟩ := h
  refine ⟨visit_wellFormed hwf index rule next, ?_⟩
  have hgives : (r.forest.action? id).isSome = true := by rwa [Forest.action?_of_get? hb]
  rw [visit_get?_of_action? (htakes rule (List.mem_of_getElem? hrule)) hwf hgives, hb]

lemma Run.Has.record {r' : Run} (hforest : r'.forest = r.forest) (h : Has id b r) :
    Has id b r' := by
  rwa [Has, hforest]

/-- The run with at most `n` passes makes this visit, and the rule merges. -/
structure Run.Merges (rules : Rules) (F : Forest) (n passes sweeps visits : Nat) (rule : AnyRule)
    (id : BubbleId) : Prop where
  makes : Makes rules F n passes sweeps visits rule id
  fresh : (sweeps, id) ∉ (moment rules F passes sweeps visits).failed
  merged : (rule.merge (moment rules F passes sweeps visits).forest id).merged = true

section Runs

variable {rule' : AnyRule} {n passes passes' sweeps sweeps' visits visits' : Nat}

/-- After a merge of a rule that makes actions there is one. -/
lemma Run.Merges.exists_has (hmakes : rule.MakesActions) (hF : F.WellFormed)
    (h : Merges rules F n passes sweeps visits rule id) : ∃ b,
      b.payload.action?.isSome = true ∧ Has id b (moment rules F passes sweeps (visits + 1)) := by
  have hwf := (reached_moment rules F passes sweeps visits).wellFormed hF
  have hdraws := AnyRule.draws_of_merged hwf h.merged hmakes
  rw [moment_succ h.makes]
  cases visitCase (moment rules F passes sweeps visits) sweeps rule id with
  | skipped why _ =>
    rcases why with hgone | hfailed
    · rw [hdraws.contracts.group.contains_root] at hgone
      cases hgone
    · exact absurd hfailed h.fresh
  | refused _ _ hrefused _ =>
    rw [h.merged] at hrefused
    cases hrefused
  | merged _ _ _ hforest =>
    obtain ⟨b, hb⟩ := Forest.contains_iff.1 hdraws.contracts.root_live
    refine ⟨b, ?_, visit_wellFormed hwf sweeps rule id, by rw [hforest, hb]⟩
    rw [← Forest.action?_of_get? hb]
    exact hdraws.action

variable (htakes : ∀ rule ∈ rules, rule.TakesTransactions)

include htakes

/-- An action at some moment of a run is there, as it is, at every later one. -/
lemma Run.Has.later (haction : b.payload.action?.isSome = true)
    (hgoing : ((Saturation.start F).steps rules passes).fixpoint = false)
    (hle : toLex (passes, toLex (sweeps, visits)) ≤ toLex (passes', toLex (sweeps', visits')))
    (h : Has id b (moment rules F passes sweeps visits)) :
    Has id b (moment rules F passes' sweeps' visits') :=
  moment_induction (Has.visit htakes haction) (fun _ _ hforest _ => record hforest) hle hgoing h

lemma Run.Has.atEnd (haction : b.payload.action?.isSome = true) (hpass : passes < n)
    (hgoing : ((Saturation.start F).steps rules passes).fixpoint = false)
    (h : Has id b (moment rules F passes sweeps visits)) :
    Has id b (Saturation.ofForest rules n F).run :=
  end_of_moment (Has.visit htakes haction) (fun _ _ hforest _ => record hforest) hpass hgoing h

variable (hmakes : ∀ rule ∈ rules, rule.MakesActions)

include hmakes

/-- Where a rule has merged none merges later, as there is an action now. -/
lemma Run.Merges.not_later (hF : F.WellFormed)
    (h : Merges rules F n passes sweeps visits rule id)
    (hlt : toLex (passes, toLex (sweeps, visits)) < toLex (passes', toLex (sweeps', visits'))) :
    ¬ Merges rules F n passes' sweeps' visits' rule' id := by
  intro h'
  have hle : toLex (passes, toLex (sweeps, visits + 1)) ≤
      toLex (passes', toLex (sweeps', visits')) := by
    simp only [Prod.Lex.toLex_lt_toLex, Prod.Lex.toLex_le_toLex] at hlt ⊢
    omega
  have hmakesOne := hmakes rule (List.mem_of_getElem? h.makes.rule)
  obtain ⟨b, haction, hnow⟩ := h.exists_has hmakesOne hF
  obtain ⟨hwf, hb⟩ := hnow.later htakes haction h.makes.unfinished hle
  have hneeds := (htakes rule' (List.mem_of_getElem? h'.makes.rule)).needs
  refine Forest.ne_of_action? (AnyRule.transaction?_of_merged hwf h'.merged hneeds) ?_ rfl
  rwa [Forest.action?_of_get? hb]

/-- In a run there is at most one merge at a bubble. -/
lemma Run.Merges.unique (hF : F.WellFormed)
    (h : Merges rules F n passes sweeps visits rule id)
    (h' : Merges rules F n passes' sweeps' visits' rule' id) :
    passes = passes' ∧ sweeps = sweeps' ∧ visits = visits' ∧ rule = rule' := by
  rcases lt_trichotomy (toLex (passes, toLex (sweeps, visits)))
    (toLex (passes', toLex (sweeps', visits'))) with hlt | heq | hgt
  · exact absurd h' (h.not_later htakes hmakes hF hlt)
  · simp only [toLex_inj, Prod.mk.injEq] at heq
    obtain ⟨rfl, rfl, rfl⟩ := heq
    exact ⟨rfl, rfl, rfl, Option.some.inj (h.makes.rule.symm.trans h'.makes.rule)⟩
  · exact absurd h (h'.not_later htakes hmakes hF hgt)

end Runs

namespace Saturation

/-- In any run of rules that take nothing but transactions, as those of the standard catalog are,
a bubble that holds an action at some moment is the same at every later one and at the end, where it
is handed out as one action.  If what the rules build becomes actions, as transfers and mints do,
the actions that are handed out are as many as there were at the beginning and merges were made. -/
theorem actions_kept :
    (∀ rule ∈ Catalog.standard, rule.TakesTransactions ∧ rule.MakesActions) ∧
    (∀ rules : List Rule, ∀ rule ∈ (rules : Rules), rule.MakesActions) ∧
    ∀ rules : Rules, (∀ rule ∈ rules, rule.TakesTransactions) →
      ∀ F : Forest, F.WellFormed → ∀ maxPasses,
        (∀ id b, b.payload.action?.isSome = true → F.get? id = some b →
          (ofForest rules maxPasses F).forest.HandsOut id b) ∧
        (∀ passes sweeps visits, passes < maxPasses →
          ((start F).steps rules passes).fixpoint = false → ∀ id b,
            b.payload.action?.isSome = true →
            (Run.moment rules F passes sweeps visits).forest.get? id = some b →
              (∀ passes' sweeps' visits',
                toLex (passes, toLex (sweeps, visits)) ≤
                    toLex (passes', toLex (sweeps', visits')) →
                  (Run.moment rules F passes' sweeps' visits').forest.HandsOut id b) ∧
              (ofForest rules maxPasses F).forest.HandsOut id b) ∧
        ((∀ rule ∈ rules, rule.MakesActions) → (ofForest rules maxPasses F).actions.length =
          F.actionIds.length + (ofForest rules maxPasses F).merged) := by
  refine ⟨fun rule hrule => ⟨Catalog.standard_takesTransactions rule hrule,
    Catalog.standard_makesActions rule hrule⟩, Rule.makesActions, ?_⟩
  refine fun rules htakes F hF n => ⟨?_, ?_, fun hmakes => ?_⟩
  · intro id b haction hb
    have hend : Run.Has id b (ofForest rules n F).run :=
      ofForest_induction (Run.Has.visit htakes haction)
        (fun _ _ hsilent => Run.Has.record hsilent.forest) (fun _ _ h => h) ⟨hF, hb⟩ n
    exact hend.1.handsOut hend.2 haction
  · intro passes sweeps visits hpass hgoing id b haction hb
    have hnow : Run.Has id b (Run.moment rules F passes sweeps visits) :=
      ⟨(Run.reached_moment rules F passes sweeps visits).wellFormed hF, hb⟩
    constructor
    · intro passes' sweeps' visits' hle
      obtain ⟨hwf, hlater⟩ := hnow.later htakes haction hgoing hle
      exact hwf.handsOut hlater haction
    · obtain ⟨hwf, hend⟩ := hnow.atEnd htakes haction hpass hgoing
      exact hwf.handsOut hend haction
  · refine ((Run.reached_ofForest rules n F).wellFormed hF).length_actions.trans ?_
    refine merged_induction
      (motive := fun G m => G.actionIds.length = F.actionIds.length + m) ?_ hF rfl n
    intro G rule id m hrule hG hmerged hlaw
    rw [AnyRule.length_actionIds (htakes rule hrule) (hmakes rule hrule) hG hmerged, hlaw,
      Nat.add_assoc]

/-- A forest with a mint that was recognized below a transfer that was not. -/
def mintedFirst : Forest := (ofForest Catalog.standard 16 lateMaster).forest

/-- The mint stays as it is when the transfer above it merges. -/
theorem actions_kept_mintedFirst : ∃ b, b.payload.kind = .jettonMint ∧ mintedFirst.WellFormed ∧
    mintedFirst.actionIds = [1] ∧ mintedFirst.get? 1 = some b ∧
    (Run.moment Catalog.standard mintedFirst 0 0 0).forest.get? 1 = some b ∧
    (Run.moment Catalog.standard mintedFirst 0 0 3).counts.merged = 1 ∧
    (Run.moment Catalog.standard mintedFirst 0 0 3).forest.HandsOut 1 b ∧
    (ofForest Catalog.standard 16 mintedFirst).forest.HandsOut 1 b ∧
    (ofForest Catalog.standard 16 mintedFirst).merged = 1 ∧
    (ofForest Catalog.standard 16 mintedFirst).actions.length = 2 := by
  have hF : mintedFirst.WellFormed := by decide +kernel
  have hkind : (mintedFirst.get? 1).map (fun b => b.payload.kind) = some .jettonMint := by
    decide +kernel
  obtain ⟨b, hb, hmint⟩ := Option.map_eq_some_iff.1 hkind
  have haction : b.payload.action?.isSome = true := by
    cases hpayload : b.payload with
    | transaction tx => rw [hpayload] at hmint; cases hmint
    | jettonTransfer t => rfl
    | jettonMint m => rfl
  have hids : mintedFirst.actionIds = [1] := by decide +kernel
  have hmerged : (ofForest Catalog.standard 16 mintedFirst).merged = 1 := by decide +kernel
  obtain ⟨hstandard, -, hkept⟩ := actions_kept
  obtain ⟨hstart, hmoments, hcount⟩ :=
    hkept Catalog.standard (fun rule hrule => (hstandard rule hrule).1) mintedFirst hF 16
  have hnow : (Run.moment Catalog.standard mintedFirst 0 0 0).forest.get? 1 = some b := by
    rw [Run.moment_zero_forest]
    exact hb
  obtain ⟨hlater, -⟩ := hmoments 0 0 0 (by decide) rfl 1 b haction hnow
  have hcount := hcount fun rule hrule => (hstandard rule hrule).2
  rw [hids, hmerged] at hcount
  exact ⟨b, hmint, hF, hids, hb, hnow, by decide +kernel, hlater 0 0 3 (by decide),
    hstart 1 b haction hb, hmerged, hcount⟩

end Saturation
end TraceFold
