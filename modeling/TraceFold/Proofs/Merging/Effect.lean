import TraceFold.Pattern.Merge
import TraceFold.Proofs.Matching.Agreement

/-!
# The effect of a merge

A merge fails to find its pattern, fails in a builder, or succeeds (`MergeCase`); in the first two
cases the forest stays as it is.  If it succeeds, the claimed bubbles form a group
(`claim?_group`) and the forest is contracted along it (`commit_contracts`).

`MergeEffect` says in full what is different afterwards, and `merge_effect` that every successful
merge in a well-formed forest has this effect.
-/

namespace TraceFold

variable {α : Type} {F F' : Forest} {p : Pattern α} {c : Claims α} {b : Bubble}
  {id root x : BubbleId}

/-! ## Removing several bubbles -/

namespace Forest

lemma get?_foldl_prune (ids : List BubbleId) (F : Forest) (j : BubbleId) :
    (ids.foldl prune F).get? j = if j ∈ ids then none else F.get? j := by
  induction ids generalizing F with
  | nil => simp
  | cons i ids ih =>
    rw [List.foldl_cons, ih, get?_prune]
    by_cases hj : j ∈ ids
    · simp [hj]
    · by_cases hij : i = j
      · simp [hij]
      · simp [hj, hij, Ne.symm hij]

lemma slots_foldl_prune (ids : List BubbleId) (F : Forest) :
    (ids.foldl prune F).slots.size = F.slots.size := by
  induction ids generalizing F with
  | nil => rfl
  | cons i ids ih => rw [List.foldl_cons, ih]; simp [prune]

lemma roots_foldl_prune (ids : List BubbleId) (F : Forest) :
    (ids.foldl prune F).roots = F.roots := by
  induction ids generalizing F with
  | nil => rfl
  | cons i ids ih => rw [List.foldl_cons, ih]; rfl

end Forest

/-! ## Reports among events -/

@[simp] lemma Event.reports_append (es es' : List Event) :
    Event.reports (es ++ es') = Event.reports es ++ Event.reports es' := List.filterMap_append

lemma MergeStep.reported_eq (step : MergeStep) :
    step.reported = !(Event.reports step.events).isEmpty := by
  unfold reported Event.reports
  induction step.events with
  | nil => rfl
  | cons e es ih =>
    rw [List.any_cons, ih, List.filterMap_cons]
    cases e.report? <;> rfl

lemma MergeStep.reports_eq_nil {step : MergeStep} (h : step.reported = false) :
    Event.reports step.events = [] := by
  unfold Event.reports
  rw [List.filterMap_eq_nil_iff]
  intro e he
  simpa using List.any_eq_false.1 h e he

/-! ## Running the builders -/

namespace Claims

/-- What the pattern that claimed a bubble makes of a draft there, with the failure, if any. -/
def buildAt (c : Claims α) (F : Forest) (draft : α) (id : BubbleId) : α × Option BuildError :=
  match c.builder? id, F.get? id with
  | some build, some b => build draft b
  | _, _ => (draft, none)

lemma build_cons (ids : List BubbleId) (draft : α) : c.build F (id :: ids) draft =
    match c.buildAt F draft id with
    | (draft, none) => c.build F ids draft
    | (_, some e) => .error (id, e) := by
  rw [build, buildAt]
  cases c.builder? id with
  | none => rfl
  | some build =>
    cases F.get? id with
    | none => rfl
    | some b => rfl

/-- A failure names one of the bubbles that were gone through. -/
lemma mem_of_build_eq_error {ids : List BubbleId} {draft : α} {failure : BubbleId × BuildError}
    (h : c.build F ids draft = .error failure) : failure.1 ∈ ids := by
  induction ids generalizing draft with
  | nil => cases h
  | cons id ids ih =>
    rw [build_cons] at h
    split at h
    · exact List.mem_cons_of_mem id (ih h)
    · cases h
      exact List.mem_cons_self

/-- A draft that is finished has gone through all the builders in turn. -/
lemma eq_foldl_of_build {ids : List BubbleId} {draft result : α}
    (h : c.build F ids draft = .ok result) :
    result = ids.foldl (fun draft id => (c.buildAt F draft id).1) draft := by
  induction ids generalizing draft with
  | nil => rw [build] at h; cases h; rfl
  | cons id ids ih =>
    rw [build_cons] at h
    split at h
    · rename_i draft' hat
      rw [List.foldl_cons, hat]
      exact ih h
    · cases h

end Claims

namespace Pattern

/-! ## The claimed bubbles -/

/-- The claimed bubbles hang together below the place of the attempt. -/
lemma claim?_group (hF : F.WellFormed) (h : p.claim? F id = some c) : F.Group id c.bubbles := by
  rw [← (inStep_of_claim? h).map_fst_entries]
  exact (coherent_of_greedy hF (greedy_of_claim? hF h)).group

lemma inOrder_eq (hF : F.WellFormed) (h : p.claim? F id = some c) :
    c.inOrder F id = F.preOrder.filter c.contains := by
  have hgroup := claim?_group hF h
  rw [Claims.inOrder, Claims.region, (inStep_of_claim? h).contains_eq]
  exact hgroup.filter_below hF

lemma kept_eq (hF : F.WellFormed) (h : p.claim? F id = some c) :
    c.kept F id = F.hanging c.bubbles := by
  have hgroup := claim?_group hF h
  rw [Claims.kept, Claims.region, (inStep_of_claim? h).contains_eq]
  exact hgroup.filter_below_not hF

lemma mem_inOrder (hF : F.WellFormed) (h : p.claim? F id = some c) :
    x ∈ c.inOrder F id ↔ x ∈ c.bubbles := by
  rw [inOrder_eq hF h, List.mem_filter, hF.mem_preOrder, (inStep_of_claim? h).contains_iff]
  exact ⟨And.right, fun hx => ⟨(claim?_group hF h).live x hx, hx⟩⟩

/-- The forest without the claimed bubbles, except the one at the top. -/
def cleared (F : Forest) (root : BubbleId) (c : Claims α) : Forest :=
  ((c.inOrder F root).filter (· ≠ root)).foldl Forest.prune F

lemma get?_cleared (hF : F.WellFormed) (h : p.claim? F root = some c) :
    (cleared F root c).get? x = if x ∈ c.bubbles ∧ x ≠ root then none else F.get? x := by
  simp only [cleared, Forest.get?_foldl_prune, List.mem_filter, mem_inOrder hF h,
    decide_eq_true_eq]

lemma contains_root_cleared (hF : F.WellFormed) (h : p.claim? F root = some c) :
    (cleared F root c).contains root = true := by
  have hget := get?_cleared (x := root) hF h
  rw [if_neg fun hand => hand.2 rfl] at hget
  rw [Forest.contains_congr hget]
  exact (claim?_group hF h).contains_root

lemma get?_commit (hF : F.WellFormed) (h : p.claim? F root = some c) :
    (commit F root c b).get? x =
      if x = root then some b else if x ∈ c.bubbles then none else F.get? x := by
  rw [commit, ← cleared, Forest.get?_replace, get?_cleared hF h]
  by_cases hx : x = root
  · have hlt := Forest.lt_size_of_contains (contains_root_cleared hF h)
    rw [if_pos ⟨hx.symm, hlt⟩, if_pos hx]
  · rw [if_neg fun hand => hx hand.1.symm, if_neg hx]
    simp [hx]

/-! ## The three ways in which a merge can end -/

/-- What an attempt at a bubble notes as lost. -/
def lostEvents (p : Pattern α) (F : Forest) (id : BubbleId) : List Event :=
  (p.attempt F id).2.lost.map fun l => .lost l.1 l.2

lemma reports_lostEvents : Event.reports (p.lostEvents F id) = [] := by
  simp [Event.reports, lostEvents, Event.report?]

lemma reported_lostEvents : (p.lostEvents F id).any (fun e => e.report?.isSome) = false := by
  simp [lostEvents, Event.report?]

variable [Target α]

/-- A merge, told from what is claimed and what is built from it. -/
lemma merge_eq (p : Pattern α) (F : Forest) (id : BubbleId) : p.merge F id =
    match p.claim? F id with
    | none => ⟨F, false, p.lostEvents F id⟩
    | some c => match replacement F id c with
      | .ok b => ⟨commit F id c b, true, p.lostEvents F id ++ [.merged p.name c.size id]⟩
      | .error failure => ⟨F, false, p.lostEvents F id ++
          [.reported (p.failureReport F failure.1 failure.2)]⟩ := by
  unfold merge claim? lostEvents
  generalize p.attempt F id = result
  obtain ⟨found, a⟩ := result
  cases found with
  | false => rfl
  | true =>
    simp only [if_true]
    cases replacement F id a.claims <;> rfl

/-- How a merge ends: nothing was found, or a builder failed on what was found, or it succeeded.
Only a failed builder is reported, and only a success changes the forest. -/
inductive MergeCase (p : Pattern α) (F : Forest) (id : BubbleId) : Prop
  | notFound (claim : p.claim? F id = none) (forest : (p.merge F id).forest = F)
      (merged : (p.merge F id).merged = false) (reported : (p.merge F id).reported = false)
  | failed (c : Claims α) (failure : BubbleId × BuildError) (claim : p.claim? F id = some c)
      (replacement : replacement F id c = .error failure) (forest : (p.merge F id).forest = F)
      (merged : (p.merge F id).merged = false) (reported : (p.merge F id).reported = true)
  | success (c : Claims α) (b : Bubble) (claim : p.claim? F id = some c)
      (replacement : replacement F id c = .ok b)
      (forest : (p.merge F id).forest = commit F id c b)
      (merged : (p.merge F id).merged = true) (reported : (p.merge F id).reported = false)

lemma mergeCase (p : Pattern α) (F : Forest) (id : BubbleId) : MergeCase p F id := by
  have hmerge := merge_eq p F id
  cases hclaim : p.claim? F id with
  | none =>
    rw [hclaim] at hmerge
    refine .notFound hclaim ?_ ?_ ?_
    · rw [hmerge]
    · rw [hmerge]
    · rw [hmerge, MergeStep.reported, reported_lostEvents]
  | some c =>
    cases hrep : replacement F id c with
    | error failure =>
      simp only [hclaim, hrep] at hmerge
      refine .failed c failure hclaim hrep ?_ ?_ ?_
      · rw [hmerge]
      · rw [hmerge]
      · rw [hmerge, MergeStep.reported, List.any_append, reported_lostEvents]; rfl
    | ok b =>
      simp only [hclaim, hrep] at hmerge
      refine .success c b hclaim hrep ?_ ?_ ?_
      · rw [hmerge]
      · rw [hmerge]
      · rw [hmerge, MergeStep.reported, List.any_append, reported_lostEvents]; rfl

/-! ## What is put in place -/

lemma replacement_eq_ok {root : BubbleId} (h : replacement F root c = .ok b) :
    ∃ draft, c.build F (c.inOrder F root) Target.blank = .ok draft ∧ b = {
      payload := Target.payload draft
      accounts := F.accountsOf root ++ (c.inOrder F root).flatMap F.accountsOf
      children := c.kept F root
      flow := (c.inOrder F root).foldl (fun flow id => flow.merge (F.flowOf id))
        (F.flowOf root) } := by
  rw [replacement] at h
  cases hbuild : c.build F (c.inOrder F root) Target.blank with
  | error e => rw [hbuild] at h; cases h
  | ok draft =>
    rw [hbuild] at h
    exact ⟨draft, rfl, (Except.ok.inj h).symm⟩

lemma mem_of_replacement_eq_error {root : BubbleId} {failure : BubbleId × BuildError}
    (h : replacement F root c = .error failure) : failure.1 ∈ c.inOrder F root := by
  rw [replacement] at h
  cases hbuild : c.build F (c.inOrder F root) Target.blank with
  | error e =>
    rw [hbuild] at h
    obtain rfl := Except.error.inj h
    exact Claims.mem_of_build_eq_error hbuild
  | ok draft => rw [hbuild] at h; cases h

/-- A successful merge contracts the forest along the claimed bubbles. -/
lemma commit_contracts (hF : F.WellFormed) (h : p.claim? F root = some c)
    (hrep : replacement F root c = .ok b) :
    F.Contracts (commit F root c b) root c.bubbles := by
  have hgroup := claim?_group hF h
  have hroot : (commit F root c b).get? root = some b := by
    rw [get?_commit hF h, if_pos rfl]
  refine ⟨hgroup, ?_, ?_, ?_, ?_, Forest.contains_of_get? hroot, ?_⟩
  · rw [commit, Forest.replace, Array.size_setIfInBounds]
    exact Forest.slots_foldl_prune _ F
  · exact Forest.roots_foldl_prune _ F
  · intro x hx
    have hne : x ≠ root := fun e => hx (e ▸ hgroup.root_mem)
    rw [get?_commit hF h, if_neg hne, if_neg hx]
  · intro x hx hne
    rw [get?_commit hF h, if_neg hne, if_pos hx]
  · obtain ⟨draft, -, rfl⟩ := replacement_eq_ok hrep
    rw [Forest.children_eq hroot]
    exact kept_eq hF h

theorem merge_wellFormed (hF : F.WellFormed) (p : Pattern α) (id : BubbleId) :
    (p.merge F id).forest.WellFormed := by
  cases mergeCase p F id with
  | notFound _ hforest => rwa [hforest]
  | failed _ _ _ _ hforest => rwa [hforest]
  | success c b hclaim hrep hforest =>
    rw [hforest]
    exact (commit_contracts hF hclaim hrep).wellFormed hF

lemma merge_forest_of_not_merged (h : (p.merge F id).merged = false) :
    (p.merge F id).forest = F := by
  cases mergeCase p F id with
  | notFound _ hforest => exact hforest
  | failed _ _ _ _ hforest => exact hforest
  | success _ _ _ _ _ hmerged => rw [hmerged] at h; cases h

/-- There are claims and a bubble to commit, where something is merged. -/
lemma exists_commit_of_merged (h : (p.merge F id).merged = true) :
    ∃ c b, p.claim? F id = some c ∧ replacement F id c = .ok b ∧
      (p.merge F id).forest = commit F id c b := by
  cases mergeCase p F id with
  | notFound _ _ hmerged => rw [hmerged] at h; cases h
  | failed _ _ _ _ _ hmerged => rw [hmerged] at h; cases h
  | success c b hclaim hrep hforest => exact ⟨c, b, hclaim, hrep, hforest⟩

/-! ## The effect in full -/

/-- What a merge at `root` that claimed `c` did to a forest.  The claimed bubbles are taken in the
pre-order of the forest. -/
structure MergeEffect (F F' : Forest) (root : BubbleId) (c : Claims α) : Prop where
  /-- Nothing is claimed twice. -/
  claimed_once : c.bubbles.Nodup
  /-- The claimed bubbles other than `root` are gone, and no others. -/
  gone_iff : ∀ x, F.contains x = true ∧ F'.contains x = false ↔ x ∈ c.bubbles ∧ x ≠ root
  /-- No name comes to life. -/
  live : ∀ x, F'.contains x = true → F.contains x = true
  size_add : F'.size + c.size = F.size + 1
  /-- The other bubbles are gone before `root` is overwritten, and it is still there then. -/
  root_live : (cleared F root c).contains root = true
  roots : F'.roots = F.roots
  slots : F'.slots.size = F.slots.size
  frame : ∀ x, x ∉ c.bubbles → F'.get? x = F.get? x
  /-- The place of `root` among its siblings stays the same. -/
  siblings : ∀ p, root ∈ F.children p → F'.children p = F.children p
  /-- The children are those that hung on claimed bubbles, in the old order. -/
  children : F'.children root = F.hanging c.bubbles
  mem_children : ∀ x, x ∈ F'.children root ↔ x ∉ c.bubbles ∧ ∃ y ∈ c.bubbles, x ∈ F.children y
  children_nodup : (F'.children root).Nodup
  children_live : ∀ x ∈ F'.children root, F'.contains x = true
  /-- The accounts of `root` come twice. -/
  accounts : F'.accountsOf root =
    F.accountsOf root ++ (F.preOrder.filter c.contains).flatMap F.accountsOf
  /-- The flow of `root` is counted twice. -/
  flow : F'.flowOf root = (F.preOrder.filter c.contains).foldl
    (fun flow id => flow.merge (F.flowOf id)) (F.flowOf root)
  /-- Every builder takes the draft that the one before it has left, and none fails. -/
  built : c.build F (F.preOrder.filter c.contains) Target.blank = .ok
    ((F.preOrder.filter c.contains).foldl (fun draft id => (c.buildAt F draft id).1) Target.blank)
  payload : (F'.get? root).map Bubble.payload = some (Target.payload
    ((F.preOrder.filter c.contains).foldl (fun draft id => (c.buildAt F draft id).1) Target.blank))

lemma commit_effect (hF : F.WellFormed) (h : p.claim? F root = some c)
    (hrep : replacement F root c = .ok b) : MergeEffect F (commit F root c b) root c := by
  have hcon := commit_contracts hF h hrep
  have hgroup := hcon.group
  have hroot : (commit F root c b).get? root = some b := by
    rw [get?_commit hF h, if_pos rfl]
  obtain ⟨draft, hbuild, hb⟩ := replacement_eq_ok hrep
  rw [inOrder_eq hF h] at hbuild hb
  have hdraft := Claims.eq_foldl_of_build hbuild
  have hwf := hcon.wellFormed hF
  refine ⟨hgroup.nodup, ?_, ?_, ?_, contains_root_cleared hF h, hcon.roots, hcon.slots,
    hcon.outside, ?_, hcon.root_children, ?_, hwf.children_nodup root, ?_, ?_, ?_, ?_, ?_⟩
  · intro x
    rw [← Bool.not_eq_true, hcon.contains_iff]
    constructor
    · rintro ⟨hlive, hnot⟩
      by_contra hx
      exact hnot ⟨hlive, fun hmem => by_contra fun hne => hx ⟨hmem, hne⟩⟩
    · rintro ⟨hmem, hne⟩
      exact ⟨hgroup.live x hmem, fun hand => hne (hand.2 hmem)⟩
  · exact fun x hx => (hcon.contains_iff.1 hx).1
  · exact hcon.size_add
  · intro q hq
    exact Forest.children_congr (hcon.outside q (hgroup.not_mem_of_root_child hF hq))
  · intro x
    rw [hcon.root_children, Forest.mem_hanging hF]
  · exact fun x hx => hwf.children_live root x hx
  · rw [Forest.accountsOf, hroot, hb]; rfl
  · rw [Forest.flowOf, hroot, hb]; rfl
  · rw [hbuild, hdraft]
  · rw [hroot, hb, hdraft]; rfl

/-- A successful merge in a well-formed forest has its effect on the bubbles that the pattern
claims, and on no others. -/
theorem merge_effect (hF : F.WellFormed) (p : Pattern α) (id : BubbleId)
    (hmerged : (p.merge F id).merged = true) :
    ∃ c, p.claim? F id = some c ∧ MergeEffect F (p.merge F id).forest id c := by
  obtain ⟨c, b, hclaim, hrep, hforest⟩ := exists_commit_of_merged hmerged
  rw [hforest]
  exact ⟨c, hclaim, commit_effect hF hclaim hrep⟩

end Pattern

/-- Three bubbles, each the only child of the one before it. -/
def Forest.threeInLine : Forest where
  slots := #[some { (default : Bubble) with children := [1] },
    some { (default : Bubble) with children := [2] }, some default]
  roots := [0]

/-- Any bubble with a child, of which only the child's success is recorded. -/
def Pattern.parentAndChild : Pattern JettonMint :=
  ⟨"parent and child", [], none,
    [.building "child" [] (fun mint tx => ({ mint with success := tx.success }, none)) [] false],
    false⟩

open Forest Pattern in
/-- The two upper bubbles of three become one, and the third becomes its child. -/
theorem Pattern.merge_effect_threeInLine : threeInLine.WellFormed ∧
    (parentAndChild.merge threeInLine 0).merged = true ∧
    (parentAndChild.merge threeInLine 0).forest.children 0 = [2] ∧
    ∃ c, parentAndChild.claim? threeInLine 0 = some c ∧
      MergeEffect threeInLine (parentAndChild.merge threeInLine 0).forest 0 c :=
  ⟨by decide, by decide, by decide,
    merge_effect (by decide) parentAndChild 0 (by decide)⟩

end TraceFold
