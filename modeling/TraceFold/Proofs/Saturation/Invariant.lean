import TraceFold.Proofs.Merging.Effect
import TraceFold.Saturation

/-!
# What every run keeps

A run changes its forest only by merging: besides its visits nothing happens in it (`Run.Silent`).
So whatever one visit keeps is kept by whole sweeps and passes (`pass_induction`).  `Run.Reached`
collects the states that a run can be in.  `Run.moment` names every single state on the way, and
`steps_induction` goes from each of them to the next.

The first thing that is kept is well-formedness.  Together with `Forest.Built`, the forests that
can be made at all, this gives `wellFormed_throughout`: no walk through any forest that ever
occurs can miss a bubble, meet one twice or fail to end.
-/

namespace TraceFold

variable {F F' : Forest} {rules : Rules} {rule : AnyRule} {r r' : Run} {s : Saturation}
  {index : Nat} {id : BubbleId}

/-! ## Forests that can be made -/

/-- The forests that can be made from nothing by adding childless bubbles and merging patterns of
any kind at any names, in any order. -/
inductive Forest.Built : Forest → Prop
  | empty : Built .empty
  | addRoot {F : Forest} {b : Bubble} (hb : b.children = []) (h : Built F) : Built (F.addRoot b)
  | addChild {F F' : Forest} {b : Bubble} {p : BubbleId} (hb : b.children = [])
      (hadd : F.addChild? p b = some F') (h : Built F) : Built F'
  | merge {F : Forest} {α : Type} [Target α] (p : Pattern α) (id : BubbleId) (h : Built F) :
      Built (p.merge F id).forest

lemma Forest.Built.wellFormed (h : F.Built) : F.WellFormed := by
  induction h with
  | empty => exact wellFormed_empty
  | addRoot hb _ ih => exact wellFormed_addRoot ih hb
  | addChild hb hadd _ ih => exact wellFormed_addChild ih hb hadd
  | merge p id _ ih => exact Pattern.merge_wellFormed ih p id

/-- A merge contracts the forest, or leaves it as it is. -/
lemma Pattern.merge_contracts {α : Type} [Target α] (hF : F.WellFormed) (p : Pattern α)
    (id : BubbleId) :
    (p.merge F id).forest = F ∨ ∃ K, F.Contracts (p.merge F id).forest id K := by
  cases mergeCase p F id with
  | notFound _ hforest => exact .inl hforest
  | failed _ _ _ _ hforest => exact .inl hforest
  | success c b hclaim hrep hforest =>
    rw [hforest]
    exact .inr ⟨c.bubbles, commit_contracts hF hclaim hrep⟩

lemma AnyRule.merge_contracts (hF : F.WellFormed) (rule : AnyRule) (id : BubbleId) :
    (rule.merge F id).forest = F ∨ ∃ K, F.Contracts (rule.merge F id).forest id K :=
  rule.pattern.merge_contracts hF id

lemma AnyRule.merge_forest_of_not_merged (h : (rule.merge F id).merged = false) :
    (rule.merge F id).forest = F :=
  Pattern.merge_forest_of_not_merged h

/-! ## One visit -/

namespace Run

/-- What a visit does: it skips the bubble, or the rule merges there, or it does not.  A failed
builder is remembered. -/
inductive VisitCase (r : Run) (index : Nat) (rule : AnyRule) (id : BubbleId) : Prop
  | skipped (why : r.forest.contains id = false ∨ (index, id) ∈ r.failed)
      (same : r.visit index rule id = r)
  | merged (live : r.forest.contains id = true) (fresh : (index, id) ∉ r.failed)
      (merged : (rule.merge r.forest id).merged = true)
      (forest : (r.visit index rule id).forest = (rule.merge r.forest id).forest)
      (failed : (r.visit index rule id).failed = r.failed)
      (count : (r.visit index rule id).counts.merged = r.counts.merged + 1)
  | refused (live : r.forest.contains id = true) (fresh : (index, id) ∉ r.failed)
      (merged : (rule.merge r.forest id).merged = false)
      (forest : (r.visit index rule id).forest = r.forest)
      (failed : (r.visit index rule id).failed =
        if (rule.merge r.forest id).reported then (index, id) :: r.failed else r.failed)
      (count : (r.visit index rule id).counts.merged = r.counts.merged)

lemma visitCase (r : Run) (index : Nat) (rule : AnyRule) (id : BubbleId) :
    VisitCase r index rule id := by
  by_cases hlive : r.forest.contains id = true
  · by_cases hfailed : (index, id) ∈ r.failed
    · refine .skipped (.inr hfailed) ?_
      simp [visit, hfailed]
    · cases hmerged : (rule.merge r.forest id).merged with
      | true =>
        refine .merged hlive hfailed hmerged ?_ ?_ ?_
        all_goals simp [visit, hlive, hfailed, hmerged]
      | false =>
        refine .refused hlive hfailed hmerged ?_ ?_ ?_
        · simp [visit, hlive, hfailed, AnyRule.merge_forest_of_not_merged hmerged]
        · simp [visit, hlive, hfailed, hmerged]
        · simp [visit, hlive, hfailed, hmerged]
  · refine .skipped (.inl (Bool.eq_false_iff.2 hlive)) ?_
    simp [visit, hlive]

lemma visit_contracts (hF : r.forest.WellFormed) (index : Nat) (rule : AnyRule) (id : BubbleId) :
    (r.visit index rule id).forest = r.forest ∨
      ∃ K, r.forest.Contracts (r.visit index rule id).forest id K := by
  cases visitCase r index rule id with
  | skipped _ hsame => exact .inl (by rw [hsame])
  | merged _ _ _ hforest => rw [hforest]; exact rule.merge_contracts hF id
  | refused _ _ _ hforest => exact .inl hforest

lemma visit_wellFormed (hF : r.forest.WellFormed) (index : Nat) (rule : AnyRule) (id : BubbleId) :
    (r.visit index rule id).forest.WellFormed := by
  rcases visit_contracts hF index rule id with hsame | ⟨K, hcon⟩
  · rwa [hsame]
  · exact hcon.wellFormed hF

lemma visit_slots (hF : r.forest.WellFormed) (index : Nat) (rule : AnyRule) (id : BubbleId) :
    (r.visit index rule id).forest.slots.size = r.forest.slots.size := by
  rcases visit_contracts hF index rule id with hsame | ⟨K, hcon⟩
  · rw [hsame]
  · exact hcon.slots

/-! ## What is noted besides -/

/-- Nothing happened from `r` to `r'`: at most attempts were counted and events noted that are no
reports. -/
structure Silent (r r' : Run) : Prop where
  forest : r'.forest = r.forest
  failed : r'.failed = r.failed
  merged : r'.counts.merged = r.counts.merged
  events : ∃ later, r'.events = r.events ++ later ∧ Event.reports later = []

lemma Silent.refl (r : Run) : Silent r r :=
  ⟨rfl, rfl, rfl, [], (List.append_nil _).symm, rfl⟩

lemma Silent.trans {r₁ r₂ : Run} (h₁ : Silent r r₁) (h₂ : Silent r₁ r₂) : Silent r r₂ := by
  obtain ⟨es₁, hes₁, hno₁⟩ := h₁.events
  obtain ⟨es₂, hes₂, hno₂⟩ := h₂.events
  refine ⟨h₂.forest.trans h₁.forest, h₂.failed.trans h₁.failed, h₂.merged.trans h₁.merged,
    es₁ ++ es₂, ?_, ?_⟩
  · rw [hes₂, hes₁, List.append_assoc]
  · rw [Event.reports_append, hno₁, hno₂]; rfl

lemma Silent.reports (h : Silent r r') : Event.reports r'.events = Event.reports r.events := by
  obtain ⟨later, hevents, hno⟩ := h.events
  rw [hevents, Event.reports_append, hno, List.append_nil]

/-- The runs have done the same so far: they differ in nothing but counters and events that are no
reports. -/
structure Alike (r r' : Run) : Prop where
  forest : r'.forest = r.forest
  failed : r'.failed = r.failed
  reports : Event.reports r'.events = Event.reports r.events

lemma Silent.alike (h : Silent r r') : Alike r r' := ⟨h.forest, h.failed, h.reports⟩

/-- After its last visit a sweep does nothing more. -/
lemma sweep_silent (r : Run) (index : Nat) (rule : AnyRule) :
    Silent (r.forest.postOrder.foldl (visit index rule) r) (r.sweep index rule) := by
  unfold sweep
  dsimp only
  split
  · exact ⟨rfl, rfl, rfl, [.foundNothing rule.name], rfl, rfl⟩
  · exact ⟨rfl, rfl, rfl, [], (List.append_nil _).symm, rfl⟩

/-! ## Sweeps and passes

What a visit keeps is kept by whole sweeps and passes.  -/

section Passes

variable {motive : Run → Prop}
  (hvisit : ∀ r index rule id, rules[index]? = some rule → motive r →
    motive (r.visit index rule id))

include hvisit

lemma visits_induction (hrule : rules[index]? = some rule) (ids : List BubbleId) (h : motive r) :
    motive (ids.foldl (visit index rule) r) :=
  List.foldlRecOn ids _ h fun r hr id _ => hvisit r index rule id hrule hr

variable (hsilent : ∀ r r', Silent r r' → motive r → motive r')

include hsilent

lemma sweeps_induction (entries : List (AnyRule × Nat))
    (hentries : ∀ e ∈ entries, rules[e.2]? = some e.1) (h : motive r) :
    motive (entries.foldl (fun r e => r.sweep e.2 e.1) r) := by
  refine List.foldlRecOn entries _ h fun r hr e he => ?_
  have hvisits := visits_induction hvisit (hentries e he) r.forest.postOrder hr
  exact hsilent _ _ (sweep_silent r e.2 e.1) hvisits

omit hvisit hsilent in
/-- The entries of a catalog stand at their places. -/
lemma getElem?_of_mem_zipIdx {e : AnyRule × Nat} (he : e ∈ rules.zipIdx) :
    rules[e.2]? = some e.1 :=
  List.mem_zipIdx_iff_getElem?.1 he

/-- A pass begins with new counters. -/
theorem pass_induction (h : motive { r with counts := ⟨0, 0, 0⟩ }) : motive (r.pass rules) :=
  sweeps_induction hvisit hsilent rules.zipIdx (fun _ he => getElem?_of_mem_zipIdx he) h

end Passes

end Run

namespace Saturation

lemma step_silent (rules : Rules) (s : Saturation) :
    Run.Silent (s.run.pass rules) (s.step rules).run :=
  ⟨rfl, rfl, rfl, [_], rfl, rfl⟩

lemma close_silent (n : Nat) (s : Saturation) : Run.Silent s.run (s.close n).run := by
  unfold close
  split
  · exact .refl s.run
  · exact ⟨rfl, rfl, rfl, [.stopped n], rfl, rfl⟩

end Saturation

/-! ## The states of a run -/

namespace Run

/-- The states that a run of some rules over `F` can be in.  What is counted and noted on the way
does not matter. -/
inductive Reached (rules : Rules) (F : Forest) : Run → Prop
  | start : Reached rules F (.start F)
  | visit {r : Run} {index : Nat} {rule : AnyRule} (hrule : rules[index]? = some rule)
      (h : Reached rules F r) (id : BubbleId) : Reached rules F (r.visit index rule id)
  | record {r r' : Run} (hforest : r'.forest = r.forest) (hfailed : r'.failed = r.failed)
      (h : Reached rules F r) : Reached rules F r'

namespace Reached

lemma visits (hrule : rules[index]? = some rule) (h : Reached rules F r) (ids : List BubbleId) :
    Reached rules F (ids.foldl (Run.visit index rule) r) :=
  visits_induction (fun _ _ _ id hrule h => h.visit hrule id) hrule ids h

lemma silent (hsilent : Silent r r') (h : Reached rules F r) : Reached rules F r' :=
  .record hsilent.forest hsilent.failed h

lemma sweeps (h : Reached rules F r) (entries : List (AnyRule × Nat))
    (hentries : ∀ e ∈ entries, rules[e.2]? = some e.1) :
    Reached rules F (entries.foldl (fun r e => r.sweep e.2 e.1) r) :=
  sweeps_induction (fun _ _ _ id hrule h => h.visit hrule id) (fun _ _ => silent) entries
    hentries h

lemma pass (h : Reached rules F r) : Reached rules F (r.pass rules) :=
  sweeps (.record (by rfl) (by rfl) h) rules.zipIdx fun _ he => getElem?_of_mem_zipIdx he

lemma step (h : Reached rules F s.run) : Reached rules F (s.step rules).run :=
  h.pass.silent (Saturation.step_silent rules s)

lemma steps (h : Reached rules F s.run) (n : Nat) : Reached rules F (s.steps rules n).run := by
  induction n generalizing s with
  | zero => exact h
  | succ n ih =>
    rw [Saturation.steps]
    split
    · exact h.step
    · exact ih h.step

lemma close (h : Reached rules F s.run) (n : Nat) : Reached rules F (s.close n).run :=
  h.silent (Saturation.close_silent n s)

end Reached

lemma reached_ofForest (rules : Rules) (maxPasses : Nat) (F : Forest) :
    Reached rules F (Saturation.ofForest rules maxPasses F).run :=
  (Reached.start.steps maxPasses).close maxPasses

/-- A run after some passes, in another pass of which some sweeps are done. -/
def betweenSweeps (rules : Rules) (F : Forest) (passes sweeps : Nat) : Run :=
  (rules.zipIdx.take sweeps).foldl (fun r entry => r.sweep entry.2 entry.1)
    { ((Saturation.start F).steps rules passes).run with counts := ⟨0, 0, 0⟩ }

/-- A run after some passes and sweeps, when the next rule has been at some bubbles. -/
def moment (rules : Rules) (F : Forest) (passes sweeps visits : Nat) : Run :=
  match rules[sweeps]? with
  | some rule =>
    ((betweenSweeps rules F passes sweeps).forest.postOrder.take visits).foldl
      (visit sweeps rule) (betweenSweeps rules F passes sweeps)
  | none => betweenSweeps rules F passes sweeps

/-- The next rule of the catalog has its sweep, if there is one. -/
lemma betweenSweeps_succ (rules : Rules) (F : Forest) (passes sweeps : Nat) :
    betweenSweeps rules F passes (sweeps + 1) = match rules[sweeps]? with
      | some rule => (betweenSweeps rules F passes sweeps).sweep sweeps rule
      | none => betweenSweeps rules F passes sweeps := by
  rw [betweenSweeps, List.take_add_one, List.foldl_append, ← betweenSweeps, List.getElem?_zipIdx,
    Nat.zero_add]
  cases rules[sweeps]? <;> rfl

lemma reached_betweenSweeps (rules : Rules) (F : Forest) (passes sweeps : Nat) :
    Reached rules F (betweenSweeps rules F passes sweeps) := by
  have hpasses : Reached rules F ((Saturation.start F).steps rules passes).run :=
    Reached.start.steps passes
  refine Reached.sweeps (.record (by rfl) (by rfl) hpasses) (rules.zipIdx.take sweeps) ?_
  exact fun e he => getElem?_of_mem_zipIdx (List.mem_of_mem_take he)

lemma reached_moment (rules : Rules) (F : Forest) (passes sweeps visits : Nat) :
    Reached rules F (moment rules F passes sweeps visits) := by
  have hsweeps := reached_betweenSweeps rules F passes sweeps
  rw [moment]
  split
  · rename_i rule hrule
    exact hsweeps.visits hrule _
  · exact hsweeps

end Run

/-- One more pass may be taken at the end as well as at the beginning. -/
lemma Saturation.steps_succ (rules : Rules) (n : Nat) (s : Saturation) (hs : s.fixpoint = false) :
    s.steps rules (n + 1) = if (s.steps rules n).fixpoint then s.steps rules n
      else (s.steps rules n).step rules := by
  induction n generalizing s with
  | zero =>
    rw [steps, steps, hs]
    simp only [steps, ite_self]
    rfl
  | succ n ih =>
    have hsteps : ∀ n, s.steps rules (n + 1) =
        if (s.step rules).fixpoint then s.step rules else (s.step rules).steps rules n :=
      fun _ => rfl
    rw [hsteps (n + 1), hsteps n]
    split
    · rfl
    · rename_i hfix
      exact ih _ (Bool.eq_false_iff.2 hfix)

namespace Run

/-! ### Induction along a run -/

/-- The run with at most `n` passes makes this visit: a pass is made because no earlier one ended
at a fixpoint, the rule is at its place in the catalog, and the bubble has its turn. -/
structure Makes (rules : Rules) (F : Forest) (n passes sweeps visits : Nat) (rule : AnyRule)
    (id : BubbleId) : Prop where
  pass : passes < n
  unfinished : ((Saturation.start F).steps rules passes).fixpoint = false
  rule : rules[sweeps]? = some rule
  turn : (betweenSweeps rules F passes sweeps).forest.postOrder[visits]? = some id

section Moments

variable {motive : Run → Prop} {n passes : Nat}
  (hrecord : ∀ r r' : Run, Alike r r' → motive r → motive r')
  (hvisit : ∀ passes sweeps visits rule id, Makes rules F n passes sweeps visits rule id →
    motive (moment rules F passes sweeps visits) →
      motive ((moment rules F passes sweeps visits).visit sweeps rule id))
  (hpass : passes < n) (hgoing : ((Saturation.start F).steps rules passes).fixpoint = false)

include hvisit hpass hgoing

lemma moment_of_betweenSweeps {sweeps : Nat} (h : motive (betweenSweeps rules F passes sweeps))
    (visits : Nat) : motive (moment rules F passes sweeps visits) := by
  cases hrule : rules[sweeps]? with
  | none => rw [moment, hrule]; exact h
  | some rule =>
    have hmoment : ∀ visits, moment rules F passes sweeps visits =
        ((betweenSweeps rules F passes sweeps).forest.postOrder.take visits).foldl
          (visit sweeps rule) (betweenSweeps rules F passes sweeps) := by
      intro visits; rw [moment, hrule]
    induction visits with
    | zero => rw [hmoment]; exact h
    | succ visits ih =>
      rw [hmoment, List.take_add_one, List.foldl_append, ← hmoment]
      cases hturn : (betweenSweeps rules F passes sweeps).forest.postOrder[visits]? with
      | none => exact ih
      | some next =>
        exact hvisit passes sweeps visits rule next ⟨hpass, hgoing, hrule, hturn⟩ ih

include hrecord

lemma betweenSweeps_of_steps (h : motive ((Saturation.start F).steps rules passes).run)
    (sweeps : Nat) : motive (betweenSweeps rules F passes sweeps) := by
  induction sweeps with
  | zero => exact hrecord ((Saturation.start F).steps rules passes).run _ ⟨rfl, rfl, rfl⟩ h
  | succ sweeps ih =>
    rw [betweenSweeps_succ]
    cases hrule : rules[sweeps]? with
    | none => exact ih
    | some rule =>
      have hend := moment_of_betweenSweeps hvisit hpass hgoing ih
        (betweenSweeps rules F passes sweeps).forest.postOrder.length
      rw [moment, hrule, List.take_length] at hend
      have hsilent := sweep_silent (betweenSweeps rules F passes sweeps) sweeps rule
      exact hrecord _ _ hsilent.alike hend

omit hpass hgoing

/-- What holds at the start and is kept by every visit of a run holds at its end. -/
theorem steps_induction (hstart : motive (.start F)) :
    motive ((Saturation.start F).steps rules n).run := by
  have key : ∀ m ≤ n, motive ((Saturation.start F).steps rules m).run := by
    intro m
    induction m with
    | zero => exact fun _ => hstart
    | succ m ih =>
      intro hm
      have hbefore := ih (Nat.le_of_succ_le hm)
      rw [Saturation.steps_succ rules m (.start F) rfl]
      split
      · exact hbefore
      · rename_i hgoing
        have hend := betweenSweeps_of_steps hrecord hvisit hm (Bool.eq_false_iff.2 hgoing)
          hbefore rules.zipIdx.length
        rw [betweenSweeps, List.take_length] at hend
        have hsilent := Saturation.step_silent rules ((Saturation.start F).steps rules m)
        exact hrecord _ _ hsilent.alike hend
  exact key n (Nat.le_refl n)

end Moments

theorem Reached.wellFormed (hF : F.WellFormed) (h : Reached rules F r) :
    r.forest.WellFormed := by
  induction h with
  | start => exact hF
  | visit _ _ id ih => exact visit_wellFormed ih _ _ id
  | record hforest _ _ ih => rw [hforest]; exact ih

end Run

/-! ## Walks that miss nothing -/

/-- Both walks, seen as loops over a pile, end in one way only; each of them lists every live
bubble once, and a bubble before or after everything below it. -/
structure Forest.OrderedWalks (F : Forest) : Prop where
  pre_ends : F.Visits F.roots F.preOrder
  pre_unique : ∀ out, F.Visits F.roots out → out = F.preOrder
  post_ends : F.VisitsLast (F.roots.map fun r => (r, false)) F.postOrder
  post_unique : ∀ out, F.VisitsLast (F.roots.map fun r => (r, false)) out → out = F.postOrder
  pre_nodup : F.preOrder.Nodup
  post_nodup : F.postOrder.Nodup
  mem_pre : ∀ x, x ∈ F.preOrder ↔ F.contains x = true
  mem_post : ∀ x, x ∈ F.postOrder ↔ F.contains x = true
  pre_length : F.preOrder.length = F.size
  post_length : F.postOrder.length = F.size
  parents_first : ∀ p x, F.contains p = true → F.Below p x → p ≠ x → [p, x].Sublist F.preOrder
  parents_last : ∀ p x, F.contains p = true → F.Below p x → p ≠ x → [x, p].Sublist F.postOrder

lemma Forest.WellFormed.orderedWalks (hF : F.WellFormed) : F.OrderedWalks where
  pre_ends := hF.visits_preOrder
  pre_unique := fun _ h => h.unique hF.visits_preOrder
  post_ends := hF.visitsLast_postOrder
  post_unique := fun _ h => h.unique hF.visitsLast_postOrder
  pre_nodup := hF.preOrder_nodup
  post_nodup := hF.postOrder_nodup
  mem_pre := fun _ => hF.mem_preOrder
  mem_post := fun _ => hF.mem_postOrder
  pre_length := hF.length_preOrder
  post_length := hF.length_postOrder
  parents_first := fun _ _ hp h hne => hF.pair_sublist_preOrder hp h hne
  parents_last := fun _ _ hp h hne => hF.pair_sublist_postOrder hp h hne

/-- Every forest that can be made is well-formed, so is every forest that a run goes through or
ends with, and the walks through a well-formed forest miss nothing. -/
theorem wellFormed_throughout :
    (∀ F : Forest, F.Built → F.WellFormed) ∧
    (∀ (rules : Rules) (F : Forest), F.WellFormed →
      (∀ passes sweeps visits, (Run.moment rules F passes sweeps visits).forest.WellFormed) ∧
      ∀ maxPasses, (Saturation.ofForest rules maxPasses F).forest.WellFormed) ∧
    ∀ F : Forest, F.WellFormed → F.OrderedWalks := by
  refine ⟨fun F h => h.wellFormed, fun rules F hF => ⟨?_, ?_⟩, fun F hF => hF.orderedWalks⟩
  · intro passes sweeps visits
    exact (Run.reached_moment rules F passes sweeps visits).wellFormed hF
  · exact fun maxPasses => (Run.reached_ofForest rules maxPasses F).wellFormed hF

open Forest Pattern in
/-- A forest that is made bubble by bubble, and a run over it that merges. -/
theorem wellFormed_throughout_threeInLine : threeInLine.Built ∧ threeInLine.WellFormed ∧
    (Saturation.ofForest [Rule.mint parentAndChild] 2 threeInLine).merged = 1 ∧
    (Saturation.ofForest [Rule.mint parentAndChild] 2 threeInLine).forest.WellFormed ∧
    (Saturation.ofForest [Rule.mint parentAndChild] 2 threeInLine).forest.OrderedWalks := by
  have hbuilt : threeInLine.Built :=
    .addChild (p := 1) (b := default) rfl rfl
      (.addChild (p := 0) (b := default) rfl rfl (.addRoot (b := default) rfl .empty))
  have hF := wellFormed_throughout.1 threeInLine hbuilt
  have hend := (wellFormed_throughout.2.1 [Rule.mint parentAndChild] threeInLine hF).2 2
  exact ⟨hbuilt, hF, by decide, hend, wellFormed_throughout.2.2 _ hend⟩

end TraceFold
