import TraceFold.Proofs.Merging.Opacity
import TraceFold.Proofs.Saturation.Invariant

/-!
# Runs without looking at what is carried along

Accounts and flows of bubbles grow with every merge, and transactions hold amounts, fees, times and
interfaces.  None of this has any influence on what is recognized: runs of blind rules over forests
that agree stay in step, attempt by attempt (`Run.visit_agree`).  The same attempts are made, the
same of them merge, and the same are remembered as failures.

For the standard catalog this gives `standard_runs_agree`.  What a run does not look at may as well
be left out from the beginning: every forest agrees with its bare form (`Forest.agree_bare`).
-/

namespace TraceFold

variable {F G : Forest} {rules : Rules} {rule : AnyRule} {r r' : Run} {s s' : Saturation}
  {index : Nat} {id : BubbleId}

namespace Run

/-- The runs are at the same point, except for what is only carried along. -/
structure Agree (r r' : Run) : Prop where
  forest : r.forest.Agree r'.forest
  wellFormed : r.forest.WellFormed
  failed : r.failed = r'.failed
  counts : r.counts = r'.counts
  reports : (Event.reports r.events).length = (Event.reports r'.events).length

/-- The same attempt is made in both runs, or in neither, and the same comes of it. -/
theorem visit_agree (h : r.Agree r') (hrule : rule.Blind) (index : Nat) (id : BubbleId) :
    (r.visit index rule id).Agree (r'.visit index rule id) := by
  have hstep := AnyRule.merge_agree h.forest h.wellFormed hrule id
  refine ⟨?_, visit_wellFormed h.wellFormed index rule id, ?_, ?_, ?_⟩
  all_goals
    unfold visit
    rw [h.forest.live, h.failed]
    split
  · exact hstep.forest
  · exact h.forest
  · simp only [hstep.merged, hstep.reported]
  · exact h.failed
  · simp only [hstep.merged, h.counts]
  · exact h.counts
  · simp [h.reports, hstep.reports]
  · exact h.reports

/-- Something is noted that is no report. -/
lemma Agree.note {e : Event} (h : r.Agree r') (he : e.report? = none) :
    (r.note e).Agree (r'.note e) := by
  refine ⟨h.forest, h.wellFormed, h.failed, h.counts, ?_⟩
  have hnone : Event.reports [e] = [] := by simp [Event.reports, he]
  simp only [Run.note, Event.reports_append, hnone, List.append_nil, h.reports]

lemma sweep_agree (h : r.Agree r') (hrule : rule.Blind) (index : Nat) :
    (r.sweep index rule).Agree (r'.sweep index rule) := by
  have horder := h.forest.postOrder h.wellFormed
  have hvisits : (r.forest.postOrder.foldl (visit index rule) r).Agree
      (r'.forest.postOrder.foldl (visit index rule) r') := by
    rw [horder]
    exact List.foldl_rel h fun id _ r r' h => visit_agree h hrule index id
  generalize hq : r.forest.postOrder.foldl (visit index rule) r = q at hvisits
  generalize hq' : r'.forest.postOrder.foldl (visit index rule) r' = q' at hvisits
  obtain ⟨hforest, hwf, hfailed, hcounts, hreports⟩ := hvisits
  unfold sweep
  simp only [hq, hq', hcounts, h.counts]
  split
  · exact Agree.note ⟨hforest, hwf, hfailed, rfl, hreports⟩ rfl
  · exact ⟨hforest, hwf, hfailed, rfl, hreports⟩

theorem pass_agree (hrules : ∀ rule ∈ rules, rule.Blind) (h : r.Agree r') :
    (r.pass rules).Agree (r'.pass rules) := by
  have hbegin : Agree { r with counts := ⟨0, 0, 0⟩ } { r' with counts := ⟨0, 0, 0⟩ } :=
    ⟨h.forest, h.wellFormed, h.failed, rfl, h.reports⟩
  refine List.foldl_rel hbegin fun e he r r' h => ?_
  have hentry := List.mem_of_getElem? (getElem?_of_mem_zipIdx he)
  exact sweep_agree h (hrules e.1 hentry) e.2

end Run

namespace Saturation

/-- The runs found the same, in the same number of passes with the same counters, and left the same
bubbles; what was only carried along may differ. -/
structure Agree (s s' : Saturation) : Prop where
  actions : s.actions = s'.actions
  passes : s.passes = s'.passes
  fixpoint : s.fixpoint = s'.fixpoint
  forest : s.forest.Agree s'.forest
  reports : s.reports.length = s'.reports.length

/-- The runs are at the same point after the same passes. -/
structure InStep (s s' : Saturation) : Prop where
  run : s.run.Agree s'.run
  passes : s.passes = s'.passes
  fixpoint : s.fixpoint = s'.fixpoint

lemma InStep.agree (h : s.InStep s') : s.Agree s' where
  actions := h.run.forest.actions h.run.wellFormed
  passes := h.passes
  fixpoint := h.fixpoint
  forest := h.run.forest
  reports := h.run.reports

lemma InStep.start (hF : F.WellFormed) (h : F.Agree G) :
    (start F).InStep (start G) :=
  ⟨⟨h, hF, rfl, rfl, rfl⟩, rfl, rfl⟩

lemma InStep.step (hrules : ∀ rule ∈ rules, rule.Blind) (h : s.InStep s') :
    (s.step rules).InStep (s'.step rules) := by
  have hpass := Run.pass_agree hrules h.run
  unfold Saturation.step
  dsimp only
  rw [hpass.counts, h.passes]
  exact ⟨hpass.note rfl, rfl, rfl⟩

lemma InStep.steps (hrules : ∀ rule ∈ rules, rule.Blind) (h : s.InStep s') (n : Nat) :
    (s.steps rules n).InStep (s'.steps rules n) := by
  induction n generalizing s s' with
  | zero => exact h
  | succ n ih =>
    have hstep := h.step hrules
    rw [Saturation.steps, Saturation.steps, hstep.fixpoint]
    split
    · exact hstep
    · exact ih hstep

lemma InStep.close (h : s.InStep s') (n : Nat) : (s.close n).InStep (s'.close n) := by
  unfold Saturation.close
  rw [h.fixpoint]
  split
  · exact h
  · exact ⟨h.run.note rfl, h.passes, rfl⟩

lemma agree_of_blind (hrules : ∀ rule ∈ rules, rule.Blind) (hF : F.WellFormed)
    (h : F.Agree G) (n : Nat) :
    (ofForest rules n F).Agree (ofForest rules n G) :=
  (((InStep.start hF h).steps hrules n).close n).agree

/-- Recognition does not depend on what the bubbles only carry along. -/
theorem standard_runs_agree (hF : F.WellFormed) (h : F.Agree G)
    (maxPasses : Nat) :
    (ofForest Catalog.standard maxPasses F).Agree (ofForest Catalog.standard maxPasses G) :=
  agree_of_blind Catalog.standard_blind hF h maxPasses

end Saturation

/-! ## The bare form of a forest -/

/-- The bubble with a bare payload and without accounts and flow. -/
def Bubble.bare (b : Bubble) : Bubble :=
  { Bubble.ofPayload b.payload.bare with children := b.children }

namespace Forest

/-- The forest in which nothing is carried along. -/
def bare (F : Forest) : Forest := { F with slots := F.slots.map (·.map Bubble.bare) }

lemma get?_bare (F : Forest) (id : BubbleId) : F.bare.get? id = (F.get? id).map Bubble.bare := by
  unfold get? bare
  rw [Array.getElem?_map]
  cases F.slots[id]? <;> rfl

lemma agree_bare (F : Forest) : F.Agree F.bare := by
  refine .of_get? rfl fun id => ?_
  rw [get?_bare]
  cases F.get? id with
  | none => exact .none
  | some b => exact .some ⟨rfl, b.payload.agree_bare⟩

/-- A transfer with something in every field that is only carried along. -/
def ladenTransfer : Forest where
  slots := #[
    some { Bubble.ofTransaction { (default : Transaction) with
        account := ⟨.zero, .jettonWallet⟩
        source := some ⟨⟨1, .replicate 32 0⟩, .wallet⟩
        body := some (.jettonTransfer { (default : TransferRequest Body) with
          queryId := 7, amount := ⟨5, by decide⟩, responseDestination := some .zero
          forwardPayload := some (.excess 9) })
        amount := .clamp 100
        fees := .clamp 3
        jettonMaster := some ⟨2, .replicate 32 0⟩ } with children := [1] },
    some (Bubble.ofTransaction { (default : Transaction) with
        body := some (.jettonInternalTransfer { (default : InternalTransfer) with
          queryId := 7, amount := ⟨5, by decide⟩, sender := some .zero })
        amount := .clamp 60 })]
  roots := [0]

end Forest

open Forest Saturation in
/-- Laden or bare, the transfer is recognized. -/
theorem Saturation.standard_runs_agree_ladenTransfer : ladenTransfer.WellFormed ∧
    ladenTransfer.Agree ladenTransfer.bare ∧ ladenTransfer.bare ≠ ladenTransfer ∧
    (ofForest Catalog.standard 16 ladenTransfer).actions.length = 1 ∧
    (ofForest Catalog.standard 16 ladenTransfer).forest.flowOf 0 ≠
      (ofForest Catalog.standard 16 ladenTransfer.bare).forest.flowOf 0 ∧
    (ofForest Catalog.standard 16 ladenTransfer).Agree
      (ofForest Catalog.standard 16 ladenTransfer.bare) := by
  have hF : ladenTransfer.WellFormed := by decide
  exact ⟨hF, agree_bare _, by decide +kernel, by decide +kernel, by decide +kernel,
    standard_runs_agree hF (agree_bare _) 16⟩

end TraceFold
