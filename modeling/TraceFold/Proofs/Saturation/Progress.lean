import Mathlib.Data.Prod.Lex
import TraceFold.Proofs.Saturation.Fixpoint

/-!
# Along a run

Three ways to carry a statement along a run.

What is kept by every visit, and does not depend on what is merely counted or noted, is kept from
any moment of a run to all later ones (`moment_induction`) and to its end (`end_of_moment`).  The
moments are in lexicographic order: the passes made come first, then the sweeps of the next pass,
then the visits of the next sweep.

What connects a forest with the number of merges that led to it goes along with the merges
(`merged_induction`), and what is said of the events goes along with the visits
(`ofForest_induction`).
-/

namespace TraceFold

variable {F : Forest} {rules : Rules} {s : Saturation} {n : Nat}

/-! ## From moment to moment -/

namespace Run

/-- During a sweep the visits are made one by one. -/
lemma moment_of_rule {rule : AnyRule} {sweeps : Nat} (hrule : rules[sweeps]? = some rule)
    (passes visits : Nat) : moment rules F passes sweeps visits =
      ((betweenSweeps rules F passes sweeps).forest.postOrder.take visits).foldl
        (visit sweeps rule) (betweenSweeps rules F passes sweeps) := by
  rw [moment, hrule]

/-- When a bubble has its turn, the next moment of the sweep comes by visiting it. -/
lemma moment_of_turn {rule : AnyRule} {id : BubbleId} {passes sweeps visits : Nat}
    (hrule : rules[sweeps]? = some rule)
    (hturn : (betweenSweeps rules F passes sweeps).forest.postOrder[visits]? = some id) :
    moment rules F passes sweeps (visits + 1) =
      (moment rules F passes sweeps visits).visit sweeps rule id := by
  rw [moment_of_rule hrule, moment_of_rule hrule, List.take_add_one, hturn, List.foldl_append]
  rfl

/-- The next moment of a sweep comes by the visit that is made. -/
lemma moment_succ {rule : AnyRule} {id : BubbleId} {passes sweeps visits : Nat}
    (h : Makes rules F n passes sweeps visits rule id) :
    moment rules F passes sweeps (visits + 1) =
      (moment rules F passes sweeps visits).visit sweeps rule id :=
  moment_of_turn h.rule h.turn

/-- A run begins with the forest it is given. -/
lemma moment_zero_forest (rules : Rules) (F : Forest) : (moment rules F 0 0 0).forest = F := by
  rw [moment]
  split <;> rfl

section Moments

variable {motive : Run → Prop} {passes passes' sweeps sweeps' visits visits' : Nat}
  (hvisit : ∀ (r : Run) (index : Nat) (rule : AnyRule) (id : BubbleId), rules[index]? = some rule →
    motive r → motive (r.visit index rule id))
  (hrecord : ∀ r r' : Run, r'.forest = r.forest → r'.failed = r.failed → motive r → motive r')

include hvisit

lemma moment_after_betweenSweeps (h : motive (betweenSweeps rules F passes sweeps)) :
    motive (moment rules F passes sweeps visits) := by
  cases hrule : rules[sweeps]? with
  | none => rw [moment, hrule]; exact h
  | some rule => rw [moment_of_rule hrule]; exact visits_induction hvisit hrule _ h

/-- The visits of a sweep come one after the other. -/
lemma moment_after_visits (hle : visits ≤ visits')
    (h : motive (moment rules F passes sweeps visits)) :
    motive (moment rules F passes sweeps visits') := by
  cases hrule : rules[sweeps]? with
  | none => rw [moment, hrule] at h ⊢; exact h
  | some rule =>
    obtain ⟨more, rfl⟩ := Nat.exists_eq_add_of_le hle
    rw [moment_of_rule hrule] at h ⊢
    rw [List.take_add, List.foldl_append]
    exact visits_induction hvisit hrule _ h

include hrecord

/-- When a sweep is over, the next one begins. -/
lemma betweenSweeps_after_moment (h : motive (moment rules F passes sweeps visits)) :
    motive (betweenSweeps rules F passes (sweeps + 1)) := by
  have hend := moment_after_visits hvisit
    (Nat.le_max_left visits (betweenSweeps rules F passes sweeps).forest.postOrder.length) h
  rw [betweenSweeps_succ]
  cases hrule : rules[sweeps]? with
  | none => rwa [moment, hrule] at hend
  | some rule =>
    rw [moment_of_rule hrule, List.take_of_length_le (Nat.le_max_right _ _)] at hend
    have hsilent := sweep_silent (betweenSweeps rules F passes sweeps) sweeps rule
    exact hrecord _ _ hsilent.forest hsilent.failed hend

/-- The sweeps of a pass come one after the other. -/
lemma betweenSweeps_after_sweeps (hle : sweeps ≤ sweeps')
    (h : motive (betweenSweeps rules F passes sweeps)) :
    motive (betweenSweeps rules F passes sweeps') := by
  obtain ⟨more, rfl⟩ := Nat.exists_eq_add_of_le hle
  rw [betweenSweeps, List.take_add, List.foldl_append]
  refine sweeps_induction hvisit (fun r r' hsilent => hrecord r r' hsilent.forest hsilent.failed)
    _ (fun e he => ?_) h
  exact getElem?_of_mem_zipIdx (List.mem_of_mem_drop (List.mem_of_mem_take he))

/-- When a pass is over, the run goes on with the next one. -/
lemma steps_after_moment
    (hgoing : ((Saturation.start F).steps rules passes).fixpoint = false)
    (h : motive (moment rules F passes sweeps visits)) :
    motive ((Saturation.start F).steps rules (passes + 1)).run := by
  have hnext := betweenSweeps_after_moment hvisit hrecord h
  have hend := betweenSweeps_after_sweeps hvisit hrecord
    (Nat.le_max_left (sweeps + 1) rules.zipIdx.length) hnext
  rw [betweenSweeps, List.take_of_length_le (Nat.le_max_right _ _)] at hend
  rw [Saturation.steps_succ rules passes (.start F) rfl, if_neg (by simp [hgoing])]
  exact hrecord (((Saturation.start F).steps rules passes).run.pass rules) _ rfl rfl hend

/-- The passes of a run come one after the other. -/
lemma steps_after_steps (hle : passes ≤ passes')
    (h : motive ((Saturation.start F).steps rules passes).run) :
    motive ((Saturation.start F).steps rules passes').run := by
  induction hle with
  | refl => exact h
  | @step passes' _ ih =>
    rw [Saturation.steps_succ rules passes' (.start F) rfl]
    split
    · exact ih
    · refine hrecord (((Saturation.start F).steps rules passes').run.pass rules) _ rfl rfl ?_
      have hbegin := hrecord ((Saturation.start F).steps rules passes').run
        (betweenSweeps rules F passes' 0) rfl rfl ih
      refine pass_induction hvisit ?_ hbegin
      exact fun r r' hsilent => hrecord r r' hsilent.forest hsilent.failed

/-- What is kept by visits goes from a moment to every later one that the run gets to. -/
theorem moment_induction
    (hle : toLex (passes, toLex (sweeps, visits)) ≤ toLex (passes', toLex (sweeps', visits')))
    (hgoing : ((Saturation.start F).steps rules passes).fixpoint = false)
    (h : motive (moment rules F passes sweeps visits)) :
    motive (moment rules F passes' sweeps' visits') := by
  rcases Prod.Lex.toLex_le_toLex.1 hle with hpasses | ⟨rfl, hle⟩
  · have hsteps := steps_after_steps hvisit hrecord hpasses
      (steps_after_moment hvisit hrecord hgoing h)
    have hbegin := hrecord ((Saturation.start F).steps rules passes').run
      (betweenSweeps rules F passes' 0) rfl rfl hsteps
    have hpass := betweenSweeps_after_sweeps hvisit hrecord (Nat.zero_le sweeps') hbegin
    exact moment_after_betweenSweeps hvisit hpass
  · rcases Prod.Lex.toLex_le_toLex.1 hle with hsweeps | ⟨rfl, hvisits⟩
    · have hsweep := betweenSweeps_after_sweeps hvisit hrecord hsweeps
        (betweenSweeps_after_moment hvisit hrecord h)
      exact moment_after_betweenSweeps hvisit hsweep
    · exact moment_after_visits hvisit hvisits h

/-- What is kept by visits goes from every moment that the run gets to to its end. -/
theorem end_of_moment (hpass : passes < n)
    (hgoing : ((Saturation.start F).steps rules passes).fixpoint = false)
    (h : motive (moment rules F passes sweeps visits)) :
    motive (Saturation.ofForest rules n F).run := by
  have hsteps := steps_after_steps hvisit hrecord hpass
    (steps_after_moment hvisit hrecord hgoing h)
  have hclose := Saturation.close_silent n ((Saturation.start F).steps rules n)
  exact hrecord _ _ hclose.forest hclose.failed hsteps

end Moments
end Run

/-! ## From merge to merge, and from event to event -/

namespace Saturation

/-- What every pass keeps is kept by any number of them. -/
lemma steps_preserve {motive : Saturation → Prop}
    (hstep : ∀ s, motive s → motive (s.step rules)) (h : motive s) : motive (s.steps rules n) := by
  induction n generalizing s with
  | zero => exact h
  | succ n ih =>
    rw [steps]
    split
    · exact hstep s h
    · exact ih (hstep s h)

/-- What holds of the forest at the start and no merges, and with every merge of one more, holds at
the end of the run and all its merges. -/
theorem merged_induction {motive : Forest → Nat → Prop}
    (hmerge : ∀ (G : Forest) (rule : AnyRule) (id : BubbleId) (m : Nat), rule ∈ rules →
      G.WellFormed → (rule.merge G id).merged = true → motive G m →
      motive (rule.merge G id).forest (m + 1))
    (hF : F.WellFormed) (hstart : motive F 0) (n : Nat) :
    motive (ofForest rules n F).forest (ofForest rules n F).merged := by
  have hpass : ∀ s : Saturation, s.run.forest.WellFormed ∧ motive s.run.forest s.merged →
      (s.step rules).run.forest.WellFormed ∧
        motive (s.step rules).run.forest (s.step rules).merged := by
    intro s hs
    rw [step_merged]
    refine Run.pass_induction (motive := fun r =>
      r.forest.WellFormed ∧ motive r.forest (s.merged + r.counts.merged)) ?_ ?_ hs
    · intro r index rule id hrule ⟨hwf, hlaw⟩
      refine ⟨Run.visit_wellFormed hwf index rule id, ?_⟩
      cases Run.visitCase r index rule id with
      | skipped _ hsame => rwa [hsame]
      | merged _ _ hmerged hforest _ hcount =>
        rw [hforest, hcount]
        exact hmerge _ rule id _ (List.mem_of_getElem? hrule) hwf hmerged hlaw
      | refused _ _ _ hforest _ hcount => rwa [hforest, hcount]
    · intro r r' hsilent hr
      rwa [hsilent.forest, hsilent.merged]
  have hsteps := steps_preserve (n := n) hpass (s := start F) ⟨hF, hstart⟩
  rw [ofForest, close_forest, close_merged]
  exact hsteps.2

/-- What holds at the start and is kept by visits, and does not depend on the counters or on events
that are no reports, holds at the end. -/
theorem ofForest_induction {motive : Run → Prop}
    (hvisit : ∀ (r : Run) (index : Nat) (rule : AnyRule) (id : BubbleId),
      rules[index]? = some rule → motive r → motive (r.visit index rule id))
    (hsilent : ∀ r r', Run.Silent r r' → motive r → motive r')
    (hrecount : ∀ (r : Run) (counts : PassCounts), motive r → motive { r with counts })
    (hstart : motive (.start F)) (n : Nat) : motive (ofForest rules n F).run := by
  refine hsilent _ _ (close_silent n _) (steps_preserve (motive := fun s => motive s.run) ?_ hstart)
  intro s hs
  exact hsilent _ _ (step_silent rules s) (Run.pass_induction hvisit hsilent (hrecount _ _ hs))

end Saturation
end TraceFold
