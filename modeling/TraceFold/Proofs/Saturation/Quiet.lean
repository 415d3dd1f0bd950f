import Mathlib.Logic.Function.Iterate
import TraceFold.Proofs.Saturation.Fixpoint

/-!
# Passes that do nothing

After a pass that merges nothing, every attempt that would still be made comes to nothing
(`Run.Quiet`).  From such a state on nothing happens any more (`pass_of_quiet`), so that it makes
no difference whether further passes are made.

Hence a run that stops at its first idle pass shows the same as one that makes all its passes
(`shows_steps`); the latter is easier to compare with other runs, as it does not depend on when the
work is done.
-/

namespace TraceFold

variable {F : Forest} {rules : Rules} {rule : AnyRule} {r r₁ r₂ : Run} {s s' : Saturation}
  {index n : Nat} {id : BubbleId}

namespace Run

/-! ## A quiet pass -/

lemma visit_of_settled (h : r.Settled index rule id) :
    Silent r (r.visit index rule id) := by
  unfold visit
  split
  · rename_i hasked
    rw [Bool.and_eq_true, Bool.not_eq_true', List.contains_eq_mem, decide_eq_false_iff_not]
      at hasked
    obtain ⟨hmerged, hreported⟩ := h hasked.1 hasked.2
    refine ⟨AnyRule.merge_forest_of_not_merged hmerged, ?_, ?_, ?_⟩
    · simp [hreported]
    · simp [hmerged]
    · exact ⟨_, rfl, MergeStep.reports_eq_nil hreported⟩
  · exact .refl r

/-- Where everything is settled, a pass does nothing. -/
theorem pass_of_quiet (h : Quiet rules r) :
    Silent { r with counts := ⟨0, 0, 0⟩ } (r.pass rules) := by
  refine pass_induction ?_ ?_ (.refl _)
  · intro r' index rule id hrule hsofar
    have hsettled := (h.congr hsofar.forest hsofar.failed) index rule hrule id
    exact hsofar.trans (visit_of_settled hsettled)
  · exact fun _ _ hsilent hsofar => hsofar.trans hsilent

end Run

namespace Saturation

/-! ## Runs that stop, and runs that go on -/

/-- The number of merges in a pass, counted from 0; a pass that was not made has none. -/
def mergedIn (s : Saturation) (k : Nat) : Nat := ((s.passes[k]?).map PassCounts.merged).getD 0

/-- Two runs show the same: the forest, the reports, the merges in each pass and whether the last
one did nothing. -/
structure Shows (s s' : Saturation) : Prop where
  forest : s'.forest = s.forest
  reports : s'.reports = s.reports
  mergedIn : ∀ k, s'.mergedIn k = s.mergedIn k
  fixpoint : s'.fixpoint = s.fixpoint

lemma Shows.refl (s : Saturation) : Shows s s := ⟨rfl, rfl, fun _ => rfl, rfl⟩

lemma mergedIn_step (rules : Rules) (s : Saturation) (k : Nat) : (s.step rules).mergedIn k =
    if k = s.passes.length then (s.run.pass rules).counts.merged else s.mergedIn k := by
  unfold mergedIn step
  dsimp only
  split
  · rename_i hk
    subst hk
    simp
  · rename_i hk
    rcases Nat.lt_or_gt_of_ne hk with hlt | hgt
    · rw [List.getElem?_append_left hlt]
    · rw [List.getElem?_eq_none (by simp; omega), List.getElem?_eq_none (by omega)]

/-- A step from a quiet state adds an idle pass, and no report. -/
lemma step_of_quiet (h : Run.Quiet rules s.run) :
    Run.Silent { s.run with counts := ⟨0, 0, 0⟩ } (s.step rules).run ∧
      (s.step rules).fixpoint = true := by
  have hpass := Run.pass_of_quiet h
  exact ⟨hpass.trans (step_silent rules s), (step_fixpoint rules s).2 hpass.merged⟩

lemma shows_step_of_quiet (h : Run.Quiet rules s.run) (hfix : s.fixpoint = true) :
    Shows s (s.step rules) := by
  obtain ⟨hsilent, hfix'⟩ := step_of_quiet h
  refine ⟨hsilent.forest, hsilent.reports, fun k => ?_, hfix'.trans hfix.symm⟩
  rw [mergedIn_step]
  split
  · rename_i hk
    unfold mergedIn
    rw [hk, List.getElem?_eq_none (Nat.le_refl _)]
    exact hsilent.merged
  · rfl

lemma Shows.trans {s'' : Saturation} (h : Shows s s') (h' : Shows s' s'') : Shows s s'' :=
  ⟨h'.forest.trans h.forest, h'.reports.trans h.reports,
    fun k => (h'.mergedIn k).trans (h.mergedIn k), h'.fixpoint.trans h.fixpoint⟩

lemma Shows.symm (h : Shows s s') : Shows s' s :=
  ⟨h.forest.symm, h.reports.symm, fun k => (h.mergedIn k).symm, h.fixpoint.symm⟩

lemma shows_close (n : Nat) (s : Saturation) : Shows s (s.close n) where
  forest := close_forest n s
  reports := (close_silent n s).reports
  mergedIn := by intro k; unfold mergedIn close; split <;> rfl
  fixpoint := close_fixpoint n s

/-- As long as a run goes on, it makes every pass; and when it has stopped, the passes that it does
not make would show nothing. -/
lemma steps_eq_or_quiet (hF : F.WellFormed) (rules : Rules) (n : Nat) :
    (start F).steps rules n = (step rules)^[n] (start F) ∧
        ((start F).steps rules n).fixpoint = false ∨
      Shows ((start F).steps rules n) ((step rules)^[n] (start F)) ∧
        Run.Quiet rules ((step rules)^[n] (start F)).run ∧
        ((start F).steps rules n).fixpoint = true := by
  induction n with
  | zero => exact .inl ⟨rfl, rfl⟩
  | succ n ih =>
    have hreached : Run.Reached rules F ((start F).steps rules n).run := Run.Reached.start.steps n
    rw [steps_succ rules n (start F) rfl, Function.iterate_succ_apply']
    rcases ih with ⟨hsame, hgoing⟩ | ⟨hshows, hquiet, hfix⟩
    · rw [← hsame, hgoing, if_neg (by decide)]
      cases hfix : (((start F).steps rules n).step rules).fixpoint with
      | false => exact .inl ⟨rfl, rfl⟩
      | true =>
        refine .inr ⟨.refl _, ?_, rfl⟩
        have hidle := (step_fixpoint rules _).1 hfix
        exact (Run.pass_idle (hreached.wellFormed hF) hidle).2.congr rfl rfl
    · rw [if_pos hfix]
      obtain ⟨hsilent, -⟩ := step_of_quiet hquiet
      exact .inr ⟨hshows.trans (shows_step_of_quiet hquiet (hshows.fixpoint.trans hfix)),
        hquiet.congr hsilent.forest hsilent.failed, hfix⟩

/-- A run that stops at its first idle pass shows the same as one that goes on. -/
theorem shows_steps (hF : F.WellFormed) (rules : Rules) (n : Nat) :
    Shows ((start F).steps rules n) ((step rules)^[n] (start F)) := by
  rcases steps_eq_or_quiet hF rules n with ⟨hsame, -⟩ | ⟨hshows, -⟩
  · rw [hsame]; exact .refl _
  · exact hshows

lemma shows_ofForest (hF : F.WellFormed) (rules : Rules) (n : Nat) :
    Shows ((step rules)^[n] (start F)) (ofForest rules n F) :=
  (shows_steps hF rules n).symm.trans (shows_close n _)

/-! ## Runs that are done after one pass -/

lemma steps_of_quiet (h : Run.Quiet rules s.run) (n : Nat) :
    s.steps rules (n + 1) = s.step rules := by
  unfold steps
  exact if_pos (step_of_quiet h).2

/-- The run came to an end and did all its work in its first pass: a second one, if it was made,
merged nothing and reported nothing. -/
structure DoneAtOnce (rules : Rules) (F : Forest) (s : Saturation) : Prop where
  fixpoint : s.fixpoint = true
  passes : s.passes.length = 1 ∨ s.passes.length = 2 ∧ s.mergedIn 1 = 0
  events : ∃ later, s.events = ((start F).step rules).events ++ later ∧ Event.reports later = []

/-- Where everything is settled after one pass, further passes neither change the forest nor
report anything. -/
lemma ofForest_of_quiet (h : Run.Quiet rules ((Run.start F).pass rules)) (hn : 0 < n) :
    (ofForest rules n F).forest = ((Run.start F).pass rules).forest ∧
      (ofForest rules n F).reports = ((start F).step rules).reports := by
  have hquiet : Run.Quiet rules ((start F).step rules).run := h.congr rfl rfl
  obtain ⟨n, rfl⟩ : ∃ k, n = k + 1 := ⟨n - 1, by omega⟩
  have hclose := shows_close (n + 1) ((start F).steps rules (n + 1))
  rw [ofForest, hclose.forest, hclose.reports, steps]
  split
  · exact ⟨rfl, rfl⟩
  · cases n with
    | zero => exact ⟨rfl, rfl⟩
    | succ n =>
      obtain ⟨hsilent, -⟩ := step_of_quiet hquiet
      rw [steps_of_quiet hquiet]
      exact ⟨hsilent.forest, hsilent.reports⟩

lemma doneAtOnce_of_quiet (h : Run.Quiet rules ((Run.start F).pass rules)) (hn : 1 < n) :
    DoneAtOnce rules F (ofForest rules n F) := by
  have hquiet : Run.Quiet rules ((start F).step rules).run := h.congr rfl rfl
  obtain ⟨n, rfl⟩ : ∃ k, n = k + 2 := ⟨n - 2, by omega⟩
  have hsteps : (start F).steps rules (n + 2) = if ((start F).step rules).fixpoint
      then (start F).step rules else ((start F).step rules).step rules := by
    rw [steps, steps_of_quiet hquiet]
  obtain ⟨hsilent, hfix⟩ := step_of_quiet hquiet
  rw [ofForest, hsteps]
  split
  · rename_i hfirst
    rw [close, if_pos hfirst]
    exact ⟨hfirst, .inl rfl, [], (List.append_nil _).symm, rfl⟩
  · rw [close, if_pos hfix]
    refine ⟨hfix, .inr ⟨rfl, ?_⟩, hsilent.events⟩
    rw [mergedIn_step, if_pos (show 1 = ((start F).step rules).passes.length from rfl)]
    exact hsilent.merged

end Saturation
end TraceFold
