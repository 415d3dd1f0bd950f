import TraceFold.Proofs.Saturation.Invariant
import TraceFold.Trace

/-!
# What a fixpoint says

A pass that merges nothing leaves the forest as it is (`Idle`).  After it every attempt that would
still be made comes to nothing (`Quiet`), as what failed is remembered and skipped (`pass_idle`).
This is all that a run knows when it stops at a fixpoint.

It is less than it may seem: what made a builder fail may have been merged away in the meantime,
so that an attempt which is skipped would succeed by now (`fixpoint_not_stuck`).  If none would,
further runs change nothing; `fixpoint_exhausted` puts both together.
-/

namespace TraceFold

variable {F : Forest} {rules : Rules} {rule : AnyRule} {r r₁ r₂ : Run} {s : Saturation}
  {index n : Nat} {id next : BubbleId}

namespace Run

/-! ## Attempts that come to nothing -/

/-- If the rule tries the bubble, it does not merge there. -/
def Refuses (r : Run) (index : Nat) (rule : AnyRule) (id : BubbleId) : Prop :=
  r.forest.contains id = true → (index, id) ∉ r.failed → (rule.merge r.forest id).merged = false

/-- If the rule tries the bubble, it does not merge there, and no builder fails. -/
def Settled (r : Run) (index : Nat) (rule : AnyRule) (id : BubbleId) : Prop :=
  r.forest.contains id = true → (index, id) ∉ r.failed →
    (rule.merge r.forest id).merged = false ∧ (rule.merge r.forest id).reported = false

/-- No rule of the catalog comes to anything anywhere. -/
def Quiet (rules : Rules) (r : Run) : Prop :=
  ∀ (index : Nat) (rule : AnyRule), rules[index]? = some rule → ∀ id, r.Settled index rule id

/-- What is refused stays refused while the forest is the same and no failure is forgotten. -/
lemma Refuses.mono (h : r.Refuses index rule id) (hforest : r₁.forest = r.forest)
    (hfailed : ∀ e ∈ r.failed, e ∈ r₁.failed) : r₁.Refuses index rule id := by
  intro hlive hfresh
  rw [hforest] at hlive ⊢
  exact h hlive fun hmem => hfresh (hfailed _ hmem)

lemma Settled.mono (h : r.Settled index rule id) (hforest : r₁.forest = r.forest)
    (hfailed : ∀ e ∈ r.failed, e ∈ r₁.failed) : r₁.Settled index rule id := by
  intro hlive hfresh
  rw [hforest] at hlive ⊢
  exact h hlive fun hmem => hfresh (hfailed _ hmem)

lemma Settled.refuses (h : r.Settled index rule id) : r.Refuses index rule id :=
  fun hlive hfresh => (h hlive hfresh).1

lemma Quiet.congr (h : Quiet rules r) (hforest : r₁.forest = r.forest)
    (hfailed : r₁.failed = r.failed) : Quiet rules r₁ :=
  fun index rule hrule id => (h index rule hrule id).mono hforest fun _ he => hfailed ▸ he

/-! ## A pass that merges nothing -/

/-- From one state of a run to another the forest stayed the same, and the attempts that failed
meanwhile did not merge. -/
structure Idle (rules : Rules) (r r' : Run) : Prop where
  forest : r'.forest = r.forest
  failed : ∀ e ∈ r.failed, e ∈ r'.failed
  refused : ∀ index id rule, (index, id) ∈ r'.failed → (index, id) ∉ r.failed →
    rules[index]? = some rule → (rule.merge r.forest id).merged = false

namespace Idle

lemma refl (rules : Rules) (r : Run) : Idle rules r r :=
  ⟨rfl, fun _ he => he, fun _ _ _ he hne => absurd he hne⟩

lemma trans (h₁ : Idle rules r r₁) (h₂ : Idle rules r₁ r₂) : Idle rules r r₂ := by
  refine ⟨h₂.forest.trans h₁.forest, fun e he => h₂.failed e (h₁.failed e he), ?_⟩
  intro index id rule hafter hbefore hrule
  by_cases hmid : (index, id) ∈ r₁.failed
  · exact h₁.refused index id rule hmid hbefore hrule
  · rw [← h₁.forest]
    exact h₂.refused index id rule hafter hmid hrule

/-- What is refused later was refused before. -/
lemma refuses (h : Idle rules r r₁) (hrule : rules[index]? = some rule)
    (hrefuses : r₁.Refuses index rule id) : r.Refuses index rule id := by
  intro hlive hfresh
  by_cases hlate : (index, id) ∈ r₁.failed
  · exact h.refused index id rule hlate hfresh hrule
  · rw [← h.forest]
    exact hrefuses (by rwa [h.forest]) hlate

end Idle

lemma visit_merged_le (r : Run) (index : Nat) (rule : AnyRule) (id : BubbleId) :
    r.counts.merged ≤ (r.visit index rule id).counts.merged := by
  cases visitCase r index rule id with
  | skipped _ hsame => exact Nat.le_of_eq (by rw [hsame])
  | merged _ _ _ _ _ hcount => rw [hcount]; exact Nat.le_succ _
  | refused _ _ _ _ _ hcount => exact Nat.le_of_eq hcount.symm

lemma visits_merged_le (hrule : rules[index]? = some rule) (ids : List BubbleId) (r : Run) :
    r.counts.merged ≤ (ids.foldl (visit index rule) r).counts.merged :=
  visits_induction (motive := fun r' => r.counts.merged ≤ r'.counts.merged)
    (fun r' index rule id _ h => Nat.le_trans h (visit_merged_le r' index rule id)) hrule ids
    (Nat.le_refl _)

lemma sweeps_merged_le (entries : List (AnyRule × Nat))
    (hentries : ∀ e ∈ entries, rules[e.2]? = some e.1) (r : Run) :
    r.counts.merged ≤ (entries.foldl (fun r e => r.sweep e.2 e.1) r).counts.merged :=
  sweeps_induction (motive := fun r' => r.counts.merged ≤ r'.counts.merged)
    (fun r' index rule id _ h => Nat.le_trans h (visit_merged_le r' index rule id))
    (fun _ _ hsilent h => hsilent.merged ▸ h) entries hentries (Nat.le_refl _)

/-- A visit that merges nothing settles the bubble: if it was reported, it is remembered. -/
lemma visit_idle (hrule : rules[index]? = some rule)
    (h : (r.visit index rule id).counts.merged = r.counts.merged) :
    Idle rules r (r.visit index rule id) ∧ (r.visit index rule id).Settled index rule id := by
  cases visitCase r index rule id with
  | skipped why hsame =>
    rw [hsame]
    refine ⟨.refl rules r, fun hlive hfresh => ?_⟩
    rcases why with hgone | hfailed
    · rw [hgone] at hlive; cases hlive
    · exact absurd hfailed hfresh
  | merged _ _ _ _ _ hcount => rw [hcount] at h; omega
  | refused _ _ hmerged hforest hfailed _ =>
    refine ⟨⟨hforest, ?_, ?_⟩, fun _ hfresh => ?_⟩
    · intro e he
      rw [hfailed]
      split
      · exact List.mem_cons_of_mem _ he
      · exact he
    · intro index' id' rule' hafter hbefore hrule'
      rw [hfailed] at hafter
      split at hafter
      · rcases List.mem_cons.1 hafter with heq | hafter
        · cases heq
          obtain rfl := Option.some.inj (hrule.symm.trans hrule')
          exact hmerged
        · exact absurd hafter hbefore
      · exact absurd hafter hbefore
    · rw [hforest]
      refine ⟨hmerged, Bool.eq_false_iff.2 fun hreported => hfresh ?_⟩
      rw [hfailed, if_pos hreported]
      exact List.mem_cons_self

lemma visits_idle (hrule : rules[index]? = some rule) (ids : List BubbleId)
    (h : (ids.foldl (visit index rule) r).counts.merged = r.counts.merged) :
    Idle rules r (ids.foldl (visit index rule) r) ∧
      ∀ id ∈ ids, (ids.foldl (visit index rule) r).Settled index rule id := by
  induction ids generalizing r with
  | nil => exact ⟨.refl rules r, fun _ hid => by cases hid⟩
  | cons id ids ih =>
    rw [List.foldl_cons] at h ⊢
    have hle := visit_merged_le r index rule id
    have hle' := visits_merged_le hrule ids (r.visit index rule id)
    have hcount : (r.visit index rule id).counts.merged = r.counts.merged := by omega
    obtain ⟨hidle, hsettled⟩ := visit_idle hrule hcount
    obtain ⟨hidle', hsettled'⟩ := ih (r := r.visit index rule id) (by omega)
    refine ⟨hidle.trans hidle', fun k hk => ?_⟩
    rcases List.mem_cons.1 hk with rfl | hk
    · exact hsettled.mono hidle'.forest hidle'.failed
    · exact hsettled' k hk

/-- A sweep has its rule tried at every live bubble. -/
lemma sweep_idle (hF : r.forest.WellFormed) (hrule : rules[index]? = some rule)
    (h : (r.sweep index rule).counts.merged = r.counts.merged) :
    Idle rules r (r.sweep index rule) ∧ ∀ id, (r.sweep index rule).Settled index rule id := by
  have hsilent := sweep_silent r index rule
  rw [hsilent.merged] at h
  obtain ⟨hidle, hsettled⟩ := visits_idle hrule r.forest.postOrder h
  refine ⟨⟨?_, ?_, ?_⟩, fun id hlive => ?_⟩
  · rw [hsilent.forest]; exact hidle.forest
  · rw [hsilent.failed]; exact hidle.failed
  · rw [hsilent.failed]; exact hidle.refused
  · have hid : id ∈ r.forest.postOrder := by
      rw [hF.mem_postOrder, ← hidle.forest, ← hsilent.forest]
      exact hlive
    exact (hsettled id hid).mono hsilent.forest (fun _ he => hsilent.failed ▸ he) hlive

lemma sweeps_idle (hF : r.forest.WellFormed) (entries : List (AnyRule × Nat))
    (hentries : ∀ e ∈ entries, rules[e.2]? = some e.1)
    (h : (entries.foldl (fun r e => r.sweep e.2 e.1) r).counts.merged = r.counts.merged) :
    Idle rules r (entries.foldl (fun r e => r.sweep e.2 e.1) r) ∧ ∀ e ∈ entries, ∀ id,
      (entries.foldl (fun r e => r.sweep e.2 e.1) r).Settled e.2 e.1 id := by
  induction entries generalizing r with
  | nil => exact ⟨.refl rules r, fun _ he => by cases he⟩
  | cons e entries ih =>
    rw [List.foldl_cons] at h ⊢
    have hrule := hentries e List.mem_cons_self
    have hentries' := fun d hd => hentries d (List.mem_cons_of_mem e hd)
    have hle : r.counts.merged ≤ (r.sweep e.2 e.1).counts.merged := by
      rw [(sweep_silent r e.2 e.1).merged]; exact visits_merged_le hrule _ r
    have hle' := sweeps_merged_le entries hentries' (r.sweep e.2 e.1)
    obtain ⟨hidle, hsettled⟩ := sweep_idle hF hrule (by omega)
    obtain ⟨hidle', hsettled'⟩ := ih (r := r.sweep e.2 e.1) (by rwa [hidle.forest])
      hentries' (by omega)
    refine ⟨hidle.trans hidle', fun d hd id => ?_⟩
    rcases List.mem_cons.1 hd with rfl | hd
    · exact (hsettled id).mono hidle'.forest hidle'.failed
    · exact hsettled' d hd id

/-- After a pass that merges nothing, nothing is left to happen. -/
theorem pass_idle (hF : r.forest.WellFormed) (h : (r.pass rules).counts.merged = 0) :
    Idle rules r (r.pass rules) ∧ Quiet rules (r.pass rules) := by
  obtain ⟨hidle, hsettled⟩ := sweeps_idle (r := { r with counts := ⟨0, 0, 0⟩ }) hF rules.zipIdx
    (fun e he => getElem?_of_mem_zipIdx he) h
  refine ⟨⟨hidle.forest, hidle.failed, hidle.refused⟩, fun index rule hrule id => ?_⟩
  exact hsettled (rule, index) (List.mem_zipIdx_iff_getElem?.2 hrule) id

/-! ## A pass that cannot merge anything -/

/-- Nothing but failures is added to a run. -/
structure Unchanged (r r' : Run) : Prop where
  forest : r'.forest = r.forest
  merged : r'.counts.merged = r.counts.merged
  failed : ∀ e ∈ r.failed, e ∈ r'.failed

lemma Unchanged.refl (r : Run) : Unchanged r r := ⟨rfl, rfl, fun _ he => he⟩

lemma Unchanged.trans (h₁ : Unchanged r r₁) (h₂ : Unchanged r₁ r₂) : Unchanged r r₂ :=
  ⟨h₂.forest.trans h₁.forest, h₂.merged.trans h₁.merged, fun e he => h₂.failed e (h₁.failed e he)⟩

lemma Silent.unchanged (h : Silent r r₁) : Unchanged r r₁ :=
  ⟨h.forest, h.merged, fun _ he => h.failed ▸ he⟩

lemma visit_of_refuses (h : r.Refuses index rule id) :
    Unchanged r (r.visit index rule id) := by
  cases visitCase r index rule id with
  | skipped _ hsame => rw [hsame]; exact .refl r
  | merged hlive hfresh hmerged => rw [h hlive hfresh] at hmerged; cases hmerged
  | refused _ _ _ hforest hfailed hcount =>
    refine ⟨hforest, hcount, fun e he => ?_⟩
    rw [hfailed]
    split
    · exact List.mem_cons_of_mem _ he
    · exact he

/-- Where every rule is refused, a pass does nothing. -/
lemma pass_of_refuses (h : ∀ (index : Nat) (rule : AnyRule), rules[index]? = some rule →
    ∀ id, r.Refuses index rule id) :
    Unchanged { r with counts := ⟨0, 0, 0⟩ } (r.pass rules) := by
  refine pass_induction ?_ ?_ (.refl _)
  · intro r' index rule id hrule hsofar
    have hrefuses := (h index rule hrule id).mono hsofar.forest hsofar.failed
    exact hsofar.trans (visit_of_refuses hrefuses)
  · exact fun _ _ hsilent hsofar => hsofar.trans hsilent.unchanged

/-- No rule merges anywhere. -/
def Stuck (rules : Rules) (F : Forest) : Prop :=
  ∀ (index : Nat) (rule : AnyRule), rules[index]? = some rule → ∀ id, F.contains id = true →
    (rule.merge F id).merged = false

/-! ## What is remembered as failed -/

/-- At some moment of a run over `F` a rule found its pattern at a bubble, but one of its builders
failed. -/
def Failed (rules : Rules) (F : Forest) (index : Nat) (id : BubbleId) : Prop :=
  ∃ passes visits rule, rules[index]? = some rule ∧
    (rule.merge (moment rules F passes index visits).forest id).merged = false ∧
    (rule.merge (moment rules F passes index visits).forest id).reported = true

/-- A failure that a visit adds is one that happened there. -/
lemma failed_of_visit {passes sweeps visits : Nat} (hrule : rules[sweeps]? = some rule)
    (h : ∀ index id, (index, id) ∈ (moment rules F passes sweeps visits).failed →
      Failed rules F index id) :
    ∀ index id,
      (index, id) ∈ ((moment rules F passes sweeps visits).visit sweeps rule next).failed →
        Failed rules F index id := by
  intro index id hmem
  cases visitCase (moment rules F passes sweeps visits) sweeps rule next with
  | skipped _ hsame => rw [hsame] at hmem; exact h index id hmem
  | merged _ _ _ _ hfailed => rw [hfailed] at hmem; exact h index id hmem
  | refused _ _ hmerged _ hfailed =>
    rw [hfailed] at hmem
    split at hmem
    · rename_i hreported
      rcases List.mem_cons.1 hmem with heq | hmem
      · cases heq
        exact ⟨passes, visits, rule, hrule, hmerged, hreported⟩
      · exact h index id hmem
    · exact h index id hmem

end Run

namespace Saturation

lemma failed_of_steps (rules : Rules) (F : Forest) (n : Nat) : ∀ index id,
    (index, id) ∈ ((start F).steps rules n).run.failed → Run.Failed rules F index id :=
  Run.steps_induction (motive := fun r => ∀ index id, (index, id) ∈ r.failed →
      Run.Failed rules F index id)
    (fun _ _ halike h => by rwa [halike.failed])
    (fun _ _ _ _ _ hmakes h => Run.failed_of_visit hmakes.rule h)
    (fun _ _ h => by cases h)

/-! ## Runs that end at a fixpoint -/

lemma step_fixpoint (rules : Rules) (s : Saturation) :
    (s.step rules).fixpoint = true ↔ (s.run.pass rules).counts.merged = 0 := by
  rw [step]; exact beq_iff_eq

/-- A run that ends at a fixpoint ends with a pass that merged nothing. -/
lemma exists_last_pass (hreached : Run.Reached rules F s.run) (hstart : s.fixpoint = false)
    (h : (s.steps rules n).fixpoint = true) :
    ∃ s₀ : Saturation, Run.Reached rules F s₀.run ∧ s.steps rules n = s₀.step rules ∧
      (s₀.run.pass rules).counts.merged = 0 := by
  induction n generalizing s with
  | zero => rw [steps, hstart] at h; cases h
  | succ n ih =>
    rw [steps] at h ⊢
    split
    · rename_i hfix
      exact ⟨s, hreached, rfl, (step_fixpoint rules s).1 hfix⟩
    · rename_i hfix
      rw [if_neg hfix] at h
      exact ih hreached.step (Bool.eq_false_iff.2 hfix) h

lemma close_fixpoint (n : Nat) (s : Saturation) : (s.close n).fixpoint = s.fixpoint := by
  rw [close]; split <;> rfl

lemma close_forest (n : Nat) (s : Saturation) : (s.close n).forest = s.forest :=
  (close_silent n s).forest

lemma close_merged (n : Nat) (s : Saturation) : (s.close n).merged = s.merged := by
  rw [close]; split <;> rfl

lemma step_merged (rules : Rules) (s : Saturation) :
    (s.step rules).merged = s.merged + (s.run.pass rules).counts.merged := by
  simp [merged, step, Run.note]

lemma merged_le_steps (rules : Rules) (n : Nat) (s : Saturation) :
    s.merged ≤ (s.steps rules n).merged := by
  induction n generalizing s with
  | zero => exact Nat.le_refl _
  | succ n ih =>
    have hstep : s.merged ≤ (s.step rules).merged := by
      rw [step_merged]; exact Nat.le_add_right _ _
    rw [steps]
    split
    · exact hstep
    · exact Nat.le_trans hstep (ih _)

/-- At a fixpoint every rule is refused at every live bubble where its builders have not failed
during the run. -/
lemma refuses_of_fixpoint (hF : F.WellFormed) (h : (ofForest rules n F).fixpoint = true)
    (hrule : rules[index]? = some rule) (id : BubbleId) :
    (ofForest rules n F).run.Refuses index rule id := by
  rw [ofForest, close_fixpoint] at h
  obtain ⟨s₀, hreached, hlast, hmerged⟩ := exists_last_pass .start rfl h
  have hquiet := (Run.pass_idle (hreached.wellFormed hF) hmerged).2
  have hend : (ofForest rules n F).run = (s₀.step rules).run := by
    rw [ofForest, close, if_pos h, hlast]
  rw [hend]
  exact (hquiet.congr rfl rfl index rule hrule id).refuses

/-- A run over a forest in which no rule merges anywhere changes nothing. -/
lemma ofForest_of_stuck (hstuck : Run.Stuck rules F) (n : Nat) :
    (ofForest rules n F).forest = F ∧ (ofForest rules n F).merged = 0 := by
  rw [ofForest, close_forest, close_merged]
  cases n with
  | zero => exact ⟨rfl, rfl⟩
  | succ n =>
    have hpass := Run.pass_of_refuses (r := .start F)
      fun index rule hrule id hlive _ => hstuck index rule hrule id hlive
    have hcount : ((Run.start F).pass rules).counts.merged = 0 := hpass.merged
    have hfix : ((start F).step rules).fixpoint = true := (step_fixpoint rules _).2 hcount
    rw [steps]
    simp only [hfix, if_true]
    exact ⟨hpass.forest, by rw [step_merged]; exact (Nat.zero_add _).trans hcount⟩

/-- If a run that makes a pass merges nothing, no rule merges anywhere. -/
lemma stuck_of_merged_eq_zero (hF : F.WellFormed) (hn : 0 < n)
    (h : (ofForest rules n F).merged = 0) : Run.Stuck rules F := by
  obtain ⟨n, rfl⟩ : ∃ k, n = k + 1 := ⟨n - 1, by omega⟩
  rw [ofForest, close_merged, steps] at h
  have hcount : ((Run.start F).pass rules).counts.merged = 0 := by
    have hstep := step_merged rules (start F)
    have hmerged : ((start F).step rules).merged = 0 := by
      split at h
      · exact h
      · exact Nat.le_zero.1 (h ▸ merged_le_steps rules n ((start F).step rules))
    exact Nat.eq_zero_of_add_eq_zero_left (hstep.symm.trans hmerged)
  obtain ⟨hidle, hquiet⟩ := Run.pass_idle (r := .start F) hF hcount
  intro index rule hrule id hlive
  exact hidle.refuses hrule (hquiet index rule hrule id).refuses hlive List.not_mem_nil

/-- What can be relied on after a run over `F` that ended at a fixpoint in the state `s`. -/
structure Exhausted (rules : Rules) (F : Forest) (s : Saturation) : Prop where
  /-- No rule merges at a live bubble unless one of its builders failed there during the run. -/
  refused : ∀ (index : Nat) (rule : AnyRule), rules[index]? = some rule → ∀ id,
    s.forest.contains id = true → (index, id) ∉ s.run.failed →
      (rule.merge s.forest id).merged = false
  /-- What is remembered as failed did fail. -/
  failures : ∀ index id, (index, id) ∈ s.run.failed → Run.Failed rules F index id
  /-- If what failed would fail again, another run changes nothing. -/
  stable : (∀ (index : Nat) (rule : AnyRule), rules[index]? = some rule → ∀ id,
      s.forest.contains id = true → (index, id) ∈ s.run.failed →
        (rule.merge s.forest id).merged = false) →
    ∀ n, (ofForest rules n s.forest).merged = 0 ∧ (ofForest rules n s.forest).forest = s.forest ∧
      (ofForest rules n s.forest).actions = s.actions
  /-- If something that failed would succeed by now, another run merges it. -/
  unstable : ∀ (index : Nat) (rule : AnyRule) id, rules[index]? = some rule →
    s.forest.contains id = true → (rule.merge s.forest id).merged = true →
    ∀ n, 0 < n → 0 < (ofForest rules n s.forest).merged

/-- At a fixpoint everything has been tried, with the exception of what failed before; and another
run over the same forest does nothing if and only if the exceptions would still not merge. -/
theorem fixpoint_exhausted (rules : Rules) (maxPasses : Nat) (hF : F.WellFormed)
    (hfix : (ofForest rules maxPasses F).fixpoint = true) :
    Exhausted rules F (ofForest rules maxPasses F) := by
  have hend := (Run.reached_ofForest rules maxPasses F).wellFormed hF
  refine ⟨fun index rule hrule id => refuses_of_fixpoint hF hfix hrule id, ?_, ?_, ?_⟩
  · intro index id hmem
    rw [ofForest, close] at hmem
    split at hmem
    · exact failed_of_steps rules F maxPasses index id hmem
    · exact failed_of_steps rules F maxPasses index id hmem
  · intro hfailed n
    have hstuck : Run.Stuck rules (ofForest rules maxPasses F).forest := by
      intro index rule hrule id hlive
      by_cases hmem : (index, id) ∈ (ofForest rules maxPasses F).run.failed
      · exact hfailed index rule hrule id hlive hmem
      · exact refuses_of_fixpoint hF hfix hrule id hlive hmem
    obtain ⟨hforest, hmerged⟩ := ofForest_of_stuck hstuck n
    exact ⟨hmerged, hforest, congrArg Forest.actions hforest⟩
  · intro index rule id hrule hlive hmerges n hn
    by_contra hzero
    have hstuck := stuck_of_merged_eq_zero hend hn (Nat.eq_zero_of_not_pos hzero)
    have hno : (rule.merge (ofForest rules maxPasses F).forest id).merged = false :=
      hstuck index rule hrule id hlive
    rw [hno] at hmerges
    cases hmerges

/-! ## A fixpoint that is not stable -/

/-- A receiving wallet. -/
def arrivalNode (master : Option Address) (opcode : Option UInt32) (children : List TraceNode) :
    TraceNode where
  transaction := { (default : Transaction) with
    opcode, body := some (.jettonInternalTransfer default), jettonMaster := master }
  children

/-- A transfer with two receiving wallets.  Only the second one tells the jetton master; the first
one is also the beginning of a mint. -/
def lateMasterNode : TraceNode where
  transaction := { (default : Transaction) with body := some (.jettonTransfer default) }
  children := [
    arrivalNode none (some Catalog.JettonMint.masterOpcode) [arrivalNode none none []],
    arrivalNode (some ⟨1, .replicate 32 0⟩) none []]

def lateMaster : Forest := Forest.empty.graftAll none [lateMasterNode]

/-- The transfer fails on its first wallet, which a mint takes away afterwards; the run ends at a
fixpoint, but by now the transfer succeeds with the second wallet. -/
theorem fixpoint_not_stuck : Forest.ofNodes [lateMasterNode] = .ok lateMaster ∧
    lateMaster.WellFormed ∧ (ofForest Catalog.standard 16 lateMaster).fixpoint = true ∧
    (ofForest Catalog.standard 16 lateMaster).forest.contains 0 = true ∧
    (Catalog.JettonTransfer.pattern.merge
      (ofForest Catalog.standard 16 lateMaster).forest 0).merged = true ∧
    (ofForest Catalog.standard 16 (ofForest Catalog.standard 16 lateMaster).forest).merged = 1 ∧
    (ofForest Catalog.standard 16 (ofForest Catalog.standard 16 lateMaster).forest).actions ≠
      (ofForest Catalog.standard 16 lateMaster).actions :=
  ⟨rfl, by decide, by decide +kernel, by decide +kernel, by decide +kernel, by decide +kernel,
    by decide +kernel⟩

/-- At the end of the same run a mint is refused everywhere, as it has never failed. -/
theorem fixpoint_exhausted_lateMaster : lateMaster.WellFormed ∧
    (ofForest Catalog.standard 16 lateMaster).fixpoint = true ∧
    (ofForest Catalog.standard 16 lateMaster).run.failed = [(0, 0)] ∧
    Exhausted Catalog.standard lateMaster (ofForest Catalog.standard 16 lateMaster) :=
  ⟨by decide, by decide +kernel, by decide +kernel,
    fixpoint_exhausted Catalog.standard 16 (by decide) (by decide +kernel)⟩

end Saturation
end TraceFold
