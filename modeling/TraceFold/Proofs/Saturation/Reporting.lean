import Mathlib.Data.List.Forall2
import Mathlib.Data.List.ProdSigma
import TraceFold.Proofs.Merging.Refusal
import TraceFold.Proofs.Saturation.Order
import TraceFold.Proofs.Saturation.Progress

/-!
# One report for each failure

A run notices a failed builder by the report that its attempt sends, and remembers the rule and the
bubble.  Nothing else is reported by an attempt (`MergeStep.Tells`), so what is remembered are just
the failures: the pairs are in the order of the reports, one for one (`Run.toldOnce_steps`).

A pair that is remembered is never forgotten, and an attempt is made only where nothing is
remembered.  So no attempt follows on a failure, however often the bubble is visited again, and
there is at most one report for every pair of a rule and a bubble.
-/

namespace TraceFold

variable {α : Type} {F : Forest} {rules : Rules} {rule rule' : AnyRule} {r : Run}
  {index n passes passes' visits visits' : Nat} {id : BubbleId} {report report' : Report}

/-! ## One attempt -/

/-- What an attempt has to do with reports, where `fails` says with which report a builder fails in
it: without such a failure there is none, and with one there is this one. -/
inductive MergeStep.Tells (step : MergeStep) (fails : Report → Prop) : Prop
  | nothing (fine : ∀ report, ¬ fails report) (reports : Event.reports step.events = [])
  | failure (report : Report) (failed : fails report) (only : ∀ report', fails report' →
      report' = report) (merged : step.merged = false)
      (reports : Event.reports step.events = [report])

/-- The pattern fits but one of its builders fails, and this is the report of the first that
does. -/
def Pattern.FailsWith [Target α] (p : Pattern α) (F : Forest) (root : BubbleId)
    (report : Report) : Prop :=
  ∃ c x e, p.FailsFirst F root c x e ∧ report = p.failureReport F x e

lemma Pattern.merge_tells [Target α] (hF : F.WellFormed) (p : Pattern α) (root : BubbleId) :
    (p.merge F root).Tells (p.FailsWith F root) := by
  have hmerge := merge_eq p F root
  cases hclaim : p.claim? F root with
  | none =>
    rw [hclaim] at hmerge
    refine .nothing ?_ (by rw [hmerge]; exact reports_lostEvents)
    rintro report ⟨c, x, e, hfails, -⟩
    cases hclaim.symm.trans hfails.1
  | some c =>
    have hsame : ∀ c' x e, p.FailsFirst F root c' x e → replacement F root c = .error (x, e) := by
      intro c' x e hfails
      obtain rfl := Option.some.inj (hfails.1.symm.trans hclaim)
      exact (failsFirst_iff hF hclaim).1 hfails
    cases hrep : replacement F root c with
    | ok b =>
      simp only [hclaim, hrep] at hmerge
      refine .nothing ?_ ?_
      · rintro report ⟨c', x, e, hfails, -⟩
        cases hrep.symm.trans (hsame c' x e hfails)
      · rw [hmerge, Event.reports_append, reports_lostEvents]
        rfl
    | error failure =>
      obtain ⟨x, e⟩ := failure
      simp only [hclaim, hrep] at hmerge
      refine .failure (p.failureReport F x e) ?_ ?_ (by rw [hmerge]) ?_
      · exact ⟨c, x, e, (failsFirst_iff hF hclaim).2 hrep, rfl⟩
      · rintro report ⟨c', x', e', hfails, rfl⟩
        obtain ⟨rfl, rfl⟩ :=
          Prod.mk.inj (Except.error.inj (hrep.symm.trans (hsame c' x' e' hfails)))
        rfl
      · rw [hmerge, Event.reports_append, reports_lostEvents]
        rfl

namespace AnyRule

/-- A builder of the pattern of the rule fails, with this report. -/
def FailsWith (rule : AnyRule) : Forest → BubbleId → Report → Prop := rule.pattern.FailsWith

lemma merge_tells (hF : F.WellFormed) (rule : AnyRule) (id : BubbleId) :
    (rule.merge F id).Tells (rule.FailsWith F id) :=
  rule.pattern.merge_tells hF id

/-- A refused merge that is reported is one in which a builder failed. -/
theorem refused_and_reported_iff (hF : F.WellFormed) :
    (rule.merge F id).merged = false ∧ (rule.merge F id).reported = true ↔
      ∃ report, rule.FailsWith F id report := by
  rw [MergeStep.reported_eq]
  cases rule.merge_tells hF id with
  | nothing hfine hreports =>
    rw [hreports]
    exact iff_of_false (fun h => absurd h.2 (by decide)) fun ⟨report, h⟩ => hfine report h
  | failure report hfails _ hmerged hreports =>
    rw [hreports]
    exact iff_of_true ⟨hmerged, rfl⟩ ⟨report, hfails⟩

end AnyRule

/-! ## One visit -/

namespace Run

/-- What a visit has to do with reports: it makes no attempt or one in which no builder fails, or a
builder fails, and then the failure is reported and remembered. -/
inductive VisitReport (r : Run) (index : Nat) (rule : AnyRule) (id : BubbleId) : Prop
  | nothing (fine : r.forest.contains id = true → (index, id) ∉ r.failed →
        ∀ report, ¬ rule.FailsWith r.forest id report)
      (failed : (r.visit index rule id).failed = r.failed)
      (reports : Event.reports (r.visit index rule id).events = Event.reports r.events)
  | failure (report : Report) (live : r.forest.contains id = true)
      (fresh : (index, id) ∉ r.failed) (fails : rule.FailsWith r.forest id report)
      (failed : (r.visit index rule id).failed = (index, id) :: r.failed)
      (reports : Event.reports (r.visit index rule id).events = Event.reports r.events ++ [report])

lemma visitReport (hF : r.forest.WellFormed) (index : Nat) (rule : AnyRule) (id : BubbleId) :
    VisitReport r index rule id := by
  by_cases htries : r.forest.contains id = true ∧ (index, id) ∉ r.failed
  · obtain ⟨hlive, hfresh⟩ := htries
    have hreported := MergeStep.reported_eq (rule.merge r.forest id)
    cases rule.merge_tells hF id with
    | nothing hfine hreports =>
      rw [hreports] at hreported
      refine .nothing (fun _ _ => hfine) ?_ ?_
      · simp [visit, hlive, hfresh, hreported]
      · simp [visit, hlive, hfresh, hreports]
    | failure report hfails _ hmerged hreports =>
      rw [hreports] at hreported
      refine .failure report hlive hfresh hfails ?_ ?_
      · simp [visit, hlive, hfresh, hmerged, hreported]
      · simp [visit, hlive, hfresh, hreports]
  · have hskip : r.visit index rule id = r := by
      rw [visit, if_neg]
      simpa using htries
    exact .nothing (fun hlive hfresh => absurd ⟨hlive, hfresh⟩ htries) (by rw [hskip])
      (by rw [hskip])

/-- What is remembered is never forgotten. -/
lemma mem_failed_visit {e : Nat × BubbleId} (h : e ∈ r.failed) (index : Nat) (rule : AnyRule)
    (id : BubbleId) : e ∈ (r.visit index rule id).failed := by
  cases visitCase r index rule id with
  | skipped _ hsame => rwa [hsame]
  | merged _ _ _ _ hfailed => rwa [hfailed]
  | refused _ _ _ _ hfailed =>
    rw [hfailed]
    split
    · exact List.mem_cons_of_mem _ h
    · exact h

/-! ## Whole runs -/

/-- The run with at most `n` passes tries to merge here: when the bubble has its turn it is live,
and no failure of this rule at this bubble is remembered. -/
structure Tries (rules : Rules) (F : Forest) (n passes index visits : Nat) (rule : AnyRule)
    (id : BubbleId) : Prop where
  makes : Makes rules F n passes index visits rule id
  live : (moment rules F passes index visits).forest.contains id = true
  fresh : (index, id) ∉ (moment rules F passes index visits).failed

/-- An attempt in which a builder fails. -/
structure Fails (rules : Rules) (F : Forest) (n passes index visits : Nat) (rule : AnyRule)
    (id : BubbleId) (report : Report) : Prop where
  tries : Tries rules F n passes index visits rule id
  fails : rule.FailsWith (moment rules F passes index visits).forest id report

/-- In the run with at most `n` passes an attempt of this rule at this bubble fails. -/
def FailedAt (rules : Rules) (F : Forest) (n : Nat) (e : Nat × BubbleId) (report : Report) : Prop :=
  ∃ passes visits rule, Fails rules F n passes e.1 visits rule e.2 report

/-- What is remembered are failures, each of them once, and they are what was reported. -/
structure ToldOnce (rules : Rules) (F : Forest) (n : Nat) (r : Run) : Prop where
  distinct : r.failed.Nodup
  told : List.Forall₂ (FailedAt rules F n) r.failed.reverse (Event.reports r.events)

lemma ToldOnce.exists_failedAt {e : Nat × BubbleId} (h : ToldOnce rules F n r)
    (he : e ∈ r.failed) : ∃ report, FailedAt rules F n e report := by
  have hboth : List.Forall₂ (fun e report => (∃ report, FailedAt rules F n e report) ∧
      FailedAt rules F n e report) r.failed.reverse (Event.reports r.events) :=
    h.told.imp fun e report hfailed => ⟨⟨report, hfailed⟩, hfailed⟩
  exact ((List.forall₂_and_left _ _).1 hboth).1 e (List.mem_reverse.2 he)

section WellFormed

variable (hF : F.WellFormed)

include hF

lemma wellFormed_moment (rules : Rules) (passes index visits : Nat) :
    (moment rules F passes index visits).forest.WellFormed :=
  (reached_moment rules F passes index visits).wellFormed hF

/-- A failure is remembered at once. -/
lemma Fails.remembered (h : Fails rules F n passes index visits rule id report) :
    (index, id) ∈ (moment rules F passes index (visits + 1)).failed := by
  rw [moment_succ h.tries.makes]
  cases visitReport (wellFormed_moment hF rules passes index visits) index rule id with
  | nothing hfine => exact absurd h.fails (hfine h.tries.live h.tries.fresh report)
  | failure _ _ _ _ hfailed =>
    rw [hfailed]
    exact List.mem_cons_self

/-- After a failure there is no other attempt of the same rule at the same bubble. -/
theorem Fails.not_later (h : Fails rules F n passes index visits rule id report)
    (hlt : toLex (passes, visits) < toLex (passes', visits')) :
    ¬ Tries rules F n passes' index visits' rule' id := by
  intro h'
  have hle : toLex (passes, toLex (index, visits + 1)) ≤
      toLex (passes', toLex (index, visits')) := by
    simp only [Prod.Lex.toLex_lt_toLex, Prod.Lex.toLex_le_toLex, true_and] at hlt ⊢
    omega
  refine h'.fresh (moment_induction (motive := fun r => (index, id) ∈ r.failed) ?_ ?_ hle
    h.tries.makes.unfinished (h.remembered hF))
  · exact fun _ _ _ _ _ hmem => mem_failed_visit hmem _ _ _
  · exact fun _ _ _ hfailed hmem => by rwa [hfailed]

theorem Fails.unique (h : Fails rules F n passes index visits rule id report)
    (h' : Fails rules F n passes' index visits' rule' id report') :
    passes = passes' ∧ visits = visits' ∧ rule = rule' ∧ report = report' := by
  rcases lt_trichotomy (toLex (passes, visits)) (toLex (passes', visits')) with hlt | heq | hgt
  · exact absurd h'.tries (h.not_later hF hlt)
  · obtain ⟨rfl, rfl⟩ := Prod.mk.inj (toLex_inj.1 heq)
    obtain rfl := Option.some.inj (h.tries.makes.rule.symm.trans h'.tries.makes.rule)
    refine ⟨rfl, rfl, rfl, ?_⟩
    cases rule.merge_tells (wellFormed_moment hF rules passes index visits) id with
    | nothing hfine => exact absurd h.fails (hfine report)
    | failure _ _ honly => exact (honly report h.fails).trans (honly report' h'.fails).symm
  · exact absurd h.tries (h'.not_later hF hgt)

/-- A visit that fails adds its report and its pair. -/
lemma ToldOnce.visit (hmakes : Makes rules F n passes index visits rule id)
    (h : ToldOnce rules F n (moment rules F passes index visits)) :
    ToldOnce rules F n ((moment rules F passes index visits).visit index rule id) := by
  cases visitReport (wellFormed_moment hF rules passes index visits) index rule id with
  | nothing _ hfailed hreports => exact ⟨by rw [hfailed]; exact h.distinct,
      by rw [hfailed, hreports]; exact h.told⟩
  | failure report hlive hfresh hfails hfailed hreports =>
    refine ⟨by rw [hfailed]; exact List.nodup_cons.2 ⟨hfresh, h.distinct⟩, ?_⟩
    have hnew : FailedAt rules F n (index, id) report :=
      ⟨passes, visits, rule, ⟨hmakes, hlive, hfresh⟩, hfails⟩
    rw [hfailed, hreports, List.reverse_cons]
    exact List.rel_append h.told (.cons hnew .nil)

theorem toldOnce_steps (rules : Rules) (n : Nat) :
    ToldOnce rules F n ((Saturation.start F).steps rules n).run := by
  refine steps_induction (motive := ToldOnce rules F n) ?_ ?_ ⟨List.nodup_nil, .nil⟩
  · intro r r' halike h
    exact ⟨by rw [halike.failed]; exact h.distinct,
      by rw [halike.failed, halike.reports]; exact h.told⟩
  · exact fun _ _ _ _ _ hmakes h => h.visit hF hmakes

/-- A failure is still remembered at the end of the run. -/
lemma FailedAt.remembered {e : Nat × BubbleId} (h : FailedAt rules F n e report) :
    e ∈ (Saturation.ofForest rules n F).run.failed := by
  obtain ⟨passes, visits, rule, hfails⟩ := h
  refine end_of_moment (motive := fun r => e ∈ r.failed) ?_ ?_ hfails.tries.makes.pass
    hfails.tries.makes.unfinished (hfails.remembered hF)
  · exact fun _ _ _ _ _ hmem => mem_failed_visit hmem _ _ _
  · exact fun _ _ _ hfailed hmem => by rwa [hfailed]

/-- The pair of a failure is one of a rule and a bubble that was live at the start. -/
lemma FailedAt.mem_product {e : Nat × BubbleId} (h : FailedAt rules F n e report) :
    e ∈ List.range rules.length ×ˢ F.preOrder := by
  obtain ⟨passes, visits, rule, hfails⟩ := h
  obtain ⟨hindex, -⟩ := List.getElem?_eq_some_iff.1 hfails.tries.makes.rule
  have hthinned := (reached_moment rules F passes e.1 visits).thinned hF
  exact List.mem_product.2 ⟨List.mem_range.2 hindex,
    hF.mem_preOrder.2 (hthinned.live e.2 hfails.tries.live)⟩

end WellFormed
end Run

/-- What a run that has made at most `n` passes and ended in `s` has reported. -/
structure Saturation.OneReportEach (rules : Rules) (F : Forest) (n : Nat) (s : Saturation) :
    Prop where
  /-- A run takes an attempt for a failure just if a builder fails in it. -/
  noticed : ∀ passes index visits rule id, Run.Tries rules F n passes index visits rule id →
    ((rule.merge (Run.moment rules F passes index visits).forest id).merged = false ∧
      (rule.merge (Run.moment rules F passes index visits).forest id).reported = true ↔
      ∃ report, Run.Fails rules F n passes index visits rule id report)
  /-- At most one attempt of a rule at a bubble fails. -/
  once : ∀ passes passes' index visits visits' rule rule' id report report',
    Run.Fails rules F n passes index visits rule id report →
    Run.Fails rules F n passes' index visits' rule' id report' →
      passes = passes' ∧ visits = visits' ∧ rule = rule' ∧ report = report'
  never_again : ∀ passes passes' index visits visits' rule rule' id report,
    Run.Fails rules F n passes index visits rule id report →
    toLex (passes, visits) < toLex (passes', visits') →
      ¬ Run.Tries rules F n passes' index visits' rule' id
  /-- The reports come from the failures that are remembered, one from each. -/
  told : List.Forall₂ (Run.FailedAt rules F n) s.run.failed.reverse s.reports
  recorded : ∀ e, e ∈ s.run.failed ↔ ∃ report, Run.FailedAt rules F n e report
  distinct : s.run.failed.Nodup
  as_many : s.reports.length = s.run.failed.length
  bound : s.reports.length ≤ rules.length * F.size

/-- In every run an attempt fails at most once for each rule and bubble and is not made again after
that.  Each failure is reported and remembered, and nothing else is.  So there are at most as many
reports as there are pairs of a rule and a bubble, however many passes are made. -/
theorem Saturation.one_report_each (hF : F.WellFormed) (rules : Rules) (n : Nat) :
    OneReportEach rules F n (ofForest rules n F) := by
  have hsilent := close_silent n ((start F).steps rules n)
  have hsteps := Run.toldOnce_steps hF rules n
  have hend : Run.ToldOnce rules F n (ofForest rules n F).run :=
    ⟨by rw [ofForest, hsilent.failed]; exact hsteps.distinct,
      by rw [ofForest, hsilent.failed, hsilent.reports]; exact hsteps.told⟩
  have hmany : (ofForest rules n F).reports.length = (ofForest rules n F).run.failed.length := by
    have hlength := hend.told.length_eq
    rw [List.length_reverse] at hlength
    exact hlength.symm
  have hrecorded : ∀ e, e ∈ (ofForest rules n F).run.failed ↔
      ∃ report, Run.FailedAt rules F n e report := by
    refine fun e => ⟨hend.exists_failedAt, ?_⟩
    rintro ⟨report, h⟩
    exact h.remembered hF
  refine ⟨fun passes index visits rule id htries => ?_,
    fun _ _ _ _ _ _ _ _ _ _ h h' => h.unique hF h', fun _ _ _ _ _ _ _ _ _ h => h.not_later hF,
    hend.told, hrecorded, hend.distinct, hmany, ?_⟩
  · rw [AnyRule.refused_and_reported_iff (Run.wellFormed_moment hF rules passes index visits)]
    exact exists_congr fun report => ⟨fun h => ⟨htries, h⟩, fun h => h.fails⟩
  · have hsub : (ofForest rules n F).run.failed.Subperm
        (List.range rules.length ×ˢ F.preOrder) := by
      refine List.subperm_of_subset hend.distinct fun e he => ?_
      obtain ⟨report, h⟩ := (hrecorded e).1 he
      exact h.mem_product hF
    have hle := hsub.length_le
    rwa [← hmany, List.length_product, List.length_range, hF.length_preOrder] at hle

open Catalog Saturation in
/-- The transfer fails in the first of two passes, and the second does not try it again. -/
theorem Saturation.one_report_each_lateMaster : lateMaster.WellFormed ∧
    (ofForest standard 16 lateMaster).passes.length = 2 ∧
    (ofForest standard 16 lateMaster).run.failed = [(0, 0)] ∧
    (ofForest standard 16 lateMaster).reports.length = 1 ∧
    (∃ report, Run.FailedAt standard lateMaster 16 (0, 0) report) ∧
    OneReportEach standard lateMaster 16 (ofForest standard 16 lateMaster) := by
  have hF : lateMaster.WellFormed := by decide
  have h := one_report_each hF standard 16
  have hfailed : (ofForest standard 16 lateMaster).run.failed = [(0, 0)] := by decide +kernel
  refine ⟨hF, by decide +kernel, hfailed, ?_, (h.recorded (0, 0)).1 ?_, h⟩
  · rw [h.as_many, hfailed]
    rfl
  · rw [hfailed]
    exact List.mem_singleton.2 rfl

end TraceFold
