import TraceFold.Proofs.Saturation.Progress
import TraceFold.Proofs.Saturation.Termination

/-!
# What a smaller number of passes cuts off

A run does not know how many passes it is allowed until they are used up, so a run that is allowed
more of them begins in the same way (`steps_add`).  Where the smaller number was enough, the larger
one makes no difference at all; where it was not, the run with the larger one goes on from where the
other was stopped, and its passes and events are those of the other and then some more
(`Continues`).  `PassesMade` tells which of the two it was, from the counters of the passes.

Inside a pass the counter of the attempts tells what a sweep did.  The list of a sweep has every
bubble once, and when a bubble has its turn, an attempt is counted just if it is live and no failure
is remembered there (`Run.sweepsOnce`).
-/

namespace TraceFold

variable {F : Forest} {rules : Rules} {rule : AnyRule} {r : Run} {s s' s'' : Saturation}
  {index m n k : Nat} {id : BubbleId} {ids : List BubbleId}

/-! ## More passes -/

namespace Saturation

/-- More passes are some passes and then the others, unless the first ones were enough. -/
lemma steps_add (hs : s.fixpoint = false) (m k : Nat) : s.steps rules (m + k) =
    if (s.steps rules m).fixpoint then s.steps rules m else (s.steps rules m).steps rules k := by
  induction m generalizing s with
  | zero => simp [steps, hs]
  | succ m ih =>
    rw [Nat.succ_add, steps, steps]
    cases hfix : (s.step rules).fixpoint with
    | true => simp [hfix]
    | false =>
      simp only [Bool.false_eq_true, if_false]
      exact ih hfix

/-- The second state comes after the first one: no pass and no event is taken back. -/
structure Continues (s s' : Saturation) : Prop where
  passes : s.passes <+: s'.passes
  events : s.events <+: s'.events

lemma Continues.refl (s : Saturation) : Continues s s := ⟨List.prefix_rfl, List.prefix_rfl⟩

lemma Continues.trans (h : Continues s s') (h' : Continues s' s'') : Continues s s'' :=
  ⟨h.passes.trans h'.passes, h.events.trans h'.events⟩

/-- A pass only adds events. -/
lemma events_prefix_pass (rules : Rules) (r : Run) : r.events <+: (r.pass rules).events := by
  refine Run.pass_induction (motive := fun r' => r.events <+: r'.events) ?_ ?_ List.prefix_rfl
  · intro r' index rule id _ h
    refine h.trans ?_
    unfold Run.visit
    split
    · exact List.prefix_append _ _
    · exact List.prefix_rfl
  · intro r₁ r₂ hsilent h
    obtain ⟨later, hlater, -⟩ := hsilent.events
    exact h.trans ⟨later, hlater.symm⟩

lemma continues_step (rules : Rules) (s : Saturation) : Continues s (s.step rules) where
  passes := List.prefix_append _ _
  events := (events_prefix_pass rules s.run).trans (List.prefix_append _ _)

lemma continues_steps (rules : Rules) (n : Nat) (s : Saturation) :
    Continues s (s.steps rules n) :=
  steps_preserve (motive := Continues s) (fun _ h => h.trans (continues_step rules _)) (.refl s)

lemma Continues.reports (h : Continues s s') : s.reports <+: s'.reports := by
  obtain ⟨later, hlater⟩ := h.events
  refine ⟨Event.reports later, ?_⟩
  rw [Saturation.reports, Saturation.reports, ← hlater, Event.reports_append]

/-! ## Passes that were made -/

/-- How a run that may make `n` passes has made them: all of them, each with a merge, or as many as
it needed, the last of which merged nothing. -/
inductive PassesMade (n : Nat) (s : Saturation) : Prop
  | all (going : s.fixpoint = false) (count : s.passes.length = n)
      (busy : ∀ p ∈ s.passes, 0 < p.merged)
  | enough (before : List PassCounts) (last : PassCounts) (done : s.fixpoint = true)
      (passes : s.passes = before ++ [last]) (fewer : before.length < n)
      (busy : ∀ p ∈ before, 0 < p.merged) (idle : last.merged = 0)

lemma passesMade_steps (rules : Rules) (F : Forest) (n : Nat) :
    PassesMade n ((start F).steps rules n) := by
  induction n with
  | zero => exact .all rfl rfl fun p hp => by cases hp
  | succ n ih =>
    rw [steps_succ rules n (start F) rfl]
    cases ih with
    | enough before last hdone hpasses hfewer hbusy hidle =>
      rw [if_pos hdone]
      exact .enough before last hdone hpasses (by omega) hbusy hidle
    | all hgoing hcount hbusy =>
      rw [if_neg (by simp [hgoing])]
      cases hfix : (((start F).steps rules n).step rules).fixpoint with
      | true =>
        exact .enough _ _ hfix rfl (by omega) hbusy ((step_fixpoint rules _).1 hfix)
      | false =>
        refine .all hfix (by rw [step_passes, hcount]) fun p hp => ?_
        rcases List.mem_append.1 hp with hp | hp
        · exact hbusy p hp
        · obtain rfl := List.mem_singleton.1 hp
          refine Nat.pos_of_ne_zero fun hzero => ?_
          rw [(step_fixpoint rules _).2 hzero] at hfix
          cases hfix

/-- What can be relied on in the passes of a run that may make `n` of them. -/
structure PassLaw (n : Nat) (s : Saturation) : Prop where
  bound : s.passes.length ≤ n
  busy : ∀ p ∈ s.passes.dropLast, 0 < p.merged
  fixpoint_iff : s.fixpoint = true ↔ ∃ p, s.passes.getLast? = some p ∧ p.merged = 0

lemma PassesMade.passLaw (h : PassesMade n s) : PassLaw n s := by
  cases h with
  | all hgoing hcount hbusy =>
    refine ⟨hcount.le, fun p hp => hbusy p (List.dropLast_subset _ hp), ?_⟩
    refine iff_of_false (by simp [hgoing]) ?_
    rintro ⟨p, hlast, hzero⟩
    exact absurd hzero (hbusy p (List.mem_of_getLast? hlast)).ne'
  | enough before last hdone hpasses hfewer hbusy hidle =>
    refine ⟨?_, ?_, ?_⟩
    · rw [hpasses, List.length_append]
      exact hfewer
    · rwa [hpasses, List.dropLast_concat]
    · exact iff_of_true hdone ⟨last, by simp [hpasses], hidle⟩

lemma PassesMade.close (h : PassesMade n s) : PassesMade n (s.close n) := by
  cases h with
  | all hgoing hcount hbusy =>
    exact .all (by rwa [close_fixpoint]) (by rwa [close_passes]) (by rwa [close_passes])
  | enough before last hdone hpasses hfewer hbusy hidle =>
    exact .enough before last (by rwa [close_fixpoint]) (by rwa [close_passes]) hfewer hbusy hidle

/-! ## Two runs -/

/-- What the run `s` that may make `m` passes has to do with the run `s'` that may make more. -/
structure Truncates (m : Nat) (s s' : Saturation) : Prop where
  passes : s.passes = s'.passes.take m
  reports : s.reports <+: s'.reports
  /-- At a fixpoint nothing is cut off: the passes, the events, the forest and what was remembered
  are the same. -/
  same : s.fixpoint = true → s' = s

lemma ofForest_of_fixpoint (hle : m ≤ n) (h : ((start F).steps rules m).fixpoint = true) :
    ofForest rules n F = ofForest rules m F := by
  obtain ⟨k, rfl⟩ := Nat.exists_eq_add_of_le hle
  have hsteps : (start F).steps rules (m + k) = (start F).steps rules m := by
    rw [steps_add rfl, if_pos h]
  rw [ofForest, ofForest, hsteps, close, close, if_pos h, if_pos h]

lemma continues_of_going (hle : m ≤ n) (h : ((start F).steps rules m).fixpoint = false) :
    Continues ((start F).steps rules m) ((start F).steps rules n) := by
  obtain ⟨k, rfl⟩ := Nat.exists_eq_add_of_le hle
  rw [steps_add rfl, if_neg (by simp [h])]
  exact continues_steps rules k _

lemma truncates_ofForest (rules : Rules) (F : Forest) (hle : m ≤ n) :
    Truncates m (ofForest rules m F) (ofForest rules n F) := by
  have hmade := (passesMade_steps rules F m).close
  cases hfix : ((start F).steps rules m).fixpoint with
  | true =>
    have hsame := ofForest_of_fixpoint hle hfix
    rw [hsame]
    exact ⟨(List.take_of_length_le hmade.passLaw.bound).symm, List.prefix_rfl, fun _ => rfl⟩
  | false =>
    have hcontinues := continues_of_going hle hfix
    refine ⟨?_, ?_, fun h => ?_⟩
    · cases hmade with
      | enough _ _ hdone => rw [close_fixpoint, hfix] at hdone; cases hdone
      | all _ hcount =>
        rw [close_passes] at hcount
        rw [ofForest, ofForest, close_passes, close_passes]
        have htake := List.prefix_iff_eq_take.1 hcontinues.passes
        rwa [hcount] at htake
    · have hm := (close_silent m ((start F).steps rules m)).reports
      have hn := (close_silent n ((start F).steps rules n)).reports
      rw [ofForest, ofForest, reports, reports, events, events, hm, hn]
      exact hcontinues.reports
    · rw [ofForest, close_fixpoint, hfix] at h
      cases h

end Saturation

/-! ## The attempts of a sweep -/

namespace Run

/-- The bubbles of a list at which an attempt is counted when a rule goes through it. -/
def attempts (index : Nat) (rule : AnyRule) (r : Run) : List BubbleId → List BubbleId
  | [] => []
  | id :: ids =>
    (if r.counts.visited < (r.visit index rule id).counts.visited then [id] else []) ++
      (r.visit index rule id).attempts index rule ids

/-- A visit is an attempt or it does nothing.  It is an attempt if the bubble is live and no failure
is remembered there; then what happens is what the rule does. -/
inductive VisitAttempt (r : Run) (index : Nat) (rule : AnyRule) (id : BubbleId) : Prop
  | made (live : r.forest.contains id = true) (fresh : (index, id) ∉ r.failed)
      (forest : (r.visit index rule id).forest = (rule.merge r.forest id).forest)
      (events : (r.visit index rule id).events = r.events ++ (rule.merge r.forest id).events)
      (count : (r.visit index rule id).counts.visited = r.counts.visited + 1)
  | none (why : ¬ (r.forest.contains id = true ∧ (index, id) ∉ r.failed))
      (same : r.visit index rule id = r)

lemma visitAttempt (r : Run) (index : Nat) (rule : AnyRule) (id : BubbleId) :
    VisitAttempt r index rule id := by
  by_cases htries : r.forest.contains id = true ∧ (index, id) ∉ r.failed
  · obtain ⟨hlive, hfresh⟩ := htries
    refine .made hlive hfresh ?_ ?_ ?_
    all_goals simp [visit, hlive, hfresh]
  · refine .none htries ?_
    rw [visit, if_neg]
    simpa using htries

lemma visited_lt_iff (rule : AnyRule) : r.counts.visited < (r.visit index rule id).counts.visited ↔
    r.forest.contains id = true ∧ (index, id) ∉ r.failed := by
  cases visitAttempt r index rule id with
  | made hlive hfresh _ _ hcount => exact iff_of_true (by omega) ⟨hlive, hfresh⟩
  | none hwhy hsame => exact iff_of_false (by rw [hsame]; exact Nat.lt_irrefl _) hwhy

lemma attempts_sublist (index : Nat) (rule : AnyRule) (r : Run) (ids : List BubbleId) :
    (r.attempts index rule ids).Sublist ids := by
  induction ids generalizing r with
  | nil => exact .slnil
  | cons id ids ih =>
    rw [attempts]
    split
    · exact (ih _).cons_cons id
    · exact (ih _).cons id

/-- Attempts are counted one by one. -/
lemma visited_foldl_visit (index : Nat) (rule : AnyRule) (r : Run) (ids : List BubbleId) :
    (ids.foldl (visit index rule) r).counts.visited =
      r.counts.visited + (r.attempts index rule ids).length := by
  induction ids generalizing r with
  | nil => rfl
  | cons id ids ih =>
    rw [List.foldl_cons, ih, attempts, List.length_append]
    cases visitAttempt r index rule id with
    | made _ _ _ _ hcount => rw [if_pos (by omega), hcount, List.length_singleton, Nat.add_assoc]
    | none _ hsame => rw [hsame, if_neg (Nat.lt_irrefl _), List.length_nil, Nat.zero_add]

/-- In a list without repetitions a bubble has one turn, and it depends on that turn alone whether
it is attempted. -/
lemma mem_attempts_iff (hnodup : ids.Nodup) (hturn : ids[k]? = some id) :
    id ∈ r.attempts index rule ids ↔
      ((ids.take k).foldl (visit index rule) r).forest.contains id = true ∧
        (index, id) ∉ ((ids.take k).foldl (visit index rule) r).failed := by
  induction ids generalizing r k with
  | nil => cases hturn
  | cons first ids ih =>
    obtain ⟨hfirst, hnodup⟩ := List.nodup_cons.1 hnodup
    rw [attempts, List.mem_append]
    cases k with
    | zero =>
      obtain rfl : first = id := Option.some.inj hturn
      have hlater : first ∉ (r.visit index rule first).attempts index rule ids :=
        fun hmem => hfirst ((attempts_sublist _ _ _ ids).subset hmem)
      rw [or_iff_left hlater, List.take_zero, List.foldl_nil, ← visited_lt_iff rule]
      split <;> simp_all
    | succ k =>
      have hmem : id ∈ ids := List.mem_of_getElem? hturn
      have hbefore : id ∉ if r.counts.visited < (r.visit index rule first).counts.visited
          then [first] else [] := by
        split
        · exact fun h => hfirst (List.mem_singleton.1 h ▸ hmem)
        · exact List.not_mem_nil
      rw [or_iff_right hbefore, List.take_succ_cons, List.foldl_cons]
      exact ih hnodup hturn

/-- The bubbles at which a rule makes its attempts in a sweep of a run. -/
def tried (rules : Rules) (F : Forest) (passes sweeps : Nat) (rule : AnyRule) : List BubbleId :=
  (betweenSweeps rules F passes sweeps).attempts sweeps rule
    (betweenSweeps rules F passes sweeps).forest.postOrder

/-- A sweep makes at most one attempt at a bubble: when the bubble has its turn, provided that it is
live by then and that no failure of the rule is remembered there. -/
structure SweepsOnce (rules : Rules) (F : Forest) (passes sweeps : Nat) (rule : AnyRule) :
    Prop where
  once : (tried rules F passes sweeps rule).Nodup
  /-- There is no attempt at a bubble that has no turn. -/
  inTurn : ∀ id ∈ tried rules F passes sweeps rule, ∃ visits : Nat,
    (betweenSweeps rules F passes sweeps).forest.postOrder[visits]? = some id
  tried_iff : ∀ (visits : Nat) id,
    (betweenSweeps rules F passes sweeps).forest.postOrder[visits]? = some id →
      (id ∈ tried rules F passes sweeps rule ↔
        (moment rules F passes sweeps visits).forest.contains id = true ∧
          (sweeps, id) ∉ (moment rules F passes sweeps visits).failed)
  /-- What happens in an attempt is what the rule does. -/
  attempted : ∀ (visits : Nat) id,
    (betweenSweeps rules F passes sweeps).forest.postOrder[visits]? = some id →
      id ∈ tried rules F passes sweeps rule →
        (moment rules F passes sweeps (visits + 1)).forest =
            (rule.merge (moment rules F passes sweeps visits).forest id).forest ∧
          (moment rules F passes sweeps (visits + 1)).events =
            (moment rules F passes sweeps visits).events ++
              (rule.merge (moment rules F passes sweeps visits).forest id).events
  /-- Without an attempt nothing happens. -/
  passedOver : ∀ (visits : Nat) id,
    (betweenSweeps rules F passes sweeps).forest.postOrder[visits]? = some id →
      id ∉ tried rules F passes sweeps rule →
        moment rules F passes sweeps (visits + 1) = moment rules F passes sweeps visits
  counted : (betweenSweeps rules F passes (sweeps + 1)).counts.visited =
    (betweenSweeps rules F passes sweeps).counts.visited +
      (tried rules F passes sweeps rule).length

lemma visited_sweep (r : Run) (index : Nat) (rule : AnyRule) :
    (r.sweep index rule).counts.visited =
      r.counts.visited + (r.attempts index rule r.forest.postOrder).length := by
  rw [← visited_foldl_visit, sweep]
  dsimp only
  split <;> rfl

theorem sweepsOnce (hF : F.WellFormed) {passes sweeps : Nat} (hrule : rules[sweeps]? = some rule) :
    SweepsOnce rules F passes sweeps rule := by
  have hnodup := ((reached_betweenSweeps rules F passes sweeps).wellFormed hF).postOrder_nodup
  have hiff : ∀ (visits : Nat) id,
      (betweenSweeps rules F passes sweeps).forest.postOrder[visits]? = some id →
        (id ∈ tried rules F passes sweeps rule ↔
          (moment rules F passes sweeps visits).forest.contains id = true ∧
            (sweeps, id) ∉ (moment rules F passes sweeps visits).failed) := by
    intro visits id hturn
    rw [moment_of_rule hrule]
    exact mem_attempts_iff hnodup hturn
  refine ⟨(attempts_sublist _ _ _ _).nodup hnodup, fun id hid => ?_, hiff, ?_, ?_, ?_⟩
  · exact List.mem_iff_getElem?.1 ((attempts_sublist _ _ _ _).subset hid)
  · intro visits id hturn htried
    rw [hiff visits id hturn] at htried
    rw [moment_of_turn hrule hturn]
    cases visitAttempt (moment rules F passes sweeps visits) sweeps rule id with
    | made _ _ hforest hevents => exact ⟨hforest, hevents⟩
    | none hwhy => exact absurd htried hwhy
  · intro visits id hturn htried
    rw [hiff visits id hturn] at htried
    rw [moment_of_turn hrule hturn]
    cases visitAttempt (moment rules F passes sweeps visits) sweeps rule id with
    | made hlive hfresh => exact absurd ⟨hlive, hfresh⟩ htried
    | none _ hsame => exact hsame
  · rw [betweenSweeps_succ, hrule]
    exact visited_sweep _ _ _

end Run

namespace Saturation

/-- A smaller number of passes cuts a run off and changes nothing else.  In every run all passes but
the last one merge something, and it ends at a fixpoint just if the last one does not; and every
sweep makes at most one attempt at each bubble. -/
theorem smaller_cap_truncates (rules : Rules) (F : Forest) (hF : F.WellFormed) :
    (∀ m n, m ≤ n → Truncates m (ofForest rules m F) (ofForest rules n F)) ∧
    (∀ n, PassLaw n (ofForest rules n F)) ∧
    ∀ passes sweeps rule, rules[sweeps]? = some rule →
      Run.SweepsOnce rules F passes sweeps rule :=
  ⟨fun _ _ => truncates_ofForest rules F, fun n => (passesMade_steps rules F n).close.passLaw,
    fun _ _ _ => Run.sweepsOnce hF⟩

/-- The standard catalog needs two passes here.  With one the run is stopped after the merge; with
more it makes the second one, in which the transfer is not tried again at the bubble where it
failed. -/
theorem smaller_cap_truncates_lateMaster : lateMaster.WellFormed ∧
    (ofForest Catalog.standard 1 lateMaster).passes = [⟨1, 2, 8⟩] ∧
    (ofForest Catalog.standard 16 lateMaster).passes = [⟨1, 2, 8⟩, ⟨0, 2, 5⟩] ∧
    Truncates 1 (ofForest Catalog.standard 1 lateMaster)
      (ofForest Catalog.standard 16 lateMaster) ∧
    (ofForest Catalog.standard 2 lateMaster).fixpoint = true ∧
    ofForest Catalog.standard 16 lateMaster = ofForest Catalog.standard 2 lateMaster ∧
    PassLaw 16 (ofForest Catalog.standard 16 lateMaster) ∧
    Run.tried Catalog.standard lateMaster 1 0
      (Rule.transfer Catalog.JettonTransfer.pattern) = [1, 3] ∧
    Run.SweepsOnce Catalog.standard lateMaster 1 0
      (Rule.transfer Catalog.JettonTransfer.pattern) := by
  have hF : lateMaster.WellFormed := by decide
  obtain ⟨htruncates, hpasses, hsweeps⟩ := smaller_cap_truncates Catalog.standard lateMaster hF
  have hfix : (ofForest Catalog.standard 2 lateMaster).fixpoint = true := by decide +kernel
  exact ⟨hF, by decide +kernel, by decide +kernel, htruncates 1 16 (by decide), hfix,
    (htruncates 2 16 (by decide)).same hfix, hpasses 16, by decide +kernel, hsweeps 1 0 _ rfl⟩

end Saturation
end TraceFold
