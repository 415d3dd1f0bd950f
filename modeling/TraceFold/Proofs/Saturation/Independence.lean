import Mathlib.Algebra.Ring.Nat
import TraceFold.Proofs.Merging.Placement
import TraceFold.Proofs.Saturation.Quiet
import TraceFold.Proofs.Trace.Layout

/-!
# Runs over independent roots

The roots of a trace share one arena, one list of failed attempts, one counter of merges and one
stop condition.  None of this makes a difference to what is found below any of them, provided the
rules look at payloads only.

A visit in one part of the arena mirrors the visit in a run over that part alone and leaves the
rest as it is (`visit_mirrors`).  So a run over two forests side by side and the runs over each of
them stay in step (`Joint`), visit by visit, sweep by sweep and pass by pass.  That one of them may
have stopped earlier does not matter, since it would show nothing more (`Saturation.shows_steps`).
-/

namespace TraceFold

variable {F G : Forest} {rules : Rules} {rule : AnyRule} {r r' r₁ r₂ v v' : Run}
  {s s₁ s₂ : Saturation} {index n o x y : Nat}

namespace Run

/-! ## A visit in one part of an arena -/

/-- The part of a run from slot `o` on is another run, with the names raised. -/
structure Hosts (r : Run) (o : Nat) (r' : Run) : Prop where
  forest : r.forest.Hosts o r'.forest
  failed : ∀ index, ∀ x < r'.forest.slots.size,
    (index, x + o) ∈ r.failed ↔ (index, x) ∈ r'.failed

/-- The name is outside the part that begins at `o` and has so many slots. -/
def Outside (o size y : Nat) : Prop := ∀ z < size, y ≠ z + o

/-- From `r` to `v` and from `r'` to `v'` the same happened, in the part of `r` that is `r'`, and
nothing outside of it. -/
structure Mirrors (r r' : Run) (o : Nat) (v v' : Run) : Prop where
  hosts : v.Hosts o v'
  slots : v.forest.slots.size = r.forest.slots.size
  slots' : v'.forest.slots.size = r'.forest.slots.size
  roots : v.forest.roots = r.forest.roots
  roots' : v'.forest.roots = r'.forest.roots
  frame : ∀ y, Outside o r'.forest.slots.size y → v.forest.get? y = r.forest.get? y
  frame_failed : ∀ index y, Outside o r'.forest.slots.size y →
    ((index, y) ∈ v.failed ↔ (index, y) ∈ r.failed)
  log : ∃ k es, v.counts.merged = r.counts.merged + k ∧
    v'.counts.merged = r'.counts.merged + k ∧
    Event.reports v.events = Event.reports r.events ++ es ∧
    Event.reports v'.events = Event.reports r'.events ++ es

lemma Mirrors.refl (h : r.Hosts o r') : Mirrors r r' o r r' where
  hosts := h
  slots := rfl
  slots' := rfl
  roots := rfl
  roots' := rfl
  frame := fun _ _ => rfl
  frame_failed := fun _ _ _ => Iff.rfl
  log := ⟨0, [], rfl, rfl, (List.append_nil _).symm, (List.append_nil _).symm⟩

/-- A visit in a hosted part mirrors the visit in the run that the part is. -/
theorem visit_mirrors (h : r.Hosts o r') (hF : r.forest.WellFormed)
    (hG : r'.forest.WellFormed) (hrule : rule.ReadsPayload) (hx : x < r'.forest.slots.size) :
    Mirrors r r' o (r.visit index rule (x + o)) (r'.visit index rule x) := by
  have hasked : (r.forest.contains (x + o) && !r.failed.contains (index, x + o)) =
      (r'.forest.contains x && !r'.failed.contains (index, x)) := by
    rw [h.forest.contains_add hx]
    congr 2
    rw [Bool.eq_iff_iff, List.contains_iff_mem, List.contains_iff_mem]
    exact h.failed index x hx
  have hstep := AnyRule.merge_hosted h.forest hF hG hrule hx
  have hreported : (rule.merge r.forest (x + o)).reported = (rule.merge r'.forest x).reported := by
    rw [MergeStep.reported_eq, MergeStep.reported_eq, hstep.reports]
  unfold visit
  rw [hasked]
  split
  · dsimp only
    rw [hstep.merged, hreported]
    refine ⟨⟨hstep.hosts, ?_⟩, hstep.slots, hstep.slots', hstep.roots, hstep.roots',
      hstep.frame, ?_, (rule.merge r'.forest x).merged.toNat,
      Event.reports (rule.merge r'.forest x).events, rfl, rfl, ?_, ?_⟩
    · intro i y hy
      rw [show (rule.merge r'.forest x).forest.slots.size = _ from hstep.slots'] at hy
      dsimp only
      split
      · rw [List.mem_cons, List.mem_cons, h.failed i y hy]
        simp
      · exact h.failed i y hy
    · intro i y hy
      dsimp only
      split
      · rw [List.mem_cons]
        refine or_iff_right fun heq => ?_
        exact hy x hx (Prod.mk.inj heq).2
      · exact Iff.rfl
    · rw [Event.reports_append, hstep.reports]
    · rw [Event.reports_append]
  · exact .refl h

/-- What another part hosts is not touched. -/
lemma Mirrors.hosts_outside (h : Mirrors r r' o v v') {o₂ : Nat} (h₂ : r.Hosts o₂ r₂)
    (hout : ∀ y < r₂.forest.slots.size, Outside o r'.forest.slots.size (y + o₂)) :
    v.Hosts o₂ r₂ where
  forest := {
    room := by rw [h.slots]; exact h₂.forest.room
    slot := fun y hy => (h.frame _ (hout y hy)).trans (h₂.forest.slot y hy) }
  failed := fun i y hy => (h.frame_failed i _ (hout y hy)).trans (h₂.failed i y hy)

/-! ## Two parts side by side -/

/-- A run that is made of two, the first of which has `n` slots. -/
structure Joint (n : Nat) (r r₁ r₂ : Run) : Prop where
  left : r.Hosts 0 r₁
  right : r.Hosts n r₂
  slots : r.forest.slots.size = n + r₂.forest.slots.size
  slots₁ : r₁.forest.slots.size = n
  roots : r.forest.roots = r₁.forest.roots ++ r₂.forest.roots.map (· + n)
  wellFormed : r.forest.WellFormed
  wellFormed₁ : r₁.forest.WellFormed
  wellFormed₂ : r₂.forest.WellFormed
  merged : r.counts.merged = r₁.counts.merged + r₂.counts.merged
  reports : (Event.reports r.events).Perm (Event.reports r₁.events ++ Event.reports r₂.events)

namespace Joint

lemma forest (h : Joint n r r₁ r₂) : r.forest = r₁.forest.append r₂.forest := by
  obtain rfl := h.slots₁
  exact Forest.eq_append h.slots h.roots h.left.forest h.right.forest

lemma visit_left (h : Joint n r r₁ r₂) (hrule : rule.ReadsPayload) (hx : x < n) :
    Joint n (r.visit index rule x) (r₁.visit index rule x) r₂ := by
  have hmirrors : Mirrors r r₁ 0 (r.visit index rule x) (r₁.visit index rule x) :=
    visit_mirrors h.left h.wellFormed h.wellFormed₁ hrule (h.slots₁.symm ▸ hx)
  obtain ⟨k, es, hk, hk₁, hes, hes₁⟩ := hmirrors.log
  refine ⟨hmirrors.hosts, hmirrors.hosts_outside h.right ?_, ?_, ?_, ?_,
    visit_wellFormed h.wellFormed index rule x, visit_wellFormed h.wellFormed₁ index rule x,
    h.wellFormed₂, ?_, ?_⟩
  · intro y _ z hz
    rw [h.slots₁] at hz
    omega
  · rw [hmirrors.slots, h.slots]
  · rw [hmirrors.slots', h.slots₁]
  · rw [hmirrors.roots, hmirrors.roots', h.roots]
  · rw [hk, hk₁, h.merged]
    omega
  · rw [hes, hes₁, List.append_assoc]
    refine (h.reports.append_right es).trans ?_
    rw [List.append_assoc]
    exact List.perm_append_comm.append_left _

lemma visit_right (h : Joint n r r₁ r₂) (hrule : rule.ReadsPayload)
    (hx : x < r₂.forest.slots.size) :
    Joint n (r.visit index rule (x + n)) r₁ (r₂.visit index rule x) := by
  have hmirrors : Mirrors r r₂ n (r.visit index rule (x + n)) (r₂.visit index rule x) :=
    visit_mirrors h.right h.wellFormed h.wellFormed₂ hrule hx
  obtain ⟨k, es, hk, hk₂, hes, hes₂⟩ := hmirrors.log
  refine ⟨hmirrors.hosts_outside h.left ?_, hmirrors.hosts, ?_, h.slots₁, ?_,
    visit_wellFormed h.wellFormed index rule (x + n), h.wellFormed₁,
    visit_wellFormed h.wellFormed₂ index rule x, ?_, ?_⟩
  · intro y hy z _
    rw [h.slots₁] at hy
    omega
  · rw [hmirrors.slots, hmirrors.slots', h.slots]
  · rw [hmirrors.roots, hmirrors.roots', h.roots]
  · rw [hk, hk₂, h.merged]
    omega
  · rw [hes, hes₂, ← List.append_assoc]
    exact h.reports.append_right es

lemma visits_left (hrule : rule.ReadsPayload) {ids : List BubbleId} (hids : ∀ x ∈ ids, x < n)
    (h : Joint n r r₁ r₂) :
    Joint n (ids.foldl (visit index rule) r) (ids.foldl (visit index rule) r₁) r₂ := by
  induction ids generalizing r r₁ with
  | nil => exact h
  | cons x ids ih =>
    exact ih (fun y hy => hids y (List.mem_cons_of_mem x hy))
      (h.visit_left hrule (hids x List.mem_cons_self))

lemma visits_right (hrule : rule.ReadsPayload) {ids : List BubbleId}
    (hids : ∀ x ∈ ids, x < r₂.forest.slots.size) (h : Joint n r r₁ r₂) :
    Joint n ((ids.map (· + n)).foldl (visit index rule) r) r₁
      (ids.foldl (visit index rule) r₂) := by
  induction ids generalizing r r₂ with
  | nil => exact h
  | cons x ids ih =>
    refine ih (fun y hy => ?_) (h.visit_right hrule (hids x List.mem_cons_self))
    rw [visit_slots h.wellFormed₂]
    exact hids y (List.mem_cons_of_mem x hy)

lemma silent (h : Joint n r r₁ r₂) {w w₁ w₂ : Run} (hw : Silent r w) (hw₁ : Silent r₁ w₁)
    (hw₂ : Silent r₂ w₂) : Joint n w w₁ w₂ where
  left := ⟨by rw [hw.forest, hw₁.forest]; exact h.left.forest, by
    rw [hw₁.forest, hw.failed, hw₁.failed]; exact h.left.failed⟩
  right := ⟨by rw [hw.forest, hw₂.forest]; exact h.right.forest, by
    rw [hw₂.forest, hw.failed, hw₂.failed]; exact h.right.failed⟩
  slots := by rw [hw.forest, hw₂.forest, h.slots]
  slots₁ := by rw [hw₁.forest, h.slots₁]
  roots := by rw [hw.forest, hw₁.forest, hw₂.forest, h.roots]
  wellFormed := by rw [hw.forest]; exact h.wellFormed
  wellFormed₁ := by rw [hw₁.forest]; exact h.wellFormed₁
  wellFormed₂ := by rw [hw₂.forest]; exact h.wellFormed₂
  merged := by rw [hw.merged, hw₁.merged, hw₂.merged, h.merged]
  reports := by rw [hw.reports, hw₁.reports, hw₂.reports]; exact h.reports

/-- All three begin to count again. -/
lemma recount (h : Joint n r r₁ r₂) : Joint n { r with counts := ⟨0, 0, 0⟩ }
    { r₁ with counts := ⟨0, 0, 0⟩ } { r₂ with counts := ⟨0, 0, 0⟩ } where
  left := ⟨h.left.forest, h.left.failed⟩
  right := ⟨h.right.forest, h.right.failed⟩
  slots := h.slots
  slots₁ := h.slots₁
  roots := h.roots
  wellFormed := h.wellFormed
  wellFormed₁ := h.wellFormed₁
  wellFormed₂ := h.wellFormed₂
  merged := rfl
  reports := h.reports

/-- A sweep goes through one part and then through the other. -/
lemma sweep (h : Joint n r r₁ r₂) (index : Nat) (hrule : rule.ReadsPayload) :
    Joint n (r.sweep index rule) (r₁.sweep index rule) (r₂.sweep index rule) := by
  have horder : r.forest.postOrder =
      r₁.forest.postOrder ++ r₂.forest.postOrder.map (· + n) := by
    rw [h.forest, Forest.postOrder_append h.wellFormed₁ h.wellFormed₂, h.slots₁]
  have hleft : ∀ x ∈ r₁.forest.postOrder, x < n := fun x hx =>
    h.slots₁ ▸ Forest.lt_size_of_contains (h.wellFormed₁.mem_postOrder.1 hx)
  have hright : ∀ x ∈ r₂.forest.postOrder, x < r₂.forest.slots.size := fun x hx =>
    Forest.lt_size_of_contains (h.wellFormed₂.mem_postOrder.1 hx)
  have hvisits : Joint n (r.forest.postOrder.foldl (visit index rule) r)
      (r₁.forest.postOrder.foldl (visit index rule) r₁)
      (r₂.forest.postOrder.foldl (visit index rule) r₂) := by
    rw [horder, List.foldl_append]
    exact (h.visits_left hrule hleft).visits_right hrule hright
  exact hvisits.silent (sweep_silent r index rule) (sweep_silent r₁ index rule)
    (sweep_silent r₂ index rule)

lemma sweeps (entries : List (AnyRule × Nat)) (hentries : ∀ e ∈ entries, e.1.ReadsPayload)
    (h : Joint n r r₁ r₂) : Joint n (entries.foldl (fun r e => r.sweep e.2 e.1) r)
      (entries.foldl (fun r e => r.sweep e.2 e.1) r₁)
      (entries.foldl (fun r e => r.sweep e.2 e.1) r₂) := by
  induction entries generalizing r r₁ r₂ with
  | nil => exact h
  | cons e entries ih =>
    exact ih (fun d hd => hentries d (List.mem_cons_of_mem e hd))
      (h.sweep e.2 (hentries e List.mem_cons_self))

theorem pass (hrules : ∀ rule ∈ rules, rule.ReadsPayload) (h : Joint n r r₁ r₂) :
    Joint n (r.pass rules) (r₁.pass rules) (r₂.pass rules) := by
  unfold Run.pass
  apply sweeps
  · intro e he
    exact hrules e.1 (List.mem_of_getElem? (getElem?_of_mem_zipIdx he))
  · exact h.recount

lemma start (hF : F.WellFormed) (hG : G.WellFormed) (hFG : (F.append G).WellFormed) :
    Joint F.slots.size (.start (F.append G)) (.start F) (.start G) where
  left := ⟨Forest.hosts_append_left F G, fun _ _ _ => by simp [Run.start]⟩
  right := ⟨Forest.hosts_append_right F G, fun _ _ _ => by simp [Run.start]⟩
  slots := Forest.size_append F G
  slots₁ := rfl
  roots := rfl
  wellFormed := hFG
  wellFormed₁ := hF
  wellFormed₂ := hG
  merged := rfl
  reports := List.Perm.refl _

end Joint
end Run

namespace Saturation

/-! ## Whole runs -/

/-- The run does what two others do together. -/
structure Joint (n : Nat) (s s₁ s₂ : Saturation) : Prop where
  run : Run.Joint n s.run s₁.run s₂.run
  length₁ : s₁.passes.length = s.passes.length
  length₂ : s₂.passes.length = s.passes.length
  mergedIn : ∀ k, s.mergedIn k = s₁.mergedIn k + s₂.mergedIn k
  fixpoint : s.fixpoint = (s₁.fixpoint && s₂.fixpoint)

lemma Joint.step (hrules : ∀ rule ∈ rules, rule.ReadsPayload) (h : Joint n s s₁ s₂) :
    Joint n (s.step rules) (s₁.step rules) (s₂.step rules) := by
  have hpass := h.run.pass hrules
  refine ⟨?_, ?_, ?_, fun k => ?_, ?_⟩
  · exact hpass.silent (step_silent rules s) (step_silent rules s₁) (step_silent rules s₂)
  · simp [Saturation.step, h.length₁]
  · simp [Saturation.step, h.length₂]
  · rw [mergedIn_step, mergedIn_step, mergedIn_step, h.length₁, h.length₂]
    split
    · exact hpass.merged
    · exact h.mergedIn k
  · rw [Bool.eq_iff_iff, Bool.and_eq_true, step_fixpoint, step_fixpoint, step_fixpoint,
      hpass.merged]
    omega

lemma joint_iterate (hrules : ∀ rule ∈ rules, rule.ReadsPayload) (hF : F.WellFormed)
    (hG : G.WellFormed) (hFG : (F.append G).WellFormed) (n : Nat) :
    Joint F.slots.size ((step rules)^[n] (start (F.append G))) ((step rules)^[n] (start F))
      ((step rules)^[n] (start G)) := by
  induction n with
  | zero => exact ⟨.start hF hG hFG, rfl, rfl, fun _ => rfl, rfl⟩
  | succ n ih =>
    rw [Function.iterate_succ_apply', Function.iterate_succ_apply', Function.iterate_succ_apply']
    exact ih.step hrules

/-- The run shows what the others show together: the actions one after the other, the merges of
each pass in sum, a fixpoint if all have come to one, and the reports in some order. -/
structure Combines (s : Saturation) (parts : List Saturation) : Prop where
  actions : s.actions = parts.flatMap Saturation.actions
  mergedIn : ∀ k, s.mergedIn k = (parts.map (·.mergedIn k)).sum
  fixpoint : s.fixpoint = true ↔ ∀ part ∈ parts, part.fixpoint = true
  reports : s.reports.Perm (parts.flatMap Saturation.reports)

lemma Combines.refl (s : Saturation) : Combines s [s] := by
  refine ⟨?_, fun k => ?_, ?_, ?_⟩
  · rw [List.flatMap_singleton]
  · simp
  · simp
  · rw [List.flatMap_singleton]

lemma Combines.cons {parts : List Saturation} (h : Combines s [s₁, s₂])
    (h₂ : Combines s₂ parts) : Combines s (s₁ :: parts) := by
  obtain ⟨hactions, hmerged, hfix, hreports⟩ := h
  refine ⟨?_, fun k => ?_, ?_, ?_⟩
  · rw [hactions, List.flatMap_cons, List.flatMap_singleton, h₂.actions, List.flatMap_cons]
  · rw [hmerged]
    simp [h₂.mergedIn k]
  · rw [hfix]
    simp [h₂.fixpoint]
  · rw [List.flatMap_cons, List.flatMap_singleton] at hreports
    exact hreports.trans (h₂.reports.append_left _)

/-- A run over two forests side by side. -/
theorem combines_append (hrules : ∀ rule ∈ rules, rule.ReadsPayload) (hF : F.WellFormed)
    (hG : G.WellFormed) (hFG : (F.append G).WellFormed) (n : Nat) :
    Combines (ofForest rules n (F.append G)) [ofForest rules n F, ofForest rules n G] := by
  have hjoint := joint_iterate hrules hF hG hFG n
  have hshows := shows_ofForest hFG rules n
  have hshows₁ := shows_ofForest hF rules n
  have hshows₂ := shows_ofForest hG rules n
  refine ⟨?_, fun k => ?_, ?_, ?_⟩
  · have hforest := hjoint.run.forest
    rw [List.flatMap_cons, List.flatMap_singleton]
    unfold Saturation.actions
    rw [hshows.forest, hshows₁.forest, hshows₂.forest]
    refine (congrArg Forest.actions hforest).trans ?_
    exact Forest.actions_append hjoint.run.wellFormed₁ hjoint.run.wellFormed₂
  · rw [hshows.mergedIn, hjoint.mergedIn]
    simp [hshows₁.mergedIn, hshows₂.mergedIn]
  · rw [hshows.fixpoint, hjoint.fixpoint, Bool.and_eq_true]
    simp [hshows₁.fixpoint, hshows₂.fixpoint]
  · rw [List.flatMap_cons, List.flatMap_singleton, hshows.reports, hshows₁.reports,
      hshows₂.reports]
    exact hjoint.run.reports

/-- A run over the roots of a trace. -/
theorem combines_layoutAll (hrules : ∀ rule ∈ rules, rule.ReadsPayload) (n : Nat)
    (roots : List TraceNode) (hroots : roots ≠ []) :
    Combines (ofForest rules n (Forest.layoutAll roots))
      (roots.map fun root => ofForest rules n (Forest.layout root)) := by
  induction roots with
  | nil => exact absurd rfl hroots
  | cons root rest ih =>
    cases rest with
    | nil =>
      rw [Forest.layoutAll_singleton]
      exact .refl _
    | cons next rest =>
      have hall := Forest.wellFormed_layoutAll (root :: next :: rest)
      rw [Forest.layoutAll] at hall ⊢
      have happend := combines_append hrules (Forest.wellFormed_layout root)
        (Forest.wellFormed_layoutAll (next :: rest)) hall n
      exact happend.cons (ih (by simp))

/-- Independent roots do not influence each other, if the rules look at payloads only, as all checks
of the vocabulary and all rules of the standard catalog do: a run over a trace shows what the runs
over its roots show together. -/
theorem independent_roots :
    (∀ check : Check, check.Vocabulary → Bubble.ReadsPayload check) ∧
    (∀ rule ∈ Catalog.standard, rule.ReadsPayload) ∧
    ∀ roots : List TraceNode, roots ≠ [] → ∃ F parts, Forest.ofNodes roots = .ok F ∧
      List.Forall₂ (fun root part => Forest.ofNodes [root] = .ok part) roots parts ∧
      ∀ rules : Rules, (∀ rule ∈ rules, rule.ReadsPayload) → ∀ n,
        Combines (ofForest rules n F) (parts.map (ofForest rules n)) := by
  refine ⟨fun _ h => h.readsPayload, Catalog.standard_readsPayload, fun roots hroots => ?_⟩
  refine ⟨Forest.layoutAll roots, roots.map Forest.layout, Forest.ofNodes_eq_layoutAll hroots,
    ?_, fun rules hrules n => ?_⟩
  · rw [List.forall₂_map_right_iff, List.forall₂_same]
    intro root _
    rw [Forest.ofNodes_eq_layoutAll (by simp), Forest.layoutAll_singleton]
  · rw [List.map_map]
    exact combines_layoutAll hrules n roots hroots

/-- In each of two equal roots a transfer fails and a mint is found. -/
theorem independent_roots_lateMaster : [lateMasterNode, lateMasterNode] ≠ [] ∧
    (∀ rule ∈ Catalog.standard, rule.ReadsPayload) ∧
    (ofForest Catalog.standard 16
      (Forest.empty.graftAll none [lateMasterNode, lateMasterNode])).passes.map
        PassCounts.merged = [2, 0] ∧
    ∃ F parts, Forest.ofNodes [lateMasterNode, lateMasterNode] = .ok F ∧
      List.Forall₂ (fun root part => Forest.ofNodes [root] = .ok part)
        [lateMasterNode, lateMasterNode] parts ∧
      Combines (ofForest Catalog.standard 16 F) (parts.map (ofForest Catalog.standard 16)) := by
  obtain ⟨-, hstandard, hroots⟩ := independent_roots
  have hne : [lateMasterNode, lateMasterNode] ≠ [] := by simp
  obtain ⟨F, parts, hload, hparts, hruns⟩ := hroots _ hne
  exact ⟨hne, hstandard, by decide +kernel, F, parts, hload, hparts,
    hruns Catalog.standard hstandard 16⟩

end Saturation
end TraceFold
