import TraceFold.Proofs.Forest.Sum
import TraceFold.Proofs.Matching.Choice
import TraceFold.Proofs.Merging.Transactions

/-!
# Merges that leave each other alone

An attempt looks at the bubbles from its place downwards (`fit_congr`), and what is put in place of
the claimed bubbles is made from these alone (`replacement_congr`).  So a merge comes to the same in
two forests as soon as it claims the same bubbles in both and these are the same
(`SameClaim.sameOutcome`), and apart from them it changes nothing (`get?_merge`).

If two merges claim different bubbles, and neither of them spoils the claim of the other, they can
be made in either order (`commute_of_sameClaim`).  The first reason for this is that neither of
their places lies below the other (`merges_commute`); then nothing else has to be known of the two
patterns.  Merges of one pattern that can be exchanged may be made in any order at all
(`mergeAll_perm`).
-/

namespace TraceFold

variable {α β : Type} {F G : Forest} {p : Pattern α} {q : Pattern β} {ps : List (Pattern α)}
  {c : Claims α} {ids ids' : List BubbleId} {a b id x : BubbleId}

/-! ## What an attempt looks at -/

/-- From `id` downwards the second forest has the bubbles of the first. -/
def Forest.SameBelow (F G : Forest) (id : BubbleId) : Prop :=
  ∀ x, F.Below id x → G.get? x = F.get? x

lemma Forest.SameBelow.child (h : F.SameBelow G id) (hx : x ∈ F.children id) : F.SameBelow G x :=
  fun y hy => h y (.of_child hx hy)

lemma Attempt.firstFitting_congr {fits fits' : BubbleId → Attempt α → Bool × Attempt α}
    (h : ∀ id ∈ ids, ∀ t, fits' id t = fits id t) (t : Attempt α) :
    t.firstFitting fits' ids = t.firstFitting fits ids := by
  induction ids generalizing t with
  | nil => rfl
  | cons id ids ih =>
    have ih := ih fun x hx => h x (List.mem_cons_of_mem id hx)
    rw [firstFitting, firstFitting, h id List.mem_cons_self t]
    simp only [ih]

namespace Pattern

lemma fitChildren_congr (h : ∀ r ∈ ps, ∀ id ∈ ids, ∀ t, r.fit G id t = r.fit F id t)
    (t : Attempt α) : fitChildren G ps ids t = fitChildren F ps ids t := by
  induction ps generalizing t with
  | nil => rw [fitChildren, fitChildren]
  | cons r ps ih =>
    have ih := ih fun s hs => h s (List.mem_cons_of_mem r hs)
    rw [fitChildren_cons, fitChildren_cons,
      Attempt.firstFitting_congr (h r List.mem_cons_self) t]
    simp only [ih]

/-- An attempt depends on what lies below its place. -/
theorem fit_congr (h : F.SameBelow G id) (t : Attempt α) : p.fit G id t = p.fit F id t := by
  induction p using children_induction generalizing id t with
  | step p ih =>
    have hid := h id (.refl F id)
    cases hb : F.get? id with
    | none => rw [fit_of_gone hb, fit_of_gone (hid.trans hb)]
    | some bubble =>
      have hchildren : fitChildren G p.children bubble.children t =
          fitChildren F p.children bubble.children t :=
        fitChildren_congr (fun r hr x hx t => ih r hr (h.child (Forest.children_eq hb ▸ hx)) t) t
      rw [fit_of_get? hb, fit_of_get? (hid.trans hb), hchildren]

lemma claim?_congr (h : F.SameBelow G id) : p.claim? G id = p.claim? F id := by
  rw [claim?, claim?, attempt, attempt, fit_congr h]

/-- What is claimed lies below the place of the attempt. -/
lemma below_of_mem_claimed (hF : F.WellFormed) (hx : x ∈ p.claimed F id) : F.Below id x := by
  obtain ⟨c, hclaim, hx⟩ := exists_claim?_of_mem_claimed hx
  exact (claim?_group hF hclaim).below hF hx

end Pattern

/-! ## What is made of the claimed bubbles -/

lemma Forest.below_congr {inside : BubbleId → Bool}
    (h : ∀ x, inside x = true → G.get? x = F.get? x) (n : Nat) (id : BubbleId) :
    G.below inside n id = F.below inside n id := by
  induction n generalizing id with
  | zero => rfl
  | succ n ih =>
    cases hin : inside id with
    | false => rw [below_of_outside hin, below_of_outside hin]
    | true =>
      cases hb : F.get? id with
      | none => simp only [below, hin, h id hin, hb]
      | some bubble =>
        rw [below_of_inside hin hb, below_of_inside hin ((h id hin).trans hb), funext ih]

lemma Forest.describe_congr (h : G.get? id = F.get? id) : G.describe id = F.describe id := by
  rw [describe, describe, h]

lemma Claims.build_congr (h : ∀ x ∈ ids, G.get? x = F.get? x) (draft : α) :
    c.build G ids draft = c.build F ids draft := by
  induction ids generalizing draft with
  | nil => rfl
  | cons id ids ih =>
    have ih := ih fun x hx => h x (List.mem_cons_of_mem id hx)
    have hat : c.buildAt G draft id = c.buildAt F draft id := by
      rw [buildAt, buildAt, h id List.mem_cons_self]
    rw [build_cons, build_cons, hat]
    simp only [ih]

namespace Pattern

/-- An attempt at `id` claims the same bubbles in both forests, and these are the same. -/
structure SameClaim (p : Pattern α) (F G : Forest) (id : BubbleId) : Prop where
  slots : G.slots.size = F.slots.size
  claim : p.claim? G id = p.claim? F id
  bubbles : ∀ x ∈ p.claimed F id, G.get? x = F.get? x

section Target

variable [Target α] [Target β]

/-- What is put in place of the claimed bubbles is made from these. -/
theorem replacement_congr (hF : F.WellFormed) (hclaim : p.claim? F id = some c)
    (hsize : G.slots.size = F.slots.size) (h : ∀ x ∈ c.bubbles, G.get? x = F.get? x) :
    replacement G id c = replacement F id c := by
  have hgroup := claim?_group hF hclaim
  have hregion : c.region G id = c.region F id := by
    rw [Claims.region, Claims.region, hsize]
    exact Forest.below_congr (fun x hx => h x ((inStep_of_claim? hclaim).contains_iff.1 hx)) _ _
  have hinOrder : c.inOrder G id = c.inOrder F id := by
    rw [Claims.inOrder, Claims.inOrder, hregion]
  have hkept : c.kept G id = c.kept F id := by rw [Claims.kept, Claims.kept, hregion]
  have hsame : ∀ x ∈ c.inOrder F id, G.get? x = F.get? x := fun x hx =>
    h x ((mem_inOrder hF hclaim).1 hx)
  have haccounts : ∀ x, G.get? x = F.get? x → G.accountsOf x = F.accountsOf x := fun x hx => by
    rw [Forest.accountsOf, Forest.accountsOf, hx]
  have hflow : ∀ x, G.get? x = F.get? x → G.flowOf x = F.flowOf x := fun x hx => by
    rw [Forest.flowOf, Forest.flowOf, hx]
  have hflows : ∀ flow : Flow,
      (c.inOrder F id).foldl (fun flow x => flow.merge (G.flowOf x)) flow =
        (c.inOrder F id).foldl (fun flow x => flow.merge (F.flowOf x)) flow := fun flow =>
    List.foldl_ext _ _ flow fun flow x hx => by rw [hflow x (hsame x hx)]
  have hroot := h id hgroup.root_mem
  unfold replacement
  simp only [hinOrder, hkept, Claims.build_congr hsame, haccounts id hroot, hflow id hroot,
    List.flatMap_congr fun x hx => haccounts x (hsame x hx), hflows]

/-! ## Merging in two forests -/

/-- A merge at `id` comes to the same in both forests. -/
structure SameOutcome (p : Pattern α) (F G : Forest) (id : BubbleId) : Prop where
  merged : (p.merge G id).merged = (p.merge F id).merged
  reports : Event.reports (p.merge G id).events = Event.reports (p.merge F id).events
  written : ∀ x ∈ p.claimed F id, (p.merge G id).forest.get? x = (p.merge F id).forest.get? x

/-- A merge depends on what it claims. -/
theorem SameClaim.sameOutcome (hF : F.WellFormed) (hG : G.WellFormed) (h : p.SameClaim F G id) :
    p.SameOutcome F G id := by
  have hmergeF := merge_eq p F id
  have hmergeG := merge_eq p G id
  have hclaims := h.claim
  cases hclaim : p.claim? F id with
  | none =>
    rw [hclaim] at hmergeF hclaims
    rw [hclaims] at hmergeG
    refine ⟨by rw [hmergeF, hmergeG], ?_, ?_⟩
    · rw [hmergeF, hmergeG, reports_lostEvents, reports_lostEvents]
    · rw [claimed, hclaim]
      exact fun x hx => by cases hx
  | some c =>
    rw [hclaim] at hclaims
    have hsame : ∀ x ∈ c.bubbles, G.get? x = F.get? x := claimed_eq hclaim ▸ h.bubbles
    have hreps := replacement_congr hF hclaim h.slots hsame
    cases hrep : replacement F id c with
    | ok bubble =>
      simp only [hclaim, hrep] at hmergeF
      simp only [hclaims, hreps, hrep] at hmergeG
      refine ⟨by rw [hmergeF, hmergeG], ?_, fun x hx => ?_⟩
      · simp only [hmergeF, hmergeG, Event.reports_append, reports_lostEvents]
      · rw [claimed_eq hclaim] at hx
        rw [hmergeF, hmergeG, get?_commit hF hclaim, get?_commit hG hclaims]
        simp only [hx, if_true]
    | error failure =>
      have hfailed := hsame failure.1
        ((mem_inOrder hF hclaim).1 (mem_of_replacement_eq_error hrep))
      simp only [hclaim, hrep] at hmergeF
      simp only [hclaims, hreps, hrep] at hmergeG
      refine ⟨by rw [hmergeF, hmergeG], ?_, fun x hx => ?_⟩
      · simp only [hmergeF, hmergeG, Event.reports_append, reports_lostEvents, failureReport,
          Forest.describe_congr hfailed]
      · rw [hmergeF, hmergeG]
        exact h.bubbles x hx

/-- A merge changes nothing, or draws together what it claims. -/
lemma unchanged_or_contracts (hF : F.WellFormed) (p : Pattern α) (id : BubbleId) :
    (p.merge F id).forest = F ∨ F.Contracts (p.merge F id).forest id (p.claimed F id) := by
  cases mergeCase p F id with
  | notFound _ hforest => exact .inl hforest
  | failed _ _ _ _ hforest => exact .inl hforest
  | success c bubble hclaim hrep hforest =>
    rw [hforest, claimed_eq hclaim]
    exact .inr (commit_contracts hF hclaim hrep)

lemma merge_slots (hF : F.WellFormed) (p : Pattern α) (id : BubbleId) :
    (p.merge F id).forest.slots.size = F.slots.size := by
  rcases unchanged_or_contracts hF p id with hsame | hcon
  · rw [hsame]
  · exact hcon.slots

lemma merge_roots (hF : F.WellFormed) (p : Pattern α) (id : BubbleId) :
    (p.merge F id).forest.roots = F.roots := by
  rcases unchanged_or_contracts hF p id with hsame | hcon
  · rw [hsame]
  · exact hcon.roots

/-- A merge leaves alone what it does not claim. -/
lemma get?_merge (hF : F.WellFormed) (hx : x ∉ p.claimed F id) :
    (p.merge F id).forest.get? x = F.get? x := by
  rcases unchanged_or_contracts hF p id with hsame | hcon
  · rw [hsame]
  · exact hcon.outside x hx

lemma contains_of_merge (hF : F.WellFormed) (hx : (p.merge F id).forest.contains x = true) :
    F.contains x = true := by
  rcases unchanged_or_contracts hF p id with hsame | hcon
  · rwa [hsame] at hx
  · exact (hcon.contains_iff.1 hx).1

/-! ## Merging at two places -/

/-- It makes no difference which of two merges is made first: the forest is the same in the end, and
each of them comes out as it does without the other before it, with the same reports. -/
structure Commute (p : Pattern α) (q : Pattern β) (F : Forest) (a b : BubbleId) : Prop where
  forest : (q.merge (p.merge F a).forest b).forest = (p.merge (q.merge F b).forest a).forest
  merged : (p.merge (q.merge F b).forest a).merged = (p.merge F a).merged
  merged' : (q.merge (p.merge F a).forest b).merged = (q.merge F b).merged
  reports : Event.reports (p.merge (q.merge F b).forest a).events =
    Event.reports (p.merge F a).events
  reports' : Event.reports (q.merge (p.merge F a).forest b).events =
    Event.reports (q.merge F b).events

/-- Merges that claim different bubbles commute if each leaves the claim of the other alone. -/
theorem commute_of_sameClaim (hF : F.WellFormed)
    (hp : p.SameClaim F (q.merge F b).forest a) (hq : q.SameClaim F (p.merge F a).forest b)
    (hapart : ∀ x ∈ p.claimed F a, x ∉ q.claimed F b) : Commute p q F a b := by
  have hFp := merge_wellFormed hF p a
  have hFq := merge_wellFormed hF q b
  have houtp := hp.sameOutcome hF hFq
  have houtq := hq.sameOutcome hF hFp
  have hclaimedp : p.claimed (q.merge F b).forest a = p.claimed F a := by
    rw [claimed, claimed, hp.claim]
  have hclaimedq : q.claimed (p.merge F a).forest b = q.claimed F b := by
    rw [claimed, claimed, hq.claim]
  refine ⟨Forest.eq_of_get? ?_ ?_ fun x _ => ?_, houtp.merged, houtq.merged, houtp.reports,
    houtq.reports⟩
  · simp only [merge_slots hFp, merge_slots hFq, merge_slots hF]
  · simp only [merge_roots hFp, merge_roots hFq, merge_roots hF]
  · -- A bubble is claimed by the first merge, by the second, or by neither.
    by_cases hxp : x ∈ p.claimed F a
    · have hxq := hapart x hxp
      rw [houtp.written x hxp, get?_merge hFp (hclaimedq ▸ hxq)]
    · rw [get?_merge hFq (hclaimedp ▸ hxp)]
      by_cases hxq : x ∈ q.claimed F b
      · exact houtq.written x hxq
      · rw [get?_merge hFp (hclaimedq ▸ hxq), get?_merge hF hxp, get?_merge hF hxq]

omit [Target α] in
/-- What lies below one place is not changed by a merge at a place above which it does not lie. -/
lemma sameClaim_merge (hF : F.WellFormed) (p : Pattern α) (q : Pattern β)
    (hab : ¬ F.Below a b) (hba : ¬ F.Below b a) : p.SameClaim F (q.merge F b).forest a := by
  have hsame : F.SameBelow (q.merge F b).forest a := by
    intro x hx
    refine get?_merge hF fun hclaimed => ?_
    rcases hF.below_or_below hx (below_of_mem_claimed hF hclaimed) with h | h
    · exact hab h
    · exact hba h
  exact ⟨merge_slots hF q b, claim?_congr hsame,
    fun x hx => hsame x (below_of_mem_claimed hF hx)⟩

/-- Merges at two places, neither of which is the other or lies below it, commute, whatever the
patterns. -/
theorem merges_commute (hF : F.WellFormed) (p : Pattern α) (q : Pattern β)
    (hab : ¬ F.Below a b) (hba : ¬ F.Below b a) : Commute p q F a b := by
  refine commute_of_sameClaim hF (sameClaim_merge hF p q hab hba) (sameClaim_merge hF q p hba hab)
    fun x hxp hxq => ?_
  rcases hF.below_or_below (below_of_mem_claimed hF hxp) (below_of_mem_claimed hF hxq) with h | h
  · exact hab h
  · exact hba h

/-! ## Merging at many places -/

/-- The forest after merging at some places, one after the other. -/
def mergeAll (p : Pattern α) (F : Forest) (ids : List BubbleId) : Forest :=
  ids.foldl (fun F id => (p.merge F id).forest) F

lemma merge_of_gone (hid : F.contains id = false) : (p.merge F id).forest = F := by
  have hclaim : p.claim? F id = none := by
    rw [claim?, attempt, fit_of_gone (Forest.contains_eq_false.1 hid)]; rfl
  rw [merge_eq, hclaim]

/-- Places without a live bubble may be left out. -/
lemma mergeAll_filter (hF : F.WellFormed) {keep : BubbleId → Bool}
    (hkeep : ∀ x, F.contains x = true → keep x = true) :
    p.mergeAll F (ids.filter keep) = p.mergeAll F ids := by
  induction ids generalizing F with
  | nil => rfl
  | cons id ids ih =>
    have hstep := ih (merge_wellFormed hF p id) fun x hx => hkeep x (contains_of_merge hF hx)
    cases hid : keep id with
    | true =>
      rw [List.filter_cons_of_pos hid]
      exact hstep
    | false =>
      have hgone : F.contains id = false := Bool.eq_false_iff.2 fun hlive => by
        rw [hkeep id hlive] at hid
        cases hid
      rw [merge_of_gone hgone] at hstep
      rw [List.filter_cons_of_neg (by rw [hid]; decide), hstep, mergeAll, mergeAll,
        List.foldl_cons, merge_of_gone hgone]

/-- If a pattern can be exchanged with itself at any two places, it can be applied to many places in
any order. -/
theorem mergeAll_perm
    (hcomm : ∀ F : Forest, F.WellFormed → ∀ a b, a ≠ b → Commute p p F a b)
    (hF : F.WellFormed) (h : ids.Perm ids') : p.mergeAll F ids = p.mergeAll F ids' := by
  induction h generalizing F with
  | nil => rfl
  | cons id _ ih => exact ih (merge_wellFormed hF p id)
  | swap a b ids =>
    by_cases hab : a = b
    · rw [hab]
    · have hswap := (hcomm F hF a b hab).forest
      simp only [mergeAll, List.foldl_cons, hswap]
  | trans _ _ ih ih' => exact (ih hF).trans (ih' hF)

end Target
end Pattern

open Forest Pattern in
/-- Two lookalikes next to each other each become one with their only child, in either order. -/
theorem Pattern.merges_commute_lookalikes : lookalikes.WellFormed ∧
    ¬ lookalikes.Below 1 3 ∧ ¬ lookalikes.Below 3 1 ∧
    (parentAndChild.merge lookalikes 1).merged = true ∧
    (parentAndChild.merge lookalikes 3).merged = true ∧
    Commute parentAndChild parentAndChild lookalikes 1 3 := by
  have hF : lookalikes.WellFormed := by decide
  have hab : ¬ lookalikes.Below 1 3 := fun h =>
    absurd (hF.eq_of_below_sibling (p := 0) (by decide) (by decide) h) (by decide)
  have hba : ¬ lookalikes.Below 3 1 := fun h => absurd (hF.le_of_below h) (by decide)
  exact ⟨hF, hab, hba, by decide, by decide, merges_commute hF _ _ hab hba⟩

end TraceFold
