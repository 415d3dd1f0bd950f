import TraceFold.Proofs.Catalog.Blindness
import TraceFold.Proofs.Matching.Acceptance

/-!
# Merging without looking at what is carried along

Two forests agree (`Forest.Agree`) if they have the same shape and payloads that agree.  A merge of
a blind pattern comes out the same in both: the pattern takes the same bubbles (`claim?_agree`), the
builders leave drafts that agree or fail at the same bubble (`build_agree`), and the forests that
come of it agree again (`merge_agree`), although the accounts and flows that are put together on the
way may have nothing in common.
-/

namespace TraceFold

variable {α : Type} {F G : Forest} {p : Pattern α} {ps : List (Pattern α)} {c : Claims α}
  {b b' : Bubble} {ids : List BubbleId} {root id : BubbleId} {n : Nat}

/-- The bubbles have the same children and payloads that agree. -/
structure Bubble.Agree (b b' : Bubble) : Prop where
  children : b.children = b'.children
  payload : b.payload.Agree b'.payload

namespace Forest

/-- The same names are live in both forests, with the same children, and with payloads that agree.
Nothing is said of accounts and flows, nor of slots that are empty. -/
structure Agree (F G : Forest) : Prop where
  roots : F.roots = G.roots
  live : ∀ id, F.contains id = G.contains id
  children : ∀ id, F.children id = G.children id
  payload : ∀ id b b', F.get? id = some b → G.get? id = some b' → b.payload.Agree b'.payload

namespace Agree

lemma get?_eq_none (h : F.Agree G) (hid : F.get? id = none) : G.get? id = none := by
  rw [← contains_eq_false, ← h.live, contains_eq_false, hid]

/-- A live bubble has a counterpart. -/
lemma get?_eq_some (h : F.Agree G) (hb : F.get? id = some b) :
    ∃ b', G.get? id = some b' ∧ b.Agree b' := by
  have hlive : G.contains id = true := by
    rw [← h.live]
    exact contains_of_get? hb
  obtain ⟨b', hb'⟩ := contains_iff.1 hlive
  refine ⟨b', hb', ?_, h.payload id b b' hb hb'⟩
  rw [← children_eq hb, h.children, children_eq hb']

lemma get? (h : F.Agree G) (id : BubbleId) : Option.Rel Bubble.Agree (F.get? id) (G.get? id) := by
  cases hb : F.get? id with
  | none => rw [h.get?_eq_none hb]; exact .none
  | some b =>
    obtain ⟨b', hb', hagree⟩ := h.get?_eq_some hb
    rw [hb']
    exact .some hagree

/-- It is enough to compare the bubbles one by one. -/
lemma of_get? (hroots : F.roots = G.roots)
    (hget : ∀ id, Option.Rel Bubble.Agree (F.get? id) (G.get? id)) : F.Agree G where
  roots := hroots
  live := by
    intro id
    have hrel := hget id
    unfold contains
    generalize F.get? id = left at hrel ⊢
    generalize G.get? id = right at hrel ⊢
    cases hrel <;> rfl
  children := by
    intro id
    have hrel := hget id
    unfold Forest.children
    generalize F.get? id = left at hrel ⊢
    generalize G.get? id = right at hrel ⊢
    cases hrel with
    | none => rfl
    | some hagree => exact hagree.children
  payload := by
    intro id b b' hb hb'
    have hrel := hget id
    rw [hb, hb'] at hrel
    cases hrel with
    | some hagree => exact hagree.payload

/-- Being well-formed is a matter of the shape. -/
lemma wellFormed (h : F.Agree G) (hF : F.WellFormed) : G.WellFormed := by
  have hlive : F.contains = G.contains := funext h.live
  have hchildren : F.children = G.children := funext h.children
  obtain ⟨hroots_live, hchildren_live, hlisted, hlt⟩ := hF
  unfold ListedOnce at hlisted
  rw [hlive, h.roots] at hroots_live
  rw [hlive, hchildren] at hchildren_live
  rw [hlive, h.roots, hchildren] at hlisted
  rw [hchildren] at hlt
  exact ⟨hroots_live, hchildren_live, hlisted, hlt⟩

/-! ## Walks -/

lemma walk (h : F.Agree G) (early : Bool) (n : Nat) (id : BubbleId) :
    F.walk early n id = G.walk early n id := by
  induction n generalizing id with
  | zero => cases early <;> rfl
  | succ n ih =>
    cases hb : F.get? id with
    | none => rw [walk_of_gone hb, walk_of_gone (h.get?_eq_none hb)]
    | some b =>
      obtain ⟨b', hb', hagree⟩ := h.get?_eq_some hb
      rw [walk_succ hb, walk_succ hb', hagree.children, funext ih]

/-- Arenas of different sizes make no difference to a walk, since neither is too small. -/
lemma walks (h : F.Agree G) (hF : F.WellFormed) (early : Bool) :
    F.roots.flatMap (F.walk early F.slots.size) = G.roots.flatMap (G.walk early G.slots.size) := by
  have hG := h.wellFormed hF
  rw [h.roots]
  refine List.flatMap_congr fun id hid => ?_
  have hlive := hG.roots_live id hid
  have hlive' : F.contains id = true := by rw [h.live, hlive]
  have hF' : F.walk early (F.slots.size + G.slots.size) id = F.walk early F.slots.size id :=
    hF.walk_levels hlive' (Nat.le_add_right _ id) _ (by omega)
  have hG' : G.walk early (F.slots.size + G.slots.size) id = G.walk early G.slots.size id :=
    hG.walk_levels hlive (Nat.le_add_right _ id) _ (by omega)
  rw [← hF', ← hG', h.walk]

lemma preOrder (h : F.Agree G) (hF : F.WellFormed) :
    F.preOrder = G.preOrder := h.walks hF true

lemma postOrder (h : F.Agree G) (hF : F.WellFormed) :
    F.postOrder = G.postOrder := h.walks hF false

lemma hanging (h : F.Agree G) (hF : F.WellFormed) (K : List BubbleId) :
    F.hanging K = G.hanging K := by
  unfold Forest.hanging
  simp only [h.preOrder hF, h.children]

/-- The actions are the same in the same order. -/
lemma actions (h : F.Agree G) (hF : F.WellFormed) :
    F.actions = G.actions := by
  unfold Forest.actions
  rw [h.preOrder hF]
  refine List.filterMap_congr fun id _ => ?_
  cases hb : F.get? id with
  | none => rw [h.get?_eq_none hb]
  | some b =>
    obtain ⟨b', hb', hagree⟩ := h.get?_eq_some hb
    rw [hb']
    exact hagree.payload.action?

end Agree
end Forest

/-! ## Claiming -/

namespace Pattern

variable [Target α]

lemma accepts_agree (hp : p.Blind) (h : b.payload.Agree b'.payload) :
    p.accepts b = p.accepts b' := by
  obtain ⟨hchecks, -, -⟩ := hp
  unfold accepts
  rw [Bool.eq_iff_iff, List.all_eq_true, List.all_eq_true]
  exact forall₂_congr fun check hcheck => by rw [hchecks check hcheck b b' h]

omit [Target α] in
lemma greedyChildren_congr (hps : ∀ q ∈ ps, q.greedy F = q.greedy G) (taken : List BubbleId) :
    greedyChildren F ps ids taken = greedyChildren G ps ids taken := by
  induction ps generalizing taken with
  | nil => rw [greedyChildren, greedyChildren]
  | cons p ps ih =>
    have ih := ih fun q hq => hps q (List.mem_cons_of_mem p hq)
    rw [greedyChildren, greedyChildren, hps p List.mem_cons_self]
    simp only [ih]

/-- A blind pattern makes the same choice in forests that agree. -/
theorem greedy_agree (h : F.Agree G) (hp : p.Blind) : p.greedy F = p.greedy G := by
  induction p using children_induction with
  | step p ih =>
    funext id
    cases hb : F.get? id with
    | none => rw [greedy_of_gone hb, greedy_of_gone (h.get?_eq_none hb)]
    | some b =>
      obtain ⟨b', hb', hagree⟩ := h.get?_eq_some hb
      have haccepts := accepts_agree hp hagree.payload
      obtain ⟨-, -, hps⟩ := hp
      rw [greedy_of_get? hb, greedy_of_get? hb', haccepts, hagree.children,
        greedyChildren_congr fun q hq => ih q hq (hps q hq)]

theorem claim?_agree (h : F.Agree G) (hF : F.WellFormed) (hp : p.Blind) :
    p.claim? F id = p.claim? G id := by
  rw [claim?_eq_greedy hF, claim?_eq_greedy (h.wellFormed hF), greedy_agree h hp]

lemma Blind.sub {q : Pattern α} (hp : p.Blind) (h : p.Sub q) : q.Blind := by
  induction h with
  | refl => exact hp
  | tail _ hchild ih =>
    obtain ⟨-, -, hchildren⟩ := ih
    exact hchildren _ hchild

/-- Whatever a blind pattern claims is built from by blind builders. -/
lemma builder?_blind (hF : F.WellFormed) (hp : p.Blind) (hclaim : p.claim? F root = some c)
    {build : Builder α} (hbuild : c.builder? id = some build) : build.Blind := by
  obtain ⟨q, hq, hqbuild⟩ := Option.bind_eq_some_iff.1 hbuild
  obtain ⟨-, hbuilder, -⟩ := hp.sub (accepts_of_get? hF hclaim hq).1
  exact hbuilder build hqbuild

end Pattern

/-! ## Building -/

/-- Both end with the same failure, or both with values that are related. -/
inductive SameOutcome {ε β : Type} (R : β → β → Prop) : Except ε β → Except ε β → Prop
  | ok {v v' : β} (h : R v v') : SameOutcome R (.ok v) (.ok v')
  | error (e : ε) : SameOutcome R (.error e) (.error e)

namespace Claims

variable [Target α] {d d' : α}

lemma buildAt_agree (h : F.Agree G) (hc : ∀ build, c.builder? id = some build → build.Blind)
    (hd : (Target.payload d).Agree (Target.payload d')) :
    (Target.payload (c.buildAt F d id).1).Agree (Target.payload (c.buildAt G d' id).1) ∧
      (c.buildAt F d id).2 = (c.buildAt G d' id).2 := by
  unfold buildAt
  cases hbuild : c.builder? id with
  | none => exact ⟨hd, rfl⟩
  | some build =>
    cases hb : F.get? id with
    | none =>
      rw [h.get?_eq_none hb]
      exact ⟨hd, rfl⟩
    | some b =>
      obtain ⟨b', hb', hagree⟩ := h.get?_eq_some hb
      rw [hb']
      exact hc build hbuild d d' b b' hd hagree.payload

/-- Blind builders go on from drafts that agree to drafts that agree, or fail at the same bubble. -/
lemma build_agree (h : F.Agree G) (hc : ∀ id build, c.builder? id = some build → build.Blind)
    (ids : List BubbleId) (hd : (Target.payload d).Agree (Target.payload d')) :
    SameOutcome (fun d d' => (Target.payload d).Agree (Target.payload d')) (c.build F ids d)
      (c.build G ids d') := by
  induction ids generalizing d d' with
  | nil => exact .ok hd
  | cons id ids ih =>
    have hat := buildAt_agree h (hc id) hd
    rw [build_cons, build_cons]
    generalize c.buildAt F d id = left at hat ⊢
    generalize c.buildAt G d' id = right at hat ⊢
    obtain ⟨draft, failure⟩ := left
    obtain ⟨draft', failure'⟩ := right
    obtain ⟨hdraft, rfl⟩ := hat
    cases failure with
    | none => exact ih hdraft
    | some e => exact .error (id, e)

end Claims

/-! ## Merging -/

/-- The same came of two attempts to merge, except for what is only carried along. -/
structure MergeStep.Agree (step step' : MergeStep) : Prop where
  forest : step.forest.Agree step'.forest
  merged : step.merged = step'.merged
  reports : (Event.reports step.events).length = (Event.reports step'.events).length

lemma MergeStep.Agree.reported {step step' : MergeStep} (h : step.Agree step') :
    step.reported = step'.reported := by
  rw [reported_eq, reported_eq, Bool.not_inj_iff, Bool.eq_iff_iff, List.isEmpty_iff_length_eq_zero,
    List.isEmpty_iff_length_eq_zero, h.reports]

namespace Pattern

lemma commit_agree (h : F.Agree G) (hF : F.WellFormed)
    (hclaim : p.claim? F root = some c) (hclaim' : p.claim? G root = some c)
    (hagree : b.Agree b') : (commit F root c b).Agree (commit G root c b') := by
  apply Forest.Agree.of_get?
  · unfold commit Forest.replace
    rw [Forest.roots_foldl_prune, Forest.roots_foldl_prune, h.roots]
  · intro id
    rw [get?_commit hF hclaim, get?_commit (h.wellFormed hF) hclaim']
    split
    · exact .some hagree
    · split
      · exact .none
      · exact h.get? id

variable [Target α]

/-- What is put in place of claimed bubbles agrees, whatever becomes of accounts and flows. -/
lemma replacement_agree (h : F.Agree G) (hF : F.WellFormed) (hp : p.Blind)
    (hclaim : p.claim? F root = some c) (hclaim' : p.claim? G root = some c) :
    SameOutcome Bubble.Agree (replacement F root c) (replacement G root c) := by
  have hG := h.wellFormed hF
  have horder : c.inOrder F root = c.inOrder G root := by
    rw [inOrder_eq hF hclaim, inOrder_eq hG hclaim', h.preOrder hF]
  have hkept : c.kept F root = c.kept G root := by
    rw [kept_eq hF hclaim, kept_eq hG hclaim', h.hanging hF]
  have hbuild := Claims.build_agree h (fun _ _ => builder?_blind hF hp hclaim) (c.inOrder G root)
    (Payload.Agree.refl (Target.payload (Target.blank : α)))
  rw [replacement, replacement, horder, hkept]
  generalize c.build F (c.inOrder G root) Target.blank = left at hbuild ⊢
  generalize c.build G (c.inOrder G root) Target.blank = right at hbuild ⊢
  cases hbuild with
  | ok hdraft => exact .ok ⟨rfl, hdraft⟩
  | error e => exact .error e

/-- A blind pattern merges the same in forests that agree, and leaves forests that agree. -/
theorem merge_agree (h : F.Agree G) (hF : F.WellFormed) (hp : p.Blind)
    (id : BubbleId) : (p.merge F id).Agree (p.merge G id) := by
  have hclaims : p.claim? F id = p.claim? G id := claim?_agree h hF hp
  rw [merge_eq, merge_eq, ← hclaims]
  cases hclaim : p.claim? F id with
  | none => exact ⟨h, rfl, by rw [reports_lostEvents, reports_lostEvents]⟩
  | some c =>
    have hclaim' : p.claim? G id = some c := by rw [← hclaims, hclaim]
    have hrep := replacement_agree h hF hp hclaim hclaim'
    dsimp only
    generalize replacement F id c = left at hrep ⊢
    generalize replacement G id c = right at hrep ⊢
    cases hrep with
    | ok hagree =>
      refine ⟨commit_agree h hF hclaim hclaim' hagree, rfl, ?_⟩
      rw [Event.reports_append, Event.reports_append, reports_lostEvents, reports_lostEvents]
    | error failure =>
      refine ⟨h, rfl, ?_⟩
      rw [Event.reports_append, Event.reports_append, reports_lostEvents, reports_lostEvents]
      rfl

end Pattern

lemma AnyRule.merge_agree {rule : AnyRule} (h : F.Agree G) (hF : F.WellFormed)
    (hrule : rule.Blind) (id : BubbleId) : (rule.merge F id).Agree (rule.merge G id) :=
  Pattern.merge_agree h hF hrule id

end TraceFold
