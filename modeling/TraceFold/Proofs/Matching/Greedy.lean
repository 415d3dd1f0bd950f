import TraceFold.Pattern.Matching
import TraceFold.Proofs.Forest.Contraction

/-!
# The greedy choice

Fitting a pattern threads the claims through all candidates and undoes what failed candidates left
in them.  `Pattern.greedy` says what should come of it without any claims: every child pattern takes
the first child that it fits and that no earlier child pattern took.

The two agree on every well-formed forest (`claim?_eq_greedy`).  The reason is an invariant of the
claims while the children of a bubble are tried (`Settled`): a child that was taken is claimed,
so that it is lost to every later pattern, and below a child that was not taken nothing is
claimed, so that claims made elsewhere cannot stand in its way.
-/

namespace TraceFold

variable {α β : Type}

/-! ## Recursion on patterns -/

/-- To show something of a pattern it may be assumed of its child patterns. -/
theorem Pattern.children_induction {motive : Pattern α → Prop}
    (step : ∀ p : Pattern α, (∀ q ∈ p.children, motive q) → motive p) (p : Pattern α) :
    motive p :=
  step p fun q _ => children_induction step q
termination_by p
decreasing_by
  rename_i hq
  have hlt := List.sizeOf_lt_of_mem hq
  cases p
  simp only [Pattern.mk.sizeOf_spec] at hlt ⊢
  omega

/-- The first name not taken from which a choice can be made, with the choice. -/
def firstFree (choice : BubbleId → Option β) (taken : List BubbleId) :
    List BubbleId → Option (BubbleId × β)
  | [] => none
  | id :: ids =>
    if id ∈ taken then firstFree choice taken ids
    else match choice id with
      | some v => some (id, v)
      | none => firstFree choice taken ids

lemma firstFree_eq_some {choice : BubbleId → Option β} {taken ids : List BubbleId}
    {id : BubbleId} {v : β} (h : firstFree choice taken ids = some (id, v)) :
    id ∈ ids ∧ id ∉ taken ∧ choice id = some v := by
  induction ids with
  | nil => cases h
  | cons k ids ih =>
    rw [firstFree] at h
    split at h
    · exact ⟨List.mem_cons_of_mem k (ih h).1, (ih h).2⟩
    · rename_i hk
      split at h
      · rename_i w hw
        cases h
        exact ⟨List.mem_cons_self, hk, hw⟩
      · exact ⟨List.mem_cons_of_mem k (ih h).1, (ih h).2⟩

namespace Pattern

mutual

/-- The bubbles that a pattern takes from `id` downwards, children before parents, each with the
pattern that takes it. -/
def greedy (F : Forest) : Pattern α → BubbleId → Option (List (BubbleId × Pattern α))
  | ⟨name, checks, builder, children, optional⟩, id =>
    match F.get? id with
    | none => none
    | some b =>
      if checks.all fun check => check b then
        (greedyChildren F children b.children []).map
          (· ++ [(id, ⟨name, checks, builder, children, optional⟩)])
      else none

/-- What patterns take, in order, from some siblings of which a few are taken already. -/
def greedyChildren (F : Forest) :
    List (Pattern α) → List BubbleId → List BubbleId → Option (List (BubbleId × Pattern α))
  | [], _, _ => some []
  | p :: ps, ids, taken => match firstFree (greedy F p) taken ids with
    | some (id, es) => (greedyChildren F ps ids (id :: taken)).map (es ++ ·)
    | none => if p.optional then greedyChildren F ps ids taken else none

end

variable {F : Forest} {p q : Pattern α} {ps : List (Pattern α)} {b : Bubble}
  {es es' : List (BubbleId × Pattern α)} {ids taken : List BubbleId} {id k x : BubbleId}
  {a : Attempt α}

lemma greedy_of_get? (hb : F.get? id = some b) : p.greedy F id =
    if p.accepts b then (greedyChildren F p.children b.children []).map (· ++ [(id, p)])
    else none := by
  cases p
  rw [greedy, hb]
  rfl

lemma greedy_of_gone (hb : F.get? id = none) : p.greedy F id = none := by
  cases p
  rw [greedy, hb]

lemma greedy_eq_some_iff : p.greedy F id = some es ↔ ∃ b es', F.get? id = some b ∧
    p.accepts b = true ∧ greedyChildren F p.children b.children [] = some es' ∧
      es = es' ++ [(id, p)] := by
  constructor
  · intro h
    cases hb : F.get? id with
    | none => rw [greedy_of_gone hb] at h; cases h
    | some b =>
      rw [greedy_of_get? hb] at h
      split at h
      · rename_i hacc
        obtain ⟨es', hes', rfl⟩ := Option.map_eq_some_iff.1 h
        exact ⟨b, es', rfl, hacc, hes', rfl⟩
      · cases h
  · rintro ⟨b, es', hb, hacc, hes', rfl⟩
    rw [greedy_of_get? hb, if_pos hacc, hes']
    rfl

/-! ## What is taken hangs together -/

/-- Entries that one pattern may have taken from `root` downwards: every bubble once, every
bubble accepted by the pattern that takes it, and every bubble but `root` the child of one that
the parent pattern takes. -/
structure Coherent (F : Forest) (p : Pattern α) (root : BubbleId)
    (es : List (BubbleId × Pattern α)) : Prop where
  root_mem : (root, p) ∈ es
  nodup : (es.map Prod.fst).Nodup
  accepted : ∀ e ∈ es, ∃ b, F.get? e.1 = some b ∧ e.2.accepts b = true
  parent : ∀ e ∈ es, e.1 = root ∨ ∃ d ∈ es, e.1 ∈ F.children d.1 ∧ e.2 ∈ d.2.children

namespace Coherent

lemma group (h : Coherent F p id es) : F.Group id (es.map Prod.fst) where
  root_mem := List.mem_map.2 ⟨_, h.root_mem, rfl⟩
  nodup := h.nodup
  live := by
    intro x hx
    obtain ⟨e, he, rfl⟩ := List.mem_map.1 hx
    obtain ⟨b, hb, -⟩ := h.accepted e he
    exact Forest.contains_of_get? hb
  parent := by
    intro x hx
    obtain ⟨e, he, rfl⟩ := List.mem_map.1 hx
    exact (h.parent e he).imp_right fun ⟨d, hd, hchild, _⟩ =>
      ⟨d.1, List.mem_map_of_mem hd, hchild⟩

lemma below (hF : F.WellFormed) (h : Coherent F p id es) : ∀ e ∈ es, F.Below id e.1 :=
  fun _ he => h.group.below hF (List.mem_map_of_mem he)

end Coherent

/-- The same for what several patterns take from some siblings. -/
structure CoherentChildren (F : Forest) (ps : List (Pattern α)) (ids taken : List BubbleId)
    (es : List (BubbleId × Pattern α)) : Prop where
  nodup : (es.map Prod.fst).Nodup
  below : ∀ e ∈ es, ∃ k ∈ ids, k ∉ taken ∧ F.Below k e.1
  accepted : ∀ e ∈ es, ∃ b, F.get? e.1 = some b ∧ e.2.accepts b = true
  parent : ∀ e ∈ es, e.1 ∈ ids ∧ e.2 ∈ ps ∨
    ∃ d ∈ es, e.1 ∈ F.children d.1 ∧ e.2 ∈ d.2.children

/-- Nothing lies below two of the names at once. -/
def Apart (F : Forest) (ids : List BubbleId) : Prop :=
  ∀ j ∈ ids, ∀ k ∈ ids, ∀ x, F.Below j x → F.Below k x → j = k

lemma apart_children (hF : F.WellFormed) (id : BubbleId) : Apart F (F.children id) :=
  fun _ hj _ hk _ hjx hkx => hF.eq_of_below_siblings hj hk hjx hkx

lemma coherentChildren_cons (hF : F.WellFormed) (hids : Apart F ids) (hid : id ∈ ids)
    (hfree : id ∉ taken) (h : Coherent F p id es)
    (h' : CoherentChildren F ps ids (id :: taken) es') :
    CoherentChildren F (p :: ps) ids taken (es ++ es') where
  nodup := by
    rw [List.map_append, List.nodup_append]
    refine ⟨h.nodup, h'.nodup, ?_⟩
    intro x hx y hy hxy
    obtain ⟨e, he, rfl⟩ := List.mem_map.1 hx
    obtain ⟨e', he', rfl⟩ := List.mem_map.1 hy
    obtain ⟨k, hk, hknot, hke⟩ := h'.below e' he'
    have hide : F.Below id e'.1 := hxy ▸ h.below hF e he
    exact hknot (hids id hid k hk _ hide hke ▸ List.mem_cons_self)
  below := by
    intro e he
    rcases List.mem_append.1 he with he | he
    · exact ⟨id, hid, hfree, h.below hF e he⟩
    · obtain ⟨k, hk, hknot, hke⟩ := h'.below e he
      exact ⟨k, hk, fun hmem => hknot (List.mem_cons_of_mem id hmem), hke⟩
  accepted := by
    intro e he
    rcases List.mem_append.1 he with he | he
    · exact h.accepted e he
    · exact h'.accepted e he
  parent := by
    intro e he
    rcases List.mem_append.1 he with he | he
    · rcases h.parent e he with hroot | ⟨d, hd, hchild⟩
      · refine .inl ⟨hroot ▸ hid, ?_⟩
        have hp : e = (id, p) :=
          List.inj_on_of_nodup_map h.nodup he h.root_mem hroot
        rw [hp]
        exact List.mem_cons_self
      · exact .inr ⟨d, List.mem_append_left _ hd, hchild⟩
    · rcases h'.parent e he with ⟨hmem, hps⟩ | ⟨d, hd, hchild⟩
      · exact .inl ⟨hmem, List.mem_cons_of_mem p hps⟩
      · exact .inr ⟨d, List.mem_append_right _ hd, hchild⟩

lemma CoherentChildren.weaken (h : CoherentChildren F ps ids taken es) :
    CoherentChildren F (p :: ps) ids taken es where
  nodup := h.nodup
  below := h.below
  accepted := h.accepted
  parent := fun e he => (h.parent e he).imp_left fun ⟨hmem, hps⟩ =>
    ⟨hmem, List.mem_cons_of_mem p hps⟩

lemma coherentChildren_of_greedyChildren (hF : F.WellFormed) (hids : Apart F ids) :
    ∀ (ps : List (Pattern α)) (taken : List BubbleId) (es : List (BubbleId × Pattern α)),
      (∀ q ∈ ps, ∀ id es, q.greedy F id = some es → Coherent F q id es) →
      greedyChildren F ps ids taken = some es → CoherentChildren F ps ids taken es
  | [], _, _, _, h => by
    rw [greedyChildren] at h
    cases h
    exact ⟨List.nodup_nil, by simp, by simp, by simp⟩
  | p :: ps, taken, es, hps, h => by
    rw [greedyChildren] at h
    have hps' : ∀ q ∈ ps, ∀ id es, q.greedy F id = some es → Coherent F q id es :=
      fun q hq => hps q (List.mem_cons_of_mem p hq)
    split at h
    · rename_i id es₁ hfirst
      obtain ⟨es₂, hes₂, rfl⟩ := Option.map_eq_some_iff.1 h
      obtain ⟨hid, hfree, hes₁⟩ := firstFree_eq_some hfirst
      exact coherentChildren_cons hF hids hid hfree (hps p List.mem_cons_self id es₁ hes₁)
        (coherentChildren_of_greedyChildren hF hids ps _ es₂ hps' hes₂)
    · split at h
      · exact (coherentChildren_of_greedyChildren hF hids ps taken es hps' h).weaken
      · cases h

/-- What a pattern takes hangs together. -/
theorem coherent_of_greedy (hF : F.WellFormed) (h : p.greedy F id = some es) :
    Coherent F p id es := by
  induction p using children_induction generalizing id es with
  | step p ih =>
    obtain ⟨b, es', hb, hacc, hes', rfl⟩ := greedy_eq_some_iff.1 h
    have hchildren := Forest.children_eq hb
    rw [← hchildren] at hes'
    have hco := coherentChildren_of_greedyChildren hF (apart_children hF id) p.children [] es'
      (fun q hq id es => ih q hq) hes'
    refine ⟨by simp, ?_, ?_, ?_⟩
    · rw [List.map_append, List.nodup_append]
      refine ⟨hco.nodup, List.nodup_singleton _, ?_⟩
      intro x hx y hy hxy
      obtain ⟨e, he, rfl⟩ := List.mem_map.1 hx
      obtain ⟨k, hk, -, hke⟩ := hco.below e he
      rw [hxy, List.mem_singleton.1 hy] at hke
      exact hF.not_below_of_mem_children hk hke
    · intro e he
      rcases List.mem_append.1 he with he | he
      · exact hco.accepted e he
      · rw [List.mem_singleton.1 he]
        exact ⟨b, hb, hacc⟩
    · intro e he
      rcases List.mem_append.1 he with he | he
      · rcases hco.parent e he with ⟨hmem, hps⟩ | ⟨d, hd, hchild⟩
        · exact .inr ⟨(id, p), by simp, hmem, hps⟩
        · exact .inr ⟨d, List.mem_append_left _ hd, hchild⟩
      · rw [List.mem_singleton.1 he]
        exact .inl rfl

end Pattern
end TraceFold
