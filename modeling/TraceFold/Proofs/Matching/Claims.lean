import Mathlib.Data.List.Induction
import TraceFold.Pattern.Matching
import TraceFold.Proofs.SortedMap

/-!
# Claims in step

Claims are kept twice, in a list by which they are undone and in a map in which they are looked
up.  The two have to stay in step (`Claims.InStep`): going back to a mark erases from the map what
it cuts off from the list, and so it would erase an older claim as well if a bubble could stand in
the list twice.

A claim on an unclaimed bubble keeps them in step, and so does going back to any mark.  Claims
that have only grown since a mark was taken (`Claims.Extends`) become what they were then by going
back to it (`Extends.rollback_eq`).
-/

namespace TraceFold

variable {α : Type} {c c' c'' : Claims α} {p q : Pattern α} {es es' : List (BubbleId × Pattern α)}
  {id x : BubbleId}

namespace Claims

/-- No bubble is listed twice, and the map has just the listed bubbles as keys. -/
structure InStep (c : Claims α) : Prop where
  nodup : c.bubbles.Nodup
  isSome_get? : ∀ x, (c.get? x).isSome = true ↔ x ∈ c.bubbles

lemma inStep_empty : (empty : Claims α).InStep := ⟨.nil, fun x => by simp [empty, get?]⟩

namespace InStep

lemma contains_iff (hc : c.InStep) : c.contains x = true ↔ x ∈ c.bubbles := hc.isSome_get? x

lemma not_mem_bubbles (hc : c.InStep) (h : c.contains x = false) : x ∉ c.bubbles := by
  rw [← hc.contains_iff, h]
  exact Bool.false_ne_true

lemma contains_eq (hc : c.InStep) : c.contains = c.bubbles.contains := by
  funext x
  rw [Bool.eq_iff_iff, hc.contains_iff, List.contains_iff_mem]

lemma exists_get? (hc : c.InStep) (hx : x ∈ c.bubbles) : ∃ q, c.get? x = some q :=
  Option.isSome_iff_exists.1 ((hc.isSome_get? x).2 hx)

lemma mem_bubbles (hc : c.InStep) (h : c.get? x = some q) : x ∈ c.bubbles :=
  (hc.isSome_get? x).1 (by rw [h]; rfl)

lemma get?_eq_none (hc : c.InStep) (hx : x ∉ c.bubbles) : c.get? x = none := by
  rwa [← hc.isSome_get?, Bool.not_eq_true, Option.isSome_eq_false_iff, Option.isNone_iff_eq_none]
    at hx

end InStep

/-! ## Claiming and going back -/

lemma get?_insert (c : Claims α) (id : BubbleId) (p : Pattern α) (x : BubbleId) :
    (c.insert id p).get? x = if id = x then some p else c.get? x :=
  SortedMap.get?_upsert c.patterns id x fun _ => p

lemma get?_rollback (c : Claims α) (mark : Nat) (x : BubbleId) :
    (c.rollback mark).get? x = if x ∈ c.bubbles.drop mark then none else c.get? x :=
  SortedMap.get?_foldl_erase (c.bubbles.drop mark) c.patterns x

/-- A claim on an unclaimed bubble. -/
lemma InStep.insert (hc : c.InStep) (hid : id ∉ c.bubbles) : (c.insert id p).InStep where
  nodup := by
    refine List.nodup_append.2 ⟨hc.nodup, List.nodup_singleton id, fun x hx y hy hxy => hid ?_⟩
    rwa [← List.mem_singleton.1 hy, ← hxy]
  isSome_get? x := by
    rw [get?_insert, Claims.insert, List.mem_append, List.mem_singleton, ← hc.isSome_get?]
    by_cases hx : id = x
    · simp [hx]
    · simp [hx, Ne.symm hx]

/-- Since no bubble is listed twice, none that stays in the list is erased from the map. -/
lemma InStep.rollback (hc : c.InStep) (mark : Nat) : (c.rollback mark).InStep where
  nodup := hc.nodup.sublist (List.take_sublist mark c.bubbles)
  isSome_get? x := by
    have hmem : x ∈ c.bubbles ↔ x ∈ c.bubbles.take mark ∨ x ∈ c.bubbles.drop mark := by
      rw [← List.mem_append, List.take_append_drop]
    have happart : (c.bubbles.take mark).Disjoint (c.bubbles.drop mark) :=
      List.disjoint_take_drop hc.nodup (Nat.le_refl mark)
    rw [get?_rollback, Claims.rollback]
    by_cases hdrop : x ∈ c.bubbles.drop mark
    · rw [if_pos hdrop]
      exact ⟨fun h => by simp at h, fun htake => absurd hdrop (happart htake)⟩
    · rw [if_neg hdrop, hc.isSome_get?, hmem, or_iff_left hdrop]

/-! ## Claims that have only grown -/

/-- The claims `c'` are in step and come from `c` by further claims: what was in the list stands
there at its place, and what was in the map is as it was. -/
structure Extends (c c' : Claims α) : Prop where
  inStep : c'.InStep
  order : c.bubbles <+: c'.bubbles
  kept : ∀ x q, c.get? x = some q → c'.get? x = some q

namespace Extends

lemma refl (hc : c.InStep) : c.Extends c := ⟨hc, List.prefix_refl _, fun _ _ h => h⟩

lemma trans (h : c.Extends c') (h' : c'.Extends c'') : c.Extends c'' where
  inStep := h'.inStep
  order := h.order.trans h'.order
  kept := fun x q hq => h'.kept x q (h.kept x q hq)

lemma insert (h : c.Extends c') (hid : id ∉ c'.bubbles) : c.Extends (c'.insert id p) where
  inStep := h.inStep.insert hid
  order := h.order.trans (List.prefix_append _ _)
  kept := by
    intro x q hq
    have hx := h.kept x q hq
    have hne : id ≠ x := fun e => hid (e ▸ h.inStep.mem_bubbles hx)
    rw [get?_insert, if_neg hne, hx]

/-- Going back to the mark restores the claims, the list and the map. -/
theorem rollback_eq (hc : c.InStep) (h : c.Extends c') : c'.rollback c.mark = c := by
  obtain ⟨rest, hrest⟩ := h.order
  have hdrop : c'.bubbles.drop c.mark = rest := by rw [← hrest, mark, List.drop_left]
  refine Claims.ext ?_ (SortedMap.ext_get? fun x => ?_)
  · rw [rollback, ← hrest, mark, List.take_left]
  · show (c'.rollback c.mark).get? x = c.get? x
    rw [get?_rollback, hdrop]
    by_cases hx : x ∈ c.bubbles
    · obtain ⟨q, hq⟩ := hc.exists_get? hx
      have happart : c.bubbles.Disjoint rest :=
        List.disjoint_of_nodup_append (hrest ▸ h.inStep.nodup)
      rw [if_neg fun hmem => happart hx hmem, h.kept x q hq, hq]
    · rw [hc.get?_eq_none hx]
      by_cases hmem : x ∈ rest
      · rw [if_pos hmem]
      · rw [if_neg hmem]
        refine h.inStep.get?_eq_none ?_
        rw [← hrest, List.mem_append, not_or]
        exact ⟨hx, hmem⟩

end Extends

/-! ## Claims from entries -/

lemma InStep.mem_entries (hc : c.InStep) : (x, q) ∈ c.entries ↔ c.get? x = some q := by
  rw [entries, List.mem_filterMap]
  constructor
  · rintro ⟨y, -, hy⟩
    obtain ⟨r, hr, heq⟩ := Option.map_eq_some_iff.1 hy
    cases heq
    exact hr
  · exact fun h => ⟨x, hc.mem_bubbles h, by rw [h]; rfl⟩

lemma InStep.map_fst_entries (hc : c.InStep) : c.entries.map Prod.fst = c.bubbles := by
  rw [entries, List.map_filterMap]
  refine (List.filterMap_congr fun x hx => ?_).trans (List.filterMap_some (l := c.bubbles))
  obtain ⟨q, hq⟩ := hc.exists_get? hx
  rw [hq]
  rfl

lemma entries_insert (hid : id ∉ c.bubbles) :
    (c.insert id p).entries = c.entries ++ [(id, p)] := by
  have hold : ∀ x ∈ c.bubbles, ((c.insert id p).get? x).map (x, ·) = (c.get? x).map (x, ·) := by
    intro x hx
    rw [get?_insert, if_neg fun e : id = x => hid (e ▸ hx)]
  rw [entries, Claims.insert, List.filterMap_append, ← Claims.insert, List.filterMap_congr hold,
    ← entries]
  simp [get?_insert]

/-- Claims made one after the other. -/
def insertAll (c : Claims α) (es : List (BubbleId × Pattern α)) : Claims α :=
  es.foldl (fun c e => c.insert e.1 e.2) c

lemma insertAll_append (c : Claims α) (es es' : List (BubbleId × Pattern α)) :
    c.insertAll (es ++ es') = (c.insertAll es).insertAll es' :=
  List.foldl_append

lemma bubbles_insertAll (c : Claims α) (es : List (BubbleId × Pattern α)) :
    (c.insertAll es).bubbles = c.bubbles ++ es.map Prod.fst := by
  induction es generalizing c with
  | nil => exact (List.append_nil _).symm
  | cons e es ih =>
    show ((c.insert e.1 e.2).insertAll es).bubbles = _
    rw [ih, insert, List.append_assoc]
    rfl

/-- The claims with these entries. -/
def ofEntries (es : List (BubbleId × Pattern α)) : Claims α := empty.insertAll es

@[simp] lemma bubbles_ofEntries (es : List (BubbleId × Pattern α)) :
    (ofEntries es).bubbles = es.map Prod.fst := bubbles_insertAll empty es

/-- Entries for different bubbles make claims that are in step. -/
lemma inStep_ofEntries (h : (ofEntries es).bubbles.Nodup) :
    (ofEntries es).InStep ∧ (ofEntries es).entries = es := by
  induction es using List.reverseRecOn with
  | nil => exact ⟨inStep_empty, rfl⟩
  | append_singleton es e ih =>
    rw [bubbles_ofEntries, List.map_append, List.nodup_append] at h
    obtain ⟨hes, -, hnew⟩ := h
    obtain ⟨hin, hentries⟩ := ih (by rwa [bubbles_ofEntries])
    have he : e.1 ∉ (ofEntries es).bubbles := by
      rw [bubbles_ofEntries]
      exact fun hmem => hnew e.1 hmem e.1 List.mem_cons_self rfl
    have hsnoc : ofEntries (es ++ [e]) = (ofEntries es).insert e.1 e.2 := insertAll_append _ _ _
    rw [hsnoc, entries_insert he, hentries]
    exact ⟨hin.insert he, rfl⟩

lemma get?_eq_some_iff (h : (ofEntries es).bubbles.Nodup) :
    (ofEntries es).get? x = some q ↔ (x, q) ∈ es := by
  obtain ⟨hin, hentries⟩ := inStep_ofEntries h
  rw [← hin.mem_entries, hentries]

end Claims
end TraceFold
