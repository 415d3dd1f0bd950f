import TraceFold.Proofs.Forest.Sum
import TraceFold.Proofs.Trace.Loading

/-!
# The layout of a loaded trace

Loading adds bubbles to one arena as it goes, but what it makes of a node does not depend on what
was there before (`graft_eq_attach`): the forest of a node is the forest of its children under one
more bubble, and the forest of several nodes is their forests side by side (`layout`).

So the arena mirrors the document.  Its slots hold the transactions in the order in which they are
written (`payloads_layoutAll`), and the walk with parents first meets the slots in ascending order
(`preOrder_layoutAll`).
-/

namespace TraceFold

/-! ## The order of the document -/

namespace TraceNode

mutual

/-- The transactions of a node in the order in which they are written: its own comes first. -/
def transactions : TraceNode → List Transaction
  | ⟨tx, children⟩ => tx :: transactionsAll children

def transactionsAll : List TraceNode → List Transaction
  | [] => []
  | node :: nodes => transactions node ++ transactionsAll nodes

end

end TraceNode

namespace Forest

variable {F F' G H : Forest} {parent : Option BubbleId} {b : Bubble} {p x : Nat}

mutual

/-- The forest of a node. -/
def layout : TraceNode → Forest
  | ⟨tx, children⟩ => (layoutAll children).under (.ofTransaction tx.withOpcode)

/-- The forest of some nodes. -/
def layoutAll : List TraceNode → Forest
  | [] => empty
  | node :: nodes => (layout node).append (layoutAll nodes)

end

/-! ## Attaching a forest -/

/-- A forest beside another, or under one of its bubbles; nothing is attached to a bubble that is
not live. -/
def attach (F : Forest) (parent : Option BubbleId) (G : Forest) : Forest :=
  match parent with
  | none => F.append G
  | some p => match F.get? p with
    | some b =>
      let grown := { b with children := b.children ++ G.roots.map (· + F.slots.size) }
      { (F.append G).replace p grown with roots := F.roots }
    | none => F

/-- A bubble can be attached to: it is live, or there is none. -/
def Accepts (F : Forest) (parent : Option BubbleId) : Prop :=
  ∀ p, parent = some p → F.contains p = true

lemma get?_append (F G : Forest) (x : Nat) : (F.append G).get? x =
    if x < F.slots.size then F.get? x
    else (G.get? (x - F.slots.size)).map (Bubble.raise F.slots.size) := by
  split
  · rename_i hlt
    exact get?_append_left G hlt
  · rename_i hlt
    rw [← get?_append_right, Nat.sub_add_cancel (Nat.le_of_not_lt hlt)]

lemma size_attach (h : F.Accepts parent) (G : Forest) :
    (F.attach parent G).slots.size = F.slots.size + G.slots.size := by
  cases parent with
  | none => exact size_append F G
  | some p =>
    obtain ⟨b, hb⟩ := contains_iff.1 (h p rfl)
    simp [attach, hb, replace]

lemma get?_attach (h : F.Accepts parent) (G : Forest) (x : Nat) : (F.attach parent G).get? x =
    if parent = some x then
      (F.get? x).map fun b =>
        { b with children := b.children ++ G.roots.map (· + F.slots.size) }
    else (F.append G).get? x := by
  cases parent with
  | none => rfl
  | some p =>
    obtain ⟨b, hb⟩ := contains_iff.1 (h p rfl)
    have hlt := lt_size_of_contains (h p rfl)
    have hget := get?_replace (F.append G) p x
      { b with children := b.children ++ G.roots.map (· + F.slots.size) }
    rw [size_append] at hget
    simp only [attach, hb]
    refine Eq.trans hget ?_
    by_cases hx : p = x
    · subst hx
      rw [if_pos ⟨rfl, Nat.lt_of_lt_of_le hlt (Nat.le_add_right _ _)⟩, if_pos rfl, hb]
      rfl
    · rw [if_neg (fun hand => hx hand.1), if_neg (fun heq => hx (Option.some.inj heq))]

lemma roots_attach (h : F.Accepts parent) (G : Forest) : (F.attach parent G).roots =
    if parent = none then F.roots ++ G.roots.map (· + F.slots.size) else F.roots := by
  cases parent with
  | none => rfl
  | some p =>
    obtain ⟨b, hb⟩ := contains_iff.1 (h p rfl)
    simp [attach, hb]

lemma attach_of_not_accepts (h : ¬ F.Accepts parent) : F.attach parent G = F := by
  cases parent with
  | none => exact absurd (fun p hp => by cases hp) h
  | some p =>
    have hb : F.get? p = none := by
      rw [← contains_eq_false, Bool.eq_false_iff]
      rintro hlive
      exact h fun q hq => by rwa [← Option.some.inj hq]
    simp [attach, hb]

lemma attach_empty (F : Forest) (parent : Option BubbleId) : F.attach parent empty = F := by
  by_cases h : F.Accepts parent
  · apply eq_of_get? (by rw [size_attach h]; rfl)
    · rw [roots_attach h]
      split
      · exact List.append_nil _
      · rfl
    · intro x _
      rw [get?_attach h, append_empty]
      split
      · cases F.get? x <;> simp [empty]
      · rfl
  · exact attach_of_not_accepts h

lemma Accepts.attach (h : F.Accepts parent) (G : Forest) : (F.attach parent G).Accepts parent := by
  rintro p rfl
  have hlive := h p rfl
  unfold contains at hlive ⊢
  rw [get?_attach h, if_pos rfl, Option.isSome_map]
  exact hlive

/-- What is attached one after the other may be put side by side first. -/
lemma attach_attach (F : Forest) (parent : Option BubbleId) (G H : Forest) :
    (F.attach parent G).attach parent H = F.attach parent (G.append H) := by
  have hsum : (G.append H).roots.map (· + F.slots.size) = G.roots.map (· + F.slots.size) ++
      H.roots.map (· + (F.slots.size + G.slots.size)) := by
    rw [roots_append, List.map_append, Bubble.map_add_map_add, Nat.add_comm G.slots.size]
  by_cases h : F.Accepts parent
  · have h' := h.attach G
    apply eq_of_get?
    · rw [size_attach h', size_attach h, size_attach h, size_append, Nat.add_assoc]
    · rw [roots_attach h', roots_attach h, roots_attach h, size_attach h]
      split
      · rw [hsum, List.append_assoc]
      · rfl
    · intro x _
      rw [get?_attach h', get?_attach h, get?_attach h, ← append_assoc, get?_append _ H,
        get?_append _ H, get?_attach h, size_attach h, size_append]
      by_cases hx : parent = some x
      · simp only [hx, if_true, hsum]
        cases F.get? x <;> simp
      · simp only [hx, if_false]
  · rw [attach_of_not_accepts h, attach_of_not_accepts h, attach_of_not_accepts h]

/-! ## Adding one bubble -/

lemma size_single (b : Bubble) : (empty.under b).slots.size = 1 := size_under empty b

lemma accepts_of_addUnder (h : F.addUnder? parent b = some F') : F.Accepts parent := by
  rintro p rfl
  obtain ⟨b₀, hb₀, -⟩ := get?_addChild h p
  exact contains_of_get? hb₀

lemma Accepts.ne_size (h : F.Accepts parent) : parent ≠ some F.slots.size := by
  intro hparent
  exact absurd (lt_size_of_contains (h _ hparent)) (Nat.lt_irrefl _)

/-- Whatever can be attached to can be added to. -/
lemma Accepts.exists_addUnder (h : F.Accepts parent) (b : Bubble) :
    ∃ F', F.addUnder? parent b = some F' := by
  cases parent with
  | none => exact ⟨_, rfl⟩
  | some p =>
    obtain ⟨b₀, hb₀⟩ := contains_iff.1 (h p rfl)
    exact ⟨_, by rw [addUnder?, addChild?, hb₀]⟩

lemma raise_of_childless (hb : b.children = []) (o : Nat) : b.raise o = b := by
  cases b
  simp_all [Bubble.raise]

lemma get?_single (hb : b.children = []) : (empty.under b).get? 0 = some b := by
  rw [get?_under_zero]
  cases b
  simp_all [empty]

/-- Adding a childless bubble attaches the forest that consists of it. -/
lemma addUnder_eq_attach (hb : b.children = []) (h : F.addUnder? parent b = some F') :
    F' = F.attach parent (empty.under b) := by
  have haccepts := accepts_of_addUnder h
  have hsize := size_addUnder h
  have hnext : F.nextId = F.slots.size := rfl
  have hroots : (empty.under b).roots.map (· + F.slots.size) = [F.nextId] := by
    simp [under, nextId]
  apply eq_of_get?
  · rw [size_attach haccepts, hsize, size_single]
  · rw [roots_attach haccepts, roots_addUnder h, hroots]
  · intro x hx
    rw [get?_attach haccepts, get?_addUnder h, get?_append, hroots, hnext]
    by_cases hlast : x = F.slots.size
    · subst hlast
      rw [if_pos rfl, if_neg haccepts.ne_size, if_neg (Nat.lt_irrefl _), Nat.sub_self,
        get?_single hb, Option.map_some, raise_of_childless hb]
    · rw [if_neg hlast, if_pos (show x < F.slots.size by omega)]

/-- What is attached to a bubble that was just added becomes part of what was added. -/
lemma attach_under (h : F.Accepts parent) (hb : b.children = []) (G : Forest) :
    (F.attach parent (empty.under b)).attach (some F.slots.size) G =
      F.attach parent (G.under b) := by
  have hsize := size_attach h (empty.under b)
  have hroots := roots_attach h (empty.under b)
  have hget := get?_attach h (empty.under b)
  rw [size_single] at hsize
  generalize F.attach parent (empty.under b) = E at hsize hroots hget ⊢
  have hlast : E.get? F.slots.size = some b := by
    rw [hget, if_neg h.ne_size, get?_append, if_neg (Nat.lt_irrefl _), Nat.sub_self,
      get?_single hb, Option.map_some, raise_of_childless hb]
  have haccepts : E.Accepts (some F.slots.size) := by
    rintro p hp
    rw [← Option.some.inj hp]
    exact contains_of_get? hlast
  apply eq_of_get?
  · rw [size_attach haccepts, size_attach h, hsize, size_under, Nat.add_assoc, Nat.add_comm 1]
  · rw [roots_attach haccepts, if_neg (by simp), roots_attach h, hroots]
    rfl
  · intro x hx
    rw [size_attach haccepts, hsize] at hx
    rw [get?_attach haccepts, get?_attach h, hsize]
    rcases Nat.lt_trichotomy x F.slots.size with hlt | rfl | hgt
    · rw [if_neg (by simpa using Nat.ne_of_gt hlt), get?_append_left G (by omega), hget,
        get?_append_left _ hlt, get?_append_left _ hlt]
      rfl
    · rw [if_pos rfl, if_neg h.ne_size, hlast, get?_append, if_neg (Nat.lt_irrefl _),
        Nat.sub_self, get?_under_zero]
      simp only [Option.map_some, Bubble.raise, hb, List.nil_append, Bubble.map_add_map_add,
        Nat.add_comm 1]
    · obtain ⟨y, rfl⟩ : ∃ y, x = y + (F.slots.size + 1) := ⟨x - (F.slots.size + 1), by omega⟩
      have hparent : parent ≠ some (y + (F.slots.size + 1)) := by
        intro hparent
        have := lt_size_of_contains (h _ hparent)
        omega
      have hne : some F.slots.size ≠ some (y + (F.slots.size + 1)) := by
        intro heq
        have := Option.some.inj heq
        omega
      have hright := get?_append_right E G y
      rw [hsize] at hright
      rw [if_neg hne, if_neg hparent, hright, Nat.add_comm F.slots.size, ← Nat.add_assoc,
        get?_append_right, (hosts_under G b).slot y (by omega)]
      cases G.get? y <;> simp [Bubble.raise_raise, Nat.add_comm 1]

/-! ## Loading -/

mutual

/-- Loading attaches a forest that depends on nothing but what is loaded. -/
theorem graft_eq_attach : ∀ (node : TraceNode) (F : Forest) (parent : Option BubbleId),
    F.graft parent node = F.attach parent (layout node)
  | ⟨tx, children⟩, F, parent => by
    rw [graft, layout]
    split
    · rename_i F' hadd
      rw [graftAll_eq_attach children F' (some F.nextId), addUnder_eq_attach rfl hadd]
      exact attach_under (accepts_of_addUnder hadd) rfl _
    · rename_i hadd
      refine (attach_of_not_accepts fun h => ?_).symm
      obtain ⟨F', hF'⟩ := h.exists_addUnder (.ofTransaction tx.withOpcode)
      rw [hadd] at hF'
      cases hF'

theorem graftAll_eq_attach : ∀ (nodes : List TraceNode) (F : Forest) (parent : Option BubbleId),
    F.graftAll parent nodes = F.attach parent (layoutAll nodes)
  | [], F, parent => by rw [graftAll, layoutAll, attach_empty]
  | node :: nodes, F, parent => by
    rw [graftAll, layoutAll, graftAll_eq_attach nodes, graft_eq_attach node, attach_attach]

end

lemma graftAll_empty (nodes : List TraceNode) : empty.graftAll none nodes = layoutAll nodes :=
  (graftAll_eq_attach nodes empty none).trans (empty_append _)

/-- What is loaded is the layout of the roots. -/
theorem ofNodes_eq_layoutAll {roots : List TraceNode} (hroots : roots ≠ []) :
    ofNodes roots = .ok (layoutAll roots) := by
  unfold ofNodes
  rw [List.isEmpty_eq_false_iff.2 hroots, graftAll_empty]
  rfl

lemma wellFormed_layoutAll (nodes : List TraceNode) : (layoutAll nodes).WellFormed := by
  rw [← graftAll_empty]
  exact graftAll_induction (fun _ _ _ _ hF hadd => wellFormed_addUnder hF rfl hadd) nodes
    empty none wellFormed_empty

lemma layoutAll_singleton (node : TraceNode) : layoutAll [node] = layout node := by
  simp [layoutAll, append_empty]

lemma wellFormed_layout (node : TraceNode) : (layout node).WellFormed := by
  rw [← layoutAll_singleton]
  exact wellFormed_layoutAll [node]

/-! ## The order of the slots -/

/-- What the slots hold, in ascending order. -/
def payloads (F : Forest) : List (Option Payload) :=
  F.slots.toList.map (Option.map Bubble.payload)

mutual

theorem preOrder_layout : ∀ node : TraceNode,
    (layout node).preOrder = List.range (layout node).slots.size
  | ⟨tx, children⟩ => by
    rw [layout, preOrder_under (wellFormed_layoutAll children), preOrder_layoutAll children,
      size_under, List.range_succ_eq_map]

/-- In a forest that was just loaded the walk with parents first meets the slots in ascending
order. -/
theorem preOrder_layoutAll : ∀ nodes : List TraceNode,
    (layoutAll nodes).preOrder = List.range (layoutAll nodes).slots.size
  | [] => rfl
  | node :: nodes => by
    rw [layoutAll, preOrder_append (wellFormed_layout node) (wellFormed_layoutAll nodes),
      preOrder_layout node, preOrder_layoutAll nodes, size_append, List.range_add]
    simp [Nat.add_comm]

end

mutual

theorem payloads_layout : ∀ node : TraceNode,
    (layout node).payloads = node.transactions.map fun tx => some (.transaction tx.withOpcode)
  | ⟨tx, children⟩ => by
    rw [TraceNode.transactions, List.map_cons, ← payloads_layoutAll children, layout]
    simp [payloads, under, Function.comp_def, Bubble.ofTransaction]

/-- The slots of a forest that was just loaded hold the transactions as they are written. -/
theorem payloads_layoutAll : ∀ nodes : List TraceNode, (layoutAll nodes).payloads =
    (TraceNode.transactionsAll nodes).map fun tx => some (.transaction tx.withOpcode)
  | [] => rfl
  | node :: nodes => by
    rw [TraceNode.transactionsAll, List.map_append, ← payloads_layout node,
      ← payloads_layoutAll nodes, layoutAll]
    simp [payloads, append, Function.comp_def]

end

end Forest
end TraceFold
