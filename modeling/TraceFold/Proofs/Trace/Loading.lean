import TraceFold.Proofs.Forest.WellFormed
import TraceFold.Trace

/-!
# Forests of traces

Loading a trace adds one childless bubble with a transaction after another, so whatever every such
addition keeps holds of the whole forest (`graftAll_induction`).  In particular the forest is
well-formed, and at first it holds nothing but transactions.
-/

namespace TraceFold.Forest

variable {F F' : Forest} {parent : Option BubbleId} {b b' : Bubble} {id : BubbleId}

/-- All live bubbles hold transactions, the opcodes of which are filled in. -/
def AllTransactions (F : Forest) : Prop :=
  ∀ id b, F.get? id = some b → ∃ tx : Transaction, b.payload = .transaction tx.withOpcode

mutual

/-- What is kept when a bubble with a transaction is added is kept when a node is. -/
theorem graft_induction {motive : Forest → Prop}
    (step : ∀ F F' parent (tx : Transaction), motive F →
      F.addUnder? parent (.ofTransaction tx.withOpcode) = some F' → motive F') :
    ∀ (node : TraceNode) (F : Forest) (parent : Option BubbleId), motive F →
      motive (F.graft parent node)
  | ⟨tx, children⟩, F, parent, hF => by
    rw [graft]
    split
    · rename_i F' hadd
      exact graftAll_induction step children F' (some F.nextId) (step F F' parent tx hF hadd)
    · exact hF

theorem graftAll_induction {motive : Forest → Prop}
    (step : ∀ F F' parent (tx : Transaction), motive F →
      F.addUnder? parent (.ofTransaction tx.withOpcode) = some F' → motive F') :
    ∀ (nodes : List TraceNode) (F : Forest) (parent : Option BubbleId), motive F →
      motive (F.graftAll parent nodes)
  | [], F, parent, hF => by rw [graftAll]; exact hF
  | node :: nodes, F, parent, hF => by
    rw [graftAll]
    exact graftAll_induction step nodes _ parent (graft_induction step node F parent hF)

end

lemma wellFormed_addUnder (hF : F.WellFormed) (hb : b.children = [])
    (h : F.addUnder? parent b = some F') : F'.WellFormed := by
  cases parent with
  | none =>
    obtain rfl := Option.some.inj h
    exact wellFormed_addRoot hF hb
  | some p => exact wellFormed_addChild hF hb h

lemma size_addUnder (h : F.addUnder? parent b = some F') :
    F'.slots.size = F.slots.size + 1 := by
  cases parent with
  | none =>
    obtain rfl := Option.some.inj h
    simp [addRoot]
  | some p =>
    have hadd : F.addChild? p b = some F' := h
    unfold addChild? at hadd
    split at hadd
    · obtain rfl := Option.some.inj hadd
      simp
    · cases hadd

lemma roots_addUnder (h : F.addUnder? parent b = some F') :
    F'.roots = if parent = none then F.roots ++ [F.nextId] else F.roots := by
  cases parent with
  | none =>
    obtain rfl := Option.some.inj h
    rfl
  | some p => exact roots_addChild h

/-- One bubble is new, and if it has a parent it has become its last child. -/
lemma get?_addUnder (h : F.addUnder? parent b = some F') (x : BubbleId) : F'.get? x =
    if x = F.nextId then some b
    else if parent = some x then
      (F.get? x).map fun b₀ => { b₀ with children := b₀.children ++ [F.nextId] }
    else F.get? x := by
  cases parent with
  | none =>
    obtain rfl := Option.some.inj h
    rw [get?_addRoot]
    simp
  | some p =>
    obtain ⟨b₀, hb₀, hget⟩ := get?_addChild h x
    rw [hget]
    by_cases hx : x = p
    · simp [hx, hb₀]
    · simp [hx, Ne.symm hx]

/-- Adding a bubble changes no payload. -/
lemma payload_addUnder (h : F.addUnder? parent b = some F') (hid : F'.get? id = some b') :
    b'.payload = b.payload ∨ ∃ b₀, F.get? id = some b₀ ∧ b₀.payload = b'.payload := by
  rw [get?_addUnder h] at hid
  split at hid
  · exact .inl (by rw [Option.some.inj hid])
  · split at hid
    · obtain ⟨b₀, hb₀, rfl⟩ := Option.map_eq_some_iff.1 hid
      exact .inr ⟨b₀, hb₀, rfl⟩
    · exact .inr ⟨b', hid, rfl⟩

lemma allTransactions_addUnder {tx : Transaction} (hF : F.AllTransactions)
    (h : F.addUnder? parent (.ofTransaction tx.withOpcode) = some F') : F'.AllTransactions := by
  intro id b' hid
  rcases payload_addUnder h hid with hnew | ⟨b₀, hb₀, hold⟩
  · exact ⟨tx, hnew⟩
  · rw [← hold]
    exact hF id b₀ hb₀

/-- Every trace that is not empty loads as a well-formed forest of transactions. -/
theorem exists_ofNodes {roots : List TraceNode} (hroots : roots ≠ []) :
    ∃ F, ofNodes roots = .ok F ∧ F.WellFormed ∧ F.AllTransactions := by
  refine ⟨empty.graftAll none roots, ?_, ?_, ?_⟩
  · rw [ofNodes, List.isEmpty_eq_false_iff.2 hroots]
    rfl
  · exact graftAll_induction (fun _ _ _ _ hF hadd => wellFormed_addUnder hF rfl hadd) roots
      empty none wellFormed_empty
  · refine graftAll_induction (fun _ _ _ _ hF hadd => allTransactions_addUnder hF hadd) roots
      empty none fun id b hid => ?_
    cases hid

end TraceFold.Forest
