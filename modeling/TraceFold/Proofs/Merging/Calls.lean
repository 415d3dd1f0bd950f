import TraceFold.Proofs.Forest.Payloads
import TraceFold.Proofs.Matching.Acceptance
import TraceFold.Proofs.Merging.Effect

/-!
# Calls of builders

Checks run while a pattern is matched, and builders when its match is merged; all that goes from the
one to the other are the claims.  To say on what the builders are called, `Claims.buildNoted` runs
them as a merge does, with the same result (`buildNoted_snd`), and notes every call.

Each call is made for a sub-pattern that claimed the bubble and accepts it (`madeBy_of_mem_calls`).
So a builder for transactions sees nothing else, if the pattern it belongs to needs one
(`transaction_of_guarded`).  What a merge reports is the failure of one of its calls
(`merge_reports`).
-/

namespace TraceFold

variable {α : Type} {F : Forest} {p q : Pattern α} {c : Claims α} {b : Bubble}
  {ids : List BubbleId} {id : BubbleId} {draft : α} {e : BuildError}

/-- A call of a builder for a claimed bubble, on a draft. -/
structure Call (α : Type) where
  id : BubbleId
  builder : Builder α
  draft : α
  bubble : Bubble

variable {call : Call α}

/-- The draft after a call, and the failure, if any. -/
def Call.result (call : Call α) : α × Option BuildError := call.builder call.draft call.bubble

namespace Claims

/-- Run the builders of some claimed bubbles, as `build` does, and note the calls. -/
def buildNoted (c : Claims α) (F : Forest) :
    List BubbleId → α → List (Call α) × Except (BubbleId × BuildError) α
  | [], draft => ([], .ok draft)
  | id :: ids, draft => match c.builder? id, F.get? id with
    | some build, some b => match build draft b with
      | (next, none) =>
        let rest := c.buildNoted F ids next
        (⟨id, build, draft, b⟩ :: rest.1, rest.2)
      | (_, some e) => ([⟨id, build, draft, b⟩], .error (id, e))
    | _, _ => c.buildNoted F ids draft

/-- Nothing but the note is added. -/
theorem buildNoted_snd (c : Claims α) (F : Forest) (ids : List BubbleId) (draft : α) :
    (c.buildNoted F ids draft).2 = c.build F ids draft := by
  fun_induction buildNoted c F ids draft with
  | case1 draft => rfl
  | case2 id ids draft build b hb hbuild next hnext rest ih =>
    rw [Claims.build, hbuild, hb]
    simp only [hnext]
    exact ih
  | case3 id ids draft build b hb hbuild next e hnext =>
    rw [Claims.build, hbuild, hb]
    simp only [hnext]
  | case4 id ids draft hno ih =>
    rw [Claims.build]
    split
    · rename_i build b hbuild hb
      exact absurd hb (hno build b hbuild)
    · exact ih

lemma mem_buildNoted (h : call ∈ (c.buildNoted F ids draft).1) : call.id ∈ ids ∧
    c.builder? call.id = some call.builder ∧ F.get? call.id = some call.bubble := by
  fun_induction buildNoted c F ids draft with
  | case1 draft => cases h
  | case2 id ids draft build b hb hbuild next hnext rest ih =>
    rcases List.mem_cons.1 h with rfl | h
    · exact ⟨List.mem_cons_self, hbuild, hb⟩
    · obtain ⟨hid, hcall⟩ := ih h
      exact ⟨List.mem_cons_of_mem id hid, hcall⟩
  | case3 id ids draft build b hb hbuild next e hnext =>
    obtain rfl := List.mem_singleton.1 h
    exact ⟨List.mem_cons_self, hbuild, hb⟩
  | case4 id ids draft hno ih =>
    obtain ⟨hid, hcall⟩ := ih h
    exact ⟨List.mem_cons_of_mem id hid, hcall⟩

/-- Building fails where a call does, and for the same reason. -/
lemma exists_call_of_build_eq_error {failure : BubbleId × BuildError}
    (h : c.build F ids draft = .error failure) : ∃ call ∈ (c.buildNoted F ids draft).1,
      call.id = failure.1 ∧ call.result.2 = some failure.2 := by
  rw [← buildNoted_snd] at h
  fun_induction buildNoted c F ids draft with
  | case1 draft => cases h
  | case2 id ids draft build b hb hbuild next hnext rest ih =>
    obtain ⟨call, hcall, hfailed⟩ := ih h
    exact ⟨call, List.mem_cons_of_mem _ hcall, hfailed⟩
  | case3 id ids draft build b hb hbuild next e hnext =>
    cases h
    exact ⟨_, List.mem_cons_self, rfl, congrArg Prod.snd hnext⟩
  | case4 id ids draft hno ih => exact ih h

end Claims

/-! ## The calls of a merge -/

/-- The call is made in an attempt of `p` at a bubble, for a sub-pattern `q`: this claimed the
bubble of the call, all its checks hold there, and the builder is its own. -/
structure Call.MadeBy (p : Pattern α) (F : Forest) (id : BubbleId) (call : Call α)
    (q : Pattern α) : Prop where
  claim : ∃ c, p.claim? F id = some c ∧ c.get? call.id = some q
  sub : p.Sub q
  builder : q.builder = some call.builder
  bubble : F.get? call.id = some call.bubble
  checks : ∀ check ∈ q.checks, check call.bubble = true

namespace Pattern

/-- All builders for transactions belong to patterns that need one. -/
def GuardsBuilders (p : Pattern α) : Prop :=
  ∀ q, p.Sub q → ∀ build, q.builder = some (.onTransaction build) → q.NeedsTransaction

lemma TakesTransactions.guardsBuilders (hp : p.TakesTransactions) : p.GuardsBuilders :=
  fun q hq _ _ => hp q hq

variable [Target α]

/-- The calls that a merge makes, in order. -/
def calls (p : Pattern α) (F : Forest) (id : BubbleId) : List (Call α) :=
  match p.claim? F id with
  | none => []
  | some c => (c.buildNoted F (c.inOrder F id) Target.blank).1

/-- Every call is made for a sub-pattern that accepts the bubble. -/
theorem madeBy_of_mem_calls (hF : F.WellFormed) (h : call ∈ p.calls F id) :
    ∃ q, call.MadeBy p F id q := by
  cases hclaim : p.claim? F id with
  | none => rw [calls, hclaim] at h; cases h
  | some c =>
    rw [calls, hclaim] at h
    obtain ⟨-, hbuilder, hbubble⟩ := Claims.mem_buildNoted h
    obtain ⟨q, hq, hbuilder⟩ := Option.bind_eq_some_iff.1 hbuilder
    obtain ⟨hsub, b, hb, hacc⟩ := accepts_of_get? hF hclaim hq
    rw [hbubble] at hb
    cases hb
    exact ⟨q, ⟨c, hclaim, hq⟩, hsub, hbuilder, hbubble, List.all_eq_true.1 hacc⟩

/-- A builder for transactions is called on a transaction, if its pattern needs one. -/
theorem transaction_of_guarded (hF : F.WellFormed) (hp : p.GuardsBuilders)
    (h : call ∈ p.calls F id) {build : α → Transaction → α × Option BuildError}
    (hbuild : call.builder = .onTransaction build) :
    ∃ tx, call.bubble.payload = .transaction tx ∧ call.result = build call.draft tx := by
  obtain ⟨q, hmade⟩ := madeBy_of_mem_calls hF h
  obtain ⟨check, hmem, honly⟩ := hp q hmade.sub build (hbuild ▸ hmade.builder)
  obtain ⟨tx, htx⟩ := Option.isSome_iff_exists.1 (honly _ (hmade.checks check hmem))
  have hpayload : call.bubble.payload = .transaction tx := Bubble.payload_of_transaction? htx
  refine ⟨tx, hpayload, ?_⟩
  rw [Call.result, hbuild, Builder.onTransaction, hpayload]

/-- A merge reports nothing, or the failure of one of its calls. -/
theorem merge_reports (p : Pattern α) (F : Forest) (id : BubbleId) :
    Event.reports (p.merge F id).events = [] ∨ ∃ call ∈ p.calls F id, ∃ e,
      call.result.2 = some e ∧
        Event.reports (p.merge F id).events = [p.failureReport F call.id e] := by
  have hmerge := merge_eq p F id
  cases hclaim : p.claim? F id with
  | none =>
    rw [hclaim] at hmerge
    rw [hmerge]
    exact .inl reports_lostEvents
  | some c =>
    cases hrep : replacement F id c with
    | ok b =>
      simp only [hclaim, hrep] at hmerge
      rw [hmerge, Event.reports_append, reports_lostEvents]
      exact .inl rfl
    | error failure =>
      simp only [hclaim, hrep] at hmerge
      rw [hmerge, Event.reports_append, reports_lostEvents]
      refine .inr ?_
      rw [replacement] at hrep
      cases hbuild : c.build F (c.inOrder F id) Target.blank with
      | ok draft => rw [hbuild] at hrep; cases hrep
      | error failure' =>
        rw [hbuild] at hrep
        cases hrep
        obtain ⟨call, hcall, hid, hfailed⟩ := Claims.exists_call_of_build_eq_error hbuild
        refine ⟨call, by rwa [calls, hclaim], failure.2, hfailed, ?_⟩
        rw [hid]
        rfl

end Pattern
end TraceFold
