import TraceFold.Catalog.JettonTransfer
import TraceFold.Proofs.Merging.Effect

/-!
# Merges that are refused

A merge can be refused for two reasons: the pattern does not fit, or it fits and a builder fails.
Builders run in pre-order and share one draft, so whether one of them fails depends on what those
before it have written.  `Claims.FirstFailure` says this without running anything: everyone before
succeeds on what was left to it, and this one fails on what is left to it.

`refused_merges` says that these are the only two reasons, that a refused merge leaves the forest as
it was, and what is reported: nothing if the pattern does not fit, and the first failure if it does.
-/

namespace TraceFold

variable {α : Type} {F : Forest} {p : Pattern α} {c : Claims α} {b : Bubble} {draft : α}
  {ids before after : List BubbleId} {root id x : BubbleId} {e : BuildError}

namespace Claims

/-! ## The first failure -/

/-- What the builders of some claimed bubbles leave of a draft, one after the other. -/
def draftAfter (c : Claims α) (F : Forest) (draft : α) (ids : List BubbleId) : α :=
  ids.foldl (fun draft id => (c.buildAt F draft id).1) draft

/-- On the way through `before` and then `id`, the first builder to fail is that of `id`. -/
structure FirstFailure (c : Claims α) (F : Forest) (draft : α) (before : List BubbleId)
    (id : BubbleId) (e : BuildError) : Prop where
  earlier : ∀ done next rest, before = done ++ next :: rest →
    (c.buildAt F (c.draftAfter F draft done) next).2 = none
  fails : (c.buildAt F (c.draftAfter F draft before) id).2 = some e

lemma firstFailure_nil_iff : c.FirstFailure F draft [] id e ↔ (c.buildAt F draft id).2 = some e :=
  ⟨fun h => h.fails, fun h => ⟨fun _ _ _ heq => by simp at heq, h⟩⟩

/-- A failure after another bubble is one that follows what this bubble has left. -/
lemma firstFailure_cons_iff : c.FirstFailure F draft (x :: before) id e ↔
    (c.buildAt F draft x).2 = none ∧
      c.FirstFailure F (c.buildAt F draft x).1 before id e := by
  constructor
  · intro h
    refine ⟨h.earlier [] x before rfl, fun done next rest heq => ?_, h.fails⟩
    exact h.earlier (x :: done) next rest (by rw [heq, List.cons_append])
  · rintro ⟨hx, h⟩
    refine ⟨fun done next rest heq => ?_, h.fails⟩
    cases done with
    | nil =>
      obtain ⟨rfl, -⟩ := List.cons.inj heq
      exact hx
    | cons y done =>
      obtain ⟨rfl, heq⟩ := List.cons.inj heq
      exact h.earlier done next rest (by simpa using heq)

/-- Running the builders comes to the first failure and to nothing else. -/
theorem build_eq_error_iff : c.build F ids draft = .error (id, e) ↔
    ∃ before after, ids = before ++ id :: after ∧ c.FirstFailure F draft before id e := by
  induction ids generalizing draft with
  | nil => simp [build]
  | cons x ids ih =>
    have hcons : ∀ before after, x :: ids = before ++ id :: after ↔
        (before = [] ∧ id = x ∧ after = ids) ∨
          ∃ before', before = x :: before' ∧ ids = before' ++ id :: after := by
      intro before after
      simp only [List.cons_eq_append_iff, List.cons.injEq]
    rw [build_cons]
    rcases hat : c.buildAt F draft x with ⟨next, failure⟩
    cases failure with
    | none =>
      simp only [ih]
      constructor
      · rintro ⟨before, after, rfl, h⟩
        exact ⟨x :: before, after, rfl, firstFailure_cons_iff.2 ⟨by rw [hat], by rwa [hat]⟩⟩
      · rintro ⟨before, after, heq, h⟩
        rcases (hcons before after).1 heq with ⟨rfl, rfl, -⟩ | ⟨before, rfl, hids⟩
        · rw [firstFailure_nil_iff, hat] at h
          cases h
        · rw [firstFailure_cons_iff, hat] at h
          exact ⟨before, after, hids, h.2⟩
    | some error =>
      constructor
      · intro h
        obtain ⟨rfl, rfl⟩ := Prod.mk.inj (Except.error.inj h)
        exact ⟨[], ids, rfl, firstFailure_nil_iff.2 (by rw [hat])⟩
      · rintro ⟨before, after, heq, h⟩
        rcases (hcons before after).1 heq with ⟨rfl, rfl, -⟩ | ⟨before, rfl, -⟩
        · rw [firstFailure_nil_iff, hat] at h
          rw [Option.some.inj h]
        · rw [firstFailure_cons_iff, hat] at h
          cases h.1

end Claims

namespace Pattern

/-! ## The two reasons -/

lemma entries_failureReport (p : Pattern α) (F : Forest) (x : BubbleId) (e : BuildError) :
    (p.failureReport F x e).data.entries =
      [("bubble", F.describe x), ("error", e.message), ("straw", p.name)] := by
  have hbubble : compare "bubble" "straw" = .lt := by decide
  have herror : compare "error" "bubble" = .gt := by decide
  have herror' : compare "error" "straw" = .lt := by decide
  simp [failureReport, Report.of, Report.withText, SortedMap.empty, SortedMap.insert,
    SortedMap.upsert, SortedMap.upsertEntries, hbubble, herror, herror']

variable [Target α]

/-- The pattern fits at `root` and claims `c`, and then `x` is the first claimed bubble, in
pre-order, whose builder fails, if building starts from the blank draft. -/
def FailsFirst (p : Pattern α) (F : Forest) (root : BubbleId) (c : Claims α) (x : BubbleId)
    (e : BuildError) : Prop :=
  p.claim? F root = some c ∧ ∃ before after,
    F.preOrder.filter c.contains = before ++ x :: after ∧
      c.FirstFailure F Target.blank before x e

lemma replacement_eq_error_iff : replacement F root c = .error (x, e) ↔
    c.build F (c.inOrder F root) Target.blank = .error (x, e) := by
  rw [replacement]
  cases c.build F (c.inOrder F root) Target.blank with
  | error failure => simp only [bind, Except.bind, Except.error.injEq]
  | ok draft => simp only [bind, Except.bind, reduceCtorEq]

lemma failsFirst_iff (hF : F.WellFormed) (h : p.claim? F root = some c) :
    p.FailsFirst F root c x e ↔ replacement F root c = .error (x, e) := by
  rw [replacement_eq_error_iff, Claims.build_eq_error_iff, inOrder_eq hF h]
  exact and_iff_right h

/-- Where a merge at `root` is refused, and what this means. -/
structure Refusals (p : Pattern α) (F : Forest) (root : BubbleId) : Prop where
  refused_iff : (p.merge F root).merged = false ↔
    p.claim? F root = none ∨ ∃ c x e, p.FailsFirst F root c x e
  /-- Neither a slot nor the list of roots is touched. -/
  unchanged : (p.merge F root).merged = false → (p.merge F root).forest = F
  /-- That a pattern does not fit is worth no report. -/
  silent : p.claim? F root = none → Event.reports (p.merge F root).events = []
  /-- A failure is reported once, by the name of the whole pattern and the bubble that failed. -/
  reported : ∀ c x e, p.FailsFirst F root c x e → ∃ b report, F.get? x = some b ∧
    Event.reports (p.merge F root).events = [report] ∧
    report.operation = "Straw.Merge" ∧ report.level = .error ∧
    report.data.entries = [("bubble", b.describe), ("error", e.message), ("straw", p.name)]

/-- A merge in a well-formed forest is refused if the pattern does not fit or a builder fails, and
only then.  Either way nothing is changed, and no more is reported than the first failure. -/
theorem refused_merges (hF : F.WellFormed) (p : Pattern α) (root : BubbleId) :
    p.Refusals F root := by
  have hmerge := merge_eq p F root
  cases hclaim : p.claim? F root with
  | none =>
    rw [hclaim] at hmerge
    have hno : ∀ c x e, ¬ p.FailsFirst F root c x e := fun c x e h => by
      cases hclaim.symm.trans h.1
    exact ⟨by simp [hmerge, hclaim], by simp [hmerge],
      fun _ => by rw [hmerge]; exact reports_lostEvents, fun c x e h => absurd h (hno c x e)⟩
  | some c =>
    have hsame : ∀ c' x e, p.FailsFirst F root c' x e → c' = c := fun c' x e h =>
      Option.some.inj (h.1.symm.trans hclaim)
    cases hrep : replacement F root c with
    | ok b =>
      simp only [hclaim, hrep] at hmerge
      have hno : ∀ c' x e, ¬ p.FailsFirst F root c' x e := fun c' x e h => by
        obtain rfl := hsame c' x e h
        rw [failsFirst_iff hF hclaim, hrep] at h
        cases h
      exact ⟨by simp [hmerge, hclaim, hno], by simp [hmerge], by simp [hclaim],
        fun c' x e h => absurd h (hno c' x e)⟩
    | error failure =>
      obtain ⟨x, e⟩ := failure
      simp only [hclaim, hrep] at hmerge
      have hfails := (failsFirst_iff hF hclaim).2 hrep
      refine ⟨?_, fun _ => by rw [hmerge], by simp [hclaim], fun c' x' e' h => ?_⟩
      · exact ⟨fun _ => .inr ⟨c, x, e, hfails⟩, fun _ => by rw [hmerge]⟩
      · obtain rfl := hsame c' x' e' h
        rw [failsFirst_iff hF hclaim, hrep] at h
        obtain ⟨rfl, rfl⟩ := Prod.mk.inj (Except.error.inj h)
        have hlive := (claim?_group hF hclaim).live x
          ((mem_inOrder hF hclaim).1 (mem_of_replacement_eq_error hrep))
        obtain ⟨b, hb⟩ := Forest.contains_iff.1 hlive
        refine ⟨b, p.failureReport F x e, hb, ?_, rfl, rfl, ?_⟩
        · rw [hmerge, Event.reports_append, reports_lostEvents]
          rfl
        · rw [entries_failureReport, Forest.describe, hb]
          rfl

end Pattern

/-- A transfer and its receiving wallet, neither of which tells the jetton master. -/
def Forest.masterless : Forest where
  slots := #[
    some { Bubble.ofTransaction { (default : Transaction) with
      body := some (.jettonTransfer default) } with children := [1] },
    some (.ofTransaction { (default : Transaction) with
      body := some (.jettonInternalTransfer default) })]
  roots := [0]

open Forest Catalog in
/-- The builder for the request succeeds and the one for the arrival fails on what that has left. -/
theorem Pattern.refused_merges_masterless : masterless.WellFormed ∧
    (JettonTransfer.pattern.merge masterless 0).merged = false ∧
    (JettonTransfer.pattern.merge masterless 0).reported = true ∧
    (JettonTransfer.pattern.claim? masterless 0).isSome = true ∧
    (JettonTransfer.pattern.claim? masterless 1).isSome = false ∧
    JettonTransfer.pattern.Refusals masterless 0 ∧ JettonTransfer.pattern.Refusals masterless 1 :=
  ⟨by decide, by decide, by decide, by decide, by decide, refused_merges (by decide) _ 0,
    refused_merges (by decide) _ 1⟩

end TraceFold
