import Mathlib.Logic.Relation
import TraceFold.Proofs.Matching.Agreement

/-!
# What it takes to be claimed

A bubble is claimed by one of the sub-patterns of the pattern that is tried (`Pattern.Sub`), and
only if it passes all the checks of that sub-pattern (`accepts_of_get?`).

So what a check says of every bubble that passes it is true of whatever a pattern with this check
claims.  The property that matters most is to hold a transaction: a pattern needs one if one of its
checks fails on every other payload (`NeedsTransaction`), and it takes nothing else if it and all
its sub-patterns do (`TakesTransactions`).
-/

namespace TraceFold

variable {α : Type} {F : Forest} {p q r : Pattern α} {c : Claims α} {b : Bubble}
  {es : List (BubbleId × Pattern α)} {id x : BubbleId}

namespace Pattern

/-! ## Sub-patterns -/

/-- A pattern has itself among its sub-patterns, its children, their children and so on. -/
def Sub (p q : Pattern α) : Prop :=
  Relation.ReflTransGen (fun parent child : Pattern α => child ∈ parent.children) p q

lemma Sub.refl (p : Pattern α) : p.Sub p := Relation.ReflTransGen.refl

lemma Sub.child (h : p.Sub q) (hr : r ∈ q.children) : p.Sub r := Relation.ReflTransGen.tail h hr

/-- What holds of all sub-patterns holds at the top and below each child. -/
lemma forall_sub_iff {motive : Pattern α → Prop} : (∀ q, p.Sub q → motive q) ↔
    motive p ∧ ∀ r ∈ p.children, ∀ q, r.Sub q → motive q := by
  constructor
  · exact fun h => ⟨h p (.refl p), fun r hr q hq => h q (Relation.ReflTransGen.head hr hq)⟩
  · rintro ⟨hp, hchildren⟩ q hq
    rcases Relation.ReflTransGen.cases_head hq with rfl | ⟨r, hr, hq⟩
    · exact hp
    · exact hchildren r hr q hq

/-! ## Claims and checks -/

/-- Going up from parent to parent ends at the top, which the pattern itself takes. -/
lemma Coherent.sub (hF : F.WellFormed) (h : Coherent F p id es) : ∀ e ∈ es, p.Sub e.2 := by
  have key : ∀ y q, (y, q) ∈ es → p.Sub q := by
    intro y
    induction y using Nat.strongRecOn with
    | ind y ih =>
      intro q hmem
      rcases h.parent (y, q) hmem with hroot | ⟨d, hd, hchild, hq⟩
      · have hentry := List.inj_on_of_nodup_map h.nodup hmem h.root_mem hroot
        rw [(Prod.mk.inj hentry).2]
        exact .refl p
      · exact (ih d.1 (hF.lt_of_mem_children hchild) d.2 hd).child hq
  exact fun e he => key e.1 e.2 he

section Claimed

variable (hF : F.WellFormed) (h : p.claim? F id = some c)

include hF h

lemma coherent_of_claim? : Coherent F p id c.entries :=
  coherent_of_greedy hF (greedy_of_claim? hF h)

/-- The claim on the bubble at the top is that of the whole pattern. -/
lemma get?_root : c.get? id = some p :=
  (inStep_of_claim? h).mem_entries.1 (coherent_of_claim? hF h).root_mem

/-- A claim is made by a sub-pattern that accepts the bubble. -/
theorem accepts_of_get? (hq : c.get? x = some q) :
    p.Sub q ∧ ∃ b, F.get? x = some b ∧ q.accepts b = true := by
  have hco := coherent_of_claim? hF h
  have hmem := (inStep_of_claim? h).mem_entries.2 hq
  exact ⟨hco.sub hF _ hmem, hco.accepted _ hmem⟩

end Claimed
end Pattern

/-! ## Patterns of transactions -/

/-- The check fails on every bubble that holds no transaction. -/
def Check.OnlyTransactions (check : Check) : Prop :=
  ∀ b : Bubble, check b = true → b.transaction?.isSome = true

lemma Check.isTransaction_eq (b : Bubble) : Check.isTransaction b = b.transaction?.isSome := by
  rw [Check.isTransaction, Bubble.transaction?]
  cases b.payload <;> rfl

lemma Check.isTransaction_onlyTransactions : Check.isTransaction.OnlyTransactions :=
  fun b h => by rwa [← Check.isTransaction_eq]

namespace Pattern

/-- One of the checks fails on whatever holds no transaction. -/
def NeedsTransaction (p : Pattern α) : Prop :=
  ∃ check ∈ p.checks, check.OnlyTransactions

/-- The pattern and all its sub-patterns need transactions. -/
def TakesTransactions (p : Pattern α) : Prop :=
  ∀ q, p.Sub q → q.NeedsTransaction

lemma NeedsTransaction.transaction? (hp : p.NeedsTransaction) (h : p.accepts b = true) :
    b.transaction?.isSome = true := by
  obtain ⟨check, hmem, honly⟩ := hp
  exact honly b (List.all_eq_true.1 h check hmem)

lemma TakesTransactions.needs (hp : p.TakesTransactions) : p.NeedsTransaction := hp p (.refl p)

/-- The check that comes first sees to it. -/
lemma needsTransaction_of_checks {checks : List Check}
    (h : p.checks = Check.isTransaction :: checks) : p.NeedsTransaction := by
  refine ⟨Check.isTransaction, ?_, Check.isTransaction_onlyTransactions⟩
  rw [h]
  exact List.mem_cons_self

end Pattern
end TraceFold
