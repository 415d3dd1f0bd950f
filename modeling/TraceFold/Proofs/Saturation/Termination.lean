import TraceFold.Proofs.Merging.Transactions
import TraceFold.Proofs.Saturation.Progress

/-!
# How long a run can take

A merge need not make a forest smaller: a pattern without children only rewrites its bubble, and
what one rule has made another may take.  But if every pattern of a catalog needs a transaction at
its top, and what is built becomes an action, every merge uses a transaction up, whatever its
sub-patterns take.

So a run merges no more often than there are transactions.  Every pass but the last merges
something, hence there is at most one pass more than that, and a run that is allowed so many ends
at a fixpoint (`bounded_by_transactions`).
-/

namespace TraceFold.Saturation

variable {F : Forest} {rules : Rules} {s : Saturation}

lemma step_passes (rules : Rules) (s : Saturation) :
    (s.step rules).passes.length = s.passes.length + 1 := by
  simp [step]

lemma close_passes (n : Nat) (s : Saturation) : (s.close n).passes = s.passes := by
  rw [close]; split <;> rfl

/-- The merges of a run and the transactions that are left are no more than the transactions there
were. -/
lemma merged_add_le (hmakes : ∀ rule ∈ rules, rule.MakesActions)
    (hneeds : ∀ rule ∈ rules, rule.NeedsTransaction) (hF : F.WellFormed) (n : Nat) :
    (ofForest rules n F).merged + (ofForest rules n F).forest.transactionIds.length ≤
      F.transactionIds.length := by
  refine merged_induction
    (motive := fun G m => m + G.transactionIds.length ≤ F.transactionIds.length) ?_ hF (by omega) n
  intro G rule id m hrule hG hmerged hle
  have hlt := AnyRule.length_transactionIds_lt hG hmerged (hmakes rule hrule) (hneeds rule hrule)
  omega

/-- Every pass merges something, except the last one of a run that ends at a fixpoint; and a run
that does not makes all its passes. -/
lemma passes_steps (rules : Rules) (n : Nat) (hs : s.fixpoint = false)
    (h : s.passes.length ≤ s.merged) :
    (s.steps rules n).passes.length ≤ (s.steps rules n).merged + 1 ∧
      ((s.steps rules n).fixpoint = false →
        (s.steps rules n).passes.length = s.passes.length + n ∧
          (s.steps rules n).passes.length ≤ (s.steps rules n).merged) := by
  induction n generalizing s with
  | zero => exact ⟨by rw [steps]; omega, fun _ => ⟨rfl, h⟩⟩
  | succ n ih =>
    have hpasses := step_passes rules s
    have hmerged := step_merged rules s
    rw [steps]
    split
    · rename_i hfix
      exact ⟨by omega, fun hgoing => by rw [hfix] at hgoing; cases hgoing⟩
    · rename_i hgoing
      have hsome := mt (step_fixpoint rules s).2 hgoing
      obtain ⟨hle, hall⟩ := ih (Bool.eq_false_iff.2 hgoing) (by omega)
      refine ⟨hle, fun hend => ⟨?_, (hall hend).2⟩⟩
      rw [(hall hend).1, hpasses]
      omega

/-- Every merge of a rule that needs a transaction and makes actions, as rules for transfers and
mints do, leaves fewer transactions.  With a catalog of such rules, and whatever the number of
passes that is allowed, a run over a forest with `t` transactions merges at most `t` times and makes
at most `t + 1` passes; if it is allowed more than `t`, it ends at a fixpoint. -/
theorem bounded_by_transactions :
    (∀ rules : List Rule, ∀ rule ∈ (rules : Rules), rule.MakesActions) ∧
    (∀ rule : AnyRule, rule.MakesActions → rule.NeedsTransaction → ∀ F : Forest, F.WellFormed →
      ∀ id, (rule.merge F id).merged = true →
        (rule.merge F id).forest.transactionIds.length < F.transactionIds.length) ∧
    ∀ rules : Rules, (∀ rule ∈ rules, rule.MakesActions) →
      (∀ rule ∈ rules, rule.NeedsTransaction) → ∀ F : Forest, F.WellFormed →
      ∀ maxPasses, (ofForest rules maxPasses F).merged ≤ F.transactionIds.length ∧
        (ofForest rules maxPasses F).passes.length ≤ F.transactionIds.length + 1 ∧
        (F.transactionIds.length < maxPasses →
          (ofForest rules maxPasses F).fixpoint = true) := by
  refine ⟨Rule.makesActions, ?_, ?_⟩
  · intro rule hmakes hneeds F hF id hmerged
    exact AnyRule.length_transactionIds_lt hF hmerged hmakes hneeds
  intro rules hmakes hneeds F hF n
  have hmerges := merged_add_le hmakes hneeds hF n
  obtain ⟨hle, hall⟩ := passes_steps rules n (s := start F) rfl (Nat.le_refl 0)
  rw [ofForest, close_merged] at hmerges ⊢
  rw [close_passes, close_fixpoint]
  refine ⟨by omega, by omega, fun hn => ?_⟩
  by_contra hgoing
  obtain ⟨hlength, hpasses⟩ := hall (Bool.eq_false_iff.2 hgoing)
  have hstart : (start F).passes.length = 0 := rfl
  omega

/-- The standard catalog over a forest of four transactions, in which a mint merges. -/
theorem bounded_by_transactions_lateMaster : lateMaster.WellFormed ∧
    lateMaster.transactionIds.length = 4 ∧
    ((Rule.mint Catalog.JettonMint.pattern).merge lateMaster 1).merged = true ∧
    ((Rule.mint Catalog.JettonMint.pattern).merge lateMaster 1).forest.transactionIds.length < 4 ∧
    (ofForest Catalog.standard 5 lateMaster).merged ≤ 4 ∧
    (ofForest Catalog.standard 5 lateMaster).passes.length ≤ 5 ∧
    (ofForest Catalog.standard 5 lateMaster).fixpoint = true := by
  have hF : lateMaster.WellFormed := by decide
  have hcount : lateMaster.transactionIds.length = 4 := by decide +kernel
  have hmint : ((Rule.mint Catalog.JettonMint.pattern).merge lateMaster 1).merged = true := by
    decide +kernel
  have hneeds := fun rule hrule => (Catalog.standard_takesTransactions rule hrule).needs
  obtain ⟨hmakes, hmerge, hrun⟩ := bounded_by_transactions
  have hmakes : ∀ rule ∈ Catalog.standard, rule.MakesActions := hmakes _
  have hmember := Catalog.mem_standard.2 (.inr rfl)
  have hless := hmerge _ (hmakes _ hmember) (hneeds _ hmember) lateMaster hF 1 hmint
  obtain ⟨hmerged, hpasses, hfix⟩ :=
    hrun Catalog.standard hmakes hneeds lateMaster hF 5
  rw [hcount] at hless hmerged hpasses hfix
  exact ⟨hF, hcount, hmint, hless, hmerged, hpasses, hfix (by decide)⟩

end TraceFold.Saturation
