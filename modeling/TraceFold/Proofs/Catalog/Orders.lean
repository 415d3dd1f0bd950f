import TraceFold.Proofs.Catalog.Failures
import TraceFold.Proofs.Catalog.Outcomes

/-!
# What becomes of a mint

The top of a mint is told from its opcode, whatever its body, so all that has to be there is an
order to a jetton master and an internal transfer below it (`Found`).  No builder fails on these,
and nothing else can stop a merge.

The success of a mint is that of its links taken together, in the order in which their builders run:
the one for the order overwrites what the blank draft says, and those that come later only add to it
(`Tells`).  What the chain is drawn together into is the same as for a transfer
(`Chain.Effect`).
-/

namespace TraceFold

open Forest

namespace Catalog.JettonMint

variable {F : Forest} {p c : BubbleId} {order arrived : Transaction} {transfer : InternalTransfer}

/-- A mint that can be merged: the transaction `order` at `p` has one of the two opcodes, and
`arrived` is that of the first internal transfer below it. -/
structure Found (F : Forest) (p c : BubbleId) (order arrived : Transaction)
    (transfer : InternalTransfer) : Prop where
  top : F.transaction? p = some order
  opcode : order.opcode = some 0xb56b9598 ∨ order.opcode = some 0x1674b0a0
  first : F.first? .jettonInternalTransfer p = some c
  arrival : F.transaction? c = some arrived
  body : arrived.body = some (.jettonInternalTransfer transfer)

/-- What the links of a mint tell of it.  A notice tells the recipient and has its say in the
success; an excess message tells nothing. -/
structure Tells (F : Forest) (c : BubbleId) (order arrived : Transaction)
    (transfer : InternalTransfer) (m : TraceFold.JettonMint) : Prop where
  master : m.master = order.account.address
  amount : m.amount = transfer.amount
  recipientWallet : m.recipientWallet = arrived.account.address
  notified : ∀ n, F.first? .jettonNotify c = some n → ∃ tx, F.transaction? n = some tx ∧
    m.recipient = tx.account ∧ m.success = (order.success && arrived.success && tx.success)
  unnoticed : F.first? .jettonNotify c = none →
    m.recipient = ⟨.zero, .none⟩ ∧ m.success = (order.success && arrived.success)

lemma isTopAt_iff : chain.isTopAt F p = true ↔ ∃ order, F.transaction? p = some order ∧
    (order.opcode = some 0xb56b9598 ∨ order.opcode = some 0x1674b0a0) := by
  rw [Chain.isTopAt, Option.any_eq_true]
  refine exists_congr fun order => and_congr_right fun _ => ?_
  change (order.opcode == some poolOpcode || order.opcode == some masterOpcode) = true ↔ _
  rw [Bool.or_eq_true, beq_iff_eq, beq_iff_eq]
  rfl

/-- A mint is found where an order is followed by an internal transfer. -/
lemma exists_found_iff : (∃ order arrived transfer, Found F p c order arrived transfer) ↔
    chain.isTopAt F p = true ∧ F.first? .jettonInternalTransfer p = some c := by
  rw [isTopAt_iff]
  constructor
  · rintro ⟨order, arrived, transfer, h⟩
    exact ⟨⟨order, h.top, h.opcode⟩, h.first⟩
  · rintro ⟨⟨order, htop, hopcode⟩, hfirst⟩
    obtain ⟨arrived, harrived, hcarries⟩ := carries_iff.1 (first?_eq_some hfirst).2
    obtain ⟨body, hbody, hop⟩ := Transaction.exists_body hcarries
    cases body <;> cases hop
    exact ⟨order, arrived, _, htop, hopcode, hfirst, harrived, hbody⟩

lemma merged_iff (hF : F.WellFormed) : (pattern.merge F p).merged = true ↔
    ∃ c order arrived transfer, Found F p c order arrived transfer := by
  simp only [exists_found_iff]
  refine (chain.merged_iff hF).trans (exists_congr fun c => and_congr_right fun _ => ?_)
  exact and_iff_left_of_imp fun hfirst => arrived_ok (first?_eq_some hfirst).2

/-- What is built says what the links tell. -/
theorem Found.tells_drafted (h : Found F p c order arrived transfer) :
    Tells F c order arrived transfer (chain.drafted F p c) := by
  have harrived : (chain.arrived F p c).1 = {
      recipient := ⟨.zero, .none⟩
      recipientWallet := arrived.account.address
      master := order.account.address
      amount := transfer.amount
      success := order.success && arrived.success } := by
    rw [Chain.arrived, txOf_eq h.top, txOf_eq h.arrival]
    change (buildArrival (buildOrder default order).1 arrived).1 = _
    rw [buildArrival, h.body]
    rfl
  rw [Chain.drafted, Chain.draftedWith, harrived]
  cases hnotice : F.first? .jettonNotify c with
  | none =>
    refine ⟨rfl, rfl, rfl, fun n hn => ?_, fun _ => ⟨rfl, rfl⟩⟩
    rw [hnotice] at hn
    cases hn
  | some n =>
    obtain ⟨tx, htx, -⟩ := carries_iff.1 (first?_eq_some hnotice).2
    rw [Option.elim_some, txOf_eq htx]
    refine ⟨rfl, rfl, rfl, fun n' hn => ?_, fun hn => ?_⟩
    · obtain rfl := Option.some.inj (hnotice.symm.trans hn)
      exact ⟨tx, htx, rfl, rfl⟩
    · rw [hnotice] at hn
      cases hn

/-- In a well-formed forest a mint is merged just where one is found.  Then its chain is drawn
together, and what is recognized says what the links tell.  Otherwise nothing changes.  No builder
ever fails, so nothing is reported. -/
theorem mint_outcome (hF : F.WellFormed) (p : BubbleId) :
    ((pattern.merge F p).merged = true ↔
      ∃ c order arrived transfer, Found F p c order arrived transfer) ∧
    (∀ call ∈ pattern.calls F p, call.result.2 = none) ∧
    Event.reports (pattern.merge F p).events = [] ∧
    (∀ c order arrived transfer, Found F p c order arrived transfer →
      Chain.Effect F (pattern.merge F p).forest p c ∧
      ∃ m, ((pattern.merge F p).forest.get? p).map Bubble.payload = some (.jettonMint m) ∧
        Tells F c order arrived transfer m) ∧
    ((pattern.merge F p).merged = false → (pattern.merge F p).forest = F) := by
  refine ⟨merged_iff hF, fun call hcall => result_ok hF hcall, merge_silent hF p,
    fun c order arrived transfer h => ?_, Pattern.merge_forest_of_not_merged⟩
  have hmerged := (merged_iff hF).2 ⟨c, order, arrived, transfer, h⟩
  exact ⟨chain.effect hF hmerged h.first, _, chain.payload_of_merged hF hmerged h.first,
    h.tells_drafted⟩

end Catalog.JettonMint

/-- A mint of which the order has the body of another message, and the notice, which comes after the
excess message and another one, has failed. -/
def Forest.failedNotice : Forest where
  slots := #[
    some { Bubble.ofTransaction { (default : Transaction) with
        account := ⟨⟨0, .replicate 32 9⟩, .none⟩
        opcode := some 0xb56b9598
        body := some (.excess 0)
        success := true } with children := [1] },
    some { Bubble.ofTransaction { (default : Transaction) with
        body := some (.jettonInternalTransfer { (default : InternalTransfer) with
          amount := ⟨1000, by decide⟩ })
        success := true } with children := [2, 3, 4] },
    some (Bubble.ofTransaction { (default : Transaction) with body := some (.excess 0) }),
    some default,
    some (Bubble.ofTransaction { (default : Transaction) with
        account := ⟨⟨0, .replicate 32 8⟩, .wallet⟩
        body := some (.jettonNotify default) })]
  roots := [0]

open Catalog JettonMint in
/-- The other message is kept, and the mint is recognized. -/
theorem Catalog.JettonMint.mint_outcome_failedNotice : failedNotice.WellFormed ∧
    failedNotice.endsInOrder 1 = [2, 4] ∧ (pattern.merge failedNotice 0).merged = true ∧
    (pattern.merge failedNotice 0).forest.children 0 = [3] ∧
    ∃ c order arrived transfer, Found failedNotice 0 c order arrived transfer ∧
      Chain.Effect failedNotice (pattern.merge failedNotice 0).forest 0 c ∧
      ∃ m, ((pattern.merge failedNotice 0).forest.get? 0).map Bubble.payload =
          some (.jettonMint m) ∧
        Tells failedNotice c order arrived transfer m := by
  have hF : failedNotice.WellFormed := by decide
  have hmerged : (pattern.merge failedNotice 0).merged = true := by decide
  obtain ⟨hiff, -, -, hout, -⟩ := mint_outcome hF 0
  obtain ⟨c, order, arrived, transfer, hfound⟩ := hiff.1 hmerged
  exact ⟨hF, by decide, hmerged, by decide, c, order, arrived, transfer, hfound,
    hout c order arrived transfer hfound⟩

end TraceFold
