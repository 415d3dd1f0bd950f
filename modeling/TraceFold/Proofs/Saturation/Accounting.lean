import TraceFold.Proofs.Merging.Accounting
import TraceFold.Proofs.Saturation.Persistence
import TraceFold.Proofs.Trace.Layout

/-!
# The accounts of a run

In a forest that was just loaded every bubble holds a transaction and has its flow
(`Forest.fresh_layoutAll`).  A run whose rules take nothing but transactions leaves the flows of
those that stay alone (`Run.Reached.keeps`), and an action has the flow that it got when it was
made, as nothing takes it in later (`Run.Accounted`).

As a run merges at most once at a bubble, what was drawn together for an action is determined
(`Run.DrawsTogether.unique`).  So the accounts of the whole run can be given from the transactions
of the trace alone, where the one at the top of an action is counted twice (`flows_add_up`).
-/

namespace TraceFold

variable {F F' G : Forest} {rules : Rules} {rule : AnyRule} {r : Run} {roots nodes : List TraceNode}
  {K : List BubbleId} {n passes sweeps visits : Nat} {id x : BubbleId} {place : Flow.Place}

/-! ## Loaded forests -/

namespace Forest

lemma fresh_addUnder {parent : Option BubbleId} {tx : Transaction} (hF : F.Fresh)
    (h : F.addUnder? parent (.ofTransaction tx) = some F') : F'.Fresh := by
  intro id b hb
  rw [get?_addUnder h] at hb
  split at hb
  · obtain rfl := Option.some.inj hb
    exact ⟨tx, rfl, rfl⟩
  · split at hb
    · obtain ⟨b₀, hb₀, rfl⟩ := Option.map_eq_some_iff.1 hb
      exact hF id b₀ hb₀
    · exact hF id b hb

lemma fresh_layoutAll (nodes : List TraceNode) : (layoutAll nodes).Fresh := by
  rw [← graftAll_empty]
  refine graftAll_induction (fun _ _ _ _ hF hadd => fresh_addUnder hF hadd) nodes empty none ?_
  intro id b hb
  cases hb

lemma Fresh.actionIds_eq_nil (hF : F.Fresh) : F.actionIds = [] := by
  refine List.eq_nil_iff_forall_not_mem.2 fun x hx => ?_
  rw [mem_actionIds] at hx
  obtain ⟨b, hb⟩ := contains_iff.1 (contains_of_action? hx)
  obtain ⟨tx, hpayload, -⟩ := hF x b hb
  rw [action?_of_get? hb, hpayload] at hx
  cases hx

lemma Fresh.live_eq (hF : F.Fresh) : F.live = F.transactionIds := by
  refine (List.filter_eq_self.2 fun x hx => ?_).symm
  obtain ⟨b, hb⟩ := contains_iff.1 (mem_live.1 hx)
  obtain ⟨tx, hpayload, -⟩ := hF x b hb
  rw [transaction?, hb, Option.bind_some, Bubble.transaction?, hpayload]
  rfl

lemma map_transaction?_range (F : Forest) : (List.range F.slots.size).map F.transaction? =
    F.payloads.map fun payload => payload.bind Payload.transaction? := by
  rw [payloads, ← F.map_get?_range, List.map_map, List.map_map]
  refine List.map_congr_left fun x _ => ?_
  show F.transaction? x = ((F.get? x).map Bubble.payload).bind Payload.transaction?
  rw [transaction?]
  cases F.get? x <;> rfl

/-- A loaded forest has the transactions of its trace, with their opcodes filled in. -/
lemma map_txOf_layoutAll (nodes : List TraceNode) :
    (layoutAll nodes).transactionIds.map (layoutAll nodes).txOf =
      (TraceNode.transactionsAll nodes).map Transaction.withOpcode := by
  have hall : (List.range (layoutAll nodes).slots.size).map (layoutAll nodes).transaction? =
      (TraceNode.transactionsAll nodes).map fun tx => some tx.withOpcode := by
    rw [map_transaction?_range, payloads_layoutAll, List.map_map]
    rfl
  have hsome : ∀ x ∈ List.range (layoutAll nodes).slots.size,
      ((layoutAll nodes).transaction? x).isSome = true := by
    intro x hx
    have hmem := List.mem_map_of_mem hx (f := (layoutAll nodes).transaction?)
    rw [hall] at hmem
    obtain ⟨tx, -, htx⟩ := List.mem_map.1 hmem
    rw [← htx]
    rfl
  have hids : (layoutAll nodes).transactionIds = List.range (layoutAll nodes).slots.size := by
    rw [transactionIds, live, List.filter_filter]
    exact List.filter_eq_self.2 fun x hx => by
      rw [hsome x hx, contains_of_transaction? (hsome x hx)]; rfl
  rw [hids]
  calc (List.range (layoutAll nodes).slots.size).map (layoutAll nodes).txOf
      = ((List.range (layoutAll nodes).slots.size).map (layoutAll nodes).transaction?).map
          (·.getD default) := by rw [List.map_map]; rfl
    _ = (TraceNode.transactionsAll nodes).map Transaction.withOpcode := by
        rw [hall, List.map_map]; rfl

/-- What is moved in a loaded forest is what the transactions of its trace move. -/
lemma map_moved_layoutAll (nodes : List TraceNode) (place : Flow.Place) :
    (layoutAll nodes).transactionIds.map ((layoutAll nodes).moved place) =
      (TraceNode.transactionsAll nodes).map fun tx =>
        ((Flow.ofTransaction tx).entry place).val := by
  have hmap := congrArg (List.map fun tx => ((Flow.ofTransaction tx).entry place).val)
    (map_txOf_layoutAll nodes)
  rw [List.map_map, List.map_map] at hmap
  refine hmap.trans (List.map_congr_left fun tx _ => ?_)
  show ((Flow.ofTransaction tx.withOpcode).entry place).val = _
  rw [Flow.ofTransaction_withOpcode]

/-- The transaction of a bubble is one of the trace. -/
lemma exists_txOf_layoutAll (hx : x ∈ (layoutAll nodes).transactionIds) :
    ∃ tx ∈ TraceNode.transactionsAll nodes, (layoutAll nodes).txOf x = tx.withOpcode := by
  have hmem := List.mem_map_of_mem hx (f := (layoutAll nodes).txOf)
  rw [map_txOf_layoutAll] at hmem
  obtain ⟨tx, htx, heq⟩ := List.mem_map.1 hmem
  exact ⟨tx, htx, heq.symm⟩

end Forest

/-! ## What a run leaves alone, and what it makes -/

namespace Run

/-- What holds a transaction at some state of a run held it at first, if rules make actions. -/
lemma Reached.keeps (hmakes : ∀ rule ∈ rules, rule.MakesActions) (hF : F.WellFormed)
    (h : Reached rules F r) : F.Keeps r.forest := by
  induction h with
  | start => exact .refl F
  | @visit r index rule hrule h id ih =>
    cases visitCase r index rule id with
    | skipped _ hsame => rwa [hsame]
    | merged _ _ hmerged hforest =>
      have hdraws := AnyRule.draws_of_merged (h.wellFormed hF) hmerged
        (hmakes rule (List.mem_of_getElem? hrule))
      rw [hforest]
      exact ih.trans (hdraws.contracts.keeps hdraws.action)
    | refused _ _ _ hforest => rwa [hforest]
  | record hforest _ _ ih => rwa [hforest]

/-- In the run with at most `n` passes a rule merges at the bubble and draws these together: the
bubble itself and others, all of them transactions of the first forest, none of them twice. -/
structure DrawsTogether (rules : Rules) (F : Forest) (n : Nat) (id : BubbleId)
    (K : List BubbleId) : Prop where
  merge : ∃ passes sweeps visits rule, Merges rules F n passes sweeps visits rule id ∧
    K = rule.claimed (moment rules F passes sweeps visits).forest id
  root_mem : id ∈ K
  nodup : K.Nodup
  transactions : ∀ x ∈ K, (F.transaction? x).isSome = true

/-- What was drawn together for an action is the same in every account of it. -/
lemma DrawsTogether.unique (hF : F.WellFormed) (hmakes : ∀ rule ∈ rules, rule.MakesActions)
    (htakes : ∀ rule ∈ rules, rule.TakesTransactions) (h : DrawsTogether rules F n id K)
    {K' : List BubbleId} (h' : DrawsTogether rules F n id K') : K' = K := by
  obtain ⟨passes, sweeps, visits, rule, hmerges, rfl⟩ := h.merge
  obtain ⟨passes', sweeps', visits', rule', hmerges', rfl⟩ := h'.merge
  obtain ⟨rfl, rfl, rfl, rfl⟩ := hmerges.unique htakes hmakes hF hmerges'
  rfl

/-- The flow of every action in `G` is that of the transactions that were drawn together for it. -/
def Accounted (rules : Rules) (F : Forest) (n : Nat) (G : Forest) : Prop :=
  ∀ id, (G.action? id).isSome = true → ∃ K, DrawsTogether rules F n id K ∧
    ∀ place, F.InRange place → ((G.flowOf id).entry place).val =
      F.moved place id + (K.map (F.moved place)).sum

lemma accounted_visit (hF : F.WellFormed) (hfresh : F.Fresh)
    (hmakes : ∀ rule ∈ rules, rule.MakesActions) (htakes : ∀ rule ∈ rules, rule.TakesTransactions)
    (hvisit : Makes rules F n passes sweeps visits rule id)
    (h : Accounted rules F n (moment rules F passes sweeps visits).forest) :
    Accounted rules F n ((moment rules F passes sweeps visits).visit sweeps rule id).forest := by
  have hreached := reached_moment rules F passes sweeps visits
  cases visitCase (moment rules F passes sweeps visits) sweeps rule id with
  | skipped _ hsame => rwa [hsame]
  | refused _ _ _ hforest => rwa [hforest]
  | merged _ hnotFailed hmerged hforest =>
    have hwf := hreached.wellFormed hF
    have hkeeps := hreached.keeps hmakes hF
    have hrule := List.mem_of_getElem? hvisit.rule
    have hdraws := AnyRule.draws_of_merged hwf hmerged (hmakes rule hrule)
    have hK := AnyRule.transaction?_of_claimed (htakes rule hrule) hwf id
    intro x hx
    rw [hforest] at hx ⊢
    by_cases hne : x = id
    · subst hne
      refine ⟨_, ⟨⟨passes, sweeps, visits, rule, ⟨hvisit, hnotFailed, hmerged⟩, rfl⟩,
        hdraws.contracts.group.root_mem, hdraws.contracts.group.nodup, fun y hy => ?_⟩,
        fun place hplace => ?_⟩
      · rw [hkeeps.transaction?_eq (hK y hy)]
        exact hK y hy
      · exact Forest.val_entry_of_draws hfresh hkeeps hdraws hK hwf hplace
    · have hsame := hdraws.contracts.get?_of_contains (Forest.contains_of_action? hx) hne
      rw [Forest.action?_congr hsame] at hx
      rw [Forest.flowOf, hsame, ← Forest.flowOf]
      exact h x hx

end Run

namespace Saturation

section MakesActions

variable (hF : F.WellFormed) (hmakes : ∀ rule ∈ rules, rule.MakesActions)

include hF hmakes

lemma keeps_ofForest (n : Nat) : F.Keeps (ofForest rules n F).forest :=
  (Run.reached_ofForest rules n F).keeps hmakes hF

/-- A transaction that was not drawn together is as it was. -/
lemma flow_ofForest (hfresh : F.Fresh) (n : Nat) {b : Bubble} {tx : Transaction}
    (hb : (ofForest rules n F).forest.get? id = some b) (htx : b.payload = .transaction tx) :
    F.get? id = some b ∧ b.flow = .ofTransaction tx := by
  have hhas : (ofForest rules n F).forest.transaction? id = some tx := by
    rw [Forest.transaction?, hb, Option.bind_some, Bubble.transaction?, htx]
    rfl
  have hsame : F.get? id = some b := (keeps_ofForest hF hmakes n id tx hhas).symm.trans hb
  obtain ⟨tx', htx', hflow⟩ := hfresh id b hsame
  rw [htx] at htx'
  cases htx'
  exact ⟨hsame, hflow⟩

variable (hfresh : F.Fresh) (htakes : ∀ rule ∈ rules, rule.TakesTransactions)

include hfresh htakes

lemma accounted_ofForest (n : Nat) : Run.Accounted rules F n (ofForest rules n F).forest := by
  have hsteps : Run.Accounted rules F n ((start F).steps rules n).run.forest := by
    refine Run.steps_induction (motive := fun r => Run.Accounted rules F n r.forest)
      (fun _ _ halike h => by rwa [halike.forest]) ?_ ?_
    · intro passes sweeps visits rule id hvisit h
      exact Run.accounted_visit hF hfresh hmakes htakes hvisit h
    · intro id hid
      have hmem : id ∈ F.actionIds := Forest.mem_actionIds.2 hid
      rw [hfresh.actionIds_eq_nil] at hmem
      cases hmem
  have hend : (ofForest rules n F).forest = ((start F).steps rules n).run.forest :=
    close_forest n _
  rwa [hend]

/-- Every merge adds the transaction at its top once more. -/
lemma total_ofForest (hplace : F.InRange place) (n : Nat) :
    (ofForest rules n F).forest.total place = (F.transactionIds.map (F.moved place)).sum +
      ((ofForest rules n F).forest.actionIds.map (F.moved place)).sum := by
  have hlaw : F.Keeps (ofForest rules n F).forest ∧ (ofForest rules n F).forest.total place =
      F.total place + ((ofForest rules n F).forest.actionIds.map (F.moved place)).sum := by
    refine merged_induction (motive := fun G _ => F.Keeps G ∧ G.total place =
      F.total place + (G.actionIds.map (F.moved place)).sum) ?_ hF ⟨.refl F, ?_⟩ n
    · intro G rule id m hrule hG hmerged ⟨hkeeps, htotal⟩
      have hdraws := AnyRule.draws_of_merged hG hmerged (hmakes rule hrule)
      have hK := AnyRule.transaction?_of_claimed (htakes rule hrule) hG id
      have hperm := hdraws.contracts.perm_actionIds hK hdraws.action
      refine ⟨hkeeps.trans (hdraws.contracts.keeps hdraws.action), ?_⟩
      rw [Forest.total_of_draws hfresh hkeeps hdraws hK hG hplace, htotal,
        (hperm.map _).sum_eq, List.map_cons, List.sum_cons]
      omega
    · rw [hfresh.actionIds_eq_nil]
      simp
  have hstart : F.total place = (F.transactionIds.map (F.moved place)).sum := by
    rw [Forest.total, hfresh.live_eq]
    congr 1
    refine List.map_congr_left fun x hx => ?_
    rw [hfresh.flowOf (.refl F) (Forest.mem_transactionIds.1 hx), Forest.moved]
  rw [hlaw.2, hstart]

/-- If no transaction makes or loses coins, nothing that is made of them does. -/
lemma coinsTotal_ofForest (n : Nat) {b : Bubble}
    (hrange : ∀ a, F.InRange (.coins a))
    (hcoins : ∀ x ∈ F.transactionIds, (Flow.ofTransaction (F.txOf x)).coinsTotal = 0)
    (hb : (ofForest rules n F).forest.get? id = some b) : b.flow.coinsTotal = 0 := by
  have hflow : (ofForest rules n F).forest.flowOf id = b.flow := by
    rw [Forest.flowOf, hb]
    rfl
  cases hpayload : (ofForest rules n F).forest.transaction? id with
  | some tx =>
    have hkeeps := keeps_ofForest hF hmakes n
    have hlive := Option.isSome_of_eq_some hpayload
    rw [← hflow, hfresh.flowOf hkeeps hlive]
    exact hcoins id (hkeeps.subset_transactionIds (K := [id]) (by simpa using hlive) (by simp))
  | none =>
    obtain ⟨K, hdrew, hentry⟩ := accounted_ofForest hF hmakes hfresh htakes n id
      (Forest.isSome_action? (Forest.contains_of_get? hb) hpayload)
    rw [← hflow, Flow.coinsTotal_eq_add hdrew.nodup fun a => hentry (.coins a) (hrange a),
      hcoins id (Forest.mem_transactionIds.2 (hdrew.transactions id hdrew.root_mem)),
      List.map_congr_left fun x hx =>
        hcoins x (Forest.mem_transactionIds.2 (hdrew.transactions x hx))]
    simp

end MakesActions

/-- The accounts of a run over a trace, at every place where twice the movements of all transactions
stay in the range: the transactions that are left have their own flows; for every action there was
one merge, and its flow is the sum of those of the transactions that were drawn together, with the
one at the top counted twice; so over all bubbles the sum is that over all transactions, and those
at the top of actions once more.  If coins are only moved from one account to another, the coins of
every bubble add up to nothing. -/
theorem flows_add_up (roots : List TraceNode) (F : Forest) (hload : Forest.ofNodes roots = .ok F)
    (hrange : ∀ place : Flow.Place, 2 * ((TraceNode.transactionsAll roots).map fun tx =>
      ((Flow.ofTransaction tx).entry place).val.natAbs).sum ≤ place.greatest) (maxPasses : Nat) :
    (∀ id b tx, (ofForest Catalog.standard maxPasses F).forest.get? id = some b →
      b.payload = .transaction tx → F.get? id = some b ∧ b.flow = .ofTransaction tx) ∧
    (∀ id ∈ (ofForest Catalog.standard maxPasses F).forest.actionIds,
      (∃! K, Run.DrawsTogether Catalog.standard F maxPasses id K) ∧
      ∀ K, Run.DrawsTogether Catalog.standard F maxPasses id K → ∀ place,
        (((ofForest Catalog.standard maxPasses F).forest.flowOf id).entry place).val =
          2 * F.moved place id + ((K.erase id).map (F.moved place)).sum) ∧
    (∀ place, (ofForest Catalog.standard maxPasses F).forest.total place =
      ((TraceNode.transactionsAll roots).map fun tx =>
        ((Flow.ofTransaction tx).entry place).val).sum +
      ((ofForest Catalog.standard maxPasses F).forest.actionIds.map (F.moved place)).sum) ∧
    ((∀ tx ∈ TraceNode.transactionsAll roots,
        tx.source.isSome = true ∧ -(2 ^ 63 : Int) < tx.amount.val) →
      ∀ id b, (ofForest Catalog.standard maxPasses F).forest.get? id = some b →
        b.flow.coinsTotal = 0) := by
  have hroots : roots ≠ [] := by
    rintro rfl
    cases hload
  obtain rfl : Forest.layoutAll roots = F :=
    Except.ok.inj ((Forest.ofNodes_eq_layoutAll hroots).symm.trans hload)
  have hF := Forest.wellFormed_layoutAll roots
  have hfresh := Forest.fresh_layoutAll roots
  have hmakes := Catalog.standard_makesActions
  have htakes := Catalog.standard_takesTransactions
  have hplaces : ∀ place, (Forest.layoutAll roots).InRange place := by
    intro place
    have habs := congrArg (List.map Int.natAbs) (Forest.map_moved_layoutAll roots place)
    rw [List.map_map, List.map_map] at habs
    show 2 * ((Forest.layoutAll roots).transactionIds.map
      (Int.natAbs ∘ (Forest.layoutAll roots).moved place)).sum ≤ place.greatest
    rw [habs]
    exact hrange place
  refine ⟨fun id b tx hb htx => flow_ofForest hF hmakes hfresh maxPasses hb htx, ?_, ?_, ?_⟩
  · intro id hid
    obtain ⟨K, hdrew, hentry⟩ :=
      accounted_ofForest hF hmakes hfresh htakes maxPasses id (Forest.mem_actionIds.1 hid)
    have hunique : ∀ K', Run.DrawsTogether Catalog.standard (Forest.layoutAll roots) maxPasses id
        K' → K' = K := fun _ => hdrew.unique hF hmakes htakes
    refine ⟨⟨K, hdrew, hunique⟩, fun K' hdrew' place => ?_⟩
    obtain rfl := hunique K' hdrew'
    have hperm := (List.perm_cons_erase hdrew.root_mem).map ((Forest.layoutAll roots).moved place)
    have hsum := hentry place (hplaces place)
    rw [hperm.sum_eq, List.map_cons, List.sum_cons] at hsum
    omega
  · intro place
    rw [total_ofForest hF hmakes hfresh htakes (hplaces place), Forest.map_moved_layoutAll]
  · intro hmoves id b hb
    refine coinsTotal_ofForest hF hmakes hfresh htakes maxPasses (fun a => hplaces (.coins a)) ?_ hb
    intro x hx
    obtain ⟨tx, htx, heq⟩ := Forest.exists_txOf_layoutAll hx
    obtain ⟨hsource, hamount⟩ := hmoves tx htx
    obtain ⟨source, hsource⟩ := Option.isSome_iff_exists.1 hsource
    rw [heq, Flow.ofTransaction_withOpcode]
    exact Flow.coinsTotal_ofTransaction hsource hamount

/-- An address told from others by one number. -/
def addressOf (n : UInt8) : Address := ⟨0, .replicate 32 n⟩

/-- A wallet's transaction for which coins were paid. -/
def paid (source account : UInt8) (amount fees : Int) (body : Body) : Transaction :=
  { (default : Transaction) with
    account := .ofAddress (addressOf account)
    source := some (.ofAddress (addressOf source))
    amount := .clamp amount
    fees := .clamp fees
    body := some body
    jettonMaster := some (addressOf 9) }

def sevenJettons : JettonAmount := ⟨7, by decide⟩

/-- A transfer of jettons from one wallet to another, with coins that are passed on. -/
def paidTransferNode : TraceNode where
  transaction := paid 1 2 100 3
    (.jettonTransfer { (default : TransferRequest Body) with amount := sevenJettons })
  children := [⟨paid 2 3 60 2
    (.jettonInternalTransfer { (default : InternalTransfer) with amount := sevenJettons }), [
      ⟨paid 3 4 10 1
        (.jettonNotify { (default : TransferNotice Body) with amount := sevenJettons }), []⟩,
      ⟨paid 3 1 40 0 (.excess 0), []⟩]⟩]

def paidTransfer : Forest := Forest.layoutAll [paidTransferNode]

/-- The wallet that asked has its own transaction twice, and what the next one got from it once. -/
theorem flows_add_up_paidTransfer : Forest.ofNodes [paidTransferNode] = .ok paidTransfer ∧
    2 * ((TraceNode.transactionsAll [paidTransferNode]).map fun tx =>
      (Flow.ofTransaction tx).volume).sum ≤ 9223372036854775807 ∧
    (ofForest Catalog.standard 16 paidTransfer).forest.actionIds = [0] ∧
    (∃ K, Run.DrawsTogether Catalog.standard paidTransfer 16 0 K ∧
      (((ofForest Catalog.standard 16 paidTransfer).forest.flowOf 0).entry
        (.coins (addressOf 2))).val = 2 * paidTransfer.moved (.coins (addressOf 2)) 0 +
          ((K.erase 0).map (paidTransfer.moved (.coins (addressOf 2)))).sum) ∧
    paidTransfer.moved (.coins (addressOf 2)) 0 = 100 ∧
    (ofForest Catalog.standard 16 paidTransfer).forest.total (.coins (addressOf 2)) = 140 ∧
    ∃ b, (ofForest Catalog.standard 16 paidTransfer).forest.get? 0 = some b ∧
      b.flow.coinsTotal = 0 := by
  have hload : Forest.ofNodes [paidTransferNode] = .ok paidTransfer :=
    Forest.ofNodes_eq_layoutAll (by simp)
  have hvolume : 2 * ((TraceNode.transactionsAll [paidTransferNode]).map fun tx =>
      (Flow.ofTransaction tx).volume).sum ≤ 9223372036854775807 := by decide +kernel
  have hids : (ofForest Catalog.standard 16 paidTransfer).forest.actionIds = [0] := by
    decide +kernel
  have hrange : ∀ place : Flow.Place, 2 * ((TraceNode.transactionsAll [paidTransferNode]).map
      fun tx => ((Flow.ofTransaction tx).entry place).val.natAbs).sum ≤ place.greatest := by
    intro place
    have hall := Flow.inRange_of_volume
      ((TraceNode.transactionsAll [paidTransferNode]).map Flow.ofTransaction)
      (by rw [List.map_map]; exact hvolume) place
    rwa [List.map_map] at hall
  obtain ⟨-, hactions, htotals, hcoins⟩ :=
    flows_add_up [paidTransferNode] paidTransfer hload hrange 16
  obtain ⟨⟨K, hdrew, -⟩, hentry⟩ := hactions 0 (by rw [hids]; simp)
  have htotal := htotals (.coins (addressOf 2))
  rw [hids] at htotal
  have hmoves : ∀ tx ∈ TraceNode.transactionsAll [paidTransferNode],
      tx.source.isSome = true ∧ -(2 ^ 63 : Int) < tx.amount.val := by decide +kernel
  have hlive : (ofForest Catalog.standard 16 paidTransfer).forest.contains 0 = true := by
    decide +kernel
  obtain ⟨b, hb⟩ := Forest.contains_iff.1 hlive
  refine ⟨hload, hvolume, hids, ⟨K, hdrew, hentry K hdrew _⟩, by decide +kernel, ?_, b, hb,
    hcoins hmoves 0 b hb⟩
  rw [htotal]
  decide +kernel

end Saturation
end TraceFold
