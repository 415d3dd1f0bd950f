import TraceFold.Proofs.Catalog.Chain
import TraceFold.Proofs.Saturation.Invariant

/-!
# A sweep of mints

Unlike transfers, mints get into each other's way: the internal transfer of one may be the top of
another, which has been merged when its own turn comes.  Since children are visited before their
parents, whether a bubble becomes a mint depends on what became of its children, and on nothing
else (`MintLaw`).

`MintsMerged` says what a forest looks like in the middle of such a sweep.  It is kept by visits in
the order of the sweep (`MintsMerged.step`), in which everything below a bubble comes before it.
-/

namespace TraceFold

open Catalog Forest

variable {G H : Forest} {mint : BubbleId → Bool} {op : Operation}
  {done ids : List BubbleId} {failed : List (Nat × BubbleId)} {r : Run} {id p q c x : BubbleId}

/-- A predicate tells mints: they have the opcode and an internal transfer below them that is not a
mint itself. -/
def MintLaw (G : Forest) (mint : BubbleId → Bool) : Prop :=
  ∀ p, G.contains p = true → (mint p = true ↔ JettonMint.chain.isTopAt G p = true ∧
    ∃ c ∈ G.children p, G.carries .jettonInternalTransfer c = true ∧ mint c = false)

namespace Forest

/-- The first child that carries the operation and is no mint itself. -/
def firstPlain? (G : Forest) (mint : BubbleId → Bool) (op : Operation) (p : BubbleId) :
    Option BubbleId :=
  (G.children p).find? fun x => G.carries op x && !mint x

/-- The mint that begins here, as it is built. -/
def mintAt (G : Forest) (mint : BubbleId → Bool) (p : BubbleId) : TraceFold.JettonMint :=
  ((G.firstPlain? mint .jettonInternalTransfer p).map fun c =>
    JettonMint.chain.draftedWith G p c (G.firstPlain? mint .jettonNotify c)).getD default

lemma firstPlain?_eq_some (h : G.firstPlain? mint op p = some c) :
    c ∈ G.children p ∧ G.carries op c = true ∧ mint c = false := by
  have hc := List.find?_some h
  rw [Bool.and_eq_true, Bool.not_eq_true'] at hc
  exact ⟨List.mem_of_find?_eq_some h, hc⟩

/-- The first child that carries an operation in `H` is the first in `G` that is no mint, if `H`
has lost the operation just where the mints are. -/
lemma first?_eq_firstPlain? (hchildren : H.children p = G.children p)
    (h : ∀ x ∈ G.children p, H.carries op x = true ↔ G.carries op x = true ∧ mint x = false) :
    H.first? op p = G.firstPlain? mint op p := by
  rw [first?, firstPlain?, hchildren]
  refine List.find?_congr fun x hx => ?_
  rw [Bool.eq_iff_iff, h x hx, Bool.and_eq_true, Bool.not_eq_true']

end Forest

/-- What may have become of a bubble: it is as it was, or a mint, or was taken by one.  What is
taken hangs on the mint, if it carries an internal transfer, and otherwise on a bubble that was
taken as well. -/
inductive MintFate (G H : Forest) (mint : BubbleId → Bool) (done : List BubbleId)
    (x : BubbleId) : Prop
  | kept (same : H.get? x = G.get? x)
  | merged (visited : x ∈ done) (live : G.contains x = true) (isMint : mint x = true)
  | taken (visited : x ∈ done) (gone : H.get? x = none) (isMint : mint x = false)
      (carried : ∃ op, G.carries op x = true)
      (arrival : G.carries .jettonInternalTransfer x = true → ∃ p ∈ done, x ∈ G.children p)
      (ending : G.carries .jettonInternalTransfer x = false →
        ∃ c, x ∈ G.children c ∧ H.get? c = none)

/-- `H` is `G` after the mints at bubbles of `done` were merged. -/
structure MintsMerged (G H : Forest) (mint : BubbleId → Bool) (done : List BubbleId) : Prop where
  wellFormed : H.WellFormed
  order : H.preOrder = G.preOrder.filter H.contains
  merged : ∀ p ∈ done, G.contains p = true → mint p = true →
    (H.get? p).map Bubble.payload = some (.jettonMint (G.mintAt mint p))
  fate : ∀ x, MintFate G H mint done x

lemma mintsMerged_nil (hG : G.WellFormed) (mint : BubbleId → Bool) :
    MintsMerged G G mint [] where
  wellFormed := hG
  order := (List.filter_eq_self.2 fun _ hx => hG.mem_preOrder.1 hx).symm
  merged := fun _ hp => by cases hp
  fate := fun _ => .kept rfl

lemma MintFate.append (h : MintFate G H mint done x) (p : BubbleId) :
    MintFate G H mint (done ++ [p]) x := by
  cases h with
  | kept hsame => exact .kept hsame
  | merged hx hlive hmint => exact .merged (List.mem_append_left _ hx) hlive hmint
  | taken hx hgone hmint hcarried harrival hending =>
    refine .taken (List.mem_append_left _ hx) hgone hmint hcarried (fun hcarries => ?_) hending
    obtain ⟨q, hq, hxq⟩ := harrival hcarries
    exact ⟨q, List.mem_append_left _ hq, hxq⟩

namespace MintsMerged

/-- What was merged holds no transaction any more. -/
lemma transaction?_eq_none (h : MintsMerged G H mint done) (hx : x ∈ done)
    (hlive : G.contains x = true) (hmint : mint x = true) : H.transaction? x = none :=
  transaction?_of_payload (h.merged x hx hlive hmint)

lemma keeps (h : MintsMerged G H mint done) : G.Keeps H := by
  intro x tx htx
  cases h.fate x with
  | kept hsame => exact hsame
  | merged hvisited hlive hmint =>
    rw [h.transaction?_eq_none hvisited hlive hmint] at htx
    cases htx
  | taken _ hgone =>
    rw [transaction?, hgone] at htx
    cases htx

lemma not_mint_of_carries (h : MintsMerged G H mint done) (hvisited : x ∈ done)
    (hx : H.carries op x = true) : mint x = false := by
  refine Bool.eq_false_iff.2 fun hmint => ?_
  have hlive := contains_of_carries (h.keeps.carries_back hx)
  obtain ⟨tx, htx, -⟩ := carries_iff.1 hx
  rw [h.transaction?_eq_none hvisited hlive hmint] at htx
  cases htx

/-- A bubble that was not visited has not changed. -/
lemma get?_of_not_visited (h : MintsMerged G H mint done) (hp : p ∉ done) :
    H.get? p = G.get? p := by
  cases h.fate p with
  | kept hsame => exact hsame
  | merged hvisited => exact absurd hvisited hp
  | taken hvisited => exact absurd hvisited hp

/-- A bubble that is no mint may be counted as done. -/
lemma skip (h : MintsMerged G H mint done) (hp : mint p = false) :
    MintsMerged G H mint (done ++ [p]) := by
  refine ⟨h.wellFormed, h.order, fun q hq hlive hmint => ?_, fun x => (h.fate x).append p⟩
  rcases List.mem_append.1 hq with hq | hq
  · exact h.merged q hq hlive hmint
  · rw [List.mem_singleton.1 hq, hp] at hmint
    cases hmint

/-! ### The links of the next mint -/

/-- Below the bubble whose turn it is, an internal transfer is left just where there was one that
is no mint.  What was taken before hangs on other bubbles. -/
lemma carries_arrival (hG : G.WellFormed) (h : MintsMerged G H mint done) (hp : p ∉ done)
    (hbelow : ∀ x, G.Below p x → x ≠ p → x ∈ done) (hx : x ∈ G.children p) :
    H.carries .jettonInternalTransfer x = true ↔
      G.carries .jettonInternalTransfer x = true ∧ mint x = false := by
  have hne : x ≠ p := Nat.ne_of_gt (hG.lt_of_mem_children hx)
  have hvisited := hbelow x (below_of_mem_children hx) hne
  constructor
  · exact fun hyes => ⟨h.keeps.carries_back hyes, h.not_mint_of_carries hvisited hyes⟩
  · rintro ⟨hyes, hmint⟩
    cases h.fate x with
    | kept hsame => rw [carries_congr hsame, hyes]
    | merged _ _ hyesMint => rw [hmint] at hyesMint; cases hyesMint
    | taken _ _ _ _ harrival =>
      obtain ⟨q, hq, hxq⟩ := harrival hyes
      exact absurd (hG.parent_unique hx hxq ▸ hq) hp

/-- The same for the ends, below an internal transfer that is left. -/
lemma carries_end (hG : G.WellFormed) (h : MintsMerged G H mint done)
    (hc : H.contains c = true) (hvisited : x ∈ done) (hx : x ∈ G.children c)
    (hop : op ≠ .jettonInternalTransfer) :
    H.carries op x = true ↔ G.carries op x = true ∧ mint x = false := by
  constructor
  · exact fun hyes => ⟨h.keeps.carries_back hyes, h.not_mint_of_carries hvisited hyes⟩
  · rintro ⟨hyes, hmint⟩
    cases h.fate x with
    | kept hsame => rw [carries_congr hsame, hyes]
    | merged _ _ hyesMint => rw [hmint] at hyesMint; cases hyesMint
    | taken _ _ _ _ _ hending =>
      have hno := Bool.eq_false_iff.2 fun hyes' => hop (carries_unique hyes hyes')
      obtain ⟨d, hxd, hgone⟩ := hending hno
      rw [hG.parent_unique hx hxd, contains_eq_false.2 hgone] at hc
      cases hc

/-- The bubble becomes a mint just if a chain begins there. -/
lemma mint_iff (hG : G.WellFormed) (hlaw : MintLaw G mint) (h : MintsMerged G H mint done)
    (hlive : G.contains p = true) (hp : p ∉ done)
    (hbelow : ∀ x, G.Below p x → x ≠ p → x ∈ done) :
    mint p = true ↔ JettonMint.chain.isTopAt H p = true ∧
      (H.first? .jettonInternalTransfer p).isSome = true := by
  have hsame := h.get?_of_not_visited hp
  have htop : JettonMint.chain.isTopAt H p = JettonMint.chain.isTopAt G p := by
    rw [Chain.isTopAt, Chain.isTopAt, transaction?_congr hsame]
  rw [hlaw p hlive, htop, first?_isSome, children_congr hsame]
  refine and_congr Iff.rfl (exists_congr fun c => and_congr_right fun hc => ?_)
  exact (h.carries_arrival hG hp hbelow hc).symm

/-- What is built there could be told beforehand. -/
lemma drafted_eq (hG : G.WellFormed) (h : MintsMerged G H mint done) (hp : p ∉ done)
    (hbelow : ∀ x, G.Below p x → x ≠ p → x ∈ done)
    (hc : H.first? .jettonInternalTransfer p = some c) :
    JettonMint.chain.drafted H p c = G.mintAt mint p := by
  have hsame := h.get?_of_not_visited hp
  obtain ⟨hcp, hccarries⟩ := first?_eq_some hc
  have hcsame := h.keeps.get?_of_carries hccarries
  rw [children_congr hsame] at hcp
  have hfirst : H.first? .jettonInternalTransfer p = G.firstPlain? mint .jettonInternalTransfer p :=
    first?_eq_firstPlain? (children_congr hsame) fun x hx => h.carries_arrival hG hp hbelow hx
  have hnotice : H.first? .jettonNotify c = G.firstPlain? mint .jettonNotify c := by
    refine first?_eq_firstPlain? (children_congr hcsame) fun x hx => ?_
    have hxp : G.Below p x := (below_of_mem_children hcp).child hx
    have hlt := Nat.lt_trans (hG.lt_of_mem_children hcp) (hG.lt_of_mem_children hx)
    exact h.carries_end hG (contains_of_carries hccarries) (hbelow x hxp (Nat.ne_of_gt hlt)) hx
      (by decide)
  rw [mintAt, ← hfirst, hc, Option.map_some, Option.getD_some, ← hnotice, Chain.drafted,
    Chain.draftedWith, Chain.draftedWith, Chain.arrived, Chain.arrived, txOf_congr hsame,
    txOf_congr hcsame]
  cases hn : H.first? .jettonNotify c with
  | none => rfl
  | some n =>
    simp only [Option.elim_some, txOf_congr (h.keeps.get?_of_carries (first?_eq_some hn).2)]

/-! ### One more mint -/

/-- A link of the next mint: it has been visited, and it hangs on the top or on the internal
transfer below it. -/
structure Link (G : Forest) (mint : BubbleId → Bool) (done : List BubbleId) (p c x : BubbleId) :
    Prop where
  visited : x ∈ done
  notMint : mint x = false
  carried : ∃ op, G.carries op x = true
  arrival : G.carries .jettonInternalTransfer x = true → x ∈ G.children p
  ending : G.carries .jettonInternalTransfer x = false → x ∈ G.children c

lemma link (hG : G.WellFormed) (h : MintsMerged G H mint done) (hp : p ∉ done)
    (hbelow : ∀ x, G.Below p x → x ≠ p → x ∈ done)
    (hc : H.first? .jettonInternalTransfer p = some c) (hx : x ∈ H.ends c ++ [c]) :
    Link G mint done p c x := by
  obtain ⟨hcp, hccarries⟩ := first?_eq_some hc
  rw [children_congr (h.get?_of_not_visited hp)] at hcp
  have hpc := hG.lt_of_mem_children hcp
  rcases List.mem_append.1 hx with hx | hx
  · obtain ⟨op, hop, hcarries⟩ : ∃ op, op ≠ .jettonInternalTransfer ∧ H.carries op x = true := by
      rcases mem_ends.1 hx with hx | hx
      · exact ⟨_, by decide, (first?_eq_some hx).2⟩
      · exact ⟨_, by decide, (first?_eq_some hx).2⟩
    have hxc : x ∈ G.children c := by
      rw [← children_congr (h.keeps.get?_of_carries hccarries)]; exact ends_mem_children hx
    have hne := Nat.ne_of_gt (Nat.lt_trans hpc (hG.lt_of_mem_children hxc))
    have hvisited := hbelow x ((below_of_mem_children hcp).child hxc) hne
    have hback := h.keeps.carries_back hcarries
    refine ⟨hvisited, h.not_mint_of_carries hvisited hcarries, ⟨op, hback⟩, ?_, fun _ => hxc⟩
    exact fun hyes => absurd (carries_unique hback hyes) hop
  · obtain rfl := List.mem_singleton.1 hx
    have hvisited := hbelow x (below_of_mem_children hcp) (Nat.ne_of_gt hpc)
    have hback := h.keeps.carries_back hccarries
    refine ⟨hvisited, h.not_mint_of_carries hvisited hccarries, ⟨_, hback⟩, fun _ => hcp, ?_⟩
    exact fun hno => by rw [hback] at hno; cases hno

/-- Drawing the links of one more mint together into its top. -/
lemma contract {H' : Forest} (hG : G.WellFormed) (h : MintsMerged G H mint done)
    (hp : p ∉ done) (hlive : G.contains p = true)
    (hbelow : ∀ x, G.Below p x → x ≠ p → x ∈ done) (hmint : mint p = true)
    (hc : H.first? .jettonInternalTransfer p = some c)
    (hcon : H.Contracts H' p (H.ends c ++ [c] ++ [p]))
    (hpayload : (H'.get? p).map Bubble.payload = some (.jettonMint (G.mintAt mint p))) :
    MintsMerged G H' mint (done ++ [p]) := by
  have hpmem : p ∈ done ++ [p] := List.mem_append_right _ (List.mem_singleton.2 rfl)
  have hlink : ∀ x ∈ H.ends c ++ [c] ++ [p], x ≠ p → Link G mint done p c x := by
    intro x hx hne
    rcases List.mem_append.1 hx with hx | hx
    · exact h.link hG hp hbelow hc hx
    · exact absurd (List.mem_singleton.1 hx) hne
  have hcgone : H'.get? c = none := by
    refine hcon.gone c (List.mem_append_left _ (List.mem_append_right _ List.mem_cons_self)) ?_
    rintro rfl
    exact hp (h.link hG hp hbelow hc (List.mem_append_right _ List.mem_cons_self)).visited
  refine ⟨hcon.wellFormed h.wellFormed, hcon.preOrder_trans h.wellFormed h.order, ?_, fun x => ?_⟩
  · intro q hq hqlive hqmint
    rcases List.mem_append.1 hq with hq | hq
    · have hne : q ≠ p := fun e => hp (e ▸ hq)
      rw [hcon.outside q ?_]
      · exact h.merged q hq hqlive hqmint
      · intro hmem
        rw [(hlink q hmem hne).notMint] at hqmint
        cases hqmint
    · rw [List.mem_singleton.1 hq]
      exact hpayload
  · by_cases hx : x ∈ H.ends c ++ [c] ++ [p]
    · by_cases hxp : x = p
      · rw [hxp]; exact .merged hpmem hlive hmint
      · have hxlink := hlink x hx hxp
        exact .taken (List.mem_append_left _ hxlink.visited) (hcon.gone x hx hxp) hxlink.notMint
          hxlink.carried (fun hyes => ⟨p, hpmem, hxlink.arrival hyes⟩)
          fun hno => ⟨c, hxlink.ending hno, hcgone⟩
    · cases (h.fate x).append p with
      | kept hsame => exact .kept ((hcon.outside x hx).trans hsame)
      | merged hvisited hlive hmint => exact .merged hvisited hlive hmint
      | taken hvisited hxgone hno hcarried harrival hending =>
        refine .taken hvisited (hcon.get?_eq_none hxgone) hno hcarried harrival fun hcarries => ?_
        obtain ⟨d, hxd, hd⟩ := hending hcarries
        exact ⟨d, hxd, hcon.get?_eq_none hd⟩

/-- What becomes of the bubble whose turn it is. -/
inductive Step (G H : Forest) (mint : BubbleId → Bool) (done : List BubbleId)
    (p : BubbleId) : Prop
  | merged (isMint : mint p = true)
      (merged : ((Rule.mint JettonMint.pattern).any.merge H p).merged = true)
      (next : MintsMerged G ((Rule.mint JettonMint.pattern).any.merge H p).forest mint
        (done ++ [p]))
  | refused (isMint : mint p = false)
      (merged : ((Rule.mint JettonMint.pattern).any.merge H p).merged = false)
      (reported : ((Rule.mint JettonMint.pattern).any.merge H p).reported = false)

theorem step (hG : G.WellFormed) (hlaw : MintLaw G mint) (h : MintsMerged G H mint done)
    (hlive : G.contains p = true) (hp : p ∉ done)
    (hbelow : ∀ x, G.Below p x → x ≠ p → x ∈ done) : Step G H mint done p := by
  have hmint := h.mint_iff hG hlaw hlive hp hbelow
  cases JettonMint.chain.outcome h.wellFormed p with
  | missing hlinks _ hmerged hreported =>
    refine .refused (Bool.eq_false_iff.2 fun hyes => ?_) hmerged hreported
    obtain ⟨htop, hsome⟩ := hmint.1 hyes
    rcases hlinks with hno | hno
    · rw [hno] at htop; cases htop
    · rw [hno] at hsome; cases hsome
  | failed c e _ hc hfailure =>
    rw [JettonMint.arrived_ok (first?_eq_some hc).2] at hfailure
    cases hfailure
  | success c htop hc _ hcon hpayload hmerged _ =>
    have hyes := hmint.2 ⟨htop, by rw [hc]; rfl⟩
    rw [h.drafted_eq hG hp hbelow hc] at hpayload
    exact .merged hyes hmerged (h.contract hG hp hlive hbelow hyes hc hcon hpayload)

end MintsMerged

/-! ## A sweep -/

/-- A run that has tried the mints at some bubbles.  No attempt fails. -/
structure MintSweep (G : Forest) (mint : BubbleId → Bool) (failed : List (Nat × BubbleId))
    (r : Run) (done : List BubbleId) : Prop where
  forest : MintsMerged G r.forest mint done
  failed : r.failed = failed

namespace MintSweep

lemma visit (hG : G.WellFormed) (hlaw : MintLaw G mint) (hnone : ∀ p, (1, p) ∉ failed)
    (h : MintSweep G mint failed r done) (hlive : G.contains p = true) (hp : p ∉ done)
    (hbelow : ∀ x, G.Below p x → x ≠ p → x ∈ done) :
    MintSweep G mint failed (r.visit 1 (Rule.mint JettonMint.pattern) p) (done ++ [p]) := by
  have hstep := h.forest.step hG hlaw hlive hp hbelow
  cases Run.visitCase r 1 (Rule.mint JettonMint.pattern) p with
  | skipped why _ =>
    rcases why with hgone | hmem
    · rw [contains_congr (h.forest.get?_of_not_visited hp), hlive] at hgone
      cases hgone
    · rw [h.failed] at hmem
      exact absurd hmem (hnone p)
  | merged _ _ hmerged hforest hfailed =>
    cases hstep with
    | refused _ hno => rw [hno] at hmerged; cases hmerged
    | merged _ _ hnext => exact ⟨by rw [hforest]; exact hnext, hfailed.trans h.failed⟩
  | refused _ _ hmerged hforest hfailed =>
    cases hstep with
    | merged _ hyes => rw [hyes] at hmerged; cases hmerged
    | refused hno _ hreported =>
      refine ⟨by rw [hforest]; exact h.forest.skip hno, ?_⟩
      rw [hfailed, hreported, if_neg (by decide), h.failed]

/-- In the order of the sweep everything below a bubble is visited before it. -/
theorem visits (hG : G.WellFormed) (hlaw : MintLaw G mint) (hnone : ∀ p, (1, p) ∉ failed)
    (h : MintSweep G mint failed r done) (hids : G.postOrder = done ++ ids) :
    MintSweep G mint failed (ids.foldl (Run.visit 1 (Rule.mint JettonMint.pattern)) r)
      G.postOrder := by
  induction ids generalizing r done with
  | nil => rw [hids, List.append_nil]; exact h
  | cons p ids ih =>
    have hmem : ∀ x, x ∈ done ++ p :: ids ↔ G.contains x = true := by
      intro x; rw [← hids]; exact hG.mem_postOrder
    have hnodup := hG.postOrder_nodup
    have horder := hG.postOrder_pairwise
    rw [hids] at hnodup horder
    have hp : p ∉ done := fun hp =>
      (List.nodup_append.1 hnodup).2.2 p hp p List.mem_cons_self rfl
    have hlive := (hmem p).1 (List.mem_append_right _ List.mem_cons_self)
    refine ih (h.visit hG hlaw hnone hlive hp ?_) (by rw [hids, List.append_assoc]; rfl)
    intro x hx hne
    rcases List.mem_append.1 ((hmem x).2 (hG.contains_of_below hlive hx)) with hdone | hlater
    · exact hdone
    · have hids := (List.mem_cons.1 hlater).resolve_left hne
      have hcons := (List.pairwise_append.1 horder).2.1
      exact absurd hx ((List.pairwise_cons.1 hcons).1 x hids)

/-- The sweep of a run in which no mint has failed. -/
theorem sweep (hr : r.forest.WellFormed) (hlaw : MintLaw r.forest mint)
    (hnone : ∀ p, (1, p) ∉ r.failed) :
    MintSweep r.forest mint r.failed (r.sweep 1 (Rule.mint JettonMint.pattern))
      r.forest.postOrder := by
  have hstart : MintSweep r.forest mint r.failed r [] := ⟨mintsMerged_nil hr mint, rfl⟩
  have h := hstart.visits hr hlaw hnone rfl
  have hsilent := Run.sweep_silent r 1 (Rule.mint JettonMint.pattern)
  refine ⟨?_, ?_⟩
  · rw [hsilent.forest]; exact h.forest
  · rw [hsilent.failed]; exact h.failed

end MintSweep
end TraceFold
