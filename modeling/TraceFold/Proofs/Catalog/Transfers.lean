import TraceFold.Proofs.Catalog.Chain
import TraceFold.Proofs.Saturation.Invariant

/-!
# A sweep of transfers

Which bubbles become transfers can be read off the forest before anything is merged: those that
carry a request, have an internal transfer below them, and let the jetton master be known
(`Forest.isTransfer`).  The reason is that two transfers never touch the same bubble.  A bubble
carries one operation only, so the top of a transfer is never taken by another one, and what a
transfer takes hangs on its top, directly or by way of its internal transfer.

`TransfersMerged` says what a forest looks like when some of its transfers are merged.  Visiting
one more bubble keeps it, in whatever order they are visited (`TransfersMerged.step`), and so does
a sweep (`TransferSweep.visits`).
-/

namespace TraceFold

open Catalog

variable {F G : Forest} {op : Operation} {done ids : List BubbleId} {r : Run}
  {id p q c x : BubbleId}

namespace Forest

/-! ## Transfers before they are merged -/

/-- A transfer begins here, and its jetton master is known. -/
def isTransfer (F : Forest) (p : BubbleId) : Bool :=
  F.carries .jettonTransfer p &&
    (F.first? .jettonInternalTransfer p).any (JettonTransfer.masterKnown F p)

/-- What hangs on the top of a chain as its links: the first internal transfer and its ends. -/
def links (F : Forest) (p : BubbleId) : List BubbleId :=
  ((F.first? .jettonInternalTransfer p).map fun c => F.ends c ++ [c]).getD []

/-- The transfer that begins here, as it is built. -/
def transferAt (F : Forest) (p : BubbleId) : TraceFold.JettonTransfer :=
  ((F.first? .jettonInternalTransfer p).map (JettonTransfer.chain.drafted F p)).getD default

lemma isTransfer_iff : F.isTransfer p = true ↔ F.carries .jettonTransfer p = true ∧
    ∃ c, F.first? .jettonInternalTransfer p = some c ∧
      JettonTransfer.masterKnown F p c = true := by
  rw [isTransfer, Bool.and_eq_true, Option.any_eq_true]

lemma mem_links : x ∈ F.links p ↔
    ∃ c, F.first? .jettonInternalTransfer p = some c ∧ (x ∈ F.ends c ∨ x = c) := by
  rw [links]
  cases F.first? .jettonInternalTransfer p with
  | none => simp
  | some c => simp

lemma links_eq (h : F.first? .jettonInternalTransfer p = some c) :
    F.links p = F.ends c ++ [c] := by
  rw [links, h]; rfl

/-- A link that carries an internal transfer is a child of the top. -/
lemma mem_children_of_mem_links (hx : F.carries .jettonInternalTransfer x = true)
    (h : x ∈ F.links p) : x ∈ F.children p := by
  obtain ⟨c, hc, hends | rfl⟩ := mem_links.1 h
  · rw [not_carries_of_mem_ends (by decide) (by decide) hends] at hx
    cases hx
  · exact (first?_eq_some hc).1

/-- A link that carries none is a child of the first internal transfer below the top. -/
lemma exists_first_of_mem_links (hx : F.carries .jettonInternalTransfer x = false)
    (h : x ∈ F.links p) :
    ∃ c, F.first? .jettonInternalTransfer p = some c ∧ x ∈ F.children c := by
  obtain ⟨c, hc, hends | rfl⟩ := mem_links.1 h
  · exact ⟨c, hc, ends_mem_children hends⟩
  · rw [(first?_eq_some hc).2] at hx
    cases hx

/-- The top of a transfer is not a link of another. -/
lemma not_mem_links_of_carries (hx : F.carries .jettonTransfer x = true) : x ∉ F.links p := by
  intro h
  obtain ⟨c, hc, hends | rfl⟩ := mem_links.1 h
  · rw [not_carries_of_mem_ends (by decide) (by decide) hends] at hx
    cases hx
  · exact absurd (carries_unique hx (first?_eq_some hc).2) (by decide)

end Forest

open Forest

/-! ## Some transfers merged -/

/-- `G` is `F` after the transfers that begin at bubbles of `done` were merged. -/
structure TransfersMerged (F G : Forest) (done : List BubbleId) : Prop where
  wellFormed : G.WellFormed
  order : G.preOrder = F.preOrder.filter G.contains
  merged : ∀ p ∈ done, F.isTransfer p = true →
    (G.get? p).map Bubble.payload = some (.jettonTransfer (F.transferAt p))
  taken : ∀ p ∈ done, F.isTransfer p = true → ∀ x ∈ F.links p, G.get? x = none
  kept : ∀ x, (∀ p ∈ done, F.isTransfer p = true → x ≠ p ∧ x ∉ F.links p) →
    G.get? x = F.get? x

lemma transfersMerged_nil (hF : F.WellFormed) : TransfersMerged F F [] where
  wellFormed := hF
  order := (List.filter_eq_self.2 fun _ hx => hF.mem_preOrder.1 hx).symm
  merged := fun _ hp => by cases hp
  taken := fun _ hp => by cases hp
  kept := fun _ _ => rfl

namespace TransfersMerged

/-- What was merged holds no transaction any more. -/
lemma transaction?_eq_none (h : TransfersMerged F G done) (hp : p ∈ done)
    (htransfer : F.isTransfer p = true) : G.transaction? p = none :=
  transaction?_of_payload (h.merged p hp htransfer)

lemma keeps (h : TransfersMerged F G done) : F.Keeps G := by
  intro x tx htx
  refine h.kept x fun p hp htransfer => ⟨?_, fun hlink => ?_⟩
  · rintro rfl
    rw [h.transaction?_eq_none hp htransfer] at htx
    cases htx
  · rw [transaction?, h.taken p hp htransfer x hlink] at htx
    cases htx

/-- A bubble that is no transfer may be counted as done. -/
lemma skip (h : TransfersMerged F G done) (hp : F.isTransfer p = false) :
    TransfersMerged F G (done ++ [p]) := by
  have hdone : ∀ q ∈ done ++ [p], F.isTransfer q = true → q ∈ done := by
    intro q hq htransfer
    rcases List.mem_append.1 hq with hq | hq
    · exact hq
    · rw [List.mem_singleton.1 hq, hp] at htransfer
      cases htransfer
  refine ⟨h.wellFormed, h.order, fun q hq htransfer => ?_, fun q hq htransfer => ?_, ?_⟩
  · exact h.merged q (hdone q hq htransfer) htransfer
  · exact h.taken q (hdone q hq htransfer) htransfer
  · exact fun x hx => h.kept x fun q hq => hx q (List.mem_append_left _ hq)

/-! ### The links of a transfer that was not merged yet -/

/-- The top of a transfer that was not visited has not changed. -/
lemma get?_top (h : TransfersMerged F G done) (hp : p ∉ done)
    (htop : F.carries .jettonTransfer p = true) : G.get? p = F.get? p := by
  refine h.kept p fun q hq _ => ⟨?_, not_mem_links_of_carries htop⟩
  rintro rfl
  exact hp hq

/-- The links of a top that was not visited have not changed: to be taken, they would have to hang
on another one. -/
lemma get?_arrival (hF : F.WellFormed) (h : TransfersMerged F G done) (hp : p ∉ done)
    (hx : F.carries .jettonInternalTransfer x = true) (hxp : x ∈ F.children p) :
    G.get? x = F.get? x := by
  refine h.kept x fun q hq htransfer => ⟨?_, fun hlink => ?_⟩
  · rintro rfl
    exact absurd (carries_unique hx (isTransfer_iff.1 htransfer).1) (by decide)
  · have hxq := mem_children_of_mem_links hx hlink
    exact hp (hF.parent_unique hxp hxq ▸ hq)

lemma get?_end (hF : F.WellFormed) (h : TransfersMerged F G done) (hp : p ∉ done)
    (hc : F.first? .jettonInternalTransfer p = some c) (hxc : x ∈ F.children c)
    (hx : F.carries op x = true) (hop : op ≠ .jettonTransfer)
    (hop' : op ≠ .jettonInternalTransfer) : G.get? x = F.get? x := by
  refine h.kept x fun q hq htransfer => ⟨?_, fun hlink => ?_⟩
  · rintro rfl
    exact hop (carries_unique hx (isTransfer_iff.1 htransfer).1)
  · have hno : F.carries .jettonInternalTransfer x = false :=
      Bool.eq_false_iff.2 fun hyes => hop' (carries_unique hx hyes)
    obtain ⟨d, hd, hxd⟩ := exists_first_of_mem_links hno hlink
    have hpq : p = q := by
      refine hF.parent_unique (first?_eq_some hc).1 ?_
      rw [hF.parent_unique hxc hxd]
      exact (first?_eq_some hd).1
    exact hp (hpq ▸ hq)

lemma first_arrival (hF : F.WellFormed) (h : TransfersMerged F G done) (hp : p ∉ done)
    (htop : F.carries .jettonTransfer p = true) :
    G.first? .jettonInternalTransfer p = F.first? .jettonInternalTransfer p := by
  refine h.keeps.first?_eq (children_congr (h.get?_top hp htop)) ?_
  exact fun x hx hcarries => h.get?_arrival hF hp hcarries hx

lemma first_end (hF : F.WellFormed) (h : TransfersMerged F G done) (hp : p ∉ done)
    (hc : F.first? .jettonInternalTransfer p = some c) (hop : op ≠ .jettonTransfer)
    (hop' : op ≠ .jettonInternalTransfer) : G.first? op c = F.first? op c := by
  obtain ⟨hcp, hcarries⟩ := first?_eq_some hc
  have hchildren := children_congr (h.get?_arrival hF hp hcarries hcp)
  refine h.keeps.first?_eq hchildren ?_
  exact fun x hx hxcarries => h.get?_end hF hp hc hx hxcarries hop hop'

lemma ends_eq (hF : F.WellFormed) (h : TransfersMerged F G done) (hp : p ∉ done)
    (hc : F.first? .jettonInternalTransfer p = some c) : G.ends c = F.ends c := by
  rw [ends, ends, h.first_end hF hp hc (by decide) (by decide),
    h.first_end hF hp hc (by decide) (by decide)]

lemma arrived_eq (hF : F.WellFormed) (h : TransfersMerged F G done) (hp : p ∉ done)
    (htop : F.carries .jettonTransfer p = true)
    (hc : F.first? .jettonInternalTransfer p = some c) :
    JettonTransfer.chain.arrived G p c = JettonTransfer.chain.arrived F p c := by
  obtain ⟨hcp, hcarries⟩ := first?_eq_some hc
  rw [Chain.arrived, Chain.arrived, txOf_congr (h.get?_top hp htop),
    txOf_congr (h.get?_arrival hF hp hcarries hcp)]

lemma drafted_eq (hF : F.WellFormed) (h : TransfersMerged F G done) (hp : p ∉ done)
    (htop : F.carries .jettonTransfer p = true)
    (hc : F.first? .jettonInternalTransfer p = some c) :
    JettonTransfer.chain.drafted G p c = F.transferAt p := by
  rw [transferAt, hc, Option.map_some, Option.getD_some, Chain.drafted, Chain.drafted,
    Chain.draftedWith, Chain.draftedWith, h.arrived_eq hF hp htop hc,
    h.first_end hF hp hc (by decide) (by decide)]
  cases hn : F.first? .jettonNotify c with
  | none => rfl
  | some n =>
    obtain ⟨hnc, hcarries⟩ := first?_eq_some hn
    have hn := h.get?_end hF hp hc hnc hcarries (by decide) (by decide)
    simp only [Option.elim_some, txOf_congr hn]

/-! ### One more transfer -/

/-- Drawing the links of one more transfer together into its top. -/
lemma contract {G' : Forest} (h : TransfersMerged F G done) (hp : p ∉ done)
    (htransfer : F.isTransfer p = true) (hcon : G.Contracts G' p (F.links p ++ [p]))
    (hpayload : (G'.get? p).map Bubble.payload = some (.jettonTransfer (F.transferAt p))) :
    TransfersMerged F G' (done ++ [p]) := by
  have htop := (isTransfer_iff.1 htransfer).1
  have hsame : ∀ x, x ≠ p → x ∉ F.links p → G'.get? x = G.get? x := by
    intro x hne hx
    refine hcon.outside x fun hmem => ?_
    rcases List.mem_append.1 hmem with hmem | hmem
    · exact hx hmem
    · exact hne (List.mem_singleton.1 hmem)
  refine ⟨hcon.wellFormed h.wellFormed, hcon.preOrder_trans h.wellFormed h.order, ?_, ?_, ?_⟩
  · intro q hq htransfer
    rcases List.mem_append.1 hq with hq | hq
    · have hne : q ≠ p := fun e => hp (e ▸ hq)
      rw [hsame q hne (not_mem_links_of_carries (isTransfer_iff.1 htransfer).1)]
      exact h.merged q hq htransfer
    · rw [List.mem_singleton.1 hq]
      exact hpayload
  · intro q hq htransfer x hx
    rcases List.mem_append.1 hq with hq | hq
    · exact hcon.get?_eq_none (h.taken q hq htransfer x hx)
    · rw [List.mem_singleton.1 hq] at hx
      refine hcon.gone x (List.mem_append_left _ hx) ?_
      rintro rfl
      exact not_mem_links_of_carries htop hx
  · intro x hx
    obtain ⟨hne, hlink⟩ := hx p (List.mem_append_right _ (List.mem_singleton.2 rfl)) htransfer
    rw [hsame x hne hlink]
    exact h.kept x fun q hq => hx q (List.mem_append_left _ hq)

/-- What becomes of a bubble that was not visited before. -/
inductive Step (F G : Forest) (done : List BubbleId) (p : BubbleId) : Prop
  | merged (transfer : F.isTransfer p = true)
      (merged : ((Rule.transfer JettonTransfer.pattern).any.merge G p).merged = true)
      (next : TransfersMerged F ((Rule.transfer JettonTransfer.pattern).any.merge G p).forest
        (done ++ [p]))
  | refused (transfer : F.isTransfer p = false)
      (merged : ((Rule.transfer JettonTransfer.pattern).any.merge G p).merged = false)
      (reported : F.carries .jettonTransfer p = true →
        (F.first? .jettonInternalTransfer p).isSome = true →
          ((Rule.transfer JettonTransfer.pattern).any.merge G p).reported = true)

theorem step (hF : F.WellFormed) (h : TransfersMerged F G done) (hp : p ∉ done) :
    Step F G done p := by
  cases htop : F.carries .jettonTransfer p with
  | false =>
    have htransfer : F.isTransfer p = false := by rw [isTransfer, htop]; rfl
    have hno : G.carries .jettonTransfer p = false :=
      Bool.eq_false_iff.2 fun hyes => Bool.eq_false_iff.1 htop (h.keeps.carries_back hyes)
    cases JettonTransfer.chain.outcome h.wellFormed p with
    | missing _ _ hmerged _ =>
      exact .refused htransfer hmerged fun hyes => by rw [htop] at hyes; cases hyes
    | failed _ _ hyes => rw [JettonTransfer.isTopAt_eq, hno] at hyes; cases hyes
    | success _ hyes => rw [JettonTransfer.isTopAt_eq, hno] at hyes; cases hyes
  | true =>
    have hfirst := h.first_arrival hF hp htop
    have hGtop : JettonTransfer.chain.isTopAt G p = true := by
      rw [JettonTransfer.isTopAt_eq, carries_congr (h.get?_top hp htop), htop]
    have hok : ∀ c, F.first? .jettonInternalTransfer p = some c →
        ((JettonTransfer.chain.arrived G p c).2 = none ↔ F.isTransfer p = true) := by
      intro c hc
      rw [h.arrived_eq hF hp htop hc, JettonTransfer.arrived_ok htop, isTransfer_iff]
      simp [htop, hc]
    cases JettonTransfer.chain.outcome h.wellFormed p with
    | missing hlinks _ hmerged _ =>
      have hnone : F.first? .jettonInternalTransfer p = none := by
        rw [hGtop, hfirst] at hlinks
        exact hlinks.resolve_left (by decide)
      refine .refused ?_ hmerged fun _ hsome => ?_
      · rw [isTransfer, hnone, Option.any_none, Bool.and_false]
      · rw [hnone] at hsome; cases hsome
    | failed c e _ hc hfailure _ hmerged hreported =>
      rw [hfirst] at hc
      refine .refused (Bool.eq_false_iff.2 fun hyes => ?_) hmerged fun _ _ => hreported
      rw [(hok c hc).2 hyes] at hfailure
      cases hfailure
    | success c _ hc hbuilt hcon hpayload hmerged _ =>
      rw [hfirst] at hc
      have htransfer := (hok c hc).1 hbuilt
      rw [h.ends_eq hF hp hc, ← links_eq hc] at hcon
      rw [h.drafted_eq hF hp htop hc] at hpayload
      exact .merged htransfer hmerged (h.contract hp htransfer hcon hpayload)

end TransfersMerged

/-! ## A sweep -/

/-- A run that has tried the transfers at some bubbles: those without a master are remembered. -/
structure TransferSweep (F : Forest) (r : Run) (done : List BubbleId) : Prop where
  forest : TransfersMerged F r.forest done
  failed : ∀ e ∈ r.failed, e.1 = 0 ∧ F.isTransfer e.2 = false
  remembered : ∀ p ∈ done, F.carries .jettonTransfer p = true →
    (F.first? .jettonInternalTransfer p).isSome = true → F.isTransfer p = false →
      (0, p) ∈ r.failed

namespace TransferSweep

lemma start (hF : F.WellFormed) : TransferSweep F (.start F) [] where
  forest := transfersMerged_nil hF
  failed := fun _ he => by cases he
  remembered := fun _ hp => by cases hp

/-- A bubble that is skipped begins no transfer. -/
lemma skipped (h : TransferSweep F r done) (hp : p ∉ done)
    (why : r.forest.contains p = false ∨ (0, p) ∈ r.failed) :
    F.isTransfer p = false ∧ (F.carries .jettonTransfer p = true → (0, p) ∈ r.failed) := by
  rcases why with hgone | hmem
  · have hno : F.carries .jettonTransfer p = false := by
      refine Bool.eq_false_iff.2 fun hyes => ?_
      rw [contains_congr (h.forest.get?_top hp hyes), contains_of_carries hyes] at hgone
      cases hgone
    exact ⟨by rw [isTransfer, hno]; rfl, fun hyes => absurd (hno ▸ hyes) (by decide)⟩
  · exact ⟨(h.failed _ hmem).2, fun _ => hmem⟩

lemma visit (hF : F.WellFormed) (h : TransferSweep F r done) (hp : p ∉ done) :
    TransferSweep F (r.visit 0 (Rule.transfer JettonTransfer.pattern) p) (done ++ [p]) := by
  have hstep := h.forest.step hF hp
  cases Run.visitCase r 0 (Rule.transfer JettonTransfer.pattern) p with
  | skipped why hsame =>
    obtain ⟨htransfer, hfailed⟩ := h.skipped hp why
    rw [hsame]
    refine ⟨h.forest.skip htransfer, h.failed, fun q hq htop hfirst hno => ?_⟩
    rcases List.mem_append.1 hq with hq | hq
    · exact h.remembered q hq htop hfirst hno
    · rw [List.mem_singleton.1 hq] at htop ⊢
      exact hfailed htop
  | merged _ _ hmerged hforest hfailed =>
    cases hstep with
    | refused _ hno => rw [hno] at hmerged; cases hmerged
    | merged htransfer _ hnext =>
      refine ⟨by rw [hforest]; exact hnext, by rw [hfailed]; exact h.failed, ?_⟩
      intro q hq htop hfirst hno
      rw [hfailed]
      rcases List.mem_append.1 hq with hq | hq
      · exact h.remembered q hq htop hfirst hno
      · rw [List.mem_singleton.1 hq, htransfer] at hno
        cases hno
  | refused _ _ hmerged hforest hfailed =>
    cases hstep with
    | merged _ hyes => rw [hyes] at hmerged; cases hmerged
    | refused htransfer _ hreported =>
      refine ⟨by rw [hforest]; exact h.forest.skip htransfer, ?_, ?_⟩
      · intro e he
        rw [hfailed] at he
        split at he
        · rcases List.mem_cons.1 he with rfl | he
          · exact ⟨rfl, htransfer⟩
          · exact h.failed e he
        · exact h.failed e he
      · intro q hq htop hfirst hno
        rw [hfailed]
        rcases List.mem_append.1 hq with hq | hq
        · split
          · exact List.mem_cons_of_mem _ (h.remembered q hq htop hfirst hno)
          · exact h.remembered q hq htop hfirst hno
        · rw [List.mem_singleton.1 hq] at htop hfirst ⊢
          rw [if_pos (hreported htop hfirst)]
          exact List.mem_cons_self

/-- The order in which the bubbles are visited does not matter. -/
theorem visits (hF : F.WellFormed) (h : TransferSweep F r done) (hids : ids.Nodup)
    (hfresh : ∀ p ∈ ids, p ∉ done) :
    TransferSweep F (ids.foldl (Run.visit 0 (Rule.transfer JettonTransfer.pattern)) r)
      (done ++ ids) := by
  induction ids generalizing r done with
  | nil => rw [List.append_nil]; exact h
  | cons p ids ih =>
    obtain ⟨hp, hids⟩ := List.nodup_cons.1 hids
    have hnext := ih (h.visit hF (hfresh p List.mem_cons_self)) hids fun q hq hmem => by
      rcases List.mem_append.1 hmem with hmem | hmem
      · exact hfresh q (List.mem_cons_of_mem p hq) hmem
      · exact hp (List.mem_singleton.1 hmem ▸ hq)
    rwa [List.append_assoc] at hnext

/-- The sweep with which a run begins. -/
theorem sweep (hF : F.WellFormed) :
    TransferSweep F ((Run.start F).sweep 0 (Rule.transfer JettonTransfer.pattern)) F.postOrder := by
  have h := (start hF).visits hF hF.postOrder_nodup fun _ _ hmem => by cases hmem
  have hsilent := Run.sweep_silent (.start F) 0 (Rule.transfer JettonTransfer.pattern)
  refine ⟨?_, ?_, ?_⟩
  · rw [hsilent.forest]; exact h.forest
  · rw [hsilent.failed]; exact h.failed
  · rw [hsilent.failed]; exact h.remembered

end TransferSweep
end TraceFold
