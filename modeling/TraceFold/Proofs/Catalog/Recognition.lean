import TraceFold.Proofs.Catalog.Mints
import TraceFold.Proofs.Catalog.Transfers
import TraceFold.Proofs.Saturation.Quiet
import TraceFold.Proofs.Trace.Loading

/-!
# What the standard catalog recognizes

Transfers can be told from the forest before anything is merged.  So can mints, from the leaves up:
a mint is no transfer and is not taken by one, and below it is an internal transfer that is no mint
itself (`Forest.isMint_iff`).

The first pass of a run finds them all, the transfers in its first sweep and the mints in its
second (`FirstPass.recognized`).  Nothing is left for another pass, although a mint may have made
room for a transfer that failed before: such an attempt is not repeated
(`FirstPass.settles_transfer`).  `recognition` says what this amounts to for a run over any trace.
-/

namespace TraceFold

open Catalog Forest

variable {F G H : Forest} {op : Operation} {r : Run} {n : Nat} {id p q c x : BubbleId}

namespace Forest

/-! ## Mints before anything is merged -/

/-- Some transfer takes the bubble as one of its links. -/
def inTransfer (F : Forest) (x : BubbleId) : Bool :=
  F.live.any fun p => F.isTransfer p && (F.links p).contains x

/-- A mint begins here, as far as a look at so many levels of the forest can tell. -/
def isMintWithin (F : Forest) : Nat → BubbleId → Bool
  | 0, _ => false
  | n + 1, p =>
    !F.isTransfer p && !F.inTransfer p && JettonMint.chain.isTopAt F p &&
      (F.children p).any fun c => F.carries .jettonInternalTransfer c && !F.isMintWithin n c

/-- A mint begins here. -/
def isMint (F : Forest) (p : BubbleId) : Bool := F.isMintWithin F.slots.size p

lemma contains_of_isTransfer (h : F.isTransfer p = true) : F.contains p = true :=
  contains_of_carries (isTransfer_iff.1 h).1

lemma inTransfer_iff : F.inTransfer x = true ↔ ∃ p, F.isTransfer p = true ∧ x ∈ F.links p := by
  rw [inTransfer, List.any_eq_true]
  constructor
  · rintro ⟨p, -, h⟩
    rw [Bool.and_eq_true, List.contains_iff_mem] at h
    exact ⟨p, h⟩
  · rintro ⟨p, htransfer, hx⟩
    refine ⟨p, mem_live.2 (contains_of_isTransfer htransfer), ?_⟩
    rw [Bool.and_eq_true, List.contains_iff_mem]
    exact ⟨htransfer, hx⟩

lemma isMintWithin_succ : F.isMintWithin (n + 1) p = true ↔
    F.isTransfer p = false ∧ F.inTransfer p = false ∧ JettonMint.chain.isTopAt F p = true ∧
      ∃ c ∈ F.children p, F.carries .jettonInternalTransfer c = true ∧
        F.isMintWithin n c = false := by
  simp only [isMintWithin, Bool.and_eq_true, Bool.not_eq_true', List.any_eq_true, and_assoc]

/-- As many levels as there are slots are enough, and more do not change the answer. -/
lemma isMintWithin_levels (hF : F.WellFormed) (hp : F.contains p = true)
    (hn : F.slots.size ≤ n + p) :
    ∀ m, F.slots.size ≤ m + p → F.isMintWithin m p = F.isMintWithin n p := by
  revert hp hn
  refine hF.levels_induction (motive := fun n p =>
    ∀ m, F.slots.size ≤ m + p → F.isMintWithin m p = F.isMintWithin n p) ?_ n p
  intro n p b hb _ ih m hm
  have hlt := lt_size_of_contains (contains_of_get? hb)
  obtain ⟨m, rfl⟩ : ∃ k, m = k + 1 := ⟨m - 1, by omega⟩
  rw [Bool.eq_iff_iff, isMintWithin_succ, isMintWithin_succ]
  refine and_congr_right fun _ => and_congr_right fun _ => and_congr_right fun _ => ?_
  refine exists_congr fun c => and_congr_right fun hc => and_congr_right fun _ => ?_
  have hpc := hF.lt_of_mem_children hc
  rw [ih c (children_eq hb ▸ hc) m (by omega)]

/-- Whether a bubble is a mint depends on its children alone. -/
theorem isMint_iff (hF : F.WellFormed) (p : BubbleId) : F.isMint p = true ↔
    F.isTransfer p = false ∧ F.inTransfer p = false ∧ JettonMint.chain.isTopAt F p = true ∧
      ∃ c ∈ F.children p, F.carries .jettonInternalTransfer c = true ∧ F.isMint c = false := by
  cases hp : F.contains p with
  | false =>
    have hnone := contains_eq_false.1 hp
    have hno : ∀ n, F.isMintWithin n p = false := by
      intro n
      cases n with
      | zero => rfl
      | succ n => simp [isMintWithin, children_eq_nil hnone]
    simp [isMint, hno, children_eq_nil hnone]
  | true =>
    rw [isMint, ← isMintWithin_levels hF hp (Nat.le_add_right _ p) (F.slots.size + 1) (by omega),
      isMintWithin_succ]
    rfl

lemma contains_of_isMint (hF : F.WellFormed) (h : F.isMint p = true) : F.contains p = true := by
  obtain ⟨-, -, -, c, hc, -⟩ := (isMint_iff hF p).1 h
  exact contains_of_mem_children hc

end Forest

/-! ## When all transfers are merged -/

namespace TransfersMerged

/-- A bubble has not changed if it is no transfer and none has taken it. -/
lemma get?_of_apart (h : TransfersMerged F G F.postOrder) (hx : F.isTransfer x = false)
    (hx' : F.inTransfer x = false) : G.get? x = F.get? x := by
  refine h.kept x fun p _ htransfer => ⟨?_, fun hlink => ?_⟩
  · rintro rfl
    rw [hx] at htransfer
    cases htransfer
  · rw [inTransfer_iff.2 ⟨p, htransfer, hlink⟩] at hx'
    cases hx'

lemma get?_of_inTransfer (hF : F.WellFormed) (h : TransfersMerged F G F.postOrder)
    (hx : F.inTransfer x = true) : G.get? x = none := by
  obtain ⟨p, htransfer, hlink⟩ := inTransfer_iff.1 hx
  exact h.taken p (hF.mem_postOrder.2 (contains_of_isTransfer htransfer)) htransfer x hlink

lemma payload_of_isTransfer (hF : F.WellFormed) (h : TransfersMerged F G F.postOrder)
    (hp : F.isTransfer p = true) :
    (G.get? p).map Bubble.payload = some (.jettonTransfer (F.transferAt p)) :=
  h.merged p (hF.mem_postOrder.2 (contains_of_isTransfer hp)) hp

/-- A transfer holds no transaction any more. -/
lemma transaction?_of_isTransfer (hF : F.WellFormed) (h : TransfersMerged F G F.postOrder)
    (hp : F.isTransfer p = true) : G.transaction? p = none :=
  h.transaction?_eq_none (hF.mem_postOrder.2 (contains_of_isTransfer hp)) hp

/-- Below what is no transfer, all internal transfers are left. -/
lemma carries_arrival (hF : F.WellFormed) (h : TransfersMerged F G F.postOrder)
    (hp : F.isTransfer p = false) (hx : x ∈ F.children p) :
    G.carries .jettonInternalTransfer x = F.carries .jettonInternalTransfer x := by
  rw [Bool.eq_iff_iff]
  refine ⟨h.keeps.carries_back, fun hcarries => ?_⟩
  rw [carries_congr (h.get?_of_apart ?_ ?_), hcarries]
  · refine Bool.eq_false_iff.2 fun htransfer => ?_
    exact absurd (carries_unique hcarries (isTransfer_iff.1 htransfer).1) (by decide)
  · refine Bool.eq_false_iff.2 fun hin => ?_
    obtain ⟨q, htransfer, hlink⟩ := inTransfer_iff.1 hin
    rw [← hF.parent_unique hx (mem_children_of_mem_links hcarries hlink), hp] at htransfer
    cases htransfer

/-- Below an internal transfer that is left, all ends are left. -/
lemma carries_end (hF : F.WellFormed) (h : TransfersMerged F G F.postOrder)
    (hc : G.contains c = true) (hx : x ∈ F.children c) (hop : op ≠ .jettonTransfer)
    (hop' : op ≠ .jettonInternalTransfer) : G.carries op x = F.carries op x := by
  rw [Bool.eq_iff_iff]
  refine ⟨h.keeps.carries_back, fun hcarries => ?_⟩
  rw [carries_congr (h.get?_of_apart ?_ ?_), hcarries]
  · refine Bool.eq_false_iff.2 fun htransfer => ?_
    exact hop (carries_unique hcarries (isTransfer_iff.1 htransfer).1)
  · refine Bool.eq_false_iff.2 fun hin => ?_
    obtain ⟨q, htransfer, hlink⟩ := inTransfer_iff.1 hin
    have hno := Bool.eq_false_iff.2 fun hyes => hop' (carries_unique hcarries hyes)
    obtain ⟨d, hd, hxd⟩ := exists_first_of_mem_links hno hlink
    have hdlink : d ∈ F.links q := mem_links.2 ⟨d, hd, .inr rfl⟩
    obtain rfl := hF.parent_unique hx hxd
    have hgone := h.get?_of_inTransfer hF (inTransfer_iff.2 ⟨q, htransfer, hdlink⟩)
    rw [contains_eq_false.2 hgone] at hc
    cases hc

/-- What the sweep of mints goes by is what could be told beforehand. -/
lemma mintLaw (hF : F.WellFormed) (h : TransfersMerged F G F.postOrder) : MintLaw G F.isMint := by
  intro p hlive
  rw [isMint_iff hF]
  cases hp : F.isTransfer p with
  | true =>
    have hno : JettonMint.chain.isTopAt G p = false := by
      rw [Chain.isTopAt, h.transaction?_of_isTransfer hF hp]; rfl
    simp [hno]
  | false =>
    have hin : F.inTransfer p = false := by
      refine Bool.eq_false_iff.2 fun hin => ?_
      rw [contains_eq_false.2 (h.get?_of_inTransfer hF hin)] at hlive
      cases hlive
    have hsame := h.get?_of_apart hp hin
    have htop : JettonMint.chain.isTopAt G p = JettonMint.chain.isTopAt F p := by
      rw [Chain.isTopAt, Chain.isTopAt, transaction?_congr hsame]
    rw [htop, children_congr hsame]
    simp only [hin, true_and]
    refine and_congr_right fun _ => exists_congr fun c => and_congr_right fun hc => ?_
    rw [h.carries_arrival hF hp hc]

/-- What is built for a mint is built as it could be told beforehand. -/
lemma mintAt_eq (hF : F.WellFormed) (h : TransfersMerged F G F.postOrder)
    (hp : F.isMint p = true) : G.mintAt F.isMint p = F.mintAt F.isMint p := by
  obtain ⟨htransfer, hin, -⟩ := (isMint_iff hF p).1 hp
  have hsame := h.get?_of_apart htransfer hin
  have hfirst : G.firstPlain? F.isMint .jettonInternalTransfer p =
      F.firstPlain? F.isMint .jettonInternalTransfer p := by
    rw [firstPlain?, firstPlain?, children_congr hsame]
    exact List.find?_congr fun c hc => by rw [h.carries_arrival hF htransfer hc]
  rw [mintAt, mintAt, hfirst]
  cases hc : F.firstPlain? F.isMint .jettonInternalTransfer p with
  | none => rfl
  | some c =>
    have hccarries := (firstPlain?_eq_some (hfirst.trans hc)).2.1
    have hcsame := h.keeps.get?_of_carries hccarries
    have hnotice : G.firstPlain? F.isMint .jettonNotify c =
        F.firstPlain? F.isMint .jettonNotify c := by
      rw [firstPlain?, firstPlain?, children_congr hcsame]
      refine List.find?_congr fun x hx => ?_
      rw [h.carries_end hF (contains_of_carries hccarries) hx (by decide) (by decide)]
    rw [Option.map_some, Option.map_some, hnotice, Chain.draftedWith, Chain.draftedWith,
      Chain.arrived, Chain.arrived, txOf_congr hsame, txOf_congr hcsame]
    cases hn : F.firstPlain? F.isMint .jettonNotify c with
    | none => rfl
    | some x =>
      have hxcarries := (firstPlain?_eq_some (hnotice.trans hn)).2.1
      simp only [Option.elim_some, txOf_congr (h.keeps.get?_of_carries hxcarries)]

end TransfersMerged

/-! ## What is recognized -/

/-- `H` is `F` with all its transfers and mints drawn together, each into its top. -/
structure Recognized (F H : Forest) : Prop where
  order : H.preOrder = F.preOrder.filter H.contains
  transfers : ∀ p, F.isTransfer p = true →
    (H.get? p).map Bubble.payload = some (.jettonTransfer (F.transferAt p))
  mints : ∀ p, F.isMint p = true →
    (H.get? p).map Bubble.payload = some (.jettonMint (F.mintAt F.isMint p))
  others : ∀ x, H.contains x = true → F.isTransfer x = false → F.isMint x = false →
    H.get? x = F.get? x

/-- A run after its first pass, with the forest between the two sweeps. -/
structure FirstPass (F G : Forest) (r : Run) : Prop where
  transfers : TransfersMerged F G F.postOrder
  mints : MintsMerged G r.forest F.isMint G.postOrder
  remembered : ∀ p, F.carries .jettonTransfer p = true →
    (F.first? .jettonInternalTransfer p).isSome = true → F.isTransfer p = false →
      (0, p) ∈ r.failed

theorem exists_firstPass (hF : F.WellFormed) :
    ∃ G, FirstPass F G ((Run.start F).pass Catalog.standard) := by
  have hpass : (Run.start F).pass Catalog.standard =
      ((Run.start F).sweep 0 (Rule.transfer JettonTransfer.pattern)).sweep 1
        (Rule.mint JettonMint.pattern) := rfl
  have htransfers := TransferSweep.sweep hF
  have hmints := MintSweep.sweep htransfers.forest.wellFormed (htransfers.forest.mintLaw hF)
    fun p hmem => absurd (htransfers.failed _ hmem).1 Nat.one_ne_zero
  refine ⟨((Run.start F).sweep 0 (Rule.transfer JettonTransfer.pattern)).forest,
    htransfers.forest, ?_, fun p hcarries hfirst hno => ?_⟩
  · rw [hpass]; exact hmints.forest
  · rw [hpass, hmints.failed]
    have hp := hF.mem_postOrder.2 (contains_of_carries hcarries)
    exact htransfers.remembered p hp hcarries hfirst hno

namespace FirstPass

lemma keeps (h : FirstPass F G r) : F.Keeps r.forest := h.transfers.keeps.trans h.mints.keeps

/-- What still carries an operation is no transfer. -/
lemma not_isTransfer (hF : F.WellFormed) (h : FirstPass F G r)
    (hx : r.forest.carries op x = true) : F.isTransfer x = false := by
  refine Bool.eq_false_iff.2 fun htransfer => ?_
  obtain ⟨tx, htx, -⟩ := carries_iff.1 (h.mints.keeps.carries_back hx)
  rw [h.transfers.transaction?_of_isTransfer hF htransfer] at htx
  cases htx

lemma recognized (hF : F.WellFormed) (h : FirstPass F G r) : Recognized F r.forest := by
  have hGwf := h.transfers.wellFormed
  refine ⟨?_, fun p hp => ?_, fun p hp => ?_, fun x hlive hx hx' => ?_⟩
  · rw [h.mints.order, h.transfers.order, List.filter_filter]
    refine List.filter_congr fun x _ => ?_
    rw [Bool.and_eq_left_iff_imp]
    intro hlive
    cases h.mints.fate x with
    | kept hsame => rwa [← contains_congr hsame]
    | merged _ hG => exact hG
    | taken _ hgone => rw [contains_eq_false.2 hgone] at hlive; cases hlive
  · have hpayload := h.transfers.payload_of_isTransfer hF hp
    cases h.mints.fate p with
    | kept hsame => rw [hsame]; exact hpayload
    | merged _ _ hmint =>
      rw [((isMint_iff hF p).1 hmint).1] at hp
      cases hp
    | taken _ _ _ hcarried =>
      obtain ⟨op, hop⟩ := hcarried
      obtain ⟨tx, htx, -⟩ := carries_iff.1 hop
      rw [h.transfers.transaction?_of_isTransfer hF hp] at htx
      cases htx
  · obtain ⟨htransfer, hin, -⟩ := (isMint_iff hF p).1 hp
    have hlive : G.contains p = true := by
      rw [contains_congr (h.transfers.get?_of_apart htransfer hin)]
      exact contains_of_isMint hF hp
    rw [← h.transfers.mintAt_eq hF hp]
    exact h.mints.merged p (hGwf.mem_postOrder.2 hlive) hlive hp
  · cases h.mints.fate x with
    | kept hsame =>
      refine hsame.trans (h.transfers.get?_of_apart hx (Bool.eq_false_iff.2 fun hin => ?_))
      rw [contains_congr hsame, contains_eq_false.2 (h.transfers.get?_of_inTransfer hF hin)]
        at hlive
      cases hlive
    | merged _ _ hmint => rw [hx'] at hmint; cases hmint
    | taken _ hgone => rw [contains_eq_false.2 hgone] at hlive; cases hlive

/-! ### Nothing is left for another pass -/

/-- A transfer that is left has failed in the first pass, and is not tried again. -/
lemma settles_transfer (hF : F.WellFormed) (h : FirstPass F G r) (x : BubbleId) :
    r.Settled 0 (Rule.transfer JettonTransfer.pattern) x := by
  intro _ hfresh
  have hnone : ∀ c, JettonTransfer.chain.isTopAt r.forest x = true →
      r.forest.first? .jettonInternalTransfer x ≠ some c := by
    intro c htop hc
    rw [JettonTransfer.isTopAt_eq] at htop
    have hno := h.not_isTransfer hF htop
    obtain ⟨hcx, hccarries⟩ := first?_eq_some hc
    rw [children_congr (h.keeps.get?_of_carries htop)] at hcx
    have hfirst : (F.first? .jettonInternalTransfer x).isSome = true :=
      first?_isSome.2 ⟨c, hcx, h.keeps.carries_back hccarries⟩
    exact hfresh (h.remembered x (h.keeps.carries_back htop) hfirst hno)
  cases JettonTransfer.chain.outcome h.mints.wellFormed x with
  | missing _ _ hmerged hreported => exact ⟨hmerged, hreported⟩
  | failed c _ htop hc => exact absurd hc (hnone c htop)
  | success c htop hc => exact absurd hc (hnone c htop)

/-- A mint that is left would have been one in the first pass. -/
lemma settles_mint (hF : F.WellFormed) (h : FirstPass F G r) (x : BubbleId) :
    r.Settled 1 (Rule.mint JettonMint.pattern) x := by
  intro _ _
  have hGwf := h.transfers.wellFormed
  cases JettonMint.chain.outcome h.mints.wellFormed x with
  | missing _ _ hmerged hreported => exact ⟨hmerged, hreported⟩
  | failed c e _ hc hfailure =>
    rw [JettonMint.arrived_ok (first?_eq_some hc).2] at hfailure
    cases hfailure
  | success c htop hc =>
    obtain ⟨tx, htx, -⟩ := (Option.any_eq_true _ _).1 htop
    have hsame := h.mints.keeps x tx htx
    obtain ⟨hcx, hccarries⟩ := first?_eq_some hc
    rw [children_congr hsame] at hcx
    have hccarriesG := h.mints.keeps.carries_back hccarries
    have hcvisited := hGwf.mem_postOrder.2 (contains_of_carries hccarriesG)
    have hlive := contains_of_mem_children hcx
    have htopG : JettonMint.chain.isTopAt G x = true := by
      rwa [Chain.isTopAt, ← transaction?_congr hsame]
    have hmint : F.isMint x = true := (h.transfers.mintLaw hF x hlive).2
      ⟨htopG, c, hcx, hccarriesG, h.mints.not_mint_of_carries hcvisited hccarries⟩
    have hnone := h.mints.transaction?_eq_none (hGwf.mem_postOrder.2 hlive) hlive hmint
    rw [hnone] at htx
    cases htx

lemma quiet (hF : F.WellFormed) (h : FirstPass F G r) : Run.Quiet Catalog.standard r := by
  intro index rule hrule x
  match index, hrule with
  | 0, hrule =>
    obtain rfl := Option.some.inj hrule
    exact h.settles_transfer hF x
  | 1, hrule =>
    obtain rfl := Option.some.inj hrule
    exact h.settles_mint hF x

end FirstPass

/-- A run finds everything in its first pass. -/
theorem recognized_ofForest (hF : F.WellFormed) (hn : 0 < n) :
    Recognized F (Saturation.ofForest Catalog.standard n F).forest := by
  obtain ⟨G, hpass⟩ := exists_firstPass hF
  rw [(Saturation.ofForest_of_quiet (hpass.quiet hF) hn).1]
  exact hpass.recognized hF

/-- Two passes are enough for the standard catalog, and all the work is done in the first of them:
with at least two passes allowed, a run ends at a fixpoint after one or two, the second of which
merges nothing and reports nothing; and how many are allowed, if any, makes no difference to the
forest, the actions and the reports. -/
theorem done_at_once (hF : F.WellFormed) :
    (∀ n, 2 ≤ n → Saturation.DoneAtOnce Catalog.standard F
      (Saturation.ofForest Catalog.standard n F)) ∧
    ∀ m n, 1 ≤ m → 1 ≤ n →
      (Saturation.ofForest Catalog.standard m F).forest =
        (Saturation.ofForest Catalog.standard n F).forest ∧
      (Saturation.ofForest Catalog.standard m F).actions =
        (Saturation.ofForest Catalog.standard n F).actions ∧
      (Saturation.ofForest Catalog.standard m F).reports =
        (Saturation.ofForest Catalog.standard n F).reports := by
  obtain ⟨G, hpass⟩ := exists_firstPass hF
  have hquiet := hpass.quiet hF
  refine ⟨fun n hn => Saturation.doneAtOnce_of_quiet hquiet hn, fun m n hm hn => ?_⟩
  obtain ⟨hforest, hreports⟩ := Saturation.ofForest_of_quiet hquiet hm
  obtain ⟨hforest', hreports'⟩ := Saturation.ofForest_of_quiet hquiet hn
  have hsame := hforest.trans hforest'.symm
  exact ⟨hsame, congrArg Forest.actions hsame, hreports.trans hreports'.symm⟩

open Saturation in
/-- A transfer fails and a mint is found, both in the first pass. -/
theorem done_at_once_lateMaster : lateMaster.WellFormed ∧
    (ofForest Catalog.standard 1 lateMaster).fixpoint = false ∧
    (ofForest Catalog.standard 16 lateMaster).passes.map PassCounts.merged = [1, 0] ∧
    (ofForest Catalog.standard 1 lateMaster).reports.length = 1 ∧
    DoneAtOnce Catalog.standard lateMaster (ofForest Catalog.standard 16 lateMaster) ∧
    (ofForest Catalog.standard 16 lateMaster).reports =
      (ofForest Catalog.standard 1 lateMaster).reports := by
  have hF : lateMaster.WellFormed := by decide
  obtain ⟨hdone, hsame⟩ := done_at_once hF
  exact ⟨hF, by decide +kernel, by decide +kernel, by decide +kernel, hdone 16 (by decide),
    (hsame 16 1 (by decide) (by decide)).2.2⟩

/-! ## Actions -/

namespace Forest

/-- The kind of payload that a live bubble holds. -/
def kind? (F : Forest) (id : BubbleId) : Option PayloadKind :=
  (F.get? id).map fun b => b.payload.kind

/-- The action that begins here, as it is handed out. -/
def actionAt? (F : Forest) (p : BubbleId) : Option Action :=
  if F.isTransfer p then some (F.transferAt p).toAction
  else if F.isMint p then some (F.mintAt F.isMint p).toAction
  else none

end Forest

namespace Recognized

/-- What is neither a transfer nor a mint still holds its transaction. -/
lemma exists_transaction (h : Recognized F H) (hF : F.AllTransactions)
    (hlive : H.contains x = true) (hx : F.isTransfer x = false) (hx' : F.isMint x = false) :
    ∃ b, H.get? x = some b ∧ ∃ tx, b.payload = .transaction tx := by
  obtain ⟨b, hb⟩ := contains_iff.1 hlive
  have hsame := h.others x hlive hx hx'
  obtain ⟨tx, htx⟩ := hF x b (hsame ▸ hb)
  exact ⟨b, hb, tx.withOpcode, htx⟩

lemma kind?_of_isTransfer (h : Recognized F H) (hp : F.isTransfer p = true) :
    H.kind? p = some .jettonTransfer := by
  obtain ⟨b, hb, hpayload⟩ := Option.map_eq_some_iff.1 (h.transfers p hp)
  rw [kind?, hb, Option.map_some, hpayload, Payload.kind]

lemma kind?_of_isMint (h : Recognized F H) (hp : F.isMint p = true) :
    H.kind? p = some .jettonMint := by
  obtain ⟨b, hb, hpayload⟩ := Option.map_eq_some_iff.1 (h.mints p hp)
  rw [kind?, hb, Option.map_some, hpayload, Payload.kind]

lemma kind?_of_other (h : Recognized F H) (hF : F.AllTransactions)
    (hlive : H.contains x = true) (hx : F.isTransfer x = false) (hx' : F.isMint x = false) :
    H.kind? x = some .transaction := by
  obtain ⟨b, hb, tx, htx⟩ := h.exists_transaction hF hlive hx hx'
  rw [kind?, hb, Option.map_some, htx, Payload.kind]

/-- A bubble holds an action just where one could be told beforehand. -/
lemma action?_eq (h : Recognized F H) (hF : F.AllTransactions) (p : BubbleId) :
    ((H.get? p).bind fun b => b.payload.action?) = F.actionAt? p := by
  rw [actionAt?]
  cases htransfer : F.isTransfer p with
  | true =>
    obtain ⟨b, hb, hpayload⟩ := Option.map_eq_some_iff.1 (h.transfers p htransfer)
    rw [hb, Option.bind_some, hpayload]
    rfl
  | false =>
    cases hmint : F.isMint p with
    | true =>
      obtain ⟨b, hb, hpayload⟩ := Option.map_eq_some_iff.1 (h.mints p hmint)
      rw [hb, Option.bind_some, hpayload]
      rfl
    | false =>
      cases hlive : H.contains p with
      | false => rw [contains_eq_false.1 hlive]; rfl
      | true =>
        obtain ⟨b, hb, tx, htx⟩ := h.exists_transaction hF hlive htransfer hmint
        rw [hb, Option.bind_some, htx]
        rfl

/-- The actions come in the order in which their tops came at first. -/
lemma actions_eq (h : Recognized F H) (hF : F.AllTransactions) :
    H.actions = F.preOrder.filterMap F.actionAt? := by
  rw [actions, h.order, List.filterMap_filter]
  refine List.filterMap_congr fun p _ => ?_
  rw [← h.action?_eq hF p]
  cases hlive : H.contains p with
  | false => rw [contains_eq_false.1 hlive]; rfl
  | true => rfl

end Recognized

/-- A finished run has recognized what there was in the forest it began with, and nothing else. -/
structure Recognizes (F : Forest) (s : Saturation) : Prop where
  transfer_iff : ∀ p, s.forest.kind? p = some .jettonTransfer ↔ F.isTransfer p = true
  mint_iff : ∀ p, s.forest.kind? p = some .jettonMint ↔ F.isMint p = true
  /-- Every other bubble that is live is as it was. -/
  others : ∀ x, s.forest.contains x = true → F.isTransfer x = false → F.isMint x = false →
    s.forest.kind? x = some .transaction ∧ s.forest.get? x = F.get? x
  actions : s.actions = F.preOrder.filterMap F.actionAt?

lemma Recognized.recognizes {s : Saturation} (h : Recognized F s.forest)
    (hF : F.AllTransactions) : Recognizes F s := by
  have hcases : ∀ p kind, s.forest.kind? p = some kind →
      kind = if F.isTransfer p then .jettonTransfer
        else if F.isMint p then .jettonMint else .transaction := by
    intro p kind hkind
    cases htransfer : F.isTransfer p with
    | true =>
      exact Option.some.inj (hkind.symm.trans (h.kind?_of_isTransfer htransfer))
    | false =>
      cases hmint : F.isMint p with
      | true => exact Option.some.inj (hkind.symm.trans (h.kind?_of_isMint hmint))
      | false =>
        obtain ⟨b, hb, -⟩ := Option.map_eq_some_iff.1 hkind
        have hother := h.kind?_of_other hF (contains_of_get? hb) htransfer hmint
        exact Option.some.inj (hkind.symm.trans hother)
  refine ⟨fun p => ⟨fun hkind => ?_, h.kind?_of_isTransfer⟩,
    fun p => ⟨fun hkind => ?_, h.kind?_of_isMint⟩, fun x hlive hx hx' => ?_, h.actions_eq hF⟩
  · have hkind := hcases p _ hkind
    split at hkind
    · assumption
    · split at hkind <;> cases hkind
  · have hkind := hcases p _ hkind
    split at hkind
    · cases hkind
    · split at hkind
      · assumption
      · cases hkind
  · exact ⟨h.kind?_of_other hF hlive hx hx', h.others x hlive hx hx'⟩

/-! ## Runs over traces -/

/-- Every trace that is not empty loads as a well-formed forest of transactions, and a run over it
with the standard catalog recognizes all of its transfers and mints, however many passes it is
allowed.  Which bubbles are mints is determined from the leaves up by the equivalence. -/
theorem recognition {roots : List TraceNode} (hroots : roots ≠ []) (hn : 0 < n) :
    ∃ F, Forest.ofNodes roots = .ok F ∧ F.WellFormed ∧ F.AllTransactions ∧
      (∀ p, F.isMint p = true ↔ F.isTransfer p = false ∧
        (¬ ∃ q, F.isTransfer q = true ∧ p ∈ F.links q) ∧
        JettonMint.chain.isTopAt F p = true ∧
        ∃ c ∈ F.children p, F.carries .jettonInternalTransfer c = true ∧ F.isMint c = false) ∧
      Recognizes F (Saturation.ofForest Catalog.standard n F) := by
  obtain ⟨F, hload, hwf, hF⟩ := exists_ofNodes hroots
  refine ⟨F, hload, hwf, hF, fun p => ?_, (recognized_ofForest hwf hn).recognizes hF⟩
  rw [isMint_iff hwf, ← inTransfer_iff, Bool.not_eq_true]

open Saturation in
/-- A trace with a transfer that fails and a mint below it. -/
theorem recognition_lateMaster : Forest.ofNodes [lateMasterNode] = .ok lateMaster ∧
    lateMaster.isTransfer 0 = false ∧ lateMaster.isMint 1 = true ∧
    lateMaster.isMint 2 = false ∧
    Recognizes lateMaster (Saturation.ofForest Catalog.standard 16 lateMaster) := by
  obtain ⟨F, hload, -, -, -, h⟩ :=
    recognition (n := 16) (List.cons_ne_nil lateMasterNode []) (by decide)
  have hlate : Forest.ofNodes [lateMasterNode] = .ok lateMaster := rfl
  obtain rfl := Except.ok.inj (hlate.symm.trans hload)
  exact ⟨hlate, by decide +kernel, by decide +kernel, by decide +kernel, h⟩

end TraceFold
