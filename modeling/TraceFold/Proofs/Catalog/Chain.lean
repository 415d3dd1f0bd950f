import Mathlib.Data.List.Find
import TraceFold.Catalog.JettonMint
import TraceFold.Proofs.Forest.Payloads
import TraceFold.Proofs.Matching.Acceptance
import TraceFold.Proofs.Merging.Effect

/-!
# Chains of jetton messages

The patterns of the standard catalog have the same shape: a transaction at the top, below it the
first internal transfer, and below that the first notice and the first excess message, where there
are such.  `Chain` holds what differs from one to the other, and `Chain.outcome` says what comes of
merging such a pattern, whatever the forest: nothing if a link is missing, a report if the builder
for the internal transfer fails, and otherwise a contraction with a payload built link by link.
-/

namespace TraceFold

variable {α : Type} {F : Forest} {q : Pattern α} {op : Operation} {b : Bubble}
  {ids taken l : List BubbleId} {id p c x : BubbleId}

/-! ## Transactions of a forest -/

namespace Forest

/-- The bubble holds a transaction whose body carries the operation. -/
def carries (F : Forest) (op : Operation) (id : BubbleId) : Bool :=
  (F.transaction? id).any fun tx => tx.carries op

/-- The first child that carries the operation. -/
def first? (F : Forest) (op : Operation) (id : BubbleId) : Option BubbleId :=
  (F.children id).find? (F.carries op)

/-- The notice and the excess message below an internal transfer, where there are such. -/
def ends (F : Forest) (id : BubbleId) : List BubbleId :=
  (F.first? .jettonNotify id).toList ++ (F.first? .excess id).toList

lemma carries_congr {G : Forest} (h : G.get? id = F.get? id) :
    G.carries op id = F.carries op id := by
  rw [carries, carries, transaction?_congr h]

lemma carries_iff : F.carries op id = true ↔
    ∃ tx, F.transaction? id = some tx ∧ tx.carries op = true := by
  rw [carries, Option.any_eq_true]

lemma carries_txOf (h : F.carries op id = true) : (F.txOf id).carries op = true := by
  obtain ⟨tx, htx, hop⟩ := carries_iff.1 h
  rwa [txOf, htx]

/-- A bubble carries one operation only. -/
lemma carries_unique {op' : Operation} (h : F.carries op id = true)
    (h' : F.carries op' id = true) : op = op' := by
  have hop := carries_txOf h
  have hop' := carries_txOf h'
  rw [Transaction.carries, beq_iff_eq] at hop hop'
  exact Option.some.inj (hop.symm.trans hop')

lemma contains_of_carries (h : F.carries op x = true) : F.contains x = true := by
  obtain ⟨tx, htx, -⟩ := carries_iff.1 h
  obtain ⟨b, hb, -⟩ := transaction?_eq_some htx
  exact contains_of_get? hb

lemma first?_eq_some (h : F.first? op id = some c) :
    c ∈ F.children id ∧ F.carries op c = true :=
  ⟨List.mem_of_find?_eq_some h, List.find?_some h⟩

lemma first?_isSome : (F.first? op id).isSome = true ↔
    ∃ c ∈ F.children id, F.carries op c = true := List.find?_isSome

lemma mem_ends : x ∈ F.ends id ↔
    F.first? .jettonNotify id = some x ∨ F.first? .excess id = some x := by
  rw [ends, List.mem_append, Option.mem_toList, Option.mem_toList]

lemma ends_mem_children (h : x ∈ F.ends id) : x ∈ F.children id := by
  rcases mem_ends.1 h with h | h <;> exact (first?_eq_some h).1

/-- The ends of a chain carry nothing else. -/
lemma not_carries_of_mem_ends (hop : op ≠ .jettonNotify) (hop' : op ≠ .excess)
    (h : x ∈ F.ends c) : F.carries op x = false := by
  rw [Bool.eq_false_iff]
  intro hcarries
  rcases mem_ends.1 h with h | h
  · exact hop (carries_unique hcarries (first?_eq_some h).2)
  · exact hop' (carries_unique hcarries (first?_eq_some h).2)

namespace Keeps

variable {G : Forest}

lemma get?_of_carries (h : F.Keeps G) (hx : G.carries op x = true) : G.get? x = F.get? x := by
  obtain ⟨tx, htx, -⟩ := carries_iff.1 hx
  exact h x tx htx

lemma carries_back (h : F.Keeps G) (hx : G.carries op x = true) : F.carries op x = true := by
  rwa [← carries_congr (h.get?_of_carries hx)]

/-- The first child is the same where the children are, and where all that carried the operation
are as they were. -/
lemma first?_eq (h : F.Keeps G) (hchildren : G.children p = F.children p)
    (hkept : ∀ x ∈ F.children p, F.carries op x = true → G.get? x = F.get? x) :
    G.first? op p = F.first? op p := by
  rw [first?, first?, hchildren]
  refine List.find?_congr fun x hx => ?_
  cases hF : F.carries op x with
  | true => rw [carries_congr (hkept x hx hF), hF]
  | false => exact Bool.eq_false_iff.2 fun hG => Bool.eq_false_iff.1 hF (h.carries_back hG)

end Keeps

end Forest

/-! ## Checks -/

lemma Check.hasOperation_eq (op : Operation) (b : Bubble) :
    Check.hasOperation op b = b.transaction?.any fun tx => tx.carries op := by
  rw [Check.hasOperation, Check.onTransaction, Bubble.transaction?]
  cases b.payload <;> rfl

/-- A pattern accepts the bubble of this name. -/
def Forest.accepts (F : Forest) (q : Pattern α) (id : BubbleId) : Bool :=
  (F.get? id).any q.accepts

/-- Patterns of transactions that carry an operation accept what carries it. -/
lemma Forest.accepts_of_checks (h : q.checks = [.isTransaction, .hasOperation op]) :
    F.accepts q id = F.carries op id := by
  rw [accepts, carries, transaction?]
  cases F.get? id with
  | none => rfl
  | some b =>
    simp only [Pattern.accepts, h, Option.any_some, Option.bind_some, List.all_cons, List.all_nil,
      Check.isTransaction_eq, Check.hasOperation_eq, Bool.and_true]
    cases b.transaction? <;> rfl

/-! ## Builders of claimed bubbles -/

namespace Claims

/-- The builder for transactions gets the transaction of the bubble. -/
lemma buildAt_of_get? {c : Claims α} {draft : α} {tx : Transaction}
    {build : α → Transaction → α × Option BuildError} (h : c.get? id = some q)
    (hq : q.builder = some (.onTransaction build)) (htx : F.transaction? id = some tx) :
    c.buildAt F draft id = build draft tx := by
  obtain ⟨b, hb, hpayload⟩ := Forest.transaction?_eq_some htx
  rw [buildAt, builder?, h, Option.bind_some, hq, hb]
  simp only [Builder.onTransaction, hpayload]

lemma buildAt_of_none {c : Claims α} {draft : α} (h : c.get? id = some q)
    (hq : q.builder = none) : c.buildAt F draft id = (draft, none) := by
  rw [buildAt, builder?, h, Option.bind_some, hq]

end Claims

/-! ## Greedy choices among siblings -/

lemma firstFree_eq {β : Type} (choice : BubbleId → Option β) (taken ids : List BubbleId) :
    firstFree choice taken ids =
      (ids.find? fun x => decide (x ∉ taken) && (choice x).isSome).bind fun x =>
        (choice x).map fun v => (x, v) := by
  induction ids with
  | nil => rfl
  | cons id ids ih =>
    rw [firstFree, List.find?_cons]
    by_cases hid : id ∈ taken
    · simp [hid, ih]
    · cases hchoice : choice id with
      | none => simp [hid, ih]
      | some v => simp [hid, hchoice]

namespace Pattern

/-- A pattern without child patterns takes one bubble. -/
lemma greedy_leaf (hq : q.children = []) (id : BubbleId) :
    q.greedy F id = if F.accepts q id then some [(id, q)] else none := by
  rw [Forest.accepts]
  cases hb : F.get? id with
  | none => rw [greedy_of_gone hb]; rfl
  | some b =>
    rw [greedy_of_get? hb, hq, greedyChildren]
    rfl

lemma firstFree_leaf (hq : q.children = []) (taken ids : List BubbleId) :
    firstFree (q.greedy F) taken ids =
      (ids.find? fun x => decide (x ∉ taken) && F.accepts q x).map fun x => (x, [(x, q)]) := by
  rw [firstFree_eq]
  have hsome : ∀ x, (q.greedy F x).isSome = F.accepts q x := by
    intro x
    rw [greedy_leaf hq]
    cases F.accepts q x <;> rfl
  simp only [hsome]
  cases hfind : ids.find? fun x => decide (x ∉ taken) && F.accepts q x with
  | none => rfl
  | some x =>
    have hacc := (Bool.and_eq_true _ _ ▸ List.find?_some hfind).2
    rw [Option.bind_some, greedy_leaf hq, if_pos hacc]
    rfl

end Pattern

/-! ## The order of a chain -/

/-- What everything else in a list lies below comes first in it, if nothing is followed by something
that it lies below. -/
lemma Forest.eq_cons_of_below (hl : l.Pairwise fun x y => ¬ F.Below y x) (hid : id ∈ l)
    (hall : ∀ x ∈ l, F.Below id x) : ∃ rest, l = id :: rest := by
  cases l with
  | nil => cases hid
  | cons x rest =>
    by_cases hx : x = id
    · exact ⟨rest, by rw [hx]⟩
    · have hrest : id ∈ rest := (List.mem_cons.1 hid).resolve_left (Ne.symm hx)
      exact absurd (hall x List.mem_cons_self) ((List.pairwise_cons.1 hl).1 id hrest)

/-! ## Chains -/

/-- What differs from one chain of jetton messages to another: three names, what the bubble at the
top has to be, and how the links are read.  Only the builder for the internal transfer may fail on
what its pattern accepts. -/
structure Chain (α : Type) where
  name : String
  arrivalName : String
  noticeName : String
  /-- The checks at the top, and what they ask of a transaction. -/
  checks : List Check
  isTop : Transaction → Bool
  onTop : α → Transaction → α × Option BuildError
  onArrival : α → Transaction → α × Option BuildError
  onNotice : α → Transaction → α × Option BuildError
  checks_eq : ∀ b tx, b.transaction? = some tx → (checks.all fun check => check b) = isTop tx
  onTop_ok : ∀ draft tx, isTop tx = true → (onTop draft tx).2 = none
  onNotice_ok : ∀ draft tx, tx.carries .jettonNotify = true → (onNotice draft tx).2 = none

namespace Chain

open Catalog (excess)

variable (k : Chain α)

def notice : Pattern α :=
  .building k.noticeName [.hasOperation .jettonNotify] k.onNotice [] true

def arrival : Pattern α :=
  .building k.arrivalName [.hasOperation .jettonInternalTransfer] k.onArrival
    [k.notice, excess] false

def pattern : Pattern α := .building k.name k.checks k.onTop [k.arrival] false

/-- The bubble holds a transaction with which the chain may begin. -/
def isTopAt (F : Forest) (id : BubbleId) : Bool := (F.transaction? id).any k.isTop

lemma accepts_notice : F.accepts k.notice id = F.carries .jettonNotify id :=
  Forest.accepts_of_checks rfl

lemma accepts_arrival : F.accepts k.arrival id = F.carries .jettonInternalTransfer id :=
  Forest.accepts_of_checks rfl

lemma accepts_excess : F.accepts (excess : Pattern α) id = F.carries .excess id :=
  Forest.accepts_of_checks rfl

lemma accepts_pattern : F.accepts k.pattern id = k.isTopAt F id := by
  rw [Forest.accepts, isTopAt, Forest.transaction?]
  cases F.get? id with
  | none => rfl
  | some b =>
    rw [Option.any_some, Option.bind_some, pattern, Pattern.building, Pattern.accepts,
      List.all_cons, Check.isTransaction_eq]
    cases htx : b.transaction? with
    | none => rfl
    | some tx => rw [k.checks_eq b tx htx]; rfl

/-! ### What a chain claims -/

/-- The claims at the ends of a chain. -/
def endEntries (F : Forest) (id : BubbleId) : List (BubbleId × Pattern α) :=
  (F.first? .jettonNotify id).toList.map (fun x => (x, k.notice)) ++
    (F.first? .excess id).toList.map fun x => (x, excess)

lemma map_endEntries : (k.endEntries F id).map Prod.fst = F.ends id := by
  simp [endEntries, Forest.ends, List.map_append, Function.comp_def]

/-- The notice that was taken is no excess message, so it does not stand in the way of one. -/
lemma find?_excess (hmem : ∀ x ∈ taken, F.carries .jettonNotify x = true) :
    (ids.find? fun x => decide (x ∉ taken) && F.accepts (excess : Pattern α) x) =
      ids.find? (F.carries .excess) := by
  refine List.find?_congr fun x _ => ?_
  rw [accepts_excess]
  by_cases hx : x ∈ taken
  · have hno : F.carries .excess x = false := by
      rw [Bool.eq_false_iff]
      exact fun hexcess => absurd (Forest.carries_unique (hmem x hx) hexcess) (by decide)
    rw [hno, Bool.and_false]
  · rw [decide_eq_true hx, Bool.true_and]

lemma greedyChildren_ends (hids : F.children id = ids) :
    Pattern.greedyChildren F [k.notice, excess] ids [] = some (k.endEntries F id) := by
  subst hids
  rw [Pattern.greedyChildren, Pattern.firstFree_leaf rfl]
  have hnotice : (F.children id).find? (fun x => decide (x ∉ ([] : List BubbleId)) &&
      F.accepts k.notice x) = F.first? .jettonNotify id := by
    rw [Forest.first?]
    exact List.find?_congr fun x _ => by rw [accepts_notice]; simp
  have hlast : ∀ taken : List BubbleId, (∀ x ∈ taken, F.carries .jettonNotify x = true) →
      Pattern.greedyChildren F [(excess : Pattern α)] (F.children id) taken =
        some ((F.first? .excess id).toList.map fun x => (x, excess)) := by
    intro taken htaken
    rw [Pattern.greedyChildren, Pattern.firstFree_leaf rfl, find?_excess htaken, ← Forest.first?]
    cases F.first? .excess id <;> rfl
  rw [hnotice, endEntries]
  cases hfirst : F.first? .jettonNotify id with
  | none => exact hlast [] (by simp)
  | some n =>
    have hn := (Forest.first?_eq_some hfirst).2
    show (Pattern.greedyChildren F [(excess : Pattern α)] (F.children id) [n]).map _ = _
    rw [hlast [n] (by simpa using hn)]
    rfl

lemma greedy_arrival : k.arrival.greedy F id =
    if F.carries .jettonInternalTransfer id then some (k.endEntries F id ++ [(id, k.arrival)])
    else none := by
  rw [← accepts_arrival, Forest.accepts]
  cases hb : F.get? id with
  | none => rw [Pattern.greedy_of_gone hb]; rfl
  | some b =>
    have hends := k.greedyChildren_ends (Forest.children_eq hb)
    rw [Pattern.greedy_of_get? hb, Option.any_some]
    show (if _ then (Pattern.greedyChildren F [k.notice, excess] b.children []).map _ else _) = _
    rw [hends]
    rfl

/-- What a whole chain takes, from its ends upwards. -/
def linkEntries (F : Forest) (p c : BubbleId) : List (BubbleId × Pattern α) :=
  k.endEntries F c ++ [(c, k.arrival)] ++ [(p, k.pattern)]

/-- The claims of a whole chain. -/
def claims (F : Forest) (p c : BubbleId) : Claims α := .ofEntries (k.linkEntries F p c)

lemma bubbles_claims : (k.claims F p c).bubbles = F.ends c ++ [c] ++ [p] := by
  rw [claims, Claims.bubbles_ofEntries, linkEntries, List.map_append, List.map_append,
    map_endEntries]
  rfl

lemma get?_claims (hnodup : (k.claims F p c).bubbles.Nodup) (h : (x, q) ∈ k.linkEntries F p c) :
    (k.claims F p c).get? x = some q :=
  (Claims.get?_eq_some_iff hnodup).2 h

lemma greedy_pattern : k.pattern.greedy F id =
    if k.isTopAt F id then
      (F.first? .jettonInternalTransfer id).map (k.linkEntries F id)
    else none := by
  rw [← accepts_pattern, Forest.accepts]
  cases hb : F.get? id with
  | none => rw [Pattern.greedy_of_gone hb]; rfl
  | some b =>
    have hfirst : firstFree (k.arrival.greedy F) [] b.children =
        (F.first? .jettonInternalTransfer id).map fun c =>
          (c, k.endEntries F c ++ [(c, k.arrival)]) := by
      have hsome : ∀ x, (k.arrival.greedy F x).isSome = F.carries .jettonInternalTransfer x := by
        intro x
        rw [greedy_arrival]
        cases F.carries .jettonInternalTransfer x <;> rfl
      rw [firstFree_eq, Forest.first?, Forest.children_eq hb]
      simp only [hsome, List.not_mem_nil, not_false_eq_true, decide_true, Bool.true_and]
      cases hfind : b.children.find? (F.carries .jettonInternalTransfer) with
      | none => rfl
      | some c =>
        rw [Option.bind_some, greedy_arrival, if_pos (List.find?_some hfind)]
        rfl
    rw [Pattern.greedy_of_get? hb, Option.any_some]
    show (if _ then (Pattern.greedyChildren F [k.arrival] b.children []).map _ else _) = _
    rw [Pattern.greedyChildren, hfirst]
    cases F.first? .jettonInternalTransfer id with
    | none => rfl
    | some c =>
      show (if _ then ((Pattern.greedyChildren F [] b.children [c]).map _).map _ else _) = _
      rw [Pattern.greedyChildren]
      simp [linkEntries]

lemma claim?_eq (hF : F.WellFormed) : k.pattern.claim? F id =
    if k.isTopAt F id then (F.first? .jettonInternalTransfer id).map (k.claims F id)
    else none := by
  rw [Pattern.claim?_eq_greedy hF, greedy_pattern]
  cases k.isTopAt F id with
  | false => rfl
  | true => cases F.first? .jettonInternalTransfer id <;> rfl

/-- What is claimed, if anything, are the links of the chain. -/
lemma eq_claims (hF : F.WellFormed) {claims : Claims α}
    (h : k.pattern.claim? F p = some claims) :
    k.isTopAt F p = true ∧ ∃ c, F.first? .jettonInternalTransfer p = some c ∧
      claims = k.claims F p c := by
  rw [k.claim?_eq hF] at h
  split at h
  · rename_i htop
    obtain ⟨c, hfirst, rfl⟩ := Option.map_eq_some_iff.1 h
    exact ⟨htop, c, hfirst, rfl⟩
  · cases h

/-- The bubbles of a chain come in the order of its links. -/
lemma exists_inOrder (hF : F.WellFormed)
    (h : k.pattern.claim? F p = some (k.claims F p c)) :
    ∃ rest, (k.claims F p c).inOrder F p = p :: c :: rest ∧ rest.Nodup ∧
      ∀ x, x ∈ rest ↔ x ∈ F.ends c := by
  have hgroup := Pattern.claim?_group hF h
  have hmem : ∀ x, x ∈ (k.claims F p c).inOrder F p ↔ (x ∈ F.ends c ∨ x = c) ∨ x = p := by
    intro x
    rw [Pattern.mem_inOrder hF h, bubbles_claims, List.mem_append, List.mem_append,
      List.mem_singleton, List.mem_singleton]
  have hpair : ((k.claims F p c).inOrder F p).Pairwise fun x y => ¬ F.Below y x := by
    rw [Pattern.inOrder_eq hF h]
    exact hF.preOrder_pairwise.filter _
  have hclaimed := hgroup.nodup
  rw [bubbles_claims, List.nodup_append, List.nodup_append] at hclaimed
  obtain ⟨⟨-, -, hendsc⟩, -, hp⟩ := hclaimed
  obtain ⟨l, hl⟩ := Forest.eq_cons_of_below hpair ((hmem p).2 (.inr rfl)) fun x hx =>
    hgroup.below hF ((Pattern.mem_inOrder hF h).1 hx)
  have hnodup := Forest.nodup_of_not_below hpair
  rw [hl] at hmem hpair hnodup
  obtain ⟨hpl, hlnodup⟩ := List.nodup_cons.1 hnodup
  -- What is left without the top are the internal transfer and the ends.
  have hmeml : ∀ x, x ∈ l ↔ x ∈ F.ends c ∨ x = c := by
    intro x
    constructor
    · intro hx
      refine ((hmem x).1 (List.mem_cons_of_mem p hx)).resolve_right ?_
      rintro rfl
      exact hpl hx
    · intro hx
      refine (List.mem_cons.1 ((hmem x).2 (.inl hx))).resolve_left ?_
      refine hp x ?_ p List.mem_cons_self
      rwa [List.mem_append, List.mem_singleton]
  obtain ⟨rest, rfl⟩ := Forest.eq_cons_of_below (List.pairwise_cons.1 hpair).2
    ((hmeml c).2 (.inr rfl)) fun x hx => by
      rcases (hmeml x).1 hx with hx | rfl
      · exact Forest.below_of_mem_children (Forest.ends_mem_children hx)
      · exact .refl F x
  obtain ⟨hcrest, hrest⟩ := List.nodup_cons.1 hlnodup
  refine ⟨rest, hl, hrest, fun x => ⟨fun hx => ?_, fun hx => ?_⟩⟩
  · refine ((hmeml x).1 (List.mem_cons_of_mem c hx)).resolve_right ?_
    rintro rfl
    exact hcrest hx
  · exact (List.mem_cons.1 ((hmeml x).2 (.inl hx))).resolve_left
      (hendsc x hx c List.mem_cons_self)

/-! ### What a chain builds -/

/-- The ends of a chain may be read in any order, as nothing is taken from an excess message. -/
lemma build_ends (hnodup : (k.claims F p c).bubbles.Nodup) {rest : List BubbleId}
    (hrest : rest.Nodup) (hmem : ∀ x ∈ rest, x ∈ F.ends c) (draft : α) :
    (k.claims F p c).build F rest draft = .ok (match F.first? .jettonNotify c with
      | some n => if n ∈ rest then (k.onNotice draft (F.txOf n)).1 else draft
      | none => draft) := by
  induction rest generalizing draft with
  | nil => cases F.first? .jettonNotify c <;> rfl
  | cons x rest ih =>
    obtain ⟨hx, hrest⟩ := List.nodup_cons.1 hrest
    have ih := ih hrest fun y hy => hmem y (List.mem_cons_of_mem x hy)
    rw [Claims.build_cons]
    rcases Forest.mem_ends.1 (hmem x List.mem_cons_self) with hfirst | hfirst
    · obtain ⟨tx, htx, hop⟩ := Forest.carries_iff.1 (Forest.first?_eq_some hfirst).2
      have hclaimed := k.get?_claims (q := k.notice) (x := x) hnodup
        (by simp [linkEntries, endEntries, hfirst])
      have hok := k.onNotice_ok draft tx hop
      rw [Claims.buildAt_of_get? hclaimed rfl htx]
      cases hbuilt : k.onNotice draft tx with
      | mk draft' failure =>
        rw [hbuilt] at hok
        obtain rfl : failure = none := hok
        show (k.claims F p c).build F rest draft' = _
        have htxOf : F.txOf x = tx := by rw [Forest.txOf, htx]; rfl
        rw [ih, hfirst]
        simp only [hx, if_false, List.mem_cons_self, if_true, htxOf, hbuilt]
    · have hclaimed := k.get?_claims (q := excess) (x := x) hnodup
        (by simp [linkEntries, endEntries, hfirst])
      rw [Claims.buildAt_of_none hclaimed rfl]
      show (k.claims F p c).build F rest draft = _
      rw [ih]
      cases hnotice : F.first? .jettonNotify c with
      | none => rfl
      | some n =>
        have hne : n ≠ x := by
          rintro rfl
          exact absurd (Forest.carries_unique (Forest.first?_eq_some hnotice).2
            (Forest.first?_eq_some hfirst).2) (by decide)
        simp only [List.mem_cons, hne, false_or]

variable [Target α]

/-- The draft after the two upper links, with the failure, if any. -/
def arrived (F : Forest) (p c : BubbleId) : α × Option BuildError :=
  k.onArrival (k.onTop Target.blank (F.txOf p)).1 (F.txOf c)

/-- The draft after the two upper links and a notice, if there is one. -/
def draftedWith (F : Forest) (p c : BubbleId) (notice : Option BubbleId) : α :=
  notice.elim (k.arrived F p c).1 fun n => (k.onNotice (k.arrived F p c).1 (F.txOf n)).1

/-- The draft after all links that are there. -/
def drafted (F : Forest) (p c : BubbleId) : α :=
  k.draftedWith F p c (F.first? .jettonNotify c)

/-- Building stops at the internal transfer, if its builder fails there, or goes through. -/
lemma build_inOrder (hF : F.WellFormed) (htop : k.isTopAt F p = true)
    (hfirst : F.first? .jettonInternalTransfer p = some c) :
    (k.claims F p c).build F ((k.claims F p c).inOrder F p) Target.blank =
      match (k.arrived F p c).2 with
      | none => .ok (k.drafted F p c)
      | some e => .error (c, e) := by
  have hclaim : k.pattern.claim? F p = some (k.claims F p c) := by
    rw [k.claim?_eq hF, if_pos htop, hfirst]; rfl
  have hnodup := (Pattern.claim?_group hF hclaim).nodup
  obtain ⟨rest, hinOrder, hrest, hmem⟩ := k.exists_inOrder hF hclaim
  obtain ⟨tx, htx, htop⟩ := (Option.any_eq_true _ _).1 htop
  obtain ⟨txc, htxc, -⟩ := Forest.carries_iff.1 (Forest.first?_eq_some hfirst).2
  have hclaimed : (k.claims F p c).get? p = some k.pattern :=
    k.get?_claims hnodup (by simp [linkEntries])
  have hclaimedc : (k.claims F p c).get? c = some k.arrival :=
    k.get?_claims hnodup (by simp [linkEntries])
  have hok := k.onTop_ok Target.blank tx htop
  have htxOf : F.txOf p = tx := by rw [Forest.txOf, htx]; rfl
  have htxOfc : F.txOf c = txc := by rw [Forest.txOf, htxc]; rfl
  rw [hinOrder, Claims.build_cons, Claims.buildAt_of_get? hclaimed rfl htx, drafted,
    draftedWith, arrived, htxOf, htxOfc]
  cases hbuilt : k.onTop Target.blank tx with
  | mk draft failure =>
    rw [hbuilt] at hok
    obtain rfl : failure = none := hok
    show (k.claims F p c).build F (c :: rest) draft = _
    rw [Claims.build_cons, Claims.buildAt_of_get? hclaimedc rfl htxc]
    cases harrived : k.onArrival draft txc with
    | mk draft' failure =>
      cases failure with
      | some e => rfl
      | none =>
        show (k.claims F p c).build F rest draft' = _
        rw [k.build_ends hnodup hrest fun x hx => (hmem x).1 hx]
        cases hnotice : F.first? .jettonNotify c with
        | none => rfl
        | some n =>
          have hn : n ∈ rest := (hmem n).2 (Forest.mem_ends.2 (.inl hnotice))
          simp only [hn, if_true, Option.elim_some]

/-! ### What comes of a chain -/

/-- How merging a chain ends: a link is missing, or the builder for the internal transfer fails, or
the chain is drawn together into its top, which then holds what was built. -/
inductive Outcome (F : Forest) (p : BubbleId) : Prop
  | missing (links : k.isTopAt F p = false ∨ F.first? .jettonInternalTransfer p = none)
      (forest : (k.pattern.merge F p).forest = F)
      (merged : (k.pattern.merge F p).merged = false)
      (reported : (k.pattern.merge F p).reported = false)
  | failed (c : BubbleId) (e : BuildError) (top : k.isTopAt F p = true)
      (first : F.first? .jettonInternalTransfer p = some c) (failure : (k.arrived F p c).2 = some e)
      (forest : (k.pattern.merge F p).forest = F)
      (merged : (k.pattern.merge F p).merged = false)
      (reported : (k.pattern.merge F p).reported = true)
  | success (c : BubbleId) (top : k.isTopAt F p = true)
      (first : F.first? .jettonInternalTransfer p = some c) (built : (k.arrived F p c).2 = none)
      (contracts : F.Contracts (k.pattern.merge F p).forest p (F.ends c ++ [c] ++ [p]))
      (payload : ((k.pattern.merge F p).forest.get? p).map Bubble.payload =
        some (Target.payload (k.drafted F p c)))
      (merged : (k.pattern.merge F p).merged = true)
      (reported : (k.pattern.merge F p).reported = false)

theorem outcome (hF : F.WellFormed) (p : BubbleId) : k.Outcome F p := by
  cases Pattern.mergeCase k.pattern F p with
  | notFound hclaim hforest hmerged hreported =>
    refine .missing ?_ hforest hmerged hreported
    rw [k.claim?_eq hF] at hclaim
    cases htop : k.isTopAt F p with
    | false => exact .inl rfl
    | true =>
      rw [htop, if_pos rfl, Option.map_eq_none_iff] at hclaim
      exact .inr hclaim
  | failed claims failure hclaim hrep hforest hmerged hreported =>
    obtain ⟨htop, c, hfirst, rfl⟩ := k.eq_claims hF hclaim
    have hbuild := k.build_inOrder hF htop hfirst
    cases hresult : (k.arrived F p c).2 with
    | some e => exact .failed c e htop hfirst hresult hforest hmerged hreported
    | none =>
      rw [hresult] at hbuild
      rw [Pattern.replacement, hbuild] at hrep
      cases hrep
  | success claims b hclaim hrep hforest hmerged hreported =>
    obtain ⟨htop, c, hfirst, rfl⟩ := k.eq_claims hF hclaim
    have hbuild := k.build_inOrder hF htop hfirst
    have hcon := Pattern.commit_contracts hF hclaim hrep
    have hget : (Pattern.commit F p (k.claims F p c) b).get? p = some b := by
      rw [Pattern.get?_commit hF hclaim, if_pos rfl]
    rw [bubbles_claims, ← hforest] at hcon
    rw [← hforest] at hget
    obtain ⟨draft, hdraft, rfl⟩ := Pattern.replacement_eq_ok hrep
    cases hresult : (k.arrived F p c).2 with
    | some e =>
      rw [hresult, hdraft] at hbuild
      cases hbuild
    | none =>
      rw [hresult, hdraft] at hbuild
      refine .success c htop hfirst hresult hcon ?_ hmerged hreported
      rw [hget, ← Except.ok.inj hbuild]
      rfl

end Chain

/-! ## The chains of the catalog -/

lemma Transaction.exists_body {tx : Transaction} (h : tx.carries op = true) :
    ∃ body, tx.body = some body ∧ body.operation = op := by
  rw [carries, operation?, beq_iff_eq] at h
  exact Option.map_eq_some_iff.1 h

namespace Catalog.JettonTransfer

/-- A transfer begins with a request to the sending wallet. -/
def chain : Chain TraceFold.JettonTransfer where
  name := "jetton transfer"
  arrivalName := "jetton transfer: internal transfer"
  noticeName := "jetton transfer: notify"
  checks := [.hasOperation .jettonTransfer]
  isTop tx := tx.carries .jettonTransfer
  onTop := buildRequest
  onArrival := buildArrival
  onNotice := buildNotice
  checks_eq b tx htx := by simp [Check.hasOperation_eq, htx]
  onTop_ok draft tx h := by
    obtain ⟨body, hbody, hop⟩ := Transaction.exists_body h
    cases body <;> cases hop
    simp [buildRequest, hbody]
  onNotice_ok draft tx h := by
    obtain ⟨body, hbody, hop⟩ := Transaction.exists_body h
    cases body <;> cases hop
    simp [buildNotice, hbody]

lemma isTopAt_eq : chain.isTopAt F id = F.carries .jettonTransfer id := rfl

/-- The jetton master can be told from one of the two wallets. -/
def masterKnown (F : Forest) (p c : BubbleId) : Bool :=
  (F.txOf p).jettonMaster.any (fun master => !master.isZero) || (F.txOf c).jettonMaster.isSome

/-- The builder for the receiving wallet fails where neither wallet tells the master. -/
lemma arrived_ok (htop : chain.isTopAt F p = true) :
    (chain.arrived F p c).2 = none ↔ masterKnown F p c = true := by
  obtain ⟨body, hbody, hop⟩ := Transaction.exists_body (Forest.carries_txOf htop)
  cases body <;> cases hop
  have hmaster : (buildRequest default (F.txOf p)).1.master =
      (F.txOf p).jettonMaster.getD .zero := by
    simp [buildRequest, hbody]; rfl
  rw [masterKnown, Chain.arrived]
  show (buildArrival (buildRequest default (F.txOf p)).1 (F.txOf c)).2 = none ↔ _
  rw [buildArrival]
  simp only [hmaster]
  cases hp : (F.txOf p).jettonMaster with
  | none =>
    have hzero : Address.zero.isZero = true := by decide
    cases hc : (F.txOf c).jettonMaster <;> simp [hzero]
  | some master =>
    cases hzero : master.isZero with
    | true => cases hc : (F.txOf c).jettonMaster <;> simp [hzero]
    | false => simp [hzero]

end Catalog.JettonTransfer

namespace Catalog.JettonMint

/-- A mint begins with an order to the jetton master. -/
def chain : Chain TraceFold.JettonMint where
  name := "jetton mint"
  arrivalName := "jetton mint: internal transfer"
  noticeName := "jetton mint: notify"
  checks := [.either (.hasOpcode poolOpcode) (.hasOpcode masterOpcode)]
  isTop tx := tx.opcode == some poolOpcode || tx.opcode == some masterOpcode
  onTop := buildOrder
  onArrival := buildArrival
  onNotice := buildNotice
  checks_eq b tx htx := by
    obtain ⟨payload, accounts, children, flow⟩ := b
    cases payload <;> cases htx
    simp [Check.either, Check.hasOpcode, Check.onTransaction]
  onTop_ok draft tx _ := rfl
  onNotice_ok draft tx _ := rfl

/-- The builders of a mint do not fail. -/
lemma arrived_ok (h : F.carries .jettonInternalTransfer c = true) :
    (chain.arrived F p c).2 = none := by
  obtain ⟨body, hbody, hop⟩ := Transaction.exists_body (Forest.carries_txOf h)
  cases body <;> cases hop
  show (buildArrival _ (F.txOf c)).2 = none
  rw [buildArrival, hbody]

end Catalog.JettonMint
end TraceFold
