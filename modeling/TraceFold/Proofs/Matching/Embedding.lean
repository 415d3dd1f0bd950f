import Mathlib.Data.List.Induction
import TraceFold.Proofs.Catalog.Chain

/-!
# Embeddings

A pattern has a place in a forest if bubbles can be given to it and to its sub-patterns: different
ones, each of them a child of what the parent pattern got and up to the checks, with nothing
required left out (`Embedding`).  The sub-patterns are told apart by their positions, since the same
one may occur twice.

Whatever an attempt claims is an embedding (`exists_embedding`).  An embedding need not be found,
because the greedy choice is not revised: one child pattern may take the only bubble that another
one accepts.  Where no bubble is accepted by two patterns next to each other (`ExclusiveIn`) this
cannot happen, at whatever depth (`greedy_isSome`), and the chains of the catalog are of this kind.
-/

namespace TraceFold

variable {α : Type} {F : Forest} {p q : Pattern α} {ps : List (Pattern α)}
  {es : List (BubbleId × Pattern α)} {ids taken : List BubbleId} {path : List Nat} {i : Nat}
  {id k x : BubbleId}

/-! ## Bubbles for positions -/

/-- Bubbles for some of the positions in a pattern, a position being the way down to a sub-pattern
through the child patterns. -/
abbrev Assignment := List Nat → Option BubbleId

namespace Assignment

/-- The part of an assignment that belongs to the child pattern at one place. -/
def part (e : Assignment) (i : Nat) : Assignment := fun path => e (i :: path)

/-- A bubble for the pattern, put together with the parts that belong to its child patterns. -/
def graft (id : BubbleId) (parts : Nat → Assignment) : Assignment
  | [] => some id
  | i :: path => parts i path

/-- One more part, before the others. -/
def cons (first : Assignment) (parts : Nat → Assignment) : Nat → Assignment
  | 0 => first
  | i + 1 => parts i

/-- No bubble for any position. -/
def nothing : Assignment := fun _ => none

end Assignment

variable {e : Assignment} {parts : Nat → Assignment}

namespace Pattern

lemma descend?_cons (hi : p.children[i]? = some q) : p.descend? (i :: path) = q.descend? path := by
  rw [descend?, hi, Option.bind_some]

/-- An assignment of bubbles to a pattern and some of its sub-patterns which gives `id` to the
pattern itself. -/
structure Embedding (F : Forest) (p : Pattern α) (id : BubbleId) (e : Assignment) : Prop where
  top : e [] = some id
  distinct : ∀ path path' x, e path = some x → e path' = some x → path = path'
  /-- The parent pattern has got a bubble too, and this is its child. -/
  parent : ∀ path i x, e (path ++ [i]) = some x → ∃ y, e path = some y ∧ x ∈ F.children y
  /-- Below a pattern that has got a bubble, no child pattern that is required goes without. -/
  required : ∀ path i q, (e path).isSome = true → p.descend? (path ++ [i]) = some q →
    q.optional = false → (e (path ++ [i])).isSome = true
  accepted : ∀ path x, e path = some x → ∃ q, p.descend? path = some q ∧ F.accepts q x = true

namespace Embedding

lemma below (h : Embedding F p id e) : ∀ path x, e path = some x → F.Below id x := by
  intro path
  induction path using List.reverseRecOn with
  | nil =>
    intro x hx
    rw [Option.some.inj (h.top.symm.trans hx)]
    exact .refl F x
  | append_singleton path i ih =>
    intro x hx
    obtain ⟨y, hy, hxy⟩ := h.parent path i x hx
    exact (ih y hy).trans (Forest.below_of_mem_children hxy)

/-- What belongs to a child pattern is an embedding of it. -/
lemma part (h : Embedding F p id e) (hi : p.children[i]? = some q) (hk : e [i] = some k) :
    Embedding F q k (e.part i) where
  top := hk
  distinct := fun path path' x hx hx' => (List.cons.inj (h.distinct _ _ x hx hx')).2
  parent := fun path j x hx => h.parent (i :: path) j x hx
  required := fun path j r hsome hr hopt =>
    h.required (i :: path) j r hsome ((descend?_cons hi).trans hr) hopt
  accepted := fun path x hx => by
    obtain ⟨r, hr, hacc⟩ := h.accepted (i :: path) x hx
    exact ⟨r, (descend?_cons hi).symm.trans hr, hacc⟩

end Embedding

/-! ## Embeddings put together -/

/-- What belongs to the child pattern at one place: an embedding of it below one of some siblings,
or nothing, if there is no such pattern or it is optional. -/
inductive PartOf (F : Forest) (siblings : List BubbleId) (at? : Option (Pattern α))
    (e : Assignment) : Prop
  | omitted (optional : ∀ q, at? = some q → q.optional = true) (empty : ∀ path, e path = none)
  | embedded (q : Pattern α) (k : BubbleId) (there : at? = some q) (mem : k ∈ siblings)
      (embedding : Embedding F q k e)

lemma PartOf.exists_embedding {at? : Option (Pattern α)} (h : PartOf F ids at? e)
    (hx : e path = some x) : ∃ q k, at? = some q ∧ k ∈ ids ∧ Embedding F q k e := by
  cases h with
  | omitted _ hempty => rw [hempty] at hx; cases hx
  | embedded q k hq hk hemb => exact ⟨q, k, hq, hk, hemb⟩

/-- Embeddings of the child patterns below different children make up one of the pattern. -/
lemma embedding_graft (hF : F.WellFormed) (hacc : F.accepts p id = true)
    (hparts : ∀ i, PartOf F (F.children id) p.children[i]? (parts i))
    (hdistinct : ∀ i j k, parts i [] = some k → parts j [] = some k → i = j) :
    Embedding F p id (.graft id parts) := by
  have hself : ∀ i path, parts i path ≠ some id := by
    intro i path hid
    obtain ⟨q, k, -, hk, hemb⟩ := (hparts i).exists_embedding hid
    exact hF.not_below_of_mem_children hk (hemb.below path id hid)
  refine ⟨rfl, ?_, ?_, ?_, ?_⟩
  · intro path path' x hx hx'
    match path, path' with
    | [], [] => rfl
    | [], j :: path' =>
      obtain rfl := Option.some.inj hx
      exact absurd hx' (hself j path')
    | i :: path, [] =>
      obtain rfl := Option.some.inj hx'
      exact absurd hx (hself i path)
    | i :: path, j :: path' =>
      obtain ⟨q, k, -, hk, hemb⟩ := (hparts i).exists_embedding hx
      obtain ⟨q', k', -, hk', hemb'⟩ := (hparts j).exists_embedding hx'
      -- Nothing lies below two children at once, so both parts are below the same one.
      obtain rfl := hF.eq_of_below_siblings hk hk' (hemb.below path x hx) (hemb'.below path' x hx')
      obtain rfl := hdistinct i j k hemb.top hemb'.top
      rw [hemb.distinct path path' x hx hx']
  · intro path i x hx
    cases path with
    | nil =>
      obtain ⟨q, k, -, hk, hemb⟩ := (hparts i).exists_embedding hx
      obtain rfl := Option.some.inj (hemb.top.symm.trans hx)
      exact ⟨id, rfl, hk⟩
    | cons j path =>
      obtain ⟨q, k, -, -, hemb⟩ := (hparts j).exists_embedding hx
      exact hemb.parent path i x hx
  · intro path i r hsome hr hopt
    cases path with
    | nil =>
      cases hparts i with
      | omitted hoptional _ =>
        have hi : p.children[i]? = some r := by
          simpa only [List.nil_append, descend?, Option.bind_fun_some] using hr
        rw [hoptional r hi] at hopt
        cases hopt
      | embedded q k _ _ hemb => exact Option.isSome_iff_exists.2 ⟨k, hemb.top⟩
    | cons j path =>
      obtain ⟨x, hx⟩ := Option.isSome_iff_exists.1 hsome
      obtain ⟨q, k, hj, -, hemb⟩ := (hparts j).exists_embedding hx
      exact hemb.required path i r hsome ((descend?_cons hj).symm.trans hr) hopt
  · intro path x hx
    cases path with
    | nil =>
      obtain rfl := Option.some.inj hx
      exact ⟨p, rfl, hacc⟩
    | cons j path =>
      obtain ⟨q, k, hj, -, hemb⟩ := (hparts j).exists_embedding hx
      obtain ⟨r, hr, hacc⟩ := hemb.accepted path x hx
      exact ⟨r, (descend?_cons hj).trans hr, hacc⟩

/-! ## What is taken is embedded -/

/-- What patterns take from some siblings of which a few are taken already, read as a part for each
of them. -/
structure Parts (F : Forest) (ps : List (Pattern α)) (ids taken : List BubbleId)
    (es : List (BubbleId × Pattern α)) (parts : Nat → Assignment) : Prop where
  part : ∀ i, PartOf F ids ps[i]? (parts i)
  fresh : ∀ i k, parts i [] = some k → k ∉ taken
  distinct : ∀ i j k, parts i [] = some k → parts j [] = some k → i = j
  mem_iff : ∀ x q, (x, q) ∈ es ↔
    ∃ i r path, ps[i]? = some r ∧ parts i path = some x ∧ r.descend? path = some q

/-- An embedding that says the same as a list of what is taken. -/
def Embedded (F : Forest) (p : Pattern α) (id : BubbleId) (es : List (BubbleId × Pattern α))
    (e : Assignment) : Prop :=
  Embedding F p id e ∧ ∀ x q, (x, q) ∈ es ↔ ∃ path, e path = some x ∧ p.descend? path = some q

lemma parts_nil : Parts F ([] : List (Pattern α)) ids taken [] fun _ => .nothing where
  part := fun _ => .omitted (fun _ hq => by cases hq) fun _ => rfl
  fresh := fun _ _ hk => by cases hk
  distinct := fun _ _ _ hk => by cases hk
  mem_iff := fun x q => by
    constructor
    · exact fun h => by cases h
    · rintro ⟨i, r, path, hr, -, -⟩
      cases hr

/-- A pattern takes a child, and the others go on without it. -/
lemma Parts.cons_taken {es' : List (BubbleId × Pattern α)} (hid : id ∈ ids) (hfree : id ∉ taken)
    (h : Embedded F p id es e) (h' : Parts F ps ids (id :: taken) es' parts) :
    Parts F (p :: ps) ids taken (es ++ es') (.cons e parts) := by
  obtain ⟨hemb, hmem⟩ := h
  have htop : ∀ k, e [] = some k → k = id := fun k hk =>
    Option.some.inj (hk.symm.trans hemb.top)
  have hapart : ∀ j k, e [] = some k → parts j [] ≠ some k := fun j k hk hj =>
    h'.fresh j k hj (htop k hk ▸ List.mem_cons_self)
  constructor
  · intro i
    cases i with
    | zero => exact .embedded p id rfl hid hemb
    | succ i => exact h'.part i
  · intro i k hk
    cases i with
    | zero => exact htop k hk ▸ hfree
    | succ i => exact fun hmem => h'.fresh i k hk (List.mem_cons_of_mem id hmem)
  · intro i j k hi hj
    match i, j with
    | 0, 0 => rfl
    | 0, j + 1 => exact absurd hj (hapart j k hi)
    | i + 1, 0 => exact absurd hi (hapart i k hj)
    | i + 1, j + 1 => rw [h'.distinct i j k hi hj]
  · intro x q
    rw [List.mem_append, hmem, h'.mem_iff]
    constructor
    · rintro (⟨path, hx, hq⟩ | ⟨i, r, path, hr, hx, hq⟩)
      · exact ⟨0, p, path, rfl, hx, hq⟩
      · exact ⟨i + 1, r, path, hr, hx, hq⟩
    · rintro ⟨i, r, path, hr, hx, hq⟩
      cases i with
      | zero =>
        obtain rfl := Option.some.inj hr
        exact .inl ⟨path, hx, hq⟩
      | succ i => exact .inr ⟨i, r, path, hr, hx, hq⟩

/-- A pattern that is optional takes nothing. -/
lemma Parts.cons_none (hopt : p.optional = true) (h : Parts F ps ids taken es parts) :
    Parts F (p :: ps) ids taken es (.cons .nothing parts) := by
  constructor
  · intro i
    cases i with
    | zero =>
      refine .omitted (fun q hq => ?_) fun _ => rfl
      rw [← Option.some.inj hq]
      exact hopt
    | succ i => exact h.part i
  · intro i k hk
    cases i with
    | zero => cases hk
    | succ i => exact h.fresh i k hk
  · intro i j k hi hj
    match i, j with
    | 0, _ => cases hi
    | _ + 1, 0 => cases hj
    | i + 1, j + 1 => rw [h.distinct i j k hi hj]
  · intro x q
    rw [h.mem_iff]
    constructor
    · rintro ⟨i, r, path, hr, hx, hq⟩
      exact ⟨i + 1, r, path, hr, hx, hq⟩
    · rintro ⟨i, r, path, hr, hx, hq⟩
      cases i with
      | zero => cases hx
      | succ i => exact ⟨i, r, path, hr, hx, hq⟩

lemma exists_parts (ps : List (Pattern α))
    (hps : ∀ q ∈ ps, ∀ id es, q.greedy F id = some es → ∃ e, Embedded F q id es e) :
    ∀ (taken : List BubbleId) (es : List (BubbleId × Pattern α)),
      greedyChildren F ps ids taken = some es → ∃ parts, Parts F ps ids taken es parts := by
  induction ps with
  | nil =>
    intro taken es h
    rw [greedyChildren] at h
    obtain rfl := Option.some.inj h
    exact ⟨_, parts_nil⟩
  | cons p ps ih =>
    intro taken es h
    have ih := ih fun q hq => hps q (List.mem_cons_of_mem p hq)
    rw [greedyChildren] at h
    split at h
    · rename_i id es₁ hfirst
      obtain ⟨es₂, hes₂, rfl⟩ := Option.map_eq_some_iff.1 h
      obtain ⟨hid, hfree, hes₁⟩ := firstFree_eq_some hfirst
      obtain ⟨e, he⟩ := hps p List.mem_cons_self id es₁ hes₁
      obtain ⟨parts, hparts⟩ := ih _ es₂ hes₂
      exact ⟨_, hparts.cons_taken hid hfree he⟩
    · split at h
      · rename_i hopt
        obtain ⟨parts, hparts⟩ := ih taken es h
        exact ⟨_, hparts.cons_none hopt⟩
      · cases h

lemma accepts_iff : F.accepts p id = true ↔ ∃ b, F.get? id = some b ∧ p.accepts b = true := by
  rw [Forest.accepts, Option.any_eq_true]

/-- What a pattern takes, it takes by an embedding. -/
theorem exists_embedding (hF : F.WellFormed) (h : p.greedy F id = some es) :
    ∃ e, Embedded F p id es e := by
  induction p using children_induction generalizing id es with
  | step p ih =>
    obtain ⟨b, es', hb, hacc, hes', rfl⟩ := greedy_eq_some_iff.1 h
    rw [← Forest.children_eq hb] at hes'
    obtain ⟨parts, hparts⟩ :=
      exists_parts p.children (fun q hq id es hes => ih q hq hes) [] es' hes'
    refine ⟨_, embedding_graft hF (accepts_iff.2 ⟨b, hb, hacc⟩) hparts.part hparts.distinct, ?_⟩
    intro x q
    rw [List.mem_append, List.mem_singleton, hparts.mem_iff]
    constructor
    · rintro (⟨i, r, path, hr, hx, hq⟩ | htop)
      · exact ⟨i :: path, hx, (descend?_cons hr).trans hq⟩
      · obtain ⟨rfl, rfl⟩ := Prod.mk.inj htop
        exact ⟨[], rfl, rfl⟩
    · rintro ⟨path, hx, hq⟩
      cases path with
      | nil => exact .inr (Prod.ext (Option.some.inj hx).symm (Option.some.inj hq).symm)
      | cons i path =>
        obtain ⟨r, -, hr, -, -⟩ := (hparts.part i).exists_embedding hx
        exact .inl ⟨i, r, path, hr, hx, (descend?_cons hr).symm.trans hq⟩

/-! ## What is embedded is found -/

/-- No bubble of the forest is accepted by two child patterns of one pattern. -/
def ExclusiveIn (F : Forest) (p : Pattern α) : Prop :=
  ∀ q, p.Sub q →
    q.children.Pairwise fun r r' => ∀ x, F.accepts r x = true → F.accepts r' x = false

lemma firstFree_isSome {β : Type} {choice : BubbleId → Option β} (hk : k ∈ ids)
    (hfree : k ∉ taken) (h : (choice k).isSome = true) :
    (firstFree choice taken ids).isSome = true := by
  have hfind : (ids.find? fun x => decide (x ∉ taken) && (choice x).isSome).isSome = true :=
    List.find?_isSome.2 ⟨k, hk, by rw [decide_eq_true hfree, h]; rfl⟩
  obtain ⟨x, hx⟩ := Option.isSome_iff_exists.1 hfind
  have hchoice := (Bool.and_eq_true _ _ ▸ List.find?_some hx).2
  rwa [firstFree_eq, hx, Option.bind_some, Option.isSome_map]

lemma accepts_of_greedy (h : p.greedy F id = some es) : F.accepts p id = true := by
  obtain ⟨b, -, hb, hacc, -⟩ := greedy_eq_some_iff.1 h
  exact accepts_iff.2 ⟨b, hb, hacc⟩

/-- If every pattern that is required has a child left to take, and none of the patterns accepts
what another one accepts, all that are required find one. -/
lemma greedyChildren_isSome
    (hps : ps.Pairwise fun r r' => ∀ x, F.accepts r x = true → F.accepts r' x = false)
    (hleft : ∀ r ∈ ps, r.optional = false →
      ∃ k ∈ ids, k ∉ taken ∧ (r.greedy F k).isSome = true) :
    (greedyChildren F ps ids taken).isSome = true := by
  induction ps generalizing taken with
  | nil => rw [greedyChildren]; rfl
  | cons p ps ih =>
    obtain ⟨hp, hps⟩ := List.pairwise_cons.1 hps
    have hleft' := fun r hr => hleft r (List.mem_cons_of_mem p hr)
    rw [greedyChildren]
    split
    · rename_i id es hfirst
      obtain ⟨-, -, hes⟩ := firstFree_eq_some hfirst
      rw [Option.isSome_map]
      refine ih hps fun r hr hopt => ?_
      obtain ⟨k, hk, hfree, hfound⟩ := hleft' r hr hopt
      refine ⟨k, hk, ?_, hfound⟩
      -- What `p` has taken is nothing that `r` accepts.
      rw [List.mem_cons, not_or]
      refine ⟨?_, hfree⟩
      rintro rfl
      obtain ⟨es', hes'⟩ := Option.isSome_iff_exists.1 hfound
      have hno := hp r hr k (accepts_of_greedy hes)
      rw [accepts_of_greedy hes'] at hno
      cases hno
    · rename_i hnone
      cases hopt : p.optional with
      | true => exact ih hps hleft'
      | false =>
        obtain ⟨k, hk, hfree, hfound⟩ := hleft p List.mem_cons_self hopt
        have hsome := firstFree_isSome hk hfree hfound
        rw [hnone] at hsome
        cases hsome

/-- Where siblings exclude each other, whatever can be embedded is found. -/
theorem greedy_isSome (hp : p.ExclusiveIn F) (h : Embedding F p id e) :
    (p.greedy F id).isSome = true := by
  induction p using children_induction generalizing id e with
  | step p ih =>
    obtain ⟨hexclusive, hchildren⟩ := forall_sub_iff.1 hp
    obtain ⟨q, hq, hacc⟩ := h.accepted [] id h.top
    obtain rfl := Option.some.inj hq
    obtain ⟨b, hb, hacc⟩ := accepts_iff.1 hacc
    rw [greedy_of_get? hb, if_pos hacc, Option.isSome_map, ← Forest.children_eq hb]
    refine greedyChildren_isSome hexclusive fun r hr hopt => ?_
    obtain ⟨i, hi⟩ := List.getElem?_of_mem hr
    have hsome := h.required [] i r (by rw [h.top]; rfl) (descend?_cons hi) hopt
    obtain ⟨k, hk⟩ := Option.isSome_iff_exists.1 hsome
    obtain ⟨y, hy, hky⟩ := h.parent [] i k hk
    obtain rfl := Option.some.inj (h.top.symm.trans hy)
    exact ⟨k, hky, List.not_mem_nil, ih r hr (hchildren r hr) (h.part hi hk)⟩

end Pattern

/-! ## Chains -/

/-- A notice is no excess message, and nowhere else is there a choice. -/
lemma Chain.pattern_exclusive (k : Chain α) (F : Forest) : k.pattern.ExclusiveIn F := by
  have hleaf : ∀ q : Pattern α, q.children = [] → q.ExclusiveIn F := by
    intro q hq
    refine Pattern.forall_sub_iff.2 ⟨?_, ?_⟩ <;> rw [hq]
    · exact .nil
    · exact fun r hr => by cases hr
  refine Pattern.forall_sub_iff.2 ⟨List.pairwise_singleton _ _, fun r hr => ?_⟩
  obtain rfl := List.mem_singleton.1 hr
  refine Pattern.forall_sub_iff.2 ⟨List.pairwise_pair.2 fun x hnotice => ?_, fun r hr => ?_⟩
  · rw [k.accepts_notice] at hnotice
    rw [Chain.accepts_excess, Bool.eq_false_iff]
    exact fun hexcess => absurd (Forest.carries_unique hnotice hexcess) (by decide)
  · rcases List.mem_pair.1 hr with rfl | rfl
    · exact hleaf _ rfl
    · exact hleaf _ rfl

namespace Pattern

open Catalog

/-- In a well-formed forest, if no bubble is accepted by two patterns next to each other, an attempt
succeeds just where the pattern can be embedded.  Mints and transfers are such patterns.  The claims
of any pattern at all, if it makes any, are an embedding. -/
theorem embeddings_found (hF : F.WellFormed) (p : Pattern α) (id : BubbleId) :
    (p.ExclusiveIn F → ((p.claim? F id).isSome = true ↔ ∃ e, Embedding F p id e)) ∧
    (∀ c, p.claim? F id = some c → ∃ e, Embedding F p id e ∧ ∀ x q,
      c.get? x = some q ↔ ∃ path, e path = some x ∧ p.descend? path = some q) ∧
    ∀ G : Forest, JettonMint.pattern.ExclusiveIn G ∧ JettonTransfer.pattern.ExclusiveIn G := by
  have hfound : ∀ c, p.claim? F id = some c → ∃ e, Embedding F p id e ∧ ∀ x q,
      c.get? x = some q ↔ ∃ path, e path = some x ∧ p.descend? path = some q := by
    intro c hc
    have hgroup := claim?_group hF hc
    rw [claim?_eq_greedy hF] at hc
    obtain ⟨es, hes, rfl⟩ := Option.map_eq_some_iff.1 hc
    obtain ⟨e, hemb, hmem⟩ := exists_embedding hF hes
    exact ⟨e, hemb, fun x q => (Claims.get?_eq_some_iff hgroup.nodup).trans (hmem x q)⟩
  refine ⟨fun hp => ⟨fun h => ?_, fun ⟨e, he⟩ => ?_⟩, hfound, fun G => ?_⟩
  · obtain ⟨c, hc⟩ := Option.isSome_iff_exists.1 h
    obtain ⟨e, he, -⟩ := hfound c hc
    exact ⟨e, he⟩
  · rw [claim?_eq_greedy hF, Option.isSome_map]
    exact greedy_isSome hp he
  · exact ⟨JettonMint.chain.pattern_exclusive G, JettonTransfer.chain.pattern_exclusive G⟩

end Pattern

/-- A mint with an excess message but without a notice. -/
def Forest.unnoticedMint : Forest where
  slots := #[
    some { Bubble.ofTransaction { (default : Transaction) with
        opcode := some Catalog.JettonMint.masterOpcode } with children := [1] },
    some { Bubble.ofTransaction { (default : Transaction) with
        body := some (.jettonInternalTransfer default) } with children := [2] },
    some (Bubble.ofTransaction { (default : Transaction) with body := some (.excess 0) })]
  roots := [0]

open Forest Pattern Catalog in
/-- It can be embedded, although the pattern has a position for the notice. -/
theorem Pattern.embeddings_found_unnoticed : unnoticedMint.WellFormed ∧
    JettonMint.pattern.ExclusiveIn unnoticedMint ∧
    (JettonMint.pattern.claim? unnoticedMint 0).isSome = true ∧
    ∃ e, Embedding unnoticedMint JettonMint.pattern 0 e := by
  have hF : unnoticedMint.WellFormed := by decide
  have hclaim : (JettonMint.pattern.claim? unnoticedMint 0).isSome = true := by decide
  obtain ⟨hiff, -, hcatalog⟩ := embeddings_found hF JettonMint.pattern 0
  have hexclusive := (hcatalog unnoticedMint).1
  exact ⟨hF, hexclusive, hclaim, (hiff hexclusive).1 hclaim⟩

end TraceFold
