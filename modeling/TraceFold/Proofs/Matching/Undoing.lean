import TraceFold.Proofs.Matching.Agreement

/-!
# Undoing an attempt

Whoever tries a pattern takes a mark, and goes back to it if the pattern does not fit.  This gives
back what was claimed before, the list and the map, since an attempt only adds claims and keeps the
two in step (`fit_extends`).  Neither needs a well-formed forest.

What could spoil it is a bubble that is claimed twice: going back over the second claim would
erase the first one from the map.  To say that this never happens on the way, in the candidates
that fail no less than in those that fit, `fitNoted` tries a pattern as `fit` does and notes every
move that it makes on the claims.  The moves can all be made again by someone who refuses to claim
a claimed bubble, and lead to the same claims (`fitNoted_traced`).
-/

namespace TraceFold

variable {α : Type} {F : Forest} {a : Attempt α} {c c' : Claims α} {p q : Pattern α} {b : Bubble}
  {id x : BubbleId}

/-! ## Moves on claims -/

/-- What is done to claims during an attempt. -/
inductive Claims.Move (α : Type) where
  | insert (id : BubbleId) (p : Pattern α)
  | rollback (mark : Nat)

variable {moves before after : List (Claims.Move α)}

namespace Claims

/-- The claims after a move; to claim a claimed bubble is refused. -/
def move? (c : Claims α) : Move α → Option (Claims α)
  | .insert id p => if c.contains id then none else some (c.insert id p)
  | .rollback mark => some (c.rollback mark)

/-- The claims after some moves, if none is refused. -/
def replay? (c : Claims α) (moves : List (Move α)) : Option (Claims α) :=
  moves.foldlM move? c

lemma replay?_cons (c : Claims α) (m : Move α) (moves : List (Move α)) :
    c.replay? (m :: moves) = (c.move? m).bind fun c' => c'.replay? moves :=
  List.foldlM_cons

lemma replay?_append (c : Claims α) (moves moves' : List (Move α)) :
    c.replay? (moves ++ moves') = (c.replay? moves).bind fun c' => c'.replay? moves' :=
  List.foldlM_append

lemma move?_insert_eq_some : c.move? (.insert id p) = some c' ↔
    c.contains id = false ∧ c.insert id p = c' := by
  rw [move?]
  cases c.contains id <;> simp

lemma InStep.move? {m : Move α} (hc : c.InStep) (h : c.move? m = some c') : c'.InStep := by
  cases m with
  | insert id p =>
    obtain ⟨hid, rfl⟩ := move?_insert_eq_some.1 h
    exact hc.insert (hc.not_mem_bubbles hid)
  | rollback mark =>
    cases h
    exact hc.rollback mark

lemma InStep.replay? (hc : c.InStep) (h : c.replay? moves = some c') : c'.InStep := by
  induction moves generalizing c with
  | nil => cases h; exact hc
  | cons m moves ih =>
    rw [replay?_cons] at h
    obtain ⟨d, hd, hrest⟩ := Option.bind_eq_some_iff.1 h
    exact ih (hc.move? hd) hrest

/-- Where moves can be replayed, a bubble is not claimed when the moves come to claim it. -/
lemma exists_fresh_of_replay? (h : c.replay? (before ++ .insert x q :: after) = some c') :
    ∃ d, c.replay? before = some d ∧ d.contains x = false := by
  rw [replay?_append] at h
  obtain ⟨d, hd, hrest⟩ := Option.bind_eq_some_iff.1 h
  rw [replay?_cons] at hrest
  obtain ⟨e, hmove, -⟩ := Option.bind_eq_some_iff.1 hrest
  exact ⟨d, hd, (move?_insert_eq_some.1 hmove).1⟩

end Claims

/-! ## Attempts with their moves noted -/

/-- What came of an attempt, and the moves that were made on the claims. -/
structure Attempt.Noted (α : Type) where
  moves : List (Claims.Move α)
  outcome : Bool × Attempt α

namespace Attempt

/-- Claim a bubble as `finish` does. -/
def finishNoted (a : Attempt α) (id : BubbleId) (p : Pattern α) : Noted α :=
  if a.claims.contains id then ⟨[], false, { a with lost := a.lost ++ [(p.name, id)] }⟩
  else ⟨[.insert id p], true, { a with claims := a.claims.insert id p }⟩

/-- Try candidates as `firstFitting` does. -/
def firstFittingNoted (fits : BubbleId → Attempt α → Noted α) :
    List BubbleId → Attempt α → Noted α
  | [], a => ⟨[], false, a⟩
  | id :: ids, a =>
    let tried := fits id a
    if tried.outcome.1 then tried
    else
      let rest := firstFittingNoted fits ids (tried.outcome.2.rollback a.claims.mark)
      ⟨tried.moves ++ .rollback a.claims.mark :: rest.moves, rest.outcome⟩

end Attempt

namespace Pattern

mutual

/-- Fit a pattern to a bubble, as `fit` does, and note the moves on the claims. -/
def fitNoted (F : Forest) : Pattern α → BubbleId → Attempt α → Attempt.Noted α
  | ⟨name, checks, builder, children, optional⟩, id, a =>
    match F.get? id with
    | none => ⟨[], false, a⟩
    | some b =>
      if checks.all fun check => check b then
        let below := fitChildrenNoted F children b.children a
        if below.outcome.1 then
          let last := below.outcome.2.finishNoted id ⟨name, checks, builder, children, optional⟩
          ⟨below.moves ++ last.moves, last.outcome⟩
        else ⟨below.moves, false, below.outcome.2⟩
      else ⟨[], false, a⟩

/-- Fit every child pattern to some child, as `fitChildren` does. -/
def fitChildrenNoted (F : Forest) :
    List (Pattern α) → List BubbleId → Attempt α → Attempt.Noted α
  | [], _, a => ⟨[], true, a⟩
  | p :: ps, ids, a =>
    let tried := a.firstFittingNoted (fitNoted F p) ids
    if tried.outcome.1 || p.optional then
      let rest := fitChildrenNoted F ps ids tried.outcome.2
      ⟨tried.moves ++ rest.moves, rest.outcome⟩
    else ⟨tried.moves, false, tried.outcome.2⟩

end

end Pattern

/-- A noted attempt that began at `a` comes to the same as the plain one, and the moves that it
noted lead from the claims of the one to those of the other. -/
structure Attempt.Traced (a : Attempt α) (noted : Noted α) (plain : Bool × Attempt α) :
    Prop where
  same : noted.outcome = plain
  replay : a.claims.replay? noted.moves = some plain.2.claims

namespace Attempt

lemma finish_fits (h : (a.finish id p).1 = true) :
    a.claims.contains id = false ∧ (a.finish id p).2.claims = a.claims.insert id p := by
  rw [finish] at h ⊢
  split at h
  · cases h
  · rename_i hid
    exact ⟨by simpa using hid, by rw [if_neg hid]⟩

lemma finishNoted_traced (a : Attempt α) (id : BubbleId) (p : Pattern α) :
    a.Traced (a.finishNoted id p) (a.finish id p) := by
  rw [finishNoted, finish]
  split
  · exact ⟨rfl, rfl⟩
  · rename_i hid
    refine ⟨rfl, ?_⟩
    rw [Claims.replay?_cons, Claims.move?, if_neg hid]
    rfl

/-- Between a candidate that failed and the next one the claims go back to where they were. -/
lemma firstFittingNoted_traced {fits : BubbleId → Attempt α → Bool × Attempt α}
    {fitsNoted : BubbleId → Attempt α → Noted α}
    (h : ∀ id a, Traced a (fitsNoted id a) (fits id a)) :
    ∀ (ids : List BubbleId) (a : Attempt α),
      a.Traced (a.firstFittingNoted fitsNoted ids) (a.firstFitting fits ids)
  | [], _ => ⟨rfl, rfl⟩
  | id :: ids, a => by
    obtain ⟨hsame, hreplay⟩ := h id a
    rw [firstFittingNoted]
    simp only [hsame]
    cases hfound : (fits id a).1 with
    | true =>
      rw [firstFitting_of_fits hfound, if_pos rfl]
      exact ⟨hsame.trans (Prod.ext hfound rfl), hreplay⟩
    | false =>
      have hrest := firstFittingNoted_traced h ids ((fits id a).2.rollback a.claims.mark)
      rw [firstFitting_of_not hfound, if_neg Bool.false_ne_true]
      refine ⟨hrest.same, ?_⟩
      rw [Claims.replay?_append, hreplay, Option.bind_some, Claims.replay?_cons]
      exact hrest.replay

end Attempt

namespace Pattern

lemma fitChildrenNoted_traced :
    ∀ (ps : List (Pattern α)) (ids : List BubbleId) (a : Attempt α),
      (∀ q ∈ ps, ∀ id (a : Attempt α), a.Traced (q.fitNoted F id a) (q.fit F id a)) →
      a.Traced (fitChildrenNoted F ps ids a) (fitChildren F ps ids a)
  | [], _, a, _ => by
    rw [fitChildrenNoted, fitChildren]
    exact ⟨rfl, rfl⟩
  | p :: ps, ids, a, hps => by
    obtain ⟨hsame, hreplay⟩ :=
      Attempt.firstFittingNoted_traced (hps p List.mem_cons_self) ids a
    have hrest := fitChildrenNoted_traced ps ids (a.firstFitting (p.fit F) ids).2
      fun q hq => hps q (List.mem_cons_of_mem p hq)
    rw [fitChildrenNoted, fitChildren_cons]
    simp only [hsame]
    split
    · refine ⟨hrest.same, ?_⟩
      rw [Claims.replay?_append, hreplay]
      exact hrest.replay
    · exact ⟨rfl, hreplay⟩

lemma fitNoted_of_gone (hb : F.get? id = none) : p.fitNoted F id a = ⟨[], false, a⟩ := by
  cases p
  rw [fitNoted, hb]

lemma fitNoted_of_get? (hb : F.get? id = some b) : p.fitNoted F id a =
    let below := fitChildrenNoted F p.children b.children a
    let last := below.outcome.2.finishNoted id p
    if p.accepts b then
      if below.outcome.1 then ⟨below.moves ++ last.moves, last.outcome⟩
      else ⟨below.moves, false, below.outcome.2⟩
    else ⟨[], false, a⟩ := by
  cases p
  rw [fitNoted, hb]
  rfl

/-- Noting the moves changes nothing, and they lead from the claims before to those afterwards
without ever claiming a claimed bubble. -/
theorem fitNoted_traced (p : Pattern α) (F : Forest) (id : BubbleId) (a : Attempt α) :
    a.Traced (p.fitNoted F id a) (p.fit F id a) := by
  induction p using children_induction generalizing id a with
  | step p ih =>
    cases hb : F.get? id with
    | none =>
      rw [fitNoted_of_gone hb, fit_of_gone hb]
      exact ⟨rfl, rfl⟩
    | some b =>
      obtain ⟨hsame, hreplay⟩ := fitChildrenNoted_traced (F := F) p.children b.children a
        fun q hq id a => ih q hq id a
      have hlast := Attempt.finishNoted_traced (fitChildren F p.children b.children a).2 id p
      rw [fitNoted_of_get? hb, fit_of_get? hb]
      simp only [hsame]
      split
      · split
        · refine ⟨hlast.same, ?_⟩
          rw [Claims.replay?_append, hreplay]
          exact hlast.replay
        · exact ⟨rfl, hreplay⟩
      · exact ⟨rfl, rfl⟩

/-! ## What an attempt leaves behind -/

/-- An attempt that fits ends by claiming its own bubble. -/
lemma fit_claims_eq_insert (hc : a.claims.InStep) (h : (p.fit F id a).1 = true) :
    ∃ c, a.claims.Extends c ∧ id ∉ c.bubbles ∧ (p.fit F id a).2.claims = c.insert id p := by
  cases hb : F.get? id with
  | none => rw [fit_of_gone hb] at h; cases h
  | some b =>
    have hext := fitChildren_extends (F := F) p.children b.children a hc
      fun q _ id a => fit_extends q F id a
    rw [fit_of_get? hb] at h ⊢
    cases hacc : p.accepts b with
    | false => simp [hacc] at h
    | true =>
      cases hfound : (fitChildren F p.children b.children a).1 with
      | false => simp [hacc, hfound] at h
      | true =>
        simp only [hacc, hfound, if_true] at h ⊢
        obtain ⟨hfresh, hclaims⟩ := Attempt.finish_fits h
        exact ⟨_, hext, hext.inStep.not_mem_bubbles hfresh, hclaims⟩

/-- An attempt in any forest that begins with claims in step, the list without repetition and the
map with just the listed bubbles as keys, keeps them in step.  If it fits, it has added bubbles to
the list that were not there, its own last, and no old entry of the map has changed.  Whether it
fits or not, going back to the mark that was taken before gives the claims as they were, the list
and the map.  And whenever a bubble is claimed on the way, it is not claimed at that moment. -/
theorem claims_undoable (p : Pattern α) (F : Forest) (id : BubbleId) (a : Attempt α)
    (hc : a.claims.InStep) :
    (p.fit F id a).2.claims.InStep ∧
    ((p.fit F id a).1 = true → ∃ new,
      (p.fit F id a).2.claims.bubbles = a.claims.bubbles ++ new ++ [id] ∧
      (∀ x ∈ new ++ [id], x ∉ a.claims.bubbles) ∧
      (∀ x q, a.claims.get? x = some q → (p.fit F id a).2.claims.get? x = some q) ∧
      (p.fit F id a).2.claims.get? id = some p) ∧
    (p.fit F id a).2.claims.rollback a.claims.mark = a.claims ∧
    (p.fitNoted F id a).outcome = p.fit F id a ∧
    a.claims.replay? (p.fitNoted F id a).moves = some (p.fit F id a).2.claims ∧
    ∀ before x q after, (p.fitNoted F id a).moves = before ++ .insert x q :: after →
      ∃ c, a.claims.replay? before = some c ∧ c.InStep ∧ x ∉ c.bubbles ∧ c.get? x = none := by
  have hext := fit_extends p F id a hc
  obtain ⟨hsame, hreplay⟩ := fitNoted_traced p F id a
  refine ⟨hext.inStep, fun h => ?_, hext.rollback_eq hc, hsame, hreplay, ?_⟩
  · obtain ⟨c, hgrown, hid, hclaims⟩ := fit_claims_eq_insert hc h
    obtain ⟨new, hnew⟩ := hgrown.order
    have hapart : a.claims.bubbles.Disjoint new :=
      List.disjoint_of_nodup_append (hnew ▸ hgrown.inStep.nodup)
    refine ⟨new, ?_, fun x hx hold => ?_, hext.kept, ?_⟩
    · rw [hclaims, hnew]
      rfl
    · rcases List.mem_append.1 hx with hx | hx
      · exact hapart hold hx
      · rw [List.mem_singleton.1 hx] at hold
        exact hid (hgrown.order.subset hold)
    · rw [hclaims, Claims.get?_insert, if_pos rfl]
  · intro before x q after hmoves
    rw [hmoves] at hreplay
    obtain ⟨c, hbefore, hfresh⟩ := Claims.exists_fresh_of_replay? hreplay
    have hin := hc.replay? hbefore
    have hx := hin.not_mem_bubbles hfresh
    exact ⟨c, hbefore, hin, hx, hin.get?_eq_none hx⟩

end Pattern

/-- A bubble that is its own child, and beside it another one. -/
def Forest.looped : Forest where
  slots := #[some { (default : Bubble) with children := [0, 1] }, some default]
  roots := [0]

/-- Any bubble with a child. -/
def Pattern.anyParent : Pattern Unit :=
  ⟨"parent", [], none, [⟨"child", [], none, [], false⟩], false⟩

/-- The bubble 1 is claimed from before. -/
def Attempt.begun : Attempt Unit := ⟨Claims.empty.insert 1 Pattern.anyParent, []⟩

open Forest Pattern Attempt in
/-- The bubble is first claimed as its own child, then refused as the parent, and given up. -/
theorem Pattern.claims_undoable_looped : ¬ looped.WellFormed ∧ begun.claims.InStep ∧
    (anyParent.fit looped 0 begun).1 = false ∧
    (anyParent.fit looped 0 begun).2.claims.bubbles = [1, 0] ∧
    (anyParent.fit looped 0 begun).2.claims.rollback begun.claims.mark = begun.claims := by
  have hc : begun.claims.InStep := Claims.inStep_empty.insert List.not_mem_nil
  exact ⟨by decide, hc, by decide, by decide, (claims_undoable anyParent looped 0 begun hc).2.2.1⟩

end TraceFold
