import TraceFold.Proofs.Matching.Claims
import TraceFold.Proofs.Matching.Greedy

/-!
# Matching makes the greedy choice

An attempt only ever adds to its claims (`fit_extends`), so going back to a mark restores what
was there (`fit_rollback`).  From this and the invariant `Settled` it follows that an attempt
from a place below which nothing is claimed adds exactly the greedy choice (`fit_yields`), and
that a whole attempt, which begins without claims, ends with it (`claim?_eq_greedy`).
-/

namespace TraceFold

variable {α : Type} {F : Forest} {a a' : Attempt α} {c : Claims α} {p q : Pattern α}
  {ps : List (Pattern α)} {b : Bubble} {es : List (BubbleId × Pattern α)}
  {ids taken : List BubbleId} {id k x : BubbleId}

/-! ## An attempt only adds claims -/

namespace Attempt

lemma finish_extends (hc : a.claims.InStep) (id : BubbleId) (p : Pattern α) :
    a.claims.Extends (a.finish id p).2.claims := by
  rw [finish]
  split
  · exact .refl hc
  · rename_i hid
    exact (Claims.Extends.refl hc).insert (hc.not_mem_bubbles (by simpa using hid))

lemma firstFitting_of_fits {fits : BubbleId → Attempt α → Bool × Attempt α}
    (h : (fits id a).1 = true) : a.firstFitting fits (id :: ids) = (true, (fits id a).2) := by
  rw [firstFitting]
  simp only [h, if_true]

lemma firstFitting_of_not {fits : BubbleId → Attempt α → Bool × Attempt α}
    (h : (fits id a).1 = false) : a.firstFitting fits (id :: ids) =
      ((fits id a).2.rollback a.claims.mark).firstFitting fits ids := by
  rw [firstFitting]
  simp only [h, Bool.false_eq_true, if_false]

lemma firstFitting_extends {fits : BubbleId → Attempt α → Bool × Attempt α}
    (hfits : ∀ id (a : Attempt α), a.claims.InStep → a.claims.Extends (fits id a).2.claims) :
    ∀ (ids : List BubbleId) (a : Attempt α), a.claims.InStep →
      a.claims.Extends (firstFitting fits ids a).2.claims
  | [], _, hc => .refl hc
  | id :: ids, a, hc => by
    cases hfound : (fits id a).1 with
    | true => rw [firstFitting_of_fits hfound]; exact hfits id a hc
    | false =>
      have hroll : ((fits id a).2.rollback a.claims.mark).claims = a.claims :=
        (hfits id a hc).rollback_eq hc
      have h := firstFitting_extends hfits ids ((fits id a).2.rollback a.claims.mark)
        (by rwa [hroll])
      rw [hroll] at h
      rw [firstFitting_of_not hfound]
      exact h

end Attempt

namespace Pattern

lemma fitChildren_cons : fitChildren F (p :: ps) ids a =
    if (a.firstFitting (p.fit F) ids).1 || p.optional then
      fitChildren F ps ids (a.firstFitting (p.fit F) ids).2
    else (false, (a.firstFitting (p.fit F) ids).2) := by
  rw [fitChildren]

lemma fitChildren_extends :
    ∀ (ps : List (Pattern α)) (ids : List BubbleId) (a : Attempt α), a.claims.InStep →
      (∀ q ∈ ps, ∀ id (a : Attempt α), a.claims.InStep → a.claims.Extends (q.fit F id a).2.claims) →
      a.claims.Extends (fitChildren F ps ids a).2.claims
  | [], _, a, hc, _ => by rw [fitChildren]; exact .refl hc
  | p :: ps, ids, a, hc, hps => by
    rw [fitChildren_cons]
    have h := Attempt.firstFitting_extends (hps p List.mem_cons_self) ids a hc
    split
    · exact h.trans (fitChildren_extends ps ids _ h.inStep fun q hq =>
        hps q (List.mem_cons_of_mem p hq))
    · exact h

lemma fit_of_gone (hb : F.get? id = none) : p.fit F id a = (false, a) := by
  cases p
  rw [fit, hb]

lemma fit_of_get? (hb : F.get? id = some b) : p.fit F id a =
    if p.accepts b then
      if (fitChildren F p.children b.children a).1 then
        (fitChildren F p.children b.children a).2.finish id p
      else (false, (fitChildren F p.children b.children a).2)
    else (false, a) := by
  cases p
  rw [fit, hb]
  rfl

/-- An attempt that begins with claims in step, in any forest, only adds to them. -/
theorem fit_extends (p : Pattern α) (F : Forest) (id : BubbleId) (a : Attempt α)
    (hc : a.claims.InStep) : a.claims.Extends (p.fit F id a).2.claims := by
  induction p using children_induction generalizing id a with
  | step p ih =>
    cases hb : F.get? id with
    | none => rw [fit_of_gone hb]; exact .refl hc
    | some b =>
      have h := fitChildren_extends (F := F) p.children b.children a hc
        fun q hq id a hc => ih q hq id a hc
      rw [fit_of_get? hb]
      split
      · split
        · exact h.trans (Attempt.finish_extends h.inStep id p)
        · exact h
      · exact .refl hc

/-- Going back to the mark that was taken before an attempt undoes what it claimed. -/
lemma fit_rollback (p : Pattern α) (F : Forest) (id : BubbleId) (a : Attempt α)
    (hc : a.claims.InStep) : ((p.fit F id a).2.rollback a.claims.mark).claims = a.claims :=
  (fit_extends p F id a hc).rollback_eq hc

/-- The claims of a whole attempt are in step. -/
lemma inStep_of_claim? (h : p.claim? F id = some c) : c.InStep := by
  have hin := (fit_extends p F id .start Claims.inStep_empty).inStep
  rw [claim?, attempt] at h
  cases hfound : (p.fit F id .start).1 with
  | false => simp [hfound] at h
  | true =>
    simp only [hfound, if_true, Option.some.injEq] at h
    rwa [← h]

/-! ## What an attempt adds -/

/-- An attempt that started from `a` came out as a choice says: if there is one, it succeeded and
added the choice to the claims; if there is none, it failed. -/
def Yields (a : Attempt α) (choice : Option (List (BubbleId × Pattern α)))
    (result : Bool × Attempt α) : Prop :=
  match choice with
  | some es => result.1 = true ∧ result.2.claims = a.claims.insertAll es
  | none => result.1 = false

lemma Yields.of_claims_eq {choice : Option (List (BubbleId × Pattern α))}
    {result : Bool × Attempt α} (h : Yields a' choice result) (hclaims : a'.claims = a.claims) :
    Yields a choice result := by
  cases choice with
  | none => exact h
  | some es => exact ⟨h.1, h.2.trans (by rw [hclaims])⟩

/-- Every bubble that was taken is claimed, and below the others nothing is. -/
def Settled (F : Forest) (c : Claims α) (ids taken : List BubbleId) : Prop :=
  ∀ k ∈ ids, (k ∈ taken → k ∈ c.bubbles) ∧ (k ∉ taken → ∀ x, F.Below k x → x ∉ c.bubbles)

/-- A claimed bubble is not claimed again, whatever has been done below it before this shows. -/
lemma fit_of_claimed (hc : a.claims.InStep) (h : id ∈ a.claims.bubbles) :
    (p.fit F id a).1 = false := by
  cases hb : F.get? id with
  | none => rw [fit_of_gone hb]
  | some b =>
    rw [fit_of_get? hb]
    split
    · split
      · have hext := fitChildren_extends (F := F) p.children b.children a hc
          fun q _ id a => fit_extends q F id a
        rw [Attempt.finish, if_pos (hext.inStep.contains_iff.2 (hext.order.subset h))]
      · rfl
    · rfl

/-- The candidates are gone through as in the greedy choice: one that is taken is refused, and one
that fails leaves the claims as they were. -/
lemma firstFitting_yields
    (hp : ∀ id (a : Attempt α), a.claims.InStep → (∀ x, F.Below id x → x ∉ a.claims.bubbles) →
      Yields a (p.greedy F id) (p.fit F id a)) :
    ∀ (ids : List BubbleId) (a : Attempt α), a.claims.InStep → Settled F a.claims ids taken →
      match firstFree (p.greedy F) taken ids with
      | some (_, es) => (a.firstFitting (p.fit F) ids).1 = true ∧
          (a.firstFitting (p.fit F) ids).2.claims = a.claims.insertAll es
      | none => (a.firstFitting (p.fit F) ids).1 = false ∧
          (a.firstFitting (p.fit F) ids).2.claims = a.claims
  | [], _, _, _ => ⟨rfl, rfl⟩
  | id :: ids, a, hc, hset => by
    have hroll := fit_rollback p F id a hc
    have hset' : Settled F ((p.fit F id a).2.rollback a.claims.mark).claims ids taken := by
      rw [hroll]
      exact fun k hk => hset k (List.mem_cons_of_mem id hk)
    have hrest := firstFitting_yields hp ids _ (by rwa [hroll]) hset'
    rw [hroll] at hrest
    rw [firstFree]
    by_cases hid : id ∈ taken
    · have hfalse := fit_of_claimed (F := F) (p := p) hc ((hset id List.mem_cons_self).1 hid)
      rw [if_pos hid, Attempt.firstFitting_of_not hfalse]
      exact hrest
    · rw [if_neg hid]
      have hyield := hp id a hc ((hset id List.mem_cons_self).2 hid)
      cases hg : p.greedy F id with
      | none =>
        rw [hg] at hyield
        rw [Attempt.firstFitting_of_not hyield]
        exact hrest
      | some es =>
        rw [hg] at hyield
        rw [Attempt.firstFitting_of_fits hyield.1]
        exact ⟨rfl, hyield.2⟩

/-- After a choice among siblings the claims are settled again: the one that was chosen is claimed,
and all that was claimed with it lies below it. -/
lemma settled_cons (hF : F.WellFormed) (hids : Apart F ids) (hid : id ∈ ids)
    (hset : Settled F c ids taken) (h : Coherent F p id es) :
    Settled F (c.insertAll es) ids (id :: taken) := by
  intro k hk
  rw [Claims.bubbles_insertAll]
  constructor
  · intro hmem
    rcases List.mem_cons.1 hmem with rfl | hmem
    · exact List.mem_append_right _ (List.mem_map.2 ⟨_, h.root_mem, rfl⟩)
    · exact List.mem_append_left _ ((hset k hk).1 hmem)
  · intro hnot x hx hmem
    rcases List.mem_append.1 hmem with hmem | hmem
    · exact (hset k hk).2 (fun htaken => hnot (List.mem_cons_of_mem id htaken)) x hx hmem
    · obtain ⟨e, he, rfl⟩ := List.mem_map.1 hmem
      exact hnot (hids id hid k hk _ (h.below hF e he) hx ▸ List.mem_cons_self)

lemma fitChildren_yields (hF : F.WellFormed) (hids : Apart F ids) :
    ∀ (ps : List (Pattern α)) (taken : List BubbleId) (a : Attempt α),
      (∀ q ∈ ps, ∀ id (a : Attempt α), a.claims.InStep →
        (∀ x, F.Below id x → x ∉ a.claims.bubbles) → Yields a (q.greedy F id) (q.fit F id a)) →
      a.claims.InStep → Settled F a.claims ids taken →
      Yields a (greedyChildren F ps ids taken) (fitChildren F ps ids a)
  | [], _, a, _, _, _ => by
    rw [greedyChildren, fitChildren]
    exact ⟨rfl, rfl⟩
  | p :: ps, taken, a, hps, hc, hset => by
    have hps' := fun q (hq : q ∈ ps) => hps q (List.mem_cons_of_mem p hq)
    have hfirst := firstFitting_yields (hps p List.mem_cons_self) ids a hc hset
    have hc₁ := (Attempt.firstFitting_extends (fun id a => fit_extends p F id a) ids a hc).inStep
    rw [greedyChildren, fitChildren_cons]
    generalize (a.firstFitting (p.fit F) ids).2 = a₁ at hfirst hc₁ ⊢
    cases hfree : firstFree (p.greedy F) taken ids with
    | some choice =>
      obtain ⟨id, es⟩ := choice
      rw [hfree] at hfirst
      obtain ⟨hfound, hclaims⟩ := hfirst
      obtain ⟨hid, -, hes⟩ := firstFree_eq_some hfree
      have hset₁ : Settled F a₁.claims ids (id :: taken) := by
        rw [hclaims]
        exact settled_cons hF hids hid hset (coherent_of_greedy hF hes)
      have hrest := fitChildren_yields hF hids ps _ a₁ hps' hc₁ hset₁
      rw [hfound, Bool.true_or, if_pos rfl]
      show Yields a ((greedyChildren F ps ids (id :: taken)).map (es ++ ·)) _
      cases hg : greedyChildren F ps ids (id :: taken) with
      | none => rw [hg] at hrest; exact hrest
      | some es' =>
        rw [hg] at hrest
        refine ⟨hrest.1, hrest.2.trans ?_⟩
        rw [hclaims, Claims.insertAll_append]
    | none =>
      rw [hfree] at hfirst
      obtain ⟨hfound, hclaims⟩ := hfirst
      rw [hfound, Bool.false_or]
      show Yields a (if p.optional then greedyChildren F ps ids taken else none) _
      cases hopt : p.optional with
      | true =>
        have hrest := fitChildren_yields hF hids ps taken a₁ hps' hc₁ (hclaims ▸ hset)
        exact hrest.of_claims_eq hclaims
      | false => rfl

/-- Nothing that is taken for the child patterns is the bubble itself. -/
lemma not_mem_of_greedyChildren (hF : F.WellFormed) (hb : F.get? id = some b)
    (hacc : p.accepts b = true) (hes : greedyChildren F p.children b.children [] = some es) :
    id ∉ es.map Prod.fst := by
  have hco := coherent_of_greedy hF (greedy_eq_some_iff.2 ⟨b, es, hb, hacc, hes, rfl⟩)
  have hnodup := hco.nodup
  rw [List.map_append, List.nodup_append] at hnodup
  exact fun hmem => hnodup.2.2 id hmem id List.mem_cons_self rfl

/-- An attempt from a place below which nothing is claimed adds the greedy choice. -/
theorem fit_yields (hF : F.WellFormed) (p : Pattern α) (id : BubbleId) (a : Attempt α)
    (hc : a.claims.InStep) (hfree : ∀ x, F.Below id x → x ∉ a.claims.bubbles) :
    Yields a (p.greedy F id) (p.fit F id a) := by
  induction p using children_induction generalizing id a with
  | step p ih =>
    cases hb : F.get? id with
    | none => rw [greedy_of_gone hb, fit_of_gone hb]; rfl
    | some b =>
      have hchildren := Forest.children_eq hb
      have hset : Settled F a.claims b.children [] := by
        rw [← hchildren]
        refine fun k hk => ⟨fun hmem => absurd hmem List.not_mem_nil, fun _ x hx => ?_⟩
        exact hfree x (.of_child hk hx)
      have hrest := fitChildren_yields hF (hchildren ▸ apart_children hF id) p.children [] a
        (fun q hq id a hc => ih q hq id a hc) hc hset
      have hext := fitChildren_extends (F := F) p.children b.children a hc
        fun q _ id a => fit_extends q F id a
      rw [greedy_of_get? hb, fit_of_get? hb]
      cases hacc : p.accepts b with
      | false => rfl
      | true =>
        simp only [if_true]
        cases hg : greedyChildren F p.children b.children [] with
        | none =>
          rw [hg] at hrest
          have hfalse : (fitChildren F p.children b.children a).1 = false := hrest
          rw [hfalse]
          rfl
        | some es =>
          rw [hg] at hrest
          obtain ⟨htrue, hclaims⟩ := hrest
          have hself : id ∉ (fitChildren F p.children b.children a).2.claims.bubbles := by
            rw [hclaims, Claims.bubbles_insertAll]
            intro hmem
            rcases List.mem_append.1 hmem with hmem | hmem
            · exact hfree id (.refl F id) hmem
            · exact not_mem_of_greedyChildren hF hb hacc hg hmem
          rw [htrue, if_pos rfl, Attempt.finish,
            if_neg (by rw [hext.inStep.contains_iff]; exact hself)]
          refine ⟨rfl, ?_⟩
          show (fitChildren F p.children b.children a).2.claims.insert id p = _
          rw [hclaims, Claims.insertAll_append]
          rfl

/-- A whole attempt ends with the greedy choice. -/
theorem claim?_eq_greedy (hF : F.WellFormed) (p : Pattern α) (id : BubbleId) :
    p.claim? F id = (p.greedy F id).map Claims.ofEntries := by
  have h := fit_yields hF p id .start Claims.inStep_empty fun _ _ => List.not_mem_nil
  rw [claim?, attempt]
  cases hg : p.greedy F id with
  | none =>
    rw [hg] at h
    have hfalse : (p.fit F id .start).1 = false := h
    simp only [hfalse]
    rfl
  | some es =>
    rw [hg] at h
    obtain ⟨htrue, hclaims⟩ := h
    simp only [htrue, if_true, hclaims]
    rfl

lemma greedy_of_claim? (hF : F.WellFormed) (h : p.claim? F id = some c) :
    p.greedy F id = some c.entries := by
  rw [claim?_eq_greedy hF, Option.map_eq_some_iff] at h
  obtain ⟨es, hes, rfl⟩ := h
  have hnodup : (Claims.ofEntries es).bubbles.Nodup := by
    rw [Claims.bubbles_ofEntries]
    exact (coherent_of_greedy hF hes).nodup
  rw [hes, (Claims.inStep_ofEntries hnodup).2]

end Pattern
end TraceFold
