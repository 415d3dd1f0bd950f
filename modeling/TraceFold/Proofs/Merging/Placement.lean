import TraceFold.Proofs.Forest.Sum
import TraceFold.Proofs.Matching.Acceptance
import TraceFold.Proofs.Merging.Effect
import TraceFold.Saturation

/-!
# Merging in another place

A pattern whose checks and builders look at payloads only (`Pattern.ReadsPayload`) cannot tell
where in an arena it is tried.  If a forest hosts another one, every part of a merge in the hosted
forest is mirrored in the host, with the names raised: the choice of bubbles (`greedy_hosted`), the
claims (`claim?_hosted`), what is put in place of them (`replacement_hosted`) and the forest that
comes of it.  `merge_hosted` adds that the rest of the host stays as it is.

All checks of the vocabulary look at payloads only, and so do the patterns of the standard catalog.
-/

namespace TraceFold

variable {α β : Type} {F G : Forest} {p q : Pattern α} {ps : List (Pattern α)} {c : Claims α}
  {b : Bubble} {ids taken : List BubbleId} {n o x y : Nat}

/-! ## Looking at payloads only -/

/-- A function of bubbles depends on nothing but the payload. -/
def Bubble.ReadsPayload (f : Bubble → β) : Prop :=
  ∀ b b' : Bubble, b.payload = b'.payload → f b = f b'

/-- All checks and builders of a pattern and its sub-patterns depend on nothing but the payload. -/
inductive Pattern.ReadsPayload : Pattern α → Prop
  | intro {p : Pattern α} (checks : ∀ check ∈ p.checks, Bubble.ReadsPayload check)
      (builder : ∀ build, p.builder = some build → ∀ draft, Bubble.ReadsPayload (build draft))
      (children : ∀ q ∈ p.children, ReadsPayload q) : ReadsPayload p

def AnyRule.ReadsPayload (rule : AnyRule) : Prop := rule.pattern.ReadsPayload

namespace Check

/-- The vocabulary of checks, closed under alternatives. -/
inductive Vocabulary : Check → Prop
  | isTransaction : Vocabulary isTransaction
  | isKind (kind : PayloadKind) : Vocabulary (isKind kind)
  | isReceiver (wanted : Interfaces) : Vocabulary (isReceiver wanted)
  | either {first second : Check} (h : Vocabulary first) (h' : Vocabulary second) :
      Vocabulary (either first second)
  | hasOpcode (opcode : UInt32) : Vocabulary (hasOpcode opcode)
  | hasOperation (op : Operation) : Vocabulary (hasOperation op)
  | isAccount (address : Address) : Vocabulary (isAccount address)
  | hasComment (text : String) : Vocabulary (hasComment text)
  | hasInterfaces (wanted : Interfaces) : Vocabulary (hasInterfaces wanted)
  | amountWithin (low high : Nanotons) : Vocabulary (amountWithin low high)

lemma onTransaction_readsPayload (test : Transaction → Bool) :
    Bubble.ReadsPayload (onTransaction test) := by
  intro b b' h
  unfold onTransaction
  rw [h]

lemma Vocabulary.readsPayload {check : Check} (h : Vocabulary check) :
    Bubble.ReadsPayload check := by
  induction h with
  | isTransaction => intro b b' h; unfold Check.isTransaction; rw [h]
  | isKind kind => intro b b' h; unfold Check.isKind; rw [h]
  | isReceiver wanted => intro b b' h; unfold Check.isReceiver; rw [h]
  | either _ _ ih ih' => intro b b' h; unfold Check.either; rw [ih b b' h, ih' b b' h]
  | hasOpcode opcode => exact onTransaction_readsPayload _
  | hasOperation op => exact onTransaction_readsPayload _
  | isAccount address => exact onTransaction_readsPayload _
  | hasComment text => exact onTransaction_readsPayload _
  | hasInterfaces wanted => exact onTransaction_readsPayload _
  | amountWithin low high => exact onTransaction_readsPayload _

end Check

namespace Pattern

/-- A pattern of a transaction in the vocabulary looks at payloads only, as its builder does. -/
lemma building_readsPayload {name : String} {checks : List Check}
    {build : α → Transaction → α × Option BuildError} {children : List (Pattern α)}
    {optional : Bool} (hchecks : ∀ check ∈ checks, check.Vocabulary)
    (hchildren : ∀ q ∈ children, q.ReadsPayload) :
    (building name checks build children optional).ReadsPayload := by
  refine .intro ?_ ?_ hchildren
  · intro check hcheck
    rcases List.mem_cons.1 hcheck with rfl | hcheck
    · exact Check.Vocabulary.isTransaction.readsPayload
    · exact (hchecks check hcheck).readsPayload
  · rintro _ ⟨⟩ draft b b' h
    unfold Builder.onTransaction
    rw [h]

lemma excess_readsPayload : (Catalog.excess : Pattern α).ReadsPayload := by
  refine .intro ?_ ?_ ?_
  · intro check hcheck
    apply Check.Vocabulary.readsPayload
    simp only [Catalog.excess, List.mem_cons, List.not_mem_nil, or_false] at hcheck
    rcases hcheck with rfl | rfl
    · exact .isTransaction
    · exact .hasOperation _
  · intro build hbuild
    cases hbuild
  · intro q hq
    cases hq

end Pattern

namespace Catalog

open Pattern in
lemma JettonTransfer.pattern_readsPayload : JettonTransfer.pattern.ReadsPayload := by
  have hnotice : JettonTransfer.notice.ReadsPayload :=
    building_readsPayload (by simpa using .hasOperation _) (by simp)
  have harrival : JettonTransfer.arrival.ReadsPayload :=
    building_readsPayload (by simpa using .hasOperation _)
      (by simpa using ⟨hnotice, excess_readsPayload⟩)
  exact building_readsPayload (by simpa using .hasOperation _) (by simpa using harrival)

open Pattern in
lemma JettonMint.pattern_readsPayload : JettonMint.pattern.ReadsPayload := by
  have hnotice : JettonMint.notice.ReadsPayload :=
    building_readsPayload (by simpa using .hasOperation _) (by simp)
  have harrival : JettonMint.arrival.ReadsPayload :=
    building_readsPayload (by simpa using .hasOperation _)
      (by simpa using ⟨hnotice, excess_readsPayload⟩)
  exact building_readsPayload (by simpa using .either (.hasOpcode _) (.hasOpcode _))
    (by simpa using harrival)

/-- The rules of the standard catalog look at payloads only. -/
lemma standard_readsPayload : ∀ rule ∈ standard, rule.ReadsPayload := by
  intro rule hrule
  rcases mem_standard.1 hrule with rfl | rfl
  · exact JettonTransfer.pattern_readsPayload
  · exact JettonMint.pattern_readsPayload

end Catalog

/-! ## Raising claims -/

/-- The same claims where every name has become greater by `o`. -/
def Claims.raise (o : Nat) (c : Claims α) : Claims α where
  bubbles := c.bubbles.map (· + o)
  patterns := {
    entries := c.patterns.entries.map fun e => (e.1 + o, e.2)
    sorted := List.pairwise_map.2 (c.patterns.sorted.imp fun h => by
      rw [Nat.compare_eq_lt] at h ⊢
      exact Nat.add_lt_add_right h o) }

namespace Claims

@[simp] lemma bubbles_raise (o : Nat) (c : Claims α) :
    (c.raise o).bubbles = c.bubbles.map (· + o) := rfl

lemma get?_raise (o : Nat) (c : Claims α) (x : Nat) :
    (c.raise o).get? (x + o) = c.get? x := by
  have hsame : ∀ y : Nat, (compare (y + o) (x + o) == .eq) = (compare y x == .eq) := by
    intro y
    rw [Bool.eq_iff_iff]
    simp
  unfold get? raise SortedMap.get?
  simp [List.find?_map, Function.comp_def, hsame]

lemma get?_raise_of_lt (c : Claims α) (hx : x < o) : (c.raise o).get? x = none := by
  have hno : ∀ y : Nat, (compare (y + o) x == .eq) = false := by
    intro y
    have hne : y + o ≠ x := by omega
    simpa [Nat.compare_eq_eq] using hne
  unfold get? raise SortedMap.get?
  simp [List.find?_map, Function.comp_def, hno]

@[simp] lemma contains_raise (o : Nat) (c : Claims α) (x : Nat) :
    (c.raise o).contains (x + o) = c.contains x := by
  rw [contains, contains, get?_raise]

/-- What is claimed of a raised bubble is what was claimed of the bubble. -/
lemma raise_insert (c : Claims α) (x : Nat) (p : Pattern α) :
    (c.insert x p).raise o = (c.raise o).insert (x + o) p := by
  refine Claims.ext List.map_append (SortedMap.ext_get? fun (y : Nat) => ?_)
  show ((c.insert x p).raise o).get? y = ((c.raise o).insert (x + o) p).get? y
  rw [get?_insert]
  rcases Nat.lt_or_ge y o with hy | hy
  · have hne : x + o ≠ y := by omega
    rw [get?_raise_of_lt _ hy, get?_raise_of_lt _ hy, if_neg hne]
  · obtain ⟨z, rfl⟩ := Nat.exists_eq_add_of_le' hy
    rw [get?_raise, get?_raise, get?_insert]
    simp

lemma raise_insertAll (es : List (BubbleId × Pattern α)) (c : Claims α) :
    (c.insertAll es).raise o = (c.raise o).insertAll (es.map fun e => (e.1 + o, e.2)) := by
  induction es generalizing c with
  | nil => rfl
  | cons e es ih =>
    show ((c.insert e.1 e.2).insertAll es).raise o = _
    rw [ih, raise_insert]
    rfl

lemma builder?_raise (o : Nat) (c : Claims α) (x : Nat) :
    (c.raise o).builder? (x + o) = c.builder? x := by
  unfold builder?
  rw [get?_raise]

end Claims

/-! ## Claiming in a hosted forest -/

/-- The first free name is found in the same place. -/
lemma firstFree_raise {choice choice' : BubbleId → Option β} {raise : β → β}
    (taken : List BubbleId) (h : ∀ x ∈ ids, choice' (x + o) = (choice x).map raise) :
    firstFree choice' (taken.map (· + o)) (ids.map (· + o)) =
      (firstFree choice taken ids).map fun e => (e.1 + o, raise e.2) := by
  induction ids with
  | nil => rfl
  | cons x ids ih =>
    have ih := ih fun y hy => h y (List.mem_cons_of_mem x hy)
    rw [List.map_cons, firstFree, firstFree, h x List.mem_cons_self, ih]
    by_cases hx : x ∈ taken
    · simp [hx]
    · cases choice x <;> simp [hx]

namespace Pattern

/-- What a choice takes, with all names raised. -/
def raiseEntries (o : Nat) (es : List (BubbleId × Pattern α)) : List (BubbleId × Pattern α) :=
  es.map fun e => (e.1 + o, e.2)

lemma accepts_raise (hp : p.ReadsPayload) (o : Nat) (b : Bubble) :
    p.accepts (b.raise o) = p.accepts b := by
  obtain ⟨hchecks, -, -⟩ := hp
  unfold accepts
  rw [Bool.eq_iff_iff, List.all_eq_true, List.all_eq_true]
  exact forall₂_congr fun check hcheck => by rw [hchecks check hcheck (b.raise o) b rfl]

lemma greedyChildren_raise (taken : List BubbleId) (hids : ∀ x ∈ ids, ∀ q ∈ ps,
      q.greedy F (x + o) = (q.greedy G x).map (raiseEntries o)) :
    greedyChildren F ps (ids.map (· + o)) (taken.map (· + o)) =
      (greedyChildren G ps ids taken).map (raiseEntries o) := by
  induction ps generalizing taken with
  | nil => simp [greedyChildren, raiseEntries]
  | cons p ps ih =>
    have hfirst := firstFree_raise taken fun x hx => hids x hx p List.mem_cons_self
    have ih := fun taken => ih taken fun x hx q hq => hids x hx q (List.mem_cons_of_mem p hq)
    unfold greedyChildren
    rw [hfirst]
    cases firstFree (p.greedy G) taken ids with
    | none =>
      simp only [Option.map_none]
      rw [ih]
      split <;> rfl
    | some e =>
      obtain ⟨x, es⟩ := e
      have hnext := ih (x :: taken)
      rw [List.map_cons] at hnext
      simp only [Option.map_some, hnext, Option.map_map]
      congr 1
      funext es'
      simp [raiseEntries]

/-- The greedy choice is the same in every place. -/
theorem greedy_hosted (h : F.Hosts o G) (hG : G.WellFormed) (hp : p.ReadsPayload) :
    ∀ x < G.slots.size, p.greedy F (x + o) = (p.greedy G x).map (raiseEntries o) := by
  induction p using children_induction with
  | step p ih =>
    intro x hx
    have hslot := h.slot x hx
    cases hb : G.get? x with
    | none =>
      rw [hb] at hslot
      rw [greedy_of_gone hb, greedy_of_gone hslot]
      rfl
    | some b =>
      rw [hb] at hslot
      have hchildren : greedyChildren F p.children (b.children.map (· + o)) [] =
          (greedyChildren G p.children b.children []).map (raiseEntries o) := by
        refine greedyChildren_raise [] fun y hy q hq => ?_
        have hlive := hG.children_live x y (Forest.children_eq hb ▸ hy)
        obtain ⟨-, -, hps⟩ := hp
        exact ih q hq (hps q hq) y (Forest.lt_size_of_contains hlive)
      rw [greedy_of_get? hb, greedy_of_get? hslot, accepts_raise hp, Bubble.children_raise,
        hchildren]
      split
      · rw [Option.map_map, Option.map_map]
        congr 1
        funext es
        simp [raiseEntries]
      · rfl

theorem claim?_hosted (h : F.Hosts o G) (hF : F.WellFormed) (hG : G.WellFormed)
    (hp : p.ReadsPayload) (hx : x < G.slots.size) :
    p.claim? F (x + o) = (p.claim? G x).map (Claims.raise o) := by
  rw [claim?_eq_greedy hF, claim?_eq_greedy hG, greedy_hosted h hG hp x hx, Option.map_map,
    Option.map_map]
  congr 1
  funext es
  exact (Claims.raise_insertAll es .empty).symm

lemma ReadsPayload.sub (hp : p.ReadsPayload) (h : p.Sub q) : q.ReadsPayload := by
  induction h with
  | refl => exact hp
  | tail _ hchild ih =>
    obtain ⟨-, -, hchildren⟩ := ih
    exact hchildren _ hchild

/-- Every claim is made by a pattern that looks at payloads only. -/
lemma readsPayload_of_mem_entries (hG : G.WellFormed) (hp : p.ReadsPayload)
    (h : p.claim? G x = some c) : ∀ e ∈ c.entries, e.2.ReadsPayload :=
  fun e he => hp.sub ((coherent_of_claim? hG h).sub hG e he)

end Pattern

/-! ## Building in a hosted forest -/

namespace Forest.Hosts

lemma accountsOf_add (h : F.Hosts o G) (hx : x < G.slots.size) :
    F.accountsOf (x + o) = G.accountsOf x := by
  unfold accountsOf
  rw [h.slot x hx]
  cases G.get? x <;> rfl

lemma flowOf_add (h : F.Hosts o G) (hx : x < G.slots.size) :
    F.flowOf (x + o) = G.flowOf x := by
  unfold flowOf
  rw [h.slot x hx]
  cases G.get? x <;> rfl

lemma describe_add (h : F.Hosts o G) (hx : x < G.slots.size) :
    F.describe (x + o) = G.describe x := by
  unfold describe
  rw [h.slot x hx]
  cases G.get? x <;> simp

end Forest.Hosts

namespace Claims

lemma region_raise (h : F.Hosts o G) (hG : G.WellFormed) (c : Claims α)
    (hx : G.contains x = true) :
    (c.raise o).region F (x + o) = (c.region G x).map (· + o) := by
  have hroom := h.room
  unfold region
  rw [h.below hG _ _ x (Forest.lt_size_of_contains hx)]
  simp only [contains_raise]
  rw [hG.below_levels hx (Nat.le_add_right _ x) F.slots.size (by omega)]

lemma inOrder_raise (h : F.Hosts o G) (hG : G.WellFormed) (c : Claims α)
    (hx : G.contains x = true) :
    (c.raise o).inOrder F (x + o) = (c.inOrder G x).map (· + o) := by
  unfold inOrder
  rw [region_raise h hG c hx, List.filter_map]
  simp [Function.comp_def]

lemma kept_raise (h : F.Hosts o G) (hG : G.WellFormed) (c : Claims α)
    (hx : G.contains x = true) :
    (c.raise o).kept F (x + o) = (c.kept G x).map (· + o) := by
  unfold kept
  rw [region_raise h hG c hx, List.filter_map]
  simp [Function.comp_def]

/-- Builders run as they do in the hosted forest; a failure names the bubble as the host does. -/
lemma build_raise (h : F.Hosts o G)
    (hc : ∀ y build, c.builder? y = some build → ∀ draft, Bubble.ReadsPayload (build draft))
    (hids : ∀ y ∈ ids, y < G.slots.size) (draft : α) :
    (c.raise o).build F (ids.map (· + o)) draft =
      (c.build G ids draft).mapError fun failure => (failure.1 + o, failure.2) := by
  induction ids generalizing draft with
  | nil => rfl
  | cons y ids ih =>
    have ih := ih fun z hz => hids z (List.mem_cons_of_mem y hz)
    have hat : (c.raise o).buildAt F draft (y + o) = c.buildAt G draft y := by
      unfold buildAt
      rw [builder?_raise, h.slot y (hids y List.mem_cons_self)]
      cases hbuild : c.builder? y with
      | none => rfl
      | some build =>
        cases G.get? y with
        | none => rfl
        | some b => exact hc y build hbuild draft (b.raise o) b rfl
    rw [List.map_cons, build_cons, build_cons, hat]
    rcases c.buildAt G draft y with ⟨draft', failure⟩
    cases failure with
    | none => exact ih draft'
    | some e => rfl

end Claims

namespace Pattern

lemma failureReport_hosted (h : F.Hosts o G) (p : Pattern α) (hx : x < G.slots.size)
    (e : BuildError) : p.failureReport F (x + o) e = p.failureReport G x e := by
  unfold failureReport
  rw [h.describe_add hx]

/-- The forest that hosted the old one hosts the new one afterwards. -/
lemma commit_hosted (h : F.Hosts o G) (hF : F.WellFormed) (hG : G.WellFormed)
    (hclaim : p.claim? G x = some c) (hclaim' : p.claim? F (x + o) = some (c.raise o))
    (hsize : (commit G x c b).slots.size = G.slots.size)
    (hsize' : (commit F (x + o) (c.raise o) (b.raise o)).slots.size = F.slots.size) :
    (commit F (x + o) (c.raise o) (b.raise o)).Hosts o (commit G x c b) where
  room := by rw [hsize, hsize']; exact h.room
  slot := by
    intro y hy
    rw [get?_commit hF hclaim', get?_commit hG hclaim, Claims.bubbles_raise,
      h.slot y (hsize ▸ hy)]
    by_cases hroot : y = x
    · simp [hroot]
    · by_cases hmem : y ∈ c.bubbles <;> simp [hroot, hmem]

variable [Target α]

/-- What is put in place of a claimed group is the same, except for the names. -/
theorem replacement_hosted (h : F.Hosts o G) (hG : G.WellFormed) (hp : p.ReadsPayload)
    (hclaim : p.claim? G x = some c) : replacement F (x + o) (c.raise o) =
      match replacement G x c with
      | .ok b => .ok (b.raise o)
      | .error failure => .error (failure.1 + o, failure.2) := by
  have hgroup := claim?_group hG hclaim
  have hlive := hgroup.contains_root
  have hids : ∀ y ∈ c.inOrder G x, y < G.slots.size := fun y hy =>
    Forest.lt_size_of_contains (hgroup.live y ((mem_inOrder hG hclaim).1 hy))
  have hbuilders : ∀ y build, c.builder? y = some build →
      ∀ draft, Bubble.ReadsPayload (build draft) := by
    intro y build hbuild
    obtain ⟨q, hq, hqbuild⟩ := Option.bind_eq_some_iff.1 hbuild
    obtain ⟨-, hreads, -⟩ := readsPayload_of_mem_entries hG hp hclaim _
      ((inStep_of_claim? hclaim).mem_entries.2 hq)
    exact hreads build hqbuild
  have hbuild := Claims.build_raise h hbuilders hids Target.blank
  have haccounts : ((c.inOrder G x).map (· + o)).flatMap F.accountsOf =
      (c.inOrder G x).flatMap G.accountsOf := by
    rw [List.flatMap_map]
    exact List.flatMap_congr fun y hy => h.accountsOf_add (hids y hy)
  have hflow : ∀ flow : Flow,
      ((c.inOrder G x).map (· + o)).foldl (fun flow id => flow.merge (F.flowOf id)) flow =
        (c.inOrder G x).foldl (fun flow id => flow.merge (G.flowOf id)) flow := by
    intro flow
    rw [List.foldl_map]
    exact List.foldl_ext _ _ flow fun flow y hy => by rw [h.flowOf_add (hids y hy)]
  have hx := Forest.lt_size_of_contains hlive
  unfold replacement
  simp only [Claims.inOrder_raise h hG c hlive, Claims.kept_raise h hG c hlive, hbuild,
    haccounts, hflow, h.accountsOf_add hx, h.flowOf_add hx]
  cases c.build G (c.inOrder G x) Target.blank <;> rfl

end Pattern

/-- A merge somewhere in `F` mirrors one in `G`, which `F` hosts from `o` on: the same comes of it
in there, and what is elsewhere stays as it is. -/
structure MergeStep.Mirrors (F : Forest) (o : Nat) (G : Forest) (step step' : MergeStep) :
    Prop where
  merged : step.merged = step'.merged
  reports : Event.reports step.events = Event.reports step'.events
  hosts : step.forest.Hosts o step'.forest
  frame : ∀ y, (∀ z < G.slots.size, y ≠ z + o) → step.forest.get? y = F.get? y
  slots : step.forest.slots.size = F.slots.size
  slots' : step'.forest.slots.size = G.slots.size
  roots : step.forest.roots = F.roots
  roots' : step'.forest.roots = G.roots

lemma MergeStep.Mirrors.of_unchanged {step step' : MergeStep} (h : F.Hosts o G)
    (hforest : step.forest = F) (hforest' : step'.forest = G) (hmerged : step.merged = step'.merged)
    (hreports : Event.reports step.events = Event.reports step'.events) :
    MergeStep.Mirrors F o G step step' := by
  refine ⟨hmerged, hreports, by rwa [hforest, hforest'], ?_, ?_, ?_, ?_, ?_⟩
  · intro y _; rw [hforest]
  · rw [hforest]
  · rw [hforest']
  · rw [hforest]
  · rw [hforest']

open MergeStep in
/-- Merging in a hosted forest is the same as merging in the forest itself. -/
theorem Pattern.merge_hosted [Target α] (h : F.Hosts o G) (hF : F.WellFormed)
    (hG : G.WellFormed) (hp : p.ReadsPayload) (hx : x < G.slots.size) :
    Mirrors F o G (p.merge F (x + o)) (p.merge G x) := by
  have hclaims := claim?_hosted h hF hG hp hx
  rw [merge_eq, merge_eq]
  cases hclaim : p.claim? G x with
  | none =>
    rw [hclaim] at hclaims
    simp only [hclaims, Option.map_none]
    exact .of_unchanged h rfl rfl rfl (by rw [reports_lostEvents, reports_lostEvents])
  | some c =>
    rw [hclaim, Option.map_some] at hclaims
    have hrep := replacement_hosted h hG hp hclaim
    cases hrepG : replacement G x c with
    | error failure =>
      have hmem := (mem_inOrder hG hclaim).1 (mem_of_replacement_eq_error hrepG)
      have hfailed := Forest.lt_size_of_contains ((claim?_group hG hclaim).live _ hmem)
      rw [hrepG] at hrep
      simp only [hclaims, hrep, hrepG]
      refine .of_unchanged h rfl rfl rfl ?_
      rw [Event.reports_append, Event.reports_append, reports_lostEvents, reports_lostEvents,
        failureReport_hosted h p hfailed]
    | ok b =>
      rw [hrepG] at hrep
      have hcon := commit_contracts hG hclaim hrepG
      have hcon' := commit_contracts hF hclaims hrep
      simp only [hclaims, hrep, hrepG]
      refine ⟨rfl, ?_, commit_hosted h hF hG hclaim hclaims hcon.slots hcon'.slots, ?_,
        hcon'.slots, hcon.slots, hcon'.roots, hcon.roots⟩
      · rw [Event.reports_append, Event.reports_append, reports_lostEvents, reports_lostEvents]
        rfl
      · intro y hy
        apply hcon'.outside
        rw [Claims.bubbles_raise]
        intro hmem
        obtain ⟨z, hz, rfl⟩ := List.mem_map.1 hmem
        exact hy z (Forest.lt_size_of_contains (hcon.group.live z hz)) rfl

lemma AnyRule.merge_hosted {rule : AnyRule} (h : F.Hosts o G) (hF : F.WellFormed)
    (hG : G.WellFormed) (hrule : rule.ReadsPayload) (hx : x < G.slots.size) :
    MergeStep.Mirrors F o G (rule.merge F (x + o)) (rule.merge G x) :=
  Pattern.merge_hosted h hF hG hrule hx

end TraceFold
