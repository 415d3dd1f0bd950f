import Mathlib.Logic.Function.Iterate
import TraceFold.Proofs.Trace.Layout

/-!
# The numbers of a loaded trace

A loaded trace is a copy of the document: the nodes are numbered from 0 in the order in which they
are written, and every bubble lists the numbers of the nodes below its own (`Forest.Copies`).  The
only thing that changes is an opcode that was left out (`Transaction.Completed`).

The same forest comes of a loop over a pile of nodes, each with the number of its parent
(`Loading.next`).  What recursion would make of the forest so far and of all that still lies on the
pile is the same before and after every round (`Loading.outcome_next`).  The parents on the pile
have all been added before (`Loading.Sound`), so no round ends without a new bubble.
-/

namespace TraceFold

/-! ## Numbers -/

namespace TraceNode

/-- The number of transactions of a node and everything below it. -/
def count (node : TraceNode) : Nat := node.transactions.length

/-- The number of transactions of some nodes and everything below them. -/
def countAll (nodes : List TraceNode) : Nat := (transactionsAll nodes).length

/-- The numbers of some nodes that stand side by side, if the first is `next`: what is below a node
is numbered before the node beside it. -/
def numbers : Nat → List TraceNode → List BubbleId
  | _, [] => []
  | next, node :: nodes => next :: numbers (next + node.count) nodes

@[simp] lemma count_mk (tx : Transaction) (children : List TraceNode) :
    count ⟨tx, children⟩ = countAll children + 1 := by
  rw [count, transactions, List.length_cons, countAll]

@[simp] lemma countAll_nil : countAll [] = 0 := rfl

@[simp] lemma countAll_cons (node : TraceNode) (nodes : List TraceNode) :
    countAll (node :: nodes) = node.count + countAll nodes := by
  rw [countAll, transactionsAll, List.length_append, count, countAll]

lemma countAll_append (nodes more : List TraceNode) :
    countAll (nodes ++ more) = countAll nodes + countAll more := by
  induction nodes with
  | nil => simp
  | cons node nodes ih => rw [List.cons_append, countAll_cons, ih, countAll_cons, Nat.add_assoc]

lemma countAll_eq_zero {nodes : List TraceNode} (h : countAll nodes = 0) : nodes = [] := by
  cases nodes with
  | nil => rfl
  | cons node nodes =>
    cases node
    simp at h

end TraceNode

/-! ## Opcodes that were left out -/

/-- `tx'` is `tx` with its opcode, if that was left out, taken from the body: the one a body of
another kind mentions, or the one that announces the operation. -/
structure Transaction.Completed (tx tx' : Transaction) : Prop where
  rest : { tx' with opcode := tx.opcode } = tx
  given : ∀ n, tx.opcode = some n → tx'.opcode = some n
  mentioned : ∀ n, tx.opcode = none → tx.body = some (.other n) → tx'.opcode = some n
  announced : ∀ body, tx.opcode = none → tx.body = some body → body.operation ≠ .other →
    tx'.opcode = body.operation.opcode?
  unknown : tx.opcode = none → tx.body = none → tx'.opcode = none

lemma Body.opcode?_of_ne_other {body : Body} (h : body.operation ≠ .other) :
    body.opcode? = body.operation.opcode? := by
  cases body with
  | other n => exact absurd rfl h
  | _ => rfl

lemma Transaction.completed_withOpcode (tx : Transaction) : tx.Completed tx.withOpcode := by
  cases hopcode : tx.opcode with
  | some n =>
    have hsame : tx.withOpcode = tx := by rw [withOpcode, hopcode]
    rw [hsame]
    have hgiven : tx.opcode ≠ none := by simp [hopcode]
    exact ⟨rfl, fun _ h => h, fun _ h => absurd h hgiven, fun _ h => absurd h hgiven,
      fun h => absurd h hgiven⟩
  | none =>
    have hnew : tx.withOpcode = { tx with opcode := tx.body.bind Body.opcode? } := by
      rw [withOpcode, hopcode]
    rw [hnew]
    refine ⟨rfl, fun n h => ?_, fun n _ hbody => ?_, fun body _ hbody hop => ?_, fun _ hbody => ?_⟩
    · rw [hopcode] at h
      cases h
    · simp only [hbody, Option.bind_some, Body.opcode?]
    · simp only [hbody, Option.bind_some, Body.opcode?_of_ne_other hop]
    · simp only [hbody, Option.bind_none]

namespace Forest

/-! ## Copies -/

mutual

/-- The bubble with this number is that of the node, and those that follow are those of the nodes
below it. -/
def Holds (F : Forest) (id : BubbleId) : TraceNode → Prop
  | ⟨tx, children⟩ => (∃ tx', tx.Completed tx' ∧ F.get? id =
      some { Bubble.ofTransaction tx' with children := TraceNode.numbers (id + 1) children }) ∧
        F.HoldsAll (id + 1) children

/-- The bubbles from this number on are those of some nodes and the nodes below them. -/
def HoldsAll (F : Forest) (next : BubbleId) : List TraceNode → Prop
  | [] => True
  | node :: nodes => F.Holds next node ∧ F.HoldsAll (next + node.count) nodes

end

/-- `F` is a copy of some nodes and everything below them, and holds nothing else. -/
structure Copies (F : Forest) (nodes : List TraceNode) : Prop where
  wellFormed : F.WellFormed
  slots : F.slots.size = TraceNode.countAll nodes
  live : F.size = TraceNode.countAll nodes
  order : F.preOrder = List.range (TraceNode.countAll nodes)
  roots : F.roots = TraceNode.numbers 0 nodes
  bubbles : F.HoldsAll 0 nodes

lemma size_layout (node : TraceNode) : (layout node).slots.size = node.count := by
  have h := congrArg List.length (payloads_layout node)
  rwa [payloads, List.length_map, Array.length_toList, List.length_map] at h

lemma size_layoutAll (nodes : List TraceNode) :
    (layoutAll nodes).slots.size = TraceNode.countAll nodes := by
  have h := congrArg List.length (payloads_layoutAll nodes)
  rwa [payloads, List.length_map, Array.length_toList, List.length_map] at h

lemma roots_layout (node : TraceNode) : (layout node).roots = [0] := by
  cases node
  rfl

lemma roots_layoutAll (nodes : List TraceNode) (o : Nat) :
    (layoutAll nodes).roots.map (· + o) = TraceNode.numbers o nodes := by
  induction nodes generalizing o with
  | nil => rfl
  | cons node nodes ih =>
    rw [layoutAll, roots_append, roots_layout, size_layout, TraceNode.numbers, ← ih]
    simp [Function.comp_def, Nat.add_comm, Nat.add_left_comm]

mutual

/-- A forest that hosts the layout of a node holds the node. -/
theorem holds_of_hosts : ∀ (node : TraceNode) (F : Forest) (o : Nat),
    F.Hosts o (layout node) → F.Holds o node
  | ⟨tx, children⟩, F, o, h => by
    rw [layout] at h
    have htop := h.slot 0 (by simp)
    rw [Nat.zero_add, get?_under_zero, Option.map_some, ← Nat.zero_add 1] at htop
    refine ⟨⟨tx.withOpcode, tx.completed_withOpcode, ?_⟩, ?_⟩
    · rw [htop, ← roots_layoutAll]
      simp [Bubble.raise, Nat.add_assoc, Nat.add_comm o, Function.comp_def]
    · exact holdsAll_of_hosts children F (o + 1) (h.trans (hosts_under _ _))

theorem holdsAll_of_hosts : ∀ (nodes : List TraceNode) (F : Forest) (o : Nat),
    F.Hosts o (layoutAll nodes) → F.HoldsAll o nodes
  | [], _, _, _ => trivial
  | node :: nodes, F, o, h => by
    rw [layoutAll] at h
    have hnodes := h.trans (hosts_append_right (layout node) (layoutAll nodes))
    rw [size_layout] at hnodes
    exact ⟨holds_of_hosts node F o (h.trans (hosts_append_left _ _)),
      holdsAll_of_hosts nodes F _ hnodes⟩

end

theorem copies_layoutAll (nodes : List TraceNode) : (layoutAll nodes).Copies nodes := by
  have hwf := wellFormed_layoutAll nodes
  have hsize := size_layoutAll nodes
  have horder := preOrder_layoutAll nodes
  rw [hsize] at horder
  refine ⟨hwf, hsize, ?_, horder, ?_, ?_⟩
  · rw [← hwf.length_preOrder, horder, List.length_range]
  · rw [← roots_layoutAll]
    exact (List.map_id' _).symm
  · have hself := hosts_append_left (layoutAll nodes) empty
    rw [append_empty] at hself
    exact holdsAll_of_hosts nodes _ 0 hself

end Forest

/-! ## Loading with a pile -/

/-- A trace that is being loaded: the forest so far, and the nodes that are still to be added, each
with the number of its parent, in the order in which their turn comes. -/
structure Loading where
  forest : Forest
  pile : List (Option BubbleId × TraceNode)

namespace Loading

open Forest

variable {s : Loading} {roots : List TraceNode} {n : Nat}

/-- Nothing is added yet. -/
def start (roots : List TraceNode) : Loading := ⟨.empty, roots.map fun node => (none, node)⟩

/-- One round: the node on top is added, and those below it come on top of the pile.  A node whose
parent is not live is dropped with everything below it. -/
def next (s : Loading) : Loading :=
  match s.pile with
  | [] => s
  | (parent, ⟨tx, children⟩) :: rest =>
    match s.forest.addUnder? parent (.ofTransaction tx.withOpcode) with
    | some F => ⟨F, children.map (fun node => (some s.forest.nextId, node)) ++ rest⟩
    | none => ⟨s.forest, rest⟩

/-- What recursion makes of the forest so far and of what is on the pile. -/
def outcome (s : Loading) : Forest :=
  s.pile.foldl (fun F entry => F.graft entry.1 entry.2) s.forest

/-- The number of nodes that are still to be added. -/
def left (s : Loading) : Nat := TraceNode.countAll (s.pile.map Prod.snd)

/-- Every parent on the pile is live. -/
def Sound (s : Loading) : Prop := ∀ entry ∈ s.pile, s.forest.Accepts entry.1

/-- The next round adds this node under this parent, which is not rejected. -/
structure Adds (s : Loading) (parent : Option BubbleId) (node : TraceNode) : Prop where
  top : s.pile.head? = some (parent, node)
  added : s.forest.addUnder? parent (.ofTransaction node.transaction.withOpcode) =
    some s.next.forest

lemma foldl_graft (F : Forest) (parent : Option BubbleId) (nodes : List TraceNode) :
    (nodes.map fun node => (parent, node)).foldl (fun F entry => F.graft entry.1 entry.2) F =
      F.graftAll parent nodes := by
  induction nodes generalizing F with
  | nil => rw [graftAll]; rfl
  | cons node nodes ih => rw [List.map_cons, List.foldl_cons, ih, graftAll]

lemma outcome_start (roots : List TraceNode) : (start roots).outcome = layoutAll roots := by
  rw [← graftAll_empty]
  exact foldl_graft empty none roots

/-- A round changes nothing in what is going to come of the whole. -/
theorem outcome_next (s : Loading) : s.next.outcome = s.outcome := by
  unfold next
  split
  · rfl
  · rename_i parent tx children rest hpile
    rw [outcome, outcome, hpile, List.foldl_cons, graft]
    cases s.forest.addUnder? parent (.ofTransaction tx.withOpcode) with
    | none => rfl
    | some F => rw [List.foldl_append, foldl_graft]

lemma sound_start (roots : List TraceNode) : (start roots).Sound := by
  intro entry hentry
  obtain ⟨node, -, rfl⟩ := List.mem_map.1 hentry
  exact fun p hp => by cases hp

/-- As long as nodes are left, a round adds one of them and leaves only live parents. -/
theorem Sound.next (h : s.Sound) (hleft : s.left = n + 1) :
    s.next.Sound ∧ s.next.left = n ∧ ∃ parent node, s.Adds parent node := by
  obtain ⟨F, pile⟩ := s
  cases pile with
  | nil => cases hleft
  | cons entry rest =>
    obtain ⟨parent, ⟨tx, children⟩⟩ := entry
    obtain ⟨F', hadd⟩ : ∃ F', F.addUnder? parent (.ofTransaction tx.withOpcode) = some F' :=
      (h _ List.mem_cons_self).exists_addUnder _
    have hnext : Loading.next ⟨F, (parent, ⟨tx, children⟩) :: rest⟩ =
        ⟨F', children.map (fun node => (some F.nextId, node)) ++ rest⟩ := by
      simp only [Loading.next, hadd]
    rw [hnext]
    refine ⟨fun entry hentry p hp => ?_, ?_, parent, ⟨tx, children⟩, rfl, by rw [hnext]; exact hadd⟩
    · have hget := get?_addUnder hadd p
      rcases List.mem_append.1 hentry with hchild | hrest
      · -- The nodes below the one that was added have it as their parent.
        obtain ⟨node, -, rfl⟩ := List.mem_map.1 hchild
        rw [if_pos (Option.some.inj hp).symm] at hget
        exact contains_of_get? hget
      · have hlive := h entry (List.mem_cons_of_mem _ hrest) p hp
        obtain ⟨b, hb⟩ := contains_iff.1 hlive
        rw [hb] at hget
        unfold contains
        rw [hget]
        split
        · rfl
        · split <;> rfl
    · rw [left, List.map_cons, TraceNode.countAll_cons, TraceNode.count_mk] at hleft
      rw [left, List.map_append, TraceNode.countAll_append, List.map_map]
      have hchildren : (children.map (Prod.snd ∘ fun node => (some F.nextId, node))) = children :=
        List.map_id' children
      rw [hchildren]
      omega

/-- The load after some rounds. -/
def after (roots : List TraceNode) (rounds : Nat) : Loading := next^[rounds] (start roots)

lemma after_succ (roots : List TraceNode) (n : Nat) : after roots (n + 1) = (after roots n).next :=
  Function.iterate_succ_apply' _ _ _

/-- What holds of a load at all times, if `n` of its nodes are added. -/
structure UnderWay (roots : List TraceNode) (n : Nat) (s : Loading) : Prop where
  sound : s.Sound
  outcome : s.outcome = layoutAll roots
  added : s.forest.slots.size = n
  left : n + s.left = TraceNode.countAll roots

lemma underWay_start (roots : List TraceNode) : UnderWay roots 0 (start roots) where
  sound := sound_start roots
  outcome := outcome_start roots
  added := rfl
  left := by
    rw [Loading.left, start, List.map_map, Nat.zero_add]
    exact congrArg _ (List.map_id' roots)

lemma UnderWay.next (h : UnderWay roots n s) (hn : n < TraceNode.countAll roots) :
    UnderWay roots (n + 1) s.next ∧ ∃ parent node, s.Adds parent node := by
  have hleft := h.left
  obtain ⟨hsound, hnext, parent, node, hadds⟩ :=
    h.sound.next (n := TraceNode.countAll roots - (n + 1)) (by omega)
  refine ⟨⟨hsound, s.outcome_next.trans h.outcome, ?_, by omega⟩, parent, node, hadds⟩
  rw [size_addUnder hadds.added, h.added]

theorem underWay_after (hn : n ≤ TraceNode.countAll roots) : UnderWay roots n (after roots n) := by
  induction n with
  | zero => exact underWay_start roots
  | succ n ih =>
    rw [after_succ]
    exact ((ih (Nat.le_of_lt hn)).next hn).1

/-- When as many rounds are made as there are nodes, the pile is empty. -/
lemma after_countAll (roots : List TraceNode) :
    after roots (TraceNode.countAll roots) = ⟨layoutAll roots, []⟩ := by
  have h := underWay_after (Nat.le_refl (TraceNode.countAll roots))
  have hleft : (after roots (TraceNode.countAll roots)).left = 0 := by
    have := h.left
    omega
  have hpile := List.map_eq_nil_iff.1 (TraceNode.countAll_eq_zero hleft)
  have houtcome := h.outcome
  rw [Loading.outcome, hpile, List.foldl_nil] at houtcome
  rw [← houtcome, ← hpile]

end Loading

/-! ## Loading -/

/-- Without a node there is no trace.  Otherwise loading gives a copy of the nodes, and a loop over
a pile comes to the same forest with one node a round: the bubbles get their numbers in turn, and no
node is ever dropped. -/
theorem Forest.loading_copies :
    ofNodes [] = .error .empty ∧
    ∀ roots : List TraceNode, roots ≠ [] → ∃ F, ofNodes roots = .ok F ∧ F.Copies roots ∧
      Loading.after roots (TraceNode.countAll roots) = ⟨F, []⟩ ∧
      ∀ n < TraceNode.countAll roots, (Loading.after roots n).forest.nextId = n ∧
        ∃ parent node, (Loading.after roots n).Adds parent node := by
  refine ⟨rfl, fun roots hroots => ⟨layoutAll roots, ofNodes_eq_layoutAll hroots,
    copies_layoutAll roots, Loading.after_countAll roots, fun n hn => ?_⟩⟩
  have h := Loading.underWay_after (Nat.le_of_lt hn)
  exact ⟨h.added, (h.next hn).2⟩

/-- Two traces, the first with a transaction three levels down. -/
def TraceNode.twoTraces : List TraceNode :=
  [⟨default, [⟨{ (default : Transaction) with body := some (.other 7) }, [⟨default, []⟩]⟩,
    ⟨default, []⟩]⟩,
   ⟨{ (default : Transaction) with body := some (.excess 0) }, []⟩]

open TraceNode in
/-- The second root is numbered after everything below the first one. -/
theorem Forest.loading_copies_twoTraces : twoTraces ≠ [] ∧ countAll twoTraces = 5 ∧
    numbers 0 twoTraces = [0, 4] ∧ ∃ F, ofNodes twoTraces = .ok F ∧ F.Copies twoTraces ∧
      Loading.after twoTraces 5 = ⟨F, []⟩ ∧ F.children 0 = [1, 3] ∧ F.children 1 = [2] := by
  have hne : twoTraces ≠ [] := List.cons_ne_nil _ _
  obtain ⟨F, hF, hcopies, hafter, -⟩ := loading_copies.2 twoTraces hne
  obtain ⟨⟨⟨_, -, hroot⟩, ⟨⟨_, -, hchild⟩, -⟩, -⟩, -⟩ := hcopies.bubbles
  exact ⟨hne, rfl, rfl, F, hF, hcopies, hafter, children_eq hroot, children_eq hchild⟩

end TraceFold
