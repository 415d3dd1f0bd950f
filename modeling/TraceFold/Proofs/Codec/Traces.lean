import TraceFold.Proofs.Codec.RoundTrip
import TraceFold.Proofs.Trace.Layout

/-!
# Traces that are read back

A trace is loaded from its own document as it would be loaded directly, if the document is not
nested too deeply.  Every generation takes two levels of it, one for the node and one for the list
of its children, and below the last generation there are two more, for the transaction and its
account, as long as no body is decoded (`TraceNode.ofJson_toJson`).

So the limit on the nesting of documents is a limit on generations: an array may hold 62 of them,
and a document that is a single root 63.  What goes beyond is refused as too deep
(`Forest.traces_load`), although nothing else in loading a trace has such a limit.
-/

namespace TraceFold

open Json (Decoded)

variable {n : Nat}

/-! ## Transactions -/

/-- Two levels are needed for a transaction, one for itself and one for its account. -/
lemma Transaction.ofJson_tooDeep (tx : Transaction) (h : n < 2) :
    ofJson n tx.toJson = .error .tooDeep := by
  obtain rfl | rfl : n = 0 ∨ n = 1 := by omega
  · rfl
  · refine (Json.readRecord_record_eq rfl (by simp) default).trans ?_
    rfl

namespace TraceNode

/-! ## Documents of traces -/

mutual

/-- The generations of a trace: that of its own transaction and those that come after it. -/
def generations : TraceNode → Nat
  | ⟨_, children⟩ => generationsAll children + 1

def generationsAll : List TraceNode → Nat
  | [] => 0
  | node :: nodes => max (generations node) (generationsAll nodes)

end

/-- The document of several roots. -/
def rootsToJson (roots : List TraceNode) : Json := .list (roots.map toJson)

lemma itemsToJson_eq (nodes : List TraceNode) :
    itemsToJson nodes = .ofList .done (nodes.map toJson) := by
  induction nodes with
  | nil => rfl
  | cons node nodes ih => rw [itemsToJson, ih]; rfl

lemma toJson_eq (tx : Transaction) (children : List TraceNode) : toJson ⟨tx, children⟩ =
    .record [("transaction", tx.toJson), ("children", rootsToJson children)] := by
  rw [toJson, itemsToJson_eq]
  rfl

mutual

lemma written_toJson : ∀ node : TraceNode, node.toJson.Written
  | ⟨tx, children⟩ => by
    rw [toJson_eq]
    refine .record ?_
    have hchildren : (rootsToJson children).Written :=
      .list (by simpa using written_of_mem children)
    simp [tx.written_toJson, hchildren]

lemma written_of_mem : ∀ nodes : List TraceNode, ∀ node ∈ nodes, node.toJson.Written
  | [] => by simp
  | node :: nodes => List.forall_mem_cons.2 ⟨written_toJson node, written_of_mem nodes⟩

end

lemma written_rootsToJson (roots : List TraceNode) : (rootsToJson roots).Written :=
  .list (by simpa using written_of_mem roots)

/-! ## Levels -/

/-- Inside a node its transaction is read, and then its children. -/
lemma ofJson_add_two (n : Nat) (tx : Transaction) (children : List TraceNode) :
    ofJson (n + 2) (toJson ⟨tx, children⟩) = (do
      let tx ← Transaction.ofJson (n + 1) tx.toJson
      let children ← Json.readItems (ofJson n) (.ofList .done (children.map toJson))
      .ok ⟨tx, children⟩) := by
  have hfill : ofJson (n + 2) (toJson ⟨tx, children⟩) =
      Json.fill ((fields (n + 1) (Json.readList (some (ofJson n)))).zip
        [tx.toJson, rootsToJson children]) default := by
    rw [toJson_eq, ofJson]
    exact Json.readRecord_record_eq rfl (by simp) default
  have hlist : Json.readList (some (ofJson n)) (rootsToJson children) =
      Json.readItems (ofJson n) (.ofList .done (children.map toJson)) := rfl
  rw [hfill, ← hlist]
  simp only [fields, List.zip_cons_cons, Json.fill, Json.Field.require, Json.Field.optional]
  cases Transaction.ofJson (n + 1) tx.toJson with
  | error e => rfl
  | ok tx => cases Json.readList (some (ofJson n)) (rootsToJson children) <;> rfl

mutual

/-- A trace without bodies is decoded from its own document if the levels that are left suffice for
its generations, and is too deep otherwise. -/
theorem ofJson_toJson : ∀ (node : TraceNode) (n : Nat),
    (∀ tx ∈ node.transactions, tx.body = none) →
      ofJson n node.toJson =
        if 2 * node.generations + 1 ≤ n then .ok node else .error .tooDeep
  | ⟨tx, children⟩, n, h => by
    rw [transactions, List.forall_mem_cons] at h
    obtain ⟨hbody, hchildren⟩ := h
    rw [generations]
    obtain _ | _ | n := n
    · rw [if_neg (by omega)]
      rfl
    · rw [if_neg (by omega), toJson_eq]
      exact (Json.readRecord_record_eq rfl (by simp) default).trans rfl
    · rw [ofJson_add_two]
      by_cases hn : n + 1 < 2
      · rw [tx.ofJson_tooDeep hn, if_neg (by omega)]
        rfl
      · obtain ⟨n, rfl⟩ : ∃ k, n = k + 1 := ⟨n - 1, by omega⟩
        have htx : Transaction.ofJson (n + 2) tx.toJson = .ok tx :=
          Transaction.ofJson_toJson fun b hb => nomatch hbody.symm.trans hb
        have hitems := readItems_toJson children (n + 1) hchildren
        rw [htx, hitems]
        by_cases hdeep : 2 * generationsAll children ≤ n
        · rw [if_pos (by omega), if_pos (by omega)]
          rfl
        · rw [if_neg (by omega), if_neg (by omega)]
          rfl

theorem readItems_toJson : ∀ (nodes : List TraceNode) (n : Nat),
    (∀ tx ∈ transactionsAll nodes, tx.body = none) →
      Json.readItems (ofJson n) (.ofList .done (nodes.map toJson)) =
        if 2 * generationsAll nodes ≤ n - 1 then .ok nodes else .error .tooDeep
  | [], n, _ => by
    rw [generationsAll, if_pos (Nat.zero_le _)]
    rfl
  | node :: nodes, n, h => by
    rw [transactionsAll, List.forall_mem_append] at h
    rw [List.map_cons, JsonItems.ofList, Json.readItems, ofJson_toJson node n h.1,
      readItems_toJson nodes n h.2, generationsAll]
    have hpos : 0 < node.generations := by cases node; rw [generations]; omega
    by_cases hnode : 2 * node.generations + 1 ≤ n
    · rw [if_pos hnode]
      by_cases hnodes : 2 * generationsAll nodes ≤ n - 1
      · rw [if_pos hnodes, if_pos (by omega)]
        rfl
      · rw [if_neg hnodes, if_neg (by omega)]
        rfl
    · rw [if_neg hnode]
      exact (if_neg (by omega)).symm

end

end TraceNode

namespace Forest

/-! ## Loading -/

lemma decodeRoots_rootsToJson (roots : List TraceNode) :
    decodeRoots (TraceNode.rootsToJson roots).render =
      TraceNode.rootsOfJson Json.maxLevels (TraceNode.rootsToJson roots) := by
  have hbegin : Text.trimStart (TraceNode.rootsToJson roots).render.toList =
      '[' :: (Json.itemsChars (.ofList .done (roots.map TraceNode.toJson)) ++ [']']) := by
    rw [Json.render, String.toList_ofList, TraceNode.rootsToJson, Json.list, Json.chars]
    rfl
  rw [decodeRoots, hbegin]
  exact Json.decode_render (TraceNode.written_rootsToJson roots)

lemma decodeRoots_toJson (root : TraceNode) : decodeRoots root.toJson.render =
    (TraceNode.ofJson Json.maxLevels root.toJson).map ([·]) := by
  obtain ⟨members, hmembers⟩ : ∃ members, root.toJson = .record members := by
    obtain ⟨tx, children⟩ := root
    exact ⟨_, TraceNode.toJson_eq tx children⟩
  have hbegin : Text.trimStart root.toJson.render.toList =
      '{' :: (Json.membersChars (.ofList .done (Json.keyed members)) ++ ['}']) := by
    rw [Json.render, String.toList_ofList, hmembers, Json.record, Json.chars]
    rfl
  rw [decodeRoots, hbegin]
  exact congrArg (Except.map _) (Json.decode_render root.written_toJson)

lemma ofText_rootsToJson {roots : List TraceNode}
    (hbodies : ∀ tx ∈ TraceNode.transactionsAll roots, tx.body = none) :
    ofText (TraceNode.rootsToJson roots).render =
      if TraceNode.generationsAll roots ≤ 62 then ofNodes roots
      else .error (.undecodable .tooDeep) := by
  have hread : TraceNode.rootsOfJson Json.maxLevels (TraceNode.rootsToJson roots) =
      if 2 * TraceNode.generationsAll roots ≤ 125 then .ok roots else .error .tooDeep :=
    TraceNode.readItems_toJson roots 126 hbodies
  rw [ofText, decodeRoots_rootsToJson, hread]
  by_cases hdeep : TraceNode.generationsAll roots ≤ 62
  · rw [if_pos (by omega), if_pos hdeep]
  · rw [if_neg (by omega), if_neg hdeep]

lemma ofText_toJson {root : TraceNode} (hbodies : ∀ tx ∈ root.transactions, tx.body = none) :
    ofText root.toJson.render =
      if root.generations ≤ 63 then ofNodes [root] else .error (.undecodable .tooDeep) := by
  have hread : TraceNode.ofJson Json.maxLevels root.toJson =
      if 2 * root.generations + 1 ≤ 127 then .ok root else .error .tooDeep :=
    root.ofJson_toJson 127 hbodies
  rw [ofText, decodeRoots_toJson, hread]
  by_cases hdeep : root.generations ≤ 63
  · rw [if_pos (by omega), if_pos hdeep]
    rfl
  · rw [if_neg (by omega), if_neg hdeep]
    rfl

/-- Traces without bodies are loaded from their own document as they are loaded directly, if there
are at most 62 generations of them, and refused as too deep otherwise; where a single root stands
without the array, one generation more is taken. -/
theorem traces_load (roots : List TraceNode) (hroots : roots ≠ [])
    (hbodies : ∀ tx ∈ TraceNode.transactionsAll roots, tx.body = none) :
    ∃ F, ofNodes roots = .ok F ∧
      ofText (TraceNode.rootsToJson roots).render =
        (if TraceNode.generationsAll roots ≤ 62 then .ok F else .error (.undecodable .tooDeep)) ∧
      ∀ root, roots = [root] → ofText root.toJson.render =
        if root.generations ≤ 63 then .ok F else .error (.undecodable .tooDeep) := by
  obtain ⟨F, hload, -⟩ := exists_ofNodes hroots
  refine ⟨F, hload, ?_, ?_⟩
  · rw [ofText_rootsToJson hbodies, hload]
  · rintro root rfl
    rw [ofText_toJson (by simpa [TraceNode.transactionsAll] using hbodies), hload]

/-- A trace in which every transaction but the last one causes one other, so often. -/
def lineage : Nat → TraceNode
  | 0 => ⟨default, []⟩
  | n + 1 => ⟨default, [lineage n]⟩

lemma generations_lineage (n : Nat) : (lineage n).generations = n + 1 := by
  induction n with
  | zero => rfl
  | succ n ih =>
    rw [lineage, TraceNode.generations, TraceNode.generationsAll, ih, TraceNode.generationsAll,
      Nat.max_zero]

lemma body_lineage (n : Nat) : ∀ tx ∈ (lineage n).transactions, tx.body = none := by
  have hown : (default : Transaction).body = none := rfl
  induction n with
  | zero => simpa [lineage, TraceNode.transactions, TraceNode.transactionsAll] using hown
  | succ n ih =>
    rw [lineage, TraceNode.transactions, TraceNode.transactionsAll, TraceNode.transactionsAll,
      List.append_nil]
    exact List.forall_mem_cons.2 ⟨hown, ih⟩

/-- Two roots with 62 generations in an array, and a root with 63 of them by itself. -/
theorem traces_load_lineage :
    (∃ F, ofNodes [lineage 61, lineage 3] = .ok F ∧
      ofText (TraceNode.rootsToJson [lineage 61, lineage 3]).render = .ok F) ∧
    ∃ F, ofNodes [lineage 62] = .ok F ∧ ofText (lineage 62).toJson.render = .ok F := by
  have hboth : ∀ tx ∈ TraceNode.transactionsAll [lineage 61, lineage 3], tx.body = none := by
    simpa [TraceNode.transactionsAll, or_imp, forall_and] using
      And.intro (body_lineage 61) (body_lineage 3)
  have hone : ∀ tx ∈ TraceNode.transactionsAll [lineage 62], tx.body = none := by
    simpa [TraceNode.transactionsAll] using body_lineage 62
  constructor
  · obtain ⟨F, hload, htext, -⟩ := traces_load [lineage 61, lineage 3] (by simp) hboth
    refine ⟨F, hload, htext.trans (if_pos ?_)⟩
    simp [TraceNode.generationsAll, generations_lineage]
  · obtain ⟨F, hload, -, htext⟩ := traces_load [lineage 62] (by simp) hone
    exact ⟨F, hload, (htext _ rfl).trans (if_pos (generations_lineage 62).le)⟩

/-- In an array that root of 63 generations is refused. -/
theorem lineage_refused : (∀ tx ∈ (lineage 62).transactions, tx.body = none) ∧
    (∃ F, ofNodes [lineage 62] = .ok F) ∧
    ofText (TraceNode.rootsToJson [lineage 62]).render = .error (.undecodable .tooDeep) := by
  have hbodies := body_lineage 62
  refine ⟨hbodies, ⟨_, rfl⟩, ?_⟩
  rw [ofText_rootsToJson (by simpa [TraceNode.transactionsAll] using hbodies), if_neg]
  simp [TraceNode.generationsAll, generations_lineage]

end Forest
end TraceFold
