import TraceFold.Proofs.Catalog.Chain
import TraceFold.Proofs.Merging.Calls
import TraceFold.Proofs.Merging.Transactions
import TraceFold.Proofs.Saturation.Progress

/-!
# What can fail in the catalog

The builders of the standard catalog are prepared for payloads and bodies that are not as expected,
but never meet any: the checks of the same pattern have seen to that before.  In a chain of jetton
messages only the builder for the internal transfer can fail (`Chain.arrival_of_failed`).  That of a
mint does not, and that of a transfer fails for one reason only: neither wallet tells the jetton
master.

`builders_see_accepted` has all this for every pattern and every state of a run, with what it means
for the reports of a run with the standard catalog.
-/

namespace TraceFold

variable {α : Type} {F : Forest} {p q : Pattern α} {call : Call α} {rule : AnyRule}
  {r : Run} {id : BubbleId} {e : BuildError}

/-! ## Chains -/

/-- A call for a pattern of a transaction gets one, of which the other checks hold as well. -/
lemma Call.MadeBy.transaction {name : String} {checks : List Check} {children : List (Pattern α)}
    {optional : Bool} {build : α → Transaction → α × Option BuildError}
    (h : call.MadeBy p F id (.building name checks build children optional)) :
    ∃ tx, call.bubble.transaction? = some tx ∧ call.builder = .onTransaction build ∧
      call.result = build call.draft tx ∧ ∀ check ∈ checks, check call.bubble = true := by
  have htransaction := h.checks Check.isTransaction List.mem_cons_self
  rw [Check.isTransaction_eq] at htransaction
  obtain ⟨tx, htx⟩ := Option.isSome_iff_exists.1 htransaction
  have hbuilder : call.builder = .onTransaction build := (Option.some.inj h.builder).symm
  refine ⟨tx, htx, hbuilder, ?_, fun check hcheck => ?_⟩
  · rw [Call.result, hbuilder, Builder.onTransaction, Bubble.payload_of_transaction? htx]
  · exact h.checks check (List.mem_cons_of_mem _ hcheck)

lemma Transaction.carries_of_check {op : Operation} {b : Bubble} {tx : Transaction}
    (htx : b.transaction? = some tx) (h : Check.hasOperation op b = true) :
    tx.carries op = true := by
  rwa [Check.hasOperation_eq, htx] at h

namespace Chain

variable (k : Chain α)

lemma forall_sub {motive : Pattern α → Prop} (hpattern : motive k.pattern)
    (harrival : motive k.arrival) (hnotice : motive k.notice) (hexcess : motive Catalog.excess) :
    ∀ q, k.pattern.Sub q → motive q := by
  have hends : ∀ q ∈ [k.notice, Catalog.excess], ∀ r, q.Sub r → motive r := by
    intro q hq
    rcases List.mem_cons.1 hq with rfl | hq
    · exact Pattern.forall_sub_iff.2 ⟨hnotice, fun _ h => by cases h⟩
    · obtain rfl := List.mem_singleton.1 hq
      exact Pattern.forall_sub_iff.2 ⟨hexcess, fun _ h => by cases h⟩
  refine Pattern.forall_sub_iff.2 ⟨hpattern, fun q hq => ?_⟩
  obtain rfl : q = k.arrival := List.mem_singleton.1 hq
  exact Pattern.forall_sub_iff.2 ⟨harrival, hends⟩

variable [Target α]

/-- Of the calls for a chain only that for the internal transfer can fail. -/
theorem arrival_of_failed (hF : F.WellFormed) (h : call ∈ k.pattern.calls F id)
    (hfailed : call.result.2 = some e) : call.builder = .onTransaction k.onArrival ∧
      ∃ tx : Transaction, tx.carries .jettonInternalTransfer = true ∧
        (k.onArrival call.draft tx).2 = some e := by
  obtain ⟨q, hmade⟩ := Pattern.madeBy_of_mem_calls hF h
  have hsub := hmade.sub
  revert hmade
  refine k.forall_sub (motive := fun q => call.MadeBy k.pattern F id q → _) ?_ ?_ ?_ ?_ q hsub
  · intro hmade
    obtain ⟨tx, htx, -, hresult, hchecks⟩ := hmade.transaction
    have htop := k.checks_eq call.bubble tx htx
    rw [List.all_eq_true.2 hchecks] at htop
    rw [hresult, k.onTop_ok call.draft tx htop.symm] at hfailed
    cases hfailed
  · intro hmade
    obtain ⟨tx, htx, hbuilder, hresult, hchecks⟩ := hmade.transaction
    have hop := Transaction.carries_of_check htx (hchecks _ List.mem_cons_self)
    exact ⟨hbuilder, tx, hop, by rw [← hresult, hfailed]⟩
  · intro hmade
    obtain ⟨tx, htx, -, hresult, hchecks⟩ := hmade.transaction
    have hop := Transaction.carries_of_check htx (hchecks _ List.mem_cons_self)
    rw [hresult, k.onNotice_ok call.draft tx hop] at hfailed
    cases hfailed
  · intro hmade
    cases hmade.builder

end Chain

namespace Catalog

/-- What a transfer lacks if its merge fails. -/
def missingMaster : BuildError := .missingField "jetton master"

/-- A transfer fails for want of a jetton master only. -/
lemma JettonTransfer.failure_eq {call : Call TraceFold.JettonTransfer} (hF : F.WellFormed)
    (h : call ∈ pattern.calls F id) (hfailed : call.result.2 = some e) :
    call.builder = .onTransaction buildArrival ∧ e = missingMaster := by
  obtain ⟨hbuilder, tx, -, hfailed⟩ := chain.arrival_of_failed hF h hfailed
  refine ⟨hbuilder, ?_⟩
  change (buildArrival call.draft tx).2 = some e at hfailed
  rw [buildArrival] at hfailed
  dsimp only at hfailed
  split at hfailed
  · split at hfailed
    · cases hfailed
    · exact (Option.some.inj hfailed).symm
  · cases hfailed

/-- No call for a mint fails. -/
lemma JettonMint.result_ok {call : Call TraceFold.JettonMint} (hF : F.WellFormed)
    (h : call ∈ pattern.calls F id) : call.result.2 = none := by
  cases hresult : call.result.2 with
  | none => rfl
  | some e =>
    obtain ⟨-, tx, hop, hfailed⟩ := chain.arrival_of_failed hF h hresult
    obtain ⟨body, hbody, hoperation⟩ := Transaction.exists_body hop
    cases body <;> cases hoperation
    change (buildArrival call.draft tx).2 = some e at hfailed
    rw [buildArrival, hbody] at hfailed
    cases hfailed

lemma JettonMint.merge_silent (hF : F.WellFormed) (id : BubbleId) :
    Event.reports (pattern.merge F id).events = [] := by
  rcases Pattern.merge_reports pattern F id with hno | ⟨call, hcall, e, hfailed, -⟩
  · exact hno
  · rw [result_ok hF hcall] at hfailed
    cases hfailed

/-- The report of a transfer without a jetton master, at a bubble of a forest. -/
def ReportsMissingMaster (F : Forest) (report : Report) : Prop :=
  ∃ id, F.contains id = true ∧ report = JettonTransfer.pattern.failureReport F id missingMaster

/-- No other report comes of a merge of the standard catalog. -/
lemma reports_of_merge (hF : F.WellFormed) (hrule : rule ∈ standard) {report : Report}
    (h : report ∈ Event.reports (rule.merge F id).events) : ReportsMissingMaster F report := by
  rcases mem_standard.1 hrule with rfl | rfl
  · change report ∈ Event.reports (JettonTransfer.pattern.merge F id).events at h
    rcases Pattern.merge_reports JettonTransfer.pattern F id with
      hno | ⟨call, hcall, e, hfailed, hr⟩
    · rw [hno] at h; cases h
    · obtain ⟨-, rfl⟩ := JettonTransfer.failure_eq hF hcall hfailed
      rw [hr, List.mem_singleton] at h
      obtain ⟨q, hmade⟩ := Pattern.madeBy_of_mem_calls hF hcall
      exact ⟨call.id, Forest.contains_of_get? hmade.bubble, h⟩
  · change report ∈ Event.reports (JettonMint.pattern.merge F id).events at h
    rw [JettonMint.merge_silent hF] at h
    cases h

end Catalog

/-! ## Whole runs -/

/-- A visit adds the reports of its merge, if one is tried. -/
lemma Run.visit_reports (r : Run) (index : Nat) (rule : AnyRule) (id : BubbleId) :
    Event.reports (r.visit index rule id).events = Event.reports r.events ∨
      Event.reports (r.visit index rule id).events =
        Event.reports r.events ++ Event.reports (rule.merge r.forest id).events := by
  unfold visit
  split
  · exact .inr (Event.reports_append _ _)
  · exact .inl rfl

/-- All that was reported up to a state of a run is of this kind, for that state or earlier ones. -/
def Run.OnlyMissingMaster (F : Forest) (r : Run) : Prop :=
  Reached Catalog.standard F r ∧ ∀ report ∈ Event.reports r.events,
    ∃ r', Reached Catalog.standard F r' ∧ Catalog.ReportsMissingMaster r'.forest report

lemma Saturation.onlyMissingMaster_ofForest (hF : F.WellFormed) (n : Nat) :
    Run.OnlyMissingMaster F (ofForest Catalog.standard n F).run := by
  refine ofForest_induction ?_ ?_ ?_ ⟨.start, fun _ h => by cases h⟩ n
  · intro r index rule id hrule ⟨hreached, hsofar⟩
    refine ⟨hreached.visit hrule id, fun report hreport => ?_⟩
    rcases Run.visit_reports r index rule id with hsame | hmore
    · exact hsofar report (hsame ▸ hreport)
    · rw [hmore, List.mem_append] at hreport
      rcases hreport with hold | hnew
      · exact hsofar report hold
      · exact ⟨r, hreached, Catalog.reports_of_merge (hreached.wellFormed hF)
          (List.mem_of_getElem? hrule) hnew⟩
  · intro r r' hsilent ⟨hreached, hsofar⟩
    exact ⟨hreached.silent hsilent, hsilent.reports ▸ hsofar⟩
  · intro r counts ⟨hreached, hsofar⟩
    exact ⟨.record (by rfl) (by rfl) hreached, hsofar⟩

/-- Builders are called on bubbles that their own patterns claimed and accept, so that a builder for
transactions sees nothing else, if its pattern needs one; this is so at every state that a run can
be in.  In runs with the standard catalog no builder finds another body than it expects, a mint
reports nothing, and a transfer fails and is reported for want of a jetton master only. -/
theorem builders_see_accepted :
    (∀ {α : Type} (c : Claims α) (F : Forest) ids draft,
      (c.buildNoted F ids draft).2 = c.build F ids draft) ∧
    (∀ {α : Type} [Target α] (p : Pattern α) (F : Forest), F.WellFormed → ∀ id,
      ∀ call ∈ p.calls F id, ∃ q, call.MadeBy p F id q) ∧
    (∀ {α : Type} [Target α] (p : Pattern α), p.GuardsBuilders →
      ∀ (rules : Rules) (F : Forest), F.WellFormed → ∀ r, Run.Reached rules F r → ∀ id,
        ∀ call ∈ p.calls r.forest id, ∀ build, call.builder = .onTransaction build →
          ∃ tx, call.bubble.payload = .transaction tx ∧ call.result = build call.draft tx) ∧
    ∀ F : Forest, F.WellFormed →
      (∀ r, Run.Reached Catalog.standard F r → ∀ id,
        (∀ call ∈ Catalog.JettonTransfer.pattern.calls r.forest id, ∀ e, call.result.2 = some e →
          call.builder = .onTransaction Catalog.JettonTransfer.buildArrival ∧
            e = .missingField "jetton master") ∧
        (∀ call ∈ Catalog.JettonMint.pattern.calls r.forest id, call.result.2 = none) ∧
        Event.reports (Catalog.JettonMint.pattern.merge r.forest id).events = []) ∧
      ∀ maxPasses, ∀ report ∈ (Saturation.ofForest Catalog.standard maxPasses F).reports,
        ∃ r id, Run.Reached Catalog.standard F r ∧ r.forest.contains id = true ∧
          report = Catalog.JettonTransfer.pattern.failureReport r.forest id
            (.missingField "jetton master") := by
  refine ⟨Claims.buildNoted_snd, fun p F hF id call hcall => ?_, ?_, fun F hF => ⟨?_, ?_⟩⟩
  · exact Pattern.madeBy_of_mem_calls hF hcall
  · intro α _ p hp rules F hF r hreached id call hcall build hbuild
    exact Pattern.transaction_of_guarded (hreached.wellFormed hF) hp hcall hbuild
  · intro r hreached id
    have hwf := hreached.wellFormed hF
    refine ⟨fun call hcall e hfailed => ?_, fun call hcall => ?_, ?_⟩
    · exact Catalog.JettonTransfer.failure_eq hwf hcall hfailed
    · exact Catalog.JettonMint.result_ok hwf hcall
    · exact Catalog.JettonMint.merge_silent hwf id
  · intro n report hreport
    obtain ⟨r, hreached, id, hlive, heq⟩ :=
      (Saturation.onlyMissingMaster_ofForest hF n).2 report hreport
    exact ⟨r, id, hreached, hlive, heq⟩

open Catalog Saturation in
/-- A transfer whose first wallet does not tell the master: its builder is called there and fails,
which is the one report of the run. -/
theorem builders_see_accepted_lateMaster : lateMaster.WellFormed ∧
    (∃ call ∈ JettonTransfer.pattern.calls lateMaster 0, ∃ q tx,
      call.MadeBy JettonTransfer.pattern lateMaster 0 q ∧
      call.builder = .onTransaction JettonTransfer.buildArrival ∧
      call.bubble.payload = .transaction tx ∧
      call.result = JettonTransfer.buildArrival call.draft tx ∧
      call.result.2 = some (.missingField "jetton master")) ∧
    ∃ report r id, (ofForest standard 16 lateMaster).reports = [report] ∧
      Run.Reached standard lateMaster r ∧ r.forest.contains id = true ∧
      report = JettonTransfer.pattern.failureReport r.forest id
        (.missingField "jetton master") := by
  have hF : lateMaster.WellFormed := by decide
  obtain ⟨-, hmade, htransaction, hcatalog⟩ := builders_see_accepted
  obtain ⟨hcalls, hreports⟩ := hcatalog lateMaster hF
  refine ⟨hF, ?_, ?_⟩
  · have hany : (JettonTransfer.pattern.calls lateMaster 0).any
        (fun call => call.result.2 == some (.missingField "jetton master")) = true := by
      decide +kernel
    obtain ⟨call, hcall, hfailed⟩ := List.any_eq_true.1 hany
    obtain ⟨q, hq⟩ := hmade JettonTransfer.pattern lateMaster hF 0 call hcall
    obtain ⟨hbuilder, -⟩ :=
      (hcalls (.start lateMaster) .start 0).1 call hcall _ (beq_iff_eq.1 hfailed)
    obtain ⟨tx, hpayload, hresult⟩ := htransaction JettonTransfer.pattern
      JettonTransfer.pattern_takesTransactions.guardsBuilders standard lateMaster hF
      (.start lateMaster) .start 0 call hcall _ hbuilder
    exact ⟨call, hcall, q, tx, hq, hbuilder, hpayload, hresult, beq_iff_eq.1 hfailed⟩
  · have hone : (ofForest standard 16 lateMaster).reports.length = 1 := by decide +kernel
    obtain ⟨report, hreport⟩ := List.length_eq_one_iff.1 hone
    obtain ⟨r, id, hreached, hlive, heq⟩ := hreports 16 report (by rw [hreport]; simp)
    exact ⟨report, r, id, hreport, hreached, hlive, heq⟩

end TraceFold
