import TraceFold.Proofs.Merging.Effect
import TraceFold.Saturation

/-!
# What the rules do not look at

Much of what a bubble holds is only carried along: its accounts and its flow, interfaces, amounts,
fees and times of transactions, and several fields of message bodies.  `Payload.bare` is a payload
without all that, and payloads agree (`Payload.Agree`) if they are the same when bare.

A check is blind if it cannot tell bubbles apart whose payloads agree, and a builder if it makes
drafts that agree out of drafts that agree.  The patterns of the standard catalog have blind checks
and blind builders throughout (`Catalog.standard_blind`).
-/

namespace TraceFold

variable {α : Type} {p : Pattern α}

/-! ## Without what is only carried along -/

def noJettons : JettonAmount := ⟨0, by decide⟩

/-- The body without query ids, the accounts that messages come from or answers go to, the coins
that are passed on, and the amount in a notice; a body that is passed on is bare as well. -/
def Body.bare : Body → Body
  | jettonTransfer ⟨_, amount, destination, _, _, none⟩ =>
    jettonTransfer ⟨0, amount, destination, none, 0, none⟩
  | jettonTransfer ⟨_, amount, destination, _, _, some b⟩ =>
    jettonTransfer ⟨0, amount, destination, none, 0, some b.bare⟩
  | jettonInternalTransfer transfer => jettonInternalTransfer ⟨0, transfer.amount, none, none, 0⟩
  | jettonNotify ⟨_, _, _, none⟩ => jettonNotify ⟨0, noJettons, none, none⟩
  | jettonNotify ⟨_, _, _, some b⟩ => jettonNotify ⟨0, noJettons, none, some b.bare⟩
  | excess _ => excess 0
  | jettonBurn request => jettonBurn ⟨0, request.amount, none⟩
  | textComment text => textComment text
  | encryptedComment comment => encryptedComment comment
  | other opcode => other opcode

/-- The account without its interfaces. -/
def Account.bare (a : Account) : Account := .ofAddress a.address

/-- The transaction without interfaces, amount, fees and time, and with a bare body. -/
def Transaction.bare (tx : Transaction) : Transaction where
  account := tx.account.bare
  source := tx.source.map Account.bare
  opcode := tx.opcode
  body := tx.body.map Body.bare
  success := tx.success
  amount := 0
  fees := 0
  jettonMaster := tx.jettonMaster
  time := default

/-- The transfer without interfaces. -/
def JettonTransfer.bare (t : JettonTransfer) : JettonTransfer :=
  { t with sender := t.sender.map Account.bare, recipient := t.recipient.map Account.bare }

/-- The mint without interfaces. -/
def JettonMint.bare (m : JettonMint) : JettonMint := { m with recipient := m.recipient.bare }

namespace Payload

/-- The payload without what is only carried along. -/
def bare : Payload → Payload
  | transaction tx => transaction tx.bare
  | jettonTransfer t => jettonTransfer t.bare
  | jettonMint m => jettonMint m.bare

/-- The payloads differ at most in what is only carried along. -/
def Agree (a a' : Payload) : Prop := a.bare = a'.bare

variable {a a' : Payload}

lemma Agree.refl (a : Payload) : a.Agree a := rfl

end Payload

namespace Body

lemma bare_jettonTransfer (r : TransferRequest Body) : (jettonTransfer r).bare =
    jettonTransfer ⟨0, r.amount, r.destination, none, 0, r.forwardPayload.map bare⟩ := by
  obtain ⟨_, _, _, _, _, _ | b⟩ := r <;> rw [bare] <;> rfl

lemma bare_jettonNotify (r : TransferNotice Body) : (jettonNotify r).bare =
    jettonNotify ⟨0, noJettons, none, r.forwardPayload.map bare⟩ := by
  obtain ⟨_, _, _, _ | b⟩ := r <;> rw [bare] <;> rfl

@[simp] lemma bare_bare (b : Body) : b.bare.bare = b.bare := by
  fun_induction bare b <;> simp_all [bare]

@[simp] lemma operation_bare (b : Body) : b.bare.operation = b.operation := by
  cases b with
  | jettonTransfer r => rw [bare_jettonTransfer]; rfl
  | jettonNotify r => rw [bare_jettonNotify]; rfl
  | textComment _ | encryptedComment _ | other _ => rw [bare]
  | jettonInternalTransfer _ | excess _ | jettonBurn _ => rw [bare]; rfl

@[simp] lemma ofBody?_bare (b : Body) : Note.ofBody? b.bare = Note.ofBody? b := by
  cases b with
  | jettonTransfer r => rw [bare_jettonTransfer]; rfl
  | jettonNotify r => rw [bare_jettonNotify]; rfl
  | textComment _ | encryptedComment _ | other _ => rw [bare]
  | jettonInternalTransfer _ | excess _ | jettonBurn _ => rw [bare]; rfl

@[simp] lemma bind_ofBody?_bare (b : Option Body) :
    (b.map bare).bind Note.ofBody? = b.bind Note.ofBody? := by
  cases b <;> simp

end Body

@[simp] lemma Account.bare_bare (a : Account) : a.bare.bare = a.bare := rfl

@[simp] lemma Transaction.operation?_bare (tx : Transaction) :
    tx.bare.operation? = tx.operation? := by
  simp [operation?, bare, Function.comp_def]

lemma Transaction.body_bare (tx : Transaction) : tx.bare.body = tx.body.map Body.bare := rfl

lemma Account.bare_eq_iff {a a' : Account} : a.bare = a'.bare ↔ a.address = a'.address := by
  simp [bare, ofAddress]

lemma Account.map_bare_eq_iff {a a' : Option Account} :
    a.map Account.bare = a'.map Account.bare ↔
      a.map Account.address = a'.map Account.address := by
  cases a <;> cases a' <;> simp [bare_eq_iff]

/-- A transfer is bare as it is when it is handed out. -/
lemma JettonTransfer.bare_eq_iff {t t' : JettonTransfer} :
    t.bare = t'.bare ↔ t.toAction = t'.toAction := by
  simp only [bare, toAction, mk.injEq, Action.mk.injEq, ActionDetails.jettonTransfer.injEq,
    Account.map_bare_eq_iff]
  tauto

/-- So is a mint. -/
lemma JettonMint.bare_eq_iff {m m' : JettonMint} :
    m.bare = m'.bare ↔ m.toAction = m'.toAction := by
  simp only [bare, toAction, mk.injEq, Action.mk.injEq, ActionDetails.jettonMint.injEq,
    Account.bare_eq_iff]
  tauto

namespace Payload

@[simp] lemma kind_bare (a : Payload) : a.bare.kind = a.kind := by
  cases a <;> rfl

lemma agree_bare (a : Payload) : a.Agree a.bare := by
  cases a <;>
    simp [Agree, bare, Transaction.bare, JettonTransfer.bare, JettonMint.bare, Function.comp_def]

lemma Agree.kind {a a' : Payload} (h : a.Agree a') : a.kind = a'.kind := by
  rw [← kind_bare a, ← kind_bare a', h]

/-- Payloads of different kinds never agree; actions agree if they are handed out the same. -/
lemma agree_iff {a a' : Payload} : a.Agree a' ↔
    match a, a' with
    | transaction tx, transaction tx' => tx.bare = tx'.bare
    | jettonTransfer t, jettonTransfer t' => t.toAction = t'.toAction
    | jettonMint m, jettonMint m' => m.toAction = m'.toAction
    | _, _ => False := by
  cases a <;> cases a' <;>
    simp [Agree, bare, JettonTransfer.bare_eq_iff, JettonMint.bare_eq_iff]

/-- Actions that agree are handed out in the same form. -/
lemma Agree.action? {a a' : Payload} (h : a.Agree a') : a.action? = a'.action? := by
  rw [agree_iff] at h
  unfold Payload.action?
  cases a <;> cases a' <;> simp_all

end Payload

/-! ## Blind patterns -/

/-- The check cannot tell bubbles apart whose payloads agree. -/
def Check.Blind (check : Check) : Prop :=
  ∀ b b' : Bubble, b.payload.Agree b'.payload → check b = check b'

namespace Check

lemma onTransaction_blind {test : Transaction → Bool} (h : ∀ tx, test tx.bare = test tx) :
    (onTransaction test).Blind := by
  intro b b' hagree
  unfold onTransaction
  generalize b.payload = a at hagree ⊢
  generalize b'.payload = a' at hagree ⊢
  rcases a with tx | t | m <;> rcases a' with tx' | t' | m'
  case transaction.transaction =>
    have htx : tx.bare = tx'.bare := Payload.transaction.inj hagree
    show test tx = test tx'
    rw [← h tx, ← h tx', htx]
  all_goals first | rfl | cases hagree

lemma isTransaction_blind : Check.isTransaction.Blind := by
  intro b b' h
  rw [isTransaction, isTransaction, h.kind]

lemma hasOpcode_blind (opcode : UInt32) : (hasOpcode opcode).Blind :=
  onTransaction_blind fun _ => rfl

lemma hasOperation_blind (op : Operation) : (hasOperation op).Blind :=
  onTransaction_blind fun tx => by rw [Transaction.carries, tx.operation?_bare]; rfl

lemma either_blind {first second : Check} (h : first.Blind) (h' : second.Blind) :
    (either first second).Blind := by
  intro b b' hagree
  rw [either, either, h b b' hagree, h' b b' hagree]

end Check

section Builders

variable [Target α]

/-- Drafts that agree lead to drafts that agree, and to the same failure, if any. -/
def Builder.Blind (build : Builder α) : Prop :=
  ∀ (d d' : α) (b b' : Bubble), (Target.payload d).Agree (Target.payload d') →
    b.payload.Agree b'.payload →
      (Target.payload (build d b).1).Agree (Target.payload (build d' b').1) ∧
      (build d b).2 = (build d' b').2

/-- All checks and builders of a pattern and its sub-patterns are blind. -/
inductive Pattern.Blind : Pattern α → Prop
  | intro {p : Pattern α} (checks : ∀ check ∈ p.checks, check.Blind)
      (builder : ∀ build, p.builder = some build → build.Blind)
      (children : ∀ q ∈ p.children, Blind q) : Blind p

/-- To be blind, a builder has only to give the same if everything is made bare before. -/
lemma Builder.onTransaction_blind {build : α → Transaction → α × Option BuildError} {bare : α → α}
    (hbare : ∀ d d' : α, (Target.payload d).Agree (Target.payload d') ↔ bare d = bare d')
    (hbuild : ∀ d tx, build (bare d) tx.bare = (bare (build d tx).1, (build d tx).2)) :
    (Builder.onTransaction build).Blind := by
  intro d d' b b' hd hagree
  have hkind := hagree.kind
  unfold Builder.onTransaction
  unfold Payload.Agree at hagree
  cases hb : b.payload with
  | transaction tx =>
    cases hb' : b'.payload with
    | transaction tx' =>
      rw [hb, hb'] at hagree
      have htx : tx.bare = tx'.bare := Payload.transaction.inj hagree
      have hsame := hbuild d tx
      rw [(hbare d d').1 hd, htx, hbuild d' tx', Prod.mk.injEq] at hsame
      exact ⟨(hbare _ _).2 hsame.1.symm, hsame.2.symm⟩
    | _ => rw [hb, hb'] at hkind; cases hkind
  | _ =>
    rw [hb] at hkind
    cases hb' : b'.payload <;> rw [hb'] at hkind <;> first | exact ⟨hd, rfl⟩ | cases hkind

lemma Pattern.building_blind {name : String} {checks : List Check}
    {build : α → Transaction → α × Option BuildError} {children : List (Pattern α)}
    {optional : Bool} (hchecks : ∀ check ∈ checks, check.Blind)
    (hbuild : (Builder.onTransaction build).Blind) (hchildren : ∀ q ∈ children, q.Blind) :
    (building name checks build children optional).Blind := by
  refine .intro ?_ ?_ hchildren
  · intro check hcheck
    rcases List.mem_cons.1 hcheck with rfl | hcheck
    · exact Check.isTransaction_blind
    · exact hchecks check hcheck
  · rintro _ ⟨⟩
    exact hbuild

end Builders

def AnyRule.Blind (rule : AnyRule) : Prop := rule.pattern.Blind

namespace Catalog

lemma unexpectedBody_bare (op : Operation) (tx : Transaction) :
    unexpectedBody op tx.bare = unexpectedBody op tx := by
  rw [unexpectedBody, tx.operation?_bare, unexpectedBody]

lemma excess_blind [Target α] : (excess : Pattern α).Blind := by
  refine .intro ?_ nofun nofun
  simp only [excess, List.mem_cons, List.not_mem_nil, or_false]
  rintro check (rfl | rfl)
  · exact Check.isTransaction_blind
  · exact Check.hasOperation_blind _

namespace JettonTransfer

lemma agree_iff (t t' : TraceFold.JettonTransfer) :
    (Target.payload t).Agree (Target.payload t') ↔ t.bare = t'.bare := by
  simp [Target.payload, Payload.Agree, Payload.bare]

lemma buildRequest_bare (t : TraceFold.JettonTransfer) (tx : Transaction) :
    buildRequest t.bare tx.bare = ((buildRequest t tx).1.bare, (buildRequest t tx).2) := by
  unfold buildRequest
  rw [unexpectedBody_bare, Transaction.body_bare]
  rcases tx.body with _ | body
  · rfl
  · cases body with
    | jettonTransfer request =>
      simp [Body.bare_jettonTransfer, TraceFold.JettonTransfer.bare, Transaction.bare,
        Account.bare, Account.ofAddress]
    | _ => simp [Body.bare, Body.bare_jettonNotify]

lemma buildArrival_bare (t : TraceFold.JettonTransfer) (tx : Transaction) :
    buildArrival t.bare tx.bare = ((buildArrival t tx).1.bare, (buildArrival t tx).2) := by
  unfold buildArrival
  by_cases hzero : t.master.isZero = true
  · have hmaster : tx.bare.jettonMaster = tx.jettonMaster := rfl
    simp only [TraceFold.JettonTransfer.bare, hzero, hmaster, if_true]
    cases tx.jettonMaster <;> rfl
  · simp only [TraceFold.JettonTransfer.bare, hzero]
    rfl

lemma buildNotice_bare (t : TraceFold.JettonTransfer) (tx : Transaction) :
    buildNotice t.bare tx.bare = ((buildNotice t tx).1.bare, (buildNotice t tx).2) := by
  unfold buildNotice
  rw [unexpectedBody_bare, Transaction.body_bare]
  rcases tx.body with _ | body
  · rfl
  · cases body with
    | jettonNotify notice =>
      simp [Body.bare_jettonNotify, TraceFold.JettonTransfer.bare, Transaction.bare]
    | _ => simp [Body.bare, Body.bare_jettonTransfer]

lemma pattern_blind : pattern.Blind := by
  have hnotice : notice.Blind := Pattern.building_blind
    (by simpa using Check.hasOperation_blind _)
    (Builder.onTransaction_blind agree_iff buildNotice_bare) nofun
  have harrival : arrival.Blind := Pattern.building_blind
    (by simpa using Check.hasOperation_blind _)
    (Builder.onTransaction_blind agree_iff buildArrival_bare)
    (by simpa using ⟨hnotice, excess_blind⟩)
  exact Pattern.building_blind (by simpa using Check.hasOperation_blind _)
    (Builder.onTransaction_blind agree_iff buildRequest_bare) (by simpa using harrival)

end JettonTransfer

namespace JettonMint

lemma agree_iff (m m' : TraceFold.JettonMint) :
    (Target.payload m).Agree (Target.payload m') ↔ m.bare = m'.bare := by
  simp [Target.payload, Payload.Agree, Payload.bare]

lemma buildArrival_bare (m : TraceFold.JettonMint) (tx : Transaction) :
    buildArrival m.bare tx.bare = ((buildArrival m tx).1.bare, (buildArrival m tx).2) := by
  unfold buildArrival
  rw [unexpectedBody_bare, Transaction.body_bare]
  rcases tx.body with _ | body
  · rfl
  · cases body with
    | jettonInternalTransfer transfer => rfl
    | _ => simp [Body.bare, Body.bare_jettonTransfer, Body.bare_jettonNotify]

lemma pattern_blind : pattern.Blind := by
  have hnotice : notice.Blind := Pattern.building_blind
    (by simpa using Check.hasOperation_blind _)
    (Builder.onTransaction_blind agree_iff fun _ _ => rfl) nofun
  have harrival : arrival.Blind := Pattern.building_blind
    (by simpa using Check.hasOperation_blind _)
    (Builder.onTransaction_blind agree_iff buildArrival_bare)
    (by simpa using ⟨hnotice, excess_blind⟩)
  refine Pattern.building_blind ?_ (Builder.onTransaction_blind agree_iff fun _ _ => rfl)
    (by simpa using harrival)
  simpa using Check.either_blind (Check.hasOpcode_blind _) (Check.hasOpcode_blind _)

end JettonMint

/-- The rules of the standard catalog are blind. -/
lemma standard_blind : ∀ rule ∈ standard, rule.Blind := by
  intro rule hrule
  rcases mem_standard.1 hrule with rfl | rfl
  · exact JettonTransfer.pattern_blind
  · exact JettonMint.pattern_blind

end Catalog
end TraceFold
