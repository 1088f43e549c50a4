import Inec.Lib.Interference
import Inec.Lib.Runs
import Inec.Settlement.Machine

/-!
# What every settlement keeps

A request works on the copy of the row it read, so what it does later is only as good as what the copy
still has in common with the row. That is everything the table never changes, and the approval once it
is there. `WorldSound` says what holds of row, ledger and log at all times, `StageSound` what a request
may rely on in each stage, and `Grows` what the steps of the others can do to that.
-/

namespace Inec

open Checks

variable {lib : SettlementLib}

/-! ### The binding of a settlement -/

/-- The columns `guard_operational_settlement_commitment` keeps from changing, the others blanked out. -/
def SettlementRow.terms (r : SettlementRow) : SettlementRow :=
  { r with
    approvedBy := none
    status := .requested
    tigerBeetleTransferId := none
    mojaloopQuoteId := none
    mojaloopTransferId := none
    externalReceiptSha256 := none
    failureCode := none }

/-- A column that is among the terms is the same in rows with the same terms. -/
theorem eq_of_terms {α : Type} (column : SettlementRow → α) (hcolumn : ∀ r, column r.terms = column r)
    {r r' : SettlementRow} (h : r'.terms = r.terms) : column r' = column r := by
  rw [← hcolumn r', h, hcolumn r]

/-- The row has the requester, amount, recipient and evidence of a request that was validated. -/
def BoundTo (lib : SettlementLib) (r : SettlementRow) (ev : SettlementEvent) : Prop :=
  ∃ env raw req, ev = .created env r.requestedBy raw ∧ validateOperationalSettlementRequest lib env raw = .ok req ∧
    r.amountMinor = req.amountMinor ∧ r.recipientReferenceSha256 = lib.sha256LowerHex req.recipientReference ∧
    r.evidenceSha256 = req.evidenceSha256

theorem BoundTo.terms {r r' : SettlementRow} {ev : SettlementEvent} (h : BoundTo lib r ev)
    (heq : r'.terms = r.terms) : BoundTo lib r' ev := by
  obtain ⟨env, raw, req, hev, hreq, hamount, hrecipient, hevidence⟩ := h
  have hrequested : r'.requestedBy = r.requestedBy := eq_of_terms (·.requestedBy) (fun _ => rfl) heq
  refine ⟨env, raw, req, by rw [hrequested]; exact hev, hreq, ?_, ?_, ?_⟩
  · exact (eq_of_terms (·.amountMinor) (fun _ => rfl) heq).trans hamount
  · exact (eq_of_terms (·.recipientReferenceSha256) (fun _ => rfl) heq).trans hrecipient
  · exact (eq_of_terms (·.evidenceSha256) (fun _ => rfl) heq).trans hevidence

/-- The ledger's transfer id only depends on what never changes. -/
theorem ledgerTransferId_terms {r r' : SettlementRow} (h : r'.terms = r.terms) :
    ledgerTransferId lib r' = ledgerTransferId lib r := by
  have hid : r'.id = r.id := eq_of_terms (·.id) (fun _ => rfl) h
  rw [ledgerTransferId, hid, ledgerTransferId]

/-- The transfers a settlement can have in the ledger. -/
def TransferOf (lib : SettlementLib) (r : SettlementRow) (t : LedgerTransfer) : Prop :=
  (t.flag = .pending ∧ t.id = ledgerTransferId lib r ∧ t.amount = r.amountMinor) ∨
    (t.flag = .postPending (ledgerTransferId lib r) ∧ t.id = ledgerTransferId lib r ++ "-post") ∨
    (t.flag = .voidPending (ledgerTransferId lib r) ∧ t.id = ledgerTransferId lib r ++ "-void")

theorem TransferOf.terms {r r' : SettlementRow} {t : LedgerTransfer} (h : TransferOf lib r t)
    (heq : r'.terms = r.terms) : TransferOf lib r' t := by
  have hamount : r'.amountMinor = r.amountMinor := eq_of_terms (·.amountMinor) (fun _ => rfl) heq
  rw [TransferOf, ledgerTransferId_terms heq, hamount]
  exact h

/-! ### The invariant -/

/-- What holds of the row, with ledger and log. -/
structure RowSound (lib : SettlementLib) (w : World) (r : SettlementRow) : Prop where
  created : ∃ ev ∈ w.log, BoundTo lib r ev
  unapproved : r.approvedBy = none →
    (r.status = .requested ∨ r.status = .voided) ∧ r.tigerBeetleTransferId = none ∧ w.ledger.transfers = []
  approved : ∀ a, r.approvedBy = some a →
    a ≠ "" ∧ a ≠ r.requestedBy ∧ SettlementEvent.approved a ∈ w.log ∧ r.status ≠ .requested
  transferId : ∀ id, r.tigerBeetleTransferId = some id → id = ledgerTransferId lib r
  transfers : ∀ t ∈ w.ledger.transfers, TransferOf lib r t

structure WorldSound (lib : SettlementLib) (w : World) : Prop where
  fresh : w.row = none → w.ledger.transfers = [] ∧ w.mojaloop = [] ∧ w.log = []
  row : ∀ r, w.row = some r → RowSound lib w r

/-- The copy of the row a stage carries. -/
def Stage.record? : Stage → Option SettlementRow
  | .idle => none
  | .approving _ record => some record
  | .lookingUp record _ _ => some record
  | .creatingAccount record _ _ => some record
  | .recheckingAccount record _ _ _ => some record
  | .creatingTransfer record _ => some record
  | .recordingCommitment record _ => some record
  | .lookingUpParty record _ => some record
  | .quoting record _ _ => some record
  | .transferring record _ _ _ => some record
  | .recordingDispatch record _ _ => some record
  | .markingUnavailable record _ _ => some record
  | .gettingTransaction record => some record
  | .posting record _ => some record
  | .recordingSettled record _ => some record
  | .voiding record _ => some record
  | .recordingVoid record => some record
  | .finished _ => none

/-- The stages a request only reaches with an approved settlement. -/
def Stage.cleared : Stage → Bool
  | .idle => false
  | .approving _ _ => false
  | .recordingVoid _ => false
  | .finished _ => false
  | _ => true

/-- The ledger transfer a stage is about to use or to write down. -/
def Stage.transferId? : Stage → Option String
  | .recordingCommitment _ id => some id
  | .gettingTransaction record => some (record.tigerBeetleTransferId.getD "")
  | .posting record _ => some (record.tigerBeetleTransferId.getD "")
  | .voiding _ id => some id
  | _ => none

/-- What a request relies on. -/
structure StageSound (lib : SettlementLib) (w : World) (stage : Stage) : Prop where
  record : ∀ record, stage.record? = some record → ∃ r, w.row = some r ∧ record.terms = r.terms
  cleared : stage.cleared = true → ∃ r a, w.row = some r ∧ r.approvedBy = some a
  transferId : ∀ id r, stage.transferId? = some id → w.row = some r → id = ledgerTransferId lib r
  approver : ∀ actor record, stage = .approving actor record → actor ≠ ""

/-- What the others may do meanwhile. -/
def Grows (w w' : World) : Prop :=
  ∀ r, w.row = some r → ∃ r', w'.row = some r' ∧ r'.terms = r.terms ∧
    ∀ a, r.approvedBy = some a → r'.approvedBy = some a

theorem Grows.refl (w : World) : Grows w w := fun r hr => ⟨r, hr, rfl, fun _ ha => ha⟩

theorem Grows.of_row_eq {w w' : World} (h : w'.row = w.row) : Grows w w' := by
  intro r hr
  exact ⟨r, h.trans hr, rfl, fun _ ha => ha⟩

theorem StageSound.stable {w w' : World} {stage : Stage} (hgrows : Grows w w') (h : StageSound lib w stage) :
    StageSound lib w' stage where
  record := by
    intro record hrecord
    obtain ⟨r, hr, hterms⟩ := h.record record hrecord
    obtain ⟨r', hr', hterms', -⟩ := hgrows r hr
    exact ⟨r', hr', hterms.trans hterms'.symm⟩
  cleared := by
    intro hcleared
    obtain ⟨r, a, hr, ha⟩ := h.cleared hcleared
    obtain ⟨r', hr', -, hkept⟩ := hgrows r hr
    exact ⟨r', a, hr', hkept a ha⟩
  transferId := by
    intro id r' hid hr'
    cases hrecord : stage.record? with
    | none => cases stage <;> simp [Stage.record?, Stage.transferId?] at hrecord hid
    | some record =>
        obtain ⟨r, hr, -⟩ := h.record record hrecord
        obtain ⟨r'', hr'', hterms, -⟩ := hgrows r hr
        obtain rfl : r' = r'' := Option.some.inj (hr'.symm.trans hr'')
        rw [h.transferId id r hid hr, ledgerTransferId_terms hterms]
  approver := h.approver

theorem stageSound_finished (w : World) (result : Except HttpError Unit) : StageSound lib w (.finished result) where
  record := by
    intro record hrecord
    cases hrecord
  cleared := by
    intro hcleared
    cases hcleared
  transferId := by
    intro id r hid
    cases hid
  approver := by
    intro actor record heq
    cases heq

/-- A request that goes on with its copy keeps what it relied on. The transfer it names next is one it
named before, or that of its copy. -/
theorem StageSound.next {w : World} {stage stage' : Stage} (h : StageSound lib w stage)
    (hrecord : stage'.record? = stage.record?) (hcleared : stage'.cleared = true → stage.cleared = true)
    (hid : ∀ id, stage'.transferId? = some id → stage.transferId? = some id ∨
      ∃ record, stage.record? = some record ∧ id = ledgerTransferId lib record)
    (happrover : ∀ actor record, stage' ≠ .approving actor record) : StageSound lib w stage' where
  record := by
    rw [hrecord]
    exact h.record
  cleared := fun hc => h.cleared (hcleared hc)
  transferId := by
    intro id r hnext hr
    rcases hid id hnext with hbefore | ⟨record, hrec, rfl⟩
    · exact h.transferId id r hbefore hr
    · obtain ⟨r', hr', hterms⟩ := h.record record hrec
      obtain rfl : r = r' := Option.some.inj (hr.symm.trans hr')
      exact ledgerTransferId_terms hterms
  approver := fun actor record heq => absurd heq (happrover actor record)

/-! ### Statements -/

/-- What an UPDATE does to a row. -/
structure StatementSound (lib : SettlementLib) (r r' : SettlementRow) : Prop where
  terms : r'.terms = r.terms
  approvedBy : r'.approvedBy = r.approvedBy
  unapproved : r.approvedBy = none → (r.status = .requested ∨ r.status = .voided) →
    (r'.status = .requested ∨ r'.status = .voided) ∧ r'.tigerBeetleTransferId = r.tigerBeetleTransferId
  status : r.status ≠ .requested → r'.status ≠ .requested
  transferId : r'.tigerBeetleTransferId = r.tigerBeetleTransferId ∨
    r'.tigerBeetleTransferId = some (ledgerTransferId lib r)

theorem StatementSound.refl (r : SettlementRow) : StatementSound lib r r :=
  ⟨rfl, rfl, fun _ h => ⟨h, rfl⟩, id, Or.inl rfl⟩

/-- A guarded UPDATE writes nothing, or writes a row with a status it asks for. -/
theorem statementSound_whenStatus {p : SettlementStatus → Bool} {f : SettlementRow → SettlementRow}
    {r : SettlementRow} (h : p r.status = true → StatementSound lib r (f r)) :
    StatementSound lib r (whenStatus p f r) := by
  unfold whenStatus
  split
  · exact h (by assumption)
  · exact StatementSound.refl r

theorem statementSound_commitment {r : SettlementRow} :
    StatementSound lib r (recordCommitment (ledgerTransferId lib r) r) := by
  refine statementSound_whenStatus fun hstatus => ⟨rfl, rfl, ?_, by simp, Or.inr rfl⟩
  rintro - (hrequested | hvoided)
  · rw [hrequested] at hstatus
    cases hstatus
  · rw [hvoided] at hstatus
    cases hstatus

/-- The statuses only an approved settlement has, written where one of them stood. -/
theorem statementSound_status {r r' : SettlementRow} (hterms : r'.terms = r.terms)
    (happroved : r'.approvedBy = r.approvedBy) (hid : r'.tigerBeetleTransferId = r.tigerBeetleTransferId)
    (hafter : r'.status ≠ .requested) (hbefore : (r.status ≠ .requested ∧ r.status ≠ .voided) ∨ r'.status =
      .voided) : StatementSound lib r r' := by
  refine ⟨hterms, happroved, ?_, fun _ => hafter, Or.inl hid⟩
  intro _ hstatus
  rcases hbefore with ⟨hrequested, hvoided⟩ | hvoided
  · exact absurd hstatus (by simp [hrequested, hvoided])
  · exact ⟨Or.inr hvoided, hid⟩

theorem statementSound_unavailable {r : SettlementRow} (code : String) :
    StatementSound lib r (recordUnavailable code r) := by
  refine statementSound_whenStatus fun hstatus => statementSound_status rfl rfl rfl (by simp) (Or.inl ?_)
  rw [Bool.or_eq_true, beq_iff_eq, beq_iff_eq] at hstatus
  rcases hstatus with hstatus | hstatus <;> simp [hstatus]

theorem statementSound_dispatch {r : SettlementRow} (quoteId transferId : String) :
    StatementSound lib r (recordDispatch quoteId transferId r) := by
  refine statementSound_whenStatus fun hstatus => statementSound_status rfl rfl rfl (by simp) (Or.inl ?_)
  rw [Bool.or_eq_true, beq_iff_eq, beq_iff_eq] at hstatus
  rcases hstatus with hstatus | hstatus <;> simp [hstatus]

theorem statementSound_settled {r : SettlementRow} (receiptSha256 : String) :
    StatementSound lib r (recordSettled receiptSha256 r) := by
  refine statementSound_whenStatus fun hstatus => statementSound_status rfl rfl rfl (by simp) (Or.inl ?_)
  rw [beq_iff_eq] at hstatus
  simp [hstatus]

theorem statementSound_void {r : SettlementRow} : StatementSound lib r (recordVoid r) :=
  statementSound_whenStatus fun _ => statementSound_status rfl rfl rfl (by simp) (Or.inr rfl)

theorem RowSound.statement {w w' : World} {r r' : SettlementRow} (h : RowSound lib w r)
    (hstatement : StatementSound lib r r') (hledger : w'.ledger = w.ledger) (hlog : w'.log = w.log) :
    RowSound lib w' r' where
  created := by
    obtain ⟨ev, hev, hbound⟩ := h.created
    exact ⟨ev, hlog ▸ hev, hbound.terms hstatement.terms⟩
  unapproved := by
    intro hnone
    rw [hstatement.approvedBy] at hnone
    obtain ⟨hstatus, hid, htransfers⟩ := h.unapproved hnone
    obtain ⟨hstatus', hid'⟩ := hstatement.unapproved hnone hstatus
    exact ⟨hstatus', hid'.trans hid, hledger ▸ htransfers⟩
  approved := by
    intro a ha
    rw [hstatement.approvedBy] at ha
    obtain ⟨hne, hother, hmem, hstatus⟩ := h.approved a ha
    have hrequested : r'.requestedBy = r.requestedBy := eq_of_terms (·.requestedBy) (fun _ => rfl) hstatement.terms
    exact ⟨hne, hrequested ▸ hother, hlog ▸ hmem, hstatement.status hstatus⟩
  transferId := by
    intro id hid
    rw [ledgerTransferId_terms hstatement.terms]
    rcases hstatement.transferId with hsame | hnew
    · exact h.transferId id (hsame ▸ hid)
    · exact Option.some.inj (hid.symm.trans hnew)
  transfers := by
    intro t ht
    exact (h.transfers t (hledger ▸ ht)).terms hstatement.terms

theorem World.statement_cases (w : World) (reply : Reply) (f : SettlementRow → SettlementRow) :
    w.statement reply f = w ∨ w.statement reply f = w.update f := by
  unfold World.statement
  split
  · exact Or.inl rfl
  · exact Or.inr rfl

/-- What a step owes to the row and to the other requests. -/
structure StepSound (lib : SettlementLib) (w w' : World) : Prop where
  grows : Grows w w'
  world : WorldSound lib w'

theorem StepSound.refl {w : World} (h : WorldSound lib w) : StepSound lib w w := ⟨Grows.refl w, h⟩

theorem stepSound_statement {w : World} (h : WorldSound lib w) (reply : Reply) {f : SettlementRow → SettlementRow}
    (hf : ∀ r, w.row = some r → StatementSound lib r (f r)) : StepSound lib w (w.statement reply f) := by
  rcases World.statement_cases w reply f with heq | heq <;> rw [heq]
  · exact StepSound.refl h
  · cases hrow : w.row with
    | none =>
        have hsame : ∀ v : World, v.row = none → v.update f = v := by
          rintro ⟨row, ledger, mojaloop, log⟩ rfl
          rfl
        rw [hsame w hrow]
        exact StepSound.refl h
    | some r =>
        have hupdated : (w.update f).row = some (f r) := by rw [World.update, hrow]; rfl
        have hstatement := hf r hrow
        refine ⟨?_, ?_, ?_⟩
        · intro r' hr'
          obtain rfl : r = r' := Option.some.inj (hrow.symm.trans hr')
          exact ⟨f r, hupdated, hstatement.terms, fun a ha => hstatement.approvedBy.trans ha⟩
        · intro hnone
          rw [hupdated] at hnone
          cases hnone
        · intro r' hr'
          obtain rfl : f r = r' := Option.some.inj (hupdated.symm.trans hr')
          exact (h.row r hrow).statement hstatement rfl rfl

/-- The row stays, the ledger may gain a transfer of the settlement and the log may grow. -/
theorem RowSound.extend {w w' : World} {r : SettlementRow} (h : RowSound lib w r) (hlog : ∀ ev ∈ w.log, ev ∈ w'.log)
    (htransfers : ∀ t ∈ w'.ledger.transfers, t ∈ w.ledger.transfers ∨ (r.approvedBy ≠ none ∧ TransferOf lib r t)) :
    RowSound lib w' r where
  created := by
    obtain ⟨ev, hev, hbound⟩ := h.created
    exact ⟨ev, hlog ev hev, hbound⟩
  unapproved := by
    intro hnone
    obtain ⟨hstatus, hid, hempty⟩ := h.unapproved hnone
    refine ⟨hstatus, hid, ?_⟩
    rw [List.eq_nil_iff_forall_not_mem]
    intro t ht
    rcases htransfers t ht with hold | ⟨happroved, -⟩
    · rw [hempty] at hold
      cases hold
    · exact happroved hnone
  approved := by
    intro a ha
    obtain ⟨hne, hother, hmem, hstatus⟩ := h.approved a ha
    exact ⟨hne, hother, hlog _ hmem, hstatus⟩
  transferId := h.transferId
  transfers := by
    intro t ht
    rcases htransfers t ht with hold | ⟨-, hnew⟩
    · exact h.transfers t hold
    · exact hnew

theorem stepSound_extend {w w' : World} (h : WorldSound lib w) (hrow : w'.row = w.row)
    (hlog : ∀ ev ∈ w.log, ev ∈ w'.log)
    (hfresh : w.row = none → w'.ledger.transfers = [] ∧ w'.mojaloop = [] ∧ w'.log = [])
    (htransfers : ∀ r, w.row = some r → ∀ t ∈ w'.ledger.transfers,
      t ∈ w.ledger.transfers ∨ (r.approvedBy ≠ none ∧ TransferOf lib r t)) : StepSound lib w w' := by
  refine ⟨Grows.of_row_eq hrow, fun hnone => hfresh (hrow ▸ hnone), ?_⟩
  intro r hr
  rw [hrow] at hr
  exact (h.row r hr).extend hlog (htransfers r hr)

/-! ### Calls -/

/-- The client is refused and the ledger stays as it is, or the transfer is stored. -/
def Attempts (l : Ledger) (t : LedgerTransfer) (outcome : Except String Unit × Ledger) : Prop :=
  (outcome.2 = l ∧ ∃ err, outcome.1 = .error err) ∨
    (outcome = (.ok (), { l with transfers := l.transfers ++ [l.completed t] }) ∧ l.transfer? t.id = none ∧
      l.check t = .ok)

theorem attempts_native (l : Ledger) (t : LedgerTransfer) (label : String) :
    Attempts l t (nativeResult label (l.createTransfers t)) := by
  rcases l.createTransfers_cases t with ⟨hok, hnew, hcheck⟩ | ⟨result, hrefused, hne⟩
  · rw [hok]
    exact Or.inr ⟨rfl, hnew, hcheck⟩
  · rw [hrefused, nativeResult, if_neg hne]
    exact Or.inl ⟨rfl, _, rfl⟩

theorem attempts_createPendingTransfer (l : Ledger) (t : LedgerTransfer) :
    Attempts l t (createPendingTransfer l t) := by
  unfold createPendingTransfer
  split
  · exact Or.inl ⟨rfl, _, rfl⟩
  split
  · exact Or.inl ⟨rfl, _, rfl⟩
  · exact attempts_native l t _

/-- The ledger with one more transfer, and its event. -/
def World.accept (w : World) (t : LedgerTransfer) : World :=
  { w with
    ledger := { w.ledger with transfers := w.ledger.transfers ++ [w.ledger.completed t] }
    log := w.log ++ [.ledgerTransfer (w.ledger.completed t)] }

theorem World.callLedger_accepted_self (w : World) {outcome : Except String Unit × Ledger}
    (h : outcome.2 = w.ledger) :
    World.callLedger.accepted w outcome = w := by
  rw [World.callLedger.accepted, h, List.drop_length, List.map_nil, List.append_nil]

/-- A call stores the transfer, and only an answered one tells the caller so; or it changes nothing and
the caller sees an error. -/
theorem callLedger_cases {w : World} {t : LedgerTransfer} {outcome : Except String Unit × Ledger}
    (h : Attempts w.ledger t outcome) (reply : Reply) :
    ((w.callLedger reply outcome).2 = w ∧ ∃ err, (w.callLedger reply outcome).1 = .error err) ∨
      ((w.callLedger reply outcome).2 = w.accept t ∧ w.ledger.transfer? t.id = none ∧ w.ledger.check t = .ok ∧
        outcome.1 = .ok () ∧
        ((reply = .answered ∧ (w.callLedger reply outcome).1 = .ok ()) ∨
          (reply = .lost ∧ ∃ err, (w.callLedger reply outcome).1 = .error err))) := by
  cases reply with
  | unreachable => exact Or.inl ⟨rfl, _, rfl⟩
  | answered =>
      rcases h with ⟨hsame, err, herr⟩ | ⟨rfl, hnew, hcheck⟩
      · exact Or.inl ⟨w.callLedger_accepted_self hsame, err, herr⟩
      · refine Or.inr ⟨?_, hnew, hcheck, rfl, Or.inl ⟨rfl, rfl⟩⟩
        simp [World.callLedger, World.callLedger.accepted, World.accept]
  | lost =>
      rcases h with ⟨hsame, err, herr⟩ | ⟨rfl, hnew, hcheck⟩
      · exact Or.inl ⟨w.callLedger_accepted_self hsame, _, rfl⟩
      · refine Or.inr ⟨?_, hnew, hcheck, rfl, Or.inr ⟨rfl, _, rfl⟩⟩
        simp [World.callLedger, World.callLedger.accepted, World.accept]

/-- A step that makes a ledger call: it goes on if the transfer is stored and the answer arrives, and
fails in any other case. -/
theorem ledgerStep_cases {w : World} {t : LedgerTransfer} {outcome : Except String Unit × Ledger}
    (h : Attempts w.ledger t outcome) (reply : Reply) (next : Stage) (message : String) :
    ((ledgerStep reply outcome next message w).1 = w ∧
        ∃ err, (ledgerStep reply outcome next message w).2 = .finished (.error err)) ∨
      ((ledgerStep reply outcome next message w).1 = w.accept t ∧ w.ledger.transfer? t.id = none ∧
        w.ledger.check t = .ok ∧ outcome.1 = .ok () ∧
        ((reply = .answered ∧ (ledgerStep reply outcome next message w).2 = next) ∨
          (reply = .lost ∧ ∃ err, (ledgerStep reply outcome next message w).2 = .finished (.error err)))) := by
  have hfail : ∀ err, (w.callLedger reply outcome).1 = .error err → ledgerStep reply outcome next message w =
      ((w.callLedger reply outcome).2, failed 503 (message ++ err)) := by
    intro err herr
    rw [ledgerStep]
    simp only [herr]
  have hnext : (w.callLedger reply outcome).1 = .ok () → ledgerStep reply outcome next message w =
      ((w.callLedger reply outcome).2, next) := by
    intro hok
    rw [ledgerStep]
    simp only [hok]
  rcases callLedger_cases h reply with ⟨hsame, err, herr⟩ | ⟨haccept, hnew, hcheck, hok, hreply⟩
  · rw [hfail err herr]
    exact Or.inl ⟨hsame, _, rfl⟩
  · right
    rcases hreply with ⟨hanswered, hgood⟩ | ⟨hlost, err, herr⟩
    · rw [hnext hgood]
      exact ⟨haccept, hnew, hcheck, hok, Or.inl ⟨hanswered, rfl⟩⟩
    · rw [hfail err herr]
      exact ⟨haccept, hnew, hcheck, hok, Or.inr ⟨hlost, _, rfl⟩⟩

/-- Creating an account leaves row, transfers and log alone. -/
theorem callLedger_account (w : World) (reply : Reply) (a : TBAccount) :
    (w.callLedger reply (TBClient.createAccount w.ledger a)).2.row = w.row ∧
      (w.callLedger reply (TBClient.createAccount w.ledger a)).2.ledger.transfers = w.ledger.transfers ∧
      (w.callLedger reply (TBClient.createAccount w.ledger a)).2.ledger.zeroPostsPending =
        w.ledger.zeroPostsPending ∧
      (w.callLedger reply (TBClient.createAccount w.ledger a)).2.mojaloop = w.mojaloop ∧
      (w.callLedger reply (TBClient.createAccount w.ledger a)).2.log = w.log := by
  have htransfers : (TBClient.createAccount w.ledger a).2.transfers = w.ledger.transfers ∧
      (TBClient.createAccount w.ledger a).2.zeroPostsPending = w.ledger.zeroPostsPending := by
    unfold TBClient.createAccount nativeResult Ledger.createAccounts
    split <;> exact ⟨rfl, rfl⟩
  cases reply <;>
    simp [World.callLedger, World.callLedger.accepted, htransfers.1, htransfers.2]

theorem stepSound_account {w : World} (h : WorldSound lib w) (reply : Reply) (a : TBAccount) :
    StepSound lib w (w.callLedger reply (TBClient.createAccount w.ledger a)).2 := by
  obtain ⟨hrow, htransfers, -, hmojaloop, hlog⟩ := callLedger_account w reply a
  refine stepSound_extend h hrow ?_ ?_ ?_
  · rw [hlog]
    exact fun ev hev => hev
  · intro hnone
    rw [htransfers, hmojaloop, hlog]
    exact h.fresh hnone
  · intro r _ t ht
    exact Or.inl (htransfers ▸ ht)

/-- The transfers the operations make are transfers of the settlement. -/
theorem stepSound_accept {w : World} (h : WorldSound lib w) {r : SettlementRow} {a : String} (hrow : w.row = some r)
    (happroved : r.approvedBy = some a) {t : LedgerTransfer} (ht : TransferOf lib r (w.ledger.completed t)) :
    StepSound lib w (w.accept t) := by
  refine stepSound_extend h rfl ?_ ?_ ?_
  · intro ev hev
    exact List.mem_append_left _ hev
  · intro hnone
    rw [hrow] at hnone
    cases hnone
  · intro r' hr' t' ht'
    obtain rfl : r = r' := Option.some.inj (hrow.symm.trans hr')
    rcases List.mem_append.mp ht' with hold | hnew
    · exact Or.inl hold
    · rw [List.mem_singleton.mp hnew]
      exact Or.inr ⟨by simp [happroved], ht⟩

theorem stepSound_transferOut {w : World} (h : WorldSound lib w) {r : SettlementRow} (hrow : w.row = some r)
    (reply : Reply) (t : MojaTransfer) : StepSound lib w (w.transferOut reply t) := by
  unfold World.transferOut
  split
  · exact StepSound.refl h
  · refine stepSound_extend h rfl ?_ ?_ ?_
    · intro ev hev
      exact List.mem_append_left _ hev
    · intro hnone
      rw [hrow] at hnone
      cases hnone
    · intro r' _ t' ht'
      exact Or.inl ht'

/-! ### One step -/

/-- A status of a row that no unapproved settlement has. -/
theorem RowSound.approvedBy_of_status {w : World} {r : SettlementRow} (h : RowSound lib w r)
    (hstatus : r.status ≠ .requested ∧ r.status ≠ .voided) : ∃ a, r.approvedBy = some a := by
  cases ha : r.approvedBy with
  | some a => exact ⟨a, rfl⟩
  | none =>
      rcases (h.unapproved ha).1 with hrequested | hvoided
      · exact absurd hrequested hstatus.1
      · exact absurd hvoided hstatus.2

/-- A recorded transfer is that of the settlement, which is approved then. -/
theorem RowSound.transferId_getD {w : World} {r : SettlementRow} (h : RowSound lib w r)
    (hid : r.tigerBeetleTransferId.getD "" ≠ "") :
    r.tigerBeetleTransferId.getD "" = ledgerTransferId lib r ∧ ∃ a, r.approvedBy = some a := by
  cases htransfer : r.tigerBeetleTransferId with
  | none =>
      rw [htransfer] at hid
      exact absurd rfl hid
  | some id =>
      refine ⟨h.transferId id htransfer, ?_⟩
      cases ha : r.approvedBy with
      | some a => exact ⟨a, rfl⟩
      | none =>
          rw [(h.unapproved ha).2.1] at htransfer
          cases htransfer

theorem stageSound_begins {w : World} {actor : String} {record : SettlementRow} {op : SettlementOp} {stage : Stage}
    (h : RowSound lib w record) (hrow : w.row = some record) (hactor : actor ≠ "")
    (hbegins : Begins actor record op stage) : StageSound lib w stage := by
  have hrecord : ∀ copy, some record = some copy → ∃ r, w.row = some r ∧ copy.terms = r.terms := by
    rintro copy heq
    obtain rfl := Option.some.inj heq
    exact ⟨record, hrow, rfl⟩
  have hcleared : (∃ a, record.approvedBy = some a) → ∃ r a, w.row = some r ∧ r.approvedBy = some a :=
    fun ⟨a, ha⟩ => ⟨record, a, hrow, ha⟩
  have hlive : record.status = .ledgerPending ∨ record.status = .mojaloopUnavailable →
      ∃ r a, w.row = some r ∧ r.approvedBy = some a := by
    intro hstatus
    apply hcleared
    apply h.approvedBy_of_status
    rcases hstatus with hstatus | hstatus <;> simp [hstatus]
  have htransfer : record.tigerBeetleTransferId.getD "" ≠ "" → ∀ id r,
      some (record.tigerBeetleTransferId.getD "") = some id → w.row = some r → id = ledgerTransferId lib r := by
    intro hne id r hid hr
    obtain rfl : record = r := Option.some.inj (hrow.symm.trans hr)
    rw [← Option.some.inj hid]
    exact (h.transferId_getD hne).1
  cases hbegins with
  | done => exact stageSound_finished w _
  | approve _ =>
      refine ⟨hrecord, (by simp [Stage.cleared]), (by simp [Stage.transferId?]), ?_⟩
      intro actor' record' heq
      rw [Stage.approving.injEq] at heq
      exact heq.1 ▸ hactor
  | commit _ happroved =>
      refine ⟨hrecord, fun _ => hcleared (Option.ne_none_iff_exists'.mp happroved), ?_,
        ?_⟩ <;> simp [Stage.transferId?]
  | unready hstatus =>
      refine ⟨hrecord, fun _ => hlive hstatus, ?_, ?_⟩ <;> simp [Stage.transferId?]
  | dispatch hstatus =>
      refine ⟨hrecord, fun _ => hlive hstatus, ?_, ?_⟩ <;> simp [Stage.transferId?]
  | reconcile _ hne => exact ⟨hrecord, fun _ => hcleared (h.transferId_getD hne).2, htransfer hne, by simp⟩
  | voidUnbacked _ _ =>
      refine ⟨hrecord, ?_, ?_, ?_⟩ <;> simp [Stage.cleared, Stage.transferId?]
  | void _ hne => exact ⟨hrecord, fun _ => hcleared (h.transferId_getD hne).2, htransfer hne, by simp⟩

theorem stageSound_begin {w : World} (h : WorldSound lib w) (env : SettlementEnv) {actor : String}
    (hactor : actor ≠ "") (op : SettlementOp) : StageSound lib w (beginStage lib env actor op w) := by
  rcases beginStage_cases lib env actor op w with ⟨result, hresult⟩ | ⟨record, hrow, hbegins⟩
  · rw [hresult]
    exact stageSound_finished w result
  · exact stageSound_begins (h.row record hrow) hrow hactor hbegins

/-- An approval is refused and nothing changes, or the approver is someone else and is written down. -/
theorem approveStep_cases (reply : Reply) (actor : String) (w : World) :
    ((approveStep reply actor w).1 = w ∧ ∃ err, (approveStep reply actor w).2 = .finished (.error err)) ∨
      ∃ r result, w.row = some r ∧ r.status = .requested ∧ r.approvedBy = none ∧ actor ≠ r.requestedBy ∧
        approveStep reply actor w =
          ({ w.update (recordApproval actor) with log := w.log ++ [.approved actor] }, .finished result) := by
  unfold approveStep
  split
  · exact Or.inl ⟨rfl, _, rfl⟩
  split
  · exact Or.inl ⟨rfl, _, rfl⟩
  split
  · rename_i r hrow _ hopen
    split
    · exact Or.inl ⟨rfl, _, rfl⟩
    · rename_i hother
      right
      unfold afterStatement
      split
      · exact ⟨r, _, hrow, hopen.1, hopen.2, hother, rfl⟩
      · exact ⟨r, _, hrow, hopen.1, hopen.2, hother, rfl⟩
  · exact Or.inl ⟨rfl, _, rfl⟩

theorem stepSound_approve {w : World} (h : WorldSound lib w) (reply : Reply) {actor : String}
    (hactor : actor ≠ "") :
    StepSound lib w (approveStep reply actor w).1 := by
  rcases approveStep_cases reply actor w with ⟨hsame, -⟩ | ⟨r, result, hrow, hstatus, hnone, hother, heq⟩
  · rw [hsame]
    exact StepSound.refl h
  · rw [heq]
    have hupdated : (w.update (recordApproval actor)).row = some (recordApproval actor r) := by
      rw [World.update, hrow]
      rfl
    have hsound := h.row r hrow
    refine ⟨?_, ?_, ?_⟩
    · intro r' hr'
      obtain rfl : r = r' := Option.some.inj (hrow.symm.trans hr')
      refine ⟨recordApproval actor r, hupdated, rfl, ?_⟩
      intro a ha
      rw [hnone] at ha
      cases ha
    · intro hgone
      rw [show _ = some _ from hupdated] at hgone
      cases hgone
    · intro r' hr'
      obtain rfl : recordApproval actor r = r' := Option.some.inj (hupdated.symm.trans hr')
      refine ⟨?_, ?_, ?_, hsound.transferId, ?_⟩
      · obtain ⟨ev, hev, hbound⟩ := hsound.created
        exact ⟨ev, List.mem_append_left _ hev, hbound.terms rfl⟩
      · intro hgone
        cases hgone
      · intro a ha
        obtain rfl : actor = a := Option.some.inj ha
        exact ⟨hactor, hother, List.mem_append_right _ (List.mem_singleton_self _), by simp [recordApproval]⟩
      · intro t ht
        exact (hsound.transfers t ht).terms rfl

/-- A step of a request, sound for the world and for its own next stage. -/
structure AdvanceSound (lib : SettlementLib) (w : World) (next : World × Stage) : Prop where
  step : StepSound lib w next.1
  stage : StageSound lib next.1 next.2

theorem advanceSound_finished {w : World} {next : World × Stage} {result : Except HttpError Unit}
    (hstep : StepSound lib w next.1) (hnext : next.2 = .finished result) : AdvanceSound lib w next :=
  ⟨hstep, hnext ▸ stageSound_finished next.1 result⟩

/-- The world stays and the request goes on with its copy. -/
theorem advanceSound_quiet {w : World} {stage stage' : Stage} (h : WorldSound lib w)
    (hstage : StageSound lib w stage) (hrecord : stage'.record? = stage.record? ∨ ∃ result,
      stage' = .finished result)
    (hcleared : stage.cleared = true)
    (hid : ∀ id, stage'.transferId? = some id → stage.transferId? = some id)
    (happrover : ∀ actor record, stage' ≠ .approving actor record) : AdvanceSound lib w (w, stage') := by
  rcases hrecord with hrecord | ⟨result, rfl⟩
  · exact ⟨StepSound.refl h, hstage.next hrecord (fun _ => hcleared) (fun id h => Or.inl (hid id h)) happrover⟩
  · exact advanceSound_finished (StepSound.refl h) rfl

/-- A statement ends the request. -/
theorem advanceSound_statement {w : World} (h : WorldSound lib w) (reply : Reply)
    {f : SettlementRow → SettlementRow} (hf : ∀ r, w.row = some r → StatementSound lib r (f r)) (message : String) :
    AdvanceSound lib w (w.statement reply f, afterStatement reply message) := by
  refine ⟨stepSound_statement h reply hf, ?_⟩
  unfold afterStatement
  split
  · exact stageSound_finished _ _
  · exact stageSound_finished _ _

/-- A ledger call that stores a transfer of the settlement. -/
theorem advanceSound_ledger {w : World} {stage next : Stage} {t : LedgerTransfer}
    {outcome : Except String Unit × Ledger} (h : WorldSound lib w) (hstage : StageSound lib w stage)
    (hattempts : Attempts w.ledger t outcome) (reply : Reply) (message : String) (hcleared : stage.cleared = true)
    (htransfer : ∀ r, w.row = some r → w.ledger.check t = .ok → TransferOf lib r (w.ledger.completed t))
    (hnext : StageSound lib w next) : AdvanceSound lib w (ledgerStep reply outcome next message w) := by
  obtain ⟨r, a, hrow, happroved⟩ := hstage.cleared hcleared
  rcases ledgerStep_cases hattempts reply next message with ⟨hsame, err, herr⟩ | ⟨haccept, -, hcheck, -, hreply⟩
  · refine advanceSound_finished ?_ herr
    rw [hsame]
    exact StepSound.refl h
  · have hstep : StepSound lib w (ledgerStep reply outcome next message w).1 := by
      rw [haccept]
      exact stepSound_accept h hrow happroved (htransfer r hrow hcheck)
    rcases hreply with ⟨-, heq⟩ | ⟨-, err, herr⟩
    · refine ⟨hstep, ?_⟩
      rw [heq]
      exact hnext.stable hstep.grows
    · exact advanceSound_finished hstep herr

/-- The account stages of a commitment hand the copy on. -/
theorem stageSound_afterAccount {w : World} {stage : Stage} {record : SettlementRow}
    (hstage : StageSound lib w stage) (hrecord : stage.record? = some record) (hcleared : stage.cleared = true)
    (cfg : SettlementConfig) (side : AccountSide) : StageSound lib w (afterAccount record cfg side) := by
  cases side with
  | debit =>
      exact hstage.next hrecord.symm (fun _ => hcleared) (by simp [afterAccount, Stage.transferId?])
        (by simp [afterAccount])
  | credit =>
      exact hstage.next hrecord.symm (fun _ => hcleared) (by simp [afterAccount, Stage.transferId?])
        (by simp [afterAccount])

theorem transferOf_pending {w : World} {r record : SettlementRow} (hterms : record.terms = r.terms)
    (cfg : SettlementConfig) : TransferOf lib r (w.ledger.completed (pendingTransfer lib record cfg)) := by
  have hamount : record.amountMinor = r.amountMinor := eq_of_terms (·.amountMinor) (fun _ => rfl) hterms
  exact Or.inl ⟨rfl, ledgerTransferId_terms hterms, hamount⟩

theorem transferOf_post {w : World} {r : SettlementRow} {id : String} (hid : id = ledgerTransferId lib r) :
    TransferOf lib r (w.ledger.completed ⟨id ++ "-post", .postPending id, "", "", 0, 0, 0⟩) := by
  refine Or.inr (Or.inl ?_)
  simp [hid]

theorem transferOf_void {w : World} {r : SettlementRow} {id : String} (hid : id = ledgerTransferId lib r) :
    TransferOf lib r (w.ledger.completed ⟨id ++ "-void", .voidPending id, "", "", 0, 0, 0⟩) := by
  refine Or.inr (Or.inr ?_)
  simp [hid]

theorem advance_sound (env : SettlementEnv) (reply : Reply) (answer : MojaAnswer) {w : World} {stage : Stage}
    (h : WorldSound lib w) (hstage : StageSound lib w stage) :
    AdvanceSound lib w (advanceStage lib env reply answer w stage) := by
  cases stage with
  | idle => exact ⟨StepSound.refl h, hstage⟩
  | finished result => exact ⟨StepSound.refl h, hstage⟩
  | approving actor record =>
      have hstep := stepSound_approve h reply (hstage.approver actor record rfl)
      rcases approveStep_cases reply actor w with ⟨-, err, herr⟩ | ⟨r, result, -, -, -, -, heq⟩
      · exact advanceSound_finished hstep herr
      · exact advanceSound_finished hstep (congrArg Prod.snd heq)
  | lookingUp record cfg side =>
      refine ⟨StepSound.refl h, ?_⟩
      simp only [advanceStage, lookupStep]
      split
      · split
        · exact stageSound_afterAccount hstage rfl rfl cfg side
        · exact stageSound_finished _ _
      · exact hstage.next rfl (fun _ => rfl) (by simp [Stage.transferId?]) (by simp)
  | creatingAccount record cfg side =>
      have hstep := stepSound_account h reply ⟨record.account side, cfg.ledger, cfg.accountCode⟩
      have hkept := hstage.stable hstep.grows
      simp only [advanceStage]
      split
      · exact ⟨hstep, stageSound_afterAccount hkept rfl rfl cfg side⟩
      · exact ⟨hstep, hkept.next rfl (fun _ => rfl) (by simp [Stage.transferId?]) (by simp)⟩
  | recheckingAccount record cfg side err =>
      refine ⟨StepSound.refl h, ?_⟩
      simp only [advanceStage, recheckStep]
      split
      · split
        · exact stageSound_afterAccount hstage rfl rfl cfg side
        · exact stageSound_finished _ _
      · exact stageSound_finished _ _
  | creatingTransfer record cfg =>
      refine advanceSound_ledger h hstage (attempts_createPendingTransfer _ _) reply _ rfl ?_ ?_
      · intro r hrow _
        obtain ⟨r', hr', hterms⟩ := hstage.record record rfl
        obtain rfl : r = r' := Option.some.inj (hrow.symm.trans hr')
        exact transferOf_pending hterms cfg
      · refine hstage.next rfl (fun _ => rfl) ?_ (by simp)
        intro id hid
        exact Or.inr ⟨record, rfl, (Option.some.inj hid).symm⟩
  | recordingCommitment record transferId =>
      refine advanceSound_statement h reply ?_ _
      intro r hrow
      rw [hstage.transferId transferId r rfl hrow]
      exact statementSound_commitment
  | lookingUpParty record payerFSP =>
      simp only [advanceStage]
      split
      · exact advanceSound_quiet h hstage (Or.inl rfl) rfl (by simp [Stage.transferId?]) (by simp)
      · exact advanceSound_quiet h hstage (Or.inl rfl) rfl (by simp [Stage.transferId?]) (by simp)
  | quoting record payerFSP payeeFSP =>
      simp only [advanceStage]
      split
      · exact advanceSound_quiet h hstage (Or.inl rfl) rfl (by simp [Stage.transferId?]) (by simp)
      · exact advanceSound_quiet h hstage (Or.inl rfl) rfl (by simp [Stage.transferId?]) (by simp)
  | transferring record payerFSP payeeFSP quoteId =>
      obtain ⟨r, a, hrow, -⟩ := hstage.cleared rfl
      have hstep := stepSound_transferOut h hrow reply (mojaTransfer lib record payerFSP payeeFSP quoteId)
      have hkept := hstage.stable hstep.grows
      simp only [advanceStage]
      split
      · exact ⟨hstep, hkept.next rfl (fun _ => rfl) (by simp [Stage.transferId?]) (by simp)⟩
      · exact ⟨hstep, hkept.next rfl (fun _ => rfl) (by simp [Stage.transferId?]) (by simp)⟩
  | recordingDispatch record quoteId transferId =>
      exact advanceSound_statement h reply (fun r _ => statementSound_dispatch quoteId transferId) _
  | markingUnavailable record code err =>
      exact advanceSound_finished (stepSound_statement h reply fun r _ => statementSound_unavailable code) rfl
  | gettingTransaction record =>
      simp only [advanceStage]
      split
      · split
        · exact advanceSound_quiet h hstage (Or.inl rfl) rfl (fun id hid => hid) (by simp)
        · exact advanceSound_quiet h hstage (Or.inr ⟨_, rfl⟩) rfl (by simp [Stage.transferId?]) (by simp)
      · exact advanceSound_quiet h hstage (Or.inr ⟨_, rfl⟩) rfl (by simp [failed, Stage.transferId?])
          (by simp [failed])
  | posting record receipt =>
      refine advanceSound_ledger h hstage (attempts_native _ _ _) reply _ rfl ?_ ?_
      · intro r hrow _
        exact transferOf_post (hstage.transferId _ r rfl hrow)
      · exact hstage.next rfl (fun _ => rfl) (by simp [Stage.transferId?]) (by simp)
  | recordingSettled record receiptSha256 =>
      exact advanceSound_statement h reply (fun r _ => statementSound_settled receiptSha256) _
  | voiding record transferId =>
      refine advanceSound_ledger h hstage (attempts_native _ _ _) reply _ rfl ?_ ?_
      · intro r hrow _
        exact transferOf_void (hstage.transferId transferId r rfl hrow)
      · exact hstage.next rfl (fun _ => rfl) (by simp [Stage.transferId?]) (by simp)
  | recordingVoid record =>
      exact advanceSound_statement h reply (fun r _ => statementSound_void) _

/-! ### Every reachable state -/

/-- The invariant of the machine. -/
structure StateSound (lib : SettlementLib) (s : SettlementState) : Prop where
  world : WorldSound lib s.world
  stages : ∀ pid, StageSound lib s.world (s.procs pid)

/-- A creation that goes through starts from a world without any of it. -/
theorem createWorld_cases (lib : SettlementLib) (env : SettlementEnv) (id : String) (actor : Actor)
    (req : SettlementRequest) (w : World) :
    createWorld lib env id actor req w = w ∨
      ∃ row isNew, w.row = none ∧ createOperationalSettlement lib env none id actor.1 req = .ok (row, isNew) ∧
        createWorld lib env id actor req w =
          { w with row := some row, log := w.log ++ [.created env actor.1 req] } := by
  cases hrow : w.row with
  | some r =>
      left
      rw [createWorld, hrow]
  | none =>
      cases hcreated : createOperationalSettlement lib env none id actor.1 req with
      | error err =>
          left
          rw [createWorld, hrow]
          simp only [hcreated]
      | ok created =>
          right
          refine ⟨created.1, created.2, rfl, rfl, ?_⟩
          rw [createWorld, hrow]
          simp only [hcreated]

theorem stepSound_create {w : World} (h : WorldSound lib w) (env : SettlementEnv) (id : String) (actor : Actor)
    (req : SettlementRequest) : StepSound lib w (createWorld lib env id actor req w) := by
  rcases createWorld_cases lib env id actor req w with hsame | ⟨row, isNew, hrow, hcreated, heq⟩
  · rw [hsame]
    exact StepSound.refl h
  · rw [heq]
    obtain ⟨valid, debit, credit, hvalid, rfl⟩ := createOperationalSettlement_new hcreated
    refine ⟨?_, ?_, ?_⟩
    · intro r hr
      rw [hrow] at hr
      cases hr
    · intro hnone
      cases hnone
    · intro r hr
      obtain rfl := Option.some.inj hr
      have hempty := (h.fresh hrow).1
      refine ⟨⟨_, List.mem_append_right _ (List.mem_singleton_self _), env, req, valid, rfl, hvalid, rfl, rfl, rfl⟩,
        fun _ => ⟨Or.inl rfl, rfl, hempty⟩, fun a ha => (by cases ha), fun id hid => (by cases hid), ?_⟩
      intro t ht
      rw [show w.ledger.transfers = [] from hempty] at ht
      cases ht

theorem settlementStep_sound (s : SettlementState) (i : SettlementInput) (h : StateSound lib s) :
    StateSound lib (settlementStep lib s i) := by
  cases i with
  | create env id actor req =>
      have hstep := stepSound_create h.world env id actor req
      exact ⟨hstep.world, fun pid => (h.stages pid).stable hstep.grows⟩
  | begin pid env actor op =>
      simp only [settlementStep]
      split
      · refine ⟨h.world, ?_⟩
        exact Interference.forall_update (stageSound_begin h.world env actor.2 op) (fun _ hp => hp) h.stages
      · exact h
  | advance pid env reply answer =>
      have hsound := advance_sound env reply answer h.world (h.stages pid)
      refine ⟨hsound.step.world, ?_⟩
      exact Interference.forall_update hsound.stage (fun _ hp => hp.stable hsound.step.grows) h.stages
  | stop pid =>
      refine ⟨h.world, ?_⟩
      exact Interference.forall_update (stageSound_finished _ _) (fun _ hp => hp) h.stages

theorem stateSound_start (zeroPostsPending : Bool) (accounts : List TBAccount) :
    StateSound lib (settlementStart zeroPostsPending accounts) := by
  refine ⟨⟨fun _ => ⟨rfl, rfl, rfl⟩, ?_⟩, ?_⟩
  · intro r hr
    cases hr
  · intro pid
    refine ⟨?_, ?_, ?_, ?_⟩ <;> simp [settlementStart, Stage.record?, Stage.cleared, Stage.transferId?]

end Inec
