import Mathlib.Logic.Function.Basic
import Inec.Settlement.Request

/-!
# Settlements as a machine

One settlement, the ledger, the Mojaloop switch, and any number of requests on the settlement that run
at the same time. A request starts by reading its row and then works on that copy. Every statement and
every call after it is a step of its own; between two steps other requests run, and a request can stop
at any of them.

A call or statement is `answered`, or it is carried out and the answer is `lost`, or it is `unreachable`
and nothing happens. The caller cannot tell the last two apart.
-/

namespace Inec

open Checks

/-! ### State -/

/-- A transfer the switch was asked to make, with its amount in minor units. -/
structure MojaTransfer where
  transferId : String
  quoteId : String
  payerFSP : String
  payeeFSP : String
  amount : Int
  currency : String
  deriving DecidableEq, Repr

/-- What happened to the settlement, in order. -/
inductive SettlementEvent
  | created (env : SettlementEnv) (actor : String) (req : SettlementRequest)
  | approved (actor : String)
  | ledgerTransfer (transfer : LedgerTransfer)
  | mojaloopTransfer (transfer : MojaTransfer)

structure World where
  row : Option SettlementRow
  ledger : Ledger
  mojaloop : List MojaTransfer
  log : List SettlementEvent

inductive AccountSide
  | debit | credit
  deriving DecidableEq, Repr

/-- Where a request stands: the statement or call it makes next, and what it carries. -/
inductive Stage
  | idle
  | approving (actor : String) (record : SettlementRow)
  | lookingUp (record : SettlementRow) (cfg : SettlementConfig) (side : AccountSide)
  | creatingAccount (record : SettlementRow) (cfg : SettlementConfig) (side : AccountSide)
  | recheckingAccount (record : SettlementRow) (cfg : SettlementConfig) (side : AccountSide) (err : String)
  | creatingTransfer (record : SettlementRow) (cfg : SettlementConfig)
  | recordingCommitment (record : SettlementRow) (transferId : String)
  | lookingUpParty (record : SettlementRow) (payerFSP : String)
  | quoting (record : SettlementRow) (payerFSP payeeFSP : String)
  | transferring (record : SettlementRow) (payerFSP payeeFSP quoteId : String)
  | recordingDispatch (record : SettlementRow) (quoteId transferId : String)
  | markingUnavailable (record : SettlementRow) (code : String) (err : HttpError)
  | gettingTransaction (record : SettlementRow)
  | posting (record : SettlementRow) (receipt : String)
  | recordingSettled (record : SettlementRow) (receiptSha256 : String)
  | voiding (record : SettlementRow) (transferId : String)
  | recordingVoid (record : SettlementRow)
  | finished (result : Except HttpError Unit)

/-- What comes back from a call. -/
inductive Reply
  | answered | lost | unreachable
  deriving DecidableEq, Repr

/-- The fields the switch fills in, each read by one call. -/
structure MojaAnswer where
  fspId : String
  quoteId : String
  ilpPacket : String
  condition : String
  transferId : String
  phase : String
  receipt : String
  deriving DecidableEq, Repr

inductive SettlementOp
  | approve
  | commit
  | dispatch (recipientReference : String)
  | reconcile
  | void
  deriving DecidableEq, Repr

structure SettlementState where
  world : World
  procs : Nat → Stage

/-! ### Reading the row -/

def failed (code : Nat) (message : String) : Stage := .finished (.error ⟨code, message⟩)

/-- The statuses of a settlement whose approval, or commitment, is behind it. -/
def SettlementStatus.committed : SettlementStatus → Bool
  | .ledgerPending => true
  | .mojaloopUnavailable => true
  | .mojaloopPending => true
  | .settled => true
  | _ => false

/-- The checks of an operation that come after the read and before the first statement or call. -/
def beginOp (lib : SettlementLib) (env : SettlementEnv) (actor : String) (record : SettlementRow) :
    SettlementOp → Except HttpError Stage
  | .approve => do
      require (record.requestedBy != actor) ⟨403, "requester may not approve the same operational settlement"⟩
      if record.status = .requested then return .approving actor record
      require (record.status == .approved || record.status.committed)
        ⟨409, "operational settlement cannot be approved from status " ++ record.status.text⟩
      return .finished (.ok ())
  | .commit => do
      if record.status.committed then return .finished (.ok ())
      require (record.status == .approved || record.status == .failed)
        ⟨409, "operational settlement cannot create a ledger commitment from status " ++ record.status.text⟩
      require (record.approvedBy.getD "" != "" && record.approvedBy.getD "" != record.requestedBy)
        ⟨409, "operational settlement lacks independent approval"⟩
      env.tigerBeetleReady
      let cfg ← env.configuration
      require (cfg.treasuryAccount == record.tigerBeetleDebitAccount)
        ⟨409, "configured treasury account does not match commitment binding"⟩
      return .lookingUp record cfg .debit
  | .dispatch recipientReference => do
      if record.status = .mojaloopPending ∨ record.status = .settled then return .finished (.ok ())
      require (record.status == .ledgerPending || record.status == .mojaloopUnavailable)
        ⟨409, "operational settlement cannot dispatch from status " ++ record.status.text⟩
      require (trimSpace recipientReference != "" &&
          lib.sha256LowerHex (trimSpace recipientReference) == record.recipientReferenceSha256)
        ⟨400, "recipient_reference does not match the approved operational commitment"⟩
      match env.mojaloopReady with
      | .error err => return .markingUnavailable record "mojaloop_unavailable" err
      | .ok () => return .lookingUpParty record (trimSpace env.payerFSP)
  | .reconcile => do
      if record.status = .settled then return .finished (.ok ())
      require (record.status == .mojaloopPending && record.tigerBeetleTransferId.getD "" != "" &&
          record.mojaloopTransferId.getD "" != "")
        ⟨409, "operational settlement has no pending authorized Mojaloop transfer"⟩
      env.mojaloopReady
      return .gettingTransaction record
  | .void => do
      if record.status = .voided then return .finished (.ok ())
      require (record.status != .settled && record.status != .mojaloopPending)
        ⟨409, "an external or settled operational commitment cannot be voided through this control"⟩
      if record.tigerBeetleTransferId.getD "" = "" then return .recordingVoid record
      env.tigerBeetleReady
      return .voiding record (record.tigerBeetleTransferId.getD "")

/-- `getOperationalSettlement` and the checks on what it finds. -/
def beginStage (lib : SettlementLib) (env : SettlementEnv) (actor : String) (op : SettlementOp)
    (w : World) : Stage :=
  match w.row with
  | none => failed 404 "operational settlement commitment not found"
  | some record =>
      match beginOp lib env actor record op with
      | .ok stage => stage
      | .error err => .finished (.error err)

/-! ### Statements and calls -/

/-- An UPDATE of the row, which may match no row and says nothing then. -/
def World.update (w : World) (f : SettlementRow → SettlementRow) : World := { w with row := w.row.map f }

/-- An UPDATE guarded by the status of the row. -/
def whenStatus (p : SettlementStatus → Bool) (f : SettlementRow → SettlementRow)
    (r : SettlementRow) : SettlementRow :=
  if p r.status then f r else r

/-- Carry a statement out unless the database cannot be reached. -/
def World.statement (w : World) (reply : Reply) (f : SettlementRow → SettlementRow) : World :=
  if reply = .unreachable then w else w.update f

/-- The end of an operation whose last statement is this one. -/
def afterStatement (reply : Reply) (message : String) : Stage :=
  if reply = .answered then .finished (.ok ()) else failed 503 message

/-- A call of the ledger: what the caller learns, and the ledger after it with the transfers it accepted. -/
def World.callLedger (w : World) (reply : Reply) (outcome : Except String Unit × Ledger) :
    Except String Unit × World :=
  match reply with
  | .unreachable => (.error "unreachable", w)
  | .lost => (.error "no reply", accepted)
  | .answered => (outcome.1, accepted)
where
  accepted : World :=
    { w with
      ledger := outcome.2
      log := w.log ++ (outcome.2.transfers.drop w.ledger.transfers.length).map .ledgerTransfer }

def SettlementRow.account (record : SettlementRow) : AccountSide → String
  | .debit => record.tigerBeetleDebitAccount
  | .credit => record.tigerBeetleCreditAccount

/-- The second account follows the first, the transfer follows the second. -/
def afterAccount (record : SettlementRow) (cfg : SettlementConfig) : AccountSide → Stage
  | .debit => .lookingUp record cfg .credit
  | .credit => .creatingTransfer record cfg

def accountMatches (cfg : SettlementConfig) (a : TBAccount) : Bool :=
  a.ledger == cfg.ledger && a.code == cfg.accountCode

def ledgerTransferId (lib : SettlementLib) (record : SettlementRow) : String :=
  lib.uuidSHA1 ("inec-operational-settlement-tigerbeetle:" ++ record.id)

def mojaloopTransferId (lib : SettlementLib) (record : SettlementRow) : String :=
  lib.uuidSHA1 ("inec-operational-settlement-mojaloop:" ++ record.id)

/-- The pending transfer of a settlement. -/
def pendingTransfer (lib : SettlementLib) (record : SettlementRow) (cfg : SettlementConfig) : LedgerTransfer where
  id := ledgerTransferId lib record
  flag := .pending
  debitAccountId := record.tigerBeetleDebitAccount
  creditAccountId := record.tigerBeetleCreditAccount
  amount := record.amountMinor
  ledger := cfg.ledger
  code := cfg.transferCode

/-- `tbNativeClient.CreateTransfer` with its checks on the request. -/
def createPendingTransfer (l : Ledger) (t : LedgerTransfer) : Except String Unit × Ledger :=
  if trimSpace t.debitAccountId = "" ∨ trimSpace t.creditAccountId = "" then
    (.error "TigerBeetle debit and credit account IDs are required", l)
  else if t.amount ≤ 0 then (.error "TigerBeetle transfer amount must be positive", l)
  else TBClient.createTransfer l t

/-- The transfer the switch is asked to make. -/
def mojaTransfer (lib : SettlementLib) (record : SettlementRow) (payerFSP payeeFSP quoteId : String) :
    MojaTransfer where
  transferId := mojaloopTransferId lib record
  quoteId := quoteId
  payerFSP := payerFSP
  payeeFSP := payeeFSP
  amount := wireAmount record.amountMinor
  currency := record.currency

def World.transferOut (w : World) (reply : Reply) (t : MojaTransfer) : World :=
  if reply = .unreachable then w
  else { w with mojaloop := w.mojaloop ++ [t], log := w.log ++ [.mojaloopTransfer t] }

/-! ### The UPDATE statements -/

def recordApproval (actor : String) (r : SettlementRow) : SettlementRow :=
  { r with approvedBy := some actor, status := .approved }

def recordCommitment (transferId : String) : SettlementRow → SettlementRow :=
  whenStatus (fun s => s == .approved || s == .failed) fun r =>
    { r with status := .ledgerPending, tigerBeetleTransferId := some transferId, failureCode := none }

def recordUnavailable (code : String) : SettlementRow → SettlementRow :=
  whenStatus (fun s => s == .ledgerPending || s == .mojaloopUnavailable) fun r =>
    { r with status := .mojaloopUnavailable, failureCode := some code }

def recordDispatch (quoteId transferId : String) : SettlementRow → SettlementRow :=
  whenStatus (fun s => s == .ledgerPending || s == .mojaloopUnavailable) fun r =>
    { r with
      status := .mojaloopPending
      mojaloopQuoteId := some quoteId
      mojaloopTransferId := some transferId
      failureCode := none }

def recordSettled (receiptSha256 : String) : SettlementRow → SettlementRow :=
  whenStatus (fun s => s == .mojaloopPending) fun r =>
    { r with status := .settled, externalReceiptSha256 := some receiptSha256, failureCode := none }

def recordVoid : SettlementRow → SettlementRow :=
  whenStatus (fun s => s != .settled && s != .mojaloopPending && s != .voided) fun r => { r with status := .voided }

/-! ### One step of a request -/

variable (lib : SettlementLib)

/-- The transaction of an approval. The UPDATE asks for a row that is still unapproved, and the table
refuses a requester as approver. -/
def approveStep (reply : Reply) (actor : String) (w : World) : World × Stage :=
  match w.row with
  | none => (w, failed 409 "operational settlement approval changed concurrently")
  | some r =>
      if reply = .unreachable then (w, failed 503 "approve operational settlement")
      else if r.status = .requested ∧ r.approvedBy = none then
        if actor = r.requestedBy then (w, failed 503 "approve operational settlement")
        else
          ({ w.update (recordApproval actor) with log := w.log ++ [.approved actor] },
            afterStatement reply "commit operational settlement approval")
      else (w, failed 409 "operational settlement approval changed concurrently")

/-- `GetAccount` of `ensureTigerBeetleAccount`. -/
def lookupStep (reply : Reply) (record : SettlementRow) (cfg : SettlementConfig) (side : AccountSide) (w : World) :
    Stage :=
  match reply, w.ledger.account? (record.account side) with
  | .answered, some a =>
      if accountMatches cfg a then afterAccount record cfg side
      else failed 409 "TigerBeetle account configuration does not match the operational settlement ledger"
  | _, _ => .creatingAccount record cfg side

/-- The second `GetAccount`, after a creation that reported an error. -/
def recheckStep (reply : Reply) (record : SettlementRow) (cfg : SettlementConfig) (side : AccountSide)
    (err : String) (w : World) : Stage :=
  match reply, w.ledger.account? (record.account side) with
  | .answered, some a =>
      if accountMatches cfg a then afterAccount record cfg side
      else failed 503 ("create TigerBeetle account: " ++ err)
  | _, _ => failed 503 ("create TigerBeetle account: " ++ err)

/-- A ledger call and what follows from it. -/
def ledgerStep (reply : Reply) (outcome : Except String Unit × Ledger) (next : Stage) (message : String)
    (w : World) : World × Stage :=
  let called := w.callLedger reply outcome
  match called.1 with
  | .ok () => (called.2, next)
  | .error err => (called.2, failed 503 (message ++ err))

/-- The next statement or call of a request. -/
def advanceStage (env : SettlementEnv) (reply : Reply) (answer : MojaAnswer) (w : World) : Stage → World × Stage
  | .idle => (w, .idle)
  | .finished result => (w, .finished result)
  | .approving actor _ => approveStep reply actor w
  | .lookingUp record cfg side => (w, lookupStep reply record cfg side w)
  | .creatingAccount record cfg side =>
      let called := w.callLedger reply
        (TBClient.createAccount w.ledger ⟨record.account side, cfg.ledger, cfg.accountCode⟩)
      match called.1 with
      | .ok () => (called.2, afterAccount record cfg side)
      | .error err => (called.2, .recheckingAccount record cfg side err)
  | .recheckingAccount record cfg side err => (w, recheckStep reply record cfg side err w)
  | .creatingTransfer record cfg =>
      ledgerStep reply (createPendingTransfer w.ledger (pendingTransfer lib record cfg))
        (.recordingCommitment record (ledgerTransferId lib record))
        "create pending TigerBeetle operational commitment: " w
  | .recordingCommitment _ transferId =>
      (w.statement reply (recordCommitment transferId),
        afterStatement reply "record TigerBeetle operational commitment")
  | .lookingUpParty record payerFSP =>
      if reply = .answered ∧ trimSpace answer.fspId ≠ "" then (w, .quoting record payerFSP answer.fspId)
      else (w, .markingUnavailable record "party_lookup_unavailable" ⟨503, "Mojaloop party lookup failed"⟩)
  | .quoting record payerFSP payeeFSP =>
      if reply = .answered ∧ trimSpace answer.quoteId ≠ "" ∧ trimSpace answer.ilpPacket ≠ "" ∧
          trimSpace answer.condition ≠ "" then
        (w, .transferring record payerFSP payeeFSP answer.quoteId)
      else (w, .markingUnavailable record "quote_unavailable" ⟨503, "Mojaloop quote was not verified"⟩)
  | .transferring record payerFSP payeeFSP quoteId =>
      let sent := w.transferOut reply (mojaTransfer lib record payerFSP payeeFSP quoteId)
      if reply = .answered ∧ trimSpace answer.transferId ≠ "" then
        (sent, .recordingDispatch record quoteId answer.transferId)
      else (sent, .markingUnavailable record "transfer_unavailable" ⟨503, "Mojaloop transfer was not accepted"⟩)
  | .recordingDispatch _ quoteId transferId =>
      (w.statement reply (recordDispatch quoteId transferId), afterStatement reply "record Mojaloop transfer")
  | .markingUnavailable _ code err =>
      (w.statement reply (recordUnavailable code), .finished (.error err))
  | .gettingTransaction record =>
      if reply = .answered ∧ Text.equalFold (trimSpace answer.phase) "settlement" then
        match env.tigerBeetleReady with
        | .ok () => (w, .posting record answer.receipt)
        | .error err => (w, .finished (.error err))
      else (w, failed 409 "Mojaloop settlement receipt is not yet verified")
  | .posting record receipt =>
      ledgerStep reply (TBClient.postTransfer w.ledger (record.tigerBeetleTransferId.getD ""))
        (.recordingSettled record (lib.sha256LowerHex receipt)) "post approved TigerBeetle commitment: " w
  | .recordingSettled _ receiptSha256 =>
      (w.statement reply (recordSettled receiptSha256),
        afterStatement reply "record settled operational commitment")
  | .voiding record transferId =>
      ledgerStep reply (TBClient.voidTransfer w.ledger transferId) (.recordingVoid record)
        "void TigerBeetle operational commitment: " w
  | .recordingVoid _ =>
      (w.statement reply recordVoid, afterStatement reply "record voided operational commitment")

/-! ### The machine -/

/-- An actor as `currentGatewayActor` returns it. -/
abbrev Actor := { actor : String // actor ≠ "" }

inductive SettlementInput
  | create (env : SettlementEnv) (id : String) (actor : Actor) (req : SettlementRequest)
  | begin (pid : Nat) (env : SettlementEnv) (actor : Actor) (op : SettlementOp)
  | advance (pid : Nat) (env : SettlementEnv) (reply : Reply) (answer : MojaAnswer)
  | stop (pid : Nat)

/-- A creation inserts the row when there is none. Under another key it makes a settlement of its own. -/
def createWorld (env : SettlementEnv) (id : String) (actor : Actor) (req : SettlementRequest) (w : World) : World :=
  match w.row with
  | some _ => w
  | none =>
      match createOperationalSettlement lib env none id actor.1 req with
      | .ok created => { w with row := some created.1, log := w.log ++ [.created env actor.1 req] }
      | .error _ => w

def settlementStep (s : SettlementState) : SettlementInput → SettlementState
  | .create env id actor req => { s with world := createWorld lib env id actor req s.world }
  | .begin pid env actor op =>
      match s.procs pid with
      | .idle => { s with procs := Function.update s.procs pid (beginStage lib env actor.1 op s.world) }
      | _ => s
  | .advance pid env reply answer =>
      let next := advanceStage lib env reply answer s.world (s.procs pid)
      ⟨next.1, Function.update s.procs pid next.2⟩
  | .stop pid => { s with procs := Function.update s.procs pid (.finished (.error ⟨500, "stopped"⟩)) }

/-- No settlement yet, no request, and a ledger and switch that have not heard of it. -/
def settlementStart (zeroPostsPending : Bool) (accounts : List TBAccount) : SettlementState where
  world := ⟨none, ⟨zeroPostsPending, accounts, []⟩, [], []⟩
  procs _ := .idle

/-! ### How an operation begins -/

/-- The first stage of an operation that passed its checks, with what they established. -/
inductive Begins (actor : String) (record : SettlementRow) : SettlementOp → Stage → Prop
  | done {op : SettlementOp} : Begins actor record op (.finished (.ok ()))
  | approve (status : record.status = .requested) : Begins actor record .approve (.approving actor record)
  | commit {cfg : SettlementConfig} (status : record.status = .approved ∨ record.status = .failed)
      (approved : record.approvedBy ≠ none) : Begins actor record .commit (.lookingUp record cfg .debit)
  | unready {recipientReference code : String} {err : HttpError}
      (status : record.status = .ledgerPending ∨ record.status = .mojaloopUnavailable) :
      Begins actor record (.dispatch recipientReference) (.markingUnavailable record code err)
  | dispatch {recipientReference payerFSP : String}
      (status : record.status = .ledgerPending ∨ record.status = .mojaloopUnavailable) :
      Begins actor record (.dispatch recipientReference) (.lookingUpParty record payerFSP)
  | reconcile (status : record.status = .mojaloopPending) (transfer : record.tigerBeetleTransferId.getD "" ≠ "") :
      Begins actor record .reconcile (.gettingTransaction record)
  | voidUnbacked (status : record.status ≠ .settled ∧ record.status ≠ .mojaloopPending ∧ record.status ≠ .voided)
      (transfer : record.tigerBeetleTransferId.getD "" = "") : Begins actor record .void (.recordingVoid record)
  | void (status : record.status ≠ .settled ∧ record.status ≠ .mojaloopPending ∧ record.status ≠ .voided)
      (transfer : record.tigerBeetleTransferId.getD "" ≠ "") :
      Begins actor record .void (.voiding record (record.tigerBeetleTransferId.getD ""))

variable {lib}

theorem beginOp_ok {env : SettlementEnv} {actor : String} {record : SettlementRow}
    {op : SettlementOp} {stage : Stage} (h : beginOp lib env actor record op = .ok stage) :
    Begins actor record op stage := by
  cases op with
  | approve =>
      simp only [beginOp, bind_eq_ok, require_eq_ok] at h
      obtain ⟨-, -, h⟩ := h
      split at h
      · rw [← Except.ok.inj h]
        exact .approve (by assumption)
      · simp only [bind_eq_ok, pure_eq_ok] at h
        obtain ⟨-, -, rfl⟩ := h
        exact .done
  | commit =>
      simp only [beginOp] at h
      split at h
      · rw [← Except.ok.inj h]
        exact .done
      · simp only [bind_eq_ok, require_eq_ok, pure_eq_ok, Bool.or_eq_true, beq_iff_eq, Bool.and_eq_true] at h
        obtain ⟨-, hstatus, -, ⟨happroved, -⟩, -, -, cfg, -, -, -, rfl⟩ := h
        refine .commit hstatus ?_
        intro hnone
        rw [hnone] at happroved
        simp at happroved
  | dispatch recipientReference =>
      simp only [beginOp] at h
      split at h
      · rw [← Except.ok.inj h]
        exact .done
      · simp only [bind_eq_ok, require_eq_ok, Bool.or_eq_true, beq_iff_eq] at h
        obtain ⟨-, hstatus, -, -, h⟩ := h
        split at h
        · rw [← Except.ok.inj h]
          exact .unready hstatus
        · rw [← Except.ok.inj h]
          exact .dispatch hstatus
  | reconcile =>
      simp only [beginOp] at h
      split at h
      · rw [← Except.ok.inj h]
        exact .done
      · simp only [bind_eq_ok, require_eq_ok, pure_eq_ok, Bool.and_eq_true, beq_iff_eq, bne_iff_ne] at h
        obtain ⟨-, ⟨⟨hstatus, htransfer⟩, -⟩, -, -, rfl⟩ := h
        exact .reconcile hstatus htransfer
  | void =>
      simp only [beginOp] at h
      split at h
      · rw [← Except.ok.inj h]
        exact .done
      · rename_i hvoided
        simp only [bind_eq_ok, require_eq_ok, Bool.and_eq_true, bne_iff_ne] at h
        obtain ⟨-, ⟨hsettled, hpending⟩, h⟩ := h
        split at h
        · rw [← Except.ok.inj h]
          exact .voidUnbacked ⟨hsettled, hpending, hvoided⟩ (by assumption)
        · simp only [bind_eq_ok, pure_eq_ok] at h
          obtain ⟨-, -, rfl⟩ := h
          exact .void ⟨hsettled, hpending, hvoided⟩ (by assumption)

/-- A request that finds no row, or whose checks fail, is over at once. -/
theorem beginStage_cases (lib : SettlementLib) (env : SettlementEnv) (actor : String)
    (op : SettlementOp) (w : World) :
    (∃ result, beginStage lib env actor op w = .finished result) ∨
      ∃ record, w.row = some record ∧ Begins actor record op (beginStage lib env actor op w) := by
  cases hrow : w.row with
  | none =>
      left
      rw [beginStage, hrow]
      exact ⟨_, rfl⟩
  | some record =>
      cases hbegin : beginOp lib env actor record op with
      | error err =>
          left
          rw [beginStage, hrow]
          simp only [hbegin]
          exact ⟨_, rfl⟩
      | ok stage =>
          right
          refine ⟨record, rfl, ?_⟩
          rw [beginStage, hrow]
          simp only [hbegin]
          exact beginOp_ok hbegin

/-! ### A settlement of one device -/

/-- Texts that stand for their own hashes and ids. -/
def plainLib : SettlementLib where
  sha256LowerHex := id
  parseUUID _ := true
  uuidSHA1 name := "uuid:" ++ name
  uuidSHA1_ne_empty name h := by
    have hlist := congrArg String.toList h
    simp at hlist

def plainSettlementEnv : SettlementEnv where
  configuration := .ok ⟨"treasury", 1, 10, 20⟩
  tigerBeetleReady := .ok ()
  mojaloopReady := .ok ()
  payerFSP := "inec"
  deviceAccountPrefix := "device-"
  maxAmountMinor := 0
  enrollment _ := some (1, "active")

/-- What the switch answers when it settles the transfer. -/
def settledAnswer : MojaAnswer := ⟨"payee", "quote", "packet", "condition", "transfer", "SETTLEMENT", "receipt"⟩

def requestSettlement (amountMinor : Int) : SettlementInput :=
  .create plainSettlementEnv "s-1" ⟨"requester", by decide⟩
    ⟨1, "BVAS-1", "device_repair", amountMinor, "NGN", "2348000000000",
      "aaaaaaaaaaaaaaaaaaaaaaaaaaaaaaaaaaaaaaaaaaaaaaaaaaaaaaaaaaaaaaaa", "repair", "key-1"⟩

/-- The read of a request by the approver. -/
def beginAs (pid : Nat) (op : SettlementOp) : SettlementInput :=
  .begin pid plainSettlementEnv ⟨"approver", by decide⟩ op

/-- Its next step, answered. -/
def answeredStep (pid : Nat) : SettlementInput := .advance pid plainSettlementEnv .answered settledAnswer

/-- A request from its read through a number of answered steps. -/
def performOp (pid : Nat) (op : SettlementOp) (steps : Nat) : List SettlementInput :=
  beginAs pid op :: List.replicate steps (answeredStep pid)

/-- Requested, approved and committed to the ledger. -/
def committedInputs (amountMinor : Int) : List SettlementInput :=
  requestSettlement amountMinor :: (performOp 0 .approve 1 ++ performOp 1 .commit 6)

end Inec
