import Inec.Lib.Rounding
import Inec.Evidence.Record
import Inec.Settlement.Ledger

/-!
# Settlement requests

The rows of `operational_settlement_commitments` and `createOperationalSettlement` of
operational_settlement.go, and the amount the Mojaloop client of mw_mojaloop.go puts on the wire. Money
is counted in minor units everywhere but there: the client is given a `float64` of major units and
prints it with two decimals.

The audit trail and the outbox are written and never read by the settlement operations, so they are
left out.
-/

namespace Inec

open Checks

/-! ### Rows -/

/-- The CHECK on `status`. No operation writes `ledger_committed` or `failed`. -/
inductive SettlementStatus
  | requested | approved | ledgerPending | ledgerCommitted | mojaloopUnavailable | mojaloopPending
  | settled | voided | failed
  deriving DecidableEq, Repr

def SettlementStatus.text : SettlementStatus → String
  | .requested => "requested"
  | .approved => "approved"
  | .ledgerPending => "ledger_pending"
  | .ledgerCommitted => "ledger_committed"
  | .mojaloopUnavailable => "mojaloop_unavailable"
  | .mojaloopPending => "mojaloop_pending"
  | .settled => "settled"
  | .voided => "voided"
  | .failed => "failed"

structure SettlementRow where
  id : String
  electionId : Int
  deviceId : String
  commitmentKind : String
  amountMinor : Int
  currency : String
  recipientReferenceSha256 : String
  evidenceSha256 : String
  purposeReferenceSha256 : String
  idempotencyKey : String
  requestedBy : String
  approvedBy : Option String
  status : SettlementStatus
  tigerBeetleDebitAccount : String
  tigerBeetleCreditAccount : String
  tigerBeetleTransferId : Option String
  mojaloopQuoteId : Option String
  mojaloopTransferId : Option String
  externalReceiptSha256 : Option String
  failureCode : Option String
  deriving DecidableEq, Repr

/-! ### Outside -/

/-- The hash and the UUID functions. -/
structure SettlementLib where
  sha256LowerHex : String → String
  /-- Whether `uuid.Parse` accepts the text. -/
  parseUUID : String → Bool
  /-- `uuid.NewSHA1(uuid.NameSpaceURL, name).String()`, a text of 36 characters. -/
  uuidSHA1 : String → String
  uuidSHA1_ne_empty : ∀ name, uuidSHA1 name ≠ ""

/-- `operationalSettlementConfiguration`. -/
structure SettlementConfig where
  treasuryAccount : String
  ledger : Int
  accountCode : Int
  transferCode : Int
  deriving DecidableEq, Repr

/-- What an operation sees of its surroundings. -/
structure SettlementEnv where
  configuration : Except HttpError SettlementConfig
  tigerBeetleReady : Except HttpError Unit
  mojaloopReady : Except HttpError Unit
  payerFSP : String
  deviceAccountPrefix : String
  maxAmountMinor : Int
  /-- `bvas_device_enrollments`: election and status of a device. -/
  enrollment : String → Option (Int × String)

/-! ### Creation -/

structure SettlementRequest where
  electionId : Int
  deviceId : String
  commitmentKind : String
  amountMinor : Int
  currency : String
  recipientReference : String
  evidenceSha256 : String
  purposeReference : String
  idempotencyKey : String
  deriving DecidableEq, Repr

def normalizeLowerHex64 (v : String) : Except String String :=
  let v := Text.lower (trimSpace v)
  if v.utf8ByteSize ≠ 64 then .error "expected 64-character lowercase SHA-256 hex"
  else if v.toList.all Text.isHexDigit then .ok v
  else .error "invalid SHA-256 hex"

/-- The fields of a request as they are stored. -/
def SettlementRequest.trimmed (req : SettlementRequest) : SettlementRequest :=
  { req with
    deviceId := trimSpace req.deviceId
    commitmentKind := trimSpace req.commitmentKind
    currency := Text.upper (trimSpace req.currency)
    recipientReference := trimSpace req.recipientReference
    purposeReference := trimSpace req.purposeReference
    idempotencyKey := trimSpace req.idempotencyKey }

def commitmentKinds : List String := ["device_logistics", "device_reimbursement", "device_repair"]

def validateOperationalSettlementRequest (lib : SettlementLib) (env : SettlementEnv) (raw : SettlementRequest) :
    Except HttpError SettlementRequest := do
  let req := raw.trimmed
  require (0 < req.electionId && req.deviceId != "" && 0 < req.amountMinor)
    ⟨400, "election_id, device_id, and positive amount_minor are required"⟩
  require (commitmentKinds.contains req.commitmentKind) ⟨400, "commitment_kind is not allowed"⟩
  require (req.currency.utf8ByteSize == 3 && req.currency.toList.all Text.isCapital)
    ⟨400, "currency must be a three-letter uppercase code"⟩
  require (req.recipientReference != "" && req.purposeReference != "")
    ⟨400, "recipient_reference and purpose_reference are required and retained only as hashes"⟩
  require (req.recipientReference.utf8ByteSize ≤ 1024 && req.purposeReference.utf8ByteSize ≤ 4096)
    ⟨400, "recipient_reference or purpose_reference exceeds allowed length"⟩
  require (lib.parseUUID req.idempotencyKey) ⟨400, "idempotency_key must be a UUID"⟩
  let evidence ← relabel (normalizeLowerHex64 req.evidenceSha256) fun err => ⟨400, "evidence_sha256: " ++ err⟩
  require (!(0 < env.maxAmountMinor && env.maxAmountMinor < req.amountMinor))
    ⟨400, "amount_minor exceeds the configured operational settlement cap"⟩
  return { req with evidenceSha256 := evidence }

def loadActiveSettlementDevice (env : SettlementEnv) (electionId : Int) (deviceId : String) :
    Except HttpError Unit := do
  let enrolled ← fetch (env.enrollment deviceId) ⟨404, "device is not enrolled for operational settlement"⟩
  require (enrolled.1 == electionId && Text.equalFold enrolled.2 "active")
    ⟨409, "device enrollment is not active for the specified election"⟩

def settlementDeviceAccount (lib : SettlementLib) (env : SettlementEnv) (deviceId : String) :
    Except HttpError String := do
  require (trimSpace env.deviceAccountPrefix != "")
    ⟨503, "OPERATIONAL_SETTLEMENT_DEVICE_ACCOUNT_PREFIX is not configured"⟩
  return trimSpace env.deviceAccountPrefix ++ lib.sha256LowerHex deviceId

/-- The row of a new settlement. -/
def requestedRow (lib : SettlementLib) (id actor debit credit : String) (req : SettlementRequest) :
    SettlementRow where
  id := id
  electionId := req.electionId
  deviceId := req.deviceId
  commitmentKind := req.commitmentKind
  amountMinor := req.amountMinor
  currency := req.currency
  recipientReferenceSha256 := lib.sha256LowerHex req.recipientReference
  evidenceSha256 := req.evidenceSha256
  purposeReferenceSha256 := lib.sha256LowerHex req.purposeReference
  idempotencyKey := req.idempotencyKey
  requestedBy := actor
  approvedBy := none
  status := .requested
  tigerBeetleDebitAccount := debit
  tigerBeetleCreditAccount := credit
  tigerBeetleTransferId := none
  mojaloopQuoteId := none
  mojaloopTransferId := none
  externalReceiptSha256 := none
  failureCode := none

/-- The new row is the one the existing one was created for. -/
def sameCommitment (existing row : SettlementRow) : Bool :=
  existing.electionId == row.electionId && existing.deviceId == row.deviceId &&
    existing.amountMinor == row.amountMinor && existing.evidenceSha256 == row.evidenceSha256 &&
    existing.recipientReferenceSha256 == row.recipientReferenceSha256 &&
    existing.purposeReferenceSha256 == row.purposeReferenceSha256

/-- `createOperationalSettlement` up to the INSERT, which inserts nothing when the idempotency key is
taken: the row that holds the key afterwards, and whether it is new. -/
def createOperationalSettlement (lib : SettlementLib) (env : SettlementEnv) (existing : Option SettlementRow)
    (id actor : String) (raw : SettlementRequest) : Except HttpError (SettlementRow × Bool) := do
  let req ← validateOperationalSettlementRequest lib env raw
  let cfg ← env.configuration
  env.tigerBeetleReady
  loadActiveSettlementDevice env req.electionId req.deviceId
  let credit ← settlementDeviceAccount lib env req.deviceId
  let row := requestedRow lib id actor cfg.treasuryAccount credit req
  match existing with
  | none => return (row, true)
  | some stored =>
      require (sameCommitment stored row)
        ⟨409, "idempotency_key is already bound to a different operational commitment"⟩
      return (stored, false)

theorem createOperationalSettlement_new {lib : SettlementLib} {env : SettlementEnv} {id actor : String}
    {raw : SettlementRequest} {row : SettlementRow} {isNew : Bool}
    (h : createOperationalSettlement lib env none id actor raw = .ok (row, isNew)) :
    ∃ req debit credit, validateOperationalSettlementRequest lib env raw = .ok req ∧
      row = requestedRow lib id actor debit credit req := by
  simp only [createOperationalSettlement, bind_eq_ok, pure_eq_ok, Prod.mk.injEq] at h
  obtain ⟨req, hreq, cfg, -, -, -, -, -, credit, -, rfl, -⟩ := h
  exact ⟨req, _, credit, hreq, rfl⟩

/-! ### The amount on the wire -/

/-- `float64(amountMinor) / 100`, in units of 2⁻⁵⁹: both the conversion and the division round to 53
significant bits, and no quotient of a positive amount by 100 has a bit below 2⁻⁵⁹ then. -/
def majorUnits (amountMinor : Nat) : Nat :=
  Rounding.significand 52 (Rounding.significand 52 amountMinor 1 * 2 ^ 59) 100

/-- `fmt.Sprintf("%.2f", amount)`, in minor units. -/
def sentMinorUnits (amountMinor : Nat) : Nat := Rounding.nearestEven (100 * majorUnits amountMinor) (2 ^ 59)

/-- The amount of a MojaTransferRequest, in minor units. Amounts are positive. -/
def wireAmount (amountMinor : Int) : Int := sentMinorUnits amountMinor.toNat

/-- 2⁵³ + 1 minor units are sent as 2⁵³. -/
example : sentMinorUnits (2 ^ 53 + 1) = 2 ^ 53 := by decide

end Inec
