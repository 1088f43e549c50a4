import Inec.Lib.HashChain
import Inec.Evidence.Record

/-!
# Verifying an evidence chain

The reading side of evidence_integrity.go: the listing of a result's events and
`verifyEvidenceChain`, which folds them into a report. What its `chain_valid` flag says is
`verifyEvidenceChain_chainValid`: the list is a hash chain in the sense of `HashChain.Valid`, read
through `eventView` and `eventDigest`.
-/

namespace Inec

open Checks

variable (sha256Hex : String → String)

/-- An event as `listResultEvidenceEvents` hands it out, with NULL columns coalesced. -/
structure PublicEvent where
  sequenceNo : Int
  eventType : String
  priorEventHash : String
  eventHash : String
  payloadSha256 : String
  signature : String
  signerKeyId : String
  signerStatus : String
  artifactId : Int
  policyVersionId : Int
  visibility : String
  publicPayload : String
  deriving DecidableEq, Repr

def PublicEvent.ofRow (row : EvidenceEvent) : PublicEvent :=
  { sequenceNo := row.sequenceNo
    eventType := row.eventType
    priorEventHash := row.priorEventHash.getD ""
    eventHash := row.eventHash
    payloadSha256 := row.payloadSha256
    signature := row.signature.getD ""
    signerKeyId := row.signerKeyId.getD ""
    signerStatus := row.signerStatus
    artifactId := row.artifactId.getD 0
    policyVersionId := row.policyVersionId.getD 0
    visibility := row.visibility
    publicPayload := row.publicPayload }

/-- `WHERE result_id=? ORDER BY sequence_no ASC`. -/
def listResultEvidenceEvents (events : List EvidenceEvent) (resultId : Int) : List PublicEvent :=
  ((events.filter fun e => e.resultId == resultId).insertionSort
    fun a b => a.sequenceNo ≤ b.sequenceNo).map PublicEvent.ofRow

def verifyIntegritySignature (env : Env) (hash signature keyId : String) : Except String Bool :=
  if signature = "" then .ok (!env.integritySigningRequired)
  else do
    require (env.integrityServiceToken != "") "integrity service token is unavailable"
    let response ← env.callVerify hash signature keyId
    return response.valid && (response.keyId == "" || response.keyId == keyId)

/-- The report of `verifyEvidenceChain`. -/
structure ChainReport where
  chainValid : Bool
  signatureChecked : Bool
  signatureValid : Bool
  eventCount : Nat
  failureReasons : List String
  deriving DecidableEq, Repr

/-- The variables of the verification loop. -/
structure ChainScan where
  chainValid : Bool
  signatureChecked : Bool
  signatureValid : Bool
  failureReasons : List String
  priorHash : String
  deriving DecidableEq, Repr

/-- The three checks of one event against its position and the hash before it, with their texts. -/
def linkFailures (resultId : Int) (index : Nat) (priorHash : String) (event : PublicEvent) : List String :=
  (if event.sequenceNo != index + 1 then ["event sequence is not contiguous"] else []) ++
  (if event.priorEventHash != priorHash then
    ["event prior hash does not match the preceding event"] else []) ++
  (if integrityEventHash sha256Hex resultId event.sequenceNo event.eventType priorHash
      event.payloadSha256 event.policyVersionId event.artifactId != event.eventHash then
    ["event hash does not match its canonical payload"] else [])

/-- The signature check of one event: an event without a signature is passed over. -/
def signatureFails (env : Env) (event : PublicEvent) : Bool :=
  event.signature != "" &&
    (match verifyIntegritySignature env event.eventHash event.signature event.signerKeyId with
      | .ok valid => !valid
      | .error _ => true)

def scanEvent (env : Env) (resultId : Int) (index : Nat) (scan : ChainScan) (event : PublicEvent) : ChainScan :=
  let failures := linkFailures sha256Hex resultId index scan.priorHash event
  { chainValid := scan.chainValid && failures.isEmpty
    signatureChecked := scan.signatureChecked || event.signature != ""
    signatureValid := scan.signatureValid && !signatureFails env event
    failureReasons := scan.failureReasons ++ failures ++
      (if signatureFails env event then
        ["signature verification failed or signer was unavailable"] else [])
    priorHash := event.eventHash }

def scanEvents (env : Env) (resultId : Int) : Nat → ChainScan → List PublicEvent → ChainScan
  | _, scan, [] => scan
  | index, scan, event :: rest =>
      scanEvents env resultId (index + 1) (scanEvent sha256Hex env resultId index scan event) rest

def verifyEvidenceChain (env : Env) (resultId : Int) (publicEvents : List PublicEvent) : ChainReport :=
  let scan := scanEvents sha256Hex env resultId 0 ⟨true, false, true, [], ""⟩ publicEvents
  let unsigned := env.integritySigningRequired && !scan.signatureChecked
  { chainValid := scan.chainValid
    signatureChecked := scan.signatureChecked
    signatureValid := scan.signatureValid && !unsigned
    eventCount := publicEvents.length
    failureReasons := scan.failureReasons ++
      (if unsigned then ["integrity signing is required but no signature is present"] else []) }

/-! ### What the verifier accepts -/

/-- The fields an event hash binds besides its position and predecessor. -/
structure EventBody where
  eventType : String
  payloadSha256 : String
  policyVersionId : Int
  artifactId : Int
  deriving DecidableEq, Repr

def eventView : HashChain.View PublicEvent String EventBody where
  position := (·.sequenceNo)
  prior := (·.priorEventHash)
  body e := ⟨e.eventType, e.payloadSha256, e.policyVersionId, e.artifactId⟩
  hash := (·.eventHash)

def eventDigest (resultId : Int) (sequence : Int) (priorHash : String) (body : EventBody) : String :=
  integrityEventHash sha256Hex resultId sequence body.eventType priorHash body.payloadSha256
    body.policyVersionId body.artifactId

variable {sha256Hex}

theorem linkFailures_eq_nil {resultId : Int} {index : Nat} {priorHash : String} {event : PublicEvent} :
    linkFailures sha256Hex resultId index priorHash event = [] ↔
      event.sequenceNo = index + 1 ∧ event.priorEventHash = priorHash ∧
        HashChain.Sealed eventView (eventDigest sha256Hex resultId) event := by
  simp only [linkFailures, List.append_eq_nil_iff, ite_eq_right_iff, bne_iff_ne, ne_eq,
    List.cons_ne_nil, imp_false, not_not, and_assoc, HashChain.Sealed, eventView, eventDigest]
  refine and_congr_right fun _ => and_congr_right fun hprior => ?_
  rw [hprior]
  exact eq_comm

theorem scanEvents_chainValid {env : Env} {resultId : Int} {index : Nat} {scan : ChainScan}
    {events : List PublicEvent} :
    (scanEvents sha256Hex env resultId index scan events).chainValid = true ↔
      scan.chainValid = true ∧
        HashChain.Valid eventView (eventDigest sha256Hex resultId) scan.priorHash (index + 1) events := by
  induction events generalizing index scan with
  | nil => simp [scanEvents, HashChain.Valid, HashChain.Linked]
  | cons event rest ih =>
      rw [scanEvents, ih]
      simp only [scanEvent, Bool.and_eq_true, List.isEmpty_iff, linkFailures_eq_nil, HashChain.Valid,
        HashChain.Linked, List.forall_mem_cons]
      have hhash : eventView.hash event = event.eventHash := rfl
      have hpos : eventView.position event = event.sequenceNo := rfl
      have hprior : eventView.prior event = event.priorEventHash := rfl
      rw [hhash, hpos, hprior]
      push_cast
      tauto

/-- `chain_valid` is exactly that the list is a hash chain from the empty hash and position 1. -/
theorem verifyEvidenceChain_chainValid {env : Env} {resultId : Int} {events : List PublicEvent} :
    (verifyEvidenceChain sha256Hex env resultId events).chainValid = true ↔
      HashChain.Valid eventView (eventDigest sha256Hex resultId) "" 1 events := by
  simp [verifyEvidenceChain, scanEvents_chainValid]

end Inec
