import Inec.Evidence.Record

/-!
# Evidence anchors

The commitment to a signed evidence event that goes to Hyperledger Fabric, the text it travels as, and
its row in the outbox `fabric_anchor_requests`. Backend and chaincode declare the same record; the
backend leaves an empty `creator_msp` out of its text and the chaincode does not.
-/

namespace Inec

open Checks

/-- `fabricEvidenceAnchor` of the backend, `EvidenceAnchorV1` of the chaincode. -/
structure EvidenceAnchor where
  schemaVersion : Int
  anchorId : String
  anchorType : String
  electionId : Int
  resultId : Int
  eventHash : String
  payloadSha256 : String
  priorEventHash : String
  signature : String
  signerKeyId : String
  policyVersionId : Int
  createdAt : String
  creatorMsp : String
  fabricTxId : String
  deriving DecidableEq, Repr

/-- `fabricAnchorReceipt` of the backend, `EvidenceAnchorReceipt` of the chaincode. -/
structure AnchorReceipt where
  anchorId : String
  fabricTxId : String
  channelId : String
  chaincodeName : String
  creatorMsp : String
  createdAt : String
  idempotent : Bool
  deriving DecidableEq, Repr

/-! ### Texts -/

/-- A field with `omitempty`. -/
def omitEmptyStr (key value : String) : List (String × Json) := if value = "" then [] else [(key, .str value)]

def omitEmptyInt (key : String) (value : Int) : List (String × Json) :=
  if value = 0 then [] else [(key, .int value)]

/-- `fabricAnchorIDInput` of the backend, `anchorIDInput` of the chaincode. -/
def anchorIdInput (anchor : EvidenceAnchor) : Json :=
  .obj ([("schema_version", .int anchor.schemaVersion), ("anchor_type", .str anchor.anchorType),
      ("election_id", .int anchor.electionId)] ++
    omitEmptyInt "result_id" anchor.resultId ++
    [("event_hash", .str anchor.eventHash), ("payload_sha256", .str anchor.payloadSha256)] ++
    omitEmptyStr "prior_event_hash" anchor.priorEventHash ++
    [("signature", .str anchor.signature), ("signer_key_id", .str anchor.signerKeyId)] ++
    omitEmptyInt "policy_version_id" anchor.policyVersionId ++
    [("created_at", .str anchor.createdAt)])

/-- The fields both records write the same way, in the order of their declaration. -/
def anchorFields (anchor : EvidenceAnchor) : List (String × Json) :=
  [("schema_version", .int anchor.schemaVersion), ("anchor_id", .str anchor.anchorId),
      ("anchor_type", .str anchor.anchorType), ("election_id", .int anchor.electionId)] ++
    omitEmptyInt "result_id" anchor.resultId ++
    [("event_hash", .str anchor.eventHash), ("payload_sha256", .str anchor.payloadSha256)] ++
    omitEmptyStr "prior_event_hash" anchor.priorEventHash ++
    [("signature", .str anchor.signature), ("signer_key_id", .str anchor.signerKeyId)] ++
    omitEmptyInt "policy_version_id" anchor.policyVersionId ++
    [("created_at", .str anchor.createdAt)]

/-- The text of the backend. -/
def anchorPayloadJson (anchor : EvidenceAnchor) : String :=
  canonicalJSON (.obj (anchorFields anchor ++ omitEmptyStr "creator_msp" anchor.creatorMsp ++
    omitEmptyStr "fabric_tx_id" anchor.fabricTxId))

/-- The text of the chaincode. -/
def storedAnchorJson (anchor : EvidenceAnchor) : String :=
  canonicalJSON (.obj (anchorFields anchor ++ [("creator_msp", .str anchor.creatorMsp)] ++
    omitEmptyStr "fabric_tx_id" anchor.fabricTxId))

def receiptJson (receipt : AnchorReceipt) : String :=
  canonicalJSON (.obj [("anchor_id", .str receipt.anchorId), ("fabric_tx_id", .str receipt.fabricTxId),
    ("channel_id", .str receipt.channelId), ("chaincode_name", .str receipt.chaincodeName),
    ("creator_msp", .str receipt.creatorMsp), ("created_at", .str receipt.createdAt),
    ("idempotent", .bool receipt.idempotent)])

section Digest

variable (sha256Hex : String → String)

def calculateFabricAnchorID (anchor : EvidenceAnchor) : String := sha256Hex (canonicalJSON (anchorIdInput anchor))

/-! ### The outbox -/

inductive AnchorStatus
  | pending | submitted | committed | failed | unavailable
  deriving DecidableEq, Repr

/-- A row of `fabric_anchor_requests`. -/
structure AnchorRequest where
  id : Int
  resultEvidenceEventId : Int
  anchorType : String
  anchorId : String
  anchorPayload : EvidenceAnchor
  anchorPayloadSha256 : String
  status : AnchorStatus
  fabricChannel : Option String
  chaincodeId : Option String
  contractName : Option String
  transactionId : Option String
  commitStatus : Option String
  receiptJson : Option String
  receiptSha256 : Option String
  lastError : Option String
  attemptCount : Nat
  deriving DecidableEq, Repr

/-- `fabricGatewayConfigFromEnv` and the two switches beside it. -/
structure GatewayConfig where
  required : Bool
  enabled : Bool
  endpoint : String
  tlsRootCert : String
  clientCert : String
  clientKey : String
  mspId : String
  channel : String
  chaincode : String
  contract : String
  deriving DecidableEq, Repr

def GatewayConfig.anchoringEnabled (config : GatewayConfig) : Bool := config.required || config.enabled

/-- Whether `validate` finds nothing missing. -/
def GatewayConfig.valid (config : GatewayConfig) : Bool :=
  config.anchoringEnabled && [config.endpoint, config.tlsRootCert, config.clientCert,
    config.clientKey, config.mspId, config.channel, config.chaincode].all fun value => !isBlank value

def fabricAnchorSchemaVersion : Int := 1
def fabricAnchorTypeEvent : String := "result_event"

/-- The anchor of an event, under its id. -/
def eventAnchor (electionId : Int) (createdAt : String) (record : IntegrityEventRecord)
    (input : IntegrityEventInput) :
    EvidenceAnchor :=
  let anchor : EvidenceAnchor :=
    { schemaVersion := fabricAnchorSchemaVersion
      anchorId := ""
      anchorType := fabricAnchorTypeEvent
      electionId := electionId
      resultId := input.resultId
      eventHash := record.eventHash
      payloadSha256 := record.payloadSha256
      priorEventHash := record.priorEventHash
      signature := record.signature
      signerKeyId := record.signerKeyId
      policyVersionId := input.policyVersionId
      createdAt := createdAt
      creatorMsp := ""
      fabricTxId := "" }
  { anchor with anchorId := calculateFabricAnchorID sha256Hex anchor }

/-- The row a new anchor is queued as. -/
def queuedRequest (config : GatewayConfig) (id eventId : Int) (anchor : EvidenceAnchor) : AnchorRequest where
  id := id
  resultEvidenceEventId := eventId
  anchorType := fabricAnchorTypeEvent
  anchorId := anchor.anchorId
  anchorPayload := anchor
  anchorPayloadSha256 := sha256Hex (anchorPayloadJson anchor)
  status := if config.valid then .pending else .unavailable
  fabricChannel := nullStringArg config.channel
  chaincodeId := nullStringArg config.chaincode
  contractName := nullStringArg config.contract
  transactionId := none
  commitStatus := none
  receiptJson := none
  receiptSha256 := none
  lastError := if config.valid then none else some "Fabric Gateway configuration is unavailable"
  attemptCount := 0

/-- `queueFabricAnchorForEventTx`: what it inserts, nothing while anchoring is off or the event is not signed. -/
def queueFabricAnchorForEventTx (config : GatewayConfig) (id eventId electionId : Int) (createdAt : String)
    (record : IntegrityEventRecord) (input : IntegrityEventInput) : Except String (Option AnchorRequest) :=
  if config.anchoringEnabled then
    if record.signature = "" ∨ record.signerStatus ≠ "signed" ∨ record.signerKeyId = "" then
      if config.required then .error "Fabric anchoring requires a signed integrity event" else .ok none
    else .ok (some (queuedRequest sha256Hex config id eventId
      (eventAnchor sha256Hex electionId createdAt record input)))
  else .ok none

end Digest

end Inec
