import Inec.Lib.Base64
import Inec.Lib.Rfc3339
import Inec.Fabric.Codec

/-!
# The evidence anchor contract

The chaincode of fabric/chaincode/evidence-anchor. Its state is what it has written, in order: the stub's
`GetState` gives the last value of a key, and an invocation that fails writes nothing. The organisations
of the consortium are written once; an anchor is written by the invoker that signed it, under an id that
is the digest of its content.

Verifying a signature, the hash and the resolution of the invoker's identity are the platform's.
-/

namespace Inec

open Checks JsonText

/-! ### The platform -/

inductive PublicKey
  | ecdsa (key : String)
  | rsa (key : String)
  | other (typeName : String)
  deriving DecidableEq, Repr

structure Certificate where
  publicKey : PublicKey
  commonName : String
  /-- The DER encoding. -/
  raw : String
  deriving DecidableEq, Repr

/-- What the CID library says of the invoker. -/
structure ClientIdentity where
  mspId : Except String String
  certificate : Except String Certificate
  id : Except String String

/-- The platform a channel runs on. -/
structure ContractEnv where
  sha256Hex : String → String
  /-- `ecdsa.VerifyASN1` on key, digest and signature. -/
  verifyASN1 : String → String → List UInt8 → Bool
  /-- `rsa.VerifyPKCS1v15` likewise, `none` when it verifies. -/
  verifyPKCS1v15 : String → String → List UInt8 → Option String
  channelId : String

/-- One invocation. The calls of the stub may fail. -/
structure TxContext where
  identity : ClientIdentity
  txId : String
  time : Rfc3339.CivilTime
  getStateFails : String → Option String
  putStateFails : Option String
  setEventFails : Option String
  /-- The order in which `validateAnchor` ranges over its map. -/
  order : IterationOrder

structure ContractState where
  /-- Keys and values, the last one written at the end. -/
  writes : List (String × String)
  deriving DecidableEq, Repr

def ContractState.empty : ContractState := ⟨[]⟩

/-- The value of a key, empty if it has none. -/
def ContractState.value (s : ContractState) (key : String) : String :=
  ((s.writes.reverse.find? fun write => write.1 == key).map (·.2)).getD ""

/-- What it prefixes to an error with `%w`. -/
def wrapped (label : String) : Option String → Except String Unit
  | none => .ok ()
  | some err => .error (label ++ ": " ++ err)

def getState (ctx : TxContext) (s : ContractState) (key label : String) : Except String String := do
  wrapped label (ctx.getStateFails key)
  return s.value key

def putState (ctx : TxContext) (s : ContractState) (key value label : String) : Except String ContractState := do
  wrapped label ctx.putStateFails
  return ⟨s.writes ++ [(key, value)]⟩

def anchorSchemaVersion : Int := 1
def evidenceAnchorChaincode : String := "evidence-anchor"
def governanceStateKey : String := "governance:v1"
def anchorStatePrefix : String := "anchor:"

/-! ### Governance -/

def normalizeMSP (value : String) : Except String String :=
  if trimSpace value = "" then .error "consortium MSP IDs cannot be empty" else .ok (trimSpace value)

def normalizeMSPs (values : List String) : Except String (List String) := do
  let trimmed ← values.mapM normalizeMSP
  return trimmed.dedup.insertionSort (· ≤ ·)

def containsMSP (values : List String) (target : String) : Bool := values.contains target

def fabricTimestamp (ctx : TxContext) : String := ctx.time.format

def callerMSP (ctx : TxContext) : Except String String :=
  relabel ctx.identity.mspId fun err => "resolve Fabric caller MSP: " ++ err

def initializeGovernance (ctx : TxContext) (s : ContractState) (consortiumMSPsJSON : String) :
    Except String (ContractState × FabricGovernance) := do
  let existing ← getState ctx s governanceStateKey "read Fabric governance"
  require (existing == "") "Fabric anchor governance is already initialized"
  let decoded ← fetch (unmarshalTexts consortiumMSPsJSON) "decode consortium MSP list"
  let msps ← normalizeMSPs decoded
  require (2 ≤ msps.length) "at least two consortium MSPs are required"
  let caller ← callerMSP ctx
  require (containsMSP msps caller) ("caller MSP \"" ++ caller ++ "\" is not included in proposed governance")
  let governance : FabricGovernance := ⟨anchorSchemaVersion, msps, caller, fabricTimestamp ctx⟩
  let written ← putState ctx s governanceStateKey (governanceJson governance) "persist Fabric governance"
  return (written, governance)

def readGovernance (ctx : TxContext) (s : ContractState) : Except String FabricGovernance := do
  let text ← getState ctx s governanceStateKey "read Fabric governance"
  require (text != "") "Fabric anchor governance is not initialized"
  let governance ← fetch (decodeGovernance text) "decode Fabric governance"
  let msps ← relabel (normalizeMSPs governance.consortiumMsps) fun _ => "Fabric anchor governance is invalid"
  require (2 ≤ msps.length) "Fabric anchor governance is invalid"
  return { governance with consortiumMsps := msps }

/-! ### Validation -/

/-- `isSHA256Hex`. `hex.DecodeString` takes capitals as well. -/
def isSHA256Hex (value : String) : Bool := value.toList.length == 64 && value.toList.all fun c =>
      (hexValue? c).isSome

/-- The fields `validateAnchor` wants to be digests. -/
def digestField (anchor : EvidenceAnchor) (field : String) : String :=
  if field = "anchor_id" then anchor.anchorId else if field =
    "event_hash" then anchor.eventHash else anchor.payloadSha256

def digestFields : List String := ["anchor_id", "event_hash", "payload_sha256"]

def validateDigests (anchor : EvidenceAnchor) : List String → Except String Unit
  | [] => .ok ()
  | field :: rest => do
      require (isSHA256Hex (digestField anchor field)) (field ++ " must be a SHA-256 hex value")
      validateDigests anchor rest

def validateAnchor (order : IterationOrder) (anchor : EvidenceAnchor) : Except String Unit := do
  require (anchor.schemaVersion == anchorSchemaVersion) "unsupported evidence anchor schema version"
  require (anchor.anchorType == "result_event" || anchor.anchorType == "collation_bundle")
    "unsupported evidence anchor type"
  require (0 < anchor.electionId) "election_id is required"
  require (!(anchor.anchorType == "result_event" && anchor.resultId ≤ 0))
    "result_id is required for result_event anchors"
  validateDigests anchor (order.arrange digestFields)
  require (anchor.priorEventHash == "" || isSHA256Hex anchor.priorEventHash)
    "prior_event_hash must be a SHA-256 hex value when provided"
  require (trimSpace anchor.signature != "" && trimSpace anchor.signerKeyId != "")
    "a signed anchor requires signature and signer_key_id"
  require (Base64.decode anchor.signature).isSome "signature must be standard base64"
  require (0 ≤ anchor.policyVersionId) "policy_version_id cannot be negative"
  require (Rfc3339.valid anchor.createdAt) "created_at must be an RFC3339 timestamp"

/-! ### Digests and signatures -/

section Contract

variable (env : ContractEnv)

/-- `anchorIDInput`, as the contract declares it. -/
def contractIdInput (anchor : EvidenceAnchor) : Json :=
  .obj ([("schema_version", .int anchor.schemaVersion), ("anchor_type", .str anchor.anchorType),
      ("election_id", .int anchor.electionId)] ++
    omitEmptyInt "result_id" anchor.resultId ++
    [("event_hash", .str anchor.eventHash), ("payload_sha256", .str anchor.payloadSha256)] ++
    omitEmptyStr "prior_event_hash" anchor.priorEventHash ++
    [("signature", .str anchor.signature), ("signer_key_id", .str anchor.signerKeyId)] ++
    omitEmptyInt "policy_version_id" anchor.policyVersionId ++
    [("created_at", .str anchor.createdAt)])

def deterministicAnchorID (anchor : EvidenceAnchor) : String :=
  env.sha256Hex (canonicalJSON (contractIdInput anchor))

/-- `anchorSigningInput`: the commitment without its signature. -/
def anchorSigningInput (anchor : EvidenceAnchor) : Json :=
  .obj ([("schema_version", .int anchor.schemaVersion), ("anchor_type", .str anchor.anchorType),
      ("election_id", .int anchor.electionId)] ++
    omitEmptyInt "result_id" anchor.resultId ++
    [("event_hash", .str anchor.eventHash), ("payload_sha256", .str anchor.payloadSha256)] ++
    omitEmptyStr "prior_event_hash" anchor.priorEventHash ++
    [("signer_key_id", .str anchor.signerKeyId)] ++
    omitEmptyInt "policy_version_id" anchor.policyVersionId ++
    [("created_at", .str anchor.createdAt)])

def canonicalSigningDigest (anchor : EvidenceAnchor) : String :=
  env.sha256Hex (canonicalJSON (anchorSigningInput anchor))

def signerKeyIDMatches (cert : Certificate) (invokerId signerKeyId : String) : Bool :=
  trimSpace signerKeyId != "" &&
    [cert.commonName, invokerId, env.sha256Hex cert.raw].any fun candidate =>
      candidate != "" && trimSpace signerKeyId == candidate

def verifySignatureOverAnchor (cert : Certificate) (anchor : EvidenceAnchor) : Except String Unit := do
  let signature ← fetch (Base64.decode anchor.signature) "signature must be standard base64"
  require (!signature.isEmpty) "signature cannot be empty"
  let digest := canonicalSigningDigest env anchor
  match cert.publicKey with
  | .ecdsa key =>
      require (env.verifyASN1 key digest signature) "anchor ECDSA signature does not verify against the invoker certificate"
  | .rsa key =>
      wrapped "anchor RSA signature does not verify against the invoker certificate"
        (env.verifyPKCS1v15 key digest signature)
  | .other typeName => .error ("unsupported signer public key type " ++ typeName)

def verifyAnchorSignature (identity : ClientIdentity) (anchor : EvidenceAnchor) : Except String Unit := do
  let cert ← relabel identity.certificate fun err => "resolve invoker signing certificate: " ++ err
  let invokerId ← relabel identity.id fun err => "resolve invoker identity: " ++ err
  require (signerKeyIDMatches env cert invokerId anchor.signerKeyId)
    "signer_key_id does not match the invoker Fabric identity"
  verifySignatureOverAnchor env cert anchor

/-! ### Anchors -/

/-- The receipt for a stored anchor. -/
def storedReceipt (anchorId : String) (stored : EvidenceAnchor) (idempotent : Bool) : AnchorReceipt where
  anchorId := anchorId
  fabricTxId := stored.fabricTxId
  channelId := env.channelId
  chaincodeName := evidenceAnchorChaincode
  creatorMsp := stored.creatorMsp
  createdAt := stored.createdAt
  idempotent := idempotent

/-- What `CreateAnchor` checks before it looks at the state of the anchor: the caller and the anchor. -/
def acceptedAnchor (ctx : TxContext) (s : ContractState) (anchorJSON : String) :
    Except String (String × EvidenceAnchor) := do
  let governance ← readGovernance ctx s
  let caller ← callerMSP ctx
  require (containsMSP governance.consortiumMsps caller)
    ("caller MSP \"" ++ caller ++ "\" is not authorized to create evidence anchors")
  let anchor ← fetch (decodeAnchor anchorJSON) "decode evidence anchor"
  validateAnchor ctx.order anchor
  require (anchor.anchorId == deterministicAnchorID env anchor) "anchor_id does not match canonical anchor commitment"
  verifyAnchorSignature env ctx.identity anchor
  return (caller, anchor)

def createAnchor (ctx : TxContext) (s : ContractState) (anchorJSON : String) :
    Except String (ContractState × AnchorReceipt) := do
  let (caller, anchor) ← acceptedAnchor env ctx s anchorJSON
  let key := anchorStatePrefix ++ anchor.anchorId
  let existing ← getState ctx s key "read existing Fabric anchor"
  if existing ≠ "" then
    let stored ← fetch (decodeAnchor existing) "decode stored Fabric anchor"
    require (deterministicAnchorID env stored == anchor.anchorId) "conflicting existing Fabric anchor state"
    return (s, storedReceipt env anchor.anchorId stored true)
  else
    let anchor := { anchor with creatorMsp := caller, fabricTxId := ctx.txId }
    let written ← putState ctx s key (storedAnchorJson anchor) "persist Fabric anchor"
    wrapped "emit Fabric anchor event" ctx.setEventFails
    return (written, storedReceipt env anchor.anchorId anchor false)

def readAnchor (ctx : TxContext) (s : ContractState) (anchorId : String) : Except String EvidenceAnchor := do
  require (isSHA256Hex anchorId) "anchor_id must be a SHA-256 hex value"
  let value ← getState ctx s (anchorStatePrefix ++ anchorId) "read Fabric anchor"
  require (value != "") ("Fabric anchor \"" ++ anchorId ++ "\" does not exist")
  fetch (decodeAnchor value) "decode Fabric anchor"

def anchorExists (ctx : TxContext) (s : ContractState) (anchorId : String) : Except String Bool := do
  require (isSHA256Hex anchorId) "anchor_id must be a SHA-256 hex value"
  let value ← getState ctx s (anchorStatePrefix ++ anchorId) "read Fabric anchor"
  return value != ""

/-- `GetAnchorHistory`: every value of the key, the last one first. Nothing is ever deleted. -/
def getAnchorHistory (ctx : TxContext) (s : ContractState) (anchorId : String) :
    Except String (List EvidenceAnchor) := do
  require (isSHA256Hex anchorId) "anchor_id must be a SHA-256 hex value"
  let key := anchorStatePrefix ++ anchorId
  wrapped "read Fabric anchor history" (ctx.getStateFails key)
  let values := (s.writes.reverse.filter fun write => write.1 == key).map (·.2)
  require (values.all (· != "")) "Fabric anchor history contains a prohibited deletion"
  values.mapM fun value => fetch (decodeAnchor value) "decode Fabric anchor history"

/-! ### The contract as a machine -/

inductive ContractCall
  | initializeGovernance (consortiumMSPsJSON : String)
  | readGovernance
  | createAnchor (anchorJSON : String)
  | readAnchor (anchorId : String)
  | anchorExists (anchorId : String)
  | getAnchorHistory (anchorId : String)

/-- The state after an invocation. Only two of the calls can write, and only if they succeed. -/
def contractStep (s : ContractState) (invocation : TxContext × ContractCall) : ContractState :=
  match invocation.2 with
  | .initializeGovernance text =>
      match initializeGovernance invocation.1 s text with
      | .ok done => done.1
      | .error _ => s
  | .createAnchor text =>
      match createAnchor env invocation.1 s text with
      | .ok done => done.1
      | .error _ => s
  | _ => s

end Contract

end Inec
