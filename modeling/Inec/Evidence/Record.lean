import Inec.Store.Json
import Inec.Request

/-!
# Recording evidence events

The writing side of evidence_integrity.go: the hash that binds an event to its predecessor and
`recordIntegrityEventTx`, which appends one event to the chain of a result inside the caller's
transaction. SHA-256 enters as a parameter, since what is proved about the chain only uses that it is
a function, or that it is injective.
-/

namespace Inec

open Checks

variable (sha256Hex : String → String)

/-- `integrityEventInput`. -/
structure IntegrityEventInput where
  resultId : Int
  eventType : String
  policyVersionId : Int
  artifactId : Int
  visibility : String
  publicPayload : Json
  privatePayload : Json
  createdBy : Int

/-- `integrityEventRecord`. -/
structure IntegrityEventRecord where
  sequenceNo : Int
  eventHash : String
  priorEventHash : String
  payloadSha256 : String
  signature : String
  signerKeyId : String
  signerStatus : String
  deriving DecidableEq, Repr

def integrityVisibilityPublic : String := "public"
def integrityVisibilityObserver : String := "observer"
def integrityVisibilityRestricted : String := "restricted"

/-- The preimage `fmt.Sprintf("%d|%d|%s|%s|%s|%d|%d", ...)`. -/
def integrityEventPreimage (resultId sequence : Int) (eventType priorHash payloadSha : String)
    (policyVersionId artifactId : Int) : String :=
  toString resultId ++ "|" ++ toString sequence ++ "|" ++ eventType ++ "|" ++ priorHash ++ "|" ++
    payloadSha ++ "|" ++ toString policyVersionId ++ "|" ++ toString artifactId

def integrityEventHash (resultId sequence : Int) (eventType priorHash payloadSha : String)
    (policyVersionId artifactId : Int) : String :=
  sha256Hex (integrityEventPreimage resultId sequence eventType priorHash payloadSha policyVersionId
    artifactId)

/-- `unicode.IsSpace`, the characters `strings.TrimSpace` removes. -/
def isSpace (c : Char) : Bool :=
  [9, 10, 11, 12, 13, 32, 0x85, 0xA0, 0x1680, 0x2028, 0x2029, 0x202F, 0x205F, 0x3000].contains c.toNat ||
    (0x2000 ≤ c.toNat && c.toNat ≤ 0x200A)

/-- `strings.TrimSpace`. -/
def trimSpace (s : String) : String := Text.trim isSpace s

/-- `strings.TrimSpace(s) == ""`. -/
def isBlank (s : String) : Bool := s.toList.all isSpace

/-- What `signIntegrityHash` returns besides its error. -/
structure Signing where
  signature : String
  keyId : String
  signerStatus : String
  deriving DecidableEq, Repr

def signIntegrityHash (env : Env) (hash : String) : Except String Signing :=
  if env.integritySigningRequired then do
    require (env.integrityServiceToken != "")
      "INTEGRITY_SERVICE_TOKEN must be configured when integrity signing is required"
    let response ← env.callSign hash
    require (response.payloadSha256 == hash && response.signature != "" && response.keyId != "")
      "integrity signer returned incomplete or mismatched evidence"
    return ⟨response.signature, response.keyId, "signed"⟩
  else .ok ⟨"", "", "not_required"⟩

/-- `nullStringArg`: an empty string is stored as NULL. -/
def nullStringArg (s : String) : Option String := if s = "" then none else some s

/-- `nullIntArg` and `nullInt64Arg`: a non-positive number is stored as NULL. -/
def nullIntArg (n : Int) : Option Int := if n ≤ 0 then none else some n

/-- The tail read of a chain: `ORDER BY sequence_no DESC LIMIT 1`. -/
def evidenceTail (events : List EvidenceEvent) (resultId : Int) : Option EvidenceEvent :=
  Rows.maxBy (·.sequenceNo) (events.filter fun e => e.resultId == resultId)

/-- The row built from an input, the tail it was read after and the answer of the signer. -/
def evidenceRow (input : IntegrityEventInput) (tail : Option EvidenceEvent) (signing : Signing) :
    EvidenceEvent :=
  let sequence := (tail.map (·.sequenceNo)).getD 0 + 1
  let priorHash := (tail.map (·.eventHash)).getD ""
  let privateJSON := canonicalJSON input.privatePayload
  let payloadSha := sha256Hex privateJSON
  { resultId := input.resultId
    sequenceNo := sequence
    eventType := input.eventType
    priorEventHash := nullStringArg priorHash
    eventHash := integrityEventHash sha256Hex input.resultId sequence input.eventType priorHash
      payloadSha input.policyVersionId input.artifactId
    payloadSha256 := payloadSha
    signature := nullStringArg signing.signature
    signerKeyId := nullStringArg signing.keyId
    signerStatus := signing.signerStatus
    artifactId := nullIntArg input.artifactId
    policyVersionId := nullIntArg input.policyVersionId
    visibility := if input.visibility = "" then integrityVisibilityRestricted else input.visibility
    publicPayload := canonicalJSON input.publicPayload
    privatePayload := privateJSON
    createdBy := nullIntArg input.createdBy }

/-- The checks on the input that come before the row lock. -/
def checkEventInput (input : IntegrityEventInput) : Except String Unit :=
  require (0 < input.resultId && !isBlank input.eventType)
    "result_id and event_type are required for integrity events"

/-- The check on the visibility, after the row lock. -/
def checkVisibility (input : IntegrityEventInput) : Except String Unit :=
  require (["", integrityVisibilityPublic, integrityVisibilityObserver,
    integrityVisibilityRestricted].contains input.visibility) "invalid evidence visibility"

/-- The INSERT with its two unique constraints. -/
def insertEvidenceEvent (events : List EvidenceEvent) (row : EvidenceEvent) :
    Except String (List EvidenceEvent) := do
  require (events.all fun e => e.resultId != row.resultId || e.sequenceNo != row.sequenceNo)
    "duplicate key value violates unique constraint (result_id, sequence_no)"
  require (events.all fun e => e.eventHash != row.eventHash)
    "duplicate key value violates unique constraint (event_hash)"
  return events ++ [row]

/-- `queueFabricAnchorForEventTx`, when anchoring is enabled. -/
def queueFabricAnchor (env : Env) : Except String Unit := env.fabricAnchor.getD (.ok ())

def recordIntegrityEventTx (env : Env) (db : Tables) (input : IntegrityEventInput) :
    Except String (Tables × IntegrityEventRecord) := do
  checkEventInput input
  -- lockResultForIntegrity: SELECT id FROM results WHERE id=? FOR UPDATE
  let _ ← fetch (db.result? input.resultId) "sql: no rows in result set"
  checkVisibility input
  let tail := evidenceTail db.evidenceEvents input.resultId
  let unsigned := evidenceRow sha256Hex input tail ⟨"", "", ""⟩
  let signing ← signIntegrityHash env unsigned.eventHash
  let row := evidenceRow sha256Hex input tail signing
  let events ← insertEvidenceEvent db.evidenceEvents row
  queueFabricAnchor env
  return ({ db with evidenceEvents := events },
    { sequenceNo := row.sequenceNo
      eventHash := row.eventHash
      priorEventHash := (tail.map (·.eventHash)).getD ""
      payloadSha256 := row.payloadSha256
      signature := signing.signature
      signerKeyId := signing.keyId
      signerStatus := signing.signerStatus })

variable {sha256Hex}

/-- A recorded event is the row of its input behind the tail of the chain, appended to the evidence table,
and nothing else changes. -/
theorem recordIntegrityEventTx_row {env : Env} {db db' : Tables} {input : IntegrityEventInput}
    {record : IntegrityEventRecord}
    (h : recordIntegrityEventTx sha256Hex env db input = .ok (db', record)) :
    ∃ signing, db' = { db with
      evidenceEvents := db.evidenceEvents ++
        [evidenceRow sha256Hex input (evidenceTail db.evidenceEvents input.resultId) signing] } := by
  simp only [recordIntegrityEventTx, insertEvidenceEvent, bind_eq_ok, fetch_eq_ok, pure_eq_ok,
    Prod.mk.injEq] at h
  obtain ⟨_, _, _, _, _, _, signing, _, events, ⟨_, _, _, _, rfl⟩, _, _, hdb, _⟩ := h
  exact ⟨signing, hdb.symm⟩

theorem recordIntegrityEventTx_sameCore {env : Env} {db db' : Tables} {input : IntegrityEventInput}
    {record : IntegrityEventRecord}
    (h : recordIntegrityEventTx sha256Hex env db input = .ok (db', record)) : Tables.SameCore db db' := by
  obtain ⟨signing, rfl⟩ := recordIntegrityEventTx_row h
  exact ⟨rfl, rfl, rfl, rfl, rfl, rfl, rfl, rfl, rfl⟩

/-! ### The appended event -/

/-- The evidence table grew by the event of one input, which is the newest of its result. -/
structure Recorded (db db' : Tables) (input : IntegrityEventInput) (row : EvidenceEvent) : Prop where
  events : db'.evidenceEvents = db.evidenceEvents ++ [row]
  resultId : row.resultId = input.resultId
  eventType : row.eventType = input.eventType
  publicPayload : row.publicPayload = canonicalJSON input.publicPayload
  newest : ∀ ev ∈ db.evidenceEvents, ev.resultId = input.resultId → ev.sequenceNo < row.sequenceNo

theorem sequenceNo_lt_evidenceRow {events : List EvidenceEvent} {input : IntegrityEventInput} {signing : Signing} :
    ∀ ev ∈ events, ev.resultId = input.resultId →
      ev.sequenceNo < (evidenceRow sha256Hex input (evidenceTail events input.resultId) signing).sequenceNo := by
  intro ev hev hid
  have hmem : ev ∈ events.filter fun e => e.resultId == input.resultId :=
    List.mem_filter.mpr ⟨hev, beq_iff_eq.mpr hid⟩
  obtain ⟨tail, htail, hle⟩ := Rows.le_maxBy (·.sequenceNo) hmem
  have hsequence : (evidenceRow sha256Hex input (evidenceTail events input.resultId) signing).sequenceNo =
      tail.sequenceNo + 1 := by
    rw [evidenceRow, evidenceTail, htail]
    rfl
  omega

theorem recordIntegrityEventTx_recorded {env : Env} {db db' : Tables} {input : IntegrityEventInput}
    {record : IntegrityEventRecord}
    (h : recordIntegrityEventTx sha256Hex env db input = .ok (db', record)) :
    ∃ row, Recorded db db' input row := by
  obtain ⟨signing, rfl⟩ := recordIntegrityEventTx_row h
  exact ⟨_, rfl, rfl, rfl, rfl, sequenceNo_lt_evidenceRow⟩

end Inec
