import Inec.Results.Ec8a

/-!
# Submitting results

The three ways a result row comes in: `applyResultTx` of ingestion.go, which the queue workers and the
interactive endpoint share, `handleSubmitResult` of handlers.go around it, and `handleSubmitEC8A` of
domain_inec.go with an insert of its own. A row enters as pending, or as disputed when an override
reason flags it for review.
-/

namespace Inec

open Checks

variable (sha256Hex : String → String)

def ElectionState.openForCapture (s : ElectionState) : Bool := s == .active || s == .voting

/-- `ingestedResult`. -/
structure IngestedResult where
  electionId : Int
  pollingUnitCode : String
  partyScores : List PartyVoteEntry
  accreditedVoters : Int
  rejectedVotes : Int
  submittedBy : Int
  source : String
  sourceRef : String
  idempotencyKey : String
  overrideReason : String
  deriving DecidableEq, Repr

inductive ApplyOutcome
  | applied | duplicate | conflict
  deriving DecidableEq, Repr

/-- The form `applyResultTx` and the interactive endpoint validate. -/
def formOf (electionId : Int) (code : String) (registered : Int) (scores : List PartyVoteEntry)
    (accredited rejected : Int) : FormEC8A where
  electionId := electionId
  pollingUnitCode := code
  presidingOfficerId := ""
  registeredVoters := registered
  accreditedVoters := accredited
  totalVotesPolled := partySumOf scores + rejected
  rejectedBallots := rejected
  totalValidVotes := partySumOf scores
  partyResults := scores
  bvasSerialNumber := ""
  biometricMatchCount := 0
  submittedAt := ""

/-- Violations may stand when an override reason is given and none of them is hard. -/
def violationsTolerated (violations : List String) (overrideReason : String) : Bool :=
  violations.isEmpty || (overrideReason != "" && !hasHardViolation violations)

/-- An override reason flags the result for review, with or without violations. -/
def initialStatus (overrideReason : String) : ResultStatus := if overrideReason = "" then .pending else .disputed

def ingestedRow (db : Tables) (res : IngestedResult) : ResultRow where
  id := nextSerial (db.results.map (·.id))
  electionId := res.electionId
  pollingUnitCode := res.pollingUnitCode
  presidingOfficerId := nullIntArg res.submittedBy
  status := initialStatus res.overrideReason
  totalValidVotes := partySumOf res.partyScores
  rejectedVotes := res.rejectedVotes
  totalVotesCast := partySumOf res.partyScores + res.rejectedVotes
  accreditedVoters := res.accreditedVoters
  ec8aHash := computeEC8AHash sha256Hex res.electionId res.pollingUnitCode res.partyScores
    res.accreditedVoters res.rejectedVotes
  supersedesResultId := none
  correctionReason := nullStringArg res.overrideReason
  idempotencyKey := nullStringArg res.idempotencyKey
  validatedAt := none
  finalizedAt := none

def scorePairs (scores : List PartyVoteEntry) : List (String × Int) := scores.map fun s => (s.partyCode, s.votes)

def submittedEvent (row : ResultRow) (policyId : Int) (res : IngestedResult) : IntegrityEventInput where
  resultId := row.id
  eventType := "RESULT_SUBMITTED"
  policyVersionId := policyId
  artifactId := 0
  visibility := integrityVisibilityObserver
  publicPayload := .ofMap [("polling_unit_code", .str res.pollingUnitCode), ("status", .str row.status.text),
    ("total_votes_cast", .int row.totalVotesCast), ("source", .str res.source)]
  privatePayload := .ofMap [("election_id", .int res.electionId),
    ("polling_unit_code", .str res.pollingUnitCode),
    ("party_scores", .arr (res.partyScores.map PartyVoteEntry.json)),
    ("accredited_voters", .int res.accreditedVoters), ("rejected_votes", .int res.rejectedVotes),
    ("ec8a_hash", .str row.ec8aHash), ("source", .str res.source), ("source_ref", .str res.sourceRef)]
  createdBy := res.submittedBy

/-- The canonical row of an election and polling unit, `status NOT IN ('superseded','voided')`. -/
def liveResult? (db : Tables) (electionId : Int) (code : String) : Option ResultRow :=
  db.results.find? fun r => r.key == (electionId, code) && r.status.live

/-- The INSERT of `applyResultTx` once the index has no row for the key, and the evidence behind it. -/
def insertIngested (env : Env) (db : Tables) (res : IngestedResult) : Except String Tables := do
  let row := ingestedRow sha256Hex db res
  require (!(db.results.any fun r => row.idempotencyKey.isSome && r.idempotencyKey == row.idempotencyKey))
    "insert result: duplicate key value violates unique constraint \"results_idempotency_key_unique\""
  let inserted := db.addResult row (scorePairs res.partyScores)
  let policyId ← requirePolicyVersion env inserted res.electionId
  let recorded ← relabel (recordIntegrityEventTx sha256Hex env inserted (submittedEvent row policyId res))
    fun err => "result evidence could not be recorded: " ++ err
  return recorded.1

/-- What `applyResultTx` checks before it inserts. -/
def checkIngested (db : Tables) (res : IngestedResult) : Except String Unit := do
  let pu ← fetch (db.pollingUnit? res.pollingUnitCode) ("polling unit not found: " ++ res.pollingUnitCode)
  let e ← fetch (db.election? res.electionId) ("election not found: " ++ toString res.electionId)
  require (e.status.openForCapture || e.status == .collating)
    ("election " ++ toString res.electionId ++ " is not accepting results (status=" ++ e.status.text ++ ")")
  let violations := validateEC8A (formOf res.electionId res.pollingUnitCode pu.registeredVoters res.partyScores
    res.accreditedVoters res.rejectedVotes)
  require (violationsTolerated violations res.overrideReason)
    ("EC8A validation failed: " ++ String.intercalate "; " violations)

def applyResultTx (env : Env) (db : Tables) (res : IngestedResult) :
    Except String (ApplyOutcome × Int × Tables) := do
  checkIngested db res
  match liveResult? db res.electionId res.pollingUnitCode with
  | some existing =>
      let same := existing.ec8aHash == computeEC8AHash sha256Hex res.electionId res.pollingUnitCode
        res.partyScores res.accreditedVoters res.rejectedVotes
      return (if same then .duplicate else .conflict, existing.id, db)
  | none =>
      let db' ← insertIngested sha256Hex env db res
      return (.applied, nextSerial (db.results.map (·.id)), db')

/-! ### The interactive endpoint -/

structure SubmitRequest where
  electionId : Int
  pollingUnitCode : String
  partyScores : List PartyVoteEntry
  accreditedVoters : Int
  rejectedVotes : Int
  hasDeviceLocation : Bool
  idempotencyKey : String
  overrideReason : String
  deriving DecidableEq, Repr

structure SubmitResponse where
  id : Int
  status : String
  duplicate : Bool
  deriving DecidableEq, Repr

/-- `submittedStatus`. -/
def submittedStatus (overridden : Bool) : String := if overridden then "disputed" else "pending"

def SubmitRequest.ingested (env : Env) (req : SubmitRequest) : IngestedResult where
  electionId := req.electionId
  pollingUnitCode := req.pollingUnitCode
  partyScores := req.partyScores
  accreditedVoters := req.accreditedVoters
  rejectedVotes := req.rejectedVotes
  submittedBy := env.claims.userId
  source := "ingestion_api"
  sourceRef := req.idempotencyKey
  idempotencyKey := req.idempotencyKey
  overrideReason := req.overrideReason

/-- `strings.Contains`. -/
def containsText (s part : String) : Bool := s.toList.tails.any part.toList.isPrefixOf

def applyError (err : String) : HttpError :=
  if containsText err "evidence could not be recorded" then ⟨503, err⟩ else ⟨500, "failed to save result"⟩

def inDeclaredScope (db : Tables) (e : Election) (code : String) : Bool :=
  e.electionKind == .general || puInRerunScope db e.id code

/-- The checks of the interactive endpoint. They return the violations that an override lets stand. -/
def checkSubmission (env : Env) (db : Tables) (req : SubmitRequest) : Except HttpError (List String) := do
  require req.hasDeviceLocation
    ⟨400, "device location (device_lat, device_lng) is required for result submission"⟩
  env.deviceLocation
  let e ← fetch (db.election? req.electionId) ⟨400, "Election not found"⟩
  require e.status.openForCapture ⟨400, "Election not open for result capture (status: " ++ e.status.text ++ ")"⟩
  require (inDeclaredScope db e req.pollingUnitCode)
    ⟨403, "polling unit is not in the declared scope of this " ++ e.electionKind.text ++ " election"⟩
  let pu ← fetch (db.pollingUnit? req.pollingUnitCode) ⟨400, "Polling unit not found"⟩
  let bvas := (db.bvasAccreditations.filter fun b =>
    b.electionId == req.electionId && b.pollingUnitCode == req.pollingUnitCode).length
  require (!(0 < bvas && bvas < req.accreditedVoters))
    ⟨422, "accredited_voters (" ++ toString req.accreditedVoters ++
      ") exceeds BVAS-verified accreditations (" ++ toString bvas ++ ") for this polling unit"⟩
  enforceStateTenancy env db req.pollingUnitCode
  enforceOfficerPUBinding env db req.electionId req.pollingUnitCode
  require (liveResult? db req.electionId req.pollingUnitCode).isNone
    ⟨409, "Result already submitted for this polling unit; use the correction flow to amend it"⟩
  let violations := validateEC8A (formOf req.electionId req.pollingUnitCode pu.registeredVoters req.partyScores
    req.accreditedVoters req.rejectedVotes)
  require (violationsTolerated violations req.overrideReason)
    ⟨400, "EC8A validation failed: " ++ String.intercalate "; " violations⟩
  require (env.checkPermission env.claims.role "submit_result") ⟨403, "Permission denied by Permify"⟩
  return violations

/-- A submission that is not a replay. -/
def submitNew (env : Env) (db : Tables) (req : SubmitRequest) : Except HttpError (Tables × SubmitResponse) := do
  let violations ← checkSubmission env db req
  let applied ← relabel (applyResultTx sha256Hex env db (req.ingested env)) applyError
  require (applied.1 == .applied)
    ⟨409, "Result already submitted for this polling unit; use the correction flow to amend it"⟩
  return (logAudit env applied.2.2 "RESULT_SUBMITTED" "result" (toString applied.2.1),
    ⟨applied.2.1, submittedStatus !violations.isEmpty, false⟩)

/-- The row a client retry refers to. -/
def replayed? (db : Tables) (idempotencyKey : String) : Option ResultRow :=
  db.results.find? fun r => idempotencyKey != "" && r.idempotencyKey == some idempotencyKey

def handleSubmitResult (env : Env) (db : Tables) (req : SubmitRequest) :
    Except HttpError (Tables × SubmitResponse) := do
  requireRole env [.admin, .presidingOfficer]
  require (req.electionId != 0 && req.pollingUnitCode != "" && !req.partyScores.isEmpty)
    ⟨400, "election_id, polling_unit_code, and party_scores are required"⟩
  match replayed? db req.idempotencyKey with
  | some r => return (db, ⟨r.id, r.status.text, true⟩)
  | none => submitNew sha256Hex env db req

/-! ### The EC8A endpoint -/

def formRow (env : Env) (db : Tables) (form : FormEC8A) : ResultRow where
  id := nextSerial (db.results.map (·.id))
  electionId := form.electionId
  pollingUnitCode := form.pollingUnitCode
  presidingOfficerId := nullIntArg env.claims.userId
  status := .pending
  totalValidVotes := form.totalValidVotes
  rejectedVotes := form.rejectedBallots
  totalVotesCast := form.totalVotesPolled
  accreditedVoters := form.accreditedVoters
  ec8aHash := formHash sha256Hex form
  supersedesResultId := none
  correctionReason := none
  idempotencyKey := none
  validatedAt := none
  finalizedAt := none

def formEvent (env : Env) (row : ResultRow) (policyId : Int) (form : FormEC8A) : IntegrityEventInput where
  resultId := row.id
  eventType := "RESULT_SUBMITTED"
  policyVersionId := policyId
  artifactId := 0
  visibility := integrityVisibilityObserver
  publicPayload := .ofMap [("polling_unit_code", .str form.pollingUnitCode), ("status", .str "pending"),
    ("total_votes_cast", .int form.totalVotesPolled)]
  privatePayload := .ofMap [("ec8a_form", form.json), ("ec8a_hash", .str row.ec8aHash)]
  createdBy := env.claims.userId

/-- The checks before the transaction. -/
def checkForm (env : Env) (db : Tables) (form : FormEC8A) : Except HttpError Unit := do
  require (env.claims.role == .admin || env.claims.role == .presidingOfficer)
    ⟨403, "role not permitted to create polling-unit results"⟩
  require (formFailures form).isEmpty (validationError (formFailures form))
  require (validateEC8A form).isEmpty ⟨422, "Form EC8A validation failed"⟩
  let e ← fetch (db.election? form.electionId) ⟨400, "Election not found"⟩
  require e.status.openForCapture ⟨409, "Election not open for result capture (status: " ++ e.status.text ++ ")"⟩
  require (inDeclaredScope db e form.pollingUnitCode)
    ⟨403, "polling unit is not in the declared scope of this " ++ e.electionKind.text ++ " election"⟩
  enforceStateTenancy env db form.pollingUnitCode
  enforceOfficerPUBinding env db form.electionId form.pollingUnitCode

/-- Any earlier row refuses the form, whatever its status. -/
def existingFormError (db : Tables) (existing : ResultRow) : HttpError :=
  if db.evidenceEvents.any fun ev => ev.resultId == existing.id then
    ⟨409, "an evidence-bearing result already exists; open a reconciliation case instead of overwriting it"⟩
  else ⟨409, "a legacy result already exists for this polling unit and requires supervised migration"⟩

def rejectExisting (db : Tables) (form : FormEC8A) : Except HttpError Unit :=
  match db.results.find? fun r => r.key == (form.electionId, form.pollingUnitCode) with
  | some existing => .error (existingFormError db existing)
  | none => .ok ()

def handleSubmitEC8A (env : Env) (db : Tables) (form : FormEC8A) : Except HttpError Tables := do
  checkForm env db form
  rejectExisting db form
  let row := formRow sha256Hex env db form
  let inserted := db.addResult row (scorePairs form.partyResults)
  let policyId ← relabel (requirePolicyVersion env inserted form.electionId) fun err => ⟨409, err⟩
  let recorded ← relabel (recordIntegrityEventTx sha256Hex env inserted (formEvent env row policyId form))
    fun err => ⟨503, "EC8A evidence could not be recorded: " ++ err⟩
  return logAudit env recorded.1 "EC8A_SUBMITTED" "result" form.pollingUnitCode

/-! ### What a submission adds -/

/-- One new row that is not finalized, for an election that exists and a unit without a canonical row. -/
structure Submission (db db' : Tables) (row : ResultRow) (scores : List (String × Int)) : Prop where
  id : row.id = nextSerial (db.results.map (·.id))
  status : row.status = .pending ∨ row.status = .disputed
  vacant : row.key ∉ db.liveKeys
  election : ∃ e, db.election? row.electionId = some e
  core : Tables.SameCore (db.addResult row scores) db'

theorem Submission.trans {db db' db'' : Tables} {row : ResultRow} {scores : List (String × Int)}
    (h : Submission db db' row scores) (hsame : Tables.SameCore db' db'') : Submission db db'' row scores :=
  { h with core := h.core.trans hsame }

variable {sha256Hex}

theorem notMem_liveKeys {db : Tables} {electionId : Int} {code : String}
    (h : liveResult? db electionId code = none) : (electionId, code) ∉ db.liveKeys := by
  intro hmem
  obtain ⟨r, hr, hkey⟩ := List.mem_map.mp hmem
  rw [List.mem_filter] at hr
  have hnone := List.find?_eq_none.mp h r hr.1
  simp [hkey, hr.2] at hnone

theorem initialStatus_cases (reason : String) :
    initialStatus reason = .pending ∨ initialStatus reason = .disputed := by
  unfold initialStatus
  split
  · exact Or.inl rfl
  · exact Or.inr rfl

theorem applyResultTx_ok {env : Env} {db db' : Tables} {res : IngestedResult} {outcome : ApplyOutcome}
    {id : Int} (h : applyResultTx sha256Hex env db res = .ok (outcome, id, db')) :
    db' = db ∨ Submission db db' (ingestedRow sha256Hex db res) (scorePairs res.partyScores) := by
  simp only [applyResultTx, bind_eq_ok] at h
  obtain ⟨_, hcheck, h⟩ := h
  cases hlive : liveResult? db res.electionId res.pollingUnitCode with
  | some existing =>
      simp only [hlive, pure_eq_ok, Prod.mk.injEq] at h
      exact Or.inl h.2.2.symm
  | none =>
      simp only [hlive, insertIngested, bind_eq_ok, pure_eq_ok, relabel_eq_ok, Prod.mk.injEq] at h
      obtain ⟨_, ⟨_, _, _, _, recorded, hrecorded, rfl⟩, _, _, rfl⟩ := h
      simp only [checkIngested, bind_eq_ok, fetch_eq_ok] at hcheck
      obtain ⟨_, _, e, he, _⟩ := hcheck
      exact Or.inr ⟨rfl, initialStatus_cases _, notMem_liveKeys hlive, ⟨e, he⟩,
        recordIntegrityEventTx_sameCore hrecorded⟩

theorem handleSubmitResult_ok {env : Env} {db db' : Tables} {req : SubmitRequest} {response : SubmitResponse}
    (h : handleSubmitResult sha256Hex env db req = .ok (db', response)) :
    Tables.SameCore db db' ∨
      Submission db db' (ingestedRow sha256Hex db (req.ingested env)) (scorePairs req.partyScores) := by
  simp only [handleSubmitResult, bind_eq_ok] at h
  obtain ⟨_, _, _, _, h⟩ := h
  cases hreplay : replayed? db req.idempotencyKey with
  | some r =>
      simp only [hreplay, pure_eq_ok, Prod.mk.injEq] at h
      rw [← h.1]
      exact Or.inl (Tables.SameCore.refl db)
  | none =>
      simp only [hreplay, submitNew, bind_eq_ok, pure_eq_ok, relabel_eq_ok, Prod.mk.injEq] at h
      obtain ⟨_, _, ⟨outcome, id, applied⟩, happlied, _, _, rfl, _⟩ := h
      rcases applyResultTx_ok happlied with rfl | hsubmission
      · exact Or.inl (logAudit_sameCore ..)
      · exact Or.inr (hsubmission.trans (logAudit_sameCore ..))

theorem handleSubmitEC8A_ok {env : Env} {db db' : Tables} {form : FormEC8A}
    (h : handleSubmitEC8A sha256Hex env db form = .ok db') :
    Submission db db' (formRow sha256Hex env db form) (scorePairs form.partyResults) := by
  simp only [handleSubmitEC8A, checkForm, bind_eq_ok, fetch_eq_ok, relabel_eq_ok, pure_eq_ok] at h
  obtain ⟨_, ⟨_, _, _, _, _, _, e, he, _⟩, _, hexisting, _, _, recorded, hrecorded, rfl⟩ := h
  refine ⟨rfl, Or.inl rfl, ?_, ⟨e, he⟩,
    (recordIntegrityEventTx_sameCore hrecorded).trans (logAudit_sameCore ..)⟩
  intro hmem
  obtain ⟨r, hr, hkey⟩ := List.mem_map.mp hmem
  cases hfind : db.results.find? fun r => r.key == (form.electionId, form.pollingUnitCode) with
  | some existing => simp [rejectExisting, hfind] at hexisting
  | none =>
      have hnone := List.find?_eq_none.mp hfind r (List.mem_of_mem_filter hr)
      exact hnone (beq_iff_eq.mpr hkey)

end Inec
