import Inec.Results.Submit

/-!
# Reviewing results

The handlers that move a result through its statuses, `handleValidateResult`, `handleFinalizeResult` and
`handleDisputeResult` of handlers.go, and `handleCorrectResult` of election_lifecycle.go, which replaces
a result by a new one. Each runs in one transaction under the row lock of its result.
-/

namespace Inec

open Checks

variable (sha256Hex : String → String)

/-- The end of every review: the row is updated, the evidence recorded, and the action audited under the text
the path names the result by. -/
def recordReviewAs (entityId : String) (env : Env) (db : Tables) (r : ResultRow) (f : ResultRow → ResultRow)
    (event : IntegrityEventInput) (label action : String) : Except HttpError Tables := do
  let recorded ← relabel (recordIntegrityEventTx sha256Hex env (db.updateResult r.id f) event)
    fun err => ⟨503, label ++ err⟩
  return logAudit env recorded.1 action "result" entityId

/-- A review whose path has the id as a number is written. -/
def recordReview (env : Env) (db : Tables) (r : ResultRow) (f : ResultRow → ResultRow)
    (event : IntegrityEventInput) (label action : String) : Except HttpError Tables :=
  recordReviewAs sha256Hex (toString r.id) env db r f event label action

/-- The event of a review, with the payloads of its handler. -/
def reviewEvent (env : Env) (r : ResultRow) (policyId : Int) (eventType visibility : String)
    (publicPayload privatePayload : List (String × Json)) : IntegrityEventInput where
  resultId := r.id
  eventType := eventType
  policyVersionId := policyId
  artifactId := 0
  visibility := visibility
  publicPayload := .ofMap publicPayload
  privatePayload := .ofMap privatePayload
  createdBy := env.claims.userId

def setStatus (status : ResultStatus) (r : ResultRow) : ResultRow := { r with status := status }

def transitionText (current new : ResultStatus) : String :=
  "cannot transition from '" ++ current.text ++ "' to '" ++ new.text ++ "'"

def checkPermify (env : Env) (permission : String) : Except HttpError Unit :=
  require (env.checkPermission env.claims.role permission) ⟨403, "Permission denied by Permify"⟩

/-! ### Validation -/

def checkValidate (env : Env) (db : Tables) (id : Int) : Except HttpError (ResultRow × Int) := do
  requireRole env [.admin, .collationOfficer]
  checkPermify env "validate_result"
  let r ← fetch (db.result? id) ⟨404, "Result not found"⟩
  enforceStateTenancy env db r.pollingUnitCode
  require (r.presidingOfficerId != some env.claims.userId)
    ⟨403, "separation of duties: the submitting officer cannot validate the same result"⟩
  require (canTransition r.status .validated)
    ⟨400, transitionText r.status .validated ++ "; allowed transitions: [" ++
      String.intercalate " " ((validTransitions r.status).map ResultStatus.text) ++ "]"⟩
  let policyId ← relabel (requirePolicyVersion env db r.electionId) fun err => ⟨409, err⟩
  require (!resultHasBlockingCases db id)
    ⟨409, "result has unresolved blocking reconciliation cases and cannot be validated"⟩
  return (r, policyId)

def markValidated (env : Env) (r : ResultRow) : ResultRow :=
  { r with status := .validated, validatedAt := some env.now }

def validatedEvent (env : Env) (r : ResultRow) (policyId : Int) : IntegrityEventInput :=
  reviewEvent env r policyId "RESULT_VALIDATED" integrityVisibilityPublic
    [("status", .str "validated"), ("polling_unit_code", .str r.pollingUnitCode)]
    [("phase", .str "Edge Validation"), ("polling_unit", .str r.pollingUnitCode)]

def handleValidateResult (env : Env) (db : Tables) (id : Int) : Except HttpError Tables := do
  let checked ← checkValidate env db id
  recordReview sha256Hex env db checked.1 (markValidated env) (validatedEvent env checked.1 checked.2)
    "validation evidence could not be recorded: " "RESULT_VALIDATED"

/-! ### Finalization -/

/-- The last user an audit log names as validator of a result, 0 when there is none. -/
def validatorNamed (log : List AuditRow) (entityId : String) : Int :=
  (((log.filter fun a => a.action == "RESULT_VALIDATED" && a.entityType == "result" &&
    a.entityId == entityId).getLast?).map (·.userId)).getD 0

def validatorOf (db : Tables) (id : Int) : Int := validatorNamed db.auditLog (toString id)

/-- The checks, with the validator the audit log was found to name. -/
def checkFinalizeAfter (validatorId : Int) (env : Env) (db : Tables) (id : Int) :
    Except HttpError (ResultRow × Int) := do
  requireRole env [.admin, .collationOfficer]
  require (0 < id) ⟨400, "invalid result id"⟩
  checkPermify env "finalize_result"
  let r ← fetch (db.result? id) ⟨404, "Result not found"⟩
  enforceStateTenancy env db r.pollingUnitCode
  require (r.presidingOfficerId != some env.claims.userId)
    ⟨403, "separation of duties: the submitting officer cannot finalize the same result"⟩
  require (!(validatorId != 0 && validatorId == env.claims.userId))
    ⟨403, "separation of duties: the validating officer cannot finalize the same result"⟩
  require (canTransition r.status .finalized)
    ⟨409, transitionText r.status .finalized ++ "; only 'validated' results can be finalized"⟩
  let policyId ← relabel (requirePolicyVersion env db r.electionId) fun err => ⟨409, err⟩
  require (!resultHasBlockingCases db id)
    ⟨409, "result has unresolved blocking reconciliation cases and cannot be finalized"⟩
  require (db.evidenceEvents.any fun ev => ev.resultId == id)
    ⟨409, "result has no immutable evidence chain and cannot be finalized"⟩
  return (r, policyId)

def checkFinalize (env : Env) (db : Tables) (id : Int) : Except HttpError (ResultRow × Int) :=
  checkFinalizeAfter (validatorOf db id) env db id

def markFinalized (env : Env) (r : ResultRow) : ResultRow :=
  { r with status := .finalized, finalizedAt := some env.now }

def finalizedEvent (env : Env) (r : ResultRow) (policyId : Int) : IntegrityEventInput :=
  reviewEvent env r policyId "RESULT_FINALIZED" integrityVisibilityPublic
    [("status", .str "finalized"), ("polling_unit_code", .str r.pollingUnitCode),
      ("tigerbeetle_status", .str "NOT_APPLICABLE")]
    [("phase", .str "Finalization"), ("polling_unit", .str r.pollingUnitCode),
      ("external_anchoring", .str "not_configured")]

def handleFinalizeResult (env : Env) (db : Tables) (id : Int) : Except HttpError Tables := do
  let checked ← checkFinalize env db id
  recordReview sha256Hex env db checked.1 (markFinalized env) (finalizedEvent env checked.1 checked.2)
    "finalisation evidence could not be recorded: " "RESULT_FINALIZED"

/-! ### Disputing a result -/

/-- An observer gives a reason and stays within an hourly quota. -/
def checkObserver (env : Env) (db : Tables) (reason : String) : Except HttpError Unit :=
  if env.claims.role = .observer then do
    require (!isBlank reason) ⟨400, "observers must supply a dispute reason"⟩
    require ((db.auditLog.filter fun a => a.action == "RESULT_DISPUTED" && a.userId == env.claims.userId &&
        env.now - 3600 < a.createdAt).length < env.observerDisputeQuota)
      ⟨429, "dispute quota exceeded; escalate through your accreditation channel"⟩
  else .ok ()

def checkDispute (env : Env) (db : Tables) (id : Int) (reason : String) : Except HttpError (ResultRow × Int) := do
  requireRole env [.admin, .observer, .presidingOfficer]
  require (0 < id) ⟨400, "invalid result id"⟩
  checkPermify env "dispute_result"
  checkObserver env db reason
  let r ← fetch (db.result? id) ⟨404, "Result not found"⟩
  enforceStateTenancy env db r.pollingUnitCode
  enforceOfficerPUBinding env db r.electionId r.pollingUnitCode
  require (canTransition r.status .disputed)
    ⟨409, "cannot dispute result with status '" ++ r.status.text ++ "'; already in terminal state"⟩
  let policyId ← relabel (requirePolicyVersion env db r.electionId) fun err => ⟨409, err⟩
  return (r, policyId)

def handleDisputeResult (env : Env) (db : Tables) (id : Int) (reason : String) : Except HttpError Tables := do
  let checked ← checkDispute env db id reason
  let r := checked.1
  recordReview sha256Hex env db r (setStatus .disputed)
    (reviewEvent env r checked.2 "RESULT_DISPUTED" integrityVisibilityObserver
      [("status", .str "disputed"), ("polling_unit_code", .str r.pollingUnitCode)]
      [("phase", .str "Dispute"), ("polling_unit", .str r.pollingUnitCode)])
    "dispute evidence could not be recorded: " "RESULT_DISPUTED"

/-! ### Correction -/

structure CorrectRequest where
  partyScores : List PartyVoteEntry
  accreditedVoters : Int
  rejectedVotes : Int
  reason : String
  disputeId : Option Int
  deriving DecidableEq, Repr

/-- A dispute that a correction refers to belongs to its election. -/
def checkReferencedDispute (db : Tables) (electionId : Int) : Option Int → Except HttpError Unit
  | none => .ok ()
  | some disputeId => do
      let d ← fetch (db.dispute? disputeId) ⟨400, "referenced dispute not found"⟩
      require (d.electionId == electionId) ⟨400, "referenced dispute belongs to a different election"⟩

/-- Only the hard rules hold back a correction. -/
def checkCorrect (env : Env) (db : Tables) (id : Int) (req : CorrectRequest) : Except HttpError ResultRow := do
  guardRole env [.admin, .collationOfficer, .returningOfficer]
  require (req.reason != "") ⟨400, "reason is required for a correction"⟩
  require (!req.partyScores.isEmpty) ⟨400, "party_scores are required"⟩
  let r ← fetch (db.result? id) ⟨404, "result not found"⟩
  let pu ← fetch (db.pollingUnit? r.pollingUnitCode) ⟨404, "result not found"⟩
  require r.status.live
    ⟨409, "result is already " ++ r.status.text ++ " and cannot be corrected; correct the canonical result instead"⟩
  let violations := validateEC8A (formOf r.electionId r.pollingUnitCode pu.registeredVoters req.partyScores
    req.accreditedVoters req.rejectedVotes)
  require (!hasHardViolation violations)
    ⟨422, "corrected figures are arithmetically inconsistent: " ++ String.intercalate "; " violations⟩
  checkReferencedDispute db r.electionId req.disputeId
  return r

def correctedRow (env : Env) (db : Tables) (r : ResultRow) (req : CorrectRequest) : ResultRow where
  id := nextSerial (db.results.map (·.id))
  electionId := r.electionId
  pollingUnitCode := r.pollingUnitCode
  presidingOfficerId := some env.claims.userId
  status := .pending
  totalValidVotes := partySumOf req.partyScores
  rejectedVotes := req.rejectedVotes
  totalVotesCast := partySumOf req.partyScores + req.rejectedVotes
  accreditedVoters := req.accreditedVoters
  ec8aHash := computeEC8AHash sha256Hex r.electionId r.pollingUnitCode req.partyScores req.accreditedVoters
    req.rejectedVotes
  supersedesResultId := some r.id
  correctionReason := some req.reason
  idempotencyKey := none
  validatedAt := none
  finalizedAt := none

/-- The old row becomes history before its replacement is inserted. -/
def supersede (env : Env) (db : Tables) (r : ResultRow) (req : CorrectRequest) : Tables :=
  (db.updateResult r.id (setStatus .superseded)).addResult (correctedRow sha256Hex env db r req)
    (scorePairs req.partyScores)

def addCorrection (db : Tables) (row : ResultCorrection) : Tables :=
  { db with resultCorrections := db.resultCorrections ++ [row] }

def handleCorrectResult (env : Env) (db : Tables) (id : Int) (req : CorrectRequest) : Except HttpError Tables := do
  let r ← checkCorrect env db id req
  let row := correctedRow sha256Hex env db r req
  let replaced := addCorrection (supersede sha256Hex env db r req)
    ⟨r.electionId, r.pollingUnitCode, r.id, row.id, req.reason, req.disputeId, env.claims.username⟩
  let policyId ← relabel (requirePolicyVersion env replaced r.electionId) fun err => ⟨409, err⟩
  let recorded ← relabel (recordIntegrityEventTx sha256Hex env replaced
      (reviewEvent env row policyId "RESULT_CORRECTED" integrityVisibilityObserver
        [("polling_unit_code", .str r.pollingUnitCode), ("status", .str "pending"),
          ("supersedes", .str (toString r.id))]
        [("reason", .str req.reason), ("party_scores", .arr (req.partyScores.map PartyVoteEntry.json)),
          ("dispute_id", (req.disputeId.map Json.int).getD .null)]))
    fun err => ⟨503, "correction evidence could not be recorded: " ++ err⟩
  return logAudit env recorded.1 "RESULT_CORRECTED" "result" (toString id)

/-! ### What a review does -/

variable {sha256Hex}

theorem recordReviewAs_ok {entityId : String} {env : Env} {db db' : Tables} {r : ResultRow}
    {f : ResultRow → ResultRow} {event : IntegrityEventInput} {label action : String}
    (h : recordReviewAs sha256Hex entityId env db r f event label action = .ok db') :
    Tables.SameCore (db.updateResult r.id f) db' := by
  simp only [recordReviewAs, bind_eq_ok, relabel_eq_ok, pure_eq_ok] at h
  obtain ⟨recorded, hrecorded, rfl⟩ := h
  exact (recordIntegrityEventTx_sameCore hrecorded).trans (logAudit_sameCore ..)

theorem recordReview_ok {env : Env} {db db' : Tables} {r : ResultRow} {f : ResultRow → ResultRow}
    {event : IntegrityEventInput} {label action : String}
    (h : recordReview sha256Hex env db r f event label action = .ok db') :
    Tables.SameCore (db.updateResult r.id f) db' := recordReviewAs_ok h

theorem checkValidate_ok {env : Env} {db : Tables} {id : Int} {checked : ResultRow × Int}
    (h : checkValidate env db id = .ok checked) :
    db.result? id = some checked.1 ∧ canTransition checked.1.status .validated = true := by
  simp only [checkValidate, bind_eq_ok, fetch_eq_ok, require_eq_ok, pure_eq_ok] at h
  obtain ⟨_, _, _, _, r, hr, _, _, _, _, _, hcan, _, _, _, _, rfl⟩ := h
  exact ⟨hr, hcan⟩

theorem checkFinalizeAfter_ok {validatorId : Int} {env : Env} {db : Tables} {id : Int} {checked : ResultRow × Int}
    (h : checkFinalizeAfter validatorId env db id = .ok checked) :
    db.result? id = some checked.1 ∧ checked.1.status = .validated ∧
      checked.1.presidingOfficerId ≠ some env.claims.userId ∧
        (validatorId ≠ 0 → validatorId ≠ env.claims.userId) := by
  simp only [checkFinalizeAfter, bind_eq_ok, fetch_eq_ok, require_eq_ok, pure_eq_ok] at h
  obtain ⟨_, _, _, _, _, _, r, hr, _, _, _, hsubmitter, _, hvalidator, _, hcan, _, _, _, _, _, _, rfl⟩ := h
  refine ⟨hr, canTransition_finalized hcan, bne_iff_ne.mp hsubmitter, ?_⟩
  intro hne heq
  rw [bne_iff_ne.mpr hne, beq_iff_eq.mpr heq] at hvalidator
  cases hvalidator

theorem checkFinalize_ok {env : Env} {db : Tables} {id : Int} {checked : ResultRow × Int}
    (h : checkFinalize env db id = .ok checked) :
    db.result? id = some checked.1 ∧ checked.1.status = .validated := by
  obtain ⟨hr, hvalidated, -⟩ := checkFinalizeAfter_ok h
  exact ⟨hr, hvalidated⟩

theorem handleFinalizeResult_ok {env : Env} {db db' : Tables} {id : Int}
    (h : handleFinalizeResult sha256Hex env db id = .ok db') :
    ∃ checked, checkFinalize env db id = .ok checked ∧
      Tables.SameCore (db.updateResult checked.1.id (markFinalized env)) db' := by
  simp only [handleFinalizeResult, bind_eq_ok] at h
  obtain ⟨checked, hchecked, hrecord⟩ := h
  exact ⟨checked, hchecked, recordReview_ok hrecord⟩

theorem checkDispute_ok {env : Env} {db : Tables} {id : Int} {reason : String} {checked : ResultRow × Int}
    (h : checkDispute env db id reason = .ok checked) :
    db.result? id = some checked.1 ∧ canTransition checked.1.status .disputed = true := by
  simp only [checkDispute, bind_eq_ok, fetch_eq_ok, require_eq_ok, pure_eq_ok] at h
  obtain ⟨_, _, _, _, _, _, _, _, r, hr, _, _, _, _, _, hcan, _, _, rfl⟩ := h
  exact ⟨hr, hcan⟩

theorem checkCorrect_ok {env : Env} {db : Tables} {id : Int} {req : CorrectRequest} {r : ResultRow}
    (h : checkCorrect env db id req = .ok r) : db.result? id = some r ∧ r.status.live = true := by
  simp only [checkCorrect, bind_eq_ok, fetch_eq_ok, require_eq_ok, pure_eq_ok] at h
  obtain ⟨_, _, _, _, _, _, r', hr, _, _, _, hlive, _, _, _, _, rfl⟩ := h
  exact ⟨hr, hlive⟩

/-- The replacement has a key of its own. -/
theorem correctedRow_id_notMem (env : Env) (db : Tables) (r : ResultRow) (req : CorrectRequest) :
    (correctedRow sha256Hex env db r req).id ∉
      (db.updateResult r.id (setStatus .superseded)).results.map (·.id) := by
  have hids : (db.updateResult r.id (setStatus .superseded)).results.map (·.id) = db.results.map (·.id) :=
    Rows.map_update fun _ _ _ => rfl
  rw [hids]
  exact nextSerial_notMem _

theorem handleCorrectResult_ok {env : Env} {db db' : Tables} {id : Int} {req : CorrectRequest}
    (h : handleCorrectResult sha256Hex env db id req = .ok db') :
    ∃ r, checkCorrect env db id req = .ok r ∧ Tables.SameCore (supersede sha256Hex env db r req) db' := by
  simp only [handleCorrectResult, bind_eq_ok, relabel_eq_ok, pure_eq_ok] at h
  obtain ⟨r, hr, _, _, recorded, hrecorded, rfl⟩ := h
  refine ⟨r, hr, Tables.SameCore.trans ?_ (logAudit_sameCore ..)⟩
  have hadd : Tables.SameCore (supersede sha256Hex env db r req)
      (addCorrection (supersede sha256Hex env db r req) ⟨r.electionId, r.pollingUnitCode, r.id,
        (correctedRow sha256Hex env db r req).id, req.reason, req.disputeId, env.claims.username⟩) :=
    ⟨rfl, rfl, rfl, rfl, rfl, rfl, rfl, rfl, rfl⟩
  exact hadd.trans (recordIntegrityEventTx_sameCore hrecorded)

end Inec
