import Inec.Results.Review

/-!
# Disputes

`handleFileDispute` and `handleResolveDispute` of dispute_resolution.go. Closing a dispute writes the
status of the result it is linked to: a dismissal restores a disputed result, an annulment voids any
result that is not history yet, finalized ones included. No evidence event is recorded for either.
-/

namespace Inec

open Checks

/-! ### Filing -/

def disputeCategories : List String :=
  ["overvoting", "ballot_stuffing", "voter_intimidation", "result_falsification", "unauthorized_persons",
    "voting_machine_tampering", "multiple_voting", "missing_results", "procedural_violation", "other"]

structure FileDisputeRequest where
  electionId : Int
  pollingUnitCode : String
  resultId : Option Int
  category : String
  description : String
  deriving DecidableEq, Repr

def FileDisputeRequest.failures (req : FileDisputeRequest) : List String :=
  requiredInt "ElectionID" "required" req.electionId true ++ requiredString "Category" req.category ++
    requiredString "Description" req.description

def disputePriority (category : String) : String :=
  if ["result_falsification", "ballot_stuffing", "voting_machine_tampering"].contains category then "high"
  else "medium"

/-- A result that a dispute is linked to belongs to its election. -/
def checkLinkedResult (db : Tables) (electionId : Int) : Option Int → Except HttpError Unit
  | none => .ok ()
  | some resultId => do
      let r ← fetch (db.result? resultId) ⟨400, "referenced result not found"⟩
      require (r.electionId == electionId) ⟨400, "referenced result belongs to a different election"⟩

def filedDispute (env : Env) (db : Tables) (req : FileDisputeRequest) : Dispute where
  id := nextSerial (db.disputes.map (·.id))
  electionId := req.electionId
  pollingUnitCode := req.pollingUnitCode
  resultId := req.resultId
  filedBy := env.claims.username
  category := req.category
  priority := disputePriority req.category
  status := .filed
  assignedTo := ""
  resolution := ""
  outcome := none
  resolvedBy := ""

def handleFileDispute (env : Env) (db : Tables) (req : FileDisputeRequest) : Except HttpError Tables := do
  requireRole env [.admin, .officer, .observer]
  require req.failures.isEmpty (validationError req.failures)
  require (disputeCategories.contains req.category)
    ⟨400, "invalid category: must be one of [" ++ String.intercalate " " disputeCategories ++ "]"⟩
  let _ ← fetch (db.election? req.electionId) ⟨404, "election not found"⟩
  checkLinkedResult db req.electionId req.resultId
  return { db with disputes := db.disputes ++ [filedDispute env db req] }

/-! ### Resolving -/

inductive DisputeAction
  | review | escalate | resolve | dismiss
  | unknown (name : String)
  deriving DecidableEq, Repr

def DisputeAction.text : DisputeAction → String
  | .review => "review"
  | .escalate => "escalate"
  | .resolve => "resolve"
  | .dismiss => "dismiss"
  | .unknown name => name

def DisputeOutcome.text : DisputeOutcome → String
  | .upheld => "upheld"
  | .dismissed => "dismissed"
  | .correctionOrdered => "correction_ordered"
  | .resultAnnulled => "result_annulled"
  | .rerunOrdered => "rerun_ordered"

def disputeOutcomes : List DisputeOutcome :=
  [.upheld, .dismissed, .correctionOrdered, .resultAnnulled, .rerunOrdered]

structure ResolveRequest where
  action : DisputeAction
  resolution : String
  outcome : String
  assignTo : String
  deriving DecidableEq, Repr

/-- The outcome of a request that closes a dispute, with its default. -/
def closingOutcome (req : ResolveRequest) : Except HttpError DisputeOutcome := do
  let text := if req.outcome = "" then (if req.action = .dismiss then "dismissed" else "upheld") else req.outcome
  let outcome ← fetch (disputeOutcomes.find? fun o => o.text == text)
    ⟨400, "invalid outcome: must be one of upheld, dismissed, correction_ordered, result_annulled, rerun_ordered"⟩
  require (!(req.action == .dismiss && outcome != .dismissed))
    ⟨400, "dismiss action requires outcome 'dismissed'"⟩
  return outcome

def checkClosing (d : Dispute) (req : ResolveRequest) : Except HttpError (Option DisputeOutcome) := do
  require d.status.unresolved ⟨409, "dispute is already closed"⟩
  require (req.resolution != "") ⟨400, "resolution is required when resolving or dismissing a dispute"⟩
  let outcome ← closingOutcome req
  return some outcome

/-- The checks of each action. A closing action returns its outcome. -/
def checkAction (d : Dispute) (req : ResolveRequest) : Except HttpError (Option DisputeOutcome) :=
  match req.action with
  | .review => do
      require (d.status == .filed) ⟨422, "can only review disputes in 'filed' status"⟩
      return none
  | .escalate => do
      require (d.status == .underReview || d.status == .filed)
        ⟨422, "can only escalate disputes in 'filed' or 'under_review' status"⟩
      return none
  | .resolve => checkClosing d req
  | .dismiss => checkClosing d req
  | .unknown _ => .error ⟨400, "action must be: review, escalate, resolve, or dismiss"⟩

def checkResolve (env : Env) (db : Tables) (id : Int) (req : ResolveRequest) :
    Except HttpError (Dispute × Option DisputeOutcome) := do
  requireRole env [.admin]
  require (req.action.text != "") (validationError (requiredString "Action" req.action.text))
  let d ← fetch (db.dispute? id) ⟨404, "dispute not found"⟩
  let outcome ← checkAction d req
  return (d, outcome)

/-- The status a dispute moves to. -/
def resolvedStatus (action : DisputeAction) (outcome : Option DisputeOutcome) : DisputeStatus :=
  match outcome with
  | some .dismissed => .dismissed
  | some _ => .resolved
  | none => if action = .review then .underReview else .escalated

/-- The write to the dispute row. -/
def resolveDispute (env : Env) (req : ResolveRequest) (outcome : Option DisputeOutcome) (d : Dispute) : Dispute :=
  match outcome with
  | none => { d with status := resolvedStatus req.action none, assignedTo := req.assignTo }
  | some o =>
      { d with
        status := resolvedStatus req.action (some o)
        resolution := req.resolution
        outcome := some o
        resolvedBy := env.claims.username }

/-- The status before the dispute, as far as `validated_at` tells. -/
def restoredStatus (r : ResultRow) : ResultStatus := if r.validatedAt.isSome then .validated else .pending

/-- The status an outcome writes to the linked result, if any. -/
def DisputeOutcome.remedy (r : ResultRow) : DisputeOutcome → Option ResultStatus
  | .dismissed => if r.status = .disputed then some (restoredStatus r) else none
  | .resultAnnulled => if r.status.live then some .voided else none
  | .rerunOrdered => if r.status.live then some .voided else none
  | .correctionOrdered => none
  | .upheld => none

/-- The text of the response. -/
def remediationText (r : ResultRow) (outcome : DisputeOutcome) : String :=
  match outcome, outcome.remedy r with
  | .dismissed, some status => "result_restored_to_" ++ status.text
  | _, some _ => "result_voided"
  | .correctionOrdered, none => "correction_required"
  | .upheld, none => "result_remains_disputed"
  | _, none => ""

/-- The linked result of a dispute that is being closed, and the outcome. -/
def linkedResult? (db : Tables) (checked : Dispute × Option DisputeOutcome) :
    Option (ResultRow × DisputeOutcome) := do
  let outcome ← checked.2
  let resultId ← checked.1.resultId
  let r ← db.result? resultId
  return (r, outcome)

/-- The linked result that gets a new status, and that status. -/
def remedied? (db : Tables) (checked : Dispute × Option DisputeOutcome) : Option (ResultRow × ResultStatus) := do
  let linked ← linkedResult? db checked
  let status ← linked.2.remedy linked.1
  return (linked.1, status)

/-- Re-sync the linked result with the outcome. Voiding is audited on its own. -/
def remediate (env : Env) (db : Tables) (checked : Dispute × Option DisputeOutcome) : Tables :=
  match remedied? db checked with
  | none => db
  | some (r, status) =>
      let updated := db.updateResult r.id (setStatus status)
      if status = .voided then logAudit env updated "RESULT_ANNULLED" "result" (toString r.id) else updated

structure ResolveResponse where
  disputeId : Int
  status : DisputeStatus
  remediation : String
  deriving DecidableEq, Repr

/-- `strings.ToUpper` on the action names. -/
def upperText (s : String) : String := String.ofList (s.toList.map Char.toUpper)

def handleResolveDispute (env : Env) (db : Tables) (id : Int) (req : ResolveRequest) :
    Except HttpError (Tables × ResolveResponse) := do
  let checked ← checkResolve env db id req
  let updated := (remediate env db checked).updateDispute id (resolveDispute env req checked.2)
  let text := ((linkedResult? db checked).map fun linked => remediationText linked.1 linked.2).getD ""
  return (logAudit env updated ("DISPUTE_" ++ upperText req.action.text) "dispute" (toString id),
    ⟨id, resolvedStatus req.action checked.2, text⟩)

/-! ### What a dispute does to results -/

theorem handleFileDispute_ok {env : Env} {db db' : Tables} {req : FileDisputeRequest}
    (h : handleFileDispute env db req = .ok db') : Tables.SameCore db db' := by
  simp only [handleFileDispute, bind_eq_ok, pure_eq_ok] at h
  obtain ⟨_, _, _, _, _, _, _, _, _, _, rfl⟩ := h
  exact ⟨rfl, rfl, rfl, rfl, rfl, rfl, rfl, rfl, rfl⟩

/-- The result write of a resolution, without the audit row. -/
def remediedTables (db : Tables) (checked : Dispute × Option DisputeOutcome) : Tables :=
  match remedied? db checked with
  | none => db
  | some (r, status) => db.updateResult r.id (setStatus status)

theorem remediate_sameCore (env : Env) (db : Tables) (checked : Dispute × Option DisputeOutcome) :
    Tables.SameCore (remediedTables db checked) (remediate env db checked) := by
  unfold remediedTables remediate
  cases remedied? db checked with
  | none => exact Tables.SameCore.refl db
  | some write =>
      simp only
      split
      · exact logAudit_sameCore ..
      · exact Tables.SameCore.refl _

theorem handleResolveDispute_ok {env : Env} {db db' : Tables} {id : Int} {req : ResolveRequest}
    {response : ResolveResponse} (h : handleResolveDispute env db id req = .ok (db', response)) :
    ∃ checked, checkResolve env db id req = .ok checked ∧ Tables.SameCore (remediedTables db checked) db' := by
  simp only [handleResolveDispute, bind_eq_ok, pure_eq_ok, Prod.mk.injEq] at h
  obtain ⟨checked, hchecked, rfl, _⟩ := h
  refine ⟨checked, hchecked, (remediate_sameCore env db checked).trans ?_⟩
  have hdispute : Tables.SameCore (remediate env db checked)
      ((remediate env db checked).updateDispute id (resolveDispute env req checked.2)) :=
    ⟨rfl, rfl, rfl, rfl, rfl, rfl, rfl, rfl, rfl⟩
  exact hdispute.trans (logAudit_sameCore ..)

/-- A resolution either voids the linked result, which is live, or restores it, when it is disputed. -/
theorem remedied?_cases {db : Tables} {checked : Dispute × Option DisputeOutcome} {r : ResultRow}
    {status : ResultStatus} (h : remedied? db checked = some (r, status)) :
    db.result? r.id = some r ∧ checked.1.resultId = some r.id ∧
      ((status = .voided ∧ r.status.live = true) ∨
        (checked.2 = some .dismissed ∧ r.status = .disputed ∧ status = restoredStatus r)) := by
  simp only [remedied?, linkedResult?, Option.bind_eq_bind, Option.bind_eq_some_iff, Option.pure_def,
    Option.some.injEq] at h
  obtain ⟨linked, ⟨outcome, houtcome, resultId, hlinked, r', hr', rfl⟩, status', hremedy, heq⟩ := h
  obtain ⟨rfl, rfl⟩ := Prod.mk.inj heq
  have hid := (Tables.mem_of_result? hr').2
  refine ⟨hid ▸ hr', hid ▸ hlinked, ?_⟩
  have hvoid : ∀ {s : ResultStatus}, (if r'.status.live then some .voided else none) = some s →
      s = .voided ∧ r'.status.live = true := by
    intro s hs
    split at hs
    · exact ⟨(Option.some.inj hs).symm, by assumption⟩
    · cases hs
  cases outcome with
  | upheld => simp [DisputeOutcome.remedy] at hremedy
  | correctionOrdered => simp [DisputeOutcome.remedy] at hremedy
  | resultAnnulled => exact Or.inl (hvoid hremedy)
  | rerunOrdered => exact Or.inl (hvoid hremedy)
  | dismissed =>
      simp only [DisputeOutcome.remedy] at hremedy
      split at hremedy
      · rename_i hdisputed
        exact Or.inr ⟨houtcome, hdisputed, (Option.some.inj hremedy).symm⟩
      · cases hremedy

/-- A resolution either voids a live result or takes a disputed one back into the review. -/
theorem remedied?_eq_some {db : Tables} {checked : Dispute × Option DisputeOutcome} {r : ResultRow}
    {status : ResultStatus} (h : remedied? db checked = some (r, status)) :
    db.result? r.id = some r ∧ r.status.live = true ∧
      (status = .voided ∨ (r.status = .disputed ∧ (status = .pending ∨ status = .validated))) := by
  obtain ⟨hr, -, ⟨hvoided, hlive⟩ | ⟨-, hdisputed, hrestored⟩⟩ := remedied?_cases h
  · exact ⟨hr, hlive, Or.inl hvoided⟩
  · refine ⟨hr, by rw [hdisputed]; rfl, Or.inr ⟨hdisputed, ?_⟩⟩
    rw [hrestored, restoredStatus]
    split
    · exact Or.inr rfl
    · exact Or.inl rfl

end Inec
