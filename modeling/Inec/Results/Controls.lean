import Inec.Collation.Canonical
import Inec.Evidence.Record

/-!
# The controls on result operations

What the result handlers check besides the figures: the tenancy of the officer, the binding of a
presiding officer to a polling unit, the policy version in force, open reconciliation cases, the scope
of a rerun, and the status machine of results in security.go.
-/

namespace Inec

open Checks

/-! ### Where a polling unit is -/

section Area

variable (db : Tables) (code : String)

/-- `SELECT ward_code FROM polling_units WHERE code = ?`. -/
def wardOf : Option String := (db.pollingUnit? code).map (·.wardCode)

def lgaOf : Option String := do
  let ward ← wardOf db code
  let w ← db.wards.find? fun w => w.code == ward
  return w.lgaCode

def stateOf : Option String := do
  let lga ← lgaOf db code
  let l ← db.lgas.find? fun l => l.code == lga
  return l.stateCode

end Area

/-- The area of a type and code contains the polling unit. -/
def areaContains (db : Tables) (areaType areaCode code : String) : Bool :=
  areaType == "national" ||
    (areaType == "polling_unit" && areaCode == code) ||
    (areaType == "ward" && wardOf db code == some areaCode) ||
    (areaType == "lga" && lgaOf db code == some areaCode) ||
    (areaType == "state" && stateOf db code == some areaCode)

def puInRerunScope (db : Tables) (electionId : Int) (code : String) : Bool :=
  db.rerunScopes.any fun scope => scope.electionId == electionId &&
    (match scope.scopeType with
      | .pollingUnit => scope.areaCode == code
      | .ward => wardOf db code == some scope.areaCode
      | .lga => lgaOf db code == some scope.areaCode)

/-! ### Officers -/

def enforceStateTenancy (env : Env) (db : Tables) (code : String) : Except HttpError Unit :=
  if env.claims.role = .admin then .ok ()
  else do
    let state ← fetch ((stateOf db code).filter db.states.contains) ⟨400, "Polling unit not found"⟩
    require (env.claims.stateCode != "" && env.claims.stateCode == state)
      ⟨403, "forbidden: polling unit is outside your assigned state"⟩

def StaffAssignment.inForce (s : StaffAssignment) : Bool := ["assigned", "deployed", "active"].contains s.status

/-- An election without assignments to polling units does not bind its officers. -/
def enforceOfficerPUBinding (env : Env) (db : Tables) (electionId : Int) (code : String) : Except HttpError Unit :=
  let assigned := db.staffAssignments.filter fun s => s.electionId == electionId && s.inForce
  let covering := assigned.any fun s =>
    s.userId == env.claims.userId && areaContains db s.areaType s.areaCode code
  let registryFilled := assigned.any fun s => s.areaType == "polling_unit"
  require (env.claims.role != .presidingOfficer || covering || !registryFilled)
    ⟨403, "forbidden: you are not assigned to this polling unit for this election"⟩

/-! ### Policy and cases -/

/-- `ORDER BY effective_from DESC, id DESC LIMIT 1`. -/
def latestPolicy : List PolicyVersion → Option PolicyVersion
  | [] => none
  | p :: rest =>
      match latestPolicy rest with
      | none => some p
      | some q =>
          if p.effectiveFrom < q.effectiveFrom ∨ (p.effectiveFrom = q.effectiveFrom ∧ p.id < q.id) then some q
          else some p

def activePolicyVersionID (env : Env) (db : Tables) (electionId : Int) : Int :=
  ((latestPolicy (db.policyVersions.filter fun p => p.electionId == electionId && p.status == .approved &&
    (p.effectiveUntil.all fun until_ => env.now < until_))).map (·.id)).getD 0

def requirePolicyVersion (env : Env) (db : Tables) (electionId : Int) : Except String Int := do
  let policyId := activePolicyVersionID env db electionId
  require (!(integrityPolicyRequired env && policyId == 0))
    "an approved election policy version is required for integrity-controlled transitions"
  return policyId

def resultHasBlockingCases (db : Tables) (resultId : Int) : Bool :=
  db.reconciliationCases.any fun c => c.resultId == resultId && c.blocking &&
    (c.status == .open || c.status == .underReview)

/-! ### The status machine of results -/

def validTransitions : ResultStatus → List ResultStatus
  | .pending => [.validated, .disputed]
  | .validated => [.finalized, .disputed]
  | .disputed => [.pending, .validated]
  | .finalized => []
  | .voided => []
  | .superseded => []

def canTransition (current new : ResultStatus) : Bool := (validTransitions current).contains new

/-- The machine only leads between rows the unique index covers. -/
theorem live_of_canTransition {current new : ResultStatus} (h : canTransition current new = true) :
    current.live = true ∧ new.live = true ∧ current ≠ .finalized := by
  revert h
  cases current <;> cases new <;> decide

theorem canTransition_finalized {current : ResultStatus} (h : canTransition current .finalized = true) :
    current = .validated := by
  revert h
  cases current <;> decide

end Inec
