import Inec.Declaration.Assessment

/-!
# Declaring a result

`handleDeclareResult` of election_lifecycle.go. It runs under the row lock of the election. The states
it accepts are its own list, not the transition table's.
-/

namespace Inec

open Checks

structure DeclareRequest where
  notes : String
  declareInconclusive : Bool
  deriving DecidableEq, Repr

/-- The states `handleDeclareResult` declares from. -/
def ElectionState.declarable (s : ElectionState) : Bool := s == .collating || s == .closed || s == .disputed

/-- The completeness gate and the electoral rules. -/
def checkDeclaration (env : Env) (db : Tables) (electionId : Int) (req : DeclareRequest) :
    Except HttpError DeclarationAssessment := do
  let a ← relabel (assessDeclaration env.order db electionId) fun err => ⟨500, err⟩
  require a.complete ⟨422, "declaration blocked: not all polling units are accounted for"⟩
  require (a.openDisputes == 0) ⟨422, "declaration blocked: unresolved disputes remain"⟩
  require (!(a.inconclusive && !req.declareInconclusive))
    ⟨422, "election is inconclusive under the margin-of-lead/spread rules"⟩
  require (!(a.winnerParty == "" && !req.declareInconclusive))
    ⟨422, "no finalized results — nothing to declare"⟩
  return a

def declarationPayload (env : Env) (electionId : Int) (req : DeclareRequest) (a : DeclarationAssessment) :
    WinnerPayload :=
  let inconclusive := req.declareInconclusive || a.inconclusive
  let ifDeclared {α : Type} (value : α) : Option α := if inconclusive then none else some value
  { outcome := if inconclusive then "inconclusive" else "winner_declared"
    winnerParty := ifDeclared a.winnerParty
    winnerVotes := ifDeclared a.winnerVotes
    runnerUpParty := ifDeclared a.runnerUpParty
    runnerUpVotes := ifDeclared a.runnerUpVotes
    partyTotals := a.partyTotals
    margin := a.margin
    assessment := a
    declaredBy := env.claims.username
    declaredAt := env.now
    electionId := electionId
    notes := req.notes }

/-- The UPDATE of the election row. -/
def declareElection (env : Env) (req : DeclareRequest) (payload : WinnerPayload) (e : Election) : Election :=
  { e with
    status := .declared
    declaredAt := some env.now
    declaredBy := some env.claims.username
    winnerPayload := some payload
    declarationNotes := some req.notes
    updatedAt := env.now }

@[simp] theorem declareElection_id (env : Env) (req : DeclareRequest) (payload : WinnerPayload) (e : Election) :
    (declareElection env req payload e).id = e.id := rfl

/-- The checks that come before the assessment is run. -/
def checkDeclarable (env : Env) (db : Tables) (electionId : Int) : Except HttpError Election := do
  guardRole env [.admin, .returningOfficer]
  require (env.checkPermission env.claims.role "declare_result")
    ⟨403, "permission denied: declare_result required"⟩
  let e ← fetch (db.election? electionId) ⟨404, "election not found"⟩
  require e.declaredAt.isNone ⟨409, "election result has already been declared"⟩
  require e.status.declarable
    ⟨422, "election must be in collating/closed state to declare (current: " ++ e.status.text ++ ")"⟩
  return e

/-- The two writes of a declaration. -/
def declaredTables (env : Env) (db : Tables) (e : Election) (electionId : Int) (req : DeclareRequest)
    (a : DeclarationAssessment) : Tables :=
  (db.updateElection electionId (declareElection env req (declarationPayload env electionId req a))).logState
    ⟨electionId, e.status, .declared, .declare, env.claims.username, env.now⟩

def handleDeclareResult (env : Env) (db : Tables) (electionId : Int) (req : DeclareRequest) :
    Except HttpError Tables := do
  let e ← checkDeclarable env db electionId
  let a ← checkDeclaration env db electionId req
  return logAudit env (declaredTables env db e electionId req a) "RESULT_DECLARED" "election" (toString electionId)

theorem checkDeclarable_ok {env : Env} {db : Tables} {electionId : Int} {e : Election}
    (h : checkDeclarable env db electionId = .ok e) :
    db.election? electionId = some e ∧ e.declaredAt = none ∧ e.status.declarable = true := by
  simp only [checkDeclarable, bind_eq_ok, fetch_eq_ok, require_eq_ok, pure_eq_ok] at h
  obtain ⟨_, _, _, _, e', he, _, hnone, _, hstatus, rfl⟩ := h
  exact ⟨he, Option.isNone_iff_eq_none.mp hnone, hstatus⟩

theorem checkDeclaration_ok {env : Env} {db : Tables} {electionId : Int} {req : DeclareRequest}
    {a : DeclarationAssessment} (h : checkDeclaration env db electionId req = .ok a) :
    assessDeclaration env.order db electionId = .ok a := by
  simp only [checkDeclaration, bind_eq_ok, relabel_eq_ok, pure_eq_ok] at h
  obtain ⟨a', ha, _, _, _, _, _, _, _, _, rfl⟩ := h
  exact ha

/-- A declaration that passes its checks goes through. -/
theorem handleDeclareResult_of_checks {env : Env} {db : Tables} {electionId : Int} {req : DeclareRequest}
    {e : Election} {a : DeclarationAssessment} (he : checkDeclarable env db electionId = .ok e)
    (ha : checkDeclaration env db electionId req = .ok a) :
    ∃ db', handleDeclareResult env db electionId req = .ok db' ∧
      Tables.SameCore (declaredTables env db e electionId req a) db' := by
  refine ⟨_, ?_, logAudit_sameCore env _ "RESULT_DECLARED" "election" (toString electionId)⟩
  simp only [handleDeclareResult, bind_eq_ok, pure_eq_ok]
  exact ⟨e, he, a, ha, rfl⟩

/-- A declaration writes one election row and one log row, next to its audit entry. -/
theorem handleDeclareResult_ok {env : Env} {db db' : Tables} {electionId : Int} {req : DeclareRequest}
    (h : handleDeclareResult env db electionId req = .ok db') :
    ∃ e a, checkDeclarable env db electionId = .ok e ∧ checkDeclaration env db electionId req = .ok a ∧
      Tables.SameCore (declaredTables env db e electionId req a) db' := by
  simp only [handleDeclareResult, bind_eq_ok, pure_eq_ok] at h
  obtain ⟨e, he, a, ha, rfl⟩ := h
  exact ⟨e, a, he, ha, logAudit_sameCore ..⟩

end Inec
