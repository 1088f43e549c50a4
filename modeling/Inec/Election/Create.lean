import Inec.Election.Guards
import Inec.Results.Ec8a

/-!
# Setting elections up

`handleCreateElection` of handlers.go, `handleCreateRerun` of election_lifecycle.go and
`handleAssignStaff` of ems.go. A rerun is a child election with the areas it covers; nothing compares
its areas with those of the children its parent already has.
-/

namespace Inec

open Checks

/-! ### General elections -/

structure ElectionCreate where
  title : String
  electionType : String
  electionDate : String
  description : String
  status : String
  deriving DecidableEq, Repr

/-- The `oneof` of `election_type`. -/
def creatableTypes : List (String × ElectionType) :=
  [("presidential", .presidential), ("gubernatorial", .gubernatorial), ("senatorial", .senatorial),
    ("house_of_reps", .houseOfReps)]

/-- The `oneof` of `status`. -/
def creatableStates : List ElectionState :=
  [.draft, .scheduled, .upcoming, .active, .voting, .collating, .closed, .completed, .cancelled, .disputed]

def titleFailures (title : String) : List String :=
  if title = "" then [fieldFailure "Title" "required"]
  else if title.length < 3 then [fieldFailure "Title" "min"]
  else if 200 < title.length then [fieldFailure "Title" "max"]
  else []

def typeFailures (text : String) : List String :=
  if text = "" then [fieldFailure "ElectionType" "required"]
  else if creatableTypes.any fun t => t.1 == text then []
  else [fieldFailure "ElectionType" "oneof"]

def statusFailures (text : String) : List String :=
  if text = "" || creatableStates.any fun s => s.text == text then [] else [fieldFailure "Status" "oneof"]

def ElectionCreate.failures (req : ElectionCreate) : List String :=
  titleFailures req.title ++ typeFailures req.electionType ++ requiredString "ElectionDate" req.electionDate ++
    (if 2000 < req.description.length then [fieldFailure "Description" "max"] else []) ++
    statusFailures req.status

/-- The row of a new election, with the column defaults of the migrations. -/
def newElection (env : Env) (db : Tables) (title : String) (electionType : ElectionType) (electionDate : String)
    (status : ElectionState) (kind : ElectionKind) (parent : Option Int) : Election where
  id := nextSerial (db.elections.map (·.id))
  title := title
  electionType := electionType
  electionDate := electionDate
  status := status
  electionKind := kind
  parentElectionId := parent
  declaredAt := none
  declaredBy := none
  winnerPayload := none
  declarationNotes := none
  updatedAt := env.now

def handleCreateElection (env : Env) (db : Tables) (req : ElectionCreate) : Except HttpError Tables := do
  requireRole env [.admin]
  let electionType ← fetch (creatableTypes.find? fun t => t.1 == req.electionType) (validationError req.failures)
  let status ← fetch (creatableStates.find? fun s => s.text == (if req.status = "" then "draft" else req.status))
    (validationError req.failures)
  require req.failures.isEmpty (validationError req.failures)
  let e := newElection env db req.title electionType.2 req.electionDate status .general none
  return logAudit env (db.addElection e) "ELECTION_CREATED" "election" (toString e.id)

/-! ### Reruns -/

structure ScopeEntry where
  scopeType : String
  areaCode : String
  reason : String
  deriving DecidableEq, Repr

structure RerunRequest where
  kind : String
  title : String
  electionDate : String
  /-- `none` is a scope the request leaves out. -/
  scope : Option (List ScopeEntry)
  deriving DecidableEq, Repr

def RerunRequest.failures (req : RerunRequest) : List String :=
  requiredString "Kind" req.kind ++ requiredString "ElectionDate" req.electionDate ++
    (match req.scope with
      | none => [fieldFailure "Scope" "required"]
      | some [] => [fieldFailure "Scope" "min"]
      | some _ => [])

def rerunKinds : List ElectionKind := [.rerun, .supplementary, .byElection]

def scopeTypes : List ScopeType := [.pollingUnit, .ward, .lga]

/-- The scoped area is in the geography. -/
def areaExists (db : Tables) (scopeType : ScopeType) (areaCode : String) : Bool :=
  match scopeType with
  | .pollingUnit => db.pollingUnits.any fun p => p.code == areaCode
  | .ward => db.wards.any fun w => w.code == areaCode
  | .lga => db.lgas.any fun l => l.code == areaCode

/-- One turn of the scope loop, with the unique constraint of `rerun_scopes`. -/
def addScope (env : Env) (child : Int) (db : Tables) (entry : ScopeEntry) : Except HttpError Tables := do
  let scopeType ← fetch (scopeTypes.find? fun t => t.text == entry.scopeType)
    ⟨400, "scope_type must be polling_unit, ward, or lga"⟩
  require (areaExists db scopeType entry.areaCode)
    ⟨400, "scoped " ++ entry.scopeType ++ " " ++ entry.areaCode.quote ++ " not found"⟩
  require (!(db.rerunScopes.any fun s =>
      s.electionId == child && s.scopeType == scopeType && s.areaCode == entry.areaCode))
    ⟨500, "failed to record rerun scope"⟩
  return db.addScopes [⟨child, scopeType, entry.areaCode, entry.reason, env.claims.username⟩]

def addScopeEntries (env : Env) (child : Int) : Tables → List ScopeEntry → Except HttpError Tables
  | db, [] => .ok db
  | db, entry :: rest => do
      let db' ← addScope env child db entry
      addScopeEntries env child db' rest

/-- `strings.ReplaceAll(kind, "_", " ")`. -/
def spaced (text : String) : String := String.ofList (text.toList.map fun c => if c = '_' then ' ' else c)

/-- The checks of the request and of the parent. They return the kind and the parent. -/
def checkRerun (env : Env) (db : Tables) (parentId : Int) (req : RerunRequest) :
    Except HttpError (ElectionKind × Election) := do
  guardRole env [.admin]
  require req.failures.isEmpty (validationError req.failures)
  let kind ← fetch (rerunKinds.find? fun k => k.text == req.kind)
    ⟨400, "kind must be rerun, supplementary, or by_election"⟩
  require (parseDate req.electionDate).isSome ⟨400, "election_date must be YYYY-MM-DD"⟩
  let parent ← fetch (db.election? parentId) ⟨404, "parent election not found"⟩
  require (!(parent.status == .cancelled || parent.status == .draft))
    ⟨422, "cannot create a rerun for a " ++ parent.status.text ++ " election"⟩
  return (kind, parent)

def rerunElection (env : Env) (db : Tables) (kind : ElectionKind) (parent : Election) (req : RerunRequest) :
    Election :=
  let title := if req.title = "" then parent.title ++ " (" ++ spaced req.kind ++ ")" else req.title
  newElection env db title parent.electionType req.electionDate .scheduled kind (some parent.id)

def handleCreateRerun (env : Env) (db : Tables) (parentId : Int) (req : RerunRequest) :
    Except HttpError Tables := do
  let (kind, parent) ← checkRerun env db parentId req
  let e := rerunElection env db kind parent req
  let covered ← addScopeEntries env e.id (db.addElection e) (req.scope.getD [])
  return logAudit env covered "RERUN_CREATED" "election" (toString e.id)

/-! ### Staff -/

structure AssignStaffRequest where
  electionId : Int
  userId : Int
  areaType : String
  areaCode : String
  deriving DecidableEq, Repr

/-- `election_staff_assignments_area_type_check`. -/
def staffAreaTypes : List String := ["national", "state", "lga", "ward", "polling_unit"]

/-- An insert the check constraint refuses goes unnoticed. The audit row names no user. -/
def handleAssignStaff (env : Env) (db : Tables) (req : AssignStaffRequest) : Except HttpError Tables := do
  requireRole env [.admin]
  let row : StaffAssignment := ⟨req.electionId, req.userId, req.areaType, req.areaCode, "assigned"⟩
  let inserted := if staffAreaTypes.contains req.areaType then
      { db with staffAssignments := db.staffAssignments ++ [row] }
    else db
  return logAudit { env with claims := { env.claims with userId := 0 } } inserted "STAFF_ASSIGNED" "staff" ""

/-! ### What they add -/

theorem handleCreateElection_ok {env : Env} {db db' : Tables} {req : ElectionCreate}
    (h : handleCreateElection env db req = .ok db') :
    ∃ electionType, ∃ status ∈ creatableStates, Tables.SameCore
      (db.addElection (newElection env db req.title electionType req.electionDate status .general none)) db' := by
  simp only [handleCreateElection, bind_eq_ok, fetch_eq_ok, pure_eq_ok] at h
  obtain ⟨_, _, electionType, _, status, hstatus, _, _, rfl⟩ := h
  exact ⟨electionType.2, status, List.mem_of_find?_eq_some hstatus, logAudit_sameCore ..⟩

theorem addScopeEntries_ok {env : Env} {child : Int} {db db' : Tables} {entries : List ScopeEntry}
    (h : addScopeEntries env child db entries = .ok db') :
    ∃ scopes, (∀ s ∈ scopes, s.electionId = child) ∧ db' = db.addScopes scopes := by
  induction entries generalizing db with
  | nil =>
      refine ⟨[], by simp, ?_⟩
      rw [← Except.ok.inj h, Tables.addScopes, List.append_nil]
  | cons entry rest ih =>
      simp only [addScopeEntries, addScope, bind_eq_ok, pure_eq_ok] at h
      obtain ⟨_, ⟨scopeType, _, _, _, _, _, rfl⟩, hrest⟩ := h
      obtain ⟨scopes, hscopes, rfl⟩ := ih hrest
      refine ⟨⟨child, scopeType, entry.areaCode, entry.reason, env.claims.username⟩ :: scopes, ?_, ?_⟩
      · intro s hs
        rcases List.mem_cons.mp hs with rfl | hs
        · rfl
        · exact hscopes s hs
      · simp [Tables.addScopes]

theorem checkRerun_ok {env : Env} {db : Tables} {parentId : Int} {req : RerunRequest}
    {checked : ElectionKind × Election} (h : checkRerun env db parentId req = .ok checked) :
    checked.1 ∈ rerunKinds ∧ db.election? parentId = some checked.2 := by
  simp only [checkRerun, bind_eq_ok, fetch_eq_ok, pure_eq_ok] at h
  obtain ⟨_, _, _, _, kind, hkind, _, _, parent, hparent, _, _, rfl⟩ := h
  exact ⟨List.mem_of_find?_eq_some hkind, hparent⟩

theorem handleCreateRerun_ok {env : Env} {db db' : Tables} {parentId : Int} {req : RerunRequest}
    (h : handleCreateRerun env db parentId req = .ok db') :
    ∃ kind parent scopes, checkRerun env db parentId req = .ok (kind, parent) ∧
      (∀ s ∈ scopes, s.electionId = nextSerial (db.elections.map (·.id))) ∧
      Tables.SameCore ((db.addElection (rerunElection env db kind parent req)).addScopes scopes) db' := by
  simp only [handleCreateRerun, bind_eq_ok, pure_eq_ok] at h
  obtain ⟨⟨kind, parent⟩, hchecked, _, hcovered, rfl⟩ := h
  obtain ⟨scopes, hscopes, rfl⟩ := addScopeEntries_ok hcovered
  exact ⟨kind, parent, scopes, hchecked, hscopes, logAudit_sameCore ..⟩

theorem handleAssignStaff_ok {env : Env} {db db' : Tables} {req : AssignStaffRequest}
    (h : handleAssignStaff env db req = .ok db') : Tables.SameCore db db' := by
  simp only [handleAssignStaff, bind_eq_ok, pure_eq_ok] at h
  obtain ⟨_, _, rfl⟩ := h
  refine Tables.SameCore.trans ?_ (logAudit_sameCore ..)
  split
  · exact ⟨rfl, rfl, rfl, rfl, rfl, rfl, rfl, rfl, rfl⟩
  · exact Tables.SameCore.refl db

end Inec
