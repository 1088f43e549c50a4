import Mathlib.Data.List.Basic

/-!
# The tables

The part of the PostgreSQL schema that elections, results, disputes and evidence live in, as the
migrations leave it. A table is the list of its rows in insertion order. Timestamps are Unix seconds,
keys are integers, and a column that may be NULL is an `Option`.

Columns no modelled function reads are left out: the display names, the coordinates, and the
TigerBeetle, Hyperledger and IPFS columns of `results`.
-/

namespace Inec

/-! ### Vocabularies -/

/-- `elections_status_check`. `upcoming` and `completed` are legacy values that no transition of the
lifecycle names. -/
inductive ElectionState
  | draft | scheduled | upcoming | active | voting | collating | closed | completed
  | cancelled | disputed | suspended | postponed | declared
  deriving DecidableEq, Repr

def ElectionState.text : ElectionState → String
  | .draft => "draft"
  | .scheduled => "scheduled"
  | .upcoming => "upcoming"
  | .active => "active"
  | .voting => "voting"
  | .collating => "collating"
  | .closed => "closed"
  | .completed => "completed"
  | .cancelled => "cancelled"
  | .disputed => "disputed"
  | .suspended => "suspended"
  | .postponed => "postponed"
  | .declared => "declared"

/-- `elections_election_type_check`. -/
inductive ElectionType
  | presidential | gubernatorial | senatorial | houseOfReps | stateAssembly | localGovernment
  | partyPrimary | convention | wardCongress | stateCongress | nationalConvention
  | specialElection | byElection | referendum
  deriving DecidableEq, Repr

/-- `elections_kind_check`. -/
inductive ElectionKind
  | general | rerun | supplementary | byElection
  deriving DecidableEq, Repr

def ElectionKind.text : ElectionKind → String
  | .general => "general"
  | .rerun => "rerun"
  | .supplementary => "supplementary"
  | .byElection => "by_election"

/-- `results_status_check`. -/
inductive ResultStatus
  | pending | validated | finalized | disputed | voided | superseded
  deriving DecidableEq, Repr

def ResultStatus.text : ResultStatus → String
  | .pending => "pending"
  | .validated => "validated"
  | .finalized => "finalized"
  | .disputed => "disputed"
  | .voided => "voided"
  | .superseded => "superseded"

/-- The rows the partial index `results_canonical_pu_unique` covers: superseded and voided rows are
history. -/
def ResultStatus.live (s : ResultStatus) : Bool := s != .superseded && s != .voided

inductive ScopeType
  | pollingUnit | ward | lga
  deriving DecidableEq, Repr

def ScopeType.text : ScopeType → String
  | .pollingUnit => "polling_unit"
  | .ward => "ward"
  | .lga => "lga"

inductive DisputeStatus
  | filed | underReview | escalated | resolved | dismissed
  deriving DecidableEq, Repr

/-- `status NOT IN ('resolved','dismissed')`. -/
def DisputeStatus.unresolved (s : DisputeStatus) : Bool := s != .resolved && s != .dismissed

inductive DisputeOutcome
  | upheld | dismissed | correctionOrdered | resultAnnulled | rerunOrdered
  deriving DecidableEq, Repr

/-- The events of the lifecycle table, and any other name a request may carry. -/
inductive ElectionEvent
  | schedule | activate | openVoting | closeVoting | finalize | cancel | dispute | resolveDispute
  | postpone | reschedule | suspend | resumeActive | resumeVoting | resumeCollating | declare
  | unknown (name : String)
  deriving DecidableEq, Repr

def ElectionEvent.text : ElectionEvent → String
  | .schedule => "schedule"
  | .activate => "activate"
  | .openVoting => "open_voting"
  | .closeVoting => "close_voting"
  | .finalize => "finalize"
  | .cancel => "cancel"
  | .dispute => "dispute"
  | .resolveDispute => "resolve_dispute"
  | .postpone => "postpone"
  | .reschedule => "reschedule"
  | .suspend => "suspend"
  | .resumeActive => "resume_active"
  | .resumeVoting => "resume_voting"
  | .resumeCollating => "resume_collating"
  | .declare => "declare"
  | .unknown name => name

inductive PolicyStatus
  | draft | approved | superseded
  deriving DecidableEq, Repr

inductive CaseStatus
  | open | underReview | resolved | dismissed
  deriving DecidableEq, Repr

/-! ### Rows -/

/-- The output of the declaration rules engine, `declarationAssessment`. -/
structure DeclarationAssessment where
  complete : Bool
  totalPUs : Nat
  finalizedPUs : Nat
  disputedPUs : Nat
  voidedPUs : Nat
  missingPUs : Nat
  openDisputes : Nat
  partyTotals : List (String × Int)
  winnerParty : String
  winnerVotes : Int
  runnerUpParty : String
  runnerUpVotes : Int
  margin : Int
  tie : Bool
  affectedVoters : Nat
  inconclusive : Bool
  inconclusiveWhy : String
  spreadRequired : Bool
  spreadMet : Bool
  spreadStates : Nat
  spreadThreshold : Nat
  deriving DecidableEq, Repr

/-- `elections.winner_payload`, the JSON record of a declaration. The winner fields are only written
when a winner is declared. -/
structure WinnerPayload where
  outcome : String
  winnerParty : Option String
  winnerVotes : Option Int
  runnerUpParty : Option String
  runnerUpVotes : Option Int
  partyTotals : List (String × Int)
  margin : Int
  assessment : DeclarationAssessment
  declaredBy : String
  declaredAt : Int
  electionId : Int
  notes : String
  deriving DecidableEq, Repr

structure Election where
  id : Int
  title : String
  electionType : ElectionType
  electionDate : String
  status : ElectionState
  electionKind : ElectionKind
  parentElectionId : Option Int
  declaredAt : Option Int
  declaredBy : Option String
  winnerPayload : Option WinnerPayload
  declarationNotes : Option String
  updatedAt : Int
  deriving DecidableEq, Repr

/-- A general election with the columns the rules read, the others at their defaults. -/
def Election.bare (id : Int) (electionType : ElectionType) (status : ElectionState) : Election where
  id := id
  title := ""
  electionType := electionType
  electionDate := ""
  status := status
  electionKind := .general
  parentElectionId := none
  declaredAt := none
  declaredBy := none
  winnerPayload := none
  declarationNotes := none
  updatedAt := 0

structure StateLogRow where
  electionId : Int
  fromState : ElectionState
  toState : ElectionState
  event : ElectionEvent
  actor : String
  createdAt : Int
  deriving DecidableEq, Repr

structure RerunScope where
  electionId : Int
  scopeType : ScopeType
  areaCode : String
  reason : String
  createdBy : String
  deriving DecidableEq, Repr

/-- The registered voters of a unit are a count: only the seed loaders write the column. -/
structure PollingUnit where
  code : String
  wardCode : String
  registeredVoters : Nat
  deriving DecidableEq, Repr

structure Ward where
  code : String
  lgaCode : String
  deriving DecidableEq, Repr

structure Lga where
  code : String
  stateCode : String
  deriving DecidableEq, Repr

structure ResultRow where
  id : Int
  electionId : Int
  pollingUnitCode : String
  presidingOfficerId : Option Int
  status : ResultStatus
  totalValidVotes : Int
  rejectedVotes : Int
  totalVotesCast : Int
  accreditedVoters : Int
  ec8aHash : String
  supersedesResultId : Option Int
  correctionReason : Option String
  idempotencyKey : Option String
  validatedAt : Option Int
  finalizedAt : Option Int
  deriving DecidableEq, Repr

/-- A result with the columns the collation reads, the others at their defaults. -/
def ResultRow.bare (id electionId : Int) (pollingUnitCode : String) (status : ResultStatus) : ResultRow where
  id := id
  electionId := electionId
  pollingUnitCode := pollingUnitCode
  presidingOfficerId := none
  status := status
  totalValidVotes := 0
  rejectedVotes := 0
  totalVotesCast := 0
  accreditedVoters := 0
  ec8aHash := ""
  supersedesResultId := none
  correctionReason := none
  idempotencyKey := none
  validatedAt := none
  finalizedAt := none

/-- The columns of `results_canonical_pu_unique`. -/
def ResultRow.key (r : ResultRow) : Int × String := (r.electionId, r.pollingUnitCode)

structure PartyScore where
  resultId : Int
  partyCode : String
  votes : Int
  deriving DecidableEq, Repr

structure ResultCorrection where
  electionId : Int
  pollingUnitCode : String
  supersededResultId : Int
  newResultId : Int
  reason : String
  disputeId : Option Int
  correctedBy : String
  deriving DecidableEq, Repr

structure Dispute where
  id : Int
  electionId : Int
  pollingUnitCode : String
  resultId : Option Int
  filedBy : String
  category : String
  priority : String
  status : DisputeStatus
  assignedTo : String
  resolution : String
  outcome : Option DisputeOutcome
  resolvedBy : String
  deriving DecidableEq, Repr

/-- `result_evidence_events`. -/
structure EvidenceEvent where
  resultId : Int
  sequenceNo : Int
  eventType : String
  priorEventHash : Option String
  eventHash : String
  payloadSha256 : String
  signature : Option String
  signerKeyId : Option String
  signerStatus : String
  artifactId : Option Int
  policyVersionId : Option Int
  visibility : String
  publicPayload : String
  privatePayload : String
  createdBy : Option Int
  deriving DecidableEq, Repr

structure PolicyVersion where
  id : Int
  electionId : Int
  version : String
  status : PolicyStatus
  legalBasis : String
  approvedBy : Option Int
  approvedAt : Option Int
  effectiveFrom : Int
  effectiveUntil : Option Int
  deriving DecidableEq, Repr

structure ReconciliationCase where
  id : Int
  resultId : Int
  electionId : Int
  status : CaseStatus
  blocking : Bool
  deriving DecidableEq, Repr

/-- `election_staff_assignments`, which the view `staff_assignments` shows. -/
structure StaffAssignment where
  electionId : Int
  userId : Int
  areaType : String
  areaCode : String
  status : String
  deriving DecidableEq, Repr

structure BvasAccreditation where
  electionId : Int
  pollingUnitCode : String
  deriving DecidableEq, Repr

/-- The columns of `audit_log` that the result handlers read back. -/
structure AuditRow where
  action : String
  entityType : String
  entityId : String
  userId : Int
  createdAt : Int
  deriving DecidableEq, Repr

/-! ### The database -/

structure Tables where
  states : List String
  lgas : List Lga
  wards : List Ward
  pollingUnits : List PollingUnit
  elections : List Election
  electionStateLog : List StateLogRow
  rerunScopes : List RerunScope
  results : List ResultRow
  resultPartyScores : List PartyScore
  resultCorrections : List ResultCorrection
  disputes : List Dispute
  evidenceEvents : List EvidenceEvent
  policyVersions : List PolicyVersion
  reconciliationCases : List ReconciliationCase
  staffAssignments : List StaffAssignment
  bvasAccreditations : List BvasAccreditation
  auditLog : List AuditRow
  deriving DecidableEq, Repr

namespace Tables

/-- A migrated database without rows. -/
def empty : Tables := ⟨[], [], [], [], [], [], [], [], [], [], [], [], [], [], [], [], []⟩

variable (db : Tables)

/-- `SELECT ... FROM elections WHERE id = $1`. -/
def election? (id : Int) : Option Election := db.elections.find? fun e => e.id == id

/-- `SELECT ... FROM results WHERE id = $1`. -/
def result? (id : Int) : Option ResultRow := db.results.find? fun r => r.id == id

def dispute? (id : Int) : Option Dispute := db.disputes.find? fun d => d.id == id

def pollingUnit? (code : String) : Option PollingUnit := db.pollingUnits.find? fun p => p.code == code

end Tables

/-- The next value of a SERIAL column. No modelled request deletes a row, so one past the largest key
is a key no row has. -/
def nextSerial (ids : List Int) : Int := ids.foldr max 0 + 1

theorem le_foldr_max {ids : List Int} {id : Int} (h : id ∈ ids) : id ≤ ids.foldr max 0 := by
  induction ids with
  | nil => simp at h
  | cons a rest ih =>
      rw [List.foldr_cons]
      rcases List.mem_cons.mp h with rfl | h
      · omega
      · have := ih h
        omega

theorem nextSerial_notMem (ids : List Int) : nextSerial ids ∉ ids := by
  intro h
  have hle := le_foldr_max h
  unfold nextSerial at hle
  omega

end Inec
