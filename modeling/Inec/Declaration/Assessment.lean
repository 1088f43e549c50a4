import Inec.Lib.ExchangeSort
import Inec.Collation.Canonical

/-!
# The declaration rules engine

`assessDeclaration` of election_lifecycle.go: the completeness gate, the ranking of the parties, the
margin-of-lead rule and the constitutional spread. Every query and every rule is a definition of its
own, and `assessment` puts their answers together in the order the source does.
-/

namespace Inec

open Checks

/-! ### The ranking -/

/-- The ranking loop, on the votes. -/
def rankParties (ranked : List (String × Int)) : List (String × Int) :=
  ExchangeSort.sort (fun pv => pv.2) ranked

/-- Winner and runner-up, with the zero values of Go where there is none. -/
structure Leaders where
  winnerParty : String
  winnerVotes : Int
  runnerUpParty : String
  runnerUpVotes : Int
  margin : Int
  tie : Bool
  deriving DecidableEq, Repr

def leaders : List (String × Int) → Leaders
  | [] => ⟨"", 0, "", 0, 0, false⟩
  | [winner] => ⟨winner.1, winner.2, "", 0, 0, false⟩
  | winner :: runnerUp :: _ =>
      ⟨winner.1, winner.2, runnerUp.1, runnerUp.2, winner.2 - runnerUp.2, winner.2 - runnerUp.2 == 0⟩

/-! ### The queries -/

section Queries

variable (db : Tables)

/-- `status, COUNT(DISTINCT polling_unit_code) ... GROUP BY status`, for one status. -/
def statusUnits (ids : List Int) (status : ResultStatus) : List String :=
  ((db.results.filter fun r => ids.contains r.electionId && r.status == status).map
    (·.pollingUnitCode)).dedup

/-- Disputes that are neither resolved nor dismissed. -/
def openDisputes (ids : List Int) : Nat :=
  (db.disputes.filter fun d => ids.contains d.electionId && d.status.unresolved).length

/-- The results of cancelled or disputed polling units. -/
def affectedRows (ids : List Int) : List ResultRow :=
  db.results.filter fun r => ids.contains r.electionId && (r.status == .voided || r.status == .disputed)

/-- `registered_voters` of the polling units a code joins with. -/
def registeredVotersAt (code : String) : Nat :=
  ((db.pollingUnits.filter fun pu => pu.code == code).map (·.registeredVoters)).sum

def affectedVoters (ids : List Int) : Nat :=
  ((affectedRows db ids).map fun r => registeredVotersAt db r.pollingUnitCode).sum

/-- The canonical rows of the election with the state each is in. -/
def stateRows (electionId : Int) : List (String × Int) :=
  (canonical db electionId).flatMap fun c => (geography db c.1).map fun g => (g.2.2.stateCode, c.2)

/-- The votes of one state, of all parties or of one. -/
def stateSum (rows : List (String × Int)) (state : String) (counts : String → Bool) : Int :=
  ((rows.filter fun row => row.1 == state).map fun row =>
    ((db.resultPartyScores.filter fun s => s.resultId == row.2 && counts s.partyCode).map (·.votes)).sum).sum

/-- The states in which the winner has a quarter of the votes. -/
def qualifiedStates (electionId : Int) (winnerParty : String) : List String :=
  let rows := stateRows db electionId
  (rows.map (·.1)).dedup.filter fun state =>
    0 < stateSum db rows state (fun _ => true) &&
      stateSum db rows state (fun _ => true) ≤ stateSum db rows state (· == winnerParty) * 4

end Queries

/-! ### The assessment -/

/-- The answers of the constitutional spread rule. -/
structure Spread where
  met : Bool
  states : Nat
  threshold : Nat
  deriving DecidableEq, Repr

/-- A presidential winner needs a quarter of the votes in two thirds of the states and the FCT. -/
def assessSpread (db : Tables) (election : Election) (winnerParty : String) : Spread :=
  if election.electionType = .presidential ∧ winnerParty ≠ "" then
    let threshold := (2 * db.states.length + 2) / 3
    let qualified := qualifiedStates db election.id winnerParty
    { met := threshold ≤ qualified.length && (qualified.contains "FCT" || threshold < qualified.length)
      states := qualified.length
      threshold := threshold }
  else ⟨true, 0, 0⟩

def spreadApplies (election : Election) (winnerParty : String) : Bool :=
  election.electionType == .presidential && winnerParty != ""

/-- The margin-of-lead rule: it is skipped when fewer than two parties have a total. -/
def marginTooSmall (ranked : List (String × Int)) (affected : Nat) : Bool :=
  1 < ranked.length && (leaders ranked).margin < affected

/-- The reason given last overwrites the earlier ones. -/
def inconclusiveWhy (ranked : List (String × Int)) (affected : Nat) (applies : Bool) (spread : Spread) : String :=
  if applies && !spread.met then
    "constitutional spread not met: winner reached 25% in " ++ toString spread.states ++
      " states (need >=" ++ toString spread.threshold ++ " incl. FCT) — runoff required"
  else if (leaders ranked).tie then "tie between leading candidates — runoff required"
  else if marginTooSmall ranked affected then
    "margin of lead (" ++ toString (leaders ranked).margin ++
      ") is smaller than registered voters in cancelled/disputed PUs (" ++ toString affected ++
      ") — supplementary election required"
  else ""

/-- The parties in the order the map of totals is ranged over, ranked. -/
def rankedTotals (order : IterationOrder) (db : Tables) (electionId : Int) : List (String × Int) :=
  let rows := collatedRows db electionId .national "NG"
  rankParties ((order.arrange (partiesOf db rows)).map fun p => (p, partySum db rows p))

def assessment (order : IterationOrder) (db : Tables) (election : Election) : DeclarationAssessment :=
  let ids := electionIDsWithChildren db election.id
  let finalized := (statusUnits db ids .finalized).length
  let disputed := (statusUnits db ids .disputed).length
  let voided := (statusUnits db ids .voided).length
  let totalPUs := db.pollingUnits.length
  let accounted := min (finalized + disputed + voided) totalPUs
  let ranked := rankedTotals order db election.id
  let lead := leaders ranked
  let affected := affectedVoters db ids
  let applies := spreadApplies election lead.winnerParty
  let spread := assessSpread db election lead.winnerParty
  { complete := totalPUs - accounted == 0
    totalPUs := totalPUs
    finalizedPUs := finalized
    disputedPUs := disputed
    voidedPUs := voided
    missingPUs := totalPUs - accounted
    openDisputes := openDisputes db ids
    partyTotals := (canonicalPartyTotals db election.id order .national "NG").totals
    winnerParty := lead.winnerParty
    winnerVotes := lead.winnerVotes
    runnerUpParty := lead.runnerUpParty
    runnerUpVotes := lead.runnerUpVotes
    margin := lead.margin
    tie := lead.tie
    affectedVoters := affected
    inconclusive := marginTooSmall ranked affected || lead.tie || (applies && !spread.met)
    inconclusiveWhy := inconclusiveWhy ranked affected applies spread
    spreadRequired := election.electionType == .presidential
    spreadMet := spread.met
    spreadStates := spread.states
    spreadThreshold := spread.threshold }

def assessDeclaration (order : IterationOrder) (db : Tables) (electionId : Int) :
    Except String DeclarationAssessment := do
  let election ← fetch (db.election? electionId) "election not found"
  return assessment order db election

theorem assessDeclaration_eq_ok {order : IterationOrder} {db : Tables} {electionId : Int}
    {a : DeclarationAssessment} :
    assessDeclaration order db electionId = .ok a ↔
      ∃ e, db.election? electionId = some e ∧ assessment order db e = a := by
  simp only [assessDeclaration, bind_eq_ok, fetch_eq_ok, pure_eq_ok]

end Inec
