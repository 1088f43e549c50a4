import Mathlib.Data.List.Dedup
import Mathlib.Data.List.Sort
import Inec.Lib.Sums
import Inec.Request

/-!
# The canonical collation

`canonicalResultsCTE` of domain_inec.go and the totals computed from it. The parent's finalized results
and the scoped finalized results of its rerun, supplementary and by-elections make up one set, in which
a child result replaces the parent's for the same polling unit.

A common table expression is a definition of its own name. `UNION` drops duplicates and `UNION ALL` and
joins keep them, so `scopedPus` is the only one with a `dedup`.
-/

namespace Inec

open Checks

variable (db : Tables) (electionId : Int)

/-- `election_kind IN ('rerun','supplementary','by_election')`. -/
def ElectionKind.isChild : ElectionKind → Bool
  | .rerun => true
  | .supplementary => true
  | .byElection => true
  | .general => false

def childElections : List Election :=
  db.elections.filter fun e =>
    e.parentElectionId == some electionId && e.electionKind.isChild && e.status != .cancelled

def electionChildIDs : List Int := (childElections db electionId).map (·.id)

/-- The elections whose submissions belong to this contest. -/
def electionIDsWithChildren : List Int := electionId :: electionChildIDs db electionId

/-- The join of a scope with the polling units of its area. -/
def scopeCovers (scope : RerunScope) (pu : PollingUnit) : Bool :=
  match scope.scopeType with
  | .pollingUnit => pu.code == scope.areaCode
  | .ward => pu.wardCode == scope.areaCode
  | .lga => db.wards.any fun w => w.lgaCode == scope.areaCode && pu.wardCode == w.code

/-- The polling units of the scopes of one election. -/
def scopeUnits (child : Int) : List String :=
  (db.rerunScopes.filter fun scope => scope.electionId == child).flatMap fun scope =>
    (db.pollingUnits.filter (scopeCovers db scope)).map (·.code)

def scopedPus : List (Int × String) :=
  ((electionChildIDs db electionId).flatMap fun child =>
    (scopeUnits db child).map fun pu => (child, pu)).dedup

/-- `r.status = 'finalized'`. -/
def canonicalResultStatus : ResultStatus := .finalized

def childResults : List (String × Int) :=
  (scopedPus db electionId).flatMap fun sp =>
    (db.results.filter fun r => r.key == sp && r.status == canonicalResultStatus).map fun r => (sp.2, r.id)

def parentResults : List (String × Int) :=
  (db.results.filter fun r => r.electionId == electionId && r.status == canonicalResultStatus &&
    !(childResults db electionId).any fun c => c.1 == r.pollingUnitCode).map fun r => (r.pollingUnitCode, r.id)

/-- The rows of `canonical`: polling unit and result id. -/
def canonical : List (String × Int) := parentResults db electionId ++ childResults db electionId

/-! ### Totals -/

inductive CollationLevel
  | ward | lga | state | national
  deriving DecidableEq, Repr

/-- `collationGeoFilter`, on the joined polling unit, ward and LGA. -/
def collationGeoFilter (level : CollationLevel) (areaCode : String) (pu : PollingUnit) (w : Ward)
    (l : Lga) : Bool :=
  match level with
  | .ward => pu.wardCode == areaCode
  | .lga => w.lgaCode == areaCode
  | .state => l.stateCode == areaCode
  | .national => true

/-- The geography a polling unit code joins with. -/
def geography (code : String) : List (PollingUnit × Ward × Lga) :=
  (db.pollingUnits.filter fun pu => pu.code == code).flatMap fun pu =>
    (db.wards.filter fun w => w.code == pu.wardCode).flatMap fun w =>
      (db.lgas.filter fun l => l.code == w.lgaCode).map fun l => (pu, w, l)

/-- The canonical rows of an area, joined with their geography. -/
def collatedRows (level : CollationLevel) (areaCode : String) : List (String × Int) :=
  (canonical db electionId).flatMap fun c =>
    ((geography db c.1).filter fun g => collationGeoFilter level areaCode g.1 g.2.1 g.2.2).map fun _ => c

/-- The votes a party has in one result. -/
def partyScores (resultId : Int) (party : String) : List Int :=
  (db.resultPartyScores.filter fun s => s.resultId == resultId && s.partyCode == party).map (·.votes)

/-- `SUM(rps.votes)` of one group. -/
def partySum (rows : List (String × Int)) (party : String) : Int :=
  (rows.map fun c => (partyScores db c.2 party).sum).sum

/-- The groups of `GROUP BY rps.party_code`. -/
def partiesOf (rows : List (String × Int)) : List String :=
  ((rows.flatMap fun c =>
    (db.resultPartyScores.filter fun s => s.resultId == c.2).map (·.partyCode)).dedup).insertionSort (· ≤ ·)

/-- `COUNT(DISTINCT c.pu_code)` of one group. -/
def partyUnits (rows : List (String × Int)) (party : String) : Nat :=
  ((rows.filter fun c => !(partyScores db c.2 party).isEmpty).map (·.1)).dedup.length

/-- What `canonicalPartyTotals` returns. The totals are a Go map; the list is in the order of its keys. -/
structure CollationTotals where
  totals : List (String × Int)
  totalVotes : Int
  puCount : Nat
  deriving DecidableEq, Repr

/-- The scan loop overwrites `puCount` with the count of every group, so the last one stays. -/
def canonicalPartyTotals (order : IterationOrder) (level : CollationLevel) (areaCode : String) : CollationTotals :=
  let rows := collatedRows db electionId level areaCode
  let parties := partiesOf db rows
  { totals := parties.map fun p => (p, partySum db rows p)
    totalVotes := (parties.map (partySum db rows)).sum
    puCount := ((order.arrange parties).getLast?.map (partyUnits db rows)).getD 0 }

/-! ### What the sets hold -/

variable {db electionId}

theorem mem_electionChildIDs {child : Int} :
    child ∈ electionChildIDs db electionId ↔
      ∃ e ∈ db.elections, e.id = child ∧ e.parentElectionId = some electionId ∧
        e.electionKind.isChild = true ∧ e.status ≠ .cancelled := by
  simp only [electionChildIDs, childElections, List.mem_map, List.mem_filter, Bool.and_eq_true,
    beq_iff_eq, bne_iff_ne]
  constructor
  · rintro ⟨e, ⟨he, ⟨hparent, hkind⟩, hstatus⟩, hid⟩
    exact ⟨e, he, hid, hparent, hkind, hstatus⟩
  · rintro ⟨e, he, hid, hparent, hkind, hstatus⟩
    exact ⟨e, ⟨he, ⟨hparent, hkind⟩, hstatus⟩, hid⟩

theorem mem_scopedPus {sp : Int × String} :
    sp ∈ scopedPus db electionId ↔
      sp.1 ∈ electionChildIDs db electionId ∧ sp.2 ∈ scopeUnits db sp.1 := by
  simp only [scopedPus, List.mem_dedup, List.mem_flatMap, List.mem_map]
  constructor
  · rintro ⟨child, hchild, pu, hpu, rfl⟩
    exact ⟨hchild, hpu⟩
  · rintro ⟨hchild, hpu⟩
    exact ⟨sp.1, hchild, sp.2, hpu, rfl⟩

/-- The keys of the finalized results. -/
def finalizedKeys (db : Tables) : List (Int × String) :=
  (db.results.filter fun r => r.status == canonicalResultStatus).map ResultRow.key

theorem mem_finalizedKeys {key : Int × String} :
    key ∈ finalizedKeys db ↔ ∃ r ∈ db.results, r.status = .finalized ∧ r.key = key := by
  simp only [finalizedKeys, List.mem_map, List.mem_filter, beq_iff_eq, canonicalResultStatus, and_assoc]

theorem mem_childResults {c : String × Int} :
    c ∈ childResults db electionId ↔
      ∃ r ∈ db.results, r.status = .finalized ∧ r.key ∈ scopedPus db electionId ∧
        c = (r.pollingUnitCode, r.id) := by
  simp only [childResults, List.mem_flatMap, List.mem_map, List.mem_filter, Bool.and_eq_true, beq_iff_eq,
    canonicalResultStatus]
  constructor
  · rintro ⟨sp, hsp, r, ⟨hr, hkey, hstatus⟩, rfl⟩
    exact ⟨r, hr, hstatus, hkey ▸ hsp, by rw [← hkey]; rfl⟩
  · rintro ⟨r, hr, hstatus, hkey, rfl⟩
    exact ⟨r.key, hkey, r, ⟨hr, rfl, hstatus⟩, rfl⟩

theorem mem_parentResults {c : String × Int} :
    c ∈ parentResults db electionId ↔
      ∃ r ∈ db.results, r.status = .finalized ∧ r.electionId = electionId ∧
        r.pollingUnitCode ∉ (childResults db electionId).map (·.1) ∧ c = (r.pollingUnitCode, r.id) := by
  simp only [parentResults, List.mem_map, List.mem_filter, Bool.and_eq_true, beq_iff_eq,
    canonicalResultStatus, Bool.not_eq_true', List.any_eq_false]
  constructor
  · rintro ⟨r, ⟨hr, ⟨helection, hstatus⟩, hchild⟩, rfl⟩
    exact ⟨r, hr, hstatus, helection, fun ⟨c, hc, heq⟩ => hchild c hc heq, rfl⟩
  · rintro ⟨r, hr, hstatus, helection, hchild, rfl⟩
    exact ⟨r, ⟨hr, ⟨helection, hstatus⟩, fun c hc heq => hchild ⟨c, hc, heq⟩⟩, rfl⟩

/-! ### Groups -/

theorem mem_partiesOf {rows : List (String × Int)} {party : String} :
    party ∈ partiesOf db rows ↔ ∃ c ∈ rows, ∃ score ∈ db.resultPartyScores,
      score.resultId = c.2 ∧ score.partyCode = party := by
  rw [partiesOf, List.mem_insertionSort, List.mem_dedup]
  simp only [List.mem_flatMap, List.mem_map, List.mem_filter, beq_iff_eq, and_assoc]

/-- A party without a group has no votes. -/
theorem partySum_eq_zero {rows : List (String × Int)} {party : String} (h : party ∉ partiesOf db rows) :
    partySum db rows party = 0 := by
  rw [partySum]
  apply List.sum_eq_zero
  intro n hn
  obtain ⟨c, hc, rfl⟩ := List.mem_map.mp hn
  have hnone : partyScores db c.2 party = [] := by
    rw [partyScores, List.map_eq_nil_iff, List.filter_eq_nil_iff]
    intro score hscore hboth
    rw [Bool.and_eq_true, beq_iff_eq, beq_iff_eq] at hboth
    exact h (mem_partiesOf.mpr ⟨c, hc, score, hscore, hboth⟩)
  rw [hnone]
  rfl

end Inec
