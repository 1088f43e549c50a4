import Inec.Collation.Additive
import Inec.Lib.Distinct
import Inec.Lib.Runs

/-!
# The collation level by level

`handleCollation` of handlers.go lists the states, the LGAs of a state, the wards of an LGA or the polling units of a
ward, each with its numbers and the votes of the parties. It does not read the canonical rows: a listed area counts the
finalized results of the election itself. So the lists add up level by level, and where a rerun has results the votes
listed differ from those of the collation by what the rerun adds and what it replaces.

Names and zones are left out, and lists are in the order of the tables.
-/

namespace Inec.Drilldown

open Checks

/-! ### The lists -/

inductive AreaLevel
  | state | lga | ward
  deriving DecidableEq, Repr

section Lists

variable (db : Tables) (electionId : Int)

def wardUnits (code : String) : List PollingUnit := db.pollingUnits.filter fun pu => pu.wardCode == code

/-- The areas of a level inside their parent; the states have none. -/
def areas : AreaLevel → String → List String
  | .state, _ => db.states
  | .lga, parentCode => (db.lgas.filter fun l => l.stateCode == parentCode).map (·.code)
  | .ward, parentCode => (db.wards.filter fun w => w.lgaCode == parentCode).map (·.code)

/-- The polling units that an area joins with. -/
def units : AreaLevel → String → List PollingUnit
  | .ward, code => wardUnits db code
  | .lga, code => (areas db .ward code).flatMap (wardUnits db)
  | .state, code => (areas db .lga code).flatMap fun l => (areas db .ward l).flatMap (wardUnits db)

/-- `r.election_id = ? AND r.status = 'finalized'`. -/
def ownFinalized : List ResultRow :=
  db.results.filter fun r => r.electionId == electionId && r.status == .finalized

def unitResults (pu : PollingUnit) : List ResultRow :=
  (ownFinalized db electionId).filter fun r => pu.code == r.pollingUnitCode

/-- `SUM`, which is NULL over no rows. -/
def sumOf (rows : List ResultRow) (column : ResultRow → Int) : Option Int :=
  if rows.isEmpty then none else some (rows.map column).sum

/-- A row of the first query of the levels above the polling units. -/
structure AreaRow where
  code : String
  totalPus : Nat
  reportedPus : Nat
  totalValidVotes : Option Int
  rejectedVotes : Option Int
  totalVotesCast : Option Int
  deriving DecidableEq, Repr

def areaRow (level : AreaLevel) (code : String) : AreaRow :=
  let joined := units db level code
  let results := joined.flatMap (unitResults db electionId)
  { code := code
    totalPus := (joined.map (·.code)).dedup.length
    reportedPus := (results.map (·.id)).dedup.length
    totalValidVotes := sumOf results (·.totalValidVotes)
    rejectedVotes := sumOf results (·.rejectedVotes)
    totalVotesCast := sumOf results (·.totalVotesCast) }

/-- The join of `collationPartyScoresBatch`, from the results to the areas. -/
def batchRows (level : AreaLevel) (code : String) : List (String × Int) :=
  (ownFinalized db electionId).flatMap fun r =>
    ((units db level code).filter fun pu => pu.code == r.pollingUnitCode).map fun _ => (r.pollingUnitCode, r.id)

/-- `ORDER BY total_votes DESC`. -/
def byVotes (scores : List (String × Int)) : List (String × Int) := scores.insertionSort fun a b => b.2 ≤ a.2

/-- The groups of one area, as the query returns them. -/
def collationPartyScoresBatch (order : IterationOrder) (level : AreaLevel) (code : String) : List (String × Int) :=
  let rows := batchRows db electionId level code
  byVotes ((order.arrange (partiesOf db rows)).map fun party => (party, partySum db rows party))

/-- A polling unit with one of its results of the election, whatever the status. -/
structure UnitRow where
  code : String
  registeredVoters : Nat
  result : Option ResultRow
  deriving DecidableEq, Repr

def unitRows (wardCode : String) : List UnitRow :=
  (wardUnits db wardCode).flatMap fun pu =>
    match db.results.filter fun r => r.electionId == electionId && r.pollingUnitCode == pu.code with
    | [] => [⟨pu.code, pu.registeredVoters, none⟩]
    | results => results.map fun r => ⟨pu.code, pu.registeredVoters, some r⟩

/-- The scores of one result. -/
def resultScores (resultId : Int) : List (String × Int) :=
  byVotes ((db.resultPartyScores.filter fun s => s.resultId == resultId).map fun s => (s.partyCode, s.votes))

end Lists

/-- The votes of a party in a list of scores. -/
def votesIn (scores : List (String × Int)) (party : String) : Int :=
  ((scores.filter fun s => s.1 == party).map (·.2)).sum

/-! ### Joins and sums -/

variable {db : Tables} {electionId : Int}

theorem sum_flatMap {α : Type} (l : List α) (f : α → List Int) :
    (l.flatMap f).sum = (l.map fun a => (f a).sum).sum := by
  rw [List.flatMap_def, List.sum_flatten, List.map_map]
  rfl

/-- A join may be summed from either side. -/
theorem sum_join {α β : Type} (related : α → β → Bool) (weight : α → Int) (left : List α) (right : List β) :
    (left.map fun a => ((right.filter (related a)).map fun _ => weight a).sum).sum =
      (right.map fun b => ((left.filter (related · b)).map weight).sum).sum := by
  induction left with
  | nil => simp
  | cons a rest ih =>
      have hsplit : ∀ b, (((a :: rest).filter (related · b)).map weight).sum =
          (if related a b then weight a else 0) + ((rest.filter (related · b)).map weight).sum := by
        intro b
        rw [List.filter_cons]
        split <;> simp
      rw [List.map_cons, List.sum_cons, ih, List.map_congr_left fun b _ => hsplit b, List.sum_map_add,
        Sums.sum_map_filter (related a) (fun _ => weight a) right]

theorem votesIn_perm {scores scores' : List (String × Int)} (h : scores.Perm scores') (party : String) :
    votesIn scores party = votesIn scores' party := ((h.filter _).map _).sum_eq

/-- The groups of the parties, in whatever order, hold what the rows do. -/
theorem votesIn_batch (order : IterationOrder) (level : AreaLevel) (code party : String) :
    votesIn (collationPartyScoresBatch db electionId order level code) party =
      partySum db (batchRows db electionId level code) party := by
  have hperm : (collationPartyScoresBatch db electionId order level code).Perm
      ((partiesOf db (batchRows db electionId level code)).map fun p =>
        (p, partySum db (batchRows db electionId level code) p)) :=
    (List.perm_insertionSort _ _).trans ((order.perm _).map _)
  have hnodup : ((partiesOf db (batchRows db electionId level code)).map id).Nodup := by
    rw [List.map_id]
    exact (List.perm_insertionSort _ _).nodup_iff.mpr (List.nodup_dedup _)
  rw [votesIn_perm hperm, votesIn, List.filter_map, List.map_map]
  by_cases hmem : party ∈ partiesOf db (batchRows db electionId level code)
  · have hone := Rows.filter_key_of_mem hnodup hmem
    simp only [id] at hone
    show (List.map _ (List.filter (fun p => p == party) _)).sum = _
    rw [hone]
    simp
  · have hnone : (partiesOf db (batchRows db electionId level code)).filter (fun p => p == party) = [] := by
      rw [List.filter_eq_nil_iff]
      intro p hp heq
      exact hmem (beq_iff_eq.mp heq ▸ hp)
    show (List.map _ (List.filter (fun p => p == party) _)).sum = _
    rw [hnone, partySum_eq_zero hmem]
    rfl

/-- The votes of a party in one result. -/
def resultVotes (db : Tables) (party : String) (r : ResultRow) : Int := (partyScores db r.id party).sum

/-- The votes of an area, unit by unit. -/
theorem partySum_batchRows (level : AreaLevel) (code party : String) :
    partySum db (batchRows db electionId level code) party =
      ((units db level code).map fun pu => ((unitResults db electionId pu).map (resultVotes db party)).sum).sum := by
  rw [partySum, batchRows, List.map_flatMap, sum_flatMap]
  simp only [List.map_map]
  exact sum_join (fun (r : ResultRow) (pu : PollingUnit) => pu.code == r.pollingUnitCode) (resultVotes db party)
    (ownFinalized db electionId) (units db level code)

/-! ### Each unit once -/

theorem nodup_wardUnits (h : db.GeographyIntact) (code : String) : ((wardUnits db code).map (·.code)).Nodup :=
  h.pollingUnitCodes.sublist ((List.filter_sublist).map _)

theorem nodup_areas (h : db.GeographyIntact) (level : AreaLevel) (parentCode : String) :
    (areas db level parentCode).Nodup := by
  cases level with
  | state => exact h.stateCodes
  | lga => exact h.lgaCodes.sublist ((List.filter_sublist).map _)
  | ward => exact h.wardCodes.sublist ((List.filter_sublist).map _)

theorem mem_wardUnits {pu : PollingUnit} {code : String} :
    pu ∈ wardUnits db code ↔ pu ∈ db.pollingUnits ∧ pu.wardCode = code := by
  rw [wardUnits, List.mem_filter, beq_iff_eq]

/-- Units of one code are the same unit. -/
theorem unit_eq_of_code (h : db.GeographyIntact) {pu pu' : PollingUnit} (hpu : pu ∈ db.pollingUnits)
    (hpu' : pu' ∈ db.pollingUnits) (heq : pu.code = pu'.code) : pu = pu' :=
  Rows.eq_of_key_eq h.pollingUnitCodes hpu hpu' heq

/-- Lists of units without a common unit, one after the other. -/
theorem nodup_flatMap_units (h : db.GeographyIntact) {parts : List String} {inside : String → List PollingUnit}
    (hparts : parts.Nodup) (hmem : ∀ part, ∀ pu ∈ inside part, pu ∈ db.pollingUnits)
    (hone : ∀ part part' pu, pu ∈ inside part → pu ∈ inside part' → part = part')
    (hinside : ∀ part, ((inside part).map (·.code)).Nodup) : ((parts.flatMap inside).map (·.code)).Nodup := by
  rw [List.map_flatMap, List.nodup_flatMap]
  refine ⟨fun part _ => hinside part, hparts.imp ?_⟩
  intro part part' hne
  rw [Function.onFun_apply, List.disjoint_left]
  intro code hcode hcode'
  obtain ⟨pu, hpu, rfl⟩ := List.mem_map.mp hcode
  obtain ⟨pu', hpu', heq⟩ := List.mem_map.mp hcode'
  have hsame := unit_eq_of_code h (hmem _ _ hpu') (hmem _ _ hpu) heq
  exact hne (hone part part' pu hpu (hsame ▸ hpu'))

theorem mem_lgaUnits {pu : PollingUnit} {code : String} :
    pu ∈ (areas db .ward code).flatMap (wardUnits db) ↔
      pu ∈ db.pollingUnits ∧ ∃ w ∈ db.wards, w.code = pu.wardCode ∧ w.lgaCode = code := by
  simp only [List.mem_flatMap, areas, List.mem_map, List.mem_filter, beq_iff_eq, mem_wardUnits]
  constructor
  · rintro ⟨_, ⟨w, ⟨hw, hlga⟩, rfl⟩, hpu, hward⟩
    exact ⟨hpu, w, hw, hward.symm, hlga⟩
  · rintro ⟨hpu, w, hw, hward, hlga⟩
    exact ⟨w.code, ⟨w, ⟨hw, hlga⟩, rfl⟩, hpu, hward.symm⟩

theorem nodup_units (h : db.GeographyIntact) (level : AreaLevel) (code : String) :
    ((units db level code).map (·.code)).Nodup := by
  have hlgas : ∀ code, (((areas db .ward code).flatMap (wardUnits db)).map (·.code)).Nodup := by
    intro code
    refine nodup_flatMap_units h (nodup_areas h .ward code) (fun _ _ hpu => (mem_wardUnits.mp hpu).1) ?_
      (nodup_wardUnits h)
    intro part part' pu hpu hpu'
    exact (mem_wardUnits.mp hpu).2.symm.trans (mem_wardUnits.mp hpu').2
  cases level with
  | ward => exact nodup_wardUnits h code
  | lga => exact hlgas code
  | state =>
      refine nodup_flatMap_units h (nodup_areas h .lga code) (fun _ _ hpu => (mem_lgaUnits.mp hpu).1) ?_ hlgas
      intro part part' pu hpu hpu'
      obtain ⟨-, w, hw, hcode, rfl⟩ := mem_lgaUnits.mp hpu
      obtain ⟨-, w', hw', hcode', rfl⟩ := mem_lgaUnits.mp hpu'
      rw [Rows.eq_of_key_eq h.wardCodes hw hw' (hcode.trans hcode'.symm)]

/-- A result is one of one unit. -/
theorem nodup_flatMap_results (hids : (db.results.map (·.id)).Nodup) {joined : List PollingUnit}
    (hcodes : (joined.map (·.code)).Nodup) :
    ((joined.flatMap (unitResults db electionId)).map (·.id)).Nodup := by
  have hown : ((ownFinalized db electionId).map (·.id)).Nodup := hids.sublist ((List.filter_sublist).map _)
  rw [List.map_flatMap, List.nodup_flatMap]
  refine ⟨fun pu _ => hown.sublist ((List.filter_sublist).map _), (List.pairwise_map.mp hcodes).imp ?_⟩
  intro pu pu' hne
  rw [Function.onFun_apply, List.disjoint_left]
  intro id hid hid'
  obtain ⟨r, hr, rfl⟩ := List.mem_map.mp hid
  obtain ⟨r', hr', heq⟩ := List.mem_map.mp hid'
  rw [unitResults, List.mem_filter, beq_iff_eq] at hr hr'
  have hsame := Rows.eq_of_key_eq hown hr'.1 hr.1 heq
  exact hne (hr.2.trans (hsame ▸ hr'.2.symm))

/-! ### Level by level -/

/-- An entry of a list above the polling units. -/
structure Area where
  row : AreaRow
  partyScores : List (String × Int)

/-- An area as both queries give it at one moment. -/
def listed (db : Tables) (electionId : Int) (order : IterationOrder) (level : AreaLevel) (code : String) : Area :=
  ⟨areaRow db electionId level code, collationPartyScoresBatch db electionId order level code⟩

/-- The numbers of an area are the sums of those of its parts, NULL counting nothing. -/
structure Area.SumOf (whole : Area) (parts : List Area) : Prop where
  totalPus : whole.row.totalPus = (parts.map (·.row.totalPus)).sum
  reportedPus : whole.row.reportedPus = (parts.map (·.row.reportedPus)).sum
  totalValidVotes : whole.row.totalValidVotes.getD 0 = (parts.map (·.row.totalValidVotes.getD 0)).sum
  rejectedVotes : whole.row.rejectedVotes.getD 0 = (parts.map (·.row.rejectedVotes.getD 0)).sum
  totalVotesCast : whole.row.totalVotesCast.getD 0 = (parts.map (·.row.totalVotesCast.getD 0)).sum
  votes : ∀ party, votesIn whole.partyScores party = (parts.map fun part => votesIn part.partyScores party).sum

/-- The finalized results among the rows of a ward. -/
def finals (rows : List UnitRow) : List ResultRow :=
  rows.filterMap fun row => row.result.filter fun r => r.status == .finalized

/-- The numbers of a ward are those of its units and of their finalized results. -/
structure Area.SumOfUnits (db : Tables) (ward : Area) (rows : List UnitRow) : Prop where
  totalPus : ward.row.totalPus = (rows.map (·.code)).dedup.length
  reportedPus : ward.row.reportedPus = (finals rows).length
  totalValidVotes : ward.row.totalValidVotes = sumOf (finals rows) (·.totalValidVotes)
  rejectedVotes : ward.row.rejectedVotes = sumOf (finals rows) (·.rejectedVotes)
  totalVotesCast : ward.row.totalVotesCast = sumOf (finals rows) (·.totalVotesCast)
  votes : ∀ party,
    votesIn ward.partyScores party = ((finals rows).map fun r => votesIn (resultScores db r.id) party).sum

structure AddsUp (db : Tables) (electionId : Int) (order : AreaLevel → String → IterationOrder) : Prop where
  state : ∀ s, (listed db electionId (order .state s) .state s).SumOf
    ((areas db .lga s).map fun l => listed db electionId (order .lga l) .lga l)
  lga : ∀ l, (listed db electionId (order .lga l) .lga l).SumOf
    ((areas db .ward l).map fun w => listed db electionId (order .ward w) .ward w)
  ward : ∀ w, (listed db electionId (order .ward w) .ward w).SumOfUnits db (unitRows db electionId w)

theorem getD_sumOf (rows : List ResultRow) (column : ResultRow → Int) :
    (sumOf rows column).getD 0 = (rows.map column).sum := by
  cases rows <;> rfl

section Split

variable (h : db.GeographyIntact) (hids : (db.results.map (·.id)).Nodup)

include h in
theorem totalPus_areaRow (level : AreaLevel) (code : String) :
    (areaRow db electionId level code).totalPus = (units db level code).length := by
  rw [areaRow, (nodup_units h level code).dedup, List.length_map]

include h hids in
theorem reportedPus_areaRow (level : AreaLevel) (code : String) :
    (areaRow db electionId level code).reportedPus =
      ((units db level code).flatMap (unitResults db electionId)).length := by
  rw [areaRow, (nodup_flatMap_results hids (nodup_units h level code)).dedup, List.length_map]

include h hids in
/-- An area whose units are those of its parts. -/
theorem sumOf_of_split {level partLevel : AreaLevel} {code : String} (order : AreaLevel → String → IterationOrder)
    (hsplit : units db level code = (areas db partLevel code).flatMap (units db partLevel)) :
    (listed db electionId (order level code) level code).SumOf
      ((areas db partLevel code).map fun part => listed db electionId (order partLevel part) partLevel part) := by
  have hresults : (units db level code).flatMap (unitResults db electionId) =
      (areas db partLevel code).flatMap fun part => (units db partLevel part).flatMap (unitResults db electionId) := by
    rw [hsplit, List.flatMap_assoc]
  have hcolumn : ∀ column : ResultRow → Int,
      (((units db level code).flatMap (unitResults db electionId)).map column).sum =
        ((areas db partLevel code).map fun part =>
          (((units db partLevel part).flatMap (unitResults db electionId)).map column).sum).sum := by
    intro column
    rw [hresults, List.map_flatMap, sum_flatMap]
  refine ⟨?_, ?_, ?_, ?_, ?_, ?_⟩
  · simp only [listed, List.map_map, totalPus_areaRow h, hsplit, List.length_flatMap, Function.comp_def]
  · simp only [listed, List.map_map, reportedPus_areaRow h hids, hresults, List.length_flatMap, Function.comp_def]
  · simp only [listed, areaRow, List.map_map, Function.comp_def, getD_sumOf]
    exact hcolumn _
  · simp only [listed, areaRow, List.map_map, Function.comp_def, getD_sumOf]
    exact hcolumn _
  · simp only [listed, areaRow, List.map_map, Function.comp_def, getD_sumOf]
    exact hcolumn _
  · intro party
    simp only [listed, List.map_map, Function.comp_def, votesIn_batch, partySum_batchRows]
    rw [hsplit, List.map_flatMap, sum_flatMap]

end Split

/-- The finalized results of the rows are those of the units. -/
theorem finals_unitRows (wardCode : String) :
    finals (unitRows db electionId wardCode) = (wardUnits db wardCode).flatMap (unitResults db electionId) := by
  rw [finals, unitRows, List.filterMap_flatMap]
  congr 1
  funext pu
  have hfilter : unitResults db electionId pu =
      (db.results.filter fun r => r.electionId == electionId && r.pollingUnitCode == pu.code).filter
        fun r => r.status == .finalized := by
    rw [unitResults, ownFinalized, List.filter_filter, List.filter_filter]
    congr 1
    funext r
    rw [Bool.beq_comm (a := pu.code)]
    cases r.electionId == electionId <;> cases r.pollingUnitCode == pu.code <;> simp
  rw [hfilter]
  split
  · rename_i hnone
    rw [hnone]
    rfl
  · rw [List.filterMap_map, ← @List.filterMap_eq_filter _ fun r : ResultRow => r.status == .finalized]
    rfl

theorem codes_unitRows {wardCode code : String} :
    code ∈ (unitRows db electionId wardCode).map (·.code) ↔ code ∈ (wardUnits db wardCode).map (·.code) := by
  simp only [unitRows, List.mem_map, List.mem_flatMap]
  constructor
  · rintro ⟨row, ⟨pu, hpu, hrow⟩, rfl⟩
    refine ⟨pu, hpu, ?_⟩
    split at hrow
    · rw [List.mem_singleton.mp hrow]
    · obtain ⟨r, -, rfl⟩ := List.mem_map.mp hrow
      rfl
  · rintro ⟨pu, hpu, rfl⟩
    cases hresults : db.results.filter fun r => r.electionId == electionId && r.pollingUnitCode == pu.code with
    | nil => exact ⟨⟨pu.code, pu.registeredVoters, none⟩, ⟨pu, hpu, by simp [hresults]⟩, rfl⟩
    | cons r rest => exact ⟨⟨pu.code, pu.registeredVoters, some r⟩, ⟨pu, hpu, by simp [hresults]⟩, rfl⟩

theorem votesIn_resultScores (r : ResultRow) (party : String) :
    votesIn (resultScores db r.id) party = resultVotes db party r := by
  have hperm : (resultScores db r.id).Perm
      ((db.resultPartyScores.filter fun s => s.resultId == r.id).map fun s => (s.partyCode, s.votes)) :=
    List.perm_insertionSort _ _
  rw [votesIn_perm hperm, votesIn, resultVotes, partyScores, List.filter_map, List.map_map, List.filter_filter]
  congr 2
  congr 1
  funext s
  exact Bool.and_comm _ _

/-- Keys in the order of the table. -/
def inOrder : IterationOrder := ⟨id, List.Perm.refl⟩

def AreaLevel.collation : AreaLevel → CollationLevel
  | .state => .state
  | .lga => .lga
  | .ward => .ward

/-- Results in an area, as the collation joins them. -/
def joined (db : Tables) (level : CollationLevel) (areaCode : String) (rows : List (String × Int)) :
    List (String × Int) :=
  rows.flatMap fun c =>
    ((geography db c.1).filter fun g => collationGeoFilter level areaCode g.1 g.2.1 g.2.2).map fun _ => c

/-- The election's own finalized results that a child result stands in for. -/
def replacedResults (db : Tables) (electionId : Int) : List (String × Int) :=
  ((ownFinalized db electionId).filter fun r =>
    (childResults db electionId).any fun c => c.1 == r.pollingUnitCode).map fun r => (r.pollingUnitCode, r.id)

/-- The ward, LGA and state of a polling unit. -/
theorem exists_geography (h : db.GeographyIntact) {pu : PollingUnit} (hpu : pu ∈ db.pollingUnits) :
    ∃ w ∈ db.wards, w.code = pu.wardCode ∧ ∃ l ∈ db.lgas, l.code = w.lgaCode ∧ geography db pu.code = [(pu, w, l)] := by
  obtain ⟨w, hw, hward⟩ := List.mem_map.mp (h.unitWard pu hpu)
  obtain ⟨l, hl, hlga⟩ := List.mem_map.mp (h.wardLga w hw)
  refine ⟨w, hw, hward, l, hl, hlga, ?_⟩
  rw [geography, Rows.filter_key_of_mem h.pollingUnitCodes hpu, List.flatMap_singleton, ← hward,
    Rows.filter_key_of_mem h.wardCodes hw, List.flatMap_singleton, ← hlga, Rows.filter_key_of_mem h.lgaCodes hl]
  rfl

theorem mem_units_iff (h : db.GeographyIntact) {pu : PollingUnit} {w : Ward} {l : Lga} (hpu : pu ∈ db.pollingUnits)
    (hw : w ∈ db.wards) (hward : w.code = pu.wardCode) (hl : l ∈ db.lgas) (hlga : l.code = w.lgaCode)
    (level : AreaLevel) (code : String) :
    pu ∈ units db level code ↔ collationGeoFilter level.collation code pu w l = true := by
  have hone : ∀ w' ∈ db.wards, w'.code = pu.wardCode → w' = w :=
    fun w' hw' heq => Rows.eq_of_key_eq h.wardCodes hw' hw (heq.trans hward.symm)
  cases level with
  | ward => simp [units, mem_wardUnits, hpu, collationGeoFilter, AreaLevel.collation]
  | lga =>
      simp only [units, mem_lgaUnits, hpu, true_and, collationGeoFilter, AreaLevel.collation, beq_iff_eq]
      constructor
      · rintro ⟨w', hw', hcode, rfl⟩
        rw [hone w' hw' hcode]
      · rintro rfl
        exact ⟨w, hw, hward, rfl⟩
  | state =>
      have hstate : pu ∈ units db .state code ↔
          ∃ l' ∈ areas db .lga code, pu ∈ (areas db .ward l').flatMap (wardUnits db) := List.mem_flatMap
      rw [hstate]
      simp only [mem_lgaUnits, hpu, true_and, collationGeoFilter, AreaLevel.collation, beq_iff_eq]
      constructor
      · rintro ⟨l', hl', w', hw', hcode, rfl⟩
        simp only [areas, List.mem_map, List.mem_filter, beq_iff_eq] at hl'
        obtain ⟨l'', ⟨hl'', hstate'⟩, hcode'⟩ := hl'
        rw [hone w' hw' hcode] at hcode'
        rw [← hstate', Rows.eq_of_key_eq h.lgaCodes hl hl'' (hlga.trans hcode'.symm)]
      · rintro rfl
        refine ⟨w.lgaCode, ?_, w, hw, hward, rfl⟩
        simp only [areas, List.mem_map, List.mem_filter, beq_iff_eq]
        exact ⟨l, ⟨hl, rfl⟩, hlga⟩

theorem mem_pollingUnits_of_mem_units {level : AreaLevel} {code : String} {pu : PollingUnit}
    (hmem : pu ∈ units db level code) : pu ∈ db.pollingUnits := by
  cases level with
  | ward => exact (mem_wardUnits.mp hmem).1
  | lga => exact (mem_lgaUnits.mp hmem).1
  | state =>
      obtain ⟨_, _, hmem⟩ := List.mem_flatMap.mp hmem
      exact (mem_lgaUnits.mp hmem).1

/-- Both joins take a unit code into an area as often. -/
theorem length_filter_units (h : db.GeographyIntact) (level : AreaLevel) (code x : String) :
    ((units db level code).filter fun pu => pu.code == x).length =
      ((geography db x).filter fun g => collationGeoFilter level.collation code g.1 g.2.1 g.2.2).length := by
  by_cases hx : ∃ pu ∈ db.pollingUnits, pu.code = x
  · obtain ⟨pu, hpu, rfl⟩ := hx
    obtain ⟨w, hw, hward, l, hl, hlga, hgeo⟩ := exists_geography h hpu
    have hiff := mem_units_iff h hpu hw hward hl hlga level code
    rw [hgeo, List.filter_singleton]
    by_cases hin : pu ∈ units db level code
    · rw [Rows.filter_key_of_mem (nodup_units h level code) hin, hiff.mp hin]
      rfl
    · have hnone : (units db level code).filter (fun pu' => pu'.code == pu.code) = [] := by
        rw [List.filter_eq_nil_iff]
        intro pu' hpu' heq
        have hsame := unit_eq_of_code h (mem_pollingUnits_of_mem_units hpu') hpu (beq_iff_eq.mp heq)
        exact hin (hsame ▸ hpu')
      rw [hnone, Bool.eq_false_iff.mpr fun hfilter => hin (hiff.mpr hfilter)]
      rfl
  · have hunits : (units db level code).filter (fun pu => pu.code == x) = [] := by
      rw [List.filter_eq_nil_iff]
      intro pu hpu heq
      exact hx ⟨pu, mem_pollingUnits_of_mem_units hpu, beq_iff_eq.mp heq⟩
    have hgeo : geography db x = [] := by
      have hnone : db.pollingUnits.filter (fun pu => pu.code == x) = [] := by
        rw [List.filter_eq_nil_iff]
        intro pu hpu heq
        exact hx ⟨pu, hpu, beq_iff_eq.mp heq⟩
      rw [geography, hnone]
      rfl
    rw [hunits, hgeo]
    rfl

theorem batchRows_eq_joined (h : db.GeographyIntact) (level : AreaLevel) (code : String) :
    batchRows db electionId level code =
      joined db level.collation code ((ownFinalized db electionId).map fun r => (r.pollingUnitCode, r.id)) := by
  rw [batchRows, joined, List.flatMap_map]
  congr 1
  funext r
  rw [List.map_const', List.map_const', length_filter_units h]

/-- The election's own results are those that count and those that are replaced. -/
theorem ownResults_perm :
    ((ownFinalized db electionId).map fun r => (r.pollingUnitCode, r.id)).Perm
      (replacedResults db electionId ++ parentResults db electionId) := by
  have hparent : parentResults db electionId = ((ownFinalized db electionId).filter fun r =>
      !(childResults db electionId).any fun c => c.1 == r.pollingUnitCode).map fun r => (r.pollingUnitCode, r.id) := by
    rw [parentResults, ownFinalized, List.filter_filter]
    congr 2
    funext r
    exact Bool.and_comm _ _
  rw [hparent, replacedResults, ← List.map_append]
  exact (List.filter_append_perm _ _).symm.map _

theorem partySum_joined_append (level : CollationLevel) (areaCode party : String) (rows rows' : List (String × Int)) :
    partySum db (joined db level areaCode (rows ++ rows')) party =
      partySum db (joined db level areaCode rows) party + partySum db (joined db level areaCode rows') party := by
  rw [joined, List.flatMap_append, partySum, List.map_append, List.sum_append]
  rfl

end Inec.Drilldown
