import Inec.Collation.Overlap

/-!
# The collation is additive

`canonicalPartyTotals` joins one and the same set with the geography of its units, at every level, and only then
restricts the rows to an area. A joined row has one ward, one LGA and one state, so the rows of an area are those
of its parts, each row in one of them, and every sum over the rows of the area is the sum of the sums over the
parts.
-/

namespace Inec

/-! ### What is asked -/

/-- The foreign keys and unique codes of the four geographic tables. -/
structure Tables.GeographyIntact (db : Tables) : Prop where
  stateCodes : db.states.Nodup
  lgaCodes : (db.lgas.map (·.code)).Nodup
  wardCodes : (db.wards.map (·.code)).Nodup
  pollingUnitCodes : (db.pollingUnits.map (·.code)).Nodup
  lgaState : ∀ l ∈ db.lgas, l.stateCode ∈ db.states
  wardLga : ∀ w ∈ db.wards, w.lgaCode ∈ db.lgas.map (·.code)
  unitWard : ∀ pu ∈ db.pollingUnits, pu.wardCode ∈ db.wards.map (·.code)

/-- `totals[party]`. -/
def CollationTotals.votes (t : CollationTotals) (party : String) : Int :=
  ((t.totals.find? fun entry => entry.1 == party).map (·.2)).getD 0

/-- What the parts hold adds up to the whole, party by party and altogether. -/
structure CollationTotals.SumOf (whole : CollationTotals) (parts : List CollationTotals) : Prop where
  votes : ∀ party, whole.votes party = (parts.map (·.votes party)).sum
  totalVotes : whole.totalVotes = (parts.map (·.totalVotes)).sum

/-- Nation, states, LGAs and wards of an election, each query in an order of its own. -/
structure CollationAdditive (db : Tables) (electionId : Int) (orders : CollationLevel → String → IterationOrder) :
    Prop where
  national : ∀ areaCode,
    (canonicalPartyTotals db electionId (orders .national areaCode) .national areaCode).SumOf
      (db.states.map fun s => canonicalPartyTotals db electionId (orders .state s) .state s)
  state : ∀ s ∈ db.states,
    (canonicalPartyTotals db electionId (orders .state s) .state s).SumOf
      ((db.lgas.filter fun l => l.stateCode == s).map fun l =>
        canonicalPartyTotals db electionId (orders .lga l.code) .lga l.code)
  lga : ∀ l ∈ db.lgas,
    (canonicalPartyTotals db electionId (orders .lga l.code) .lga l.code).SumOf
      ((db.wards.filter fun w => w.lgaCode == l.code).map fun w =>
        canonicalPartyTotals db electionId (orders .ward w.code) .ward w.code)

variable {db : Tables} {electionId : Int}

/-! ### Totals as sums over rows -/

/-- All votes of one result. -/
def votesOf (db : Tables) (resultId : Int) : Int :=
  ((db.resultPartyScores.filter fun s => s.resultId == resultId).map (·.votes)).sum

theorem votes_canonicalPartyTotals (order : IterationOrder) (level : CollationLevel) (areaCode party : String) :
    (canonicalPartyTotals db electionId order level areaCode).votes party =
      partySum db (collatedRows db electionId level areaCode) party := by
  rw [CollationTotals.votes, canonicalPartyTotals, List.find?_map]
  cases hfind : (partiesOf db (collatedRows db electionId level areaCode)).find?
      ((fun entry => entry.1 == party) ∘ fun p => (p, partySum db (collatedRows db electionId level areaCode) p)) with
  | none =>
      rw [List.find?_eq_none] at hfind
      have hno : party ∉ partiesOf db (collatedRows db electionId level areaCode) := by
        intro hmem
        exact hfind party hmem (beq_self_eq_true party)
      rw [partySum_eq_zero hno]
      rfl
  | some found =>
      have heq : (found == party) = true := by simpa using List.find?_some hfind
      rw [beq_iff_eq.mp heq]
      rfl

/-- The scores of the rows. -/
def scoresOfRows (db : Tables) (rows : List (String × Int)) : List PartyScore :=
  rows.flatMap fun c => db.resultPartyScores.filter fun s => s.resultId == c.2

theorem sum_scoresOfRows (rows : List (String × Int)) (p : PartyScore → Bool) :
    (((scoresOfRows db rows).filter p).map (·.votes)).sum =
      (rows.map fun c =>
        ((db.resultPartyScores.filter fun s => s.resultId == c.2 && p s).map (·.votes)).sum).sum := by
  induction rows with
  | nil => rfl
  | cons c rest ih =>
      have hfilter : (db.resultPartyScores.filter fun s => s.resultId == c.2).filter p =
          db.resultPartyScores.filter fun s => s.resultId == c.2 && p s := by
        rw [List.filter_filter]
        congr 1
        funext s
        exact Bool.and_comm _ _
      rw [scoresOfRows, List.flatMap_cons, List.filter_append, List.map_append, List.sum_append, hfilter,
        List.map_cons, List.sum_cons, ← ih]
      rfl

theorem partySum_eq_filter (rows : List (String × Int)) (party : String) :
    partySum db rows party =
      (((scoresOfRows db rows).filter fun s => s.partyCode == party).map (·.votes)).sum :=
  (sum_scoresOfRows rows fun s => s.partyCode == party).symm

/-- Every score is in the group of its party. -/
theorem totalVotes_canonicalPartyTotals (order : IterationOrder) (level : CollationLevel) (areaCode : String) :
    (canonicalPartyTotals db electionId order level areaCode).totalVotes =
      ((collatedRows db electionId level areaCode).map fun c => votesOf db c.2).sum := by
  have hgroups (rows : List (String × Int)) :
      ((partiesOf db rows).map (partySum db rows)).sum = (rows.map fun c => votesOf db c.2).sum := by
    have hone : ∀ s ∈ scoresOfRows db rows,
        (partiesOf db rows).countP (fun party => s.partyCode == party) = if true then 1 else 0 := by
      intro s hs
      obtain ⟨c, hc, hs⟩ := List.mem_flatMap.mp hs
      rw [List.mem_filter, beq_iff_eq] at hs
      have hnodup : (partiesOf db rows).Nodup :=
        (List.perm_insertionSort _ _).nodup_iff.mpr (List.nodup_dedup _)
      exact Rows.countP_self hnodup (mem_partiesOf.mpr ⟨c, hc, s, hs.1, hs.2, rfl⟩)
    have hparts := Sums.sum_parts_eq (·.votes) hone
    rw [sum_scoresOfRows] at hparts
    simp only [Bool.and_true] at hparts
    rw [← funext (partySum_eq_filter rows)] at hparts
    exact hparts
  exact hgroups _

/-! ### The joined rows -/

/-- The canonical rows, each with its polling unit, ward and LGA. -/
def joinedRows (db : Tables) (electionId : Int) : List ((String × Int) × PollingUnit × Ward × Lga) :=
  (canonical db electionId).flatMap fun c => (geography db c.1).map fun g => (c, g)

def inArea (level : CollationLevel) (areaCode : String) (row : (String × Int) × PollingUnit × Ward × Lga) : Bool :=
  collationGeoFilter level areaCode row.2.1 row.2.2.1 row.2.2.2

theorem collatedRows_eq_filter (level : CollationLevel) (areaCode : String) :
    collatedRows db electionId level areaCode =
      ((joinedRows db electionId).filter (inArea level areaCode)).map Prod.fst := by
  rw [collatedRows, joinedRows, List.filter_flatMap, List.map_flatMap]
  congr 1
  funext c
  rw [List.filter_map, List.map_map]
  rfl

theorem mem_joinedRows {row : (String × Int) × PollingUnit × Ward × Lga} (h : row ∈ joinedRows db electionId) :
    row.2.2.1 ∈ db.wards ∧ row.2.2.1.code = row.2.1.wardCode ∧ row.2.2.2 ∈ db.lgas ∧
      row.2.2.2.code = row.2.2.1.lgaCode := by
  obtain ⟨c, -, hrow⟩ := List.mem_flatMap.mp h
  obtain ⟨g, hg, rfl⟩ := List.mem_map.mp hrow
  obtain ⟨pu, -, hg⟩ := List.mem_flatMap.mp hg
  obtain ⟨w, hw, hg⟩ := List.mem_flatMap.mp hg
  obtain ⟨l, hl, rfl⟩ := List.mem_map.mp hg
  rw [List.mem_filter, beq_iff_eq] at hw hl
  exact ⟨hw.1, hw.2, hl.1, hl.2⟩

/-- Areas that take each joined row of the whole once. -/
def Covers (db : Tables) (electionId : Int) (level : CollationLevel) (areaCode : String) (partLevel : CollationLevel)
    (parts : List String) : Prop :=
  ∀ row ∈ joinedRows db electionId,
    parts.countP (fun part => inArea partLevel part row) = if inArea level areaCode row then 1 else 0

theorem Covers.sum_eq {level partLevel : CollationLevel} {areaCode : String} {parts : List String}
    (h : Covers db electionId level areaCode partLevel parts) (weight : String × Int → Int) :
    ((collatedRows db electionId level areaCode).map weight).sum =
      (parts.map fun part => ((collatedRows db electionId partLevel part).map weight).sum).sum := by
  simp only [collatedRows_eq_filter, List.map_map]
  exact (Sums.sum_parts_eq (weight ∘ Prod.fst) h).symm

theorem Covers.sumOf {level partLevel : CollationLevel} {areaCode : String} {parts : List String}
    (h : Covers db electionId level areaCode partLevel parts)
    (orders : CollationLevel → String → IterationOrder) :
    (canonicalPartyTotals db electionId (orders level areaCode) level areaCode).SumOf
      (parts.map fun part => canonicalPartyTotals db electionId (orders partLevel part) partLevel part) where
  votes party := by
    rw [List.map_map, votes_canonicalPartyTotals, partySum, h.sum_eq]
    congr 1
    apply List.map_congr_left
    intro part _
    exact (votes_canonicalPartyTotals (orders partLevel part) partLevel part party).symm
  totalVotes := by
    rw [List.map_map, totalVotes_canonicalPartyTotals, h.sum_eq]
    congr 1
    apply List.map_congr_left
    intro part _
    exact (totalVotes_canonicalPartyTotals (orders partLevel part) partLevel part).symm

/-! ### Levels -/

/-- An LGA is in one state. -/
theorem covers_states (h : db.GeographyIntact) (areaCode : String) :
    Covers db electionId .national areaCode .state db.states := by
  intro row hrow
  obtain ⟨-, -, hl, -⟩ := mem_joinedRows hrow
  exact Rows.countP_self h.stateCodes (h.lgaState _ hl)

/-- A ward is in one LGA. -/
theorem covers_lgas (h : db.GeographyIntact) (s : String) :
    Covers db electionId .state s .lga ((db.lgas.filter fun l => l.stateCode == s).map (·.code)) := by
  intro row hrow
  obtain ⟨-, -, hl, hcode⟩ := mem_joinedRows hrow
  rw [List.countP_map]
  have hcount := Rows.countP_key h.lgaCodes hl fun l => l.stateCode == s
  rw [hcode] at hcount
  exact hcount

/-- A polling unit is in one ward. -/
theorem covers_wards (h : db.GeographyIntact) (lga : String) :
    Covers db electionId .lga lga .ward ((db.wards.filter fun w => w.lgaCode == lga).map (·.code)) := by
  intro row hrow
  obtain ⟨hw, hcode, -, -⟩ := mem_joinedRows hrow
  rw [List.countP_map]
  have hcount := Rows.countP_key h.wardCodes hw fun w => w.lgaCode == lga
  rw [hcode] at hcount
  exact hcount

/-- The collation of every election family is additive over an intact geography. -/
theorem collationAdditive_of_intact (h : db.GeographyIntact) (electionId : Int)
    (orders : CollationLevel → String → IterationOrder) : CollationAdditive db electionId orders where
  national areaCode := (covers_states h areaCode).sumOf orders
  state s _ := by
    have hsum := (@covers_lgas db electionId h s).sumOf orders
    rw [List.map_map] at hsum
    exact hsum
  lga l _ := by
    have hsum := (@covers_wards db electionId h l.code).sumOf orders
    rw [List.map_map] at hsum
    exact hsum

/-! ### Two states -/

/-- Units in two LGAs of one state and in a second state; the unit of the latter has voted again. -/
def twoStates : Tables :=
  { Tables.empty with
    states := ["S-1", "S-2"]
    lgas := [⟨"L-1", "S-1"⟩, ⟨"L-2", "S-1"⟩, ⟨"L-3", "S-2"⟩]
    wards := [⟨"W-1", "L-1"⟩, ⟨"W-2", "L-2"⟩, ⟨"W-3", "L-3"⟩]
    pollingUnits := [⟨"PU-1", "W-1", 200⟩, ⟨"PU-2", "W-2", 200⟩, ⟨"PU-3", "W-3", 200⟩]
    elections :=
      [.bare 1 .presidential .collating,
        { Election.bare 2 .presidential .closed with electionKind := .rerun, parentElectionId := some 1 }]
    rerunScopes := [⟨2, .ward, "W-3", "annulled", "chair"⟩]
    results :=
      [.bare 1 1 "PU-1" .finalized, .bare 2 1 "PU-2" .finalized, .bare 3 1 "PU-3" .finalized,
        .bare 4 2 "PU-3" .finalized]
    resultPartyScores := [⟨1, "A", 60⟩, ⟨1, "B", 40⟩, ⟨2, "A", 30⟩, ⟨3, "A", 10⟩, ⟨4, "B", 20⟩] }

theorem collationAdditive_twoStates :
    CollationAdditive twoStates 1 fun _ _ => ⟨fun parties => parties, fun _ => .rfl⟩ :=
  collationAdditive_of_intact
    ⟨by decide, by decide, by decide, by decide, by decide, by decide, by decide⟩ 1 _

/-- The votes of the rerun are those of its state. -/
example : (canonicalPartyTotals twoStates 1 ⟨fun parties => parties, fun _ => .rfl⟩ .national "").totals =
    [("A", 90), ("B", 60)] := by decide +kernel

end Inec
