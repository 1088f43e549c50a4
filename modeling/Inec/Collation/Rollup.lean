import Inec.Collation.Additive
import Inec.Lib.Distinct

/-!
# The collation record of an area

`persistCollationRollup` of domain_inec.go computes the collation of an area and writes it to `collation_results`,
over the record the area had, and to `collation_party_scores`. Two of its numbers count polling units, and both
are by-products of a grouped query. The units reported are those of the group that is scanned last: the units in
which one party has a score. The units in total are summed over the statuses of the results of the election, so
a unit counts once for every status its results have.

The two are the numbers they are called after exactly if the last party has a score wherever there is a result,
and no unit has results of two statuses (`countsRight_iff`).

No statement fails. The name of an area and the fields of a form that is attached later are left out.
-/

namespace Inec

/-! ### Tables -/

inductive CollationStatus
  | inProgress | completed | disputed
  deriving DecidableEq, Repr

/-- The forms of ward and LGA. -/
inductive FormType
  | ec8b | ec8c
  deriving DecidableEq, Repr

/-- A row of `collation_results`. -/
structure CollationRow where
  id : Int
  electionId : Int
  level : CollationLevel
  areaCode : String
  totalRegisteredVoters : Int
  totalAccreditedVoters : Int
  totalValidVotes : Int
  totalRejectedVotes : Int
  totalVotesCast : Int
  pollingUnitsReported : Nat
  pollingUnitsTotal : Nat
  status : CollationStatus
  formType : Option FormType
  deriving DecidableEq, Repr

/-- The columns of `collation_results_area_unique`. -/
structure CollationKey where
  electionId : Int
  level : CollationLevel
  areaCode : String
  deriving DecidableEq, Repr

def CollationRow.key (r : CollationRow) : CollationKey := ⟨r.electionId, r.level, r.areaCode⟩

structure CollationTables where
  results : List CollationRow
  distinct : (results.map CollationRow.key).Nodup
  /-- Collation, party and votes. -/
  partyScores : List (Int × String × Int)

namespace CollationTables

def record? (t : CollationTables) (electionId : Int) (level : CollationLevel) (areaCode : String) :
    Option CollationRow :=
  t.results.find? fun r => r.key == ⟨electionId, level, areaCode⟩

/-- `INSERT ... ON CONFLICT (election_id, level, area_code) DO UPDATE ... RETURNING id`. -/
def upsert (t : CollationTables) (row : CollationRow) : CollationTables × Int :=
  match hfind : t.results.find? fun r => r.key == row.key with
  | some old =>
      ({ t with
          results := Rows.update CollationRow.key row.key (fun r => { row with id := r.id }) t.results
          distinct := by
            rw [Rows.map_update (by intro r _ hkey; exact hkey.symm)]
            exact t.distinct }, old.id)
  | none =>
      ({ t with
          results := t.results ++ [{ row with id := nextSerial (t.results.map (·.id)) }]
          distinct := by
            rw [List.map_append, List.nodup_append]
            refine ⟨t.distinct, List.nodup_singleton _, ?_⟩
            intro key hold key' hnew
            obtain ⟨r, hr, rfl⟩ := List.mem_map.mp hold
            rw [List.mem_singleton.mp hnew]
            intro heq
            exact List.find?_eq_none.mp hfind r hr (beq_iff_eq.mpr heq) }, nextSerial (t.results.map (·.id)))

/-- The scores of a record are replaced. -/
def replaceScores (t : CollationTables) (id : Int) (totals : List (String × Int)) : CollationTables :=
  { t with partyScores := t.partyScores.filter (fun s => s.1 != id) ++ totals.map fun s => (id, s.1, s.2) }

end CollationTables

/-! ### The roll-up -/

section Rollup

variable (db : Tables) (electionId : Int) (order : IterationOrder) (level : CollationLevel) (areaCode : String)

/-- The ward and LGA a polling unit joins with. -/
def unitGeography (pu : PollingUnit) : List (Ward × Lga) :=
  (db.wards.filter fun w => w.code == pu.wardCode).flatMap fun w =>
    (db.lgas.filter fun l => l.code == w.lgaCode).map fun l => (w, l)

/-- The polling units that the join puts into the area. -/
def areaRows : List PollingUnit :=
  db.pollingUnits.flatMap fun pu =>
    ((unitGeography db pu).filter fun g => collationGeoFilter level areaCode pu g.1 g.2).map fun _ => pu

/-- The statuses a polling unit joins with; `none` is the status `none` of a unit that has no result. -/
def unitStatuses (pu : PollingUnit) : List (Option ResultStatus) :=
  match db.results.filter fun r =>
      r.pollingUnitCode == pu.code && r.electionId == electionId && r.status != .superseded with
  | [] => [none]
  | results => results.map fun r => some r.status

structure StatusCounts where
  counts : List (Option ResultStatus × Nat)
  total : Nat
  deriving DecidableEq, Repr

/-- `counts[status]`. -/
def StatusCounts.get (c : StatusCounts) (status : ResultStatus) : Nat :=
  ((c.counts.find? fun entry => entry.1 = some status).map (·.2)).getD 0

/-- The grouped query of `resultStatusCounts`, and the sum over its groups. -/
def resultStatusCounts : StatusCounts :=
  let rows := (areaRows db level areaCode).flatMap fun pu =>
    (unitStatuses db electionId pu).map fun status => (pu.code, status)
  let groups := (rows.map (·.2)).dedup
  let counts := groups.map fun status => (status, ((rows.filter fun row => row.2 = status).map (·.1)).dedup.length)
  { counts := counts, total := (counts.map (·.2)).sum }

/-- What `collateLevel` returns. -/
structure LevelCollation where
  partyTotals : List (String × Int)
  totalVotes : Int
  childCount : Nat
  statusCounts : StatusCounts
  totalPUs : Nat
  disputedPUs : Nat
  status : CollationStatus
  deriving DecidableEq, Repr

def collateLevel : LevelCollation :=
  let totals := canonicalPartyTotals db electionId order level areaCode
  let counts := resultStatusCounts db electionId level areaCode
  let status :=
    if 0 < counts.total ∧ (counts.total : Int) - counts.get .voided ≤ counts.get canonicalResultStatus then
      CollationStatus.completed
    else .inProgress
  { partyTotals := totals.totals
    totalVotes := totals.totalVotes
    childCount := totals.puCount
    statusCounts := counts
    totalPUs := counts.total
    disputedPUs := counts.get .disputed
    status := if 0 < counts.get .disputed then .disputed else status }

/-- A column of `results`, summed over the canonical rows of the area. -/
def areaSum (column : ResultRow → Int) : Int :=
  (((collatedRows db electionId level areaCode).flatMap fun c => db.results.filter fun r => r.id == c.2).map
    column).sum

def CollationLevel.formType : CollationLevel → Option FormType
  | .ward => some .ec8b
  | .lga => some .ec8c
  | .state => none
  | .national => none

/-- The record of an area; its id is given by the table. The registered voters are those of all its units. -/
def rollupRow : CollationRow :=
  let c := collateLevel db electionId order level areaCode
  { id := 0
    electionId := electionId
    level := level
    areaCode := areaCode
    totalRegisteredVoters := ((areaRows db level areaCode).map fun pu => (pu.registeredVoters : Int)).sum
    totalAccreditedVoters := areaSum db electionId level areaCode (·.accreditedVoters)
    totalValidVotes := c.totalVotes
    totalRejectedVotes := areaSum db electionId level areaCode (·.rejectedVotes)
    totalVotesCast := areaSum db electionId level areaCode (·.totalVotesCast)
    pollingUnitsReported := c.childCount
    pollingUnitsTotal := c.totalPUs
    status := c.status
    formType := level.formType }

def persistCollationRollup (t : CollationTables) : CollationTables :=
  let written := t.upsert (rollupRow db electionId order level areaCode)
  written.1.replaceScores written.2 (collateLevel db electionId order level areaCode).partyTotals

/-! ### What the numbers are to be -/

/-- The polling unit belongs to the area. -/
def unitInArea (pu : PollingUnit) : Bool :=
  match level with
  | .ward => pu.wardCode == areaCode
  | .lga => db.wards.any fun w => w.code == pu.wardCode && w.lgaCode == areaCode
  | .state =>
      db.wards.any fun w => w.code == pu.wardCode &&
        db.lgas.any fun l => l.code == w.lgaCode && l.stateCode == areaCode
  | .national => true

def areaUnits : List PollingUnit := db.pollingUnits.filter (unitInArea db level areaCode)

/-- The units of the area that have a canonical result. -/
def reportedUnits : List PollingUnit :=
  (areaUnits db level areaCode).filter fun pu => (canonical db electionId).any fun c => c.1 == pu.code

/-- The record that is written counts the units that have reported, and all units. -/
def CountsRight (t : CollationTables) : Prop :=
  ∃ row, (persistCollationRollup db electionId order level areaCode t).record? electionId level areaCode = some row ∧
    row.pollingUnitsReported = (reportedUnits db electionId level areaCode).length ∧
    row.pollingUnitsTotal = (areaUnits db level areaCode).length

/-- Wherever the area has a canonical result, the party whose group is scanned last has a score; no group comes
only of no result. -/
def LastPartyEverywhere : Prop :=
  match (order.arrange (partiesOf db (collatedRows db electionId level areaCode))).getLast? with
  | none => ∀ pu ∈ areaUnits db level areaCode, ∀ c ∈ canonical db electionId, c.1 ≠ pu.code
  | some party =>
      ∀ pu ∈ areaUnits db level areaCode, ∀ c ∈ canonical db electionId, c.1 = pu.code →
        ∃ c' ∈ canonical db electionId, c'.1 = pu.code ∧ partyScores db c'.2 party ≠ []

/-- No unit of the area has results of the election in two statuses other than `superseded`. -/
def OneStatus : Prop :=
  ∀ pu ∈ areaUnits db level areaCode, ∀ r ∈ db.results, ∀ r' ∈ db.results,
    r.pollingUnitCode = pu.code → r'.pollingUnitCode = pu.code → r.electionId = electionId →
      r'.electionId = electionId → r.status ≠ .superseded → r'.status ≠ .superseded → r.status = r'.status

end Rollup

variable {db : Tables} {electionId : Int} {order : IterationOrder} {level : CollationLevel} {areaCode : String}

/-! ### The write -/

/-- The area has the written record afterwards, under some id. -/
theorem record?_persist (t : CollationTables) :
    ∃ id, (persistCollationRollup db electionId order level areaCode t).record? electionId level areaCode =
      some { rollupRow db electionId order level areaCode with id := id } := by
  have hrecord (row : CollationRow) : ∃ id,
      (t.upsert row).1.results.find? (fun r => r.key == row.key) = some { row with id := id } := by
    rw [CollationTables.upsert]
    split
    · next old hfind =>
        refine ⟨old.id, ?_⟩
        have hold := Rows.find?_key hfind
        apply (Rows.find?_key_eq_some_iff (CollationTables.distinct _)).mpr
        exact ⟨Rows.mem_update.mpr (.inl ⟨old, hold.1, hold.2, rfl⟩), rfl⟩
    · next hfind =>
        refine ⟨nextSerial (t.results.map (·.id)), ?_⟩
        rw [List.find?_append, hfind, Option.none_or]
        exact List.find?_cons_of_pos (beq_iff_eq.mpr rfl)
  exact hrecord (rollupRow db electionId order level areaCode)

/-! ### The joins -/

section Joins

variable (h : db.GeographyIntact)
include h

/-- A polling unit joins with one ward and LGA, and belongs to the area if these do. -/
theorem unitGeography_eq {pu : PollingUnit} (hpu : pu ∈ db.pollingUnits) :
    ∃ g, unitGeography db pu = [g] ∧
      ∀ level areaCode, collationGeoFilter level areaCode pu g.1 g.2 = unitInArea db level areaCode pu := by
  obtain ⟨w, hw, hcode⟩ := List.mem_map.mp (h.unitWard pu hpu)
  obtain ⟨l, hl, hlga⟩ := List.mem_map.mp (h.wardLga w hw)
  have hward := Rows.filter_key_of_mem h.wardCodes hw
  have hlgas := Rows.filter_key_of_mem h.lgaCodes hl
  refine ⟨(w, l), ?_, ?_⟩
  · rw [unitGeography, ← hcode, hward, List.flatMap_singleton, ← hlga, hlgas, List.map_singleton]
  · intro level areaCode
    have hanyWard (p : Ward → Bool) : (db.wards.any fun w' => w'.code == pu.wardCode && p w') = p w := by
      rw [← List.any_filter, ← hcode, hward, List.any_cons, List.any_nil, Bool.or_false]
    have hanyLga (p : Lga → Bool) : (db.lgas.any fun l' => l'.code == w.lgaCode && p l') = p l := by
      rw [← List.any_filter, ← hlga, hlgas, List.any_cons, List.any_nil, Bool.or_false]
    cases level with
    | ward => rfl
    | lga => exact (hanyWard fun w' => w'.lgaCode == areaCode).symm
    | state =>
        have hstate := hanyWard fun w' => db.lgas.any fun l' => l'.code == w'.lgaCode && l'.stateCode == areaCode
        exact (hstate.trans (hanyLga fun l' => l'.stateCode == areaCode)).symm
    | national => rfl

theorem areaRows_eq : areaRows db level areaCode = areaUnits db level areaCode := by
  have hfilter (units : List PollingUnit) (hunits : ∀ pu ∈ units, pu ∈ db.pollingUnits) :
      (units.flatMap fun pu =>
        ((unitGeography db pu).filter fun g => collationGeoFilter level areaCode pu g.1 g.2).map fun _ => pu) =
          units.filter (unitInArea db level areaCode) := by
    induction units with
    | nil => rfl
    | cons pu rest ih =>
        obtain ⟨g, hone, hfilter⟩ := unitGeography_eq h (hunits pu List.mem_cons_self)
        rw [List.flatMap_cons, ih fun pu' hpu' => hunits pu' (List.mem_cons_of_mem _ hpu'), hone,
          List.filter_singleton, hfilter, List.filter_cons]
        cases unitInArea db level areaCode pu with
        | true => rfl
        | false => rfl
  exact hfilter db.pollingUnits fun _ hpu => hpu

/-- The collated rows are the canonical results of the units of the area. -/
theorem mem_collatedRows {c : String × Int} : c ∈ collatedRows db electionId level areaCode ↔
    c ∈ canonical db electionId ∧ ∃ pu ∈ areaUnits db level areaCode, pu.code = c.1 := by
  have hgeography (code : String) : geography db code =
      (db.pollingUnits.filter fun pu => pu.code == code).flatMap fun pu =>
        (unitGeography db pu).map fun g => (pu, g) := by
    rw [geography]
    congr 1
    funext pu
    rw [unitGeography, List.map_flatMap]
    congr 1
    funext w
    rw [List.map_map]
    rfl
  rw [collatedRows, List.mem_flatMap]
  constructor
  · rintro ⟨c', hc', hrow⟩
    obtain ⟨g, hg, rfl⟩ := List.mem_map.mp hrow
    rw [List.mem_filter, hgeography] at hg
    obtain ⟨pu, hpu, hpair⟩ := List.mem_flatMap.mp hg.1
    obtain ⟨g', hg', rfl⟩ := List.mem_map.mp hpair
    rw [List.mem_filter, beq_iff_eq] at hpu
    obtain ⟨g₀, hone, hfilter⟩ := unitGeography_eq h hpu.1
    rw [hone, List.mem_singleton] at hg'
    refine ⟨hc', pu, List.mem_filter.mpr ⟨hpu.1, ?_⟩, hpu.2⟩
    rw [← hfilter, ← hg']
    exact hg.2
  · rintro ⟨hc, pu, hpu, hcode⟩
    obtain ⟨hmem, hin⟩ := List.mem_filter.mp hpu
    obtain ⟨g, hone, hfilter⟩ := unitGeography_eq h hmem
    refine ⟨c, hc, List.mem_map.mpr ⟨(pu, g), List.mem_filter.mpr ⟨?_, ?_⟩, rfl⟩⟩
    · rw [hgeography, List.mem_flatMap]
      refine ⟨pu, List.mem_filter.mpr ⟨hmem, beq_iff_eq.mpr hcode⟩, ?_⟩
      rw [hone]
      exact List.mem_singleton.mpr rfl
    · rw [← hin, ← hfilter]

theorem nodup_areaUnits : ((areaUnits db level areaCode).map (·.code)).Nodup :=
  h.pollingUnitCodes.sublist (List.filter_sublist.map _)

/-! ### Units reported -/

theorem mem_codes {code : String} : code ∈ (collatedRows db electionId level areaCode).map (·.1) ↔
    ∃ pu ∈ reportedUnits db electionId level areaCode, pu.code = code := by
  simp only [reportedUnits, List.mem_map, List.mem_filter, List.any_eq_true, beq_iff_eq, mem_collatedRows h]
  constructor
  · rintro ⟨c, ⟨hc, pu, hpu, hcode⟩, rfl⟩
    exact ⟨pu, ⟨hpu, c, hc, hcode.symm⟩, hcode⟩
  · rintro ⟨pu, ⟨hpu, c, hc, hcode⟩, rfl⟩
    exact ⟨c, ⟨hc, pu, hpu, hcode.symm⟩, hcode⟩

theorem length_reportedUnits : (reportedUnits db electionId level areaCode).length =
    ((collatedRows db electionId level areaCode).map (·.1)).dedup.length := by
  have hnodup : ((reportedUnits db electionId level areaCode).map (·.code)).Nodup :=
    (nodup_areaUnits h).sublist (List.filter_sublist.map _)
  rw [← List.length_map (·.code)]
  apply Distinct.length_eq_of_mem_iff hnodup
  intro code
  rw [mem_codes h, List.mem_map]

/-- The count of the last group is that of all units exactly if the last party is everywhere. -/
theorem puCount_eq_iff : (canonicalPartyTotals db electionId order level areaCode).puCount =
      (reportedUnits db electionId level areaCode).length ↔
    LastPartyEverywhere db electionId order level areaCode := by
  rw [length_reportedUnits h, canonicalPartyTotals, LastPartyEverywhere]
  cases (order.arrange (partiesOf db (collatedRows db electionId level areaCode))).getLast? with
  | none =>
      rw [Option.map_none, Option.getD_none, eq_comm, List.length_eq_zero_iff, List.dedup_eq_nil,
        List.map_eq_nil_iff, List.eq_nil_iff_forall_not_mem]
      simp only [mem_collatedRows h]
      constructor
      · intro hnone pu hpu c hc hcode
        exact hnone c ⟨hc, pu, hpu, hcode.symm⟩
      · rintro hnone c ⟨hc, pu, hpu, hcode⟩
        exact hnone pu hpu c hc hcode.symm
  | some party =>
      rw [Option.map_some, Option.getD_some, partyUnits]
      rw [Distinct.length_dedup_eq_iff (List.filter_sublist.map _).subset]
      constructor
      · intro hall pu hpu c hc hcode
        have hcode' : c.1 ∈ (collatedRows db electionId level areaCode).map (·.1) :=
          List.mem_map_of_mem ((mem_collatedRows h).mpr ⟨hc, pu, hpu, hcode.symm⟩)
        obtain ⟨c', hc', heq⟩ := List.mem_map.mp (hall hcode')
        rw [List.mem_filter] at hc'
        refine ⟨c', ((mem_collatedRows h).mp hc'.1).1, heq.trans hcode, ?_⟩
        simpa using hc'.2
      · intro hall code hcode
        obtain ⟨c, hrow, rfl⟩ := List.mem_map.mp hcode
        obtain ⟨hc, pu, hpu, hcode⟩ := (mem_collatedRows h).mp hrow
        obtain ⟨c', hc', hcode', hscores⟩ := hall pu hpu c hc hcode.symm
        refine List.mem_map.mpr ⟨c', List.mem_filter.mpr ⟨?_, ?_⟩, hcode'.trans hcode⟩
        · exact (mem_collatedRows h).mpr ⟨hc', pu, hpu, hcode'.symm⟩
        · simpa using hscores

/-! ### Units in total -/

theorem total_eq_sum : (resultStatusCounts db electionId level areaCode).total =
    ((areaUnits db level areaCode).map fun pu => (unitStatuses db electionId pu).dedup.length).sum := by
  rw [← Distinct.sum_group_counts (nodup_areaUnits h), resultStatusCounts, areaRows_eq h, List.map_map]
  rfl

omit h in
theorem unitStatuses_ne_nil (pu : PollingUnit) : unitStatuses db electionId pu ≠ [] := by
  rw [unitStatuses]
  split
  · exact List.cons_ne_nil _ _
  · next hsome => exact mt List.map_eq_nil_iff.mp hsome

omit h in
/-- A unit has one status exactly if its results have. -/
theorem unitStatuses_eq_iff (pu : PollingUnit) :
    (∀ a ∈ unitStatuses db electionId pu, ∀ b ∈ unitStatuses db electionId pu, a = b) ↔
      ∀ r ∈ db.results, ∀ r' ∈ db.results, r.pollingUnitCode = pu.code → r'.pollingUnitCode = pu.code →
        r.electionId = electionId → r'.electionId = electionId → r.status ≠ .superseded →
          r'.status ≠ .superseded → r.status = r'.status := by
  have hmem (r : ResultRow) : (r ∈ db.results.filter fun r =>
        r.pollingUnitCode == pu.code && r.electionId == electionId && r.status != .superseded) ↔
      r ∈ db.results ∧ r.pollingUnitCode = pu.code ∧ r.electionId = electionId ∧ r.status ≠ .superseded := by
    simp only [List.mem_filter, Bool.and_eq_true, beq_iff_eq, bne_iff_ne, and_assoc]
  rw [unitStatuses]
  split
  · next hnone =>
      constructor
      · intro _ r hr _ _ hcode _ helection _ hstatus _
        have hfiltered := (hmem r).mpr ⟨hr, hcode, helection, hstatus⟩
        rw [hnone] at hfiltered
        cases hfiltered
      · intro _ a ha b hb
        rw [List.mem_singleton.mp ha, List.mem_singleton.mp hb]
  · simp only [List.forall_mem_map, hmem, Option.some.injEq]
    constructor
    · intro hsame r hr r' hr' hcode hcode' helection helection' hstatus hstatus'
      exact hsame r ⟨hr, hcode, helection, hstatus⟩ r' ⟨hr', hcode', helection', hstatus'⟩
    · rintro hsame r ⟨hr, hcode, helection, hstatus⟩ r' ⟨hr', hcode', helection', hstatus'⟩
      exact hsame r hr r' hr' hcode hcode' helection helection' hstatus hstatus'

/-- Every unit counts at least once, so the sum is right exactly if each counts once. -/
theorem total_eq_iff : (resultStatusCounts db electionId level areaCode).total =
      (areaUnits db level areaCode).length ↔ OneStatus db electionId level areaCode := by
  have hones : (areaUnits db level areaCode).length = ((areaUnits db level areaCode).map fun _ => 1).sum := by simp
  have hpos : ∀ pu ∈ areaUnits db level areaCode, 1 ≤ (unitStatuses db electionId pu).dedup.length :=
    fun pu _ => Distinct.length_dedup_pos (unitStatuses_ne_nil pu)
  rw [total_eq_sum h, hones, eq_comm, Sums.sum_map_eq_iff_of_le hpos, OneStatus]
  refine forall_congr' fun pu => imp_congr_right fun _ => ?_
  rw [eq_comm, Distinct.length_dedup_eq_one_iff (unitStatuses_ne_nil pu), unitStatuses_eq_iff]

end Joins

/-- The record that is written counts rightly exactly if the last party has a score wherever there is a result and
no unit has results of two statuses. -/
theorem countsRight_iff (h : db.GeographyIntact) (electionId : Int) (order : IterationOrder)
    (level : CollationLevel) (areaCode : String) (t : CollationTables) :
    CountsRight db electionId order level areaCode t ↔
      LastPartyEverywhere db electionId order level areaCode ∧ OneStatus db electionId level areaCode := by
  rw [← puCount_eq_iff h, ← total_eq_iff h]
  obtain ⟨id, hrecord⟩ := @record?_persist db electionId order level areaCode t
  constructor
  · rintro ⟨row, hrow, hreported, htotal⟩
    obtain rfl := Option.some.inj (hrecord.symm.trans hrow)
    exact ⟨hreported, htotal⟩
  · intro hcounts
    exact ⟨_, hrecord, hcounts⟩

/-! ### Two states -/

section TwoStates

def keyOrder : IterationOrder := ⟨fun parties => parties, fun _ => .rfl⟩

def noCollations : CollationTables := ⟨[], List.nodup_nil, []⟩

/-- An annulled result of a unit that has been entered again. -/
def enteredAgain : Tables := { twoStates with results := twoStates.results ++ [.bare 5 1 "PU-1" .voided] }

theorem intact_twoStates : twoStates.GeographyIntact :=
  ⟨by decide, by decide, by decide, by decide, by decide, by decide, by decide⟩

theorem countsRight_secondState : CountsRight twoStates 1 keyOrder .state "S-2" noCollations := by
  refine (countsRight_iff intact_twoStates 1 keyOrder .state "S-2" noCollations).mpr ⟨?_, ?_⟩
  · have hlast : (keyOrder.arrange (partiesOf twoStates (collatedRows twoStates 1 .state "S-2"))).getLast? =
        some "B" := by decide +kernel
    rw [LastPartyEverywhere, hlast]
    decide +kernel
  · unfold OneStatus
    decide +kernel

theorem not_countsRight {db : Tables} {electionId : Int} {level : CollationLevel} {areaCode : String}
    {reported total : Nat}
    (hrow : ((persistCollationRollup db electionId keyOrder level areaCode noCollations).record? electionId level
      areaCode).map (fun r => (r.pollingUnitsReported, r.pollingUnitsTotal)) = some (reported, total))
    (hwrong : reported ≠ (reportedUnits db electionId level areaCode).length ∨
      total ≠ (areaUnits db level areaCode).length) :
    ¬CountsRight db electionId keyOrder level areaCode noCollations := by
  rintro ⟨row, hrecord, hreported, htotal⟩
  rw [hrecord, Option.map_some] at hrow
  obtain ⟨rfl, rfl⟩ := Prod.mk.inj (Option.some.inj hrow)
  rcases hwrong with hwrong | hwrong
  · exact hwrong hreported
  · exact hwrong htotal

/-- Three units have reported and party B has a score in two of them; and a unit of two statuses counts twice. -/
theorem units_miscounted : twoStates.GeographyIntact ∧ enteredAgain.GeographyIntact ∧
    ¬CountsRight twoStates 1 keyOrder .national "NG" noCollations ∧
    ¬CountsRight enteredAgain 1 keyOrder .lga "L-1" noCollations := by
  refine ⟨intact_twoStates, ?_, ?_, ?_⟩
  · exact ⟨by decide, by decide, by decide, by decide, by decide, by decide, by decide⟩
  · exact @not_countsRight twoStates 1 .national "NG" 2 3 (by decide +kernel) (.inl (by decide +kernel))
  · exact @not_countsRight enteredAgain 1 .lga "L-1" 1 2 (by decide +kernel) (.inr (by decide +kernel))

end TwoStates

end Inec
