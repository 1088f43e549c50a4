import Inec.Collation.Canonical

/-!
# The canonical set under writes

Which finalized results are canonical, and which writes leave the canonical set as it was, as a list and
not only as a set. `Enters` is the part of the question that does not look at the status of the result.
-/

namespace Inec

open Checks

/-- The polling units with a finalized child result. -/
def childUnits (db : Tables) (electionId : Int) : List String := (childResults db electionId).map (·.1)

/-- A finalized result with this election and unit is canonical: a scope of a child covers it, or it is
the election's own and no child replaces it. -/
def Enters (db : Tables) (electionId : Int) (r : ResultRow) : Prop :=
  r.key ∈ scopedPus db electionId ∨ (r.electionId = electionId ∧ r.pollingUnitCode ∉ childUnits db electionId)

variable {db db' : Tables} {electionId : Int}

theorem mem_canonical {c : String × Int} :
    c ∈ canonical db electionId ↔
      ∃ r ∈ db.results, r.status = .finalized ∧ Enters db electionId r ∧ c = (r.pollingUnitCode, r.id) := by
  rw [canonical, List.mem_append, mem_parentResults, mem_childResults]
  constructor
  · rintro (⟨r, hr, hstatus, helection, hunit, rfl⟩ | ⟨r, hr, hstatus, hkey, rfl⟩)
    · exact ⟨r, hr, hstatus, Or.inr ⟨helection, hunit⟩, rfl⟩
    · exact ⟨r, hr, hstatus, Or.inl hkey, rfl⟩
  · rintro ⟨r, hr, hstatus, hkey | ⟨helection, hunit⟩, rfl⟩
    · exact Or.inr ⟨r, hr, hstatus, hkey, rfl⟩
    · exact Or.inl ⟨r, hr, hstatus, helection, hunit, rfl⟩

/-- A result of the table is canonical exactly if it is finalized and enters. -/
theorem mem_canonical_iff (h : db.Constraints) {r : ResultRow} (hr : r ∈ db.results) :
    (r.pollingUnitCode, r.id) ∈ canonical db electionId ↔ r.status = .finalized ∧ Enters db electionId r := by
  rw [mem_canonical]
  constructor
  · rintro ⟨r', hr', hstatus, henters, heq⟩
    rw [Rows.eq_of_key_eq h.resultIds hr hr' (Prod.mk.inj heq).2]
    exact ⟨hstatus, henters⟩
  · rintro ⟨hstatus, henters⟩
    exact ⟨r, hr, hstatus, henters, rfl⟩

/-! ### Writes to other tables -/

theorem scopedPus_sameCore (h : Tables.SameCore db db') (electionId : Int) :
    scopedPus db' electionId = scopedPus db electionId := by
  unfold scopedPus electionChildIDs childElections scopeUnits scopeCovers
  rw [h.elections, h.rerunScopes, h.pollingUnits, h.wards]

/-- The canonical set is computed from the scoped units and the results. -/
theorem canonical_congr (hscoped : scopedPus db' electionId = scopedPus db electionId)
    (hresults : db'.results = db.results) : canonical db' electionId = canonical db electionId := by
  unfold canonical parentResults childResults
  rw [hscoped, hresults]

theorem canonical_sameCore (h : Tables.SameCore db db') (electionId : Int) :
    canonical db' electionId = canonical db electionId :=
  canonical_congr (scopedPus_sameCore h electionId) h.results

/-- A write that keeps the relations of an election, and does not cancel or revive it, keeps the units
its parent's children are scoped to. -/
theorem scopedPus_updateElection {id : Int} {f : Election → Election} {row : StateLogRow}
    (hf : ∀ e ∈ db.elections, e.id = id → (f e).id = e.id ∧ (f e).parentElectionId = e.parentElectionId ∧
      (f e).electionKind = e.electionKind ∧ ((f e).status = .cancelled ↔ e.status = .cancelled)) :
    scopedPus ((db.updateElection id f).logState row) electionId = scopedPus db electionId := by
  have hchildren : electionChildIDs ((db.updateElection id f).logState row) electionId =
      electionChildIDs db electionId := by
    refine Rows.filter_map_update ?_ ?_
    · intro e he hid
      obtain ⟨_, hparent, hkind, hstatus⟩ := hf e he hid
      rw [hparent, hkind]
      congr 1
      exact Bool.eq_iff_iff.mpr (by simp [hstatus])
    · intro e he hid _
      exact (hf e he hid).1
  unfold scopedPus
  rw [hchildren]
  rfl

/-! ### Writes to results -/

theorem childResults_updateResult (h : db.Constraints) {r : ResultRow} {f : ResultRow → ResultRow}
    (hr : db.result? r.id = some r) (hid : (f r).id = r.id) (hkey : (f r).key = r.key)
    (hstatus : r.key ∈ scopedPus db electionId → ((f r).status = .finalized ↔ r.status = .finalized)) :
    childResults (db.updateResult r.id f) electionId = childResults db electionId := by
  have hrow : ∀ r' ∈ db.results, r'.id = r.id → r' = r := fun r' hr' heq =>
    Rows.eq_of_key_eq h.resultIds hr' (Tables.mem_of_result? hr).1 heq
  refine List.flatMap_congr fun sp hsp => ?_
  refine Rows.filter_map_update ?_ ?_
  · intro r' hr' heq
    rw [hrow r' hr' heq, hkey, Bool.eq_iff_iff]
    simp only [Bool.and_eq_true, beq_iff_eq, canonicalResultStatus]
    exact and_congr_right fun hsp' => hstatus (hsp' ▸ hsp)
  · intro r' hr' heq _
    rw [hrow r' hr' heq, hid]

theorem any_childResults {pu : String} :
    ((childResults db electionId).any fun c => c.1 == pu) = false ↔ pu ∉ childUnits db electionId := by
  simp only [childUnits, List.any_eq_false, beq_iff_eq, List.mem_map, not_exists, not_and]

/-- A write to one result that keeps its identity leaves the canonical set alone if it does not change
whether the result is finalized, or if the result does not enter anyway. -/
theorem canonical_updateResult (h : db.Constraints) {r : ResultRow} {f : ResultRow → ResultRow}
    (hr : db.result? r.id = some r) (hid : (f r).id = r.id) (hkey : (f r).key = r.key)
    (hstatus : Enters db electionId r → ((f r).status = .finalized ↔ r.status = .finalized)) :
    canonical (db.updateResult r.id f) electionId = canonical db electionId := by
  have hchild := childResults_updateResult h hr hid hkey fun hscope => hstatus (Or.inl hscope)
  have hrow : ∀ r' ∈ db.results, r'.id = r.id → r' = r := fun r' hr' heq =>
    Rows.eq_of_key_eq h.resultIds hr' (Tables.mem_of_result? hr).1 heq
  obtain ⟨helection, hunit⟩ := Prod.mk.inj hkey
  rw [canonical, canonical, hchild]
  congr 1
  unfold parentResults
  rw [hchild]
  refine Rows.filter_map_update ?_ ?_
  · intro r' hr' heq
    rw [hrow r' hr' heq, helection, hunit, Bool.eq_iff_iff]
    simp only [Bool.and_eq_true, beq_iff_eq, canonicalResultStatus, Bool.not_eq_true', any_childResults]
    constructor
    · rintro ⟨⟨helection, hfinal⟩, hfree⟩
      exact ⟨⟨helection, (hstatus (Or.inr ⟨helection, hfree⟩)).mp hfinal⟩, hfree⟩
    · rintro ⟨⟨helection, hfinal⟩, hfree⟩
      exact ⟨⟨helection, (hstatus (Or.inr ⟨helection, hfree⟩)).mpr hfinal⟩, hfree⟩
  · intro r' hr' heq _
    rw [hrow r' hr' heq, hid, hunit]

theorem canonical_addResult {row : ResultRow} {scores : List (String × Int)} (hstatus : row.status ≠ .finalized) :
    canonical (db.addResult row scores) electionId = canonical db electionId := by
  have hchild : childResults (db.addResult row scores) electionId = childResults db electionId := by
    refine List.flatMap_congr fun sp hsp => ?_
    simp [Tables.addResult, List.filter_append, canonicalResultStatus, hstatus]
  rw [canonical, canonical, hchild]
  congr 1
  unfold parentResults
  rw [hchild]
  simp [Tables.addResult, List.filter_append, canonicalResultStatus, hstatus]

/-! ### Totals -/

/-- The scores of one result. -/
def scoresOf (db : Tables) (resultId : Int) : List PartyScore :=
  db.resultPartyScores.filter fun s => s.resultId == resultId

theorem partyScores_eq (resultId : Int) (party : String) :
    partyScores db resultId party =
      ((scoresOf db resultId).filter fun s => s.partyCode == party).map (·.votes) := by
  rw [partyScores, scoresOf, List.filter_filter]
  simp only [Bool.and_comm]

/-- Equal canonical sets with equal scores in one geography have equal totals. -/
theorem canonicalPartyTotals_congr (hcanonical : canonical db' electionId = canonical db electionId)
    (hpollingUnits : db'.pollingUnits = db.pollingUnits) (hwards : db'.wards = db.wards)
    (hlgas : db'.lgas = db.lgas) (hscores : ∀ c ∈ canonical db electionId, scoresOf db' c.2 = scoresOf db c.2)
    (order : IterationOrder) (level : CollationLevel) (areaCode : String) :
    (canonicalPartyTotals db' electionId order level areaCode).totals =
      (canonicalPartyTotals db electionId order level areaCode).totals := by
  have hrows : collatedRows db' electionId level areaCode = collatedRows db electionId level areaCode := by
    unfold collatedRows geography
    rw [hcanonical, hpollingUnits, hwards, hlgas]
  have hmem : ∀ c ∈ collatedRows db electionId level areaCode, scoresOf db' c.2 = scoresOf db c.2 := by
    intro c hc
    obtain ⟨c', hc', hcc'⟩ := List.mem_flatMap.mp hc
    obtain ⟨_, _, rfl⟩ := List.mem_map.mp hcc'
    exact hscores c' hc'
  have hsum : ∀ party, partySum db' (collatedRows db electionId level areaCode) party =
      partySum db (collatedRows db electionId level areaCode) party := by
    intro party
    rw [partySum, partySum]
    congr 1
    refine List.map_congr_left fun c hc => ?_
    rw [partyScores_eq, partyScores_eq, hmem c hc]
  have hparties : partiesOf db' (collatedRows db electionId level areaCode) =
      partiesOf db (collatedRows db electionId level areaCode) := by
    unfold partiesOf
    congr 2
    refine List.flatMap_congr fun c hc => ?_
    exact congrArg (List.map (·.partyCode)) (hmem c hc)
  simp only [canonicalPartyTotals, hrows, hparties, hsum]

/-- A new result adds scores to none that is there. -/
theorem scoresOf_addResult {row : ResultRow} {scores : List (String × Int)} {resultId : Int}
    (hne : resultId ≠ row.id) : scoresOf (db.addResult row scores) resultId = scoresOf db resultId := by
  have hnone : (scores.map fun s => (⟨row.id, s.1, s.2⟩ : PartyScore)).filter
      (fun s => s.resultId == resultId) = [] := by
    rw [List.filter_eq_nil_iff]
    intro s hs
    obtain ⟨_, _, rfl⟩ := List.mem_map.mp hs
    simp [Ne.symm hne]
  rw [scoresOf, Tables.addResult, List.filter_append, hnone, List.append_nil]
  rfl

theorem id_mem_of_mem_canonical {c : String × Int} (h : c ∈ canonical db electionId) :
    c.2 ∈ db.results.map (·.id) := by
  obtain ⟨r, hr, _, _, rfl⟩ := mem_canonical.mp h
  exact List.mem_map_of_mem hr

end Inec
