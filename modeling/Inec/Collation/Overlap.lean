import Mathlib.Data.List.Pairwise
import Inec.Collation.Canonical

/-!
# When the collation counts a unit once

The anti-join keeps the parent's result out where a child has one, and the unique index allows one live
result for an election and a unit. What neither excludes is two children that both cover a unit and
both have a finalized result there. That is the only way a unit is counted twice.
-/

namespace Inec

/-- The key of a finalized child result that enters the collation of the election. -/
def Contributes (db : Tables) (electionId : Int) (key : Int × String) : Prop :=
  key ∈ scopedPus db electionId ∧ key ∈ finalizedKeys db

/-- No two children of the election contribute a result for one unit. -/
def NoOverlap (db : Tables) (electionId : Int) : Prop :=
  ∀ child child' pu, Contributes db electionId (child, pu) → Contributes db electionId (child', pu) → child = child'

/-- Every unit is in the canonical set, and in the totals of every area, at most once. -/
def CountsOnce (db : Tables) : Prop :=
  ∀ electionId, ((canonical db electionId).map (·.1)).Nodup ∧
    ∀ level areaCode, ((collatedRows db electionId level areaCode).map (·.1)).Nodup

variable {db : Tables} {electionId : Int}

/-! ### The canonical set -/

theorem live_of_finalized {s : ResultStatus} (h : s = .finalized) : s.live = true := by
  rw [h]
  rfl

theorem parentResults_nodup (h : db.Constraints) : ((parentResults db electionId).map (·.1)).Nodup := by
  rw [parentResults, List.map_map]
  refine (List.nodup_map_iff_inj_on ((h.resultIds.of_map _).filter _)).mpr ?_
  intro r hr r' hr' heq
  simp only [List.mem_filter, Bool.and_eq_true, beq_iff_eq, canonicalResultStatus] at hr hr'
  refine Tables.eq_of_live_of_key h hr.1 hr'.1 (live_of_finalized hr.2.1.2) (live_of_finalized hr'.2.1.2) ?_
  exact Prod.ext (hr.2.1.1.trans hr'.2.1.1.symm) heq

/-- The polling unit of a scoped key, once for each finalized result it has. -/
def keyUnits (db : Tables) (sp : Int × String) : List String :=
  (db.results.filter fun r => r.key == sp && r.status == canonicalResultStatus).map fun _ => sp.2

theorem childResults_map_fst :
    (childResults db electionId).map (·.1) = (scopedPus db electionId).flatMap (keyUnits db) := by
  rw [childResults, List.map_flatMap]
  simp only [List.map_map]
  rfl

theorem mem_keyUnits {sp : Int × String} {pu : String} :
    pu ∈ keyUnits db sp ↔ pu = sp.2 ∧ sp ∈ finalizedKeys db := by
  simp only [keyUnits, List.mem_map, List.mem_filter, Bool.and_eq_true, beq_iff_eq, mem_finalizedKeys,
    canonicalResultStatus]
  constructor
  · rintro ⟨r, ⟨hr, hkey, hstatus⟩, rfl⟩
    exact ⟨rfl, r, hr, hstatus, hkey⟩
  · rintro ⟨rfl, r, hr, hstatus, hkey⟩
    exact ⟨r, ⟨hr, hkey, hstatus⟩, rfl⟩

theorem keyUnits_nodup (h : db.Constraints) (sp : Int × String) : (keyUnits db sp).Nodup := by
  rw [keyUnits]
  have hrows := Rows.eq_nil_or_singleton
    ((h.resultIds.of_map _).filter fun r : ResultRow => r.key == sp && r.status == canonicalResultStatus) ?_
  · rcases hrows with hnil | ⟨r, hone⟩
    · rw [hnil]
      exact List.nodup_nil
    · rw [hone]
      exact List.nodup_singleton _
  · intro r hr r' hr'
    simp only [List.mem_filter, Bool.and_eq_true, beq_iff_eq, canonicalResultStatus] at hr hr'
    exact Tables.eq_of_live_of_key h hr.1 hr'.1 (live_of_finalized hr.2.2) (live_of_finalized hr'.2.2)
      (hr.2.1.trans hr'.2.1.symm)

theorem childResults_nodup_iff (h : db.Constraints) :
    ((childResults db electionId).map (·.1)).Nodup ↔ NoOverlap db electionId := by
  rw [childResults_map_fst, List.nodup_flatMap]
  have hsymm : Std.Symm (Function.onFun List.Disjoint (keyUnits db)) :=
    ⟨fun _ _ hdisjoint => List.Disjoint.symm hdisjoint⟩
  constructor
  · rintro ⟨_, hdisjoint⟩ child child' pu ⟨hsp, hfin⟩ ⟨hsp', hfin'⟩
    by_contra hne
    have hpair := hdisjoint.forall hsp hsp' fun heq => hne (congrArg Prod.fst heq)
    exact hpair (mem_keyUnits.mpr ⟨rfl, hfin⟩) (mem_keyUnits.mpr ⟨rfl, hfin'⟩)
  · intro hoverlap
    refine ⟨fun sp _ => keyUnits_nodup h sp, (List.nodup_dedup _).pairwise_of_forall_ne ?_⟩
    intro sp hsp sp' hsp' hne pu hpu hpu'
    obtain ⟨rfl, hfin⟩ := mem_keyUnits.mp hpu
    obtain ⟨heq, hfin'⟩ := mem_keyUnits.mp hpu'
    have hsnd : sp' = (sp'.1, sp.2) := Prod.ext rfl heq.symm
    refine hne (Prod.ext (hoverlap sp.1 sp'.1 sp.2 ⟨hsp, hfin⟩ ?_) heq)
    rw [← hsnd]
    exact ⟨hsp', hfin'⟩

/-- The anti-join separates the two parts, so only the children can overlap. -/
theorem canonical_nodup_iff (h : db.Constraints) :
    ((canonical db electionId).map (·.1)).Nodup ↔ NoOverlap db electionId := by
  rw [canonical, List.map_append, List.nodup_append', ← childResults_nodup_iff h]
  constructor
  · exact fun hnodup => hnodup.2.1
  · intro hchild
    refine ⟨parentResults_nodup h, hchild, ?_⟩
    intro pu hparent hpu
    obtain ⟨c, hc, rfl⟩ := List.mem_map.mp hparent
    obtain ⟨r, _, _, _, hnot, rfl⟩ := mem_parentResults.mp hc
    exact hnot hpu

/-! ### The totals -/

theorem geography_eq (h : db.Constraints) (code : String) :
    geography db code = [] ∨ ∃ g, geography db code = [g] := by
  rw [geography]
  rcases Rows.filter_key_eq h.pollingUnitCodes code with hpu | ⟨pu, hpu⟩
  · exact Or.inl (by rw [hpu]; rfl)
  · rw [hpu, List.flatMap_singleton]
    rcases Rows.filter_key_eq h.wardCodes pu.wardCode with hw | ⟨w, hw⟩
    · exact Or.inl (by rw [hw]; rfl)
    · rw [hw, List.flatMap_singleton]
      rcases Rows.filter_key_eq h.lgaCodes w.lgaCode with hl | ⟨l, hl⟩
      · exact Or.inl (by rw [hl]; rfl)
      · exact Or.inr ⟨(pu, w, l), by rw [hl]; rfl⟩

/-- A join with at most one partner for each row keeps a sublist. -/
theorem collatedRows_sublist (h : db.Constraints) (level : CollationLevel) (areaCode : String) :
    (collatedRows db electionId level areaCode).Sublist (canonical db electionId) := by
  rw [collatedRows]
  induction canonical db electionId with
  | nil => exact List.Sublist.refl _
  | cons c rest ih =>
      rw [List.flatMap_cons]
      refine List.Sublist.append (?_ : List.Sublist _ [c]) ih
      rcases geography_eq h c.1 with hnone | ⟨g, hone⟩
      · rw [hnone]
        exact List.nil_sublist _
      · rw [hone, List.filter_singleton]
        cases collationGeoFilter level areaCode g.1 g.2.1 g.2.2 with
        | true => exact List.Sublist.refl _
        | false => exact List.nil_sublist _

theorem countsOnce_iff (h : db.Constraints) : CountsOnce db ↔ ∀ electionId, NoOverlap db electionId := by
  refine forall_congr' fun electionId => ?_
  rw [← canonical_nodup_iff h]
  refine ⟨And.left, fun hnodup => ⟨hnodup, fun level areaCode => ?_⟩⟩
  exact hnodup.sublist ((collatedRows_sublist h level areaCode).map _)

end Inec
