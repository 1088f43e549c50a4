import Inec.Declaration.Assessment

/-!
# Affected voters

The margin-of-lead rule compares the margin with the registered voters of the units whose results were
voided or are disputed. The query sums over result rows of the whole election family, so a unit with
two such rows is counted twice, and a unit that a rerun has settled is still counted. `openVoters` is
what the rule is meant to compare with.
-/

namespace Inec

/-! ### The ranking is a ranking -/

section Ranking

variable {order : IterationOrder} {db : Tables} {electionId : Int}

theorem rankedTotals_perm :
    (rankedTotals order db electionId).Perm
      ((partiesOf db (collatedRows db electionId .national "NG")).map fun p =>
        (p, partySum db (collatedRows db electionId .national "NG") p)) :=
  (ExchangeSort.sort_perm _).trans ((order.perm _).map _)

theorem rankedTotals_sorted :
    (rankedTotals order db electionId).Pairwise fun x y => y.2 ≤ x.2 := ExchangeSort.sort_sorted _

theorem margin_nonneg {ranked : List (String × Int)} (h : ranked.Pairwise fun x y => y.2 ≤ x.2) :
    0 ≤ (leaders ranked).margin := by
  match ranked with
  | [] => exact Int.le_refl 0
  | [_] => exact Int.le_refl 0
  | winner :: runnerUp :: rest =>
      have hle := (List.pairwise_cons.mp h).1 runnerUp List.mem_cons_self
      change 0 ≤ winner.2 - runnerUp.2
      omega

end Ranking

/-! ### Rows and units -/

section Units

variable (db : Tables) (electionId : Int)

/-- The voided and disputed results of the family at a unit. -/
def affectedRowsAt (code : String) : Nat :=
  (affectedRows db (electionIDsWithChildren db electionId)).countP fun r => code == r.pollingUnitCode

/-- The unit has a canonical finalized result. -/
def Settled (code : String) : Prop := code ∈ (canonical db electionId).map (·.1)

instance (code : String) : Decidable (Settled db electionId code) :=
  inferInstanceAs (Decidable (code ∈ (canonical db electionId).map (·.1)))

/-- The units that are still open: a voided or disputed result and no canonical one. -/
def openUnits : List PollingUnit :=
  db.pollingUnits.filter fun pu =>
    0 < affectedRowsAt db electionId pu.code && ¬ Settled db electionId pu.code

def openVoters : Nat := ((openUnits db electionId).map (·.registeredVoters)).sum

variable {db electionId}

theorem affectedVoters_eq :
    affectedVoters db (electionIDsWithChildren db electionId) =
      (db.pollingUnits.map fun pu => pu.registeredVoters * affectedRowsAt db electionId pu.code).sum :=
  Sums.sum_weights_eq (fun (r : ResultRow) (pu : PollingUnit) => pu.code == r.pollingUnitCode) _ _ _

theorem openVoters_eq :
    openVoters db electionId = (db.pollingUnits.map fun pu =>
      if 0 < affectedRowsAt db electionId pu.code && ¬ Settled db electionId pu.code then
        pu.registeredVoters else 0).sum :=
  Sums.sum_map_filter _ _ _

theorem open_term_le (pu : PollingUnit) :
    (if 0 < affectedRowsAt db electionId pu.code && ¬ Settled db electionId pu.code then
        pu.registeredVoters else 0) ≤ pu.registeredVoters * affectedRowsAt db electionId pu.code := by
  split
  · rename_i h
    simp only [Bool.and_eq_true, decide_eq_true_eq] at h
    exact Nat.le_mul_of_pos_right _ h.1
  · exact Nat.zero_le _

/-- The query never counts fewer voters than the open units have. -/
theorem openVoters_le_affectedVoters :
    openVoters db electionId ≤ affectedVoters db (electionIDsWithChildren db electionId) := by
  rw [openVoters_eq, affectedVoters_eq]
  exact Sums.sum_map_le fun pu _ => open_term_le pu

/-- The term of one unit is right when the unit has one affected row and is open, or has none. -/
theorem open_term_eq_iff (pu : PollingUnit) :
    (if 0 < affectedRowsAt db electionId pu.code && ¬ Settled db electionId pu.code then
        pu.registeredVoters else 0) = pu.registeredVoters * affectedRowsAt db electionId pu.code ↔
      (0 < pu.registeredVoters → affectedRowsAt db electionId pu.code ≤ 1 ∧
        (affectedRowsAt db electionId pu.code = 1 → ¬ Settled db electionId pu.code)) := by
  rcases Nat.eq_zero_or_pos pu.registeredVoters with hzero | hpos
  · simp [hzero]
  · generalize affectedRowsAt db electionId pu.code = n
    by_cases hsettled : Settled db electionId pu.code
    · simp only [hsettled, not_true_eq_false, decide_false, Bool.and_false, Bool.false_eq_true, if_false]
      constructor
      · intro h
        rcases Nat.mul_eq_zero.mp h.symm with h | h
        · omega
        · exact fun _ => ⟨by omega, by omega⟩
      · intro h
        obtain ⟨hle, hone⟩ := h hpos
        have hn : n = 0 := by
          rcases Nat.le_one_iff_eq_zero_or_eq_one.mp hle with h | h
          · exact h
          · exact (hone h).elim
        simp [hn]
    · simp only [hsettled, not_false_eq_true, decide_true, Bool.and_true, decide_eq_true_eq]
      constructor
      · intro h _
        refine ⟨?_, fun _ => trivial⟩
        by_contra hgt
        rw [if_pos (by omega)] at h
        have : pu.registeredVoters * 2 ≤ pu.registeredVoters * n := Nat.mul_le_mul_left _ (by omega)
        omega
      · intro h
        obtain ⟨hle, -⟩ := h hpos
        rcases Nat.le_one_iff_eq_zero_or_eq_one.mp hle with rfl | rfl <;> simp

end Units

/-- Once no unit is open, the rule has nothing to compare the margin with. -/
def RerunSettles (order : IterationOrder) (db : Tables) (electionId : Int) (a : DeclarationAssessment) :
    Prop :=
  (∀ pu ∈ db.pollingUnits, 0 < affectedRowsAt db electionId pu.code → Settled db electionId pu.code) →
    a.affectedVoters = 0 ∧ marginTooSmall (rankedTotals order db electionId) a.affectedVoters = false

/-- `AffectedVoters` is the registered voters of the open units, and a rerun that settles every unit
clears it, exactly when every unit with voters has at most one voided or disputed result in the family
and is not settled if it has one. -/
theorem affectedVoters_exact_iff (db : Database) (order : IterationOrder) (electionId : Int) :
    (∀ a, assessDeclaration order db.tables electionId = .ok a →
        a.affectedVoters = openVoters db.tables electionId ∧ RerunSettles order db.tables electionId a) ↔
      (db.tables.election? electionId = none ∨
        ∀ pu ∈ db.tables.pollingUnits, 0 < pu.registeredVoters →
          affectedRowsAt db.tables electionId pu.code ≤ 1 ∧
            (affectedRowsAt db.tables electionId pu.code = 1 → ¬ Settled db.tables electionId pu.code)) := by
  have hterms : openVoters db.tables electionId =
      affectedVoters db.tables (electionIDsWithChildren db.tables electionId) ↔
      ∀ pu ∈ db.tables.pollingUnits, 0 < pu.registeredVoters →
        affectedRowsAt db.tables electionId pu.code ≤ 1 ∧
          (affectedRowsAt db.tables electionId pu.code = 1 → ¬ Settled db.tables electionId pu.code) := by
    rw [openVoters_eq, affectedVoters_eq, Sums.sum_map_eq_iff_of_le fun pu _ => open_term_le pu]
    exact forall₂_congr fun pu _ => open_term_eq_iff pu
  cases hfind : db.tables.election? electionId with
  | none => simp [assessDeclaration_eq_ok, hfind]
  | some e =>
      obtain rfl : e.id = electionId := (Tables.mem_of_election? hfind).2
      have haffected : (assessment order db.tables e).affectedVoters =
          affectedVoters db.tables (electionIDsWithChildren db.tables e.id) := rfl
      simp only [assessDeclaration_eq_ok, hfind, Option.some.injEq, reduceCtorEq, false_or]
      rw [← hterms]
      constructor
      · intro h
        exact ((h _ ⟨e, rfl, rfl⟩).1).symm.trans haffected
      · rintro h a ⟨e', rfl, rfl⟩
        refine ⟨haffected.trans h.symm, ?_⟩
        intro hsettled
        have hopen : openVoters db.tables e.id = 0 := by
          rw [openVoters, openUnits, List.filter_eq_nil_iff.mpr]
          · rfl
          · intro pu hpu
            simp only [Bool.and_eq_true, decide_eq_true_eq, not_and, not_not]
            exact hsettled pu hpu
        have hzero : (assessment order db.tables e).affectedVoters = 0 := haffected.trans (h ▸ hopen)
        refine ⟨hzero, ?_⟩
        rw [hzero, marginTooSmall, Bool.and_eq_false_iff, decide_eq_false_iff_not, decide_eq_false_iff_not]
        have hnonneg : 0 ≤ (leaders (rankedTotals order db.tables e.id)).margin :=
          margin_nonneg rankedTotals_sorted
        omega

/-- A general election annulled at its one unit, and a rerun that is finalized there. -/
def settledByRerun : Tables :=
  { Tables.empty with
    pollingUnits := [⟨"PU-1", "W-1", 500⟩]
    wards := [⟨"W-1", "L-1"⟩]
    lgas := [⟨"L-1", "S-1"⟩]
    elections := [.bare 1 .gubernatorial .collating,
      { Election.bare 2 .gubernatorial .collating with electionKind := .rerun, parentElectionId := some 1 }]
    rerunScopes := [⟨2, .pollingUnit, "PU-1", "", ""⟩]
    results := [.bare 1 1 "PU-1" .voided, .bare 2 2 "PU-1" .finalized]
    resultPartyScores := [⟨2, "APC", 200⟩, ⟨2, "LP", 150⟩] }

/-- The rerun has settled the only affected unit, and the election is still inconclusive. -/
theorem not_affectedVoters_exact :
    ¬ ∀ (db : Database) (order : IterationOrder) (electionId : Int) (a : DeclarationAssessment),
      assessDeclaration order db.tables electionId = .ok a →
        a.affectedVoters = openVoters db.tables electionId ∧ RerunSettles order db.tables electionId a := by
  intro h
  have hexact := (h ⟨settledByRerun, by decide⟩ (Env.plain 1 "chair" .admin 0).order 1 _ rfl).1
  exact absurd hexact (by decide)

end Inec
