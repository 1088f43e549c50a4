import Mathlib.Data.List.Count
import Inec.Declaration.Assessment

/-!
# The completeness gate

`assessDeclaration` adds up the polling units of each status, so a unit with results in two statuses
is counted twice, and so is a code that is no polling unit at all. Each such extra count stands in for
one polling unit without a result. The gate is sound exactly when there are fewer of them than polling
units to hide.
-/

namespace Inec

section Counting

variable (db : Tables) (ids : List Int)

/-- A result of the family that accounts for its polling unit. -/
def accounts (r : ResultRow) : Bool :=
  ids.contains r.electionId && (r.status == .finalized || r.status == .disputed || r.status == .voided)

/-- The polling unit has a finalized, disputed or voided result in the family. -/
def Accounted (code : String) : Prop := ∃ r ∈ db.results, accounts ids r = true ∧ r.pollingUnitCode = code

instance (code : String) : Decidable (Accounted db ids code) :=
  inferInstanceAs (Decidable (∃ r ∈ db.results, accounts ids r = true ∧ r.pollingUnitCode = code))

def missingUnits : Nat := (db.pollingUnits.filter fun pu => ¬ Accounted db ids pu.code).length

/-- The codes that accounting results carry, each once. -/
def countedCodes : List String := ((db.results.filter (accounts ids)).map (·.pollingUnitCode)).dedup

/-- The statuses under which a code is counted. -/
def statusesAt (code : String) : List ResultStatus :=
  [ResultStatus.finalized, .disputed, .voided].filter fun s =>
    db.results.any fun r => ids.contains r.electionId && r.status == s && r.pollingUnitCode == code

def isUnit (code : String) : Bool := db.pollingUnits.any fun pu => pu.code == code

/-- How often a code is counted beyond the one time a polling unit should be. -/
def surplusCounts : Nat :=
  ((countedCodes db ids).map fun code =>
    (statusesAt db ids code).length - (if isUnit db code then 1 else 0)).sum

variable {db ids}

theorem mem_countedCodes {code : String} : code ∈ countedCodes db ids ↔ Accounted db ids code := by
  simp only [countedCodes, List.mem_dedup, List.mem_map, List.mem_filter, Accounted, and_assoc]

theorem mem_statusUnits {s : ResultStatus} {code : String} :
    code ∈ statusUnits db ids s ↔
      (db.results.any fun r => ids.contains r.electionId && r.status == s && r.pollingUnitCode == code) =
        true := by
  simp only [statusUnits, List.mem_dedup, List.mem_map, List.mem_filter, List.any_eq_true,
    Bool.and_eq_true, beq_iff_eq, and_assoc]

theorem nodup_countedCodes : (countedCodes db ids).Nodup := List.nodup_dedup _

theorem nodup_statusUnits (s : ResultStatus) : (statusUnits db ids s).Nodup := List.nodup_dedup _

theorem accounted_of_mem_statusUnits {s : ResultStatus} {code : String}
    (hs : s = .finalized ∨ s = .disputed ∨ s = .voided) (h : code ∈ statusUnits db ids s) :
    Accounted db ids code := by
  simp only [mem_statusUnits, List.any_eq_true, Bool.and_eq_true, beq_iff_eq] at h
  obtain ⟨r, hr, ⟨hid, hstatus⟩, hcode⟩ := h
  refine ⟨r, hr, ?_, hcode⟩
  rcases hs with rfl | rfl | rfl <;> simp only [accounts, hid, hstatus] <;> rfl

/-- The units of one status are the counted codes that have the status. -/
theorem length_statusUnits {s : ResultStatus} (hs : s = .finalized ∨ s = .disputed ∨ s = .voided) :
    (statusUnits db ids s).length =
      ((countedCodes db ids).filter fun code => decide (code ∈ statusUnits db ids s)).length := by
  apply List.Perm.length_eq
  rw [List.perm_ext_iff_of_nodup (nodup_statusUnits s) (nodup_countedCodes.filter _)]
  intro code
  rw [List.mem_filter, decide_eq_true_iff, mem_countedCodes]
  exact ⟨fun h => ⟨accounted_of_mem_statusUnits hs h, h⟩, And.right⟩

theorem length_statusesAt (code : String) :
    (statusesAt db ids code).length =
      (if code ∈ statusUnits db ids .finalized then 1 else 0) +
        (if code ∈ statusUnits db ids .disputed then 1 else 0) +
        (if code ∈ statusUnits db ids .voided then 1 else 0) := by
  simp only [mem_statusUnits, statusesAt, List.filter_cons, List.filter_nil]
  split_ifs <;> rfl

theorem one_le_length_statusesAt {code : String} (h : code ∈ countedCodes db ids) :
    1 ≤ (statusesAt db ids code).length := by
  obtain ⟨r, hr, haccounts, hcode⟩ := mem_countedCodes.mp h
  simp only [accounts, Bool.and_eq_true, Bool.or_eq_true, beq_iff_eq] at haccounts
  apply List.length_pos_of_mem (a := r.status)
  simp only [statusesAt, List.mem_filter, List.any_eq_true, Bool.and_eq_true, beq_iff_eq]
  refine ⟨?_, r, hr, ⟨haccounts.1, rfl⟩, hcode⟩
  rcases haccounts.2 with (hs | hs) | hs <;> simp [hs]

/-- Adding up the statuses counts every code once for each status it has. -/
theorem length_statusUnits_add (db : Tables) (ids : List Int) :
    (statusUnits db ids .finalized).length + (statusUnits db ids .disputed).length +
        (statusUnits db ids .voided).length =
      ((countedCodes db ids).map fun code => (statusesAt db ids code).length).sum := by
  rw [length_statusUnits (Or.inl rfl), length_statusUnits (Or.inr (Or.inl rfl)),
    length_statusUnits (Or.inr (Or.inr rfl))]
  simp only [length_statusesAt, ← List.countP_eq_length_filter]
  induction countedCodes db ids with
  | nil => rfl
  | cons code rest ih =>
      simp only [List.countP_cons, List.map_cons, List.sum_cons, decide_eq_true_eq]
      rw [← ih]
      omega

theorem sum_statusesAt_eq_surplus_add :
    ((countedCodes db ids).map fun code => (statusesAt db ids code).length).sum =
      surplusCounts db ids + ((countedCodes db ids).filter (isUnit db)).length := by
  have hpos : ∀ code ∈ countedCodes db ids, 1 ≤ (statusesAt db ids code).length :=
    fun code h => one_le_length_statusesAt h
  rw [surplusCounts, ← List.countP_eq_length_filter]
  revert hpos
  induction countedCodes db ids with
  | nil => intro _; rfl
  | cons code rest ih =>
      intro hpos
      have hrest := ih fun c hc => hpos c (List.mem_cons_of_mem _ hc)
      have hcode := hpos code List.mem_cons_self
      simp only [List.map_cons, List.sum_cons, List.countP_cons]
      rw [hrest]
      split_ifs <;> omega

/-- The accounted polling units are the counted codes that are polling units. -/
theorem length_accounted (hcodes : (db.pollingUnits.map (·.code)).Nodup) :
    (db.pollingUnits.filter fun pu => Accounted db ids pu.code).length =
      ((countedCodes db ids).filter (isUnit db)).length := by
  have hmap : (db.pollingUnits.filter fun pu => Accounted db ids pu.code).length =
      ((db.pollingUnits.filter fun pu => Accounted db ids pu.code).map (·.code)).length := by
    rw [List.length_map]
  rw [hmap]
  apply List.Perm.length_eq
  have hsub : List.Sublist ((db.pollingUnits.filter fun pu => Accounted db ids pu.code).map (·.code))
      (db.pollingUnits.map (·.code)) := List.filter_sublist.map _
  rw [List.perm_ext_iff_of_nodup (hcodes.sublist hsub) (nodup_countedCodes.filter _)]
  intro code
  simp only [List.mem_map, List.mem_filter, decide_eq_true_eq, isUnit, List.any_eq_true, beq_iff_eq,
    mem_countedCodes]
  constructor
  · rintro ⟨pu, ⟨hpu, haccounted⟩, rfl⟩
    exact ⟨haccounted, pu, hpu, rfl⟩
  · rintro ⟨haccounted, pu, hpu, rfl⟩
    exact ⟨pu, ⟨hpu, haccounted⟩, rfl⟩

/-- The gate opens when the extra counts make up for the missing units. -/
theorem complete_iff_missing_le_surplus (hcodes : (db.pollingUnits.map (·.code)).Nodup)
    (order : IterationOrder) (e : Election) :
    (assessment order db e).complete = true ↔
      missingUnits db (electionIDsWithChildren db e.id) ≤
        surplusCounts db (electionIDsWithChildren db e.id) := by
  have hsum := length_statusUnits_add db (electionIDsWithChildren db e.id)
  rw [sum_statusesAt_eq_surplus_add, ← length_accounted hcodes] at hsum
  have hsplit := List.length_eq_length_filter_add
    (l := db.pollingUnits) fun pu => decide (Accounted db (electionIDsWithChildren db e.id) pu.code)
  simp only [assessment, beq_iff_eq, missingUnits]
  simp only [decide_not] at hsplit ⊢
  omega

end Counting

/-- `Complete` means that every polling unit is accounted for exactly when no unit is missing or the
extra counts are fewer than the missing units. -/
theorem complete_accounts_iff (db : Database) (order : IterationOrder) (electionId : Int) :
    (∀ a, assessDeclaration order db.tables electionId = .ok a → a.complete = true →
        ∀ pu ∈ db.tables.pollingUnits,
          Accounted db.tables (electionIDsWithChildren db.tables electionId) pu.code) ↔
      (db.tables.election? electionId = none ∨
        missingUnits db.tables (electionIDsWithChildren db.tables electionId) = 0 ∨
        surplusCounts db.tables (electionIDsWithChildren db.tables electionId) <
          missingUnits db.tables (electionIDsWithChildren db.tables electionId)) := by
  have hmissing : missingUnits db.tables (electionIDsWithChildren db.tables electionId) = 0 ↔
      ∀ pu ∈ db.tables.pollingUnits,
        Accounted db.tables (electionIDsWithChildren db.tables electionId) pu.code := by
    simp [missingUnits, List.length_eq_zero_iff, List.filter_eq_nil_iff]
  cases hfind : db.tables.election? electionId with
  | none => simp [assessDeclaration_eq_ok, hfind]
  | some e =>
      have hid : e.id = electionId := (Tables.mem_of_election? hfind).2
      have hcomplete := complete_iff_missing_le_surplus db.constraints.pollingUnitCodes order e
      rw [hid] at hcomplete
      simp only [assessDeclaration_eq_ok, hfind, Option.some.injEq, ← hmissing]
      constructor
      · intro h
        by_cases hle : missingUnits db.tables (electionIDsWithChildren db.tables electionId) ≤
            surplusCounts db.tables (electionIDsWithChildren db.tables electionId)
        · exact Or.inr (Or.inl (h _ ⟨e, rfl, rfl⟩ (hcomplete.mpr hle)))
        · exact Or.inr (Or.inr (by omega))
      · rintro (h | h | h) a ⟨e', rfl, rfl⟩ ha
        · simp at h
        · exact h
        · have := hcomplete.mp ha
          omega

/-- Two polling units, the first with an annulled and a recaptured result, the second with none. -/
def recapturedUnit : Tables :=
  { Tables.empty with
    pollingUnits := [⟨"PU-1", "W-1", 500⟩, ⟨"PU-2", "W-1", 500⟩]
    elections := [.bare 1 .gubernatorial .collating]
    results := [.bare 1 1 "PU-1" .voided, .bare 2 1 "PU-1" .finalized] }

theorem complete_without_second_unit :
    ¬ ∀ (db : Database) (order : IterationOrder) (electionId : Int) (a : DeclarationAssessment),
      assessDeclaration order db.tables electionId = .ok a → a.complete = true →
        ∀ pu ∈ db.tables.pollingUnits,
          Accounted db.tables (electionIDsWithChildren db.tables electionId) pu.code := by
  intro h
  have hunit := h ⟨recapturedUnit, by decide⟩ (Env.plain 1 "chair" .admin 0).order 1 _ rfl (by decide)
    ⟨"PU-2", "W-1", 500⟩ (by decide)
  exact absurd hunit (by decide)

end Inec
