import Inec.Results.Duplicates

/-!
# Figures that break a rule

`ValidateEC8A` has five arithmetic rules. Two of them are hard, and no figures that break one are stored. The
other three are soft: an officer may record such figures with an override reason, and a correction may have
them. Such a result is reviewed like any other, and can be validated and finalized.

A form EC8A brings the number of registered voters along, and rule 1 is checked against that.
-/

namespace Inec

open Checks

variable (sha256Hex : String → String)

/-- The arithmetic rules of `ValidateEC8A`, in its order. -/
inductive ArithmeticRule
  | accreditedWithinRegistered | polledWithinAccredited | validAndRejectedArePolled | partiesSumToValid
  | partyWithinAccredited
  deriving DecidableEq, Repr

def ArithmeticRule.hard : ArithmeticRule → Bool
  | .validAndRejectedArePolled => true
  | .partiesSumToValid => true
  | _ => false

def FormEC8A.Breaks (form : FormEC8A) : ArithmeticRule → Prop
  | .accreditedWithinRegistered => form.accreditedVoters > form.registeredVoters
  | .polledWithinAccredited => form.totalVotesPolled > form.accreditedVoters
  | .validAndRejectedArePolled => form.totalValidVotes + form.rejectedBallots ≠ form.totalVotesPolled
  | .partiesSumToValid => partySumOf form.partyResults ≠ form.totalValidVotes
  | .partyWithinAccredited => ∃ entry ∈ form.partyResults, form.accreditedVoters < entry.votes

instance (form : FormEC8A) (rule : ArithmeticRule) : Decidable (form.Breaks rule) := by
  cases rule <;> unfold FormEC8A.Breaks <;> infer_instance

/-- A stored result as a form, with the registered voters of its polling unit. -/
def storedForm (units : List PollingUnit) (r : ResultRow) (scores : List PartyVoteEntry) : FormEC8A :=
  { formOf r.electionId r.pollingUnitCode
      (((units.find? fun pu => pu.code == r.pollingUnitCode).map
        (·.registeredVoters)).getD 0) scores r.accreditedVoters
      r.rejectedVotes with
    totalVotesPolled := r.totalVotesCast
    totalValidVotes := r.totalValidVotes }

/-- The result is one the collation may count: validated, or finalized. -/
def ResultRow.admitted (r : ResultRow) : Bool := r.status == .validated || r.status == .finalized

/-- No result that breaks a rule is validated or finalized. -/
def RulesKept (db : Tables) : Prop :=
  ∀ r ∈ db.results, r.admitted = true → ∀ rule, ¬(storedForm db.pollingUnits r (partyEntries db r.id)).Breaks rule

/-- The rules are kept, but for soft ones that a reason is recorded for. Of a form EC8A, rule 1 is left open. -/
def BreaksWithReason (units : List PollingUnit) (r : ResultRow) (scores : List PartyVoteEntry) : Prop :=
  ∀ rule, (storedForm units r scores).Breaks rule →
    (rule = .accreditedWithinRegistered ∧ FromForm sha256Hex r) ∨
      (rule.hard = false ∧ r.correctionReason.isSome = true)

variable {sha256Hex}

/-! ### The rules and their texts -/

/-- A form that passes breaks no rule. -/
theorem not_breaks_of_passes {form : FormEC8A} (h : validateEC8A form = []) (rule : ArithmeticRule) :
    ¬form.Breaks rule := by
  simp only [validateEC8A, List.append_eq_nil_iff] at h
  obtain ⟨⟨⟨⟨⟨⟨hregistered, hpolled⟩, hsum⟩, hparties⟩, hparty⟩, -⟩, -⟩ := h
  have hpassed : ∀ (p : Prop) [Decidable p] (text : String), (if p then [text] else []) = [] → ¬p := by
    intro p _ text hnil hp
    rw [if_pos hp] at hnil
    cases hnil
  cases rule with
  | accreditedWithinRegistered => exact hpassed _ _ hregistered
  | polledWithinAccredited => exact hpassed _ _ hpolled
  | validAndRejectedArePolled => exact hpassed _ _ hsum
  | partiesSumToValid => exact hpassed _ _ hparties
  | partyWithinAccredited =>
      rintro ⟨entry, hentry, hlt⟩
      have hnone := List.filter_eq_nil_iff.mp (List.map_eq_nil_iff.mp hparty) entry hentry
      exact hnone (decide_eq_true hlt)

/-- Totals that are computed from the scores add up. -/
theorem formOf_keeps_hard (electionId : Int) (code : String) (registered : Int) (scores : List PartyVoteEntry)
    (accredited rejected : Int) {rule : ArithmeticRule} (h : rule.hard = true) :
    ¬(formOf electionId code registered scores accredited rejected).Breaks rule := by
  cases rule with
  | validAndRejectedArePolled => exact fun hne => hne rfl
  | partiesSumToValid => exact fun hne => hne rfl
  | accreditedWithinRegistered => cases h
  | polledWithinAccredited => cases h
  | partyWithinAccredited => cases h

/-! ### Where rows come in -/

section Doors

variable {env : Env} {db base : Tables} {op : Op} {row : ResultRow} {scores : List PartyVoteEntry}

/-- An ingested row breaks a rule only if an override reason let it. -/
theorem checkIngested_breaks {res : IngestedResult} (h : checkIngested db res = .ok ()) :
    BreaksWithReason sha256Hex db.pollingUnits (ingestedRow sha256Hex db res) res.partyScores := by
  simp only [checkIngested, bind_eq_ok, fetch_eq_ok, require_eq_ok] at h
  obtain ⟨pu, hpu, _, _, _, _, htolerated⟩ := h
  have hform : storedForm db.pollingUnits (ingestedRow sha256Hex db res) res.partyScores =
      formOf res.electionId res.pollingUnitCode pu.registeredVoters res.partyScores res.accreditedVoters
        res.rejectedVotes := by
    simp only [storedForm, ingestedRow]
    rw [show db.pollingUnits.find? (fun pu => pu.code == res.pollingUnitCode) = some pu from hpu]
    rfl
  intro rule hbreaks
  right
  rw [hform] at hbreaks
  refine ⟨?_, ?_⟩
  · cases hhard : rule.hard with
    | false => rfl
    | true => exact absurd hbreaks (formOf_keeps_hard _ _ _ _ _ _ hhard)
  · rw [violationsTolerated, Bool.or_eq_true, Bool.and_eq_true] at htolerated
    rcases htolerated with hnone | ⟨hreason, -⟩
    · exact absurd hbreaks (not_breaks_of_passes (List.isEmpty_iff.mp hnone) rule)
    · have hne : res.overrideReason ≠ "" := bne_iff_ne.mp hreason
      simp [ingestedRow, nullStringArg, hne]

theorem Inserts.breaksWithReason (h : Inserts sha256Hex env db op base row scores) :
    BreaksWithReason sha256Hex db.pollingUnits row scores := by
  cases h with
  | ingested checked => exact checkIngested_breaks checked
  | submitted _ applied => exact checkIngested_breaks applied
  | @form form checked =>
      simp only [checkForm, bind_eq_ok, require_eq_ok] at checked
      obtain ⟨_, _, _, _, _, hpasses, _⟩ := checked
      intro rule hbreaks
      left
      refine ⟨?_, form, rfl⟩
      -- the other rules do not look at the registered voters
      have hkept := not_breaks_of_passes (List.isEmpty_iff.mp hpasses) rule
      cases rule with
      | accreditedWithinRegistered => rfl
      | polledWithinAccredited => exact absurd hbreaks hkept
      | validAndRejectedArePolled => exact absurd hbreaks hkept
      | partiesSumToValid => exact absurd hbreaks hkept
      | partyWithinAccredited => exact absurd hbreaks hkept
  | @corrected id req r checked =>
      intro rule hbreaks
      right
      refine ⟨?_, rfl⟩
      cases hhard : rule.hard with
      | false => rfl
      | true => exact absurd hbreaks (formOf_keeps_hard _ _ _ _ _ _ hhard)

end Doors

theorem BreaksWithReason.sameSheet {units : List PollingUnit} {r r' : ResultRow} {scores : List PartyVoteEntry}
    (hsheet : r.SameSheet r') (h : BreaksWithReason sha256Hex units r scores) :
    BreaksWithReason sha256Hex units r' scores := by
  rw [hsheet]
  exact h

theorem step_breaksWithReason (units : List PollingUnit) (d : Database) (request : Request)
    (h : d.tables.pollingUnits = units ∧ SheetsHold (BreaksWithReason sha256Hex units) d.tables) :
    (step sha256Hex d request).tables.pollingUnits = units ∧
      SheetsHold (BreaksWithReason sha256Hex units) (step sha256Hex d request).tables := by
  obtain ⟨hunits, hsheets⟩ := h
  refine ⟨(step_register d request).1.trans hunits, ?_⟩
  apply step_sheetsHold hsheets
  · intro r r' scores hsheet hbreaks
    exact hbreaks.sameSheet hsheet
  · intro base row scores insertion
    rw [← hunits]
    exact insertion.breaksWithReason

/-! ### Rules that are broken all the same -/

theorem finalized_of_mem_canonical {db : Tables} {electionId : Int} {c : String × Int}
    (h : c ∈ canonical db electionId) :
    ∃ r ∈ db.results, r.status = .finalized ∧ c = (r.pollingUnitCode, r.id) := by
  rcases List.mem_append.mp h with hparent | hchild
  · obtain ⟨r, hr, hstatus, -, -, rfl⟩ := mem_parentResults.mp hparent
    exact ⟨r, hr, hstatus, rfl⟩
  · obtain ⟨r, hr, hstatus, -, rfl⟩ := mem_childResults.mp hchild
    exact ⟨r, hr, hstatus, rfl⟩

/-- The row that breaks the rule is found by a search. -/
theorem not_rulesKept {db : Tables} (rule : ArithmeticRule) (h : (db.results.any fun r =>
    r.admitted && decide ((storedForm db.pollingUnits r (partyEntries db r.id)).Breaks rule)) = true) :
    ¬RulesKept db := by
  intro hkept
  obtain ⟨r, hr, hadmitted⟩ := List.any_eq_true.mp h
  rw [Bool.and_eq_true, decide_eq_true_iff] at hadmitted
  exact hkept r hr hadmitted.1 rule hadmitted.2

/-- More accredited than registered voters, with a reason. -/
def throughOverride : List Request :=
  inTurn [.submit ⟨1, "PU-1", [⟨"APC", 60⟩, ⟨"LP", 40⟩], 250, 0, true, "", "two registers merged"⟩, .validate 1,
    .finalize 1]

/-- More votes than accredited voters, put in by a correction. -/
def throughCorrection : List Request :=
  inTurn [.submit ⟨1, "PU-1", [⟨"APC", 60⟩, ⟨"LP", 40⟩], 150, 0, true, "", ""⟩,
    .correct 1 ⟨[⟨"APC", 60⟩, ⟨"LP", 40⟩], 90, 0, "recount", none⟩, .validate 2]

end Inec
