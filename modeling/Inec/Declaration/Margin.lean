import Mathlib.Algebra.BigOperators.Group.Finset.Piecewise
import Inec.Declaration.Affected
import Inec.Declaration.Ranking

/-!
# The margin of lead

What the margin-of-lead rule promises about the units that are still open. However their registered
voters vote, a winner that the rule lets through is not overtaken by a party it was compared with. At
the boundary, where the affected voters equal the margin, the rule lets the election through and a tie
remains possible: the rule asks that the affected voters do not exceed the margin.
-/

namespace Inec

/-- Votes still to come, by polling unit and party. -/
def LateVotes := String → String → Nat

/-- Each open unit gets at most its registered voters. -/
def LateVotes.Fits (votes : LateVotes) (units : List PollingUnit) : Prop :=
  ∀ pu ∈ units, ∀ parties : Finset String, ∑ p ∈ parties, votes pu.code p ≤ pu.registeredVoters

/-- What a party gains from the open units. -/
def LateVotes.gain (votes : LateVotes) (units : List PollingUnit) (party : String) : Nat :=
  (units.map fun pu => votes pu.code party).sum

/-- The canonical national total of a party, 0 when it has none. -/
def nationalTotal (db : Tables) (electionId : Int) (party : String) : Int :=
  partySum db (collatedRows db electionId .national "NG") party

/-- The parties with a canonical total. -/
def scoringParties (db : Tables) (electionId : Int) : List String :=
  partiesOf db (collatedRows db electionId .national "NG")

/-- Two parties together gain at most the registered voters of the open units. -/
theorem gain_add_gain_le {votes : LateVotes} {units : List PollingUnit} (h : votes.Fits units)
    {p q : String} (hpq : p ≠ q) :
    votes.gain units p + votes.gain units q ≤ (units.map (·.registeredVoters)).sum := by
  rw [LateVotes.gain, LateVotes.gain, ← List.sum_map_add]
  refine Sums.sum_map_le fun pu hpu => ?_
  have hpair := h pu hpu {p, q}
  rwa [Finset.sum_pair hpq] at hpair

section Leaders

variable {order : IterationOrder} {db : Tables} {electionId : Int}

theorem length_rankedTotals :
    (rankedTotals order db electionId).length = (scoringParties db electionId).length := by
  rw [rankedTotals_perm.length_eq, List.length_map]
  rfl

theorem leaders_margin {ranked : List (String × Int)} (h : 1 < ranked.length) :
    (leaders ranked).margin = (leaders ranked).winnerVotes - (leaders ranked).runnerUpVotes := by
  match ranked with
  | [] => simp only [List.length_nil] at h; omega
  | [_] => simp only [List.length_singleton] at h; omega
  | _ :: _ :: _ => rfl

/-- With two scoring parties, the margin is the winner's lead over the best of the others. -/
theorem leaders_spec (order : IterationOrder) (hparties : 1 < (scoringParties db electionId).length) :
    let lead := leaders (rankedTotals order db electionId)
    lead.winnerVotes = nationalTotal db electionId lead.winnerParty ∧
      lead.margin = lead.winnerVotes - lead.runnerUpVotes ∧
      ∀ q ∈ scoringParties db electionId, q ≠ lead.winnerParty →
        nationalTotal db electionId q ≤ lead.runnerUpVotes := by
  have hright := @PartyTotals.rankedRightly (nationalTotals db electionId) order
  have hsome : (nationalTotals db electionId).parties ≠ [] := by
    apply List.ne_nil_of_length_pos
    exact lt_trans Nat.zero_lt_one hparties
  obtain ⟨-, hwinner, -⟩ := hright.winner hsome
  obtain ⟨-, -, -, hrest⟩ := hright.runnerUp hparties
  have hmany : 1 < (rankedTotals order db electionId).length := by
    rw [length_rankedTotals]
    exact hparties
  exact ⟨hwinner, leaders_margin hmany, hrest⟩

end Leaders

theorem nationalTotal_eq_zero {db : Tables} {electionId : Int} {q : String}
    (hq : q ∉ scoringParties db electionId) : nationalTotal db electionId q = 0 := partySum_eq_zero hq

/-- The argument in terms of the leaders: the open units cannot make up a lead that covers them. -/
theorem leader_not_overtaken {db : Tables} (order : IterationOrder) {electionId : Int}
    (hcount : 1 < (scoringParties db electionId).length) {votes : LateVotes}
    (hfits : votes.Fits (openUnits db electionId)) {q : String} :
    let lead := leaders (rankedTotals order db electionId)
    let affected := affectedVoters db (electionIDsWithChildren db electionId)
    let final := fun party => nationalTotal db electionId party + votes.gain (openUnits db electionId) party
    affected ≤ lead.margin → q ≠ lead.winnerParty →
      (q ∈ scoringParties db electionId ∨ 0 ≤ lead.runnerUpVotes) →
      final q ≤ final lead.winnerParty ∧ (affected < lead.margin → final q < final lead.winnerParty) := by
  intro lead affected final hrule hq hscore
  have hspec := leaders_spec order hcount
  have hwinner : lead.winnerVotes = nationalTotal db electionId lead.winnerParty := hspec.1
  have hmargin : lead.margin = lead.winnerVotes - lead.runnerUpVotes := hspec.2.1
  have hopen : openVoters db electionId ≤ affected := openVoters_le_affectedVoters
  have hgain : votes.gain (openUnits db electionId) q +
      votes.gain (openUnits db electionId) lead.winnerParty ≤ openVoters db electionId :=
    gain_add_gain_le hfits hq
  have hrest : nationalTotal db electionId q ≤ lead.runnerUpVotes := by
    by_cases hmem : q ∈ scoringParties db electionId
    · exact hspec.2.2 q hmem hq
    · rw [nationalTotal_eq_zero hmem]
      exact hscore.resolve_left hmem
  change nationalTotal db electionId q + _ ≤ nationalTotal db electionId lead.winnerParty + _ ∧ (_ →
    nationalTotal db electionId q + _ < nationalTotal db electionId lead.winnerParty + _)
  rw [← hwinner]
  omega

/-- A winner that the rules let through stays ahead of every party with a total, and of the others too
unless the runner-up is below zero: at least level, and strictly ahead when the affected voters are
fewer than the margin. -/
theorem winner_not_overtaken {db : Tables} {order : IterationOrder} {electionId : Int}
    {a : DeclarationAssessment} (ha : assessDeclaration order db electionId = .ok a)
    (hconclusive : a.inconclusive = false) (hparties : 1 < a.partyTotals.length)
    {votes : LateVotes} (hfits : votes.Fits (openUnits db electionId)) {q : String}
    (hq : q ≠ a.winnerParty) (hscore : q ∈ scoringParties db electionId ∨ 0 ≤ a.runnerUpVotes) :
    nationalTotal db electionId q + votes.gain (openUnits db electionId) q ≤
        nationalTotal db electionId a.winnerParty + votes.gain (openUnits db electionId) a.winnerParty ∧
      (a.affectedVoters < a.margin →
        nationalTotal db electionId q + votes.gain (openUnits db electionId) q <
          nationalTotal db electionId a.winnerParty +
            votes.gain (openUnits db electionId) a.winnerParty) := by
  obtain ⟨e, hfind, rfl⟩ := assessDeclaration_eq_ok.mp ha
  obtain rfl : e.id = electionId := (Tables.mem_of_election? hfind).2
  have hcount : 1 < (scoringParties db e.id).length := by
    simpa [assessment, canonicalPartyTotals, scoringParties] using hparties
  have hrule : marginTooSmall (rankedTotals order db e.id)
      (affectedVoters db (electionIDsWithChildren db e.id)) = false := by
    have hall : (marginTooSmall (rankedTotals order db e.id)
        (affectedVoters db (electionIDsWithChildren db e.id)) ||
          (leaders (rankedTotals order db e.id)).tie || _) = false := hconclusive
    exact (Bool.or_eq_false_iff.mp (Bool.or_eq_false_iff.mp hall).1).1
  -- two parties score, so the rule was not skipped
  rw [marginTooSmall, length_rankedTotals, decide_eq_true hcount, Bool.true_and,
    decide_eq_false_iff_not, Int.not_lt] at hrule
  exact leader_not_overtaken order hcount hfits hrule hq hscore

/-- One unit decided 60 to 40, and an annulled unit with the given number of voters. -/
def annulledUnit (voters : Nat) : Tables :=
  { Tables.empty with
    pollingUnits := [⟨"PU-1", "W-1", 200⟩, ⟨"PU-2", "W-1", voters⟩]
    wards := [⟨"W-1", "L-1"⟩]
    lgas := [⟨"L-1", "S-1"⟩]
    elections := [.bare 1 .gubernatorial .collating]
    results := [.bare 1 1 "PU-1" .finalized, .bare 2 1 "PU-2" .voided]
    resultPartyScores := [⟨1, "APC", 60⟩, ⟨1, "LP", 40⟩] }

/-- All late votes of the annulled unit go to one party. -/
def lateFor (party : String) (count : Nat) : LateVotes :=
  fun pu p => if pu = "PU-2" ∧ p = party then count else 0

theorem lateFor_fits {party : String} {voters : Nat} :
    (lateFor party voters).Fits (openUnits (annulledUnit voters) 1) := by
  intro pu hpu parties
  have hmem : pu ∈ (annulledUnit voters).pollingUnits := List.mem_of_mem_filter hpu
  simp only [annulledUnit, List.mem_cons, List.not_mem_nil, or_false] at hmem
  rcases hmem with rfl | rfl
  · simp [lateFor]
  · simp only [lateFor, true_and, Finset.sum_ite_eq']
    split <;> simp

def annulledAssessment (voters : Nat) : DeclarationAssessment :=
  assessment (Env.plain 1 "chair" .admin 0).order (annulledUnit voters) (.bare 1 .gubernatorial .collating)

/-- An annulled unit of ten voters cannot turn a margin of twenty. -/
theorem winner_not_overtaken_ten :
    nationalTotal (annulledUnit 10) 1 "LP" + (lateFor "LP" 10).gain (openUnits (annulledUnit 10) 1) "LP" ≤
        nationalTotal (annulledUnit 10) 1 (annulledAssessment 10).winnerParty +
          (lateFor "LP" 10).gain (openUnits (annulledUnit 10) 1) (annulledAssessment 10).winnerParty ∧
      ((annulledAssessment 10).affectedVoters < (annulledAssessment 10).margin →
        nationalTotal (annulledUnit 10) 1 "LP" +
            (lateFor "LP" 10).gain (openUnits (annulledUnit 10) 1) "LP" <
          nationalTotal (annulledUnit 10) 1 (annulledAssessment 10).winnerParty +
            (lateFor "LP" 10).gain (openUnits (annulledUnit 10) 1) (annulledAssessment 10).winnerParty) := by
  have hassess : assessDeclaration (Env.plain 1 "chair" .admin 0).order (annulledUnit 10) 1 =
      .ok (annulledAssessment 10) := rfl
  have hwinner : "LP" ≠ (annulledAssessment 10).winnerParty := by decide
  exact winner_not_overtaken hassess (by decide) (by decide) lateFor_fits hwinner (Or.inl (by decide))

/-- With twenty voters in the annulled unit the margin is not exceeded and a tie is possible. -/
theorem winner_level_at_boundary :
    ¬ ∀ (db : Tables) (order : IterationOrder) (electionId : Int) (a : DeclarationAssessment)
        (votes : LateVotes) (q : String),
      assessDeclaration order db electionId = .ok a → a.complete = true → a.inconclusive = false →
      a.tie = false → votes.Fits (openUnits db electionId) → q ≠ a.winnerParty →
        nationalTotal db electionId q + votes.gain (openUnits db electionId) q <
          nationalTotal db electionId a.winnerParty +
            votes.gain (openUnits db electionId) a.winnerParty := by
  intro h
  have hassess : assessDeclaration (Env.plain 1 "chair" .admin 0).order (annulledUnit 20) 1 =
      .ok (annulledAssessment 20) := rfl
  have hlt := h (annulledUnit 20) (Env.plain 1 "chair" .admin 0).order 1 (annulledAssessment 20)
    (lateFor "LP" 20) "LP" hassess (by decide) (by decide) (by decide) lateFor_fits (by decide)
  exact absurd hlt (by decide)

end Inec
