import Inec.Collation.Additive
import Inec.Declaration.Ranking
import Inec.Election.Guards

/-!
# The constitutional spread

A presidential winner needs a quarter of the votes cast in each of two thirds of the states, and in the FCT.
`assessDeclaration` takes the rows of the canonical set with their states, adds them up by state, and counts the
states in which the winner has a quarter. It asks for two thirds of the states, rounded up, and then for the FCT
or one state more: a winner who reaches a quarter in more states than needed passes without the FCT.
-/

namespace Inec

open Checks

section Spread

variable (db : Tables) (electionId : Int) (party : String)

/-- The canonical votes cast in a state. -/
def stateVotes (state : String) : Int :=
  ((collatedRows db electionId .state state).map fun c => votesOf db c.2).sum

/-- Votes are cast in the state, and a quarter of them for the party. -/
def Reaches (state : String) : Prop :=
  0 < stateVotes db electionId state ∧
    stateVotes db electionId state ≤ 4 * partySum db (collatedRows db electionId .state state) party

instance (state : String) : Decidable (Reaches db electionId party state) := inferInstanceAs (Decidable (_ ∧ _))

def reachedStates : List String := db.states.filter fun state => Reaches db electionId party state

/-- At least two thirds of all states, and the FCT among them. -/
def SpreadHolds : Prop :=
  2 * db.states.length ≤ 3 * (reachedStates db electionId party).length ∧
    "FCT" ∈ reachedStates db electionId party

/-- One party has more votes than any other. -/
structure UniqueLeader : Prop where
  scores : party ∈ (nationalTotals db electionId).parties
  leads : ∀ other ∈ (nationalTotals db electionId).parties, other ≠ party →
    (nationalTotals db electionId).votes other < (nationalTotals db electionId).votes party

/-- The assessment says whether the spread holds, and without it the election cannot be declared. -/
def AssessesSpread (order : IterationOrder) : Prop :=
  ∀ a, assessDeclaration order db electionId = .ok a →
    (a.spreadMet = true ↔ SpreadHolds db electionId party) ∧
      (a.spreadMet = false → a.inconclusive = true ∧
        ∀ env : Env, env.order = order → guardDeclare env db electionId ≠ .ok ())

/-- The extra state does not stand in for the FCT, and the rule is not skipped for want of a winner's code. -/
structure RuleBinds : Prop where
  capital : "FCT" ∈ reachedStates db electionId party ∨
    3 * (reachedStates db electionId party).length ≤ 2 * db.states.length + 2
  code : party = "" → SpreadHolds db electionId party

end Spread

variable {db : Tables} {electionId : Int} {party : String}

/-! ### Votes by state -/

theorem stateRows_eq : stateRows db electionId =
    (joinedRows db electionId).map fun row => (row.2.2.2.stateCode, row.1.2) := by
  rw [stateRows, joinedRows, List.map_flatMap]
  congr 1
  funext c
  rw [List.map_map]
  rfl

theorem stateSum_eq (state : String) (counts : String → Bool) :
    stateSum db (stateRows db electionId) state counts =
      ((collatedRows db electionId .state state).map fun c =>
        ((db.resultPartyScores.filter fun s => s.resultId == c.2 && counts s.partyCode).map
          (·.votes)).sum).sum := by
  rw [stateSum, stateRows_eq, collatedRows_eq_filter, List.filter_map, List.map_map, List.map_map]
  rfl

theorem stateSum_all (state : String) :
    stateSum db (stateRows db electionId) state (fun _ => true) = stateVotes db electionId state := by
  rw [stateSum_eq]
  simp only [Bool.and_true]
  rfl

theorem stateSum_party (state : String) : stateSum db (stateRows db electionId) state (· == party) =
    partySum db (collatedRows db electionId .state state) party := stateSum_eq state (· == party)

/-- The counted states are those in which the party reaches a quarter. -/
theorem mem_qualifiedStates {state : String} :
    state ∈ qualifiedStates db electionId party ↔ Reaches db electionId party state := by
  rw [qualifiedStates, List.mem_filter, stateSum_all, stateSum_party, Bool.and_eq_true, decide_eq_true_eq,
    decide_eq_true_eq, Int.mul_comm, ← Reaches, and_iff_right_iff_imp, List.mem_dedup]
  intro hreaches
  -- where votes are cast there is a row
  have hrow : collatedRows db electionId .state state ≠ [] := by
    intro hnone
    have hpos := hreaches.1
    rw [stateVotes, hnone] at hpos
    exact absurd hpos (lt_irrefl 0)
  obtain ⟨c, hc⟩ := List.exists_mem_of_ne_nil _ hrow
  rw [collatedRows_eq_filter] at hc
  obtain ⟨row, hrow, -⟩ := List.mem_map.mp hc
  rw [List.mem_filter] at hrow
  have hstate : (row.2.2.2.stateCode == state) = true := hrow.2
  rw [stateRows_eq, List.map_map, List.mem_map]
  exact ⟨row, hrow.1, beq_iff_eq.mp hstate⟩

section Intact

variable (h : db.GeographyIntact)
include h

/-- The states of the rows are states of the table. -/
theorem mem_reachedStates {state : String} :
    state ∈ reachedStates db electionId party ↔ Reaches db electionId party state := by
  rw [reachedStates, List.mem_filter, decide_eq_true_eq, and_iff_right_iff_imp]
  intro hreaches
  have hqualified := mem_qualifiedStates.mpr hreaches
  rw [qualifiedStates, List.mem_filter, List.mem_dedup, stateRows_eq, List.map_map, List.mem_map] at hqualified
  obtain ⟨⟨row, hrow, hstate⟩, -⟩ := hqualified
  have hlga := (mem_joinedRows hrow).2.2.1
  exact hstate ▸ h.lgaState _ hlga

theorem qualifiedStates_perm :
    (qualifiedStates db electionId party).Perm (reachedStates db electionId party) := by
  apply (List.perm_ext_iff_of_nodup ?_ ?_).mpr
  · intro state
    rw [mem_qualifiedStates, mem_reachedStates h]
  · exact (List.nodup_dedup _).filter _
  · exact h.stateCodes.filter _

/-! ### The rule -/

/-- The rule for a presidential election with a winner. -/
theorem assessSpread_met_iff {e : Election} (htype : e.electionType = .presidential) (hparty : party ≠ "") :
    (assessSpread db e party).met = true ↔
      2 * db.states.length ≤ 3 * (reachedStates db e.id party).length ∧
        ("FCT" ∈ reachedStates db e.id party ∨
          2 * db.states.length + 2 < 3 * (reachedStates db e.id party).length) := by
  have hperm := @qualifiedStates_perm db e.id party h
  rw [assessSpread, if_pos ⟨htype, hparty⟩]
  simp only [Bool.and_eq_true, Bool.or_eq_true, decide_eq_true_eq, List.contains_iff_mem, hperm.length_eq,
    hperm.mem_iff]
  apply and_congr
  · omega
  · apply or_congr_right
    omega

end Intact

/-! ### The winner -/

/-- A unique leader is the winner in every order. -/
theorem UniqueLeader.winner (h : UniqueLeader db electionId party) (order : IterationOrder) :
    ((nationalTotals db electionId).lead order).winnerParty = party := by
  have hne : (nationalTotals db electionId).parties ≠ [] := List.ne_nil_of_mem h.scores
  obtain ⟨hin, hvotes, hmax⟩ := (@PartyTotals.rankedRightly (nationalTotals db electionId) order).winner hne
  by_contra hother
  have hless := h.leads _ hin hother
  have hle := hmax party h.scores
  omega

/-- Without the spread a presidential election is inconclusive and its guard refuses. -/
theorem inconclusive_of_spread {order : IterationOrder} {e : Election} (hfound : db.election? electionId = some e)
    (hspread : (assessment order db e).spreadMet = false) :
    (assessment order db e).inconclusive = true ∧
      ∀ env : Env, env.order = order → guardDeclare env db electionId ≠ .ok () := by
  have happlies : spreadApplies e (leaders (rankedTotals order db e.id)).winnerParty = true := by
    have hmet : (assessSpread db e (leaders (rankedTotals order db e.id)).winnerParty).met = false := hspread
    rw [assessSpread] at hmet
    split at hmet
    · next hboth => simp [spreadApplies, hboth.1, hboth.2]
    · cases hmet
  have hinconclusive : (assessment order db e).inconclusive = true := by
    have hmet : (assessSpread db e (leaders (rankedTotals order db e.id)).winnerParty).met = false := hspread
    show (_ || _ || (spreadApplies e (leaders (rankedTotals order db e.id)).winnerParty && !_)) = true
    rw [happlies, hmet]
    exact Bool.or_true _
  refine ⟨hinconclusive, ?_⟩
  rintro env rfl hguard
  simp only [guardDeclare, bind_eq_ok, require_eq_ok] at hguard
  obtain ⟨a, ha, -, -, -, -, hconclusive⟩ := hguard
  obtain ⟨e', hfound', rfl⟩ := assessDeclaration_eq_ok.mp ha
  obtain rfl : e = e' := Option.some.inj (hfound.symm.trans hfound')
  rw [hinconclusive] at hconclusive
  cases hconclusive

/-- What the assessment of a unique leader says. The empty code is taken for the lack of a winner. -/
theorem spreadMet_iff (h : db.GeographyIntact) {e : Election} (hfound : db.election? electionId = some e)
    (htype : e.electionType = .presidential) (hleader : UniqueLeader db electionId party) (order : IterationOrder) :
    (assessment order db e).spreadMet = true ↔
      party = "" ∨ 2 * db.states.length ≤ 3 * (reachedStates db electionId party).length ∧
        ("FCT" ∈ reachedStates db electionId party ∨
          2 * db.states.length + 2 < 3 * (reachedStates db electionId party).length) := by
  obtain rfl : e.id = electionId := (Tables.mem_of_election? hfound).2
  have hwinner : (leaders (rankedTotals order db e.id)).winnerParty = party := hleader.winner order
  show (assessSpread db e (leaders (rankedTotals order db e.id)).winnerParty).met = true ↔ _
  rw [hwinner]
  by_cases hparty : party = ""
  · rw [assessSpread, if_neg fun hboth => hboth.2 hparty]
    exact iff_of_true rfl (.inl hparty)
  · rw [assessSpread_met_iff h htype hparty, or_iff_right hparty]

/-- The assessment says whether the spread holds just where the FCT is reached or no state beyond the two thirds. -/
theorem assessesSpread_iff (h : db.GeographyIntact) {e : Election} (hfound : db.election? electionId = some e)
    (htype : e.electionType = .presidential) (hleader : UniqueLeader db electionId party) (order : IterationOrder) :
    AssessesSpread db electionId party order ↔ RuleBinds db electionId party := by
  have hmet := spreadMet_iff h hfound htype hleader order
  have hassessed : assessDeclaration order db electionId = .ok (assessment order db e) :=
    assessDeclaration_eq_ok.mpr ⟨e, hfound, rfl⟩
  constructor
  · intro hassesses
    have hspread := (hassesses _ hassessed).1
    rw [hmet] at hspread
    refine ⟨?_, fun hcode => hspread.mp (.inl hcode)⟩
    by_contra hpast
    rw [not_or, not_le] at hpast
    have hholds := hspread.mp (.inr ⟨by omega, .inr hpast.2⟩)
    exact hpast.1 hholds.2
  · intro hbinds a ha
    obtain ⟨e', hfound', rfl⟩ := assessDeclaration_eq_ok.mp ha
    obtain rfl : e = e' := Option.some.inj (hfound.symm.trans hfound')
    refine ⟨?_, inconclusive_of_spread hfound⟩
    rw [hmet]
    constructor
    · rintro (hcode | ⟨hthirds, hfct | hpast⟩)
      · exact hbinds.code hcode
      · exact ⟨hthirds, hfct⟩
      · refine ⟨hthirds, ?_⟩
        obtain hfct | hwithin := hbinds.capital
        · exact hfct
        · omega
    · intro hholds
      exact .inr ⟨hholds.1, .inl hholds.2⟩

/-! ### Five states and the FCT -/

/-- One polling unit in each of five states and the FCT. Party A has 60 of 100 votes in each of the states. -/
def fiveStates (capitalA capitalB : Int) : Tables :=
  { Tables.empty with
    states := ["S-1", "S-2", "S-3", "S-4", "S-5", "FCT"]
    lgas := [⟨"L-1", "S-1"⟩, ⟨"L-2", "S-2"⟩, ⟨"L-3", "S-3"⟩, ⟨"L-4", "S-4"⟩, ⟨"L-5", "S-5"⟩, ⟨"L-6", "FCT"⟩]
    wards := [⟨"W-1", "L-1"⟩, ⟨"W-2", "L-2"⟩, ⟨"W-3", "L-3"⟩, ⟨"W-4", "L-4"⟩, ⟨"W-5", "L-5"⟩, ⟨"W-6", "L-6"⟩]
    pollingUnits :=
      [⟨"PU-1", "W-1", 200⟩, ⟨"PU-2", "W-2", 200⟩, ⟨"PU-3", "W-3", 200⟩, ⟨"PU-4", "W-4", 200⟩, ⟨"PU-5", "W-5", 200⟩,
        ⟨"PU-6", "W-6", 200⟩]
    elections := [.bare 1 .presidential .collating]
    results :=
      [.bare 1 1 "PU-1" .finalized, .bare 2 1 "PU-2" .finalized, .bare 3 1 "PU-3" .finalized,
        .bare 4 1 "PU-4" .finalized, .bare 5 1 "PU-5" .finalized, .bare 6 1 "PU-6" .finalized]
    resultPartyScores :=
      [⟨1, "A", 60⟩, ⟨1, "B", 40⟩, ⟨2, "A", 60⟩, ⟨2, "B", 40⟩, ⟨3, "A", 60⟩, ⟨3, "B", 40⟩,
        ⟨4, "A", 60⟩, ⟨4, "B", 40⟩, ⟨5, "A", 60⟩, ⟨5, "B", 40⟩, ⟨6, "A", capitalA⟩, ⟨6, "B", capitalB⟩] }

theorem intact_fiveStates (capitalA capitalB : Int) : (fiveStates capitalA capitalB).GeographyIntact := by
  have h : (fiveStates 0 0).GeographyIntact :=
    ⟨by decide, by decide, by decide, by decide, by decide, by decide, by decide⟩
  exact ⟨h.stateCodes, h.lgaCodes, h.wardCodes, h.pollingUnitCodes, h.lgaState, h.wardLga, h.unitWard⟩

theorem assessesSpread_quarter :
    AssessesSpread (fiveStates 25 75) 1 "A" ⟨List.reverse, List.reverse_perm⟩ :=
  (assessesSpread_iff (intact_fiveStates 25 75) rfl rfl ⟨by decide +kernel, by decide +kernel⟩ _).mpr
    ⟨.inl (by decide +kernel), fun hcode => absurd hcode (by decide)⟩

/-- A tenth of the votes in the FCT: the fifth state makes up for it. -/
theorem capital_passed_over : (fiveStates 10 90).GeographyIntact ∧
    (fiveStates 10 90).election? 1 = some (.bare 1 .presidential .collating) ∧
    UniqueLeader (fiveStates 10 90) 1 "A" ∧ ¬SpreadHolds (fiveStates 10 90) 1 "A" ∧
    ¬AssessesSpread (fiveStates 10 90) 1 "A" ⟨List.reverse, List.reverse_perm⟩ := by
  have hleader : UniqueLeader (fiveStates 10 90) 1 "A" := ⟨by decide +kernel, by decide +kernel⟩
  have hmissed : "FCT" ∉ reachedStates (fiveStates 10 90) 1 "A" := by decide +kernel
  have hreached : (reachedStates (fiveStates 10 90) 1 "A").length = 5 := by decide +kernel
  refine ⟨intact_fiveStates 10 90, rfl, hleader, fun hholds => hmissed hholds.2, ?_⟩
  intro hassesses
  have hmet := (spreadMet_iff (intact_fiveStates 10 90) rfl rfl hleader ⟨List.reverse, List.reverse_perm⟩).mpr
    (.inr ⟨by rw [hreached]; decide, .inr (by rw [hreached]; decide)⟩)
  have hholds := (hassesses _ (assessDeclaration_eq_ok.mpr ⟨.bare 1 .presidential .collating, rfl, rfl⟩)).1.mp hmet
  exact hmissed hholds.2

end Inec
