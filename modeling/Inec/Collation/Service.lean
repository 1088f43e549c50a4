import Inec.Collation.Overlap
import Mathlib.Data.String.Basic

/-!
# The collation of the election service

`Service.Collate` of internal/election/service.go sums what the finalized results of one election hold. It knows
of no rerun, supplementary or by-election, which the canonical set counts in place of the results they replace,
and of no geography, with which the canonical totals are joined.

So each of the two counts rows that the other leaves out, and everything else is common to both. The two agree
exactly if what they do not share adds up to the same (`collationsAgree_iff`).

The total of the registered voters and the percentage that Collate derives from it are left out.
-/

namespace Inec.ElectionService

open Checks

/-! ### Collate -/

section Collate

variable (db : Tables) (electionId : Int)

def finalizedResults : List ResultRow :=
  db.results.filter fun r => r.electionId == electionId && r.status == canonicalResultStatus

/-- Polling unit and id of the results that Collate sums. -/
def finalizedRows : List (String × Int) := (finalizedResults db electionId).map fun r => (r.pollingUnitCode, r.id)

/-- The groups and sums of the scores of the rows, as a Go map in the order of its keys. -/
def partyTotals (rows : List (String × Int)) : List (String × Int) :=
  (partiesOf db rows).map fun party => (party, partySum db rows party)

structure CollationSummary where
  electionId : Int
  resultsIn : Nat
  totalVotes : Int
  rejectedVotes : Int
  partyTotals : List (String × Int)
  deriving DecidableEq, Repr

def collate : Except String CollationSummary := do
  let _ ← fetch (db.election? electionId) "election not found"
  return {
    electionId := electionId
    resultsIn := (db.results.filter fun r => r.electionId == electionId).length
    totalVotes := ((finalizedResults db electionId).map (·.totalVotesCast)).sum
    rejectedVotes := ((finalizedResults db electionId).map (·.rejectedVotes)).sum
    partyTotals := partyTotals db (finalizedRows db electionId) }

/-- `SUM(total_votes_cast)` over rows of a result set. -/
def votesCast (rows : List (String × Int)) : Int :=
  (rows.map fun c => ((db.results.filter fun r => r.id == c.2).map (·.totalVotesCast)).sum).sum

/-! ### What is asked -/

/-- The party totals are those of the canonical set at national level, and the total is the sum over that set. -/
def CollationsAgree : Prop :=
  ∀ order summary, collate db electionId = .ok summary →
    summary.partyTotals = (canonicalPartyTotals db electionId order .national "").totals ∧
      summary.totalVotes = votesCast db (canonical db electionId)

/-- A finalized result of the election that a finalized result of a child replaces. -/
def replaced (c : String × Int) : Bool := (childResults db electionId).any fun child => child.1 == c.1

/-- The polling unit has its ward and LGA. -/
def located (c : String × Int) : Bool := !(geography db c.1).isEmpty

/-- What Collate sums and the canonical totals do not: results that are replaced or have no geography. -/
def onlyCollate : List (String × Int) :=
  (finalizedRows db electionId).filter fun c => replaced db electionId c || !located db c

/-- What the canonical totals sum and Collate does not: the results of the children. -/
def onlyCanonical : List (String × Int) := (childResults db electionId).filter (located db)

/-- What both sum. -/
def common : List (String × Int) :=
  (finalizedRows db electionId).filter fun c => !(replaced db electionId c || !located db c)

/-- What the two do not share adds up to the same: for every party, which then also is in the totals of both or of
neither, and for the votes cast. -/
def SameDifference : Prop :=
  (∀ party, partySum db (onlyCollate db electionId) party = partySum db (onlyCanonical db electionId) party ∧
      (party ∈ partiesOf db (common db electionId) ∨
        (party ∈ partiesOf db (onlyCollate db electionId) ↔ party ∈ partiesOf db (onlyCanonical db electionId)))) ∧
    votesCast db ((finalizedRows db electionId).filter (replaced db electionId)) =
      votesCast db (childResults db electionId)

end Collate

variable {db : Tables} {electionId : Int}

/-! ### Sums and groups of rows -/

theorem partySum_append (rows rows' : List (String × Int)) (party : String) :
    partySum db (rows ++ rows') party = partySum db rows party + partySum db rows' party := by
  rw [partySum, List.map_append, List.sum_append]
  rfl

theorem partySum_perm {rows rows' : List (String × Int)} (h : rows.Perm rows') (party : String) :
    partySum db rows party = partySum db rows' party := (h.map _).sum_eq

theorem votesCast_append (rows rows' : List (String × Int)) :
    votesCast db (rows ++ rows') = votesCast db rows + votesCast db rows' := by
  rw [votesCast, List.map_append, List.sum_append]
  rfl

theorem votesCast_perm {rows rows' : List (String × Int)} (h : rows.Perm rows') :
    votesCast db rows = votesCast db rows' := (h.map _).sum_eq

theorem mem_partiesOf_append {rows rows' : List (String × Int)} {party : String} :
    party ∈ partiesOf db (rows ++ rows') ↔ party ∈ partiesOf db rows ∨ party ∈ partiesOf db rows' := by
  simp only [mem_partiesOf, List.mem_append, or_and_right, exists_or]

/-- Totals agree if they have the same parties with the same sums. -/
theorem partyTotals_eq_iff {rows rows' : List (String × Int)} :
    partyTotals db rows = partyTotals db rows' ↔
      ∀ party, (party ∈ partiesOf db rows ↔ party ∈ partiesOf db rows') ∧
        partySum db rows party = partySum db rows' party := by
  constructor
  · intro heq
    have hparties : partiesOf db rows = partiesOf db rows' := by
      have hfst := congrArg (List.map Prod.fst) heq
      simpa [partyTotals, Function.comp_def] using hfst
    intro party
    refine ⟨by rw [hparties], ?_⟩
    by_cases hmem : party ∈ partiesOf db rows
    · have hpair : (party, partySum db rows party) ∈ partyTotals db rows' := by
        rw [← heq]
        exact List.mem_map_of_mem hmem
      obtain ⟨party', -, hpair⟩ := List.mem_map.mp hpair
      obtain ⟨rfl, hsum⟩ := Prod.mk.inj hpair
      exact hsum.symm
    · rw [partySum_eq_zero hmem, partySum_eq_zero (hparties ▸ hmem)]
  · intro hsame
    have hperm : (partiesOf db rows).Perm (partiesOf db rows') := by
      refine (List.perm_ext_iff_of_nodup ?_ ?_).mpr fun party => (hsame party).1
      · exact (List.perm_insertionSort _ _).nodup_iff.mpr (List.nodup_dedup _)
      · exact (List.perm_insertionSort _ _).nodup_iff.mpr (List.nodup_dedup _)
    have hparties : partiesOf db rows = partiesOf db rows' :=
      hperm.eq_of_pairwise (fun _ _ _ _ => le_antisymm) (List.pairwise_insertionSort _ _)
        (List.pairwise_insertionSort _ _)
    rw [partyTotals, partyTotals, hparties]
    exact List.map_congr_left fun party _ => by rw [(hsame party).2]

/-! ### What the two sets share -/

theorem parentResults_eq :
    parentResults db electionId = (finalizedRows db electionId).filter fun c => !replaced db electionId c := by
  rw [parentResults, finalizedRows, finalizedResults, List.filter_map, List.filter_filter]
  congr 1
  refine List.filter_congr fun r _ => ?_
  simp only [Function.comp_apply, replaced]
  rw [Bool.and_comm]

/-- At national level the join keeps what has a geography. -/
theorem collatedRows_national (h : db.Constraints) :
    collatedRows db electionId .national "" = (canonical db electionId).filter (located db) := by
  rw [collatedRows]
  induction canonical db electionId with
  | nil => rfl
  | cons c rest ih =>
      rw [List.flatMap_cons, ih, List.filter_cons]
      rcases geography_eq h c.1 with hnone | ⟨g, hone⟩
      · rw [hnone, located, hnone]
        rfl
      · rw [hone, located, hone]
        rfl

theorem perm_finalizedRows :
    (finalizedRows db electionId).Perm (common db electionId ++ onlyCollate db electionId) := by
  have hperm := List.filter_append_perm (fun c => replaced db electionId c || !located db c)
    (finalizedRows db electionId)
  exact (hperm.symm).trans List.perm_append_comm

theorem collatedRows_eq (h : db.Constraints) :
    collatedRows db electionId .national "" = common db electionId ++ onlyCanonical db electionId := by
  rw [collatedRows_national h, canonical, List.filter_append, parentResults_eq, List.filter_filter, common]
  congr 1
  refine List.filter_congr fun c _ => ?_
  rw [Bool.not_or, Bool.not_not, Bool.and_comm]

/-- The sum that Collate takes from the rows of the table. -/
theorem votesCast_finalizedRows (h : db.Constraints) :
    votesCast db (finalizedRows db electionId) = ((finalizedResults db electionId).map (·.totalVotesCast)).sum := by
  rw [votesCast, finalizedRows, List.map_map]
  congr 1
  refine List.map_congr_left fun r hr => ?_
  have hone := Rows.filter_key_of_mem h.resultIds (List.mem_filter.mp hr).1
  simp only [Function.comp_apply, hone]
  exact List.sum_singleton

/-! ### Agreement -/

theorem collate_ok {summary : CollationSummary} (h : collate db electionId = .ok summary) :
    summary.partyTotals = partyTotals db (finalizedRows db electionId) ∧
      summary.totalVotes = ((finalizedResults db electionId).map (·.totalVotesCast)).sum := by
  rw [collate, bind_eq_ok] at h
  obtain ⟨e, -, hsummary⟩ := h
  rw [pure_eq_ok] at hsummary
  exact hsummary ▸ ⟨rfl, rfl⟩

/-- The votes cast differ by those of the results that are replaced and those that replace them. -/
theorem votesCast_eq_iff :
    votesCast db (finalizedRows db electionId) = votesCast db (canonical db electionId) ↔
      votesCast db ((finalizedRows db electionId).filter (replaced db electionId)) =
        votesCast db (childResults db electionId) := by
  have hperm := List.filter_append_perm (replaced db electionId) (finalizedRows db electionId)
  have hown : votesCast db _ = votesCast db _ := votesCast_perm hperm
  rw [votesCast_append] at hown
  rw [canonical, votesCast_append, parentResults_eq, ← hown]
  omega

theorem partyTotals_agree_iff (h : db.Constraints) :
    partyTotals db (finalizedRows db electionId) =
        partyTotals db (collatedRows db electionId .national "") ↔
      ∀ party, partySum db (onlyCollate db electionId) party = partySum db (onlyCanonical db electionId) party ∧
        (party ∈ partiesOf db (common db electionId) ∨
          (party ∈ partiesOf db (onlyCollate db electionId) ↔
            party ∈ partiesOf db (onlyCanonical db electionId))) := by
  have hparties : ∀ party, party ∈ partiesOf db (finalizedRows db electionId) ↔
      party ∈ partiesOf db (common db electionId) ∨ party ∈ partiesOf db (onlyCollate db electionId) := by
    intro party
    rw [← mem_partiesOf_append]
    simp only [mem_partiesOf, perm_finalizedRows.mem_iff]
  rw [partyTotals_eq_iff]
  refine forall_congr' fun party => ?_
  rw [hparties, collatedRows_eq h, mem_partiesOf_append, partySum_perm perm_finalizedRows, partySum_append,
    partySum_append, Int.add_right_inj, and_comm]
  refine and_congr_right fun _ => ?_
  by_cases hcommon : party ∈ partiesOf db (common db electionId)
  · simp [hcommon]
  · simp [hcommon]

/-- The two collations of an election agree exactly if what they do not share adds up to the same. -/
theorem collationsAgree_iff (d : Database) (electionId : Int) :
    CollationsAgree d.tables electionId ↔
      ((d.tables.election? electionId).isSome = true → SameDifference d.tables electionId) := by
  have htotals := @partyTotals_agree_iff d.tables electionId d.constraints
  have hvotes := @votesCast_eq_iff d.tables electionId
  constructor
  · intro hagree hexists
    obtain ⟨e, he⟩ := Option.isSome_iff_exists.mp hexists
    obtain ⟨hparty, hcast⟩ := hagree ⟨fun keys => keys, fun _ => .rfl⟩ _ (by rw [collate, he]; rfl)
    refine ⟨htotals.mp hparty, hvotes.mp ?_⟩
    rw [votesCast_finalizedRows d.constraints]
    exact hcast
  · intro hsame order summary hsummary
    have hexists : (d.tables.election? electionId).isSome = true := by
      rw [collate, bind_eq_ok] at hsummary
      obtain ⟨e, he, -⟩ := hsummary
      rw [fetch_eq_ok] at he
      rw [he]
      rfl
    obtain ⟨hparty, hcast⟩ := hsame hexists
    obtain ⟨hpartyTotals, htotalVotes⟩ := collate_ok hsummary
    refine ⟨hpartyTotals.trans (htotals.mpr hparty), htotalVotes.trans ?_⟩
    rw [← votesCast_finalizedRows d.constraints]
    exact hvotes.mpr hcast

/-- No child has a finalized result of its own, and the units of the election have their geography: the two
collations agree. -/
theorem sameDifference_of_no_child (hnone : childResults db electionId = [])
    (hlocated : ∀ c ∈ finalizedRows db electionId, located db c = true) : SameDifference db electionId := by
  have hreplaced : ∀ c, replaced db electionId c = false := fun c => by rw [replaced, hnone]; rfl
  have hcollate : onlyCollate db electionId = [] := by
    rw [onlyCollate, List.filter_eq_nil_iff]
    intro c hc
    rw [hreplaced, hlocated c hc]
    exact Bool.false_ne_true
  have hcast : (finalizedRows db electionId).filter (replaced db electionId) = [] := by
    rw [List.filter_eq_nil_iff]
    intro c _
    rw [hreplaced]
    exact Bool.false_ne_true
  rw [SameDifference, hcollate, onlyCanonical, hnone, hcast]
  exact ⟨fun party => ⟨rfl, .inr Iff.rfl⟩, rfl⟩

/-- A rerun of the only polling unit of election 1: ten votes at first, seven in the rerun. -/
def rerunOfUnit : Database where
  tables :=
    { Tables.empty with
      states := ["S-1"]
      pollingUnits := [⟨"PU-1", "W-1", 200⟩]
      wards := [⟨"W-1", "L-1"⟩]
      lgas := [⟨"L-1", "S-1"⟩]
      elections :=
        [.bare 1 .gubernatorial .collating,
          { Election.bare 2 .gubernatorial .closed with electionKind := .rerun, parentElectionId := some 1 }]
      rerunScopes := [⟨2, .pollingUnit, "PU-1", "annulled", "chair"⟩]
      results :=
        [{ ResultRow.bare 1 1 "PU-1" .finalized with totalVotesCast := 10 },
          { ResultRow.bare 2 2 "PU-1" .finalized with totalVotesCast := 7 }]
      resultPartyScores := [⟨1, "A", 10⟩, ⟨2, "A", 7⟩] }
  constraints := by decide

/-- The election service still counts the result that was annulled. -/
theorem not_collationsAgree_rerun : ¬ ∀ (d : Database) electionId, CollationsAgree d.tables electionId := by
  intro h
  have hagree := h rerunOfUnit 1 ⟨fun keys => keys, fun _ => .rfl⟩ ⟨1, 1, 10, 0, [("A", 10)]⟩ (by decide +kernel)
  have hcanonical : votesCast rerunOfUnit.tables (canonical rerunOfUnit.tables 1) = 7 := by decide +kernel
  have htotal : (10 : Int) = votesCast rerunOfUnit.tables (canonical rerunOfUnit.tables 1) := hagree.2
  omega

end Inec.ElectionService
