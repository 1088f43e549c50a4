import Inec.Lib.StableSort
import Inec.Results.Duplicates

/-!
# What the hash of a submission identifies

`computeEC8AHash` is to be equal for two submissions exactly if they have the same figures, the parties in any
order. Sorting by party code makes one text of the entries of different parties in any order; entries of one
party stay in theirs. And the text is only the figures' own if it can be taken apart again: a unit code with a
bar or a party code with a comma may run together with what stands behind it.
-/

namespace Inec

namespace IngestedResult

variable (sha256Hex : String → String) (res res' : IngestedResult)

/-- `computeEC8AHash` of a submission. -/
def hash : String :=
  computeEC8AHash sha256Hex res.electionId res.pollingUnitCode res.partyScores res.accreditedVoters
    res.rejectedVotes

/-- The hashes are equal exactly if the figures are. -/
def HashTells : Prop := res.hash sha256Hex = res'.hash sha256Hex ↔ res.figures.Same res'.figures

/-- Each party has its entries in the same order. -/
def SameOrder : Prop :=
  ∀ code, res.partyScores.filter (fun entry => entry.partyCode = code) =
    res'.partyScores.filter fun entry => entry.partyCode = code

/-- Unit and scores written out. -/
def line : String := res.pollingUnitCode ++ "|" ++ scoresText res.partyScores

/-- The submissions only differ in unit or scores, and these run together to one text. -/
def RunTogether : Prop :=
  ¬res.figures.Same res'.figures ∧ res.electionId = res'.electionId ∧
    res.accreditedVoters = res'.accreditedVoters ∧ res.rejectedVotes = res'.rejectedVotes ∧ res.line = res'.line

variable {sha256Hex res res'}

/-! ### Scores -/

theorem scoresText_eq_sort (scores : List PartyVoteEntry) :
    scoresText scores =
      String.intercalate "," ((StableSort.sort PartyVoteEntry.partyCode scores).map PartyVoteEntry.text) := rfl

/-- An entry in the preimage, its votes apart. -/
def field (entry : PartyVoteEntry) : List Char × List Char :=
  ((entry.partyCode ++ ":").toList, (toString entry.votes).toList)

theorem field_append (entry : PartyVoteEntry) : (field entry).1 ++ (field entry).2 = entry.text.toList := by
  rw [PartyVoteEntry.text, @String.toList_append (entry.partyCode ++ ":")]
  rfl

theorem toList_intercalate_text (scores : List PartyVoteEntry) :
    (String.intercalate "," (scores.map PartyVoteEntry.text)).toList =
      [','].intercalate ((scores.map field).map fun f => f.1 ++ f.2) := by
  rw [String.toList_intercalate, List.map_map, List.map_map]
  have hfields : scores.map (String.toList ∘ PartyVoteEntry.text) =
      scores.map ((fun f => f.1 ++ f.2) ∘ field) := by
    apply List.map_congr_left
    intro entry _
    exact (field_append entry).symm
  rw [hfields]
  rfl

/-- Of one multiset of entries the text tells the order of the entries of each party, whatever the codes are. -/
theorem scoresText_eq_iff_of_perm {scores scores' : List PartyVoteEntry} (h : scores.Perm scores') :
    scoresText scores = scoresText scores' ↔
      ∀ code, scores.filter (fun entry => entry.partyCode = code) =
        scores'.filter fun entry => entry.partyCode = code := by
  rw [← StableSort.sort_eq_iff, scoresText_eq_sort, scoresText_eq_sort]
  constructor
  · intro htext
    -- the codes are the same one after the other, so each number can be read off behind its code
    have hcodes := @StableSort.map_sort_eq_of_perm _ _ _ PartyVoteEntry.partyCode _ _ h
    have hheads (scores : List PartyVoteEntry) : (scores.map field).map Prod.fst =
        (scores.map (·.partyCode)).map fun code => (code ++ ":").toList := by
      rw [List.map_map, List.map_map]
      rfl
    have hfree (scores : List PartyVoteEntry) : ∀ f ∈ scores.map field, ',' ∉ f.2 := by
      intro f hf
      obtain ⟨entry, -, rfl⟩ := List.mem_map.mp hf
      exact Text.notMem_toString_int (by decide) (by decide) entry.votes
    have hchars := congrArg String.toList htext
    rw [toList_intercalate_text, toList_intercalate_text] at hchars
    have hfields := Delimited.intercalate_heads_inj (by rw [hheads, hheads, hcodes]) (hfree _) (hfree _) hchars
    refine (List.map_inj_right ?_).mp hfields
    intro entry entry' heq
    apply PartyVoteEntry.text_inj
    rw [← String.toList_inj, ← field_append, ← field_append, heq]
  · intro h
    rw [h]

/-! ### Submissions -/

theorem same_figures_iff : res.figures.Same res'.figures ↔ res.electionId = res'.electionId ∧
    res.pollingUnitCode = res'.pollingUnitCode ∧ res.partyScores.Perm res'.partyScores ∧
      res.accreditedVoters = res'.accreditedVoters ∧ res.rejectedVotes = res'.rejectedVotes := by
  rw [← scorePairs_perm_iff]
  rfl

theorem hash_eq_iff (hinj : Function.Injective sha256Hex) : res.hash sha256Hex = res'.hash sha256Hex ↔
    res.electionId = res'.electionId ∧ res.line = res'.line ∧ res.accreditedVoters = res'.accreditedVoters ∧
      res.rejectedVotes = res'.rejectedVotes :=
  computeEC8AHash_eq_iff hinj

/-- The text of equal figures is equal exactly if each party has its entries in the same order. -/
theorem line_eq_iff_of_same (h : res.figures.Same res'.figures) : res.line = res'.line ↔ SameOrder res res' := by
  obtain ⟨-, hcode, hperm, -, -⟩ := same_figures_iff.mp h
  rw [SameOrder, ← scoresText_eq_iff_of_perm hperm, line, line, hcode, ← String.toList_inj, String.toList_append,
    @String.toList_append (res'.pollingUnitCode ++ "|"), List.append_cancel_left_eq, String.toList_inj]

/-- No bar in the unit code, no party twice and no comma in a party code. -/
def Plain (res : IngestedResult) : Prop := '|' ∉ res.pollingUnitCode.toList ∧ PlainCodes res.partyScores

/-- Plain submissions with one text have the same unit and scores. -/
theorem line_eq_iff_of_plain (h : res.Plain) (h' : res'.Plain) : res.line = res'.line ↔
    res.pollingUnitCode = res'.pollingUnitCode ∧ res.partyScores.Perm res'.partyScores := by
  rw [← scoresText_eq_iff h.2 h'.2]
  constructor
  · intro hline
    have hchars := congrArg String.toList hline
    have hbar : "|".toList = ['|'] := rfl
    simp only [line, String.toList_append, hbar, List.append_assoc, List.singleton_append] at hchars
    obtain ⟨hcode, hscores⟩ := Delimited.append_sep_inj_of_notMem_left hchars h.1 h'.1
    exact ⟨String.toList_inj.mp hcode, String.toList_inj.mp hscores⟩
  · rintro ⟨hcode, hscores⟩
    rw [line, line, hcode, hscores]

/-- The hash identifies the figures of plain submissions. -/
theorem hashTells_of_plain (hinj : Function.Injective sha256Hex) (h : res.Plain) (h' : res'.Plain) :
    HashTells sha256Hex res res' := by
  rw [HashTells, hash_eq_iff hinj, line_eq_iff_of_plain h h', same_figures_iff]
  constructor
  · rintro ⟨helection, ⟨hcode, hperm⟩, hcounts⟩
    exact ⟨helection, hcode, hperm, hcounts⟩
  · rintro ⟨helection, hcode, hperm, hcounts⟩
    exact ⟨helection, ⟨hcode, hperm⟩, hcounts⟩

/-! ### Parties twice, and a comma in a code -/

end IngestedResult

end Inec
