import Inec.Lib.Float64
import Inec.Lib.Rows
import Inec.Lib.Runs
import Mathlib.Algebra.Order.BigOperators.Group.List
import Mathlib.Data.List.Sort

/-!
# The winner of a primary

What handleTallyRound writes once the votes of a round are counted. The entries are sorted by their votes, and
the first one is the winner if its share, as a percentage with two decimals, is above 50. A share that is above
one half by less than half of a hundredth of a percent is rounded down to 50. Only the aspirants that were
counted are written, so a mark from another round stays.

A tally here is one that gets past its checks and its counting. The counts come in the order in which Go ranges
over the map, and `sort.Slice`, which is not stable, may leave equal counts in any order.
-/

namespace Inec.PrimaryWinner

/-- A row of `aspirants`. -/
structure Aspirant where
  aspirantId : String
  electionId : Int
  partyCode : String
  delegateVotes : Nat
  isWinner : Bool
  deriving DecidableEq, Repr

/-- A row of `vote_tallies`; the percentage is a `Float64`. -/
structure VoteTally where
  roundId : String
  aspirantId : String
  votesReceived : Nat
  votePercentage : Nat
  rankPosition : Nat
  isWinner : Bool
  deriving DecidableEq, Repr

structure TallyEntry where
  aspirantId : String
  votes : Nat
  deriving DecidableEq, Repr

/-- The map `voteCounts`. -/
structure VoteCounts where
  entries : List TallyEntry
  nodup : (entries.map TallyEntry.aspirantId).Nodup

def VoteCounts.votes (counts : VoteCounts) (aspirantId : String) : Nat :=
  ((counts.entries.find? fun e => e.aspirantId == aspirantId).map TallyEntry.votes).getD 0

def VoteCounts.totalVotes (counts : VoteCounts) : Nat := (counts.entries.map TallyEntry.votes).sum

/-- `sort.Slice` by descending votes. -/
structure SortSlice where
  arrange : List TallyEntry → List TallyEntry
  perm : ∀ entries, (arrange entries).Perm entries
  descending : ∀ entries, (arrange entries).Pairwise fun a b => b.votes ≤ a.votes

/-- A tally, with the election of its round and the statements for an aspirant that take effect. -/
structure TallyForm where
  roundId : String
  electionId : Int
  partyCode : String
  counts : VoteCounts
  sort : SortSlice
  inserted : String → Bool
  updated : String → Bool

/-- The tables; the ids of aspirants are unique. -/
structure PrimaryTables where
  aspirants : List Aspirant
  nodup : (aspirants.map Aspirant.aspirantId).Nodup
  voteTallies : List VoteTally

/-- `math.Round(float64(votes)/float64(total)*10000) / 100` -/
def percentage (votes total : Nat) : Nat :=
  if 0 < total then
    Float64.div (Float64.roundInt (Float64.mul (Float64.div (Float64.ofNat votes) (Float64.ofNat total))
      (Float64.ofNat 10000))) (Float64.ofNat 100)
  else 0

/-- `rank == 0 && pct > 50.0` -/
def wins (total : Nat) (entry : TallyEntry) (rank : Nat) : Bool :=
  rank == 0 && decide (Float64.ofNat 50 < percentage entry.votes total)

namespace TallyForm

variable (form : TallyForm)

/-- The UPDATE for an entry, at the row with its id. -/
def markAspirant (ranked : TallyEntry × Nat) (a : Aspirant) : Aspirant :=
  if a.partyCode = form.partyCode ∧ form.updated ranked.1.aspirantId = true then
    { a with delegateVotes := ranked.1.votes, isWinner := wins form.counts.totalVotes ranked.1 ranked.2 }
  else a

/-- The INSERT for an entry, which overwrites the row of the round and the aspirant. -/
def recordTally (ranked : TallyEntry × Nat) (tallies : List VoteTally) : List VoteTally :=
  if form.inserted ranked.1.aspirantId then
    let row : VoteTally := ⟨form.roundId, ranked.1.aspirantId, ranked.1.votes,
      percentage ranked.1.votes form.counts.totalVotes, ranked.2 + 1, wins form.counts.totalVotes ranked.1 ranked.2⟩
    if tallies.any fun t => t.roundId == form.roundId && t.aspirantId == ranked.1.aspirantId then
      tallies.map fun t => if t.roundId = form.roundId ∧ t.aspirantId = ranked.1.aspirantId then row else t
    else tallies ++ [row]
  else tallies

/-- `tallies` with their ranks. -/
def ranking : List (TallyEntry × Nat) := (form.sort.arrange form.counts.entries).zipIdx

end TallyForm

namespace PrimaryTables

variable (s : PrimaryTables)

theorem nodup_markAspirant (form : TallyForm) (ranked : TallyEntry × Nat) :
    ((Rows.update Aspirant.aspirantId ranked.1.aspirantId (form.markAspirant ranked) s.aspirants).map
      Aspirant.aspirantId).Nodup := by
  rw [Rows.map_update]
  · exact s.nodup
  · intro a _ _
    rw [TallyForm.markAspirant]
    split
    · rfl
    · rfl

/-- The body of the loop. -/
def recordEntry (form : TallyForm) (s : PrimaryTables) (ranked : TallyEntry × Nat) : PrimaryTables where
  aspirants := Rows.update Aspirant.aspirantId ranked.1.aspirantId (form.markAspirant ranked) s.aspirants
  nodup := s.nodup_markAspirant form ranked
  voteTallies := form.recordTally ranked s.voteTallies

def tally (form : TallyForm) : PrimaryTables := form.ranking.foldl (recordEntry form) s

/-- A new aspirant is no winner. -/
def register (aspirantId : String) (electionId : Int) (partyCode : String) : PrimaryTables :=
  if h : aspirantId ∈ s.aspirants.map Aspirant.aspirantId then s
  else
    { s with
      aspirants := s.aspirants ++ [⟨aspirantId, electionId, partyCode, 0, false⟩]
      nodup := Rows.nodup_map_append_singleton s.nodup h }

end PrimaryTables

inductive PrimaryAct
  | register (aspirantId : String) (electionId : Int) (partyCode : String)
  | tally (form : TallyForm)

def step (s : PrimaryTables) : PrimaryAct → PrimaryTables
  | .register aspirantId electionId partyCode => s.register aspirantId electionId partyCode
  | .tally form => s.tally form

/-- Strictly more than half of the valid votes. -/
def HasMajority (counts : VoteCounts) (aspirantId : String) : Prop :=
  counts.totalVotes < 2 * counts.votes aspirantId

/-- The winners of the election are those with a majority in the round, and there is one at most. -/
structure MarksRight (s : PrimaryTables) (form : TallyForm) : Prop where
  marked : ∀ a ∈ s.aspirants, a.electionId = form.electionId →
    (a.isWinner = true ↔ HasMajority form.counts a.aspirantId)
  unique : ∀ a ∈ s.aspirants, ∀ b ∈ s.aspirants, a.electionId = form.electionId → b.electionId = form.electionId →
    a.isWinner = true → b.isWinner = true → a = b

def WinnersRight (s : PrimaryTables) : PrimaryAct → Prop
  | .tally form => MarksRight (step s (.tally form)) form
  | .register .. => True

/-- The tally writes this row. -/
def TallyForm.Writes (form : TallyForm) (a : Aspirant) : Prop :=
  a.aspirantId ∈ form.counts.entries.map TallyEntry.aspirantId ∧ a.partyCode = form.partyCode ∧
    form.updated a.aspirantId = true

/-- The share from which the percentage is above 50: 0.50005, as exactly as a `Float64` tells. -/
def Decisive (counts : VoteCounts) (aspirantId : String) : Prop :=
  9008099974666465 * Float64.ofNat counts.totalVotes < 2 ^ 54 * Float64.ofNat (counts.votes aspirantId)

/-- No share lies between one half and the decisive one, and a row that is not written is marked already as it
should be. -/
def Careful (s : PrimaryTables) : PrimaryAct → Prop
  | .tally form => ∀ a ∈ s.aspirants, a.electionId = form.electionId →
      (form.Writes a → ¬HasMajority form.counts a.aspirantId ∨ Decisive form.counts a.aspirantId) ∧
        (¬form.Writes a → (a.isWinner = true ↔ HasMajority form.counts a.aspirantId))
  | .register .. => True

/-! ### Shares -/

/-- From the number before 0.50005 on downwards the share is rounded to 50 percent at most. -/
theorem percentage_le_of_share_le {share : Nat} (h : share ≤ 4504049987333232 * 2 ^ 1021) :
    Float64.div (Float64.roundInt (Float64.mul share (Float64.ofNat 10000)))
    (Float64.ofNat 100) ≤ Float64.ofNat 50 := by
  have hbelow : 2 * Float64.mul (4504049987333232 * 2 ^ 1021)
      (Float64.ofNat 10000) < (2 * 5000 + 1) * Float64.one := by
    decide +kernel
  have hmul := @Float64.mul_mono _ _ (Float64.ofNat 10000) h
  have hround := @Float64.roundInt_le (Float64.mul share (Float64.ofNat 10000)) 5000 (by omega)
  have hfifty : Float64.div (5000 * Float64.one) (Float64.ofNat 100) = Float64.ofNat 50 := by decide +kernel
  rw [← hfifty]
  exact Float64.div_mono (Float64.ofNat_pos (by decide)) hround

theorem lt_percentage_of_le_share {share : Nat} (h : (4504049987333232 + 1) * 2 ^ 1021 ≤ share) :
    Float64.ofNat 50 < Float64.div (Float64.roundInt (Float64.mul share (Float64.ofNat 10000)))
    (Float64.ofNat 100) := by
  have habove : (2 * 5000 + 1) * Float64.one ≤
      2 * Float64.mul ((4504049987333232 + 1) * 2 ^ 1021) (Float64.ofNat 10000) := by
    decide +kernel
  have hmul := @Float64.mul_mono _ _ (Float64.ofNat 10000) h
  have hround := @Float64.le_roundInt (Float64.mul share (Float64.ofNat 10000)) 5000 (by omega)
  have hfifty : Float64.ofNat 50 < Float64.div ((5000 + 1) * Float64.one) (Float64.ofNat 100) := by decide +kernel
  exact Nat.lt_of_lt_of_le hfifty (Float64.div_mono (Float64.ofNat_pos (by decide)) hround)

/-- The percentage is above 50 from the decisive share on. -/
theorem percentage_gt_iff {votes total : Nat} (htotal : 0 < total) :
    Float64.ofNat 50 < percentage votes total ↔
      9008099974666465 * Float64.ofNat total < 2 ^ 54 * Float64.ofNat votes := by
  have hpos := Float64.ofNat_pos htotal
  have hone : Float64.one = 2 ^ 53 * 2 ^ 1021 := by decide +kernel
  rw [percentage, if_pos htotal]
  constructor
  · intro h
    by_contra hshare
    have hmid : ∀ unit, 2 * (Float64.ofNat votes * (2 ^ 53 * unit)) ≤
        (2 * 4504049987333232 + 1) * unit * Float64.ofNat total := by
      intro unit
      have hscaled := Nat.mul_le_mul_right unit (Nat.le_of_not_lt hshare)
      linarith
    have hshare : 2 * (Float64.ofNat votes * Float64.one) ≤
        (2 * 4504049987333232 + 1) * 2 ^ 1021 * Float64.ofNat total := by
      rw [hone]
      exact hmid (2 ^ 1021)
    have hle := Rounding.significand_le_of_le_mid hpos (by decide : 2 ^ 52 ≤ 4504049987333232)
      (by decide) (by decide)
      hshare
    exact absurd h (Nat.not_lt.mpr (percentage_le_of_share_le hle))
  · intro h
    have hmid : ∀ drop, (2 * 4504049987333232 + 1) * 2 ^ drop * Float64.ofNat total <
        2 * (Float64.ofNat votes * (2 ^ 53 * 2 ^ drop)) := by
      intro drop
      have hscaled := Nat.mul_lt_mul_of_pos_right h (Nat.two_pow_pos drop)
      linarith
    have hshare : (2 * 4504049987333232 + 1) * 2 ^ 1021 * Float64.ofNat total <
        2 * (Float64.ofNat votes * Float64.one) := by
      rw [hone]
      exact hmid 1021
    exact lt_percentage_of_le_share (Rounding.le_significand_of_mid_lt hpos (by decide) (by decide) hshare)

/-- Half of the votes are not decisive. -/
theorem not_decisive_of_le {votes total : Nat} (h : 2 * votes ≤ total) :
    ¬9008099974666465 * Float64.ofNat total < 2 ^ 54 * Float64.ofNat votes := by
  have hmono := Float64.ofNat_mono h
  rw [Float64.ofNat_two_mul] at hmono
  omega

/-! ### Counts -/

section Counts

variable {counts : VoteCounts}

theorem votes_of_mem {e : TallyEntry} (he : e ∈ counts.entries) : counts.votes e.aspirantId = e.votes := by
  have hfind := (Rows.find?_key_eq_some_iff counts.nodup).mpr ⟨he, rfl⟩
  rw [VoteCounts.votes, hfind]
  rfl

theorem votes_of_notMem {aspirantId : String} (h : aspirantId ∉ counts.entries.map TallyEntry.aspirantId) :
    counts.votes aspirantId = 0 := by
  have hnone : (counts.entries.find? fun e => e.aspirantId == aspirantId) = none := by
    rw [List.find?_eq_none]
    intro e he heq
    rw [beq_iff_eq] at heq
    exact h (heq ▸ List.mem_map_of_mem he)
  rw [VoteCounts.votes, hnone]
  rfl

theorem votes_le_total {e : TallyEntry} (he : e ∈ counts.entries) : e.votes ≤ counts.totalVotes :=
  List.single_le_sum (fun _ _ => Nat.zero_le _) _ (List.mem_map_of_mem he)

/-- Two entries have no more votes than there are. -/
theorem add_votes_le_total {e e' : TallyEntry} (he : e ∈ counts.entries)
    (he' : e' ∈ counts.entries) (hne : e ≠ e') :
    e.votes + e'.votes ≤ counts.totalVotes := by
  have hperm := List.perm_cons_erase he
  have hsum := (hperm.map TallyEntry.votes).sum_eq
  rw [List.map_cons, List.sum_cons] at hsum
  have hrest := List.single_le_sum (fun _ _ => Nat.zero_le _) _
    (@List.mem_map_of_mem _ _ _ _ TallyEntry.votes ((List.mem_erase_of_ne hne.symm).mpr he'))
  rw [VoteCounts.totalVotes, hsum]
  omega

/-- There is a majority of one aspirant at most. -/
theorem majority_unique {aspirantId other : String} (h : HasMajority counts aspirantId)
    (hother : HasMajority counts other) : aspirantId = other := by
  have hentry : ∀ id, HasMajority counts id → ∃ e ∈ counts.entries, e.aspirantId = id := by
    intro id hid
    by_contra hnone
    have hzero := @votes_of_notMem counts id (by
      rintro hmem
      obtain ⟨e, he, heq⟩ := List.mem_map.mp hmem
      exact hnone ⟨e, he, heq⟩)
    rw [HasMajority, hzero] at hid
    omega
  obtain ⟨e, he, rfl⟩ := hentry aspirantId h
  obtain ⟨e', he', rfl⟩ := hentry other hother
  rw [HasMajority, votes_of_mem he] at h
  rw [HasMajority, votes_of_mem he'] at hother
  by_contra hne
  have hsum := add_votes_le_total he he' (fun heq => hne (congrArg _ heq))
  omega

theorem hasMajority_of_decisive {aspirantId : String} (h : Decisive counts aspirantId) :
    HasMajority counts aspirantId := by
  rw [HasMajority]
  by_contra hle
  exact not_decisive_of_le (Nat.le_of_not_lt hle) h

end Counts

/-! ### What a tally marks -/

section Marks

variable {form : TallyForm}

theorem ranking_map_fst : form.ranking.map Prod.fst = form.sort.arrange form.counts.entries :=
  List.zipIdx_map_fst 0 _

/-- The ids are those of the counts, in another order. -/
theorem ranking_map_aspirantId :
    (form.ranking.map fun p => p.1.aspirantId).Perm (form.counts.entries.map TallyEntry.aspirantId) := by
  have hmap : (form.ranking.map fun p => p.1.aspirantId) =
      (form.sort.arrange form.counts.entries).map TallyEntry.aspirantId := by
    rw [← ranking_map_fst, List.map_map]
    rfl
  rw [hmap]
  exact (form.sort.perm _).map _

theorem nodup_ranking : (form.ranking.map fun p => p.1.aspirantId).Nodup :=
  ranking_map_aspirantId.nodup_iff.mpr form.counts.nodup

theorem mem_entries_of_mem_ranking {p : TallyEntry × Nat} (h : p ∈ form.ranking) : p.1 ∈ form.counts.entries := by
  have hmem : p.1 ∈ form.ranking.map Prod.fst := List.mem_map_of_mem h
  rw [ranking_map_fst] at hmem
  exact (form.sort.perm _).mem_iff.mp hmem

/-- Whoever has a majority comes first. -/
theorem rank_eq_zero {p : TallyEntry × Nat} (hp : p ∈ form.ranking)
    (h : form.counts.totalVotes < 2 * p.1.votes) : p.2 = 0 := by
  have hget := List.mem_zipIdx_iff_getElem?.mp hp
  obtain ⟨hlt, hentry⟩ := List.getElem?_eq_some_iff.mp hget
  by_contra hrank
  have hpos : 0 < p.2 := Nat.pos_of_ne_zero hrank
  have hfirst : 0 < (form.sort.arrange form.counts.entries).length := Nat.lt_trans hpos hlt
  have hdescending := (List.pairwise_iff_getElem.mp
    (form.sort.descending form.counts.entries)) 0 p.2 hfirst hlt hpos
  have hnodup : (form.sort.arrange form.counts.entries).Nodup :=
    (form.sort.perm _).nodup_iff.mpr form.counts.nodup.of_map
  have hne : (form.sort.arrange form.counts.entries)[0] ≠ p.1 := by
    rw [← hentry]
    intro heq
    exact hrank ((List.Nodup.getElem_inj_iff hnodup).mp heq).symm
  have hsum := add_votes_le_total ((form.sort.perm _).mem_iff.mp (List.getElem_mem hfirst))
    (mem_entries_of_mem_ranking hp) hne
  rw [hentry] at hdescending
  omega

/-- The mark of an entry says whether its share is decisive. -/
theorem wins_iff {p : TallyEntry × Nat} (hp : p ∈ form.ranking) :
    wins form.counts.totalVotes p.1 p.2 = true ↔ Decisive form.counts p.1.aspirantId := by
  have hentry := mem_entries_of_mem_ranking hp
  have hle := votes_le_total hentry
  have hvotes := votes_of_mem hentry
  rw [wins, Bool.and_eq_true, beq_iff_eq, decide_eq_true_eq]
  by_cases htotal : 0 < form.counts.totalVotes
  · rw [percentage_gt_iff htotal, Decisive, hvotes]
    constructor
    · intro h
      exact h.2
    · intro h
      have hmajority : form.counts.totalVotes < 2 * p.1.votes := by
        by_contra hnot
        exact not_decisive_of_le (Nat.le_of_not_lt hnot) h
      exact ⟨rank_eq_zero hp hmajority, h⟩
  · have hzero : p.1.votes = 0 := by omega
    constructor
    · intro h
      rw [percentage, if_neg htotal] at h
      exact absurd h.2 (Nat.not_lt_zero _)
    · intro h
      rw [Decisive, hvotes, hzero, Float64.ofNat_zero] at h
      exact absurd h (Nat.not_lt_zero _)

theorem markAspirant_aspirantId (p : TallyEntry × Nat) (a : Aspirant) :
    (form.markAspirant p a).aspirantId = a.aspirantId := by
  rw [TallyForm.markAspirant]
  split
  · rfl
  · rfl

/-- All updates of the loop at once. -/
theorem aspirants_tally (s : PrimaryTables) :
    (s.tally form).aspirants = s.aspirants.map fun a =>
      ((form.ranking.find? fun p => p.1.aspirantId == a.aspirantId).elim a fun p => form.markAspirant p a) := by
  have hfold : ∀ (ranked : List (TallyEntry × Nat)) (s : PrimaryTables),
      (ranked.foldl (PrimaryTables.recordEntry form) s).aspirants =
        ranked.foldl (fun rows p => Rows.update Aspirant.aspirantId p.1.aspirantId (form.markAspirant p) rows)
          s.aspirants := by
    intro ranked
    induction ranked with
    | nil => exact fun _ => rfl
    | cons p ranked ih => exact fun s => ih _
  rw [PrimaryTables.tally, hfold]
  exact Rows.foldl_update _ _ markAspirant_aspirantId nodup_ranking _

/-- The row of an aspirant after the tally. -/
def TallyForm.marked (form : TallyForm) (a : Aspirant) : Aspirant :=
  (form.ranking.find? fun p => p.1.aspirantId == a.aspirantId).elim a fun p => form.markAspirant p a

theorem exists_ranking_iff {a : Aspirant} :
    a.aspirantId ∈ form.counts.entries.map TallyEntry.aspirantId ↔
      ∃ p ∈ form.ranking, p.1.aspirantId = a.aspirantId := by
  rw [← ranking_map_aspirantId.mem_iff, List.mem_map]

/-- A row that is written is marked by the share, and any other stays as it was. -/
theorem isWinner_marked_of_writes {a : Aspirant} (h : form.Writes a) :
    (form.marked a).isWinner = true ↔ Decisive form.counts a.aspirantId := by
  obtain ⟨hentry, hparty, hupdated⟩ := h
  obtain ⟨p, hp, hid⟩ := exists_ranking_iff.mp hentry
  have hfind := (@Rows.find?_key_eq_some_iff _ _ (fun p : TallyEntry × Nat => p.1.aspirantId) _ _ nodup_ranking
    a.aspirantId p).mpr ⟨hp, hid⟩
  rw [TallyForm.marked, hfind, Option.elim_some, TallyForm.markAspirant,
    if_pos ⟨hparty, hid ▸ hupdated⟩, wins_iff hp, hid]

theorem marked_of_not_writes {a : Aspirant} (h : ¬form.Writes a) : form.marked a = a := by
  rw [TallyForm.marked]
  cases hfind : form.ranking.find? fun p => p.1.aspirantId == a.aspirantId with
  | none => rfl
  | some p =>
      obtain ⟨hp, hid⟩ := @Rows.find?_key _ _ (fun p : TallyEntry × Nat => p.1.aspirantId) _ _ _ _ hfind
      rw [Option.elim_some, TallyForm.markAspirant, if_neg]
      rintro ⟨hparty, hupdated⟩
      exact h ⟨exists_ranking_iff.mpr ⟨p, hp, hid⟩, hparty, hid ▸ hupdated⟩

theorem marked_electionId (a : Aspirant) : (form.marked a).electionId = a.electionId := by
  rw [TallyForm.marked]
  cases form.ranking.find? fun p => p.1.aspirantId == a.aspirantId with
  | none => rfl
  | some p =>
      rw [Option.elim_some, TallyForm.markAspirant]
      split
      · rfl
      · rfl

theorem marked_aspirantId (a : Aspirant) : (form.marked a).aspirantId = a.aspirantId := by
  rw [TallyForm.marked]
  cases form.ranking.find? fun p => p.1.aspirantId == a.aspirantId with
  | none => rfl
  | some p => exact markAspirant_aspirantId p a

/-- Marks that agree with the majorities name one winner at most. -/
theorem marksRight_iff {s : PrimaryTables} :
    MarksRight s form ↔ ∀ a ∈ s.aspirants, a.electionId = form.electionId →
      (a.isWinner = true ↔ HasMajority form.counts a.aspirantId) := by
  refine ⟨MarksRight.marked, fun h => ⟨h, ?_⟩⟩
  intro a ha b hb hea heb hwa hwb
  exact Rows.eq_of_key_eq s.nodup ha hb (majority_unique ((h a ha hea).mp hwa) ((h b hb heb).mp hwb))

end Marks

/-- A step marks the right winners exactly if it is careful. -/
theorem winnersRight_iff_careful (s : PrimaryTables) (act : PrimaryAct) : WinnersRight s act ↔ Careful s act := by
  cases act with
  | register aspirantId electionId partyCode => exact Iff.rfl
  | tally form =>
      have haspirants : (step s (.tally form)).aspirants = s.aspirants.map form.marked := aspirants_tally s
      rw [WinnersRight, marksRight_iff, haspirants, List.forall_mem_map, Careful]
      apply forall_congr'
      intro a
      apply forall_congr'
      intro _
      rw [marked_electionId, marked_aspirantId]
      apply forall_congr'
      intro _
      by_cases hwrites : form.Writes a
      · have hstrong := @hasMajority_of_decisive form.counts a.aspirantId
        rw [isWinner_marked_of_writes hwrites]
        tauto
      · rw [marked_of_not_writes hwrites]
        tauto

/-- The winners are right in every tally of a run exactly if all its tallies are careful. -/
theorem winners_right_iff (s : PrimaryTables) (acts : List PrimaryAct) :
    Runs.AllSteps step WinnersRight s acts ↔ Runs.AllSteps step Careful s acts :=
  @Runs.allSteps_congr _ _ step WinnersRight (fun _ => True) Careful (fun _ _ _ => trivial)
    (fun s act _ => winnersRight_iff_careful s act) s trivial acts

/-- A stable sort, for the cases below. -/
def sortByVotes : SortSlice where
  arrange := fun entries => entries.insertionSort fun a b => b.votes ≤ a.votes
  perm := fun entries => List.perm_insertionSort _ entries
  descending := by
    intro entries
    have := @Std.Total.mk _ (fun a b : TallyEntry => b.votes ≤ a.votes) fun a b => Nat.le_total b.votes a.votes
    have := @IsTrans.mk _ (fun a b : TallyEntry => b.votes ≤ a.votes) fun a b c hab hbc => Nat.le_trans hbc hab
    exact List.pairwise_insertionSort _ entries

/-- A tally of an election whose statements take effect. -/
def tallyOf (roundId : String) (counts : VoteCounts) : TallyForm :=
  ⟨roundId, 7, "party_1", counts, sortByVotes, fun _ => true, fun _ => true⟩

def twoAspirants : PrimaryTables :=
  ⟨[⟨"asp-a", 7, "party_1", 0, false⟩, ⟨"asp-b", 7, "party_1", 0, false⟩], by decide, []⟩

/-- In the second of two rounds only one aspirant has votes, and the winner of the first keeps the mark; and of
20001 votes 10001 do not win. -/
theorem two_winners_or_none :
    ¬Runs.AllSteps step WinnersRight twoAspirants
        [.tally (tallyOf "round-1" ⟨[⟨"asp-a", 2⟩, ⟨"asp-b", 1⟩], by decide⟩),
          .tally (tallyOf "round-2" ⟨[⟨"asp-b", 1⟩], by decide⟩)] ∧
      ¬Runs.AllSteps step WinnersRight twoAspirants
        [.tally (tallyOf "round-1" ⟨[⟨"asp-a", 10001⟩, ⟨"asp-b", 10000⟩], by decide⟩)] := by
  constructor
  · intro h
    have hunique := h.2.1.unique ⟨"asp-a", 7, "party_1", 2, true⟩ (by decide +kernel)
      ⟨"asp-b", 7, "party_1", 1, true⟩ (by decide +kernel) rfl rfl rfl rfl
    exact absurd hunique (by decide)
  · intro h
    have hmarked := h.1.marked ⟨"asp-a", 7, "party_1", 10001, false⟩ (by decide +kernel) rfl
    exact absurd (hmarked.mpr (by decide : 20001 < 2 * 10001)) (by decide)

end Inec.PrimaryWinner
