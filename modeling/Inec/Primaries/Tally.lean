import Inec.Primaries.Moves
import Mathlib.Tactic.IntervalCases

/-!
# Tallies

handleTallyRound counts the ballots of a round that have not been tallied, writes what it has counted over the
tallies and the totals of the round, and marks every ballot of the round as tallied. Counting, writing and
marking are statements of their own, with a call to the crypto backend between them.

The first tally of a round is exact if nothing is cast while it runs and every ballot is one it can count: its
choice is custodied under a handle, its vote type says what it holds, it is not a vote against and its aspirant
is of the party. Any later tally is not: it writes the counts of the new ballots over the totals of all.
-/

namespace Inec

/-- What a ballot says. -/
structure Paper where
  voteType : VoteType
  choice : Option String
  ballotRef : Option String
  deriving DecidableEq, Repr

def Ballot.paper (b : Ballot) : Paper := ⟨b.voteType, b.choice, b.ballotRef⟩

namespace Convention

variable (db : Convention)

/-- The ballots of a round that are no decoys, tallied or not. -/
def papers (roundId : String) : List Paper :=
  (db.ballots.filter fun b => b.roundId = roundId && !b.isDecoy).map Ballot.paper

/-- No ballot of the round has been tallied. -/
def Untallied (roundId : String) : Prop :=
  ∀ b ∈ db.ballots, b.roundId = roundId → b.isDecoy = false → b.tallied = false

/-- The recorded tallies and totals of a round are those of its ballots. -/
def Exact (roundId : String) : Prop :=
  (∀ aspirantId, (db.voteTallies roundId aspirantId).getD 0 = (db.papers roundId).countP
    (·.choice = some aspirantId)) ∧ ∃ r, db.round? roundId = some r ∧ r.totalValidVotes =
      (db.papers roundId).countP (·.choice.isSome) ∧ r.totalInvalidVotes = (db.papers roundId).countP
        (·.voteType = .spoiled) ∧ r.totalVotesCast = (db.papers roundId).length

/-- A ballot the statements of a tally can count. -/
def Countable (p : Paper) : Prop :=
  p.voteType ≠ .against ∧ (p.choice.isSome = true ↔ p.voteType = .favour) ∧
    (p.choice.isSome = true → p.ballotRef.isSome = true)

instance (roundId : String) : Decidable (db.Untallied roundId) := inferInstanceAs (Decidable (∀ b ∈ db.ballots, _))

instance (p : Paper) : Decidable (Countable p) := inferInstanceAs (Decidable (_ ∧ _ ∧ _))

end Convention

/-- A tally leaves exact numbers behind. -/
def TallyExact (custody : String → Option String) (s : Primaries) (act : PrimariesAct) : Prop :=
  ∀ request ok form votes abstentions spoiled, act = .tally request (.total ok) →
    s.tallies request = .settled form votes abstentions spoiled → (s.step custody act).db.Exact form.roundId

/-- A tally of a round is its first, and counts ballots that can be counted; while it runs no other tally of the
round is begun and no ballot is inserted into the round, and what it writes is written. -/
def TalliesOnce (s : Primaries) : PrimariesAct → Prop
  | .vote request (.insert _ _) => ∀ v n ballotRef choice, s.votes request = .sealed v n ballotRef choice →
      ∀ other form, (s.tallies other).running? = some form → form.roundId ≠ v.roundId
  | .tally request (.count form) =>
      s.tallies request = .idle → s.db.partyOwnsRound form.roundId form.partyCode = true →
        s.db.Untallied form.roundId ∧ (∀ p ∈ s.db.papers form.roundId, Convention.Countable p) ∧
          ∀ other running, (s.tallies other).running? = some running → running.roundId ≠ form.roundId
  | .tally request (.aggregate _) => ∀ form votes refs, s.tallies request = .selected form votes refs →
      ∀ p ∈ s.db.papers form.roundId, ∀ aspirantId, p.choice = some aspirantId →
        s.db.ofParty aspirantId form.partyCode = true
  | .tally request (.record ok) =>
      ∀ form votes abstentions spoiled, s.tallies request = .surveyed form votes abstentions spoiled →
        ∀ aspirantId ∈ votes, ok aspirantId = true
  | .tally request (.total ok) =>
      ∀ form votes abstentions spoiled, s.tallies request = .settled form votes abstentions spoiled →
        ok = true ∧ s.db.partyHasDelegates form.roundId form.partyCode = true
  | _ => True

/-! ### What a running tally has counted -/

/-- The tally this request is running, as long as it reads ballots. -/
def TallyPhase.reading? : TallyPhase → Option TallyForm
  | counted form _ => some form
  | selected form _ _ => some form
  | aggregated form _ => some form
  | abstained form _ _ => some form
  | _ => none

theorem TallyPhase.running?_of_reading? {p : TallyPhase} {form : TallyForm} (h : p.reading? = some form) :
    p.running? = some form := by
  cases p <;> first | exact h | cases h

namespace Convention

variable (custody : String → Option String) (db after : Convention)

/-- A ballot that is no decoy holds no aspirant in clear, and its handle stands for what was chosen. -/
def Kept (b : Ballot) : Prop :=
  b.isDecoy = false → b.aspirantId = none ∧ ∀ ref, b.ballotRef = some ref → custody ref = b.choice

/-- The aspirants the ballots of a round are for. -/
def choices (roundId : String) : List String := (db.papers roundId).filterMap Paper.choice

def abstentions (roundId : String) : Nat := (db.papers roundId).countP (·.voteType = .abstain)

def spoiled (roundId : String) : Nat := (db.papers roundId).countP (·.voteType = .spoiled)

/-- The recorded tallies of a round are those of its ballots. -/
def Listed (roundId : String) : Prop :=
  ∀ aspirantId, (db.voteTallies roundId aspirantId).getD 0 = (db.choices roundId).count aspirantId

def Facts : TallyPhase → Prop
  | .counted _ votes => votes = []
  | .selected form votes refs => votes = [] ∧ refs = (db.papers form.roundId).filterMap (·.ballotRef)
  | .aggregated form votes => votes = db.choices form.roundId
  | .abstained form votes abstentions => votes = db.choices form.roundId ∧ abstentions = db.abstentions form.roundId
  | .surveyed form votes abstentions spoiled =>
      votes = db.choices form.roundId ∧ abstentions = db.abstentions form.roundId ∧ spoiled =
        db.spoiled form.roundId
  | .recorded form votes abstentions spoiled =>
      (votes = db.choices form.roundId ∧ abstentions = db.abstentions form.roundId ∧ spoiled =
        db.spoiled form.roundId) ∧ db.Listed form.roundId
  | .settled form votes abstentions spoiled =>
      (votes = db.choices form.roundId ∧ abstentions = db.abstentions form.roundId ∧ spoiled =
        db.spoiled form.roundId) ∧ db.Listed form.roundId
  | _ => True

/-- Nothing that a tally of the round reads or has written is changed. -/
structure SameRound (roundId : String) : Prop where
  papers : after.papers roundId = db.papers roundId
  untallied : db.Untallied roundId → after.Untallied roundId
  tallies : after.voteTallies roundId = db.voteTallies roundId

variable {custody db after}

theorem SameRound.of_eq {roundId : String} (hballots : after.ballots = db.ballots)
    (htallies : after.voteTallies = db.voteTallies) :
    db.SameRound after roundId where
  papers := by rw [Convention.papers, hballots, Convention.papers]
  untallied := by
    intro h b hb
    exact h b (hballots ▸ hb)
  tallies := by rw [htallies]

/-- A tally is still right when nothing of its round has changed. -/
theorem Facts.congr {p : TallyPhase} {form : TallyForm} (hrunning : p.running? = some form)
    (hsame : db.SameRound after form.roundId) (h : db.Facts p) : after.Facts p := by
  have hchoices : after.choices form.roundId = db.choices form.roundId := by rw [choices, hsame.papers, choices]
  have habstentions : after.abstentions form.roundId = db.abstentions form.roundId := by
    rw [abstentions, hsame.papers, abstentions]
  have hspoiled : after.spoiled form.roundId = db.spoiled form.roundId := by rw [spoiled, hsame.papers, spoiled]
  have hlisted : db.Listed form.roundId → after.Listed form.roundId := by
    intro hlisted aspirantId
    rw [hsame.tallies, hchoices]
    exact hlisted aspirantId
  cases p with
  | idle => cases hrunning
  | totalled => cases hrunning
  | done => cases hrunning
  | refused => cases hrunning
  | counted form' votes => exact h
  | selected form' votes refs =>
      obtain rfl := Option.some.inj hrunning
      rw [Facts, hsame.papers]
      exact h
  | aggregated form' votes =>
      obtain rfl := Option.some.inj hrunning
      rw [Facts, hchoices]
      exact h
  | abstained form' votes n =>
      obtain rfl := Option.some.inj hrunning
      rw [Facts, hchoices, habstentions]
      exact h
  | surveyed form' votes n m =>
      obtain rfl := Option.some.inj hrunning
      rw [Facts, hchoices, habstentions, hspoiled]
      exact h
  | recorded form' votes n m =>
      obtain rfl := Option.some.inj hrunning
      rw [Facts, hchoices, habstentions, hspoiled]
      exact ⟨h.1, hlisted h.2⟩
  | settled form' votes n m =>
      obtain rfl := Option.some.inj hrunning
      rw [Facts, hchoices, habstentions, hspoiled]
      exact ⟨h.1, hlisted h.2⟩

/-! ### The statements of a tally -/

section Statements

variable {roundId partyCode : String}

theorem map_paper_untallied (h : db.Untallied roundId) :
    (db.untallied roundId).map Ballot.paper = db.papers roundId := by
  rw [untallied, papers]
  congr 1
  apply List.filter_congr
  intro b hb
  by_cases hround : b.roundId = roundId
  · cases hdecoy : b.isDecoy with
    | true => simp
    | false => simp [h b hb hround hdecoy]
  · simp [hround]

theorem cleartextVotes_eq_nil (h : ∀ b ∈ db.ballots, Kept custody b) :
    db.cleartextVotes roundId partyCode = [] := by
  rw [cleartextVotes, List.filterMap_eq_nil_iff]
  intro b hb
  have hb := List.mem_of_mem_filter hb
  simp only [untallied, List.mem_filter, Bool.and_eq_true, Bool.not_eq_true'] at hb
  rw [(h b hb.1 hb.2.1.2).1]
  rfl

theorem custodiedRefs_eq (h : db.Untallied roundId) :
    db.custodiedRefs roundId = (db.papers roundId).filterMap (·.ballotRef) := by
  rw [← map_paper_untallied h, List.filterMap_map]
  rfl

theorem countType_eq (h : db.Untallied roundId) (voteType : VoteType) :
    db.countType roundId voteType = (db.papers roundId).countP (·.voteType = voteType) := by
  rw [← map_paper_untallied h, List.countP_map]
  rfl

/-- What a paper of a ballot of the tables says. -/
theorem mem_papers {p : Paper} : p ∈ db.papers roundId ↔ ∃ b ∈ db.ballots, b.roundId = roundId ∧ b.isDecoy =
      false ∧ b.paper = p := by
  simp only [papers, List.mem_map, List.mem_filter, Bool.and_eq_true, decide_eq_true_eq,
    Bool.not_eq_true', and_assoc]

/-- The backend's counts of the handles are the choices of the ballots. -/
theorem filterMap_custody (hkept : ∀ b ∈ db.ballots, Kept custody b)
    (hcountable : ∀ p ∈ db.papers roundId, Countable p) :
    ((db.papers roundId).filterMap (·.ballotRef)).filterMap custody = db.choices roundId := by
  rw [List.filterMap_filterMap, choices]
  apply List.filterMap_congr
  intro p hp
  obtain ⟨b, hb, hround, hdecoy, rfl⟩ := mem_papers.mp hp
  cases href : b.paper.ballotRef with
  | some ref =>
      rw [Option.bind_some]
      exact (hkept b hb hdecoy).2 ref href
  | none =>
      rw [Option.bind_none]
      cases hchoice : b.paper.choice with
      | none => rfl
      | some aspirantId =>
          have hsome := (hcountable _ hp).2.2 (by rw [hchoice]; rfl)
          rw [href] at hsome
          cases hsome

theorem papers_markTallied (marked : String) : (db.markTallied marked).papers roundId = db.papers roundId := by
  apply filter_map_markTallied
  · intro b
    rfl
  · intro b
    rfl

/-- Marking another round changes nothing of this one. -/
theorem sameRound_markTallied {marked : String} (h : roundId ≠ marked) :
    db.SameRound (db.markTallied marked) roundId where
  papers := papers_markTallied marked
  untallied := by
    intro huntallied b hb hround hdecoy
    obtain ⟨b₀, hb₀, rfl⟩ := List.mem_map.mp hb
    by_cases hmarked : b₀.roundId = marked
    · rw [if_pos hmarked] at hround
      exact absurd (hround.symm.trans hmarked) h
    · rw [if_neg hmarked] at hround hdecoy ⊢
      exact huntallied b₀ hb₀ hround hdecoy
  tallies := rfl

theorem sameRound_recordTallies {recorded : String} (h : roundId ≠ recorded) (votes : List String)
    (ok : String → Bool) :
    db.SameRound (db.recordTallies recorded votes ok) roundId where
  papers := rfl
  untallied h := h
  tallies := by
    funext aspirantId
    rw [recordTallies]
    exact if_neg fun hall => h hall.1

/-- A ballot of another round, or a decoy, changes nothing of this one. -/
theorem sameRound_append {b : Ballot} (hballots : after.ballots = db.ballots ++ [b])
    (htallies : after.voteTallies = db.voteTallies) (h : b.roundId = roundId → b.isDecoy = true) :
    db.SameRound after roundId where
  papers := by
    rw [papers, hballots, List.filter_append, List.filter_cons_of_neg, List.filter_nil, List.append_nil, papers]
    intro hmem
    simp only [Bool.and_eq_true, decide_eq_true_eq, Bool.not_eq_true'] at hmem
    rw [h hmem.1] at hmem
    cases hmem.2
  untallied := by
    intro huntallied b' hb' hround hdecoy
    rw [hballots, List.mem_append, List.mem_singleton] at hb'
    rcases hb' with hb' | rfl
    · exact huntallied b' hb' hround hdecoy
    · rw [h hround] at hdecoy
      cases hdecoy
  tallies := by rw [htallies]

/-- What ballots are for is kept when one is added. -/
theorem choices_append {b : Ballot} (hballots : after.ballots = db.ballots ++ [b]) {aspirantId : String}
    (h : aspirantId ∈ db.choices roundId) : aspirantId ∈ after.choices roundId := by
  rw [choices, papers, hballots, List.filter_append, List.map_append, List.filterMap_append]
  exact List.mem_append_left _ h

theorem recordTotals_voteTallies (cast valid invalid : Nat) :
    (db.recordTotals roundId partyCode cast valid invalid).voteTallies = db.voteTallies := by
  rw [recordTotals]
  split <;> rfl

theorem recordTotals_round? {r : VotingRound} (hr : db.round? roundId = some r)
    (hparty : db.partyHasDelegates roundId partyCode = true) (cast valid invalid : Nat) :
    (db.recordTotals roundId partyCode cast valid invalid).round? roundId =
      some { r with status := .tallying, totalVotesCast := cast, totalValidVotes := valid, totalInvalidVotes := invalid } := by
  rw [recordTotals, if_pos hparty, round?_updateRound (by intro r; rfl), hr, Option.map_some, if_pos (round?_id hr)]

theorem recordTallies_voteTallies (votes : List String) (ok : String → Bool) (id aspirantId : String) :
    (db.recordTallies roundId votes ok).voteTallies id aspirantId =
      if id = roundId ∧ aspirantId ∈ votes ∧ ok aspirantId = true then some (votes.count aspirantId)
      else db.voteTallies id aspirantId := rfl

/-- Where a row can only be there for an aspirant with a ballot, the upserts make the tallies those of the
ballots. -/
theorem listed_recordTallies {votes : List String} {ok : String → Bool} (hvotes : votes = db.choices roundId)
    (hok : ∀ aspirantId ∈ votes, ok aspirantId = true)
    (hrows : ∀ aspirantId, db.voteTallies roundId aspirantId ≠ none → aspirantId ∈ db.choices roundId) :
    (db.recordTallies roundId votes ok).Listed roundId := by
  intro aspirantId
  rw [show (db.recordTallies roundId votes ok).choices roundId = votes from hvotes.symm]
  by_cases hmem : aspirantId ∈ votes
  · rw [recordTallies_voteTallies, if_pos ⟨rfl, hmem, hok aspirantId hmem⟩]
    rfl
  · rw [recordTallies_voteTallies, if_neg fun hall => hmem hall.2.1, List.count_eq_zero_of_not_mem hmem]
    have hnone : db.voteTallies roundId aspirantId = none := by
      by_contra hne
      exact hmem (hvotes ▸ hrows aspirantId hne)
    rw [hnone]
    rfl

/-- Ballots that can be counted are for an aspirant, an abstention or spoiled. -/
theorem length_papers (h : ∀ p ∈ db.papers roundId, Countable p) :
    (db.choices roundId).length + db.abstentions roundId + db.spoiled roundId = (db.papers roundId).length := by
  rw [choices, abstentions, spoiled]
  generalize db.papers roundId = papers at h
  induction papers with
  | nil => rfl
  | cons p rest ih =>
      rw [List.forall_mem_cons] at h
      have ih := ih h.2
      obtain ⟨hagainst, hfavour, -⟩ := h.1
      rw [List.countP_cons, List.countP_cons, List.length_cons]
      cases hchoice : p.choice with
      | some aspirantId =>
          rw [hchoice] at hfavour
          rw [List.filterMap_cons_some hchoice, hfavour.mp rfl, List.length_cons]
          simp only [reduceCtorEq, decide_false, Bool.false_eq_true, if_false]
          omega
      | none =>
          rw [hchoice] at hfavour
          rw [List.filterMap_cons_none hchoice]
          cases hvote : p.voteType with
          | favour => cases hfavour.mpr hvote
          | against => exact absurd hvote hagainst
          | abstain =>
              simp only [reduceCtorEq, decide_false, decide_true, Bool.false_eq_true, if_false, if_true]
              omega
          | spoiled =>
              simp only [reduceCtorEq, decide_false, decide_true, Bool.false_eq_true, if_false, if_true]
              omega

/-- The totals of a tally that has counted right. -/
theorem exact_recordTotals (hcountable : ∀ p ∈ db.papers roundId, Countable p) (hlisted : db.Listed roundId)
    (hparty : db.partyHasDelegates roundId partyCode = true) :
    (db.recordTotals roundId partyCode ((db.choices roundId).length + db.abstentions roundId + db.spoiled roundId)
      (db.choices roundId).length (db.spoiled roundId)).Exact roundId := by
  obtain ⟨r, hr, -⟩ := (Option.any_eq_true _ _).mp hparty
  have hcount : (db.papers roundId).countP (·.choice.isSome) = (db.choices roundId).length := by
    rw [choices, List.length_filterMap_eq_countP]
  rw [recordTotals, if_pos hparty, length_papers hcountable]
  refine ⟨?_, ?_⟩
  · intro aspirantId
    refine (hlisted aspirantId).trans ?_
    rw [choices, List.count_filterMap]
    apply List.countP_congr
    intro p _
    simp
  · have hround := recordTotals_round? hr hparty (db.papers roundId).length (db.choices roundId).length
      (db.spoiled roundId)
    rw [recordTotals, if_pos hparty] at hround
    exact ⟨_, hround, hcount.symm, rfl, rfl⟩

end Statements

end Convention

/-! ### What the steps keep -/

structure Primaries.TallySound (custody : String → Option String) (s : Primaries) : Prop where
  kept : ∀ b ∈ s.db.ballots, Convention.Kept custody b
  sealed : ∀ request v n ballotRef choice, s.votes request = .sealed v n ballotRef choice →
    Primaries.keeps custody ballotRef choice = true
  /-- The ballots of a round whose tally is running can be counted. -/
  countable : ∀ request form, (s.tallies request).running? = some form → ∀ p ∈ s.db.papers form.roundId,
    Convention.Countable p
  untallied : ∀ request form, (s.tallies request).reading? = some form → s.db.Untallied form.roundId
  alone : ∀ request other form form', (s.tallies request).running? = some form →
    (s.tallies other).running? = some form' → form.roundId = form'.roundId → request = other
  facts : ∀ request, s.db.Facts (s.tallies request)
  /-- A row of the tallies is for an aspirant with a ballot. -/
  rows : ∀ roundId aspirantId, s.db.voteTallies roundId aspirantId ≠ none → aspirantId ∈ s.db.choices roundId

section TallySound

variable {custody : String → Option String} {s : Primaries} {request : Nat} {db : Convention}

/-- The tables change, but not in a round that is being tallied. -/
theorem Primaries.TallySound.tables (h : s.TallySound custody) {votes : Nat → VotePhase}
    {auths : Nat → AuthenticatePhase} (hkept : ∀ b ∈ db.ballots, Convention.Kept custody b)
    (hsealed : ∀ request v n ballotRef choice, votes request = .sealed v n ballotRef choice →
      Primaries.keeps custody ballotRef choice = true)
    (hsame : ∀ request form, (s.tallies request).running? = some form → s.db.SameRound db form.roundId)
    (hrows : ∀ roundId aspirantId, db.voteTallies roundId aspirantId ≠ none → aspirantId ∈ db.choices roundId) :
    Primaries.TallySound custody ⟨db, votes, auths, s.tallies⟩ where
  kept := hkept
  sealed := hsealed
  countable request form hrunning := by
    rw [(hsame request form hrunning).papers]
    exact h.countable request form hrunning
  untallied request form hreading :=
    (hsame request form (TallyPhase.running?_of_reading? hreading)).untallied (h.untallied request form hreading)
  alone := h.alone
  facts request := by
    cases hrunning : (s.tallies request).running? with
    | some form => exact (h.facts request).congr hrunning (hsame request form hrunning)
    | none =>
        dsimp only
        cases hphase : s.tallies request <;> first | trivial | (rw [hphase] at hrunning; cases hrunning)
  rows := hrows

/-- One tally moves on, and nothing changes in the rounds of the others. -/
theorem Primaries.TallySound.move (h : s.TallySound custody) {p : TallyPhase}
    (hkept : ∀ b ∈ db.ballots, Convention.Kept custody b)
    (hsame : ∀ other form, other ≠ request → (s.tallies other).running? = some form →
      s.db.SameRound db form.roundId)
    (hself : ∀ form, p.running? = some form → (∀ q ∈ db.papers form.roundId, Convention.Countable q) ∧
      ∀ other form', other ≠ request → (s.tallies other).running? = some form' → form'.roundId ≠ form.roundId)
    (huntallied : ∀ form, p.reading? = some form → db.Untallied form.roundId) (hfacts : db.Facts p)
    (hrows : ∀ roundId aspirantId, db.voteTallies roundId aspirantId ≠ none → aspirantId ∈ db.choices roundId) :
    ({ s with db := db }.setTally request p).TallySound custody where
  kept := hkept
  sealed := h.sealed
  countable other form hrunning := by
    by_cases heq : other = request
    · rw [heq, Primaries.setTally_tallies_self] at hrunning
      exact (hself form hrunning).1
    · rw [Primaries.setTally_tallies_of_ne _ _ heq] at hrunning
      show ∀ q ∈ db.papers form.roundId, Convention.Countable q
      rw [(hsame other form heq hrunning).papers]
      exact h.countable other form hrunning
  untallied other form hreading := by
    by_cases heq : other = request
    · rw [heq, Primaries.setTally_tallies_self] at hreading
      exact huntallied form hreading
    · rw [Primaries.setTally_tallies_of_ne _ _ heq] at hreading
      exact (hsame other form heq (TallyPhase.running?_of_reading? hreading)).untallied
        (h.untallied other form hreading)
  alone first second form form' hfirst hsecond hround := by
    by_cases heq : first = request
    · by_cases heq' : second = request
      · rw [heq, heq']
      · rw [heq, Primaries.setTally_tallies_self] at hfirst
        rw [Primaries.setTally_tallies_of_ne _ _ heq'] at hsecond
        exact absurd hround.symm ((hself form hfirst).2 second form' heq' hsecond)
    · rw [Primaries.setTally_tallies_of_ne _ _ heq] at hfirst
      by_cases heq' : second = request
      · rw [heq', Primaries.setTally_tallies_self] at hsecond
        exact absurd hround ((hself form' hsecond).2 first form heq hfirst)
      · rw [Primaries.setTally_tallies_of_ne _ _ heq'] at hsecond
        exact h.alone first second form form' hfirst hsecond hround
  facts other := by
    by_cases heq : other = request
    · rw [heq, Primaries.setTally_tallies_self]
      exact hfacts
    · rw [Primaries.setTally_tallies_of_ne _ _ heq]
      show db.Facts (s.tallies other)
      cases hrunning : (s.tallies other).running? with
      | some form => exact (h.facts other).congr hrunning (hsame other form heq hrunning)
      | none => cases hphase : s.tallies other <;> first | trivial | (rw [hphase] at hrunning; cases hrunning)
  rows := hrows

/-- A tally that goes on over the same round. -/
theorem Primaries.TallySound.others (h : s.TallySound custody) {form : TallyForm}
    (hrunning : (s.tallies request).running? = some form) (other : Nat) (form' : TallyForm)
    (hne : other ≠ request) (hother : (s.tallies other).running? = some form') :
    form'.roundId ≠ form.roundId :=
  fun hround => hne (h.alone other request form' form hother hrunning hround)

/-- A tally that only reads. -/
theorem Primaries.TallySound.read (h : s.TallySound custody) {p : TallyPhase} {form : TallyForm}
    (hrunning : (s.tallies request).running? = some form) (hafter : p.running? = some form)
    (huntallied : ∀ form, p.reading? = some form → s.db.Untallied form.roundId) (hfacts : s.db.Facts p) :
    (s.setTally request p).TallySound custody := by
  apply h.move h.kept
  · intro other form' _ _
    exact ⟨rfl, id, rfl⟩
  · intro form' hform'
    obtain rfl := Option.some.inj (hafter.symm.trans hform')
    exact ⟨h.countable request form hrunning, h.others hrunning⟩
  · exact huntallied
  · exact hfacts
  · exact h.rows

end TallySound

theorem tally_tallySound (custody : String → Option String) (s : Primaries) (request : Nat) (act : TallyAct)
    (h : s.TallySound custody) (hcond : TalliesOnce s (.tally request act)) :
    (s.tally custody request act).TallySound custody := by
  rcases s.tally_cases custody request act with heq | ⟨p, db, hmove, heq⟩
  · rw [heq]
    exact h
  rw [heq]
  have hfacts := h.facts request
  generalize hphase : s.tallies request = before at hmove hfacts
  cases hmove with
  | refuse act p =>
      apply h.move h.kept
      · intro other form _ _
        exact ⟨rfl, id, rfl⟩
      · simp [TallyPhase.running?]
      · simp [TallyPhase.reading?]
      · trivial
      · exact h.rows
  | count form hparty =>
      obtain ⟨huntallied, hcountable, halone⟩ := hcond hphase hparty
      apply h.move h.kept
      · intro other form' _ _
        exact ⟨rfl, id, rfl⟩
      · intro form' hform'
        obtain rfl := Option.some.inj hform'
        exact ⟨hcountable, fun other running _ hrunning => halone other running hrunning⟩
      · intro form' hform'
        obtain rfl := Option.some.inj hform'
        exact huntallied
      · exact Convention.cleartextVotes_eq_nil h.kept
      · exact h.rows
  | selectRefs form votes =>
      have hrunning : (s.tallies request).running? = some form := by rw [hphase]; rfl
      have huntallied := h.untallied request form (by rw [hphase]; rfl)
      refine h.read hrunning rfl ?_ ⟨hfacts, Convention.custodiedRefs_eq huntallied⟩
      intro form' hform'
      obtain rfl := Option.some.inj hform'
      exact huntallied
  | aggregate form votes refs ok =>
      have hrunning : (s.tallies request).running? = some form := by rw [hphase]; rfl
      refine h.read hrunning rfl ?_ ?_
      · intro form' hform'
        obtain rfl := Option.some.inj hform'
        exact h.untallied request form (by rw [hphase]; rfl)
      · obtain ⟨rfl, rfl⟩ := hfacts
        have hall := hcond form _ _ hphase
        show [] ++ _ = _
        rw [List.nil_append, Convention.filterMap_custody h.kept (h.countable request form hrunning),
          List.filter_eq_self]
        intro aspirantId hmem
        obtain ⟨p, hp, hchoice⟩ := List.mem_filterMap.mp hmem
        exact hall p hp aspirantId hchoice
  | abstentions form votes =>
      have hrunning : (s.tallies request).running? = some form := by rw [hphase]; rfl
      have huntallied := h.untallied request form (by rw [hphase]; rfl)
      refine h.read hrunning rfl ?_ ⟨hfacts, Convention.countType_eq huntallied _⟩
      intro form' hform'
      obtain rfl := Option.some.inj hform'
      exact huntallied
  | spoiled form votes abstentions =>
      have hrunning : (s.tallies request).running? = some form := by rw [hphase]; rfl
      have huntallied := h.untallied request form (by rw [hphase]; rfl)
      refine h.read hrunning rfl (by simp [TallyPhase.reading?]) ?_
      exact ⟨hfacts.1, hfacts.2, Convention.countType_eq huntallied _⟩
  | record form votes abstentions spoiled ok =>
      have hrunning : (s.tallies request).running? = some form := by rw [hphase]; rfl
      have hok := hcond form votes abstentions spoiled hphase
      apply h.move
      · exact h.kept
      · intro other form' hne hother
        exact Convention.sameRound_recordTallies (h.others hrunning other form' hne hother) votes ok
      · intro form' hform'
        obtain rfl := Option.some.inj hform'
        exact ⟨h.countable request form hrunning, h.others hrunning⟩
      · simp [TallyPhase.reading?]
      · exact ⟨hfacts, Convention.listed_recordTallies hfacts.1 hok (h.rows form.roundId)⟩
      · intro roundId aspirantId hrow
        rw [Convention.recordTallies_voteTallies] at hrow
        split at hrow
        case isTrue hall =>
          obtain ⟨rfl, hmem, -⟩ := hall
          rw [hfacts.1] at hmem
          exact hmem
        case isFalse => exact h.rows roundId aspirantId hrow
  | markTallied form votes abstentions spoiled ok =>
      have hrunning : (s.tallies request).running? = some form := by rw [hphase]; rfl
      have hpapers : ∀ roundId, (if ok then s.db.markTallied form.roundId else s.db).papers roundId =
          s.db.papers roundId := by
        intro roundId
        cases ok with
        | false => rfl
        | true => exact Convention.papers_markTallied form.roundId
      have hchoices : ∀ roundId, (if ok then s.db.markTallied form.roundId else s.db).choices roundId =
          s.db.choices roundId := by
        intro roundId
        rw [Convention.choices, hpapers, Convention.choices]
      have htallies : (if ok then s.db.markTallied form.roundId else s.db).voteTallies = s.db.voteTallies := by
        cases ok <;> rfl
      apply h.move
      · intro b hb
        cases ok with
        | false => exact h.kept b hb
        | true =>
            obtain ⟨b₀, hb₀, rfl⟩ := List.mem_map.mp hb
            have hkept := h.kept b₀ hb₀
            split
            · exact hkept
            · exact hkept
      · intro other form' hne hother
        cases ok with
        | false => exact ⟨rfl, id, rfl⟩
        | true => exact Convention.sameRound_markTallied (h.others hrunning other form' hne hother)
      · intro form' hform'
        obtain rfl := Option.some.inj hform'
        rw [hpapers]
        exact ⟨h.countable request form hrunning, h.others hrunning⟩
      · simp [TallyPhase.reading?]
      · obtain ⟨⟨hvotes, hn, hm⟩, hlisted⟩ := hfacts
        rw [Convention.abstentions, ← hpapers] at hn
        rw [Convention.spoiled, ← hpapers] at hm
        rw [← hchoices] at hvotes
        refine ⟨⟨hvotes, hn, hm⟩, ?_⟩
        intro aspirantId
        rw [htallies, hchoices]
        exact hlisted aspirantId
      · intro roundId aspirantId hrow
        rw [htallies] at hrow
        rw [hchoices]
        exact h.rows roundId aspirantId hrow
  | total form votes abstentions spoiled ok =>
      have hsame : ∀ roundId, s.db.SameRound (if ok then s.db.recordTotals form.roundId form.partyCode
          (votes.length + abstentions + spoiled) votes.length spoiled else s.db) roundId := by
        intro roundId
        cases ok with
        | false => exact ⟨rfl, id, rfl⟩
        | true => exact .of_eq (Convention.recordTotals_ballots ..) (Convention.recordTotals_voteTallies ..)
      apply h.move
      · intro b hb
        apply h.kept b
        cases ok with
        | false => exact hb
        | true =>
            rw [if_pos rfl, Convention.recordTotals_ballots] at hb
            exact hb
      · intro other form' _ _
        exact hsame form'.roundId
      · simp [TallyPhase.running?]
      · simp [TallyPhase.reading?]
      · trivial
      · intro roundId aspirantId hrow
        rw [(hsame roundId).tallies] at hrow
        rw [Convention.choices, (hsame roundId).papers]
        exact h.rows roundId aspirantId hrow
  | log form =>
      apply h.move
      · exact h.kept
      · intro other form' _ _
        exact ⟨rfl, id, rfl⟩
      · simp [TallyPhase.running?]
      · simp [TallyPhase.reading?]
      · trivial
      · exact h.rows

theorem vote_tallySound (custody : String → Option String) (s : Primaries) (request : Nat) (act : VoteAct)
    (h : s.TallySound custody) (hcond : TalliesOnce s (.vote request act)) :
    (s.vote custody request act).TallySound custody := by
  rcases s.vote_cases custody request act with heq | ⟨p, db, hmove, heq⟩
  · rw [heq]
    exact h
  rw [heq]
  have hstay : ∀ {p db}, (∀ v n ballotRef choice, p = .sealed v n ballotRef choice →
    Primaries.keeps custody ballotRef choice = true) →
      db.ballots = s.db.ballots → db.voteTallies = s.db.voteTallies →
        ({ s with db := db }.setVote request p).TallySound custody := by
    intro p db hp hballots htallies
    apply h.tables
    · exact hballots ▸ h.kept
    · intro other v n ballotRef choice hsealed
      by_cases heq : other = request
      · rw [heq, Function.update_self] at hsealed
        exact hp v n ballotRef choice hsealed
      · rw [Function.update_of_ne heq] at hsealed
        exact h.sealed other v n ballotRef choice hsealed
    · intro other form _
      exact .of_eq hballots htallies
    · intro roundId aspirantId hrow
      rw [htallies] at hrow
      rw [Convention.choices, Convention.papers, hballots]
      exact h.rows roundId aspirantId hrow
  generalize hphase : s.votes request = before at hmove
  cases hmove with
  | refuse act p hp => exact hstay (by simp) rfl rfl
  | openCast form v hform hopen => exact hstay (by simp) rfl rfl
  | openRemote form session hsession hstatus => exact hstay (by simp) rfl rfl
  | check v hmay => exact hstay (by simp) rfl rfl
  | encrypt answer v n ballotRef hperson hkeeps =>
      refine hstay ?_ rfl rfl
      intro v' n' ballotRef' choice' heq
      obtain ⟨rfl, rfl, rfl, rfl⟩ := VotePhase.sealed.inj heq
      exact hkeeps
  | verifyProof answer v n ballotRef choice hremote hkeeps =>
      refine hstay ?_ rfl rfl
      intro v' n' ballotRef' choice' heq
      obtain ⟨rfl, rfl, rfl, rfl⟩ := VotePhase.sealed.inj heq
      exact hkeeps
  | insert v n id ballotRef choice ok after hcast =>
      have hother := hcond v n ballotRef choice hphase
      have hkeeps := h.sealed request v n ballotRef choice hphase
      obtain ⟨voteType, _, hafter, -, -⟩ := s.db.castBallot_eq_some hcast
      have hballots : db.ballots = s.db.ballots ++ [s.db.ballotOf v id voteType ballotRef choice] := by rw [hafter]
      have htallies : db.voteTallies = s.db.voteTallies := by rw [hafter]
      apply h.tables
      · intro b hb
        rw [hballots, List.mem_append, List.mem_singleton] at hb
        rcases hb with hb | rfl
        · exact h.kept b hb
        · intro _
          refine ⟨rfl, ?_⟩
          intro ref href
          simp only [Convention.ballotOf, nullStr] at href
          split at href
          case isTrue => cases href
          case isFalse hne =>
            obtain rfl := Option.some.inj href
            have hkept : custody ballotRef = choice := by simpa [Primaries.keeps, hne] using hkeeps
            exact hkept
      · intro other w m ref choice' hsealed
        by_cases heq : other = request
        · rw [heq, Function.update_self] at hsealed
          cases hsealed
        · rw [Function.update_of_ne heq] at hsealed
          exact h.sealed other w m ref choice' hsealed
      · intro other form hrunning
        apply Convention.sameRound_append hballots htallies
        intro hround
        exact absurd hround.symm (hother other form hrunning)
      · intro roundId aspirantId hrow
        rw [htallies] at hrow
        exact Convention.choices_append hballots (h.rows roundId aspirantId hrow)
  | mark v n ok => exact hstay (by simp) (by cases ok <;> rfl) (by cases ok <;> rfl)
  | finish v ok =>
      refine hstay (by simp) ?_ ?_
      · cases ok with
        | false => rfl
        | true => exact s.db.finishVote_ballots v
      · cases ok with
        | false => rfl
        | true =>
            rw [if_pos rfl, Convention.finishVote]
            split <;> rfl

theorem primariesStep_tallySound (custody : String → Option String) (s : Primaries) (act : PrimariesAct)
    (h : s.TallySound custody) (hcond : TalliesOnce s act) : (s.step custody act).TallySound custody := by
  cases act with
  | office act =>
      have htallies := s.db.office_voteTallies act
      rcases s.db.office_ballots act with hballots | ⟨_, _, _, _, _, _, b, _, _, hdecoy, _, hballots⟩
      · apply h.tables
        · exact hballots ▸ h.kept
        · exact h.sealed
        · intro other form _
          exact .of_eq hballots htallies
        · intro roundId aspirantId hrow
          rw [htallies] at hrow
          rw [Convention.choices, Convention.papers, hballots]
          exact h.rows roundId aspirantId hrow
      · apply h.tables
        · intro b' hb'
          rw [hballots, List.mem_append, List.mem_singleton] at hb'
          rcases hb' with hb' | rfl
          · exact h.kept b' hb'
          · intro hreal
            rw [hdecoy] at hreal
            cases hreal
        · exact h.sealed
        · intro other form _
          exact Convention.sameRound_append hballots htallies fun _ => hdecoy
        · intro roundId aspirantId hrow
          rw [htallies] at hrow
          exact Convention.choices_append hballots (h.rows roundId aspirantId hrow)
  | vote request act => exact vote_tallySound custody s request act h hcond
  | auth request act =>
      rcases s.auth_cases request act with heq | ⟨p, db, hmove, heq⟩
      · rw [Primaries.step, heq]
        exact h
      · rw [Primaries.step, heq, hmove.frame]
        apply h.tables
        · exact h.kept
        · exact h.sealed
        · intro other form _
          exact ⟨rfl, id, rfl⟩
        · exact h.rows
  | tally request act => exact tally_tallySound custody s request act h hcond

theorem primariesStart_tallySound (custody : String → Option String) (now : Nat) :
    (Primaries.start now).TallySound custody where
  kept _ hb := by cases hb
  sealed _ _ _ _ _ hsealed := by cases hsealed
  countable _ _ hrunning := by cases hrunning
  untallied _ _ hreading := by cases hreading
  alone _ _ _ _ hrunning := by cases hrunning
  facts _ := trivial
  rows _ _ hrow := absurd rfl hrow

section Again

variable {custody : String → Option String} {s : Primaries} {request : Nat} {form : TallyForm}

/-- A tally of a round in which there is nothing left to tally writes zeros over its totals. -/
theorem tally_again (hidle : s.tallies request = .idle)
    (howns : s.db.partyOwnsRound form.roundId form.partyCode = true)
    (hdelegates : s.db.partyHasDelegates form.roundId form.partyCode = true)
    (hnone : s.db.untallied form.roundId = []) :
    ∃ r, (Runs.final (Primaries.step custody) s (tallyActs request form)).db.round? form.roundId = some r ∧
      r.totalVotesCast = 0 ∧ r.totalValidVotes = 0 ∧ r.totalInvalidVotes = 0 := by
  have hcleartext : s.db.cleartextVotes form.roundId form.partyCode = [] := by
    rw [Convention.cleartextVotes, hnone]; rfl
  have hrefs : s.db.custodiedRefs form.roundId = [] := by rw [Convention.custodiedRefs, hnone]; rfl
  have hcount : ∀ voteType, s.db.countType form.roundId voteType = 0 := by
    intro voteType
    rw [Convention.countType, hnone]
    rfl
  have hdb : (Runs.final (Primaries.step custody) s (tallyActs request form)).db =
      ((s.db.recordTallies form.roundId [] fun _ =>
        true).markTallied form.roundId).recordTotals form.roundId form.partyCode 0 0 0 := by
    simp [tallyActs, Runs.final, Primaries.step, Primaries.tally, hidle, howns, hcleartext, hrefs, hcount]
  obtain ⟨r, hr, -⟩ := (Option.any_eq_true _ _).mp hdelegates
  have hround := @Convention.recordTotals_round?
    ((s.db.recordTallies form.roundId [] fun _ => true).markTallied form.roundId)
    form.roundId form.partyCode r hr hdelegates 0 0 0
  rw [hdb]
  exact ⟨_, hround, rfl, rfl, rfl⟩

end Again

section Samples

/-- One ballot is cast, and the round is closed and tallied. -/
def firstTally : List PrimariesAct :=
  samplePrimary ++ sampleCast 0 "bal-1" ++ [.office (.closeRound "rnd-1" "party_1")] ++ tallyActs 0 sampleTally

/-- The round is tallied a second time. -/
def secondTally : List PrimariesAct := firstTally ++ tallyActs 1 sampleTally

/-- The backend gives the ballot no handle. -/
def emptyHandle : List PrimariesAct :=
  samplePrimary ++
    [.vote 0 (.cast ⟨"rnd-1", "del-1", "asp-1", ""⟩), .vote 0 .check,
      .vote 0 (.encrypt (some ⟨"ciphertext", "", ""⟩)), .vote 0 (.insert "bal-1" true)] ++ tallyActs 0 sampleTally

end Samples

end Inec
