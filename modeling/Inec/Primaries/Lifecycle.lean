import Inec.Primaries.Moves
import Mathlib.Logic.Relation
import Mathlib.Tactic.IntervalCases

/-!
# The life of a voting round

A round is pending, open, voting, closed, tallying and certified, in this order. Opening, closing and certifying
name the status they start from in the update itself. The tally does not look at the status at all, a ballot is
inserted some statements after the status was looked at, and a remote vote does not look at it.

So the order holds as long as a tally begins on a round that is closed or tallying and is done before it is
certified, a round is closed when no vote is on its way into it, and votes from a session come while the round
is open.
-/

namespace Inec

inductive RoundStatus.Next : RoundStatus → RoundStatus → Prop
  | opens : Next .pending .opened
  | votes : Next .opened .voting
  | closes {status : RoundStatus} (h : status.open? = true) : Next status .closed
  | tallies : Next .closed .tallying
  | certifies : Next .tallying .certified

/-- The round was open and is so no more. -/
def RoundStatus.left? : RoundStatus → Bool
  | closed => true
  | tallying => true
  | certified => true
  | _ => false

/-- The vote of a request that has not inserted its ballot. -/
def VotePhase.voting? : VotePhase → Option Vote
  | opened v => some v
  | checked v _ => some v
  | sealed v _ _ _ => some v
  | _ => none

namespace Convention

variable (db : Convention)

/-- The ballots of a round, decoys included. -/
def ballotIds (roundId : String) : List String := (db.ballots.filter fun b => b.roundId = roundId).map (·.id)

def toTally (roundId : String) : Bool := (db.roundStatus? roundId).any fun status => status = .closed ||
      status = .tallying

/-- What a step may do to a round. -/
structure Lawful (after : Convention) (id : String) : Prop where
  moves : ∀ a, db.roundStatus? id = some a → ∃ b, after.roundStatus? id = some b ∧
    Relation.ReflGen RoundStatus.Next a b
  new : db.roundStatus? id = none → after.roundStatus? id = none ∨ after.roundStatus? id = some .pending
  ballots : after.ballotIds id = db.ballotIds id ∨ db.roundOpen id = true

end Convention

/-- A round is closed when no vote is on its way into it, and certified when no tally of it is. Votes from a
session, decoys too, come while the round is open, and a tally begins on a round that is closed or tallying. -/
def RoundsInOrder (s : Primaries) : PrimariesAct → Prop
  | .office (.closeRound id _) => ∀ request v, (s.votes request).voting? = some v → v.roundId ≠ id
  | .office (.certifyRound id _ _ _) => ∀ request form, (s.tallies request).running? = some form → form.roundId ≠ id
  | .office (.coercionVote sessionId _ _ _ _) => ∀ session, s.db.session? sessionId = some session →
      s.db.roundOpen session.roundId = true
  | .vote request (.remote form) =>
      s.votes request = .idle → ∀ session, s.db.session? form.sessionId = some session → session.status =
        .authenticated → s.db.roundOpen session.roundId = true
  | .tally request (.count form) =>
      s.tallies request = .idle → s.db.partyOwnsRound form.roundId form.partyCode = true →
        s.db.toTally form.roundId = true
  | _ => True

/-! ### The status after a statement -/

namespace Convention

variable {db after : Convention}

theorem roundStatus?_of_rounds {id : String} (h : after.rounds = db.rounds) :
    after.roundStatus? id = db.roundStatus? id := by
  rw [roundStatus?, round?, h, roundStatus?, round?]

theorem setRoundStatus_roundStatus? (db : Convention) (id : String) (old : RoundStatus → Bool)
    (new : RoundStatus) (id' : String) :
    (db.setRoundStatus id old new).roundStatus? id' =
      (db.roundStatus? id').map fun a => if id' = id ∧ old a = true then new else a := by
  have hround : (db.setRoundStatus id old new).round? id' =
      (db.round? id').map fun r => if r.id = id then
        (if old r.status = true then { r with status := new } else r) else r := by
    apply round?_updateRound
    intro r
    split <;> rfl
  rw [roundStatus?, roundStatus?, hround]
  cases hr : db.round? id' with
  | none => rfl
  | some r =>
      obtain rfl := round?_id hr
      rw [Option.map_some, Option.map_some, Option.map_some, Option.map_some]
      by_cases hid : r.id = id
      · by_cases hold : old r.status = true
        · simp [hid, hold]
        · simp [hid, hold]
      · simp [hid]

theorem recordTotals_roundStatus? (db : Convention) (roundId partyCode : String)
    (cast valid invalid : Nat) (id : String) :
    (db.recordTotals roundId partyCode cast valid invalid).roundStatus? id =
      (db.roundStatus? id).map fun a => if id = roundId ∧ db.partyHasDelegates roundId partyCode =
        true then .tallying else a := by
  rw [recordTotals]
  split
  case isTrue hparty =>
    rw [roundStatus?, round?_updateRound (by intro r; rfl), roundStatus?]
    cases hr : db.round? id with
    | none => rfl
    | some r =>
        obtain rfl := round?_id hr
        rw [Option.map_some, Option.map_some, Option.map_some, Option.map_some]
        by_cases hid : r.id = roundId
        · simp [hid, hparty]
        · simp [hid]
  case isFalse hparty =>
    simp [hparty]

/-- What the handlers of one step do to the status of a round. -/
theorem office_roundStatus? {id : String} {a : RoundStatus} (h : db.roundStatus? id = some a) (act : OfficeAct) :
    ∃ b, (db.office act).roundStatus? id = some b ∧
      (b = a ∨ (a = .pending ∧ b = .opened) ∨ (a.open? = true ∧ b = .closed ∧ ∃ partyCode, act =
        .closeRound id partyCode) ∨ (a = .tallying ∧ b = .certified ∧ ∃ partyCode user anchored, act =
          .certifyRound id partyCode user anchored)) := by
  have hmove := db.office_move act
  generalize db.office act = after at hmove
  cases hmove with
  | createRound id' electionId number number' method =>
      refine ⟨a, ?_, .inl rfl⟩
      obtain ⟨r, hr, hstatus⟩ := Option.map_eq_some_iff.mp h
      rw [roundStatus?, round?, List.find?_append, show db.rounds.find? _ = some r from hr]
      exact congrArg some hstatus
  | moveRound _ id' partyCode old new hround =>
      rw [setRoundStatus_roundStatus?, h, Option.map_some]
      by_cases hall : id = id' ∧ old a = true
      · rw [if_pos hall]
        obtain ⟨rfl, hold⟩ := hall
        refine ⟨new, rfl, ?_⟩
        cases hround with
        | opens => exact .inr (.inl ⟨of_decide_eq_true hold, rfl⟩)
        | closes => exact .inr (.inr (.inl ⟨hold, rfl, partyCode, rfl⟩))
        | certifies user anchored =>
            exact .inr (.inr (.inr ⟨of_decide_eq_true hold, rfl, partyCode, user, anchored, rfl⟩))
      · rw [if_neg hall]
        exact ⟨a, rfl, .inl rfl⟩
  | _ => exact ⟨a, h, .inl rfl⟩

/-- A round that comes into being is pending. -/
theorem office_roundStatus?_of_none {id : String} (h : db.roundStatus? id = none) (act : OfficeAct) :
    (db.office act).roundStatus? id = none ∨ (db.office act).roundStatus? id = some .pending := by
  have hmove := db.office_move act
  generalize db.office act = after at hmove
  cases hmove with
  | createRound id' electionId number number' method =>
      rw [roundStatus?, round?, List.find?_append, show db.rounds.find? _ = none from Option.map_eq_none_iff.mp h]
      by_cases hid : id' = id
      · exact .inr (by simp [hid])
      · exact .inl (by simp [hid])
  | moveRound =>
      left
      rw [setRoundStatus_roundStatus?, h]
      rfl
  | _ => exact .inl h

theorem ballotIds_of_ballots {id : String} (h : after.ballots = db.ballots) :
    after.ballotIds id = db.ballotIds id := by
  rw [ballotIds, h, ballotIds]

/-- A ballot that is added belongs to its own round only. -/
theorem ballotIds_append {b : Ballot} (hballots : after.ballots = db.ballots ++ [b]) {id : String}
    (h : b.roundId ≠ id) :
    after.ballotIds id = db.ballotIds id := by
  rw [ballotIds, hballots, List.filter_append, List.filter_cons_of_neg (by simp [h]), List.filter_nil,
    List.append_nil, ballotIds]

theorem markTallied_ballotIds (roundId id : String) : (db.markTallied roundId).ballotIds id = db.ballotIds id := by
  apply filter_map_markTallied
  · intro b
    rfl
  · intro b
    rfl

/-- Nothing happens to the rounds. -/
theorem Lawful.of_eq {id : String} (hrounds : after.rounds = db.rounds)
    (hballots : after.ballotIds id = db.ballotIds id ∨ db.roundOpen id = true) : db.Lawful after id where
  moves a ha := ⟨a, (roundStatus?_of_rounds hrounds).trans ha, .refl⟩
  new hnone := .inl ((roundStatus?_of_rounds hrounds).trans hnone)
  ballots := hballots

theorem office_lawful {act : OfficeAct} (id : String)
    (hdecoy : ∀ sessionId ballotId voteType answer duress, act =
      .coercionVote sessionId ballotId voteType answer duress → ∀ session, db.session? sessionId =
        some session → db.roundOpen session.roundId = true) : db.Lawful (db.office act) id where
  moves a ha := by
    obtain ⟨b, hb, hstep⟩ := office_roundStatus? ha act
    refine ⟨b, hb, ?_⟩
    rcases hstep with rfl | ⟨rfl, rfl⟩ | ⟨hopen, rfl, -⟩ | ⟨rfl, rfl, -⟩
    · exact .refl
    · exact .single .opens
    · exact .single (.closes hopen)
    · exact .single .certifies
  new hnone := office_roundStatus?_of_none hnone act
  ballots := by
    rcases db.office_ballots act with heq | ⟨sessionId, ballotId, voteType, answer, duress, session, b, rfl,
      hsession, -, hround, heq⟩
    · exact .inl (ballotIds_of_ballots heq)
    · by_cases hid : b.roundId = id
      · refine .inr ?_
        rw [← hid, hround]
        exact hdecoy sessionId ballotId voteType answer duress rfl session hsession
      · exact .inl (ballotIds_append heq hid)

end Convention

/-! ### What the steps keep -/

structure Primaries.RoundsSound (s : Primaries) : Prop where
  voting : ∀ request v, (s.votes request).voting? = some v → s.db.roundOpen v.roundId = true
  tallying : ∀ request form, (s.tallies request).running? = some form → s.db.toTally form.roundId = true

section RoundsSound

variable {custody : String → Option String} {s : Primaries} {request : Nat} {db : Convention}

/-- A request that votes moves on, over rounds that are as they were or begin to be voted in. -/
theorem Primaries.RoundsSound.setVote (h : s.RoundsSound) {p : VotePhase}
    (hopen : ∀ id, s.db.roundOpen id = true → db.roundOpen id = true)
    (htally : ∀ id, s.db.toTally id = true → db.toTally id = true)
    (hp : ∀ v, p.voting? = some v → db.roundOpen v.roundId = true) :
    ({ s with db := db }.setVote request p).RoundsSound where
  voting other v hv := by
    by_cases heq : other = request
    · rw [heq, Primaries.setVote_votes_self] at hv
      exact hp v hv
    · rw [Primaries.setVote_votes_of_ne _ _ heq] at hv
      exact hopen _ (h.voting other v hv)
  tallying other form hform := htally _ (h.tallying other form hform)

theorem Primaries.RoundsSound.setTally (h : s.RoundsSound) {p : TallyPhase}
    (hopen : ∀ id, s.db.roundOpen id = true → db.roundOpen id = true)
    (htally : ∀ id, s.db.toTally id = true → db.toTally id = true)
    (hp : ∀ form, p.running? = some form → s.db.toTally form.roundId = true) :
    ({ s with db := db }.setTally request p).RoundsSound where
  voting other v hv := hopen _ (h.voting other v hv)
  tallying other form hform := by
    by_cases heq : other = request
    · rw [heq, Primaries.setTally_tallies_self] at hform
      exact htally _ (hp form hform)
    · rw [Primaries.setTally_tallies_of_ne _ _ heq] at hform
      exact htally _ (h.tallying other form hform)

end RoundsSound

theorem Convention.roundOpen_eq_true {db : Convention} {id : String} :
    db.roundOpen id = true ↔ ∃ a, db.roundStatus? id = some a ∧ a.open? = true := Option.any_eq_true _ _

theorem Convention.toTally_eq_true {db : Convention} {id : String} :
    db.toTally id = true ↔ db.roundStatus? id = some .closed ∨ db.roundStatus? id = some .tallying := by
  rw [Convention.toTally, Option.any_eq_true]
  constructor
  · rintro ⟨a, ha, hstatus⟩
    simp only [Bool.or_eq_true, decide_eq_true_eq] at hstatus
    rcases hstatus with rfl | rfl
    · exact .inl ha
    · exact .inr ha
  · rintro (h | h)
    · exact ⟨_, h, rfl⟩
    · exact ⟨_, h, rfl⟩

theorem office_roundsSound {s : Primaries} {act : OfficeAct} (h : s.RoundsSound)
    (hcond : RoundsInOrder s (.office act)) :
    Primaries.RoundsSound { s with db := s.db.office act } where
  voting request v hv := by
    obtain ⟨a, ha, hopen⟩ := Convention.roundOpen_eq_true.mp (h.voting request v hv)
    obtain ⟨b, hb, hstep⟩ := Convention.office_roundStatus? ha act
    refine Convention.roundOpen_eq_true.mpr ⟨b, hb, ?_⟩
    rcases hstep with rfl | ⟨rfl, rfl⟩ | ⟨-, -, partyCode, rfl⟩ | ⟨rfl, -, -⟩
    · exact hopen
    · rfl
    · exact absurd rfl (hcond request v hv)
    · cases hopen
  tallying request form hform := by
    apply Convention.toTally_eq_true.mpr
    rcases Convention.toTally_eq_true.mp (h.tallying request form hform) with ha | ha
    · obtain ⟨b, hb, hstep⟩ := Convention.office_roundStatus? ha act
      rcases hstep with rfl | ⟨hne, -⟩ | ⟨hopen, -⟩ | ⟨hne, -⟩
      · exact .inl hb
      · cases hne
      · cases hopen
      · cases hne
    · obtain ⟨b, hb, hstep⟩ := Convention.office_roundStatus? ha act
      rcases hstep with rfl | ⟨hne, -⟩ | ⟨hopen, -⟩ | ⟨-, -, partyCode, user, anchored, rfl⟩
      · exact .inr hb
      · cases hne
      · cases hopen
      · exact absurd rfl (hcond request form hform)

/-- The end of a vote in person begins the voting. -/
theorem Convention.finishVote_roundStatus? (db : Convention) (v : Vote) (id : String) :
    (db.finishVote v).roundStatus? id = db.roundStatus? id ∨
      (db.roundStatus? id = some .opened ∧ (db.finishVote v).roundStatus? id = some .voting) := by
  rw [Convention.finishVote]
  split
  · rw [Convention.setRoundStatus_roundStatus?]
    cases ha : db.roundStatus? id with
    | none => exact .inl rfl
    | some a =>
        rw [Option.map_some]
        by_cases hall : id = v.roundId ∧ decide (a = .opened) = true
        · rw [if_pos hall, of_decide_eq_true hall.2]
          exact .inr ⟨rfl, rfl⟩
        · rw [if_neg hall]
          exact .inl rfl
  · exact .inl rfl

theorem vote_roundsSound (custody : String → Option String) (s : Primaries) (request : Nat) (act : VoteAct)
    (h : s.RoundsSound) (hcond : RoundsInOrder s (.vote request act)) :
    (∀ id, s.db.Lawful (s.vote custody request act).db id) ∧ (s.vote custody request act).RoundsSound := by
  have hrest : ∀ id, s.db.Lawful s.db id := fun _ => .of_eq rfl (.inl rfl)
  rcases s.vote_cases custody request act with heq | ⟨p, db, hmove, heq⟩
  · rw [heq]
    exact ⟨hrest, h⟩
  rw [heq]
  -- a request that reads, and leaves or enters the votes under way
  have hread : ∀ {p}, (∀ v, p.voting? = some v → s.db.roundOpen v.roundId = true) →
      (∀ id, s.db.Lawful s.db id) ∧ (s.setVote request p).RoundsSound :=
    fun hp => ⟨hrest, h.setVote (fun _ => id) (fun _ => id) hp⟩
  have hkeep : ∀ {q : VotePhase} {v : Vote}, q.voting? = some v → s.votes request = q → ∀ w, some v = some w →
      s.db.roundOpen w.roundId = true := by
    intro q v hq hphase w hw
    obtain rfl := Option.some.inj hw
    exact h.voting request v (by rw [hphase]; exact hq)
  generalize hphase : s.votes request = before at hmove
  cases hmove with
  | refuse act p hp => exact hread (by simp [VotePhase.voting?])
  | openCast form v hform hopen =>
      refine hread ?_
      intro w hw
      obtain rfl := Option.some.inj hw
      exact hopen
  | openRemote form session hsession hstatus =>
      refine hread ?_
      intro w hw
      obtain rfl := Option.some.inj hw
      exact hcond hphase session hsession hstatus
  | check v hmay => exact hread (hkeep rfl hphase)
  | encrypt answer v n ballotRef hperson hkeeps => exact hread (hkeep rfl hphase)
  | verifyProof answer v n ballotRef choice hremote hkeeps => exact hread (hkeep rfl hphase)
  | insert v n id ballotRef choice ok after hcast =>
      have hopen := h.voting request v (by rw [hphase]; rfl)
      obtain ⟨voteType, _, hafter, -, -⟩ := s.db.castBallot_eq_some hcast
      have hrounds : db.rounds = s.db.rounds := by rw [hafter]
      have hballots : db.ballots = s.db.ballots ++ [s.db.ballotOf v id voteType ballotRef choice] := by rw [hafter]
      refine ⟨fun roundId => .of_eq hrounds ?_, ?_⟩
      · by_cases hid : v.roundId = roundId
        · exact .inr (hid ▸ hopen)
        · exact .inl (Convention.ballotIds_append hballots hid)
      · refine h.setVote ?_ ?_ (by simp [VotePhase.voting?])
        · intro id hid
          rw [Convention.roundOpen, Convention.roundStatus?_of_rounds hrounds]
          exact hid
        · intro id hid
          rw [Convention.toTally, Convention.roundStatus?_of_rounds hrounds]
          exact hid
  | mark v n ok =>
      cases ok with
      | false => exact hread (by simp [VotePhase.voting?])
      | true =>
          exact ⟨fun id => .of_eq rfl (.inl rfl), h.setVote (fun _ => id) (fun _ => id)
            (by simp [VotePhase.voting?])⟩
  | finish v ok =>
      cases ok with
      | false => exact hread (by simp [VotePhase.voting?])
      | true =>
          refine ⟨fun id => ⟨?_, ?_, .inl (Convention.ballotIds_of_ballots (s.db.finishVote_ballots v))⟩, ?_⟩
          · intro a ha
            rcases s.db.finishVote_roundStatus? v id with hsame | ⟨hopened, hvoting⟩
            · exact ⟨a, hsame.trans ha, .refl⟩
            · obtain rfl := Option.some.inj (hopened.symm.trans ha)
              exact ⟨_, hvoting, .single .votes⟩
          · intro hnone
            rcases s.db.finishVote_roundStatus? v id with hsame | ⟨hopened, -⟩
            · exact .inl (hsame.trans hnone)
            · cases hopened.symm.trans hnone
          · refine h.setVote ?_ ?_ (by simp [VotePhase.voting?])
            · intro id hid
              rcases s.db.finishVote_roundStatus? v id with hsame | ⟨-, hvoting⟩
              · rw [if_pos rfl, Convention.roundOpen, hsame]
                exact hid
              · exact Convention.roundOpen_eq_true.mpr ⟨_, hvoting, rfl⟩
            · intro id hid
              rcases s.db.finishVote_roundStatus? v id with hsame | ⟨hopened, -⟩
              · rw [if_pos rfl, Convention.toTally, hsame]
                exact hid
              · rw [Convention.toTally, hopened] at hid
                cases hid

theorem tally_roundsSound (custody : String → Option String) (s : Primaries) (request : Nat) (act : TallyAct)
    (h : s.RoundsSound) (hcond : RoundsInOrder s (.tally request act)) :
    (∀ id, s.db.Lawful (s.tally custody request act).db id) ∧ (s.tally custody request act).RoundsSound := by
  have hrest : ∀ id, s.db.Lawful s.db id := fun _ => .of_eq rfl (.inl rfl)
  rcases s.tally_cases custody request act with heq | ⟨p, db, hmove, heq⟩
  · rw [heq]
    exact ⟨hrest, h⟩
  rw [heq]
  have hread : ∀ {p}, (∀ form, p.running? = some form → s.db.toTally form.roundId = true) →
      (∀ id, s.db.Lawful s.db id) ∧ (s.setTally request p).RoundsSound :=
    fun hp => ⟨hrest, h.setTally (fun _ => id) (fun _ => id) hp⟩
  have hkeep : ∀ {q : TallyPhase} {form : TallyForm}, q.running? = some form → s.tallies request = q →
    ∀ form', some form = some form' →
      s.db.toTally form'.roundId = true := by
    intro q form hq hphase form' hform
    obtain rfl := Option.some.inj hform
    exact h.tallying request form (by rw [hphase]; exact hq)
  generalize hphase : s.tallies request = before at hmove
  cases hmove with
  | refuse act p => exact hread (by simp [TallyPhase.running?])
  | count form hparty =>
      refine hread ?_
      intro form' hform
      obtain rfl := Option.some.inj hform
      exact hcond hphase hparty
  | selectRefs form votes => exact hread (hkeep rfl hphase)
  | aggregate form votes refs ok => exact hread (hkeep rfl hphase)
  | abstentions form votes => exact hread (hkeep rfl hphase)
  | spoiled form votes abstentions => exact hread (hkeep rfl hphase)
  | record form votes abstentions spoiled ok =>
      exact ⟨fun id => .of_eq rfl (.inl rfl), h.setTally (fun _ => id) (fun _ => id) (hkeep rfl hphase)⟩
  | markTallied form votes abstentions spoiled ok =>
      cases ok with
      | false => exact hread (hkeep rfl hphase)
      | true =>
          refine ⟨fun id => .of_eq rfl (.inl (Convention.markTallied_ballotIds _ _)), ?_⟩
          exact h.setTally (fun _ => id) (fun _ => id) (hkeep rfl hphase)
  | total form votes abstentions spoiled ok =>
      cases ok with
      | false => exact hread (by simp [TallyPhase.running?])
      | true =>
          have htally := Convention.toTally_eq_true.mp (h.tallying request form (by rw [hphase]; rfl))
          have hstatus := s.db.recordTotals_roundStatus? form.roundId form.partyCode
            (votes.length + abstentions + spoiled)
            votes.length spoiled
          have hround : ∀ id, (s.db.recordTotals form.roundId form.partyCode
            (votes.length + abstentions + spoiled) votes.length
              spoiled).roundStatus? id = s.db.roundStatus? id ∨
                ((s.db.roundStatus? id = some .closed ∨ s.db.roundStatus? id = some .tallying) ∧
                  (s.db.recordTotals form.roundId form.partyCode (votes.length + abstentions + spoiled) votes.length
                    spoiled).roundStatus? id = some .tallying) := by
            intro id
            by_cases hall : id = form.roundId ∧ s.db.partyHasDelegates form.roundId form.partyCode = true
            · rw [hstatus, hall.1]
              rcases htally with ha | ha
              · exact .inr ⟨.inl ha, by rw [ha, Option.map_some, if_pos ⟨rfl, hall.2⟩]⟩
              · exact .inr ⟨.inr ha, by rw [ha, Option.map_some, if_pos ⟨rfl, hall.2⟩]⟩
            · rw [hstatus]
              cases s.db.roundStatus? id with
              | none => exact .inl rfl
              | some a => exact .inl (by rw [Option.map_some, if_neg hall])
          refine ⟨fun id => ⟨?_, ?_, .inl (Convention.ballotIds_of_ballots
            (Convention.recordTotals_ballots ..))⟩, ?_⟩
          · intro a ha
            rcases hround id with hsame | ⟨hclosed | htallying, hafter⟩
            · exact ⟨a, hsame.trans ha, .refl⟩
            · obtain rfl := Option.some.inj (hclosed.symm.trans ha)
              exact ⟨_, hafter, .single .tallies⟩
            · obtain rfl := Option.some.inj (htallying.symm.trans ha)
              exact ⟨_, hafter, .refl⟩
          · intro hnone
            exact .inl ((hstatus id).trans (by rw [hnone]; rfl))
          · refine h.setTally ?_ ?_ (by simp [TallyPhase.running?])
            · intro id hid
              obtain ⟨a, ha, hopen⟩ := Convention.roundOpen_eq_true.mp hid
              rcases hround id with hsame | ⟨hclosed | htallying, -⟩
              · exact Convention.roundOpen_eq_true.mpr ⟨a, hsame.trans ha, hopen⟩
              · obtain rfl := Option.some.inj (hclosed.symm.trans ha)
                cases hopen
              · obtain rfl := Option.some.inj (htallying.symm.trans ha)
                cases hopen
            · intro id hid
              apply Convention.toTally_eq_true.mpr
              rcases hround id with hsame | ⟨-, hafter⟩
              · rw [if_pos rfl, hsame]
                exact Convention.toTally_eq_true.mp hid
              · exact .inr hafter
  | log form =>
      exact ⟨fun id => .of_eq rfl (.inl rfl), h.setTally (fun _ => id) (fun _ => id)
        (by simp [TallyPhase.running?])⟩

theorem primariesStep_roundsSound (custody : String → Option String) (s : Primaries) (act : PrimariesAct)
    (h : s.RoundsSound) (hcond : RoundsInOrder s act) :
    (∀ id, s.db.Lawful (s.step custody act).db id) ∧ (s.step custody act).RoundsSound := by
  cases act with
  | office act =>
      refine ⟨?_, office_roundsSound h hcond⟩
      intro id
      apply Convention.office_lawful
      rintro sessionId ballotId voteType answer duress rfl
      exact hcond
  | vote request act => exact vote_roundsSound custody s request act h hcond
  | auth request act =>
      rcases s.auth_cases request act with heq | ⟨p, db, hmove, heq⟩
      · rw [Primaries.step, heq]
        exact ⟨fun id => .of_eq rfl (.inl rfl), h⟩
      · rw [Primaries.step, heq, hmove.frame]
        exact ⟨fun id => .of_eq rfl (.inl rfl), h.voting, h.tallying⟩
  | tally request act => exact tally_roundsSound custody s request act h hcond

/-! ### A whole run -/

/-- The state after so many steps of a run. -/
def primariesAfter (custody : String → Option String) (now : Nat) (acts : List PrimariesAct)
    (n : Nat) : Primaries :=
  Runs.final (Primaries.step custody) (.start now) (acts.take n)

/-- Nothing comes after certification, and nothing but closing, tallying and certification after a round was
left. -/
theorem RoundStatus.left?_of_reflTransGen {a b : RoundStatus} (h : Relation.ReflTransGen RoundStatus.Next a b)
    (ha : a.left? = true) :
    b.left? = true := by
  induction h with
  | refl => exact ha
  | tail _ hstep ih =>
      cases hstep with
      | opens => cases ih
      | votes => cases ih
      | closes => rfl
      | tallies => rfl
      | certifies => rfl

theorem RoundStatus.eq_certified {b : RoundStatus} (h : Relation.ReflTransGen RoundStatus.Next .certified b) :
    b = .certified := by
  induction h with
  | refl => rfl
  | tail _ hstep ih =>
      rw [ih] at hstep
      cases hstep with
      | closes hopen => cases hopen

theorem Convention.roundOpen_eq_false_of_left {db : Convention} {id : String} {a : RoundStatus}
    (h : db.roundStatus? id = some a) (ha : a.left? = true) : db.roundOpen id = false := by
  rw [Convention.roundOpen, h]
  cases a <;> first | rfl | cases ha

/-- A stretch of lawful steps moves a round forward and adds no ballot to it once it was left. -/
theorem forward_of_lawful {custody : String → Option String} {now : Nat} {acts : List PrimariesAct} {id : String}
    (h : Runs.AllSteps (Primaries.step custody) (fun s act => s.db.Lawful (s.step custody act).db id)
    (.start now) acts) {m n : Nat} (hmn : m ≤ n) :
    ∀ a, (primariesAfter custody now acts m).db.roundStatus? id = some a →
      ∃ b, (primariesAfter custody now acts n).db.roundStatus? id = some b ∧
        Relation.ReflTransGen RoundStatus.Next a b ∧ (a.left? = true →
          (primariesAfter custody now acts n).db.ballotIds id =
            (primariesAfter custody now acts m).db.ballotIds id) := by
  let rel (s t : Primaries) : Prop := ∀ a, s.db.roundStatus? id = some a →
    ∃ b, t.db.roundStatus? id = some b ∧ Relation.ReflTransGen RoundStatus.Next a b ∧
      (a.left? = true → t.db.ballotIds id = s.db.ballotIds id)
  have hrefl : ∀ s, rel s s := fun s a ha => ⟨a, ha, .refl, fun _ => rfl⟩
  have htrans : ∀ s t u, rel s t → rel t u → rel s u := by
    intro s t u hst htu a ha
    obtain ⟨b, hb, hab, hballots⟩ := hst a ha
    obtain ⟨c, hc, hbc, hballots'⟩ := htu b hb
    refine ⟨c, hc, hab.trans hbc, ?_⟩
    intro hleft
    exact (hballots' (RoundStatus.left?_of_reflTransGen hab hleft)).trans (hballots hleft)
  have hsteps : Runs.AllSteps (Primaries.step custody) (fun s act => rel s (s.step custody act))
      (.start now) acts := by
    refine @Runs.AllSteps.imp_of_inv _ _ _ _ (fun _ => True) _ (fun _ _ _ _ => trivial) ?_ _ trivial _ h
    intro s act _ hlawful a ha
    obtain ⟨b, hb, hmoves⟩ := hlawful.moves a ha
    refine ⟨b, hb, hmoves.to_reflTransGen, ?_⟩
    intro hleft
    rcases hlawful.ballots with hsame | hopen
    · exact hsame
    · rw [Convention.roundOpen_eq_false_of_left ha hleft] at hopen
      cases hopen
  exact hsteps.rel_final_take hrefl htrans hmn

/-- The order of the life of a round, over a run. -/
structure RoundOrder (custody : String → Option String) (now : Nat) (acts : List PrimariesAct)
    (id : String) : Prop where
  forward : ∀ m n a, m ≤ n → (primariesAfter custody now acts m).db.roundStatus? id = some a →
    ∃ b, (primariesAfter custody now acts n).db.roundStatus? id = some b ∧
      Relation.ReflTransGen RoundStatus.Next a b
  absorbing : ∀ m n, m ≤ n → (primariesAfter custody now acts m).db.roundStatus? id = some .certified →
    (primariesAfter custody now acts n).db.roundStatus? id = some .certified
  closed : ∀ n a, (primariesAfter custody now acts n).db.roundStatus? id = some a → a = .tallying ∨ a = .certified →
    ∃ m ≤ n, (primariesAfter custody now acts m).db.roundStatus? id = some .closed
  ballots : ∀ m n a, m ≤ n → (primariesAfter custody now acts m).db.roundStatus? id = some a → a.left? = true →
    (primariesAfter custody now acts n).db.ballotIds id = (primariesAfter custody now acts m).db.ballotIds id

/-- In a run whose requests come in order a round only moves forward, ends with its certification, is tallied
and certified only after it was closed, and gets no ballot after it was left. -/
theorem roundOrder_of_roundsInOrder (custody : String → Option String) (now : Nat) {acts : List PrimariesAct}
    (h : Runs.AllSteps (Primaries.step custody) RoundsInOrder (.start now) acts) (id : String) :
    RoundOrder custody now acts id := by
  have hlawful : Runs.AllSteps (Primaries.step custody) (fun s act => s.db.Lawful (s.step custody act).db id)
      (.start now) acts := by
    have hstart : (Primaries.start now).RoundsSound :=
      ⟨fun _ _ hv => (nomatch hv), fun _ _ hform => (nomatch hform)⟩
    refine h.imp_of_inv ?_ ?_ hstart
    · intro s act hs hcond
      exact (primariesStep_roundsSound custody s act hs hcond).2
    · intro s act hs hcond
      exact (primariesStep_roundsSound custody s act hs hcond).1 id
  refine ⟨?_, ?_, ?_, ?_⟩
  · intro m n a hmn ha
    obtain ⟨b, hb, hmoves, -⟩ := forward_of_lawful hlawful hmn a ha
    exact ⟨b, hb, hmoves⟩
  · intro m n hmn hcertified
    obtain ⟨b, hb, hmoves, -⟩ := forward_of_lawful hlawful hmn _ hcertified
    rw [hb, RoundStatus.eq_certified hmoves]
  · intro n
    induction n with
    | zero =>
        intro a ha
        cases ha
    | succ n ih =>
        intro a ha hlate
        have hearlier : ∀ b, (primariesAfter custody now acts n).db.roundStatus? id = some b →
          b = .tallying ∨ b = .certified →
            ∃ m ≤ n + 1, (primariesAfter custody now acts m).db.roundStatus? id = some .closed := by
          intro b hb hlate
          obtain ⟨m, hm, hclosed⟩ := ih b hb hlate
          exact ⟨m, Nat.le_succ_of_le hm, hclosed⟩
        rcases @Runs.final_take_succ _ _ (Primaries.step custody) (.start now) acts n with heq | ⟨hn, heq⟩
        · rw [primariesAfter, heq] at ha
          exact hearlier a ha hlate
        · have hstep := hlawful.getElem n hn
          rw [primariesAfter, heq] at ha
          cases hbefore : (primariesAfter custody now acts n).db.roundStatus? id with
          | none =>
              -- a round that comes into being is pending
              rcases hstep.new hbefore with hnone | hpending
              · cases hnone.symm.trans ha
              · obtain rfl := Option.some.inj (hpending.symm.trans ha)
                rcases hlate with hlate | hlate <;> cases hlate
          | some b =>
              obtain ⟨c, hc, hmoves⟩ := hstep.moves b hbefore
              obtain rfl := Option.some.inj (hc.symm.trans ha)
              cases hmoves with
              | refl => exact hearlier _ hbefore hlate
              | single hnext =>
                  cases hnext with
                  | tallies => exact ⟨n, Nat.le_succ n, hbefore⟩
                  | certifies => exact hearlier _ hbefore (.inl rfl)
                  | opens => rcases hlate with hlate | hlate <;> cases hlate
                  | votes => rcases hlate with hlate | hlate <;> cases hlate
                  | closes => rcases hlate with hlate | hlate <;> cases hlate
  · intro m n a hmn ha hleft
    obtain ⟨b, -, -, hballots⟩ := forward_of_lawful hlawful hmn a ha
    exact hballots hleft

section Samples

/-- A ballot is cast, and the round is closed, tallied and certified. -/
def wholeLife : List PrimariesAct :=
  samplePrimary ++ sampleCast 0 "bal-1" ++ [.office (.closeRound "rnd-1" "party_1")] ++ tallyActs 0 sampleTally ++
    [.tally 0 .log, .office (.certifyRound "rnd-1" "party_1" "officer-2" true)]

theorem roundOrder_of_wholeLife :
    (primariesAfter sampleCustody 0 wholeLife 27).db.roundStatus? "rnd-1" = some .certified ∧
      RoundOrder sampleCustody 0 wholeLife "rnd-1" := by
  refine ⟨by decide +kernel, roundOrder_of_roundsInOrder sampleCustody 0 ?_ "rnd-1"⟩
  apply Runs.allSteps_of_getElem
  intro n hn
  have hn : n < 27 := hn
  interval_cases n
  case «16» =>
    intro request v hvoting
    have hacts : ∀ act ∈ wholeLife.take 16, act.voteRequest? ∈ [none, some 0] := by decide +kernel
    by_cases hzero : request = 0
    · rw [hzero, show (Runs.final (Primaries.step sampleCustody) (.start 0) (wholeLife.take 16)).votes 0 =
        .done by decide +kernel]
        at hvoting
      cases hvoting
    · rw [Primaries.final_votes_of_ne] at hvoting
      · cases hvoting
      · intro act hact heq
        have hmem := hacts act hact
        simp only [heq, List.mem_cons, Option.some.injEq, List.not_mem_nil, reduceCtorEq,
          or_false, false_or] at hmem
        exact hzero hmem
  case «17» =>
    intro _ _
    decide +kernel
  case «26» =>
    intro request form hrunning
    have hacts : ∀ act ∈ wholeLife.take 26, act.tallyRequest? ∈ [none, some 0] := by decide +kernel
    by_cases hzero : request = 0
    · rw [hzero, show (Runs.final (Primaries.step sampleCustody) (.start 0) (wholeLife.take 26)).tallies 0 =
        .done by decide +kernel]
        at hrunning
      cases hrunning
    · rw [Primaries.final_tallies_of_ne] at hrunning
      · cases hrunning
      · intro act hact heq
        have hmem := hacts act hact
        simp only [heq, List.mem_cons, Option.some.injEq, List.not_mem_nil, reduceCtorEq,
          or_false, false_or] at hmem
        exact hzero hmem
  all_goals exact trivial

/-- The certified round is tallied again. -/
def talliedAgain : List PrimariesAct := wholeLife ++ tallyActs 1 sampleTally

/-- A round is tallied that was never opened. -/
def talliedPending : List PrimariesAct :=
  [.office (.addDelegate "del-1" 1 "party_1"), .office (.createRound "rnd-1" 1 1 .electronic)] ++
    tallyActs 0 sampleTally

/-- The delegate votes from a session that was authenticated before the round was closed. -/
def votedAfterClose : List PrimariesAct :=
  samplePrimary ++ [.office (.closeRound "rnd-1" "party_1")] ++ (sampleRemote 0 "bal-1").take 4

theorem round_order_is_broken :
    ¬RoundOrder sampleCustody 0 talliedAgain "rnd-1" ∧ ¬RoundOrder sampleCustody 0 talliedPending "rnd-1" ∧
      ¬RoundOrder sampleCustody 0 votedAfterClose "rnd-1" := by
  have hagain : ¬RoundOrder sampleCustody 0 talliedAgain "rnd-1" := by
    intro horder
    have hlast := horder.absorbing 27 35 (by decide) (by decide +kernel)
    exact absurd hlast (by decide +kernel)
  have hpending : ¬RoundOrder sampleCustody 0 talliedPending "rnd-1" := by
    intro horder
    obtain ⟨m, hm, hclosed⟩ := horder.closed 10 .tallying (by decide +kernel) (.inl rfl)
    have hnever : ∀ m ≤ 10, (primariesAfter sampleCustody 0 talliedPending m).db.roundStatus? "rnd-1" ≠ some .closed := by
      decide +kernel
    exact hnever m hm hclosed
  have hlate : ¬RoundOrder sampleCustody 0 votedAfterClose "rnd-1" := by
    intro horder
    have hsame := horder.ballots 11 15 .closed (by decide) (by decide +kernel) rfl
    exact absurd hsame (by decide +kernel)
  exact ⟨hagain, hpending, hlate⟩

end Samples

end Inec
