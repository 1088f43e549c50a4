import Inec.Primaries.Moves

/-!
# Requests of one party and the primary of another

A primary has no owner in the tables. What opens, closes, tallies and certifies a round first asks whether the
party has a delegate or an aspirant in its election, and everybody may register both; what makes a round and
what casts a ballot does not ask at all.

Requests that are stopped by that question, and make no round and no ballot in an election, leave it as it is
(`electionPart_of_apart`). For a party that has nobody there it is enough that it registers nobody
(`electionPart_of_outsider`).
-/

namespace Inec

/-- What there is of an election: its rounds, and the ballots and tallies of these. -/
@[ext]
structure ElectionPart where
  rounds : List VotingRound
  ballots : List Ballot
  tallies : String → String → Option Nat

namespace Convention

variable (db : Convention) (electionId : Int)

/-- The round is one of the election. -/
def inElection (roundId : String) : Bool := db.rounds.any fun r => r.id = roundId && r.electionId = electionId

def electionPart : ElectionPart where
  rounds := db.rounds.filter (·.electionId = electionId)
  ballots := db.ballots.filter fun b => db.inElection electionId b.roundId
  tallies := fun roundId aspirantId =>
    if db.inElection electionId roundId then db.voteTallies roundId aspirantId else none

end Convention

/-- The requests of users of a party. What names no party is anybody's. -/
def PrimariesAct.OfParty (party : String) : PrimariesAct → Prop
  | .office (.addDelegate _ _ partyCode) => partyCode = party
  | .office (.issueCredential _ partyCode) => partyCode = party
  | .office (.accreditDelegate _ partyCode) => partyCode = party
  | .office (.revokeDelegate _ partyCode) => partyCode = party
  | .office (.addAspirant _ _ partyCode) => partyCode = party
  | .office (.openRound _ partyCode) => partyCode = party
  | .office (.closeRound _ partyCode) => partyCode = party
  | .office (.certifyRound _ partyCode _ _) => partyCode = party
  | .office (.createSession _ partyCode _ _ _) => partyCode = party
  | .tally _ (.count form) => form.partyCode = party
  | _ => True

/-- A vote whose ballot is to be inserted. -/
def VotePhase.sealed? : VotePhase → Option Vote
  | sealed v _ _ _ => some v
  | _ => none

/-- A vote whose ballot is stored and that is not finished. -/
def VotePhase.cast? : VotePhase → Option Vote
  | stored v _ => some v
  | marked v => some v
  | _ => none

namespace Primaries

/-- No round and no ballot is made in the election, and what asks for the party is stopped there. -/
def Apart (party : String) (electionId : Int) (s : Primaries) : PrimariesAct → Bool
  | .office (.createRound _ election _ _) => election ≠ electionId
  | .office (.openRound id _) => !(s.db.inElection electionId id && s.db.partyOwnsRound id party)
  | .office (.closeRound id _) => !(s.db.inElection electionId id && s.db.partyOwnsRound id party)
  | .office (.certifyRound id _ _ _) => !(s.db.inElection electionId id && s.db.partyOwnsRound id party)
  | .office (.coercionVote sessionId _ _ _ _) =>
      (s.db.session? sessionId).all fun x => !s.db.inElection electionId x.roundId
  | .vote request (.insert _ _) => (s.votes request).sealed?.all fun v => !s.db.inElection electionId v.roundId
  | .tally _ (.count form) => !(s.db.inElection electionId form.roundId && s.db.partyOwnsRound form.roundId party)
  | _ => true

/-- The state of the tables with no request under way. -/
def resting (db : Convention) : Primaries := ⟨db, fun _ => .idle, fun _ => .idle, fun _ => .idle⟩

/-- Nothing that is under way has to do with the election. -/
structure Clear (electionId : Int) (s : Primaries) : Prop where
  votes : ∀ n v, (s.votes n).cast? = some v → s.db.inElection electionId v.roundId = false
  tallies : ∀ n form, (s.tallies n).running? = some form → s.db.inElection electionId form.roundId = false

/-- Nobody is registered and no round and no ballot is made in the election. -/
def Abroad (electionId : Int) (s : Primaries) : PrimariesAct → Bool
  | .office (.addDelegate _ election _) => election ≠ electionId
  | .office (.addAspirant _ election _) => election ≠ electionId
  | .office (.createRound _ election _ _) => election ≠ electionId
  | .office (.coercionVote sessionId _ _ _ _) =>
      (s.db.session? sessionId).all fun x => !s.db.inElection electionId x.roundId
  | .vote request (.insert _ _) => (s.votes request).sealed?.all fun v => !s.db.inElection electionId v.roundId
  | _ => true

end Primaries

namespace Convention

/-- The party has no delegate and no aspirant in the election. -/
structure Outsider (party : String) (electionId : Int) (db : Convention) : Prop where
  delegates : ∀ d ∈ db.delegates, d.electionId = electionId → d.partyCode ≠ party
  aspirants : ∀ a ∈ db.aspirants, a.electionId = electionId → a.partyCode ≠ party
  rounds : (db.rounds.map VotingRound.id).Nodup

variable {db after : Convention} {electionId : Int}

/-! ### Statements that leave an election as it is -/

theorem inElection_of_columns (h : after.rounds.map (fun r => (r.id, r.electionId)) =
      db.rounds.map fun r => (r.id, r.electionId))
    (roundId : String) : after.inElection electionId roundId = db.inElection electionId roundId := by
  have hany : ∀ db : Convention, db.inElection electionId roundId =
      (db.rounds.map fun r => (r.id, r.electionId)).any fun c => c.1 = roundId && c.2 = electionId := by
    intro db
    rw [List.any_map]
    rfl
  rw [hany, hany, h]

/-- The rounds of an election tell which they are. -/
theorem inElection_of_electionPart (h : after.electionPart electionId = db.electionPart electionId)
    (roundId : String) :
    after.inElection electionId roundId = db.inElection electionId roundId := by
  have hrounds : after.rounds.filter (·.electionId = electionId) = db.rounds.filter (·.electionId = electionId) :=
    congrArg ElectionPart.rounds h
  have hany : ∀ db : Convention, db.inElection electionId roundId =
      (db.rounds.filter (·.electionId = electionId)).any (·.id = roundId) := by
    intro db
    rw [List.any_filter, inElection]
    congr 1
    funext r
    exact Bool.and_comm ..
  rw [hany, hany, hrounds]

theorem inElection_eq_false {roundId : String} :
    db.inElection electionId roundId = false ↔ ∀ r ∈ db.rounds, r.id = roundId → r.electionId ≠ electionId := by
  simp [inElection, List.any_eq_false]

theorem electionPart_updateRound {id : String} {f : VotingRound → VotingRound} (hid : ∀ r, (f r).id = r.id)
    (helection : ∀ r, (f r).electionId = r.electionId) (h : db.inElection electionId id = false) :
    (db.updateRound id f).electionPart electionId = db.electionPart electionId := by
  have hin : ∀ roundId, (db.updateRound id f).inElection electionId roundId = db.inElection electionId roundId := by
    apply inElection_of_columns
    apply Rows.map_update
    intro r _ _
    rw [hid, helection]
  have hrows : (db.updateRound id f).rounds.filter (·.electionId = electionId) =
      db.rounds.filter (·.electionId = electionId) := by
    apply Rows.filter_update
    intro r hr hkey
    have hother := inElection_eq_false.mp h r hr hkey
    rw [helection]
    exact ⟨decide_eq_false hother, decide_eq_false hother⟩
  simp only [electionPart, hin, hrows]
  rfl

theorem electionPart_setRoundStatus {id : String} (old : RoundStatus → Bool) (new : RoundStatus)
    (h : db.inElection electionId id = false) : (db.setRoundStatus id old new).electionPart electionId =
      db.electionPart electionId := by
  apply electionPart_updateRound ?_ ?_ h
  · intro r
    split <;> rfl
  · intro r
    split <;> rfl

theorem electionPart_append {b : Ballot} (h : db.inElection electionId b.roundId = false) :
    ({ db with ballots := db.ballots ++ [b] } : Convention).electionPart electionId =
      db.electionPart electionId := by
  have hin : ∀ roundId, ({ db with ballots := db.ballots ++ [b] } : Convention).inElection electionId roundId =
      db.inElection electionId roundId := fun _ => rfl
  simp only [electionPart, hin, List.filter_append, List.filter_singleton, h]
  simp

theorem electionPart_markTallied {roundId : String} (h : db.inElection electionId roundId = false) :
    (db.markTallied roundId).electionPart electionId = db.electionPart electionId := by
  have hballots : (db.markTallied roundId).ballots.filter (fun b => db.inElection electionId b.roundId) =
      db.ballots.filter fun b => db.inElection electionId b.roundId := by
    show (Rows.update Ballot.roundId roundId (fun b => { b with tallied := true }) db.ballots).filter _ = _
    apply Rows.filter_update
    intro b _ hkey
    show db.inElection electionId b.roundId = false ∧ db.inElection electionId b.roundId = false
    rw [hkey]
    exact ⟨h, h⟩
  show (⟨_, (db.markTallied roundId).ballots.filter (fun b => db.inElection electionId b.roundId),
      _⟩ : ElectionPart) = _
  rw [hballots]
  rfl

theorem electionPart_recordTallies {roundId : String} (votes : List String) (ok : String → Bool)
    (h : db.inElection electionId roundId = false) :
    (db.recordTallies roundId votes ok).electionPart electionId = db.electionPart electionId := by
  apply ElectionPart.ext
  · rfl
  · rfl
  · funext id aspirantId
    show (if db.inElection electionId id then
        (db.recordTallies roundId votes ok).voteTallies id aspirantId else none) =
      if db.inElection electionId id then db.voteTallies id aspirantId else none
    by_cases hid : id = roundId
    · rw [hid, h]
      rfl
    · have hsame : (db.recordTallies roundId votes ok).voteTallies id aspirantId = db.voteTallies id aspirantId :=
        if_neg fun hall => hid hall.1
      rw [hsame]

theorem electionPart_recordTotals {roundId partyCode : String} (cast valid invalid : Nat)
    (h : db.inElection electionId roundId = false) :
    (db.recordTotals roundId partyCode cast valid invalid).electionPart electionId =
      db.electionPart electionId := by
  rw [recordTotals]
  split
  · exact electionPart_updateRound (fun _ => rfl) (fun _ => rfl) h
  · rfl

theorem electionPart_addRound {r : VotingRound} (h : r.electionId ≠ electionId) :
    ({ db with rounds := db.rounds ++ [r] } : Convention).electionPart electionId = db.electionPart electionId := by
  simp [electionPart, inElection, List.filter_append, List.any_append, h]

/-- A handler of one step. Whose a round is, is asked before it is moved. -/
theorem office_electionPart {party : String} {s : Primaries} {act : OfficeAct}
    (hparty : (PrimariesAct.office act).OfParty party)
    (hapart : s.Apart party electionId (.office act) = true) :
    (s.db.office act).electionPart electionId = s.db.electionPart electionId := by
  have hmove := s.db.office_move act
  generalize s.db.office act = after at hmove
  cases hmove with
  | createRound => exact electionPart_addRound (of_decide_eq_true hapart)
  | moveRound _ id partyCode old new hround howns =>
      have hcode : partyCode = party := by cases hround <;> exact hparty
      have hstopped : (!(s.db.inElection electionId id && s.db.partyOwnsRound id party)) = true := by
        cases hround <;> exact hapart
      rw [hcode] at howns
      exact electionPart_setRoundStatus old new (by simpa [howns] using hstopped)
  | coercionVote _ _ _ _ _ session b hsession _ hround =>
      apply electionPart_append
      simpa [hround, Primaries.Apart, hsession] using hapart
  | _ => rfl

end Convention

namespace Primaries

variable {custody : String → Option String} {s : Primaries} {party : String} {electionId : Int}

/-! ### Steps -/

/-- Which rounds are in the election is part of it. -/
theorem Clear.tables (hs : s.Clear electionId) {db : Convention} (auths : Nat → AuthenticatePhase)
    (hpart : db.electionPart electionId = s.db.electionPart electionId) :
    ({ s with db := db, auths := auths }).Clear electionId where
  votes := by
    intro n v hv
    show db.inElection electionId v.roundId = false
    rw [Convention.inElection_of_electionPart hpart]
    exact hs.votes n v hv
  tallies := by
    intro n form hform
    show db.inElection electionId form.roundId = false
    rw [Convention.inElection_of_electionPart hpart]
    exact hs.tallies n form hform

/-- A request that casts a ballot moves on, and its round stays that of the ballot. -/
theorem Clear.setVote (hs : s.Clear electionId) {request : Nat} {p : VotePhase}
    (hp : ∀ v, p.cast? = some v → s.db.inElection electionId v.roundId = false) :
    (s.setVote request p).Clear electionId where
  votes := by
    intro n v hv
    by_cases hn : n = request
    · rw [hn, setVote_votes_self] at hv
      exact hp v hv
    · rw [setVote_votes_of_ne _ _ hn] at hv
      exact hs.votes n v hv
  tallies := hs.tallies

theorem Clear.setTally (hs : s.Clear electionId) {request : Nat} {p : TallyPhase}
    (hp : ∀ form, p.running? = some form → s.db.inElection electionId form.roundId = false) :
    (s.setTally request p).Clear electionId where
  votes := hs.votes
  tallies := by
    intro n form hform
    by_cases hn : n = request
    · rw [hn, setTally_tallies_self] at hform
      exact hp form hform
    · rw [setTally_tallies_of_ne _ _ hn] at hform
      exact hs.tallies n form hform

theorem finishVote_electionPart (db : Convention) {v : Vote} (h : db.inElection electionId v.roundId = false) :
    (db.finishVote v).electionPart electionId = db.electionPart electionId := by
  rw [Convention.finishVote]
  split
  · exact Convention.electionPart_setRoundStatus _ _ h
  · rfl

theorem vote_electionPart (hs : s.Clear electionId) (request : Nat) {act : VoteAct}
    (hapart : s.Apart party electionId (.vote request act) = true) :
    (s.vote custody request act).db.electionPart electionId = s.db.electionPart electionId ∧
      (s.vote custody request act).Clear electionId := by
  obtain hsame | ⟨p, db, hmove, heq⟩ := s.vote_cases custody request act
  · rw [hsame]
    exact ⟨rfl, hs⟩
  · rw [heq]
    have hround := hs.votes request
    suffices h : db.electionPart electionId = s.db.electionPart electionId ∧
        ∀ v, p.cast? = some v → s.db.inElection electionId v.roundId = false by
      refine ⟨h.1, (hs.tables s.auths h.1).setVote fun v hv => ?_⟩
      exact (Convention.inElection_of_electionPart h.1 _).trans (h.2 v hv)
    generalize hphase : s.votes request = q at hmove hround
    cases hmove with
    | insert v n id ballotRef choice ok after hcast =>
        have hv : s.db.inElection electionId v.roundId = false := by
          simpa [Apart, hphase, VotePhase.sealed?] using hapart
        obtain ⟨voteType, -, rfl, -⟩ := s.db.castBallot_eq_some hcast
        refine ⟨Convention.electionPart_append hv, fun w hw => ?_⟩
        rw [← Option.some.inj hw]
        exact hv
    | mark v n ok =>
        refine ⟨?_, fun w hw => hround w hw⟩
        split <;> rfl
    | finish v ok =>
        refine ⟨?_, fun w hw => nomatch hw⟩
        split
        · exact finishVote_electionPart s.db (hround v rfl)
        · rfl
    | refuse => exact ⟨rfl, fun w hw => nomatch hw⟩
    | openCast => exact ⟨rfl, fun w hw => nomatch hw⟩
    | openRemote => exact ⟨rfl, fun w hw => nomatch hw⟩
    | check => exact ⟨rfl, fun w hw => nomatch hw⟩
    | encrypt => exact ⟨rfl, fun w hw => nomatch hw⟩
    | verifyProof => exact ⟨rfl, fun w hw => nomatch hw⟩

theorem auth_electionPart (hs : s.Clear electionId) (request : Nat) (act : AuthenticateAct) :
    (s.auth request act).db.electionPart electionId = s.db.electionPart electionId ∧
      (s.auth request act).Clear electionId := by
  obtain hsame | ⟨p, db, hmove, heq⟩ := s.auth_cases request act
  · rw [hsame]
    exact ⟨rfl, hs⟩
  · have hpart : db.electionPart electionId = s.db.electionPart electionId := by
      rw [hmove.frame]
      rfl
    rw [heq]
    exact ⟨hpart, hs.tables _ hpart⟩

theorem tally_electionPart (hs : s.Clear electionId) (request : Nat) {act : TallyAct}
    (hparty : (PrimariesAct.tally request act).OfParty party)
    (hapart : s.Apart party electionId (.tally request act) = true) :
    (s.tally custody request act).db.electionPart electionId = s.db.electionPart electionId ∧
      (s.tally custody request act).Clear electionId := by
  obtain hsame | ⟨p, db, hmove, heq⟩ := s.tally_cases custody request act
  · rw [hsame]
    exact ⟨rfl, hs⟩
  · rw [heq]
    have hround := hs.tallies request
    suffices h : db.electionPart electionId = s.db.electionPart electionId ∧
        ∀ form, p.running? = some form → s.db.inElection electionId form.roundId = false by
      refine ⟨h.1, (hs.tables s.auths h.1).setTally fun form hform => ?_⟩
      exact (Convention.inElection_of_electionPart h.1 _).trans (h.2 form hform)
    generalize s.tallies request = q at hmove hround
    cases hmove with
    | refuse => exact ⟨rfl, fun form hform => nomatch hform⟩
    | count form howns =>
        refine ⟨rfl, fun form' hform => ?_⟩
        rw [← Option.some.inj hform]
        have hcode : form.partyCode = party := hparty
        rw [hcode] at howns
        simpa [Apart, howns] using hapart
    | selectRefs => exact ⟨rfl, hround⟩
    | aggregate => exact ⟨rfl, hround⟩
    | abstentions => exact ⟨rfl, hround⟩
    | spoiled => exact ⟨rfl, hround⟩
    | record form votes abstentions spoiled ok =>
        exact ⟨Convention.electionPart_recordTallies votes ok (hround form rfl), hround⟩
    | markTallied form votes abstentions spoiled ok =>
        refine ⟨?_, hround⟩
        split
        · exact Convention.electionPart_markTallied (hround form rfl)
        · rfl
    | total form votes abstentions spoiled ok =>
        refine ⟨?_, fun form' hform => nomatch hform⟩
        split
        · exact Convention.electionPart_recordTotals _ _ _ (hround form rfl)
        · rfl
    | log form => exact ⟨rfl, fun form' hform => nomatch hform⟩

theorem step_electionPart (hs : s.Clear electionId) {act : PrimariesAct} (hparty : act.OfParty party)
    (hapart : s.Apart party electionId act = true) :
    (s.step custody act).db.electionPart electionId = s.db.electionPart electionId ∧
      (s.step custody act).Clear electionId := by
  cases act with
  | office act =>
      have hpart := Convention.office_electionPart hparty hapart
      exact ⟨hpart, hs.tables s.auths hpart⟩
  | vote request act => exact vote_electionPart hs request hapart
  | auth request act => exact auth_electionPart hs request act
  | tally request act => exact tally_electionPart hs request hparty hapart

theorem clear_resting (electionId : Int) (db : Convention) : (resting db).Clear electionId :=
  ⟨fun _ _ h => (nomatch h), fun _ _ h => (nomatch h)⟩

/-- The run of steps that stay apart from an election, and what each step keeps. -/
theorem electionPart_visited {custody : String → Option String} {party : String} {electionId : Int} {db : Convention}
    {acts : List PrimariesAct} (hparty : ∀ act ∈ acts, act.OfParty party)
    (hapart : Runs.AllSteps (step custody) (fun s act => s.Apart party electionId act = true) (resting db) acts) :
    ∀ s ∈ Runs.visited (step custody) (resting db) acts, s.Clear electionId ∧
      s.db.electionPart electionId = db.electionPart electionId := by
  have hkeep : ∀ (s : Primaries) act, s.Clear electionId ∧ s.db.electionPart electionId =
    db.electionPart electionId →
      act.OfParty party ∧ s.Apart party electionId act = true →
      (s.step custody act).Clear electionId ∧ (s.step custody act).db.electionPart electionId =
        db.electionPart electionId := by
    intro s act hs hact
    obtain ⟨hpart, hclear⟩ := step_electionPart hs.1 hact.1 hact.2
    exact ⟨hclear, hpart.trans hs.2⟩
  exact Runs.forall_visited hkeep ⟨clear_resting electionId db, rfl⟩ (hapart.and_of_mem hparty)

/-- Requests of a party, in any order of their steps and from any tables: an election is as it was before them,
as long as they stay apart from it. -/
theorem electionPart_of_apart (custody : String → Option String) (party : String)
    (electionId : Int) (db : Convention) {acts : List PrimariesAct} (hparty : ∀ act ∈ acts, act.OfParty party)
    (hapart : Runs.AllSteps (step custody) (fun s act => s.Apart party electionId act = true) (resting db) acts) :
    ∀ s ∈ Runs.visited (step custody) (resting db) acts, s.db.electionPart electionId =
      db.electionPart electionId := by
  intro s hs
  exact (electionPart_visited hparty hapart s hs).2

section Samples

/-- Party 1 has an open round in election 1. -/
def openPrimary : Convention := (Runs.final (step sampleCustody) (start 0) samplePrimary).db

/-- Party 2 sets up an election of its own, and it is stopped at the round of party 1. -/
def ownPrimary : List PrimariesAct :=
  [.office (.addDelegate "del-2" 2 "party_2"), .office (.createRound "rnd-2" 2 1 .secretBallot),
    .office (.closeRound "rnd-1" "party_2")]

theorem electionPart_of_ownPrimary :
    (∀ act ∈ ownPrimary, act.OfParty "party_2") ∧
    ∀ s ∈ Runs.visited (step sampleCustody) (resting openPrimary) ownPrimary, s.db.electionPart 1 =
      openPrimary.electionPart 1 := by
  have hparty : ∀ act ∈ ownPrimary, act.OfParty "party_2" := by simp [ownPrimary, PrimariesAct.OfParty]
  exact ⟨hparty, electionPart_of_apart sampleCustody "party_2" 1 openPrimary hparty (by decide +kernel)⟩

/-- Party 2 registers a delegate of its own in election 1, which makes it the owner of the round. -/
def closesOpenRound : List PrimariesAct :=
  [.office (.addDelegate "del-2" 1 "party_2"), .office (.closeRound "rnd-1" "party_2")]

/-- Party 2 closes the round of party 1, and it casts the ballot of its delegate. -/
theorem other_party_changed :
    ((∀ act ∈ closesOpenRound, act.OfParty "party_2") ∧
      ¬∀ s ∈ Runs.visited (step sampleCustody) (resting openPrimary) closesOpenRound,
        s.db.electionPart 1 = openPrimary.electionPart 1) ∧
    (∀ act ∈ sampleCast 0 "bal-1", act.OfParty "party_2") ∧
      ¬∀ s ∈ Runs.visited (step sampleCustody) (resting openPrimary) (sampleCast 0 "bal-1"),
        s.db.electionPart 1 = openPrimary.electionPart 1 := by
  have hclosed : ((Runs.final (step sampleCustody)
    (resting openPrimary) closesOpenRound).db.electionPart 1).rounds ≠
      (openPrimary.electionPart 1).rounds := by decide +kernel
  have hcast : ((Runs.final (step sampleCustody) (resting openPrimary)
    (sampleCast 0 "bal-1")).db.electionPart 1).ballots ≠
      (openPrimary.electionPart 1).ballots := by decide +kernel
  refine ⟨⟨by simp [closesOpenRound, PrimariesAct.OfParty], fun h => hclosed ?_⟩,
    by simp [sampleCast, PrimariesAct.OfParty], fun h => hcast ?_⟩
  · exact congrArg ElectionPart.rounds (h _ (Runs.final_mem_visited ..))
  · exact congrArg ElectionPart.ballots (h _ (Runs.final_mem_visited ..))

end Samples

end Primaries

/-! ### Outsiders -/

namespace Convention

variable {db after : Convention} {party : String} {electionId : Int}

/-- An outsider owns no round of the election. -/
theorem Outsider.stopped (h : db.Outsider party electionId) (id : String) :
    (!(db.inElection electionId id && db.partyOwnsRound id party)) = true := by
  rw [Bool.not_eq_true', Bool.eq_false_iff]
  intro hboth
  obtain ⟨hin, howns⟩ := Bool.and_eq_true_iff.mp hboth
  obtain ⟨r, hr, hround⟩ := List.any_eq_true.mp hin
  simp only [Bool.and_eq_true, decide_eq_true_eq] at hround
  have hfound : db.round? id = some r := (Rows.find?_key_eq_some_iff h.rounds).mpr ⟨hr, hround.1⟩
  rw [partyOwnsRound, hfound, Option.any_some, Bool.and_eq_true, hround.2] at howns
  obtain hdelegate | haspirant := Bool.or_eq_true_iff.mp howns.2
  · obtain ⟨d, hd, hcolumns⟩ := List.any_eq_true.mp hdelegate
    simp only [Bool.and_eq_true, decide_eq_true_eq] at hcolumns
    exact h.delegates d hd hcolumns.1 hcolumns.2
  · obtain ⟨a, ha, hcolumns⟩ := List.any_eq_true.mp haspirant
    simp only [Bool.and_eq_true, decide_eq_true_eq] at hcolumns
    exact h.aspirants a ha hcolumns.1 hcolumns.2

theorem Outsider.congr (h : db.Outsider party electionId)
    (hdelegates : after.delegates.map (fun d => (d.electionId, d.partyCode)) = db.delegates.map fun d =>
      (d.electionId, d.partyCode))
    (haspirants : after.aspirants = db.aspirants)
    (hrounds : after.rounds.map VotingRound.id = db.rounds.map VotingRound.id) :
    after.Outsider party electionId where
  delegates := by
    intro d hd helection hcode
    have hmem : (d.electionId, d.partyCode) ∈ after.delegates.map fun d => (d.electionId, d.partyCode) :=
      List.mem_map_of_mem hd
    rw [hdelegates] at hmem
    obtain ⟨d', hd', hsame⟩ := List.mem_map.mp hmem
    obtain ⟨hsameElection, hsameParty⟩ := Prod.mk.inj hsame
    exact h.delegates d' hd' (hsameElection.trans helection) (hsameParty.trans hcode)
  aspirants := by
    rw [haspirants]
    exact h.aspirants
  rounds := by
    rw [hrounds]
    exact h.rounds

theorem Outsider.updateDelegate (h : db.Outsider party electionId) {id : String} {f : Delegate → Delegate}
    (helection : ∀ d, (f d).electionId = d.electionId) (hparty : ∀ d, (f d).partyCode = d.partyCode) :
    (db.updateDelegate id f).Outsider party electionId := by
  have hcolumns : (db.updateDelegate id f).delegates.map (fun d => (d.electionId, d.partyCode)) =
      db.delegates.map fun d => (d.electionId, d.partyCode) := by
    apply Rows.map_update
    intro d _ _
    rw [helection, hparty]
  exact h.congr hcolumns rfl rfl

theorem Outsider.moveDelegate (h : db.Outsider party electionId) (id partyCode : String) (old new : Accreditation) :
    (db.moveDelegate id partyCode old new).Outsider party electionId := by
  apply h.updateDelegate
  · intro d
    split <;> rfl
  · intro d
    split <;> rfl

theorem Outsider.updateRound (h : db.Outsider party electionId) {id : String} {f : VotingRound → VotingRound}
    (hid : ∀ r, (f r).id = r.id) :
    (db.updateRound id f).Outsider party electionId := by
  have hids : (db.updateRound id f).rounds.map VotingRound.id = db.rounds.map VotingRound.id := by
    apply Rows.map_update
    intro r _ _
    exact hid r
  exact h.congr rfl rfl hids

theorem Outsider.setRoundStatus (h : db.Outsider party electionId) (id : String) (old : RoundStatus → Bool)
    (new : RoundStatus) :
    (db.setRoundStatus id old new).Outsider party electionId := by
  apply h.updateRound
  intro r
  split <;> rfl

theorem Outsider.finishVote (h : db.Outsider party electionId) (v : Vote) :
    (db.finishVote v).Outsider party electionId := by
  rw [Convention.finishVote]
  split
  · exact h.setRoundStatus ..
  · exact h.congr rfl rfl rfl

theorem Outsider.office {s : Primaries} (h : s.db.Outsider party electionId) {act : OfficeAct}
    (habroad : s.Abroad electionId (.office act) = true) : (s.db.office act).Outsider party electionId := by
  have hmove := s.db.office_move act
  generalize s.db.office act = after at hmove
  cases hmove with
  | nothing => exact h
  | addDelegate id election partyCode =>
      refine ⟨?_, h.aspirants, h.rounds⟩
      intro d hd helection
      rw [List.mem_append, List.mem_singleton] at hd
      cases hd with
      | inl hold => exact h.delegates d hold helection
      | inr hnew =>
          rw [hnew] at helection
          exact absurd helection (of_decide_eq_true habroad)
  | addAspirant id election partyCode =>
      refine ⟨h.delegates, ?_, h.rounds⟩
      intro a ha helection
      rw [List.mem_append, List.mem_singleton] at ha
      cases ha with
      | inl hold => exact h.aspirants a hold helection
      | inr hnew =>
          rw [hnew] at helection
          exact absurd helection (of_decide_eq_true habroad)
  | createRound id election number number' method hfree =>
      refine ⟨h.delegates, h.aspirants, Rows.nodup_map_append_singleton h.rounds ?_⟩
      intro hmem
      obtain ⟨r, hr, hid⟩ := List.mem_map.mp hmem
      rw [round?, (Rows.find?_key_eq_some_iff h.rounds).mpr ⟨hr, hid⟩] at hfree
      cases hfree
  | moveRound => exact h.setRoundStatus ..
  | moveDelegate => exact h.moveDelegate ..
  | _ => exact h.congr rfl rfl rfl

end Convention

namespace Primaries

variable {custody : String → Option String} {s : Primaries} {party : String} {electionId : Int}

theorem outsider_step (h : s.db.Outsider party electionId) {act : PrimariesAct}
    (habroad : s.Abroad electionId act = true) :
    (s.step custody act).db.Outsider party electionId := by
  cases act with
  | office act => exact h.office habroad
  | vote request act =>
      obtain hsame | ⟨p, db, hmove, heq⟩ := s.vote_cases custody request act
      · rw [step, hsame]
        exact h
      · rw [step, heq]
        show db.Outsider party electionId
        generalize s.votes request = q at hmove
        cases hmove with
        | insert v n id ballotRef choice ok after hcast =>
            obtain ⟨voteType, -, rfl, -⟩ := s.db.castBallot_eq_some hcast
            exact h.congr rfl rfl rfl
        | mark v n ok =>
            split
            · exact h.updateDelegate (fun _ => rfl) fun _ => rfl
            · exact h
        | finish v ok =>
            split
            · exact h.finishVote v
            · exact h
        | _ => exact h
  | auth request act =>
      obtain hsame | ⟨p, db, hmove, heq⟩ := s.auth_cases request act
      · rw [step, hsame]
        exact h
      · rw [step, heq]
        show db.Outsider party electionId
        rw [hmove.frame]
        exact h.congr rfl rfl rfl
  | tally request act =>
      obtain hsame | ⟨p, db, hmove, heq⟩ := s.tally_cases custody request act
      · rw [step, hsame]
        exact h
      · rw [step, heq]
        show db.Outsider party electionId
        generalize s.tallies request = q at hmove
        cases hmove with
        | record => exact h.congr rfl rfl rfl
        | markTallied form votes abstentions spoiled ok =>
            split
            · exact h.congr rfl rfl rfl
            · exact h
        | total form votes abstentions spoiled ok =>
            split
            · rw [Convention.recordTotals]
              split
              · exact h.updateRound fun _ => rfl
              · exact h
            · exact h
        | log => exact h.congr rfl rfl rfl
        | _ => exact h

theorem apart_of_abroad (h : s.db.Outsider party electionId) {act : PrimariesAct}
    (habroad : s.Abroad electionId act = true) :
    s.Apart party electionId act = true := by
  unfold Apart
  split
  · exact habroad
  · exact h.stopped _
  · exact h.stopped _
  · exact h.stopped _
  · exact habroad
  · exact habroad
  · exact h.stopped _
  · rfl

/-- The question keeps out a party that has nobody in an election and registers nobody there. -/
theorem electionPart_of_outsider (custody : String → Option String) (party : String)
    (electionId : Int) {db : Convention} (hdb : db.Outsider party electionId) {acts : List PrimariesAct}
    (hparty : ∀ act ∈ acts, act.OfParty party) (habroad :
    Runs.AllSteps (step custody) (fun s act => s.Abroad electionId act = true) (resting db) acts) :
    ∀ s ∈ Runs.visited (step custody) (resting db) acts, s.db.electionPart electionId =
      db.electionPart electionId := by
  have hkeep : ∀ (s : Primaries) act, s.db.Outsider party electionId → s.Abroad electionId act = true →
      (s.step custody act).db.Outsider party electionId := fun _ _ h hact => outsider_step h hact
  have hapart : Runs.AllSteps (step custody) (fun s act => s.Apart party electionId act = true) (resting db) acts :=
    Runs.AllSteps.imp_of_inv hkeep (fun _ _ h hact => apart_of_abroad h hact) hdb habroad
  intro s hs
  exact (electionPart_visited hparty hapart s hs).2

end Primaries

end Inec
