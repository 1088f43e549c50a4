import Inec.Lib.Runs
import Inec.Primaries.Convention

/-!
# Requests on the tables

The handlers of the primaries as a machine. The requests that cast a ballot, that authenticate a session and
that tally a round are numbered, each with numbers of its own, and each is somewhere between its statements; the
steps of all of them come in any order. The other handlers decide with a single statement and are one step.

`custody` is what the crypto backend holds: the aspirant of the ballot a handle stands for. The backend answers
with a handle of the choice it was given, and tallies the handles it is sent exactly.
-/

namespace Inec

/-- How a ballot comes in, with what the voter chose. -/
inductive VoteOrigin
  | inPerson (aspirantId : String)
  | remote (sessionId : String) (encryptedBallot : String)
  deriving DecidableEq, Repr

structure Vote where
  roundId : String
  delegateId : String
  voteType : String
  origin : VoteOrigin
  deriving DecidableEq, Repr

namespace Vote

variable (v : Vote)

def isRemote : Bool :=
  match v.origin with
  | .inPerson _ => false
  | .remote _ _ => true

def sessionId? : Option String :=
  match v.origin with
  | .inPerson _ => none
  | .remote sessionId _ => some sessionId

/-- The delegate and the round the vote counts for. -/
def voter : String × String := (v.delegateId, v.roundId)

end Vote

/-- The body of a request to handleCastBallot. -/
structure CastForm where
  roundId : String
  delegateId : String
  aspirantId : String
  voteType : String
  deriving DecidableEq, Repr

/-- A vote type that is left out is `for`. -/
def defaultVoteType (voteType : String) : String := if voteType = "" then "for" else voteType

def CastForm.vote? (form : CastForm) : Option Vote :=
  let voteType := defaultVoteType form.voteType
  if form.roundId = "" ∨ form.delegateId = "" ∨ (voteType = "for" ∧ form.aspirantId = "") then none
  else some ⟨form.roundId, form.delegateId, voteType, .inPerson form.aspirantId⟩

/-- The body of a request to handleRemoteVote. -/
structure RemoteForm where
  sessionId : String
  voteType : String
  encryptedBallot : String
  deriving DecidableEq, Repr

def RemoteForm.vote (form : RemoteForm) (session : VotingSession) : Vote :=
  ⟨session.roundId, session.delegateId, defaultVoteType form.voteType, .remote form.sessionId form.encryptedBallot⟩

/-- The answer of `/encrypt`, of those that can be decoded. -/
structure EncryptAnswer where
  ciphertext : String
  ballotRef : String
  aspirantId : String
  deriving DecidableEq, Repr

/-- The handle, which may be empty. -/
def encryptBallotViaBackend (answer : Option EncryptAnswer) : Option String :=
  answer.bind fun a => if a.ciphertext = "" ∨ a.aspirantId ≠ "" then none else some a.ballotRef

/-- The answer of `/verify-proof`. -/
structure ProofAnswer where
  valid : Bool
  ballotRef : String
  deriving DecidableEq, Repr

def verifyBallotProofViaBackend (answer : Option ProofAnswer) : Option String :=
  answer.bind fun a => if a.valid then some a.ballotRef else none

/-- How far a request that casts a ballot is. -/
inductive VotePhase
  | idle
  /-- The round was open, or the session authenticated. -/
  | opened (v : Vote)
  /-- The delegate had not voted in the round, which has this number. -/
  | checked (v : Vote) (number : Int)
  | sealed (v : Vote) (number : Int) (ballotRef : String) (choice : Option String)
  | stored (v : Vote) (number : Int)
  | marked (v : Vote)
  | done
  | refused
  deriving DecidableEq

inductive VoteAct
  | cast (form : CastForm)
  | remote (form : RemoteForm)
  | check
  | encrypt (answer : Option EncryptAnswer)
  | verifyProof (answer : Option ProofAnswer) (choice : Option String)
  | insert (ballotId : String) (ok : Bool)
  | mark (ok : Bool)
  | finish (ok : Bool)

/-- How far a request that authenticates a session is. -/
inductive AuthenticatePhase
  | idle
  | admitted (sessionId : String) (devicePassed : Bool)
  | done
  | refused
  deriving DecidableEq

inductive AuthenticateAct
  | authenticate (sessionId otpHash fingerprint : String)
  | biometric (verified ok : Bool)

structure TallyForm where
  roundId : String
  partyCode : String
  user : String
  deriving DecidableEq, Repr

/-- How far a tally is. `votes` are the aspirants of the votes counted so far. -/
inductive TallyPhase
  | idle
  | counted (form : TallyForm) (votes : List String)
  | selected (form : TallyForm) (votes refs : List String)
  | aggregated (form : TallyForm) (votes : List String)
  | abstained (form : TallyForm) (votes : List String) (abstentions : Nat)
  | surveyed (form : TallyForm) (votes : List String) (abstentions spoiled : Nat)
  | recorded (form : TallyForm) (votes : List String) (abstentions spoiled : Nat)
  | settled (form : TallyForm) (votes : List String) (abstentions spoiled : Nat)
  | totalled (form : TallyForm)
  | done
  | refused
  deriving DecidableEq

inductive TallyAct
  | count (form : TallyForm)
  | selectRefs
  | aggregate (ok : Bool)
  | abstentions
  | spoiled
  | record (ok : String → Bool)
  | markTallied (ok : Bool)
  | total (ok : Bool)
  | log

/-- The handlers of one step, and the clock. -/
inductive OfficeAct
  | tick (elapsed : Nat)
  | addDelegate (id : String) (electionId : Int) (partyCode : String)
  | issueCredential (id partyCode : String)
  | accreditDelegate (id partyCode : String)
  | revokeDelegate (id partyCode : String)
  | addAspirant (id : String) (electionId : Int) (partyCode : String)
  | createRound (id : String) (electionId number : Int) (method : VotingMethod)
  | openRound (id partyCode : String)
  | closeRound (id partyCode : String)
  | certifyRound (id partyCode user : String) (anchored : Bool)
  | registerDevice (delegateId fingerprint : String)
  | createSession (id partyCode delegateId roundId otpHash : String)
  | coercionVote (sessionId ballotId voteType : String) (answer : Option EncryptAnswer) (duress : Bool)

structure Primaries where
  db : Convention
  votes : Nat → VotePhase
  auths : Nat → AuthenticatePhase
  tallies : Nat → TallyPhase

inductive PrimariesAct
  | office (act : OfficeAct)
  | vote (request : Nat) (act : VoteAct)
  | auth (request : Nat) (act : AuthenticateAct)
  | tally (request : Nat) (act : TallyAct)

namespace Convention

variable (s : Convention)

/-- The check of a delegate. A delegate in person has to be accredited; whether somebody votes from a session is
read from the row if there is one. -/
def mayVote (v : Vote) : Bool :=
  match s.delegate? v.delegateId with
  | none => v.isRemote
  | some d =>
      (v.isRemote || decide (d.accreditation = .accredited)) &&
        !(d.hasVoted && decide (d.voteRound = some (s.roundNumber v.roundId)))

def castFacts (v : Vote) : CastFacts := ⟨s.delegate? v.delegateId, v.sessionId?.bind s.session?, s.now⟩

/-- The row of a vote. -/
def ballotOf (v : Vote) (id : String) (voteType : VoteType) (ballotRef : String)
    (choice : Option String) : Ballot where
  id := id
  roundId := v.roundId
  delegateId := v.delegateId
  aspirantId := none
  voteType := voteType
  isRemote := v.isRemote
  isDecoy := false
  ballotRef := nullStr ballotRef
  tallied := false
  choice := choice
  facts := s.castFacts v

def castBallot (v : Vote) (id ballotRef : String) (choice : Option String) : Option Convention :=
  (VoteType.ofText? v.voteType).bind fun voteType => s.insertBallot (s.ballotOf v id voteType ballotRef choice)

/-- A decoy: its session is authenticated, and the panic code is that of the delegate. -/
def coercionVote (sessionId ballotId voteType : String) (answer : Option EncryptAnswer)
    (duress : Bool) : Convention :=
  match s.session? sessionId, encryptBallotViaBackend answer, VoteType.ofText? (defaultVoteType voteType) with
  | some session, some ballotRef, some voteType =>
      let v : Vote := ⟨session.roundId, session.delegateId, "", .remote sessionId ""⟩
      if session.status = .authenticated && duress then
        (s.insertBallot { s.ballotOf v ballotId voteType ballotRef none with isDecoy := true }).getD s
      else s
  | _, _, _ => s

def markVoted (delegateId : String) (number : Int) : Convention :=
  s.updateDelegate delegateId fun d => { d with hasVoted := true, voteRound := some number }

/-- What a request does after the mark. -/
def finishVote (v : Vote) : Convention :=
  match v.origin with
  | .inPerson _ => s.setRoundStatus v.roundId (· = .opened) .voting
  | .remote sessionId _ => s.updateSession sessionId fun x => { x with status := .voted }

def office (s : Convention) : OfficeAct → Convention
  | .tick elapsed => { s with now := s.now + elapsed }
  | .addDelegate id electionId partyCode => s.addDelegate id electionId partyCode
  | .issueCredential id partyCode => s.issueCredential id partyCode
  | .accreditDelegate id partyCode => s.accreditDelegate id partyCode
  | .revokeDelegate id partyCode => s.revokeDelegate id partyCode
  | .addAspirant id electionId partyCode => s.addAspirant id electionId partyCode
  | .createRound id electionId number method => s.createRound id electionId number method
  | .openRound id partyCode => s.openRound id partyCode
  | .closeRound id partyCode => s.closeRound id partyCode
  | .certifyRound id partyCode user anchored => s.certifyRound id partyCode user anchored
  | .registerDevice delegateId fingerprint => s.registerDevice delegateId fingerprint
  | .createSession id partyCode delegateId roundId otpHash =>
      s.createSession id partyCode delegateId roundId otpHash
  | .coercionVote sessionId ballotId voteType answer duress =>
      s.coercionVote sessionId ballotId voteType answer duress

end Convention

/-- What the backend was asked to keep: a vote for an aspirant, or none. -/
def Vote.choice (v : Vote) : Option String :=
  match v.origin with
  | .inPerson aspirantId => if v.voteType = "for" then some aspirantId else none
  | .remote _ _ => none

namespace Primaries

def start (now : Nat) : Primaries := ⟨.empty now, fun _ => .idle, fun _ => .idle, fun _ => .idle⟩

variable (custody : String → Option String) (s : Primaries)

def setVote (request : Nat) (p : VotePhase) : Primaries := { s with votes := Function.update s.votes request p }

def setAuth (request : Nat) (p : AuthenticatePhase) : Primaries :=
  { s with auths := Function.update s.auths request p }

def setTally (request : Nat) (p : TallyPhase) : Primaries :=
  { s with tallies := Function.update s.tallies request p }

/-- The backend gives out a handle only for what it keeps under it. -/
def keeps (ballotRef : String) (choice : Option String) : Bool := ballotRef = "" || custody ballotRef = choice

def vote (s : Primaries) (request : Nat) (act : VoteAct) : Primaries :=
  match act, s.votes request with
  | .cast form, .idle =>
      match form.vote? with
      | some v => s.setVote request (if s.db.roundOpen v.roundId then .opened v else .refused)
      | none => s.setVote request .refused
  | .remote form, .idle =>
      match s.db.session? form.sessionId with
      | some session =>
          s.setVote request (if session.status = .authenticated then .opened (form.vote session) else .refused)
      | none => s.setVote request .refused
  | .check, .opened v =>
      s.setVote request (if s.db.mayVote v then .checked v (s.db.roundNumber v.roundId) else .refused)
  | .encrypt answer, .checked v number =>
      if v.isRemote then s
      else
        match encryptBallotViaBackend answer with
        | some ballotRef =>
            if keeps custody ballotRef v.choice then s.setVote request (.sealed v number ballotRef v.choice) else s
        | none => s.setVote request .refused
  | .verifyProof answer choice, .checked v number =>
      match v.origin with
      | .inPerson _ => s
      | .remote _ encryptedBallot =>
          if encryptedBallot = "" then s.setVote request .refused
          else
            match verifyBallotProofViaBackend answer with
            | some ballotRef =>
                if keeps custody ballotRef choice then s.setVote request (.sealed v number ballotRef choice) else s
            | none => s.setVote request .refused
  | .insert ballotId ok, .sealed v number ballotRef choice =>
      match (s.db.castBallot v ballotId ballotRef choice).filter fun _ => ok with
      | some db => { s with db := db }.setVote request (.stored v number)
      | none => s.setVote request .refused
  | .mark ok, .stored v number =>
      { s with db := if ok then s.db.markVoted v.delegateId number else s.db }.setVote request (.marked v)
  | .finish ok, .marked v => { s with db := if ok then s.db.finishVote v else s.db }.setVote request .done
  | _, _ => s

def auth (s : Primaries) (request : Nat) (act : AuthenticateAct) : Primaries :=
  match act, s.auths request with
  | .authenticate sessionId otpHash fingerprint, .idle =>
      match s.db.session? sessionId with
      | none => s.setAuth request .refused
      | some session =>
          if session.status ≠ .pending then s.setAuth request .refused
          else if session.otpExpiresAt < s.db.now then
            { s with db := s.db.updateSession sessionId fun x => { x with status := .expired } }.setAuth request .refused
          else if otpHash ≠ session.otpHash then s.setAuth request .refused
          else if fingerprint ≠ "" ∧ s.db.deviceMatches session.delegateId fingerprint =
            false then s.setAuth request .refused
          else s.setAuth request (.admitted sessionId (decide (fingerprint ≠ "")))
  | .biometric verified ok, .admitted sessionId devicePassed =>
      if verified then
        { s with
          db :=
            if ok then
              s.db.updateSession sessionId fun x =>
                { x with
                  status := .authenticated
                  biometricVerified := true
                  otpPassed := true
                  devicePassed := x.devicePassed || devicePassed }
            else s.db }.setAuth request .done
      else s.setAuth request .refused
  | _, _ => s

def tally (s : Primaries) (request : Nat) (act : TallyAct) : Primaries :=
  match act, s.tallies request with
  | .count form, .idle =>
      if s.db.partyOwnsRound form.roundId form.partyCode then
        s.setTally request (.counted form (s.db.cleartextVotes form.roundId form.partyCode))
      else s.setTally request .refused
  | .selectRefs, .counted form votes => s.setTally request (.selected form votes (s.db.custodiedRefs form.roundId))
  | .aggregate ok, .selected form votes refs =>
      -- without handles the backend is not asked
      if refs = [] then s.setTally request (.aggregated form votes)
      else if ok then
        s.setTally request (.aggregated form (votes ++ (refs.filterMap custody).filter
          (s.db.ofParty · form.partyCode)))
      else s.setTally request .refused
  | .abstentions, .aggregated form votes =>
      s.setTally request (.abstained form votes (s.db.countType form.roundId .abstain))
  | .spoiled, .abstained form votes abstentions =>
      s.setTally request (.surveyed form votes abstentions (s.db.countType form.roundId .spoiled))
  | .record ok, .surveyed form votes abstentions spoiled =>
      { s with db := s.db.recordTallies form.roundId votes ok }.setTally request
        (.recorded form votes abstentions spoiled)
  | .markTallied ok, .recorded form votes abstentions spoiled =>
      { s with db := if ok then s.db.markTallied form.roundId else s.db }.setTally request
        (.settled form votes abstentions spoiled)
  | .total ok, .settled form votes abstentions spoiled =>
      { s with
        db :=
          if ok then
            s.db.recordTotals form.roundId form.partyCode
              (votes.length + abstentions + spoiled) votes.length spoiled
          else s.db }.setTally request (.totalled form)
  | .log, .totalled form =>
      { s with db := { s.db with tallyLog := s.db.tallyLog ++ [(form.roundId, form.user)] } }.setTally request .done
  | _, _ => s

def step (s : Primaries) : PrimariesAct → Primaries
  | .office act => { s with db := s.db.office act }
  | .vote request act => s.vote custody request act
  | .auth request act => s.auth request act
  | .tally request act => s.tally custody request act

end Primaries

/-- The statements of a tally, none of which fails. -/
def tallyActs (request : Nat) (form : TallyForm) : List PrimariesAct :=
  [.tally request (.count form), .tally request .selectRefs, .tally request (.aggregate true),
    .tally request .abstentions, .tally request .spoiled, .tally request (.record fun _ => true),
      .tally request (.markTallied true), .tally request (.total true)]

section Samples

def sampleCustody (ballotRef : String) : Option String := if ballotRef = "ref-1" then some "asp-1" else none

/-- An accredited delegate, an open round for remote voting, and a session of the delegate that is authenticated. -/
def samplePrimary : List PrimariesAct :=
  [.office (.addDelegate "del-1" 1 "party_1"), .office (.issueCredential "del-1" "party_1"),
    .office (.accreditDelegate "del-1" "party_1"), .office (.addAspirant "asp-1" 1 "party_1"),
    .office (.createRound "rnd-1" 1 1 .remoteElectronic), .office (.openRound "rnd-1" "party_1"),
    .office (.registerDevice "del-1" "fp-1"), .office (.createSession "vs-1" "party_1" "del-1" "rnd-1" "otp-1"),
    .auth 0 (.authenticate "vs-1" "otp-1" "fp-1"), .auth 0 (.biometric true true)]

/-- The steps of a ballot that is cast in person. -/
def sampleCast (request : Nat) (ballotId : String) : List PrimariesAct :=
  [.vote request (.cast ⟨"rnd-1", "del-1", "asp-1", ""⟩), .vote request .check,
    .vote request (.encrypt (some ⟨"ciphertext", "ref-1", ""⟩)), .vote request (.insert ballotId true),
    .vote request (.mark true), .vote request (.finish true)]

/-- The steps of a ballot that is cast from the session. -/
def sampleRemote (request : Nat) (ballotId : String) : List PrimariesAct :=
  [.vote request (.remote ⟨"vs-1", "", "ciphertext"⟩), .vote request .check,
    .vote request (.verifyProof (some ⟨true, "ref-1"⟩) (some "asp-1")), .vote request (.insert ballotId true),
    .vote request (.mark true), .vote request (.finish true)]

def sampleTally : TallyForm := ⟨"rnd-1", "party_1", "officer-1"⟩

end Samples

end Inec
