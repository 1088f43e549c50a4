import Inec.Lib.Rows

/-!
# The tables of a party primary

000019_party_primaries_remote_voting.up.sql and the statements of handlers_primaries.go on them: delegates and
aspirants, voting rounds and their ballots, the sessions and devices of remote voting, the tallies. A statement
is a function on the tables; the handlers run several of them one after the other, outside of any transaction.

A ballot holds the choice of the voter only as a handle of the crypto backend. What the voter chose and what the
tables said when the row was inserted are kept beside the row; they are no columns.
-/

namespace Inec

inductive Accreditation
  | registered
  | credentialIssued
  | accredited
  | revoked
  | absent
  deriving DecidableEq, Repr

structure Delegate where
  id : String
  electionId : Int
  partyCode : String
  accreditation : Accreditation
  hasVoted : Bool
  /-- The number of the round of the last vote. -/
  voteRound : Option Int
  deriving DecidableEq, Repr

structure Aspirant where
  id : String
  electionId : Int
  partyCode : String
  deriving DecidableEq, Repr

inductive RoundStatus
  | pending
  | opened
  | voting
  | closed
  | tallying
  | certified
  | voided
  deriving DecidableEq, Repr

/-- The status is `open` or `voting`. -/
def RoundStatus.open? : RoundStatus → Bool
  | opened => true
  | voting => true
  | _ => false

inductive VotingMethod
  | secretBallot
  | openBallot
  | electronic
  | showOfHands
  | voiceVote
  | remoteElectronic
  deriving DecidableEq, Repr

/-- Sessions are made for rounds of these methods. -/
def VotingMethod.remote? (method : VotingMethod) : Bool := method = .remoteElectronic || method = .electronic

structure VotingRound where
  id : String
  electionId : Int
  number : Int
  status : RoundStatus
  method : VotingMethod
  totalVotesCast : Nat
  totalValidVotes : Nat
  totalInvalidVotes : Nat
  deriving DecidableEq, Repr

/-- `for`, `against`, `abstain` and `spoiled`. -/
inductive VoteType
  | favour
  | against
  | abstain
  | spoiled
  deriving DecidableEq, Repr

/-- The check of the column: any other text is refused. -/
def VoteType.ofText? (text : String) : Option VoteType :=
  if text = "for" then some .favour
  else if text = "against" then some .against
  else if text = "abstain" then some .abstain
  else if text = "spoiled" then some .spoiled
  else none

inductive SessionStatus
  | pending
  | authenticated
  | voting
  | voted
  | expired
  | revoked
  deriving DecidableEq, Repr

/-- The hash of the OTP stands for it. -/
structure VotingSession where
  id : String
  delegateId : String
  roundId : String
  otpHash : String
  otpExpiresAt : Nat
  biometricVerified : Bool
  status : SessionStatus
  expiresAt : Nat
  /-- The OTP was presented in time. No column. -/
  otpPassed : Bool
  /-- The fingerprint that was presented is that of an active device of the delegate. No column. -/
  devicePassed : Bool
  deriving DecidableEq, Repr

structure RemoteDevice where
  delegateId : String
  fingerprint : String
  isActive : Bool
  deriving DecidableEq, Repr

/-- The rows behind a ballot at the instant it was inserted. -/
structure CastFacts where
  delegate : Option Delegate
  session : Option VotingSession
  castAt : Nat
  deriving DecidableEq, Repr

structure Ballot where
  id : String
  roundId : String
  delegateId : String
  aspirantId : Option String
  voteType : VoteType
  isRemote : Bool
  isDecoy : Bool
  ballotRef : Option String
  tallied : Bool
  /-- The aspirant the ballot is cast for. No column. -/
  choice : Option String
  facts : CastFacts
  deriving DecidableEq, Repr

/-- `nullStr`. -/
def nullStr (s : String) : Option String := if s = "" then none else some s

structure Convention where
  now : Nat
  delegates : List Delegate
  aspirants : List Aspirant
  rounds : List VotingRound
  ballots : List Ballot
  sessions : List VotingSession
  devices : List RemoteDevice
  /-- `vote_tallies`: the votes of an aspirant in a round. -/
  voteTallies : String → String → Option Nat
  /-- The `round_tallied` entries of the audit log, with the round and the actor. -/
  tallyLog : List (String × String)

namespace Convention

def empty (now : Nat) : Convention := ⟨now, [], [], [], [], [], [], fun _ _ => none, []⟩

variable (s : Convention)

def delegate? (id : String) : Option Delegate := s.delegates.find? fun d => d.id == id

def round? (id : String) : Option VotingRound := s.rounds.find? fun r => r.id == id

def session? (id : String) : Option VotingSession := s.sessions.find? fun x => x.id == id

/-- A round that cannot be read counts as number zero. -/
def roundNumber (id : String) : Int := ((s.round? id).map (·.number)).getD 0

/-- The status of a round that is there. -/
def roundStatus? (id : String) : Option RoundStatus := (s.round? id).map (·.status)

def roundOpen (id : String) : Bool := (s.roundStatus? id).any RoundStatus.open?

/-- `EXISTS` delegates of the party in the election of the round. -/
def partyHasDelegates (roundId partyCode : String) : Bool :=
  (s.round? roundId).any fun r => s.delegates.any fun d => d.electionId = r.electionId && d.partyCode = partyCode

def partyOwnsElection (electionId : Int) (partyCode : String) : Bool :=
  s.delegates.any (fun d => d.electionId = electionId && d.partyCode = partyCode) ||
    s.aspirants.any fun a => a.electionId = electionId && a.partyCode = partyCode

def partyOwnsRound (roundId partyCode : String) : Bool :=
  (s.round? roundId).any fun r => r.electionId ≠ 0 && s.partyOwnsElection r.electionId partyCode

def updateDelegate (id : String) (f : Delegate → Delegate) : Convention :=
  { s with delegates := Rows.update Delegate.id id f s.delegates }

def updateRound (id : String) (f : VotingRound → VotingRound) : Convention :=
  { s with rounds := Rows.update VotingRound.id id f s.rounds }

def updateSession (id : String) (f : VotingSession → VotingSession) : Convention :=
  { s with sessions := Rows.update VotingSession.id id f s.sessions }

def setRoundStatus (id : String) (old : RoundStatus → Bool) (new : RoundStatus) : Convention :=
  s.updateRound id fun r => if old r.status then { r with status := new } else r

/-! ### Delegates, aspirants and rounds -/

def addDelegate (id : String) (electionId : Int) (partyCode : String) : Convention :=
  if (s.delegate? id).isSome then s
  else { s with delegates := s.delegates ++ [⟨id, electionId, partyCode, .registered, false, none⟩] }

/-- The update of a delegate of the party that is at one stage of the accreditation. -/
def moveDelegate (id partyCode : String) (old new : Accreditation) : Convention :=
  s.updateDelegate id fun d =>
    if d.partyCode = partyCode ∧ d.accreditation = old then { d with accreditation := new } else d

def issueCredential (id partyCode : String) : Convention :=
  s.moveDelegate id partyCode .registered .credentialIssued

def accreditDelegate (id partyCode : String) : Convention :=
  s.moveDelegate id partyCode .credentialIssued .accredited

def revokeDelegate (id partyCode : String) : Convention := s.moveDelegate id partyCode .accredited .revoked

def addAspirant (id : String) (electionId : Int) (partyCode : String) : Convention :=
  if s.aspirants.any (·.id = id) then s else { s with aspirants := s.aspirants ++ [⟨id, electionId, partyCode⟩] }

def createRound (id : String) (electionId number : Int) (method : VotingMethod) : Convention :=
  let number := if number ≤ 0 then 1 else number
  if electionId = 0 ∨ (s.round? id).isSome ∨ s.rounds.any
    (fun r => r.electionId = electionId && r.number = number) then s
  else { s with rounds := s.rounds ++ [⟨id, electionId, number, .pending, method, 0, 0, 0⟩] }

/-- Half of the delegates of the party are accredited. The percentages are compared in floating point, which for
numbers of rows comes to the same. -/
def quorumMet (electionId : Int) (partyCode : String) : Bool :=
  let total := s.delegates.countP fun d => d.partyCode = partyCode && d.electionId = electionId
  let accredited := s.delegates.countP fun d =>
    d.partyCode = partyCode && d.electionId = electionId && d.accreditation = .accredited
  max total 1 ≤ 2 * accredited

def openRound (id partyCode : String) : Convention :=
  if s.partyOwnsRound id partyCode && (s.round? id).any (fun r => s.quorumMet r.electionId partyCode) &&
      s.partyHasDelegates id partyCode then
    s.setRoundStatus id (· = .pending) .opened
  else s

def closeRound (id partyCode : String) : Convention :=
  if s.partyOwnsRound id partyCode &&
    s.partyHasDelegates id partyCode then s.setRoundStatus id RoundStatus.open? .closed else s

/-- Who tallied the round last. -/
def tallyActor? (id : String) : Option String := (s.tallyLog.reverse.find? fun entry => entry.1 == id).map (·.2)

/-- `anchored` is whether the results could be anchored. -/
def certifyRound (id partyCode user : String) (anchored : Bool) : Convention :=
  if s.partyOwnsRound id partyCode && decide (s.tallyActor? id ≠ some user) && anchored &&
    s.partyHasDelegates id partyCode then
    s.setRoundStatus id (· = .tallying) .certified
  else s

/-! ### Remote voting -/

/-- One active device for a delegate. -/
def registerDevice (delegateId fingerprint : String) : Convention :=
  if fingerprint ≠ "" && (s.delegate? delegateId).any (·.accreditation = .accredited) &&
      !s.devices.any (fun d => d.delegateId = delegateId && d.isActive) then
    { s with devices := s.devices ++ [⟨delegateId, fingerprint, true⟩] }
  else s

/-- An OTP and its session last ten minutes. -/
def sessionLifetime : Nat := 10 * 60

def createSession (id partyCode delegateId roundId otpHash : String) : Convention :=
  if (s.session? id).isNone && (s.delegate? delegateId).any
    (fun d => d.partyCode = partyCode && d.accreditation = .accredited) &&
      (s.round? roundId).any (fun r => r.status.open? && r.method.remote?) then
    { s with
      sessions := s.sessions ++
        [⟨id, delegateId, roundId, otpHash, s.now + sessionLifetime, false, .pending,
          s.now + sessionLifetime, false, false⟩] }
  else s

def deviceMatches (delegateId fingerprint : String) : Bool :=
  s.devices.any fun d => d.delegateId = delegateId && d.fingerprint = fingerprint && d.isActive

/-! ### Ballots -/

/-- The insert of a ballot. The number of a ballot is unique, and its round and its delegate are there. -/
def insertBallot (b : Ballot) : Option Convention :=
  if s.ballots.any (·.id = b.id) || (s.round? b.roundId).isNone || (s.delegate? b.delegateId).isNone then none
  else some { s with ballots := s.ballots ++ [b] }

/-- The ballots a tally reads. -/
def untallied (roundId : String) : List Ballot :=
  s.ballots.filter fun b => b.roundId = roundId && !b.isDecoy && !b.tallied

def ofParty (aspirantId partyCode : String) : Bool :=
  s.aspirants.any fun a => a.id = aspirantId && a.partyCode = partyCode

/-- The aspirants of the ballots that name one, a ballot at a time. -/
def cleartextVotes (roundId partyCode : String) : List String :=
  ((s.untallied roundId).filter (·.voteType = .favour)).filterMap fun b => b.aspirantId.filter
    (s.ofParty · partyCode)

def custodiedRefs (roundId : String) : List String := (s.untallied roundId).filterMap (·.ballotRef)

def countType (roundId : String) (voteType : VoteType) : Nat := (s.untallied roundId).countP (·.voteType = voteType)

/-- The upserts of a tally, of which some may fail. -/
def recordTallies (roundId : String) (votes : List String) (ok : String → Bool) : Convention :=
  { s with
    voteTallies := fun id aspirantId =>
      if id = roundId ∧ aspirantId ∈ votes ∧ ok aspirantId then some
        (votes.count aspirantId) else s.voteTallies id aspirantId }

def markTallied (roundId : String) : Convention :=
  { s with ballots := s.ballots.map fun b => if b.roundId = roundId then { b with tallied := true } else b }

def recordTotals (roundId partyCode : String) (cast valid invalid : Nat) : Convention :=
  if s.partyHasDelegates roundId partyCode then
    s.updateRound roundId fun r =>
      { r with status := .tallying, totalVotesCast := cast, totalValidVotes := valid, totalInvalidVotes := invalid }
  else s

/-! ### Looking rows up after a statement -/

variable {s}

theorem delegate?_updateDelegate {id : String} {f : Delegate → Delegate}
    (hid : ∀ d, (f d).id = d.id) (id' : String) :
    (s.updateDelegate id f).delegate? id' = (s.delegate? id').map fun d => if d.id = id then f d else d :=
  Rows.find?_update hid s.delegates id'

theorem round?_updateRound {id : String} {f : VotingRound → VotingRound}
    (hid : ∀ r, (f r).id = r.id) (id' : String) :
    (s.updateRound id f).round? id' = (s.round? id').map fun r => if r.id = id then f r else r :=
  Rows.find?_update hid s.rounds id'

theorem session?_updateSession {id : String} {f : VotingSession → VotingSession}
    (hid : ∀ x, (f x).id = x.id) (id' : String) :
    (s.updateSession id f).session? id' = (s.session? id').map fun x => if x.id = id then f x else x :=
  Rows.find?_update hid s.sessions id'

theorem delegate?_id {id : String} {d : Delegate} (h : s.delegate? id = some d) : d.id = id := (Rows.find?_key h).2

theorem round?_id {id : String} {r : VotingRound} (h : s.round? id = some r) : r.id = id := (Rows.find?_key h).2

theorem session?_id {id : String} {x : VotingSession} (h : s.session? id = some x) : x.id = id :=
  (Rows.find?_key h).2

theorem moveDelegate_delegate? {id partyCode : String} {old new : Accreditation} {id' : String} {d : Delegate}
    (h : s.delegate? id' = some d) :
    (s.moveDelegate id partyCode old new).delegate? id' =
      some { d with
        accreditation := if id' = id ∧ d.partyCode = partyCode ∧ d.accreditation =
          old then new else d.accreditation } := by
  obtain rfl := delegate?_id h
  rw [moveDelegate, delegate?_updateDelegate (by intro d; split <;> rfl), h, Option.map_some]
  congr 1
  by_cases hid : d.id = id
  · rw [if_pos hid]
    by_cases hold : d.partyCode = partyCode ∧ d.accreditation = old
    · rw [if_pos hold, if_pos ⟨hid, hold⟩]
    · rw [if_neg hold, if_neg fun hall => hold hall.2]
  · rw [if_neg hid, if_neg fun hall => hid hall.1]

/-- A round that is created is pending and new. -/
theorem createRound_eq (id : String) (electionId number : Int) (method : VotingMethod) :
    s.createRound id electionId number method = s ∨
      ∃ number', s.round? id = none ∧
        s.createRound id electionId number method =
          { s with rounds := s.rounds ++ [⟨id, electionId, number', .pending, method, 0, 0, 0⟩] } := by
  dsimp only [createRound]
  generalize (if number ≤ 0 then 1 else number) = number'
  split
  case isTrue => exact .inl rfl
  case isFalse hnew =>
    rw [not_or, not_or, Option.not_isSome_iff_eq_none] at hnew
    exact .inr ⟨number', hnew.2.1, rfl⟩

/-- A ballot that is inserted. -/
theorem insertBallot_eq_some {b : Ballot} {after : Convention} (h : s.insertBallot b = some after) :
    after = { s with ballots := s.ballots ++ [b] } ∧ (s.round? b.roundId).isSome = true ∧
      (s.delegate? b.delegateId).isSome = true := by
  rw [insertBallot] at h
  split at h
  case isTrue => cases h
  case isFalse hthere =>
    simp only [Bool.or_eq_true, not_or, Option.isNone_iff_eq_none, ← ne_eq, Option.ne_none_iff_isSome] at hthere
    exact ⟨(Option.some.inj h).symm, hthere.1.2, hthere.2⟩

end Convention

end Inec
