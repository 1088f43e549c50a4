import Inec.Primaries.Requests

/-!
# What a step of a request can do

One relation for the votes, one for the sessions and one for the tallies: how the phase of the request and the
tables move. One more is for the handlers of one step. Every invariant of the machine is proved along them.
-/

namespace Inec

/-- A request that casts a ballot moves from one phase to another and changes the tables. -/
inductive VoteMove (custody : String → Option String) (db : Convention) :
    VoteAct → VotePhase → VotePhase → Convention → Prop
  | refuse (act : VoteAct) (p : VotePhase) (hp : ∀ v n, p ≠ .stored v n) : VoteMove custody db act p .refused db
  | openCast (form : CastForm) (v : Vote) (hform : form.vote? = some v) (hopen : db.roundOpen v.roundId = true) :
      VoteMove custody db (.cast form) .idle (.opened v) db
  | openRemote (form : RemoteForm) (session : VotingSession) (hsession : db.session? form.sessionId = some session)
      (hstatus : session.status = .authenticated) :
        VoteMove custody db (.remote form) .idle (.opened (form.vote session)) db
  | check (v : Vote) (hmay : db.mayVote v = true) :
      VoteMove custody db .check (.opened v) (.checked v (db.roundNumber v.roundId)) db
  | encrypt (answer : Option EncryptAnswer) (v : Vote) (n : Int) (ballotRef : String) (hperson : v.isRemote = false)
      (hkeeps : Primaries.keeps custody ballotRef v.choice = true) :
      VoteMove custody db (.encrypt answer) (.checked v n) (.sealed v n ballotRef v.choice) db
  | verifyProof (answer : Option ProofAnswer) (v : Vote) (n : Int) (ballotRef : String) (choice : Option String)
      (hremote : v.isRemote = true) (hkeeps : Primaries.keeps custody ballotRef choice = true) :
      VoteMove custody db (.verifyProof answer choice) (.checked v n) (.sealed v n ballotRef choice) db
  | insert (v : Vote) (n : Int) (id ballotRef : String) (choice : Option String) (ok : Bool) (after : Convention)
      (hcast : db.castBallot v id ballotRef choice = some after) :
      VoteMove custody db (.insert id ok) (.sealed v n ballotRef choice) (.stored v n) after
  | mark (v : Vote) (n : Int) (ok : Bool) :
      VoteMove custody db (.mark ok) (.stored v n) (.marked v) (if ok then db.markVoted v.delegateId n else db)
  | finish (v : Vote) (ok : Bool) : VoteMove custody db (.finish ok)
      (.marked v) .done (if ok then db.finishVote v else db)

/-- A request that authenticates a session. -/
inductive AuthenticateMove (db : Convention) :
    AuthenticateAct → AuthenticatePhase → AuthenticatePhase → Convention → Prop
  | refuse (act : AuthenticateAct) (p : AuthenticatePhase) : AuthenticateMove db act p .refused db
  | expire (sessionId otpHash fingerprint : String) :
      AuthenticateMove db (.authenticate sessionId otpHash fingerprint) .idle .refused
        (db.updateSession sessionId fun x => { x with status := .expired })
  | admits (sessionId otpHash fingerprint : String) (session : VotingSession)
      (hsession : db.session? sessionId = some session) (hstatus : session.status = .pending)
        (hintime : db.now ≤ session.otpExpiresAt) (hotp : otpHash = session.otpHash)
      (hdevice : fingerprint ≠ "" → db.deviceMatches session.delegateId fingerprint = true) :
      AuthenticateMove db (.authenticate sessionId otpHash fingerprint) .idle
        (.admitted sessionId (decide (fingerprint ≠ ""))) db
  | pass (sessionId : String) (devicePassed ok : Bool) :
      AuthenticateMove db (.biometric true ok) (.admitted sessionId devicePassed) .done
        (if ok then
          db.updateSession sessionId fun x =>
            { x with
              status := .authenticated
              biometricVerified := true
              otpPassed := true
              devicePassed := x.devicePassed || devicePassed }
        else db)

/-- A request that tallies a round. -/
inductive TallyMove (custody : String → Option String) (db : Convention) :
    TallyAct → TallyPhase → TallyPhase → Convention → Prop
  | refuse (act : TallyAct) (p : TallyPhase) : TallyMove custody db act p .refused db
  | count (form : TallyForm) (hparty : db.partyOwnsRound form.roundId form.partyCode = true) :
      TallyMove custody db (.count form) .idle (.counted form (db.cleartextVotes form.roundId form.partyCode)) db
  | selectRefs (form : TallyForm) (votes : List String) :
      TallyMove custody db .selectRefs (.counted form votes)
        (.selected form votes (db.custodiedRefs form.roundId)) db
  | aggregate (form : TallyForm) (votes refs : List String) (ok : Bool) :
      TallyMove custody db (.aggregate ok) (.selected form votes refs)
        (.aggregated form (votes ++ (refs.filterMap custody).filter (db.ofParty · form.partyCode))) db
  | abstentions (form : TallyForm) (votes : List String) :
      TallyMove custody db .abstentions (.aggregated form votes)
        (.abstained form votes (db.countType form.roundId .abstain)) db
  | spoiled (form : TallyForm) (votes : List String) (abstentions : Nat) :
      TallyMove custody db .spoiled (.abstained form votes abstentions)
        (.surveyed form votes abstentions (db.countType form.roundId .spoiled)) db
  | record (form : TallyForm) (votes : List String) (abstentions spoiled : Nat) (ok : String → Bool) :
      TallyMove custody db (.record ok) (.surveyed form votes abstentions spoiled)
        (.recorded form votes abstentions spoiled) (db.recordTallies form.roundId votes ok)
  | markTallied (form : TallyForm) (votes : List String) (abstentions spoiled : Nat) (ok : Bool) :
      TallyMove custody db (.markTallied ok) (.recorded form votes abstentions spoiled)
        (.settled form votes abstentions spoiled) (if ok then db.markTallied form.roundId else db)
  | total (form : TallyForm) (votes : List String) (abstentions spoiled : Nat) (ok : Bool) :
      TallyMove custody db (.total ok) (.settled form votes abstentions spoiled) (.totalled form)
        (if ok then db.recordTotals form.roundId form.partyCode
          (votes.length + abstentions + spoiled) votes.length spoiled else db)
  | log (form : TallyForm) :
      TallyMove custody db .log (.totalled form) .done
        { db with tallyLog := db.tallyLog ++ [(form.roundId, form.user)] }

namespace Primaries

variable (custody : String → Option String) (s : Primaries) (request : Nat)

theorem vote_cases (act : VoteAct) :
    s.vote custody request act = s ∨
      ∃ p db, VoteMove custody s.db act (s.votes request) p db ∧
        s.vote custody request act = { s with db := db }.setVote request p := by
  have hrefuse : (∀ v n, s.votes request ≠ .stored v n) → ∃ p db, VoteMove custody s.db act (s.votes request) p db ∧
      s.setVote request .refused = { s with db := db }.setVote request p :=
    fun hp => ⟨.refused, s.db, .refuse act _ hp, rfl⟩
  unfold Primaries.vote
  split
  case h_1 form hidle =>
    have hp : ∀ v n, s.votes request ≠ .stored v n := by simp [hidle]
    split
    case h_1 v hform =>
      split
      case isTrue hopen => exact .inr ⟨_, _, hidle ▸ .openCast form v hform hopen, rfl⟩
      case isFalse => exact .inr (hrefuse hp)
    case h_2 => exact .inr (hrefuse hp)
  case h_2 form hidle =>
    have hp : ∀ v n, s.votes request ≠ .stored v n := by simp [hidle]
    split
    case h_1 session hsession =>
      split
      case isTrue hstatus => exact .inr ⟨_, _, hidle ▸ .openRemote form session hsession hstatus, rfl⟩
      case isFalse => exact .inr (hrefuse hp)
    case h_2 => exact .inr (hrefuse hp)
  case h_3 v hopened =>
    split
    case isTrue hmay => exact .inr ⟨_, _, hopened ▸ .check v hmay, rfl⟩
    case isFalse => exact .inr (hrefuse (by simp [hopened]))
  case h_4 answer v n hchecked =>
    split
    case isTrue => exact .inl rfl
    case isFalse hperson =>
      split
      case h_1 ballotRef _ =>
        split
        case isTrue hkeeps =>
          exact .inr ⟨_, _, hchecked ▸ .encrypt answer v n ballotRef (Bool.not_eq_true _ ▸ hperson) hkeeps, rfl⟩
        case isFalse => exact .inl rfl
      case h_2 => exact .inr (hrefuse (by simp [hchecked]))
  case h_5 answer choice v n hchecked =>
    split
    case h_1 => exact .inl rfl
    case h_2 sessionId encryptedBallot horigin =>
      have hremote : v.isRemote = true := by rw [Vote.isRemote, horigin]
      split
      case isTrue => exact .inr (hrefuse (by simp [hchecked]))
      case isFalse =>
        split
        case h_1 ballotRef _ =>
          split
          case isTrue hkeeps =>
            exact .inr ⟨_, _, hchecked ▸ .verifyProof answer v n ballotRef choice hremote hkeeps, rfl⟩
          case isFalse => exact .inl rfl
        case h_2 => exact .inr (hrefuse (by simp [hchecked]))
  case h_6 ballotId ok v n ballotRef choice hsealed =>
    split
    case h_1 db hdb =>
      have hcast := (Option.filter_eq_some_iff.mp hdb).1
      exact .inr ⟨_, _, hsealed ▸ .insert v n ballotId ballotRef choice ok db hcast, rfl⟩
    case h_2 => exact .inr (hrefuse (by simp [hsealed]))
  case h_7 ok v n hstored => exact .inr ⟨_, _, hstored ▸ .mark v n ok, rfl⟩
  case h_8 ok v hmarked => exact .inr ⟨_, _, hmarked ▸ .finish v ok, rfl⟩
  case h_9 => exact .inl rfl

theorem auth_cases (act : AuthenticateAct) :
    s.auth request act = s ∨
      ∃ p db, AuthenticateMove s.db act (s.auths request) p db ∧ s.auth request act =
        { s with db := db }.setAuth request p := by
  have hrefuse : ∃ p db, AuthenticateMove s.db act (s.auths request) p db ∧
      s.setAuth request .refused = { s with db := db }.setAuth request p := ⟨.refused, s.db, .refuse act _, rfl⟩
  unfold Primaries.auth
  split
  case h_1 sessionId otpHash fingerprint hidle =>
    split
    case h_1 => exact .inr hrefuse
    case h_2 session hsession =>
      split
      case isTrue => exact .inr hrefuse
      case isFalse hstatus =>
        split
        case isTrue => exact .inr ⟨_, _, hidle ▸ .expire sessionId otpHash fingerprint, rfl⟩
        case isFalse hintime =>
          split
          case isTrue => exact .inr hrefuse
          case isFalse hotp =>
            split
            case isTrue => exact .inr hrefuse
            case isFalse hdevice =>
              rw [ne_eq, not_not] at hstatus hotp
              rw [not_and, Bool.not_eq_false] at hdevice
              exact .inr ⟨_, _, hidle ▸ .admits sessionId otpHash fingerprint session hsession hstatus
                (Nat.le_of_not_lt hintime) hotp
                hdevice, rfl⟩
  case h_2 verified ok sessionId devicePassed hadmitted =>
    split
    case isTrue hverified =>
      subst hverified
      exact .inr ⟨_, _, hadmitted ▸ .pass sessionId devicePassed ok, rfl⟩
    case isFalse => exact .inr hrefuse
  case h_3 => exact .inl rfl

theorem tally_cases (act : TallyAct) :
    s.tally custody request act = s ∨
      ∃ p db, TallyMove custody s.db act (s.tallies request) p db ∧
        s.tally custody request act = { s with db := db }.setTally request p := by
  have hrefuse : ∃ p db, TallyMove custody s.db act (s.tallies request) p db ∧
      s.setTally request .refused = { s with db := db }.setTally request p := ⟨.refused, s.db, .refuse act _, rfl⟩
  unfold Primaries.tally
  split
  case h_1 form hidle =>
    split
    case isTrue hparty => exact .inr ⟨_, _, hidle ▸ .count form hparty, rfl⟩
    case isFalse => exact .inr hrefuse
  case h_2 form votes hcounted => exact .inr ⟨_, _, hcounted ▸ .selectRefs form votes, rfl⟩
  case h_3 ok form votes refs hselected =>
    split
    case isTrue hnone =>
      have haggregate : votes = votes ++ (refs.filterMap custody).filter (s.db.ofParty · form.partyCode) := by
        rw [hnone]
        exact (List.append_nil votes).symm
      have hmove := @TallyMove.aggregate custody s.db form votes refs ok
      rw [← haggregate, ← hselected] at hmove
      exact .inr ⟨_, _, hmove, rfl⟩
    case isFalse =>
      split
      case isTrue => exact .inr ⟨_, _, hselected ▸ .aggregate form votes refs ok, rfl⟩
      case isFalse => exact .inr hrefuse
  case h_4 form votes haggregated => exact .inr ⟨_, _, haggregated ▸ .abstentions form votes, rfl⟩
  case h_5 form votes abstentions habstained => exact .inr ⟨_, _, habstained ▸ .spoiled form votes abstentions, rfl⟩
  case h_6 ok form votes abstentions spoiled hsurveyed =>
    exact .inr ⟨_, _, hsurveyed ▸ .record form votes abstentions spoiled ok, rfl⟩
  case h_7 ok form votes abstentions spoiled hrecorded =>
    exact .inr ⟨_, _, hrecorded ▸ .markTallied form votes abstentions spoiled ok, rfl⟩
  case h_8 ok form votes abstentions spoiled hsettled =>
    exact .inr ⟨_, _, hsettled ▸ .total form votes abstentions spoiled ok, rfl⟩
  case h_9 form htotalled => exact .inr ⟨_, _, htotalled ▸ .log form, rfl⟩
  case h_10 => exact .inl rfl

end Primaries

/-- The tally of a request that has yet to write the totals. -/
def TallyPhase.running? : TallyPhase → Option TallyForm
  | counted form _ => some form
  | selected form _ _ => some form
  | aggregated form _ => some form
  | abstained form _ _ => some form
  | surveyed form _ _ _ => some form
  | recorded form _ _ _ => some form
  | settled form _ _ _ => some form
  | _ => none

/-! ### Other requests -/

/-- The request that casts a ballot with this act. -/
def PrimariesAct.voteRequest? : PrimariesAct → Option Nat
  | .vote request _ => some request
  | _ => none

/-- The tally this act is of. -/
def PrimariesAct.tallyRequest? : PrimariesAct → Option Nat
  | .tally request _ => some request
  | _ => none

namespace Primaries

variable {custody : String → Option String} {s : Primaries} {other : Nat}

@[simp] theorem setVote_votes_self (s : Primaries) (request : Nat) (p : VotePhase) :
    (s.setVote request p).votes request = p :=
  Function.update_self ..

theorem setVote_votes_of_ne (s : Primaries) {request : Nat} (p : VotePhase) (h : other ≠ request) :
    (s.setVote request p).votes other = s.votes other := Function.update_of_ne h ..

@[simp] theorem setAuth_auths_self (s : Primaries) (request : Nat) (p : AuthenticatePhase) :
    (s.setAuth request p).auths request = p :=
  Function.update_self ..

theorem setAuth_auths_of_ne (s : Primaries) {request : Nat} (p : AuthenticatePhase) (h : other ≠ request) :
    (s.setAuth request p).auths other = s.auths other := Function.update_of_ne h ..

@[simp] theorem setTally_tallies_self (s : Primaries) (request : Nat) (p : TallyPhase) :
    (s.setTally request p).tallies request = p := Function.update_self ..

theorem setTally_tallies_of_ne (s : Primaries) {request : Nat} (p : TallyPhase) (h : other ≠ request) :
    (s.setTally request p).tallies other = s.tallies other := Function.update_of_ne h ..

@[simp] theorem setTally_db (s : Primaries) (request : Nat) (p : TallyPhase) :
    (s.setTally request p).db = s.db := rfl

/-- A request that casts a ballot is where its own acts have brought it. -/
theorem step_votes_of_ne {act : PrimariesAct} (h : act.voteRequest? ≠ some other) :
    (s.step custody act).votes other = s.votes other := by
  cases act with
  | office act => rfl
  | vote request act =>
      have hne : other ≠ request := fun heq => h (congrArg some heq.symm)
      rcases s.vote_cases custody request act with heq | ⟨p, db, -, heq⟩
      · rw [step, heq]
      · rw [step, heq, setVote_votes_of_ne _ _ hne]
  | auth request act =>
      rcases s.auth_cases request act with heq | ⟨p, db, -, heq⟩
      · rw [step, heq]
      · rw [step, heq]
        rfl
  | tally request act =>
      rcases s.tally_cases custody request act with heq | ⟨p, db, -, heq⟩
      · rw [step, heq]
      · rw [step, heq]
        rfl

theorem final_votes_of_ne {acts : List PrimariesAct} (h : ∀ act ∈ acts, act.voteRequest? ≠ some other) :
    (Runs.final (step custody) s acts).votes other = s.votes other := by
  induction acts generalizing s with
  | nil => rfl
  | cons act rest ih =>
      rw [List.forall_mem_cons] at h
      rw [Runs.final_cons, ih h.2, step_votes_of_ne h.1]

/-- And so is a tally. -/
theorem step_tallies_of_ne {act : PrimariesAct} (h : act.tallyRequest? ≠ some other) :
    (s.step custody act).tallies other = s.tallies other := by
  cases act with
  | office act => rfl
  | vote request act =>
      rcases s.vote_cases custody request act with heq | ⟨p, db, -, heq⟩
      · rw [step, heq]
      · rw [step, heq]
        rfl
  | auth request act =>
      rcases s.auth_cases request act with heq | ⟨p, db, -, heq⟩
      · rw [step, heq]
      · rw [step, heq]
        rfl
  | tally request act =>
      have hne : other ≠ request := fun heq => h (congrArg some heq.symm)
      rcases s.tally_cases custody request act with heq | ⟨p, db, -, heq⟩
      · rw [step, heq]
      · rw [step, heq, setTally_tallies_of_ne _ _ hne]

theorem final_tallies_of_ne {acts : List PrimariesAct} (h : ∀ act ∈ acts, act.tallyRequest? ≠ some other) :
    (Runs.final (step custody) s acts).tallies other = s.tallies other := by
  induction acts generalizing s with
  | nil => rfl
  | cons act rest ih =>
      rw [List.forall_mem_cons] at h
      rw [Runs.final_cons, ih h.2, step_tallies_of_ne h.1]

end Primaries

/-! ### The handlers of one step -/

/-- Which handler moves a round, from which statuses and to which. -/
inductive RoundMove (id partyCode : String) : OfficeAct → (RoundStatus → Bool) → RoundStatus → Prop
  | opens : RoundMove id partyCode (.openRound id partyCode) (· = .pending) .opened
  | closes : RoundMove id partyCode (.closeRound id partyCode) RoundStatus.open? .closed
  | certifies (user : String) (anchored : Bool) :
      RoundMove id partyCode (.certifyRound id partyCode user anchored) (· = .tallying) .certified

/-- A handler of one step does nothing, or it writes to one table. -/
inductive OfficeMove (db : Convention) : OfficeAct → Convention → Prop
  | nothing (act : OfficeAct) : OfficeMove db act db
  | tick (elapsed : Nat) : OfficeMove db (.tick elapsed) { db with now := db.now + elapsed }
  | addDelegate (id : String) (electionId : Int) (partyCode : String) :
      OfficeMove db (.addDelegate id electionId partyCode)
        { db with delegates := db.delegates ++ [⟨id, electionId, partyCode, .registered, false, none⟩] }
  | moveDelegate (act : OfficeAct) (id partyCode : String) (old new : Accreditation)
      (hrevokes : old = .accredited → act = .revokeDelegate id partyCode) :
        OfficeMove db act (db.moveDelegate id partyCode old new)
  | addAspirant (id : String) (electionId : Int) (partyCode : String) :
      OfficeMove db (.addAspirant id electionId partyCode)
        { db with aspirants := db.aspirants ++ [⟨id, electionId, partyCode⟩] }
  | createRound (id : String) (electionId number number' : Int) (method : VotingMethod)
      (hnew : db.round? id = none) :
      OfficeMove db (.createRound id electionId number method)
        { db with rounds := db.rounds ++ [⟨id, electionId, number', .pending, method, 0, 0, 0⟩] }
  | moveRound (act : OfficeAct) (id partyCode : String) (old : RoundStatus → Bool) (new : RoundStatus)
      (hmove : RoundMove id partyCode act old new) (howns : db.partyOwnsRound id partyCode = true) :
      OfficeMove db act (db.setRoundStatus id old new)
  | registerDevice (delegateId fingerprint : String) (d : RemoteDevice) :
      OfficeMove db (.registerDevice delegateId fingerprint) { db with devices := db.devices ++ [d] }
  | createSession (id partyCode delegateId roundId otpHash : String) (session : VotingSession)
      (hstatus : session.status = .pending) (hdelegate : (db.delegate? session.delegateId).isSome = true)
        (hround : (db.round? session.roundId).isSome = true) :
      OfficeMove db (.createSession id partyCode delegateId roundId otpHash)
        { db with sessions := db.sessions ++ [session] }
  | coercionVote (sessionId ballotId voteType : String) (answer : Option EncryptAnswer) (duress : Bool)
      (session : VotingSession) (b : Ballot) (hsession : db.session? sessionId = some session)
        (hdecoy : b.isDecoy = true) (hround : b.roundId = session.roundId) :
      OfficeMove db (.coercionVote sessionId ballotId voteType answer duress)
        { db with ballots := db.ballots ++ [b] }

namespace Convention

variable (db : Convention)

theorem insertBallot_getD (b : Ballot) :
    (db.insertBallot b).getD db = db ∨ (db.insertBallot b).getD db = { db with ballots := db.ballots ++ [b] } := by
  cases hinsert : db.insertBallot b with
  | none => exact .inl rfl
  | some after => exact .inr (insertBallot_eq_some hinsert).1

/-- A panic code adds a decoy to the round of its session. -/
theorem coercionVote_move (sessionId ballotId voteType : String) (answer : Option EncryptAnswer) (duress : Bool) :
    OfficeMove db (.coercionVote sessionId ballotId voteType answer duress)
      (db.coercionVote sessionId ballotId voteType answer duress) := by
  unfold coercionVote
  split
  case h_1 session ballotRef voteType hsession _ _ =>
    split
    case isTrue =>
      obtain heq | heq := db.insertBallot_getD
        { db.ballotOf ⟨session.roundId, session.delegateId, "", .remote sessionId ""⟩ ballotId
        voteType ballotRef none with isDecoy := true }
      · rw [heq]
        exact .nothing _
      · rw [heq]
        exact .coercionVote _ _ _ _ _ session _ hsession rfl rfl
    case isFalse => exact .nothing _
  case h_2 => exact .nothing _

theorem office_move (act : OfficeAct) : OfficeMove db act (db.office act) := by
  cases act with
  | tick elapsed => exact .tick elapsed
  | addDelegate id electionId partyCode =>
      rw [office, addDelegate]
      split
      · exact .nothing _
      · exact .addDelegate id electionId partyCode
  | issueCredential id partyCode => exact .moveDelegate _ id partyCode _ _ (nomatch ·)
  | accreditDelegate id partyCode => exact .moveDelegate _ id partyCode _ _ (nomatch ·)
  | revokeDelegate id partyCode => exact .moveDelegate _ id partyCode _ _ fun _ => rfl
  | addAspirant id electionId partyCode =>
      rw [office, addAspirant]
      split
      · exact .nothing _
      · exact .addAspirant id electionId partyCode
  | createRound id electionId number method =>
      obtain heq | ⟨number', hnew, heq⟩ := createRound_eq (s := db) id electionId number method
      · rw [office, heq]
        exact .nothing _
      · rw [office, heq]
        exact .createRound id electionId number number' method hnew
  | openRound id partyCode =>
      rw [office, openRound]
      split
      case isTrue hguard =>
        simp only [Bool.and_eq_true] at hguard
        exact .moveRound _ id partyCode _ _ .opens hguard.1.1
      case isFalse => exact .nothing _
  | closeRound id partyCode =>
      rw [office, closeRound]
      split
      case isTrue hguard =>
        simp only [Bool.and_eq_true] at hguard
        exact .moveRound _ id partyCode _ _ .closes hguard.1
      case isFalse => exact .nothing _
  | certifyRound id partyCode user anchored =>
      rw [office, certifyRound]
      split
      case isTrue hguard =>
        simp only [Bool.and_eq_true] at hguard
        exact .moveRound _ id partyCode _ _ (.certifies user anchored) hguard.1.1.1
      case isFalse => exact .nothing _
  | registerDevice delegateId fingerprint =>
      rw [office, registerDevice]
      split
      · exact .registerDevice delegateId fingerprint _
      · exact .nothing _
  | createSession id partyCode delegateId roundId otpHash =>
      rw [office, createSession]
      split
      case isTrue hguard =>
        simp only [Bool.and_eq_true, Option.any_eq_true] at hguard
        obtain ⟨⟨-, d, hd, -⟩, r, hr, -⟩ := hguard
        exact .createSession _ _ _ _ _ _ rfl (Option.isSome_of_eq_some hd) (Option.isSome_of_eq_some hr)
      case isFalse => exact .nothing _
  | coercionVote sessionId ballotId voteType answer duress =>
      exact db.coercionVote_move sessionId ballotId voteType answer duress

theorem office_ballots (act : OfficeAct) :
    (db.office act).ballots = db.ballots ∨
      ∃ sessionId ballotId voteType answer duress session b, act =
        .coercionVote sessionId ballotId voteType answer duress ∧ db.session? sessionId = some session ∧
          b.isDecoy = true ∧ b.roundId = session.roundId ∧
        (db.office act).ballots = db.ballots ++ [b] := by
  have hmove := db.office_move act
  generalize db.office act = after at hmove
  cases hmove with
  | coercionVote sessionId ballotId voteType answer duress session b hsession hdecoy hround =>
      exact .inr ⟨sessionId, ballotId, voteType, answer, duress, session, b, rfl, hsession, hdecoy, hround, rfl⟩
  | _ => exact .inl rfl

theorem office_voteTallies (act : OfficeAct) : (db.office act).voteTallies = db.voteTallies := by
  have hmove := db.office_move act
  generalize db.office act = after at hmove
  cases hmove <;> rfl

/-- A delegate stays, and only a revocation by its party takes an accreditation away. -/
theorem office_delegate? {id : String} {d : Delegate} (h : db.delegate? id = some d) (act : OfficeAct) :
    ∃ a, (db.office act).delegate? id = some { d with accreditation := a } ∧
      (d.accreditation = .accredited → a = .accredited ∨ act = .revokeDelegate id d.partyCode) := by
  have hmove := db.office_move act
  generalize db.office act = after at hmove
  cases hmove with
  | addDelegate id' electionId partyCode =>
      refine ⟨d.accreditation, ?_, .inl⟩
      rw [delegate?, List.find?_append, show db.delegates.find? _ = some d from h]
      rfl
  | moveDelegate _ id' partyCode old new hrevokes =>
      refine ⟨_, moveDelegate_delegate? h, ?_⟩
      intro haccredited
      by_cases hrow : id = id' ∧ d.partyCode = partyCode ∧ d.accreditation = old
      · obtain ⟨rfl, rfl, rfl⟩ := hrow
        exact .inr (hrevokes haccredited)
      · exact .inl (by rw [if_neg hrow, haccredited])
  | _ => exact ⟨d.accreditation, h, .inl⟩

theorem finishVote_delegates (db : Convention) (v : Vote) : (db.finishVote v).delegates = db.delegates := by
  rw [finishVote]
  split <;> rfl

theorem finishVote_ballots (db : Convention) (v : Vote) : (db.finishVote v).ballots = db.ballots := by
  rw [finishVote]
  split <;> rfl

theorem recordTotals_ballots (roundId partyCode : String) (cast valid invalid : Nat) :
    (db.recordTotals roundId partyCode cast valid invalid).ballots = db.ballots := by
  rw [recordTotals]
  split <;> rfl

/-- The mark of a tally is none of what a ballot is filtered by and read for. -/
theorem filter_map_markTallied {Col : Type} (db : Convention) (roundId : String) {p : Ballot → Bool}
    {col : Ballot → Col} (hp : ∀ b, p { b with tallied := true } = p b)
    (hcol : ∀ b, col { b with tallied := true } = col b) :
    ((db.markTallied roundId).ballots.filter p).map col = (db.ballots.filter p).map col := by
  show ((Rows.update Ballot.roundId roundId (fun b => { b with tallied := true }) db.ballots).filter p).map col = _
  apply Rows.filter_map_update
  · intro b _ _
    exact hp b
  · intro b _ _ _
    exact hcol b

/-- The row of a vote that is cast. -/
theorem castBallot_eq_some {v : Vote} {id ballotRef : String} {choice : Option String} {after : Convention}
    (h : db.castBallot v id ballotRef choice = some after) :
    ∃ voteType, VoteType.ofText? v.voteType = some voteType ∧
      after = { db with ballots := db.ballots ++ [db.ballotOf v id voteType ballotRef choice] } ∧
      (db.round? v.roundId).isSome = true ∧ (db.delegate? v.delegateId).isSome = true := by
  obtain ⟨voteType, htype, hinsert⟩ := Option.bind_eq_some_iff.mp h
  exact ⟨voteType, htype, insertBallot_eq_some hinsert⟩

end Convention

section Frames

variable {custody : String → Option String} {db after : Convention}

/-- Authentication only writes to the sessions. -/
theorem AuthenticateMove.frame {act : AuthenticateAct} {p q : AuthenticatePhase}
    (h : AuthenticateMove db act p q after) :
    after = { db with sessions := after.sessions } := by
  cases h with
  | refuse => rfl
  | expire => rfl
  | admits => rfl
  | pass sessionId devicePassed ok => cases ok <;> rfl

/-- A tally writes to the ballots, the rounds, the tallies and the log. -/
theorem TallyMove.frame {act : TallyAct} {p q : TallyPhase} (h : TallyMove custody db act p q after) :
    after =
      { db with
        ballots := after.ballots
        rounds := after.rounds
        voteTallies := after.voteTallies
        tallyLog := after.tallyLog } := by
  cases h with
  | markTallied form votes abstentions spoiled ok => cases ok <;> rfl
  | total form votes abstentions spoiled ok =>
      cases ok with
      | false => rfl
      | true =>
          rw [if_pos rfl, Convention.recordTotals]
          split <;> rfl
  | _ => rfl

/-- Of the ballots it writes the mark of having been tallied. -/
theorem TallyMove.ballots {act : TallyAct} {p q : TallyPhase} (h : TallyMove custody db act p q after) :
    after.ballots = db.ballots ∨ ∃ roundId, after.ballots = (db.markTallied roundId).ballots := by
  cases h with
  | markTallied form votes abstentions spoiled ok =>
      cases ok with
      | false => exact .inl rfl
      | true => exact .inr ⟨form.roundId, rfl⟩
  | total form votes abstentions spoiled ok =>
      cases ok with
      | false => exact .inl rfl
      | true =>
          rw [if_pos rfl, Convention.recordTotals]
          split <;> exact .inl rfl
  | _ => exact .inl rfl

end Frames

end Inec
