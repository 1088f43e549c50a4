import Inec.Primaries.Moves

/-!
# Votes under coercion

handleRemoteVote and handleCoercionVote from the first check to the answer, and the public lookup of a ballot. A
delegate who is made to vote sends a panic code and gets a decoy; who looks on should not be able to tell
(`Indistinguishable`).

The two are told apart as soon as one of them is carried out: the answers have other fields, and only a vote
uses up its session. They look the same where the request is turned away for its session, or for want of a
backend (`indistinguishable_iff_turnedAway`).
-/

namespace Inec

/-! ### Answers -/

/-- What a field holds. `fresh` is made at random for the request. -/
inductive AnswerField
  | text (s : String)
  | flag (b : Bool)
  | time (t : Nat)
  | fresh (s : String)
  deriving DecidableEq, Repr

/-- The fields are in the order in which they are encoded, by their keys. -/
structure PrimaryAnswer where
  status : Nat
  fields : List (String × AnswerField)
  deriving DecidableEq, Repr

def AnswerField.shape : AnswerField → AnswerField
  | fresh _ => fresh ""
  | field => field

/-- An answer but for what is random in it. -/
def PrimaryAnswer.shape (a : PrimaryAnswer) : PrimaryAnswer := ⟨a.status, a.fields.map fun f => (f.1, f.2.shape)⟩

def jsonErr (msg : String) (code : Nat) : PrimaryAnswer := ⟨code, [("error", .text msg)]⟩

def cryptoUnavailable (op : String) : PrimaryAnswer :=
  ⟨503,
    [("detail", .text "this deployment has no real ElectionGuard/Paillier backend; refusing to fabricate cryptographic artifacts"),
      ("error", .text (op ++ " not configured"))]⟩

/-! ### Tables and requests -/

/-- The columns of a ballot that are only looked up. -/
structure BallotReceipt where
  ballotId : String
  confirmationCode : String
  verificationHash : String
  castAt : Nat
  deriving DecidableEq, Repr

/-- `duressCodeHash` is the column of the delegates. -/
structure RemoteVoting where
  db : Convention
  duressCodeHash : String → Option String
  receipts : List BallotReceipt

/-- What the two requests have in common. -/
structure VoteChoice where
  sessionId : String
  aspirantId : String
  voteType : String
  deriving DecidableEq, Repr

/-- Whether there is a backend, and whether the columns for it are there. -/
structure CryptoBackend where
  configured : Bool
  columns : Bool
  deriving DecidableEq, Repr

/-- A failure is a rejection if its text says so. -/
inductive ProofFailure
  | rejected
  | unavailable
  deriving DecidableEq, Repr

/-- The rest of a request to handleRemoteVote, with what it meets on its way: the backend's answer with the
choice it keeps, what is made for the ballot, the INSERT and the text it may fail with, the two UPDATEs after
it, the transfer. -/
structure RemoteVoteRun where
  encryptedBallot : String
  proof : Except ProofFailure String
  custodied : Option String
  ballotId : String
  confirmationCode : String
  clock : String
  insertOk : Bool
  dbError : String
  markOk : Bool
  sessionOk : Bool
  transfer : Option String

/-- The same of a request to handleCoercionVote. -/
structure CoercionVoteRun where
  panicCode : String
  encrypted : Option EncryptAnswer
  ballotId : String
  confirmationCode : String
  insertOk : Bool
  dbError : String

namespace RemoteVoting

variable (sha256Hex : String → String) (s : RemoteVoting) (backend : CryptoBackend) (choice : VoteChoice)

/-- The INSERT of a ballot, which the database refuses for one of no known type. -/
def cast (ballot? : Option Ballot) (receipt : BallotReceipt) (ok : Bool) : Option RemoteVoting :=
  ballot?.bind fun b =>
    ((s.db.insertBallot b).filter fun _ => ok).map fun db =>
      { s with db := db, receipts := s.receipts ++ [receipt] }

/-! ### handleRemoteVote -/

/-- From the verified proof on. -/
def storeRemoteVote (session : VotingSession) (v : Vote) (ballotRef : String) (run : RemoteVoteRun) :
    RemoteVoting × PrimaryAnswer :=
  let verificationHash := sha256Hex (session.roundId ++ session.delegateId ++ run.confirmationCode ++ run.clock)
  let ballot? := (VoteType.ofText? v.voteType).map fun voteType =>
    s.db.ballotOf v run.ballotId voteType ballotRef run.custodied
  match s.cast ballot? ⟨run.ballotId, run.confirmationCode, verificationHash, s.db.now⟩ run.insertOk with
  | none => (s, jsonErr ("remote vote failed: " ++ run.dbError) 500)
  | some stored =>
      let marked := if run.markOk then stored.db.markVoted session.delegateId
        (s.db.roundNumber session.roundId) else stored.db
      let finished := if run.sessionOk then marked.finishVote v else marked
      ({ stored with db := finished },
        ⟨200,
          [("ballot_id", .fresh run.ballotId), ("confirmation_code", .fresh run.confirmationCode),
            ("is_remote", .flag true), ("status", .text "cast"),
              ("tb_transfer_id", match run.transfer with | some id => .fresh id | none => .text ""),
            ("verification_hash", .fresh verificationHash)]⟩)

def handleRemoteVote (run : RemoteVoteRun) : RemoteVoting × PrimaryAnswer :=
  if choice.sessionId = "" then (s, jsonErr "session_id required" 400)
  else
    match s.db.session? choice.sessionId with
    | none => (s, jsonErr "session not found" 404)
    | some session =>
        let v := RemoteForm.vote ⟨choice.sessionId, choice.voteType, run.encryptedBallot⟩ session
        if session.status ≠ .authenticated then (s, jsonErr "session not authenticated" 403)
        else if s.db.mayVote v = false then (s, jsonErr "delegate already voted in this round" 409)
        else if backend.configured = false then (s, cryptoUnavailable "ballot encryption service")
        else if run.encryptedBallot = "" then
          (s, jsonErr "encrypted_ballot required — the server does not accept cleartext vote choices" 400)
        else if backend.columns = false then (s, cryptoUnavailable "ballot custody storage")
        else
          match run.proof with
          | .error .rejected => (s, jsonErr "ballot proof verification failed" 400)
          | .error .unavailable => (s, jsonErr "ballot proof verification service unavailable" 503)
          | .ok ballotRef => s.storeRemoteVote sha256Hex session v ballotRef run

/-! ### handleCoercionVote -/

/-- From the encrypted decoy on. -/
def storeDecoy (session : VotingSession) (ballotRef : String) (run : CoercionVoteRun) :
    RemoteVoting × PrimaryAnswer :=
  let verificationHash := sha256Hex (run.ballotId ++ run.confirmationCode)
  let v : Vote := ⟨session.roundId, session.delegateId, "", .remote choice.sessionId ""⟩
  let ballot? := (VoteType.ofText? (defaultVoteType choice.voteType)).map fun voteType =>
    { s.db.ballotOf v run.ballotId voteType ballotRef none with isDecoy := true }
  match s.cast ballot? ⟨run.ballotId, run.confirmationCode, verificationHash, s.db.now⟩ run.insertOk with
  | none => (s, jsonErr ("coercion vote failed: " ++ run.dbError) 500)
  | some stored =>
      (stored,
        ⟨200,
          [("ballot_id", .fresh run.ballotId), ("confirmation_code", .fresh run.confirmationCode),
            ("is_remote", .flag true), ("status", .text "cast")]⟩)

def handleCoercionVote (run : CoercionVoteRun) : RemoteVoting × PrimaryAnswer :=
  if choice.sessionId = "" ∨ run.panicCode = "" then (s, jsonErr "session_id and panic_code required" 400)
  else if backend.configured = false then (s, cryptoUnavailable "ballot encryption service")
  else
    match s.db.session? choice.sessionId with
    | none => (s, jsonErr "session not found" 404)
    | some session =>
        if session.status ≠ .authenticated then (s, jsonErr "session not authenticated" 403)
        else if backend.columns = false then (s, cryptoUnavailable "duress credential storage")
        else if (s.db.delegate? session.delegateId).isNone then (s, jsonErr "delegate not found" 404)
        else
          match s.duressCodeHash session.delegateId with
          | none => (s, jsonErr "no duress credential registered for this delegate" 403)
          | some duressHash =>
              if duressHash = "" then (s, jsonErr "no duress credential registered for this delegate" 403)
              else if sha256Hex run.panicCode ≠ duressHash then (s, jsonErr "invalid panic code" 403)
              else
                match encryptBallotViaBackend run.encrypted with
                | none =>
                    (s,
                      ⟨503,
                        [("detail", .text
                            "the election crypto backend could not encrypt this ballot; refusing to store a cleartext vote choice"),
                          ("error", .text "ballot encryption service unavailable")]⟩)
                | some ballotRef => s.storeDecoy sha256Hex choice session ballotRef run

/-! ### handleRemoteVerifyBallot -/

def handleRemoteVerifyBallot (code hash : String) : PrimaryAnswer :=
  if code = "" ∧ hash = "" then jsonErr "confirmation_code or verification_hash required" 400
  else
    let found := s.receipts.find? fun r =>
      if code ≠ "" then r.confirmationCode == code else r.verificationHash == hash
    match found.bind fun r => (s.db.ballots.find? fun b => b.id == r.ballotId).map fun b => (r, b) with
    | none => jsonErr "ballot not found — vote may not have been recorded" 404
    | some (r, b) =>
        ⟨200,
          [("ballot_id", .fresh b.id), ("cast_at", .time r.castAt), ("included", .flag true),
            ("is_remote", .flag b.isRemote), ("message", .text "Your vote was recorded and will be counted"),
              ("round_id", .text b.roundId), ("tallied", .flag b.tallied),
            ("verified", .flag true)]⟩

end RemoteVoting

/-! ### What is seen -/

def PrimaryAnswer.confirmationCode? (a : PrimaryAnswer) : Option String :=
  match a.fields.lookup "confirmation_code" with
  | some (.fresh code) => some code
  | _ => none

/-- The answer, what everybody is told about the code in it, and whether the session can be used again. -/
structure VoteObservation where
  answer : PrimaryAnswer
  lookup : Option PrimaryAnswer
  usable : Bool
  deriving DecidableEq, Repr

def observe (choice : VoteChoice) (after : RemoteVoting × PrimaryAnswer) : VoteObservation where
  answer := after.2.shape
  lookup := after.2.confirmationCode?.map fun code => (after.1.handleRemoteVerifyBallot code "").shape
  usable := (after.1.db.session? choice.sessionId).any (·.status = .authenticated)

namespace RemoteVoting

variable (sha256Hex : String → String) (s : RemoteVoting) (backend : CryptoBackend) (choice : VoteChoice)

/-- A coerced vote looks like a vote. -/
def Indistinguishable (run : RemoteVoteRun) (coerced : CoercionVoteRun) : Prop :=
  observe choice (s.handleCoercionVote sha256Hex backend choice coerced) =
    observe choice (s.handleRemoteVote sha256Hex backend choice run)

/-- With a backend the session is not authenticated. Without one it is, and its delegate has not voted yet. -/
def TurnedAway (panicCode : String) : Prop :=
  choice.sessionId ≠ "" ∧ panicCode ≠ "" ∧
    match s.db.session? choice.sessionId with
    | none => backend.configured = true
    | some session =>
        if session.status = .authenticated then
          backend.configured = false ∧ s.db.mayVote (RemoteForm.vote ⟨choice.sessionId, choice.voteType,
            ""⟩ session) = true
        else backend.configured = true

end RemoteVoting

/-! ### Answers to a coerced vote only -/

/-- How the texts begin that handleRemoteVote has none of. -/
def coercionTexts : List String :=
  ["session_id and panic_code required", "duress credential storage", "delegate not found",
    "no duress credential", "invalid panic code", "ballot encryption service unavailable", "coercion vote failed"]

def errorText? : String × AnswerField → Option String
  | (key, .text msg) => if key = "error" then some msg else none
  | _ => none

namespace PrimaryAnswer

def message (a : PrimaryAnswer) : String := (a.fields.findSome? errorText?).getD ""

/-- Such a text, or a vote without a verification hash. -/
def ofCoercion (a : PrimaryAnswer) : Bool :=
  if a.status = 200 then !(a.fields.map Prod.fst).contains "verification_hash"
  else coercionTexts.any fun text => text.toList.isPrefixOf a.message.toList

theorem ofCoercion_shape (a : PrimaryAnswer) : a.shape.ofCoercion = a.ofCoercion := by
  have hkeys : a.shape.fields.map Prod.fst = a.fields.map Prod.fst := by
    show (a.fields.map fun f => (f.1, f.2.shape)).map Prod.fst = a.fields.map Prod.fst
    rw [List.map_map]
    rfl
  have hmessage : a.shape.message = a.message := by
    show ((a.fields.map fun f => (f.1, f.2.shape)).findSome? errorText?).getD "" =
        (a.fields.findSome? errorText?).getD ""
    rw [List.findSome?_map]
    congr 2
    funext f
    obtain ⟨key, field⟩ := f
    cases field <;> rfl
  rw [ofCoercion, ofCoercion, hkeys, hmessage]
  rfl

theorem ofCoercion_remoteFailed (text : String) :
    (jsonErr ("remote vote failed: " ++ text) 500).ofCoercion = false := by
  show (coercionTexts.any fun start => start.toList.isPrefixOf ("remote vote failed: " ++ text).toList) = false
  rw [String.toList_append]
  rfl

theorem ofCoercion_coercionFailed (text : String) :
    (jsonErr ("coercion vote failed: " ++ text) 500).ofCoercion = true := by
  show (coercionTexts.any fun start => start.toList.isPrefixOf ("coercion vote failed: " ++ text).toList) = true
  rw [String.toList_append]
  rfl

end PrimaryAnswer

namespace RemoteVoting

variable {sha256Hex : String → String} {s : RemoteVoting} {backend : CryptoBackend} {choice : VoteChoice}

theorem storeRemoteVote_ofCoercion (session : VotingSession) (v : Vote) (ballotRef : String) (run : RemoteVoteRun) :
    (s.storeRemoteVote sha256Hex session v ballotRef run).2.ofCoercion = false := by
  rw [storeRemoteVote]
  split
  · exact PrimaryAnswer.ofCoercion_remoteFailed run.dbError
  · rfl

theorem ofCoercion_of_refused {a : PrimaryAnswer} {b : Bool} (h : a.ofCoercion = b) : (s, a).2.ofCoercion = b := h

/-- No answer to a vote is one of these. -/
theorem handleRemoteVote_ofCoercion (run : RemoteVoteRun) :
    (s.handleRemoteVote sha256Hex backend choice run).2.ofCoercion = false := by
  unfold handleRemoteVote
  split
  · exact ofCoercion_of_refused (by decide +kernel)
  · split
    · exact ofCoercion_of_refused (by decide +kernel)
    · dsimp only
      split
      · exact ofCoercion_of_refused (by decide +kernel)
      · split
        · exact ofCoercion_of_refused (by decide +kernel)
        · split
          · exact ofCoercion_of_refused (by decide +kernel)
          · split
            · exact ofCoercion_of_refused (by decide +kernel)
            · split
              · exact ofCoercion_of_refused (by decide +kernel)
              · split
                · exact ofCoercion_of_refused (by decide +kernel)
                · exact ofCoercion_of_refused (by decide +kernel)
                · exact storeRemoteVote_ofCoercion ..

theorem storeDecoy_ofCoercion (session : VotingSession) (ballotRef : String) (run : CoercionVoteRun) :
    (s.storeDecoy sha256Hex choice session ballotRef run).2.ofCoercion = true := by
  rw [storeDecoy]
  split
  · exact PrimaryAnswer.ofCoercion_coercionFailed run.dbError
  · rfl

/-- An answer to a coerced vote is one of these, but where it is turned away for its session or for want of a
backend. -/
theorem handleCoercionVote_cases (sha256Hex : String → String) (s : RemoteVoting) (backend : CryptoBackend)
    (choice : VoteChoice) (run : CoercionVoteRun) :
    (s.handleCoercionVote sha256Hex backend choice run).2.ofCoercion = true ∨
      choice.sessionId ≠ "" ∧ run.panicCode ≠ "" ∧
        ((backend.configured = false ∧
            s.handleCoercionVote sha256Hex backend choice run =
              (s, cryptoUnavailable "ballot encryption service")) ∨
          (backend.configured = true ∧ s.db.session? choice.sessionId = none ∧
            s.handleCoercionVote sha256Hex backend choice run = (s, jsonErr "session not found" 404)) ∨
          ∃ session, backend.configured = true ∧ s.db.session? choice.sessionId = some session ∧
            session.status ≠ .authenticated ∧ s.handleCoercionVote sha256Hex backend choice run =
              (s, jsonErr "session not authenticated" 403)) := by
  unfold handleCoercionVote
  split
  case isTrue => exact .inl (ofCoercion_of_refused (by decide +kernel))
  case isFalse hforms =>
    rw [not_or] at hforms
    split
    case isTrue hconfigured => exact .inr ⟨hforms.1, hforms.2, .inl ⟨hconfigured, rfl⟩⟩
    case isFalse hconfigured =>
      rw [Bool.not_eq_false] at hconfigured
      split
      case h_1 hnone => exact .inr ⟨hforms.1, hforms.2, .inr (.inl ⟨hconfigured, hnone, rfl⟩)⟩
      case h_2 session hsession =>
        split
        case isTrue hstatus =>
          exact .inr ⟨hforms.1, hforms.2, .inr (.inr ⟨session, hconfigured, hsession, hstatus, rfl⟩)⟩
        case isFalse =>
          refine .inl ?_
          split
          · exact ofCoercion_of_refused (by decide +kernel)
          · split
            · exact ofCoercion_of_refused (by decide +kernel)
            · split
              · exact ofCoercion_of_refused (by decide +kernel)
              · split
                · exact ofCoercion_of_refused (by decide +kernel)
                · split
                  · exact ofCoercion_of_refused (by decide +kernel)
                  · split
                    · exact ofCoercion_of_refused (by decide +kernel)
                    · exact storeDecoy_ofCoercion ..

/-! ### Votes that are turned away -/

theorem handleRemoteVote_of_none (hid : choice.sessionId ≠ "") (hnone : s.db.session? choice.sessionId = none)
    (run : RemoteVoteRun) :
    s.handleRemoteVote sha256Hex backend choice run = (s, jsonErr "session not found" 404) := by
  rw [handleRemoteVote, if_neg hid, hnone]

theorem handleRemoteVote_of_some (hid : choice.sessionId ≠ "") {session : VotingSession}
    (hsession : s.db.session? choice.sessionId = some session) (hstatus : session.status ≠ .authenticated)
    (run : RemoteVoteRun) :
    s.handleRemoteVote sha256Hex backend choice run = (s, jsonErr "session not authenticated" 403) := by
  rw [handleRemoteVote, if_neg hid, hsession]
  exact if_pos hstatus

/-- Without a backend the session and the delegate are looked at first. -/
theorem handleRemoteVote_of_unconfigured (hid : choice.sessionId ≠ "") (hbackend : backend.configured = false)
    {session : VotingSession} (hsession : s.db.session? choice.sessionId = some session)
    (hstatus : session.status = .authenticated) (run : RemoteVoteRun) :
    s.handleRemoteVote sha256Hex backend choice run =
      (s, if s.db.mayVote (RemoteForm.vote ⟨choice.sessionId, choice.voteType, ""⟩ session) = true then
        cryptoUnavailable "ballot encryption service" else jsonErr "delegate already voted in this round" 409) := by
  rw [handleRemoteVote, if_neg hid, hsession]
  dsimp only
  rw [if_neg (not_not.mpr hstatus), if_pos hbackend]
  have hsame : s.db.mayVote (RemoteForm.vote ⟨choice.sessionId, choice.voteType, run.encryptedBallot⟩ session) =
      s.db.mayVote (RemoteForm.vote ⟨choice.sessionId, choice.voteType, ""⟩ session) := rfl
  rw [hsame]
  cases s.db.mayVote (RemoteForm.vote ⟨choice.sessionId, choice.voteType, ""⟩ session) <;> rfl

/-- Votes and coerced votes look the same only where they are turned away alike. -/
theorem indistinguishable_iff_turnedAway (sha256Hex : String → String) (s : RemoteVoting)
    (backend : CryptoBackend) (choice : VoteChoice) (run : RemoteVoteRun) (coerced : CoercionVoteRun) :
    s.Indistinguishable sha256Hex backend choice run coerced ↔ s.TurnedAway backend choice coerced.panicCode := by
  constructor
  · intro hsame
    have hshape : (s.handleCoercionVote sha256Hex backend choice coerced).2.shape =
        (s.handleRemoteVote sha256Hex backend choice run).2.shape := congrArg VoteObservation.answer hsame
    have hstatus : (s.handleCoercionVote sha256Hex backend choice coerced).2.status =
        (s.handleRemoteVote sha256Hex backend choice run).2.status := by
      have hshapes := congrArg PrimaryAnswer.status hshape
      exact hshapes
    obtain htold | ⟨hid, hpanic, hcases⟩ := handleCoercionVote_cases sha256Hex s backend choice coerced
    · rw [← PrimaryAnswer.ofCoercion_shape, hshape, PrimaryAnswer.ofCoercion_shape,
        handleRemoteVote_ofCoercion] at htold
      cases htold
    · refine ⟨hid, hpanic, ?_⟩
      obtain ⟨hbackend, heq⟩ | ⟨hbackend, hnone, -⟩ | ⟨session, hbackend, hsession, hpending, -⟩ := hcases
      · rw [heq] at hstatus
        cases hsession : s.db.session? choice.sessionId with
        | none =>
            rw [handleRemoteVote_of_none hid hsession] at hstatus
            cases hstatus
        | some session =>
            by_cases hauth : session.status = .authenticated
            · rw [handleRemoteVote_of_unconfigured hid hbackend hsession hauth] at hstatus
              show if session.status = .authenticated then _ else _
              rw [if_pos hauth]
              refine ⟨hbackend, ?_⟩
              by_contra hmay
              rw [if_neg hmay] at hstatus
              cases hstatus
            · rw [handleRemoteVote_of_some hid hsession hauth] at hstatus
              cases hstatus
      · rw [hnone]
        exact hbackend
      · rw [hsession]
        show if session.status = .authenticated then _ else _
        rw [if_neg hpending]
        exact hbackend
  · intro ⟨hid, hpanic, hturned⟩
    suffices hsame : s.handleCoercionVote sha256Hex backend choice coerced =
      s.handleRemoteVote sha256Hex backend choice run from
      congrArg (observe choice) hsame
    rw [handleCoercionVote, if_neg (not_or.mpr ⟨hid, hpanic⟩)]
    cases hsession : s.db.session? choice.sessionId with
    | none =>
        rw [hsession] at hturned
        have hbackend : backend.configured = true := hturned
        rw [if_neg (Bool.not_eq_false _ ▸ hbackend), handleRemoteVote_of_none hid hsession]
    | some session =>
        rw [hsession] at hturned
        by_cases hauth : session.status = .authenticated
        · obtain ⟨hbackend, hmay⟩ := (if_pos hauth).mp hturned
          rw [if_pos hbackend, handleRemoteVote_of_unconfigured hid hbackend hsession hauth, if_pos hmay]
        · have hbackend : backend.configured = true := (if_neg hauth).mp hturned
          rw [if_neg (Bool.not_eq_false _ ▸ hbackend), handleRemoteVote_of_some hid hsession hauth]
          exact if_pos hauth

/-! ### The lookup -/

theorem cast_of_ok (s : RemoteVoting) (b : Ballot) (receipt : BallotReceipt) :
    s.cast (some b) receipt true = (s.db.insertBallot b).map fun db =>
      { s with db := db, receipts := s.receipts ++ [receipt] } := by
  rw [cast, Option.bind_some]
  cases s.db.insertBallot b <;> rfl

/-- What a coerced vote does to the tables is the step the machine of the primaries takes for it. -/
theorem storeDecoy_db {session : VotingSession} (hsession : s.db.session? choice.sessionId = some session)
    (hstatus : session.status = .authenticated) {ballotRef : String} {run : CoercionVoteRun}
    (hencrypted : encryptBallotViaBackend run.encrypted = some ballotRef) (hok : run.insertOk = true) :
    (s.storeDecoy sha256Hex choice session ballotRef run).1.db =
      s.db.coercionVote choice.sessionId run.ballotId choice.voteType run.encrypted true := by
  rw [storeDecoy, Convention.coercionVote, hsession, hencrypted]
  cases htype : VoteType.ofText? (defaultVoteType choice.voteType) with
  | none => rfl
  | some voteType =>
      have hallowed : (decide (session.status = .authenticated) && true) = true := by
        rw [hstatus]
        rfl
      dsimp only [Option.map_some]
      rw [hok, cast_of_ok, if_pos hallowed]
      cases s.db.insertBallot _ <;> rfl

/-- And a vote takes its steps: the ballot, the mark of the delegate and the end of the session. -/
theorem storeRemoteVote_db {session : VotingSession} {v : Vote} {ballotRef : String} {run : RemoteVoteRun}
    (hok : run.insertOk = true) :
    (s.storeRemoteVote sha256Hex session v ballotRef run).1.db =
      match s.db.castBallot v run.ballotId ballotRef run.custodied with
      | none => s.db
      | some stored =>
          let marked := if run.markOk then stored.markVoted session.delegateId
            (s.db.roundNumber session.roundId) else stored
          if run.sessionOk then marked.finishVote v else marked := by
  rw [storeRemoteVote, Convention.castBallot]
  cases htype : VoteType.ofText? v.voteType with
  | none => rfl
  | some voteType =>
      dsimp only [Option.map_some, Option.bind_some]
      rw [hok, cast_of_ok]
      cases s.db.insertBallot _ <;> rfl

/-! ### A decoy that is seen -/

section Samples

/-- Delegate del-1 has an authenticated session and a duress code. -/
def duressReady : RemoteVoting where
  db := (Runs.final (Primaries.step sampleCustody) (Primaries.start 0) samplePrimary).db
  duressCodeHash := fun id => if id = "del-1" then some "code-1" else none
  receipts := []

def sampleVoteRun : RemoteVoteRun where
  encryptedBallot := "ciphertext"
  proof := .ok "ref-1"
  custodied := some "asp-1"
  ballotId := "bal-1"
  confirmationCode := "A1B2C3D4E5F6"
  clock := "2027-02-20 16:00:00"
  insertOk := true
  dbError := ""
  markOk := true
  sessionOk := true
  transfer := some "tb-1"

def sampleCoercionRun : CoercionVoteRun where
  panicCode := "code-1"
  encrypted := some ⟨"ciphertext", "ref-2", ""⟩
  ballotId := "bal-2"
  confirmationCode := "F6E5D4C3B2A1"
  insertOk := true
  dbError := ""

/-- The decoy is seen in the answer and in the session, and not in the lookup. -/
theorem decoy_is_seen :
    ¬duressReady.Indistinguishable id ⟨true, true⟩ ⟨"vs-1", "asp-1", ""⟩ sampleVoteRun sampleCoercionRun ∧
      let vote := observe ⟨"vs-1", "asp-1", ""⟩ (duressReady.handleRemoteVote id ⟨true, true⟩ ⟨"vs-1", "asp-1",
        ""⟩ sampleVoteRun)
      let decoy := observe ⟨"vs-1", "asp-1", ""⟩ (duressReady.handleCoercionVote id ⟨true, true⟩ ⟨"vs-1",
        "asp-1", ""⟩ sampleCoercionRun)
      vote.answer ≠ decoy.answer ∧ vote.usable = false ∧ decoy.usable = true ∧ vote.lookup = decoy.lookup := by
  have hseen : ¬(observe ⟨"vs-1", "asp-1", ""⟩ (duressReady.handleCoercionVote id ⟨true, true⟩ ⟨"vs-1",
    "asp-1", ""⟩ sampleCoercionRun) =
      observe ⟨"vs-1", "asp-1", ""⟩ (duressReady.handleRemoteVote id ⟨true, true⟩ ⟨"vs-1", "asp-1",
        ""⟩ sampleVoteRun)) := by
    decide +kernel
  exact ⟨hseen, by decide +kernel⟩

end Samples

end RemoteVoting

end Inec
