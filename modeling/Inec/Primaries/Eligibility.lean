import Inec.Primaries.OneVote
import Mathlib.Data.List.Infix

/-!
# Who casts a ballot

handleCastBallot asks for an accredited delegate, of whatever election. A remote vote comes from a session, for
which handleCreateVotingSession asked for an accredited delegate and handleRemoteAuthenticate for the OTP, the
biometric and, if one is sent, the fingerprint of a device of the delegate; handleRemoteVote itself only reads
the status of the session.

A ballot holds the rows of its delegate and its session as they were when it was inserted, and it is these the
property is about. It holds as long as nobody votes who would have been refused by the checks the handlers leave
out, and nothing these checks are about changes between the look at the delegate and the insert.
-/

namespace Inec

/-- The OTP, the biometric and the device were checked. -/
def VotingSession.verified (x : VotingSession) : Bool := x.otpPassed && x.biometricVerified && x.devicePassed

def Convention.HasDevice (db : Convention) (delegateId : String) : Prop :=
  ∃ device ∈ db.devices, device.delegateId = delegateId

instance (db : Convention) (delegateId : String) : Decidable (db.HasDevice delegateId) :=
  inferInstanceAs (Decidable (∃ device ∈ db.devices, device.delegateId = delegateId))

/-- The delegate was accredited in the election of the round, and a session was verified and had not expired. -/
def Ballot.Eligible (db : Convention) (b : Ballot) : Prop :=
  (∃ d ∈ b.facts.delegate, ∃ r ∈ db.round? b.roundId,
    d.id = b.delegateId ∧ d.accreditation = .accredited ∧ d.electionId = r.electionId) ∧
  (b.isRemote = true → ∃ x ∈ b.facts.session,
    x.delegateId = b.delegateId ∧ b.facts.castAt ≤ x.expiresAt ∧ x.verified = true ∧ db.HasDevice b.delegateId)

instance (db : Convention) (b : Ballot) : Decidable (b.Eligible db) := inferInstanceAs (Decidable (_ ∧ _))

def EligibleBallots (s : Primaries) : Prop := ∀ b ∈ s.db.ballots, b.isDecoy = false → b.Eligible s.db

instance (s : Primaries) : Decidable (EligibleBallots s) :=
  inferInstanceAs (Decidable (∀ b ∈ s.db.ballots, b.isDecoy = false → b.Eligible s.db))

/-- A delegate votes in a round of its own election; who votes from a session is still accredited, and the
session has not expired. An authentication that gets as far as the device names one. No delegate is revoked
while a vote of it is between the look at the row and the insert, and no session expires there. -/
def VotersInOrder (s : Primaries) : PrimariesAct → Prop
  | .vote request .check => ∀ v, s.votes request = .opened v → s.db.mayVote v = true →
      (∀ d r, s.db.delegate? v.delegateId = some d → s.db.round? v.roundId = some r → d.electionId = r.electionId) ∧
        ∀ id x d, v.sessionId? = some id → s.db.session? id = some x → s.db.delegate? v.delegateId = some d →
          s.db.now ≤ x.expiresAt ∧ d.accreditation = .accredited
  | .auth request (.authenticate id otpHash fingerprint) =>
      s.auths request = .idle → ∀ x, s.db.session? id = some x → x.status = .pending →
        s.db.now ≤ x.otpExpiresAt → otpHash = x.otpHash → fingerprint ≠ ""
  | .office (.revokeDelegate id partyCode) =>
      ∀ request v d, (s.votes request).pending? = some v → v.delegateId = id → s.db.delegate? id = some d →
        d.partyCode ≠ partyCode
  | .office (.tick elapsed) => ∀ request v id x, (s.votes request).pending? = some v → v.sessionId? = some id →
      s.db.session? id = some x → s.db.now + elapsed ≤ x.expiresAt
  | _ => True

/-! ### What every statement keeps -/

namespace Convention

/-- The elections of delegates and rounds stay, and of a session what it stands for. -/
structure Extends (db after : Convention) : Prop where
  delegates : ∀ {id d}, db.delegate? id = some d → ∃ d', after.delegate? id = some d' ∧ d'.electionId = d.electionId
  rounds : ∀ {id r}, db.round? id = some r → ∃ r', after.round? id = some r' ∧ r'.electionId = r.electionId
  sessions : ∀ {id x}, db.session? id = some x → ∃ x', after.session? id = some x' ∧ x'.delegateId = x.delegateId ∧
    x'.expiresAt = x.expiresAt ∧ (x.verified = true → x'.verified = true)
  devices : db.devices ⊆ after.devices

variable {db after : Convention}

/-- Rows are only added. -/
theorem Extends.of_added (hdelegates : db.delegates <+: after.delegates) (hrounds : db.rounds <+: after.rounds)
    (hsessions : db.sessions <+: after.sessions) (hdevices : db.devices <+: after.devices) : db.Extends after where
  delegates hd := ⟨_, hdelegates.find?_eq_some hd, rfl⟩
  rounds hr := ⟨_, hrounds.find?_eq_some hr, rfl⟩
  sessions hx := ⟨_, hsessions.find?_eq_some hx, rfl, rfl, id⟩
  devices := hdevices.subset

theorem Extends.refl (db : Convention) : db.Extends db :=
  .of_added List.prefix_rfl List.prefix_rfl List.prefix_rfl List.prefix_rfl

theorem extends_updateDelegate (db : Convention) (id : String) {f : Delegate → Delegate}
    (hid : ∀ d, (f d).id = d.id) (helection : ∀ d, (f d).electionId = d.electionId) :
    db.Extends (db.updateDelegate id f) where
  delegates {id' d} hd := by
    refine ⟨_, (delegate?_updateDelegate hid id').trans (congrArg _ hd), ?_⟩
    dsimp only
    split
    · exact helection d
    · rfl
  rounds hr := ⟨_, hr, rfl⟩
  sessions hx := ⟨_, hx, rfl, rfl, fun h => h⟩
  devices := fun _ h => h

theorem extends_updateRound (db : Convention) (id : String) {f : VotingRound → VotingRound}
    (hid : ∀ r, (f r).id = r.id) (helection : ∀ r, (f r).electionId = r.electionId) :
    db.Extends (db.updateRound id f) where
  delegates hd := ⟨_, hd, rfl⟩
  rounds {id' r} hr := by
    refine ⟨_, (round?_updateRound hid id').trans (congrArg _ hr), ?_⟩
    dsimp only
    split
    · exact helection r
    · rfl
  sessions hx := ⟨_, hx, rfl, rfl, fun h => h⟩
  devices := fun _ h => h

theorem extends_updateSession (db : Convention) (id : String) {f : VotingSession → VotingSession}
    (hid : ∀ x, (f x).id = x.id) (hkeeps : ∀ x, (f x).delegateId = x.delegateId ∧ (f x).expiresAt =
      x.expiresAt ∧ (x.verified = true → (f x).verified = true)) :
    db.Extends (db.updateSession id f) where
  delegates hd := ⟨_, hd, rfl⟩
  rounds hr := ⟨_, hr, rfl⟩
  sessions {id' x} hx := by
    refine ⟨_, (session?_updateSession hid id').trans (congrArg _ hx), ?_⟩
    dsimp only
    split
    · exact hkeeps x
    · exact ⟨rfl, rfl, fun h => h⟩
  devices := fun _ h => h

theorem extends_setRoundStatus (db : Convention) (id : String) (old : RoundStatus → Bool) (new : RoundStatus) :
    db.Extends (db.setRoundStatus id old new) := by
  apply extends_updateRound
  · intro r
    split <;> rfl
  · intro r
    split <;> rfl

theorem extends_moveDelegate (db : Convention) (id partyCode : String) (old new : Accreditation) :
    db.Extends (db.moveDelegate id partyCode old new) := by
  apply extends_updateDelegate
  · intro d
    split <;> rfl
  · intro d
    split <;> rfl

theorem office_extends (db : Convention) (act : OfficeAct) : db.Extends (db.office act) := by
  have hmove := db.office_move act
  generalize db.office act = after at hmove
  cases hmove with
  | addDelegate => exact .of_added (List.prefix_append ..) List.prefix_rfl List.prefix_rfl List.prefix_rfl
  | moveDelegate => exact db.extends_moveDelegate ..
  | createRound => exact .of_added List.prefix_rfl (List.prefix_append ..) List.prefix_rfl List.prefix_rfl
  | moveRound => exact db.extends_setRoundStatus ..
  | createSession => exact .of_added List.prefix_rfl List.prefix_rfl (List.prefix_append ..) List.prefix_rfl
  | registerDevice => exact .of_added List.prefix_rfl List.prefix_rfl List.prefix_rfl (List.prefix_append ..)
  | _ => exact .of_added List.prefix_rfl List.prefix_rfl List.prefix_rfl List.prefix_rfl

theorem office_now (db : Convention) (act : OfficeAct) :
    (db.office act).now = db.now ∨ ∃ elapsed, act = .tick elapsed := by
  have hmove := db.office_move act
  generalize db.office act = after at hmove
  cases hmove with
  | tick elapsed => exact .inr ⟨elapsed, rfl⟩
  | _ => exact .inl rfl

end Convention

/-- A session that is new is pending, for a delegate and a round that are there. -/
theorem Convention.office_session? (db : Convention) (act : OfficeAct) {id : String} {x : VotingSession}
    (h : (db.office act).session? id = some x) :
    db.session? id = some x ∨
      x.status = .pending ∧ (db.delegate? x.delegateId).isSome = true ∧ (db.round? x.roundId).isSome = true := by
  have hmove := db.office_move act
  generalize db.office act = after at hmove h
  cases hmove with
  | createSession _ _ _ _ _ session hstatus hdelegate hround =>
      rw [session?, List.find?_append] at h
      obtain h | ⟨-, h⟩ := Option.or_eq_some_iff.mp h
      · exact .inl h
      · obtain rfl := List.mem_singleton.mp (List.mem_of_find?_eq_some h)
        exact .inr ⟨hstatus, hdelegate, hround⟩
  | _ => exact .inl h

/-! ### What stands behind a vote -/

namespace Convention

/-- A session is for a delegate and a round that are there, and it is authenticated only once it is verified. -/
def Backed (db : Convention) (x : VotingSession) : Prop :=
  (db.delegate? x.delegateId).isSome = true ∧ (db.round? x.roundId).isSome = true ∧
    (x.status = .authenticated → x.verified = true ∧ db.HasDevice x.delegateId)

/-- Where a vote comes from. -/
structure Comes (db : Convention) (v : Vote) : Prop where
  round : (db.round? v.roundId).isSome = true
  session : ∀ id, v.sessionId? = some id → (db.delegate? v.delegateId).isSome = true ∧
    ∃ x, db.session? id = some x ∧ x.delegateId = v.delegateId ∧ x.verified = true ∧ db.HasDevice v.delegateId

/-- A vote whose ballot may be inserted. -/
structure Admits (db : Convention) (v : Vote) : Prop extends Comes db v where
  delegate : ∃ d r, db.delegate? v.delegateId = some d ∧ db.round? v.roundId = some r ∧
    d.accreditation = .accredited ∧ d.electionId = r.electionId
  unexpired : ∀ id x, v.sessionId? = some id → db.session? id = some x → db.now ≤ x.expiresAt

variable {db after : Convention}

theorem Extends.delegate_isSome (h : db.Extends after) {id : String} (hd : (db.delegate? id).isSome = true) :
    (after.delegate? id).isSome = true := by
  obtain ⟨d, hd⟩ := Option.isSome_iff_exists.mp hd
  obtain ⟨d', hd', -⟩ := h.delegates hd
  rw [hd']
  rfl

theorem Extends.round_isSome (h : db.Extends after) {id : String} (hr : (db.round? id).isSome = true) :
    (after.round? id).isSome = true := by
  obtain ⟨r, hr⟩ := Option.isSome_iff_exists.mp hr
  obtain ⟨r', hr', -⟩ := h.rounds hr
  rw [hr']
  rfl

theorem Extends.hasDevice (h : db.Extends after) {delegateId : String} (hdevice : db.HasDevice delegateId) :
    after.HasDevice delegateId := by
  obtain ⟨device, hmem, hid⟩ := hdevice
  exact ⟨device, h.devices hmem, hid⟩

theorem Backed.mono {x : VotingSession} (hx : db.Backed x) (h : db.Extends after) : after.Backed x := by
  obtain ⟨hdelegate, hround, hverified⟩ := hx
  refine ⟨h.delegate_isSome hdelegate, h.round_isSome hround, ?_⟩
  intro hstatus
  exact ⟨(hverified hstatus).1, h.hasDevice (hverified hstatus).2⟩

theorem Comes.mono {v : Vote} (hv : db.Comes v) (h : db.Extends after) : after.Comes v where
  round := h.round_isSome hv.round
  session id hid := by
    obtain ⟨hdelegate, x, hx, hvoter, hverified, hdevice⟩ := hv.session id hid
    obtain ⟨x', hx', hvoter', -, hverified'⟩ := h.sessions hx
    exact ⟨h.delegate_isSome hdelegate, x', hx', hvoter'.trans hvoter, hverified' hverified, h.hasDevice hdevice⟩

/-- An admitted vote stays admitted while its delegate is accredited and its session lasts. -/
theorem Admits.mono {v : Vote} (hv : db.Admits v) (h : db.Extends after)
    (haccredited : ∀ d d', db.delegate? v.delegateId = some d → after.delegate? v.delegateId = some d' →
      d.accreditation = .accredited → d'.accreditation = .accredited)
    (hnow : ∀ id x, v.sessionId? = some id → db.session? id = some x → db.now ≤ x.expiresAt →
      after.now ≤ x.expiresAt) :
    after.Admits v where
  toComes := hv.toComes.mono h
  delegate := by
    obtain ⟨d, r, hd, hr, hstatus, helection⟩ := hv.delegate
    obtain ⟨d', hd', helection'⟩ := h.delegates hd
    obtain ⟨r', hr', hround⟩ := h.rounds hr
    refine ⟨d', r', hd', hr', haccredited d d' hd hd' hstatus, ?_⟩
    rw [helection', hround, helection]
  unexpired id x' hid hx' := by
    obtain ⟨-, x, hx, -⟩ := hv.session id hid
    obtain ⟨y, hy, -, hexpires, -⟩ := h.sessions hx
    obtain rfl := Option.some.inj (hy.symm.trans hx')
    rw [hexpires]
    exact hnow id x hid hx (hv.unexpired id x hid hx)

theorem Admits.of_delegates {v : Vote} (hv : db.Admits v) (h : db.Extends after)
    (hdelegates : after.delegates = db.delegates) (hnow : after.now = db.now) : after.Admits v := by
  apply hv.mono h
  · intro d d' hd hd' hstatus
    rw [delegate?, hdelegates] at hd'
    obtain rfl := Option.some.inj (hd.symm.trans hd')
    exact hstatus
  · intro id x _ _ hexpires
    rw [hnow]
    exact hexpires

/-- The sessions after one of them was updated. -/
theorem backed_updateSession {id : String} {f : VotingSession → VotingSession} (hid : ∀ x, (f x).id = x.id)
    (hext : db.Extends (db.updateSession id f)) (h : ∀ id x, db.session? id = some x → db.Backed x)
    (hf : ∀ x, db.session? id = some x → db.Backed x → db.Backed (f x)) (id' : String) (x : VotingSession)
    (hx : (db.updateSession id f).session? id' = some x) : (db.updateSession id f).Backed x := by
  rw [session?_updateSession hid] at hx
  obtain ⟨y, hy, rfl⟩ := Option.map_eq_some_iff.mp hx
  split
  case isTrue hrow =>
    rw [session?_id hy] at hrow
    subst hrow
    exact (hf y hy (h _ y hy)).mono hext
  case isFalse => exact (h _ y hy).mono hext

/-- A session that is done with voting. -/
theorem Backed.of_status {x : VotingSession} (hx : db.Backed x) {status : SessionStatus}
    (hstatus : status ≠ .authenticated) :
    db.Backed { x with status := status } := ⟨hx.1, hx.2.1, fun h => absurd h hstatus⟩

theorem finishVote_extends (db : Convention) (v : Vote) : db.Extends (db.finishVote v) := by
  rw [finishVote]
  split
  · exact db.extends_setRoundStatus ..
  · exact db.extends_updateSession _ (fun _ => rfl) (fun _ => ⟨rfl, rfl, id⟩)

theorem finishVote_now (db : Convention) (v : Vote) : (db.finishVote v).now = db.now := by
  rw [finishVote]
  split <;> rfl

theorem backed_finishVote (db : Convention) (v : Vote)
    (h : ∀ id x, db.session? id = some x → db.Backed x) (id : String) (x : VotingSession)
    (hx : (db.finishVote v).session? id = some x) : (db.finishVote v).Backed x := by
  have hext := db.finishVote_extends v
  rw [finishVote] at hx hext ⊢
  cases horigin : v.origin with
  | inPerson aspirantId =>
      rw [horigin] at hx hext
      exact (h id x hx).mono hext
  | remote sessionId encryptedBallot =>
      rw [horigin] at hx hext
      refine backed_updateSession ?_ hext h ?_ id x hx
      · exact fun _ => rfl
      · intro y _ hy
        exact hy.of_status (by decide)

/-- The check of a delegate that votes in person. -/
theorem accredited_of_mayVote {v : Vote} (h : db.mayVote v = true) (hperson : v.sessionId? = none) :
    ∃ d, db.delegate? v.delegateId = some d ∧ d.accreditation = .accredited := by
  have hremote : v.isRemote = false := by
    cases horigin : v.origin with
    | inPerson aspirantId => rw [Vote.isRemote, horigin]
    | remote sessionId encryptedBallot =>
        rw [Vote.sessionId?, horigin] at hperson
        cases hperson
  rw [mayVote, hremote] at h
  cases hd : db.delegate? v.delegateId with
  | none =>
      rw [hd] at h
      cases h
  | some d =>
      rw [hd] at h
      dsimp only at h
      rw [Bool.false_or, Bool.and_eq_true] at h
      exact ⟨d, rfl, of_decide_eq_true h.1⟩

theorem round_isSome_of_roundOpen {id : String} (h : db.roundOpen id = true) : (db.round? id).isSome = true := by
  obtain ⟨a, ha, -⟩ := (Option.any_eq_true _ _).mp h
  obtain ⟨r, hr, -⟩ := Option.map_eq_some_iff.mp ha
  exact Option.isSome_of_eq_some hr

end Convention

/-- A ballot is cast in person from no session. -/
theorem CastForm.sessionId?_of_vote? {form : CastForm} {v : Vote} (h : form.vote? = some v) :
    v.sessionId? = none := by
  dsimp only [CastForm.vote?] at h
  split at h
  · cases h
  · obtain rfl := Option.some.inj h
    rfl

theorem Ballot.Eligible.mono {db after : Convention} {b : Ballot} (hb : b.Eligible db) (h : db.Extends after) :
    b.Eligible after := by
  obtain ⟨⟨d, hd, r, hr, hid, hstatus, helection⟩, hsession⟩ := hb
  obtain ⟨r', hr', hround⟩ := h.rounds hr
  refine ⟨⟨d, hd, r', hr', hid, hstatus, helection.trans hround.symm⟩, ?_⟩
  intro hremote
  obtain ⟨x, hx, hvoter, hexpires, hverified, hdevice⟩ := hsession hremote
  exact ⟨x, hx, hvoter, hexpires, hverified, h.hasDevice hdevice⟩

/-- The ballot of an admitted vote. -/
theorem Convention.Admits.eligible {db : Convention} {v : Vote} (h : db.Admits v) (id : String)
    (voteType : VoteType) (ballotRef : String) (choice : Option String) :
    (db.ballotOf v id voteType ballotRef choice).Eligible db := by
  obtain ⟨d, r, hd, hr, hstatus, helection⟩ := h.delegate
  refine ⟨⟨d, hd, r, hr, Convention.delegate?_id hd, hstatus, helection⟩, ?_⟩
  intro hremote
  cases horigin : v.origin with
  | inPerson aspirantId =>
      rw [Convention.ballotOf, Vote.isRemote, horigin] at hremote
      cases hremote
  | remote sessionId encryptedBallot =>
      have hsession : v.sessionId? = some sessionId := by rw [Vote.sessionId?, horigin]
      obtain ⟨-, x, hx, hvoter, hverified, hdevice⟩ := h.session sessionId hsession
      refine ⟨x, ?_, hvoter, h.unexpired sessionId x hsession hx, hverified, hdevice⟩
      show v.sessionId?.bind db.session? = some x
      rw [hsession]
      exact hx

/-! ### What the steps keep -/

structure Primaries.VotersSound (s : Primaries) : Prop where
  sessions : ∀ id x, s.db.session? id = some x → s.db.Backed x
  admitted : ∀ request id devicePassed, s.auths request = .admitted id devicePassed →
    devicePassed = true ∧ ∃ x, s.db.session? id = some x ∧ s.db.HasDevice x.delegateId
  opened : ∀ request v, s.votes request = .opened v → s.db.Comes v
  pending : ∀ request v, (s.votes request).pending? = some v → s.db.Admits v
  ballots : EligibleBallots s

section VotersSound

variable {custody : String → Option String} {s : Primaries} {request : Nat} {db : Convention}

/-- The tables change under the requests. -/
theorem Primaries.VotersSound.tables (h : s.VotersSound) (hext : s.db.Extends db)
    (hsessions : ∀ id x, db.session? id = some x → db.Backed x)
    (hpending : ∀ request v, (s.votes request).pending? = some v → s.db.Admits v → db.Admits v)
    (hballots : ∀ b ∈ db.ballots, b.isDecoy = false → b.Eligible db) :
    Primaries.VotersSound { s with db := db } where
  sessions := hsessions
  admitted other id devicePassed hadmitted := by
    obtain ⟨hpassed, x, hx, hdevice⟩ := h.admitted other id devicePassed hadmitted
    obtain ⟨x', hx', hvoter, -⟩ := hext.sessions hx
    exact ⟨hpassed, x', hx', hvoter ▸ hext.hasDevice hdevice⟩
  opened other v hv := (h.opened other v hv).mono hext
  pending other v hv := hpending other v hv (h.pending other v hv)
  ballots := hballots

theorem Primaries.VotersSound.setVote (h : s.VotersSound) {p : VotePhase}
    (hopened : ∀ v, p = .opened v → s.db.Comes v) (hpending : ∀ v, p.pending? = some v → s.db.Admits v) :
    (s.setVote request p).VotersSound where
  sessions := h.sessions
  admitted := h.admitted
  opened other v hv := by
    by_cases heq : other = request
    · rw [heq, Primaries.setVote_votes_self] at hv
      exact hopened v hv
    · rw [Primaries.setVote_votes_of_ne _ _ heq] at hv
      exact h.opened other v hv
  pending other v hv := by
    by_cases heq : other = request
    · rw [heq, Primaries.setVote_votes_self] at hv
      exact hpending v hv
    · rw [Primaries.setVote_votes_of_ne _ _ heq] at hv
      exact h.pending other v hv
  ballots := h.ballots

theorem Primaries.VotersSound.setAuth (h : s.VotersSound) {p : AuthenticatePhase}
    (hadmitted : ∀ id devicePassed, p = .admitted id devicePassed →
      devicePassed = true ∧ ∃ x, s.db.session? id = some x ∧ s.db.HasDevice x.delegateId) :
        (s.setAuth request p).VotersSound where
  sessions := h.sessions
  admitted other id devicePassed hp := by
    by_cases heq : other = request
    · rw [heq, Primaries.setAuth_auths_self] at hp
      exact hadmitted id devicePassed hp
    · rw [Primaries.setAuth_auths_of_ne _ _ heq] at hp
      exact h.admitted other id devicePassed hp
  opened := h.opened
  pending := h.pending
  ballots := h.ballots

end VotersSound

section Steps

variable {s : Primaries}

theorem office_votersSound {act : OfficeAct} (h : s.VotersSound) (hcond : VotersInOrder s (.office act)) :
    Primaries.VotersSound { s with db := s.db.office act } := by
  have hext := s.db.office_extends act
  apply h.tables hext
  · intro id x hx
    rcases s.db.office_session? act hx with hx | ⟨hstatus, hdelegate, hround⟩
    · exact (h.sessions id x hx).mono hext
    · refine ⟨hext.delegate_isSome hdelegate, hext.round_isSome hround, ?_⟩
      rw [hstatus]
      exact (nomatch ·)
  · intro request v hv hadmits
    apply hadmits.mono hext
    · intro d d' hd hd' hstatus
      obtain ⟨a, hafter, hkept⟩ := s.db.office_delegate? hd act
      obtain rfl := Option.some.inj (hafter.symm.trans hd')
      rcases hkept hstatus with hsame | rfl
      · exact hsame
      · exact absurd rfl (hcond request v d hv rfl hd)
    · intro id x hid hx hexpires
      rcases s.db.office_now act with hnow | ⟨elapsed, rfl⟩
      · rw [hnow]
        exact hexpires
      · exact hcond request v id x hv hid hx
  · intro b hb hdecoy
    rcases s.db.office_ballots act with heq | ⟨_, _, _, _, _, _, decoy, _, _, hisDecoy, _, heq⟩
    · rw [heq] at hb
      exact (h.ballots b hb hdecoy).mono hext
    · rw [heq, List.mem_append, List.mem_singleton] at hb
      rcases hb with hb | rfl
      · exact (h.ballots b hb hdecoy).mono hext
      · rw [hisDecoy] at hdecoy
        cases hdecoy

theorem vote_votersSound (custody : String → Option String) (s : Primaries) (request : Nat) (act : VoteAct)
    (h : s.VotersSound) (hcond : VotersInOrder s (.vote request act)) :
    (s.vote custody request act).VotersSound := by
  rcases s.vote_cases custody request act with heq | ⟨p, db, hmove, heq⟩
  · rw [heq]
    exact h
  rw [heq]
  generalize hphase : s.votes request = before at hmove
  cases hmove with
  | refuse act p hp => exact h.setVote (by simp) (by simp [VotePhase.pending?])
  | openCast form v hform hopen =>
      refine h.setVote ?_ (by simp [VotePhase.pending?])
      intro w hw
      obtain rfl := VotePhase.opened.inj hw
      refine ⟨Convention.round_isSome_of_roundOpen hopen, ?_⟩
      intro id hid
      rw [CastForm.sessionId?_of_vote? hform] at hid
      cases hid
  | openRemote form session hsession hstatus =>
      refine h.setVote ?_ (by simp [VotePhase.pending?])
      intro w hw
      obtain rfl := VotePhase.opened.inj hw
      obtain ⟨hdelegate, hround, hverified⟩ := h.sessions _ session hsession
      refine ⟨hround, ?_⟩
      intro id hid
      obtain rfl := Option.some.inj hid
      exact ⟨hdelegate, session, hsession, rfl, hverified hstatus⟩
  | check v hmay =>
      refine h.setVote (by simp) ?_
      intro w hw
      obtain rfl : v = w := Option.some.inj hw
      obtain ⟨helection, hremote⟩ := hcond v hphase hmay
      have hcomes := h.opened request v hphase
      obtain ⟨r, hr⟩ := Option.isSome_iff_exists.mp hcomes.round
      refine ⟨hcomes, ?_, ?_⟩
      · cases hsession : v.sessionId? with
        | none =>
            obtain ⟨d, hd, hstatus⟩ := Convention.accredited_of_mayVote hmay hsession
            exact ⟨d, r, hd, hr, hstatus, helection d r hd hr⟩
        | some id =>
            obtain ⟨hdelegate, x, hx, -⟩ := hcomes.session id hsession
            obtain ⟨d, hd⟩ := Option.isSome_iff_exists.mp hdelegate
            exact ⟨d, r, hd, hr, (hremote id x d hsession hx hd).2, helection d r hd hr⟩
      · intro id x hid hx
        obtain ⟨d, hd⟩ := Option.isSome_iff_exists.mp (hcomes.session id hid).1
        exact (hremote id x d hid hx hd).1
  | encrypt answer v n ballotRef hperson hkeeps =>
      refine h.setVote (by simp) ?_
      intro w hw
      obtain rfl : v = w := Option.some.inj hw
      exact h.pending request v (by rw [hphase]; rfl)
  | verifyProof answer v n ballotRef choice hremote hkeeps =>
      refine h.setVote (by simp) ?_
      intro w hw
      obtain rfl : v = w := Option.some.inj hw
      exact h.pending request v (by rw [hphase]; rfl)
  | insert v n id ballotRef choice ok after hcast =>
      have hadmits := h.pending request v (by rw [hphase]; rfl)
      obtain ⟨voteType, -, rfl, -⟩ := s.db.castBallot_eq_some hcast
      have hext : s.db.Extends { s.db with ballots := s.db.ballots ++ [s.db.ballotOf v id voteType ballotRef choice] } :=
        .of_added List.prefix_rfl List.prefix_rfl List.prefix_rfl List.prefix_rfl
      have htables := h.tables hext (fun id x hx => (h.sessions id x hx).mono hext)
        (fun other w _ hw => hw.of_delegates hext rfl rfl) ?_
      · exact htables.setVote (by simp) (by simp [VotePhase.pending?])
      · intro b hb hdecoy
        rcases List.mem_append.mp hb with hb | hb
        · exact (h.ballots b hb hdecoy).mono hext
        · rw [List.mem_singleton.mp hb]
          exact (hadmits.eligible id voteType ballotRef choice).mono hext
  | mark v n ok =>
      cases ok with
      | false => exact h.setVote (by simp) (by simp [VotePhase.pending?])
      | true =>
          have hext : s.db.Extends (s.db.markVoted v.delegateId n) :=
            s.db.extends_updateDelegate _ (fun _ => rfl) (fun _ => rfl)
          refine (h.tables hext (fun id x hx => (h.sessions id x hx).mono hext) ?_
            fun b hb hdecoy => (h.ballots b hb hdecoy).mono hext).setVote (by simp) (by simp [VotePhase.pending?])
          intro other w _ hw
          refine hw.mono hext ?_ (fun _ _ _ _ hexpires => hexpires)
          intro d d' hd hd' hstatus
          rw [Convention.markVoted_delegate?, hd, Option.map_some, Option.some.injEq] at hd'
          rw [← hd']
          split
          · exact hstatus
          · exact hstatus
  | finish v ok =>
      cases ok with
      | false => exact h.setVote (by simp) (by simp [VotePhase.pending?])
      | true =>
          have hfinish := s.db.finishVote_extends v
          refine (h.tables hfinish ?_ ?_ ?_).setVote (by simp) (by simp [VotePhase.pending?])
          · exact s.db.backed_finishVote v h.sessions
          · intro other w _ hw
            exact hw.of_delegates hfinish (s.db.finishVote_delegates v) (s.db.finishVote_now v)
          · intro b hb hdecoy
            rw [Convention.finishVote_ballots] at hb
            exact (h.ballots b hb hdecoy).mono hfinish

theorem auth_votersSound (s : Primaries) (request : Nat) (act : AuthenticateAct) (h : s.VotersSound)
    (hcond : VotersInOrder s (.auth request act)) : (s.auth request act).VotersSound := by
  rcases s.auth_cases request act with heq | ⟨p, db, hmove, heq⟩
  · rw [heq]
    exact h
  rw [heq]
  generalize hphase : s.auths request = before at hmove
  cases hmove with
  | refuse act p => exact h.setAuth (by simp)
  | expire id otpHash fingerprint =>
      have hext : s.db.Extends (s.db.updateSession id fun x => { x with status := .expired }) :=
        s.db.extends_updateSession _ (fun _ => rfl) (fun _ => ⟨rfl, rfl, fun hx => hx⟩)
      refine (h.tables hext ?_ ?_ ?_).setAuth (by simp)
      · refine Convention.backed_updateSession (fun _ => rfl) hext h.sessions ?_
        intro y _ hy
        exact hy.of_status (by decide)
      · intro other w _ hw
        exact hw.of_delegates hext rfl rfl
      · intro b hb hdecoy
        exact (h.ballots b hb hdecoy).mono hext
  | admits id otpHash fingerprint session hsession hstatus hintime hotp hdevice =>
      refine h.setAuth ?_
      intro id' devicePassed hp
      obtain ⟨rfl, rfl⟩ := AuthenticatePhase.admitted.inj hp
      have hnamed := hcond hphase session hsession hstatus hintime hotp
      obtain ⟨device, hmem, hmatch⟩ := List.any_eq_true.mp (hdevice hnamed)
      simp only [Bool.and_eq_true, decide_eq_true_eq] at hmatch
      exact ⟨decide_eq_true hnamed, session, hsession, device, hmem, hmatch.1.1⟩
  | pass id devicePassed ok =>
      cases ok with
      | false => exact h.setAuth (by simp)
      | true =>
          obtain ⟨rfl, x, hx, hdevice⟩ := h.admitted request id devicePassed hphase
          have hext : s.db.Extends (s.db.updateSession id fun x =>
              { x with status := .authenticated, biometricVerified := true, otpPassed := true, devicePassed := x.devicePassed || true }) := by
            refine s.db.extends_updateSession _ (fun _ => rfl) (fun y => ⟨rfl, rfl, ?_⟩)
            intro _
            rw [VotingSession.verified, Bool.or_true]
            rfl
          refine (h.tables hext ?_ ?_ ?_).setAuth (by simp)
          · refine Convention.backed_updateSession (fun _ => rfl) hext h.sessions ?_
            intro y hy hbacked
            obtain rfl := Option.some.inj (hx.symm.trans hy)
            refine ⟨hbacked.1, hbacked.2.1, fun _ => ⟨?_, hdevice⟩⟩
            rw [VotingSession.verified, Bool.or_true]
            rfl
          · intro other w _ hw
            exact hw.of_delegates hext rfl rfl
          · intro b hb hdecoy
            exact (h.ballots b hb hdecoy).mono hext

theorem tally_votersSound (custody : String → Option String) (s : Primaries) (request : Nat) (act : TallyAct)
    (h : s.VotersSound) :
    (s.tally custody request act).VotersSound := by
  rcases s.tally_cases custody request act with heq | ⟨p, db, hmove, heq⟩
  · rw [heq]
    exact h
  rw [heq]
  have hframe := hmove.frame
  have hext : s.db.Extends db := by
    generalize s.tallies request = before at hmove
    cases hmove with
    | total form votes abstentions spoiled ok =>
        cases ok with
        | false => exact .refl s.db
        | true =>
            rw [if_pos rfl, Convention.recordTotals]
            split
            · exact s.db.extends_updateRound _ (fun _ => rfl) (fun _ => rfl)
            · exact .refl s.db
    | markTallied form votes abstentions spoiled ok =>
        cases ok with
        | false => exact .refl s.db
        | true => exact .of_added List.prefix_rfl List.prefix_rfl List.prefix_rfl List.prefix_rfl
    | _ => exact .of_added List.prefix_rfl List.prefix_rfl List.prefix_rfl List.prefix_rfl
  have htables : Primaries.VotersSound { s with db := db } := by
    refine h.tables hext ?_ ?_ ?_
    · intro id x hx
      rw [hframe] at hx
      exact (h.sessions id x hx).mono hext
    · intro other w _ hw
      exact hw.of_delegates hext (by rw [hframe]) (by rw [hframe])
    · intro b hb hdecoy
      rcases hmove.ballots with hballots | ⟨roundId, hballots⟩
      · rw [hballots] at hb
        exact (h.ballots b hb hdecoy).mono hext
      · rw [hballots] at hb
        obtain ⟨b', hb', rfl⟩ := List.mem_map.mp hb
        -- the mark of a tally is nothing of the voter
        split at hdecoy
        case isTrue htallied =>
          rw [if_pos htallied]
          exact (h.ballots b' hb' hdecoy).mono hext
        case isFalse htallied =>
          rw [if_neg htallied]
          exact (h.ballots b' hb' hdecoy).mono hext
  exact ⟨htables.sessions, htables.admitted, htables.opened, htables.pending, htables.ballots⟩

theorem primariesStep_votersSound (custody : String → Option String) (s : Primaries) (act : PrimariesAct)
    (h : s.VotersSound) (hcond : VotersInOrder s act) : (s.step custody act).VotersSound := by
  cases act with
  | office act => exact office_votersSound h hcond
  | vote request act => exact vote_votersSound custody s request act h hcond
  | auth request act => exact auth_votersSound s request act h hcond
  | tally request act => exact tally_votersSound custody s request act h

end Steps

/-- In a run whose voters come in order every ballot is that of an accredited delegate of the election of its
round, and a remote one comes from a session that was verified and had not expired. -/
theorem eligibleBallots_of_votersInOrder (custody : String → Option String) (now : Nat) {acts : List PrimariesAct}
    (h : Runs.AllSteps (Primaries.step custody) VotersInOrder (.start now) acts) :
    ∀ s ∈ Runs.visited (Primaries.step custody) (.start now) acts, EligibleBallots s := by
  have hstart : (Primaries.start now).VotersSound := by
    refine ⟨?_, ?_, ?_, ?_, ?_⟩
    · intro _ _ hx
      cases hx
    · intro _ _ _ hadmitted
      cases hadmitted
    · intro _ _ hopened
      cases hopened
    · intro _ _ hpending
      cases hpending
    · intro _ hb
      cases hb
  intro s hs
  exact (Runs.forall_visited (primariesStep_votersSound custody) hstart h s hs).ballots

section Samples

/-- A delegate votes in person, and another from a session. -/
def votersInOrder : List PrimariesAct :=
  [.office (.addDelegate "del-2" 1 "party_1"), .office (.issueCredential "del-2" "party_1"),
    .office (.accreditDelegate "del-2" "party_1")] ++ samplePrimary ++ sampleRemote 0 "bal-1" ++
    [.vote 1 (.cast ⟨"rnd-1", "del-2", "asp-1", ""⟩), .vote 1 .check,
      .vote 1 (.encrypt (some ⟨"ciphertext", "ref-1", ""⟩)), .vote 1 (.insert "bal-2" true)]

theorem eligibleBallots_of_sample :
    (Runs.final (Primaries.step sampleCustody) (.start 0) votersInOrder).db.ballots.map
      (fun b => (b.delegateId, b.isRemote)) =
        [("del-1", true), ("del-2", false)] ∧
      ∀ s ∈ Runs.visited (Primaries.step sampleCustody) (.start 0) votersInOrder, EligibleBallots s := by
  refine ⟨by decide +kernel, eligibleBallots_of_votersInOrder sampleCustody 0 ?_⟩
  apply Runs.allSteps_of_getElem
  intro n hn
  have hn : n < 23 := hn
  interval_cases n
  case «11» =>
    intro _ x _ _ _ _
    decide
  case «14» =>
    intro v hv _
    have hlook : (Runs.final (Primaries.step sampleCustody) (.start 0) (votersInOrder.take 14)).votes 0 =
        .opened ⟨"rnd-1", "del-1", "for", .remote "vs-1" "ciphertext"⟩ := by
      decide +kernel
    obtain rfl := VotePhase.opened.inj (hlook.symm.trans hv)
    have hrows : ∀ d ∈ (Runs.final (Primaries.step sampleCustody) (.start 0)
      (votersInOrder.take 14)).db.delegate? "del-1",
        d.electionId = 1 ∧ d.accreditation = .accredited := by
      decide +kernel
    have hround : ∀ r ∈ (Runs.final (Primaries.step sampleCustody) (.start 0)
      (votersInOrder.take 14)).db.round? "rnd-1",
        r.electionId = 1 := by
      decide +kernel
    have hsession : ∀ x ∈ (Runs.final (Primaries.step sampleCustody) (.start 0)
      (votersInOrder.take 14)).db.session? "vs-1",
        (Runs.final (Primaries.step sampleCustody) (.start 0) (votersInOrder.take 14)).db.now ≤ x.expiresAt := by
      decide +kernel
    refine ⟨fun d r hd hr => (hrows d hd).1.trans (hround r hr).symm, ?_⟩
    intro id x d hid hx hd
    obtain rfl := Option.some.inj hid
    exact ⟨hsession x hx, (hrows d hd).2⟩
  case «20» =>
    intro v hv _
    have hlook : (Runs.final (Primaries.step sampleCustody) (.start 0) (votersInOrder.take 20)).votes 1 =
        .opened ⟨"rnd-1", "del-2", "for", .inPerson "asp-1"⟩ := by
      decide +kernel
    obtain rfl := VotePhase.opened.inj (hlook.symm.trans hv)
    have hrows : ∀ d ∈ (Runs.final (Primaries.step sampleCustody) (.start 0)
      (votersInOrder.take 20)).db.delegate? "del-2",
        ∀ r ∈ (Runs.final (Primaries.step sampleCustody) (.start 0) (votersInOrder.take 20)).db.round? "rnd-1",
          d.electionId = r.electionId := by
      decide +kernel
    refine ⟨fun d r hd hr => hrows d hd r hr, ?_⟩
    intro id x d hid _ _
    cases hid
  all_goals exact trivial

/-- A delegate of another election votes in person. -/
def otherElection : List PrimariesAct :=
  [.office (.addDelegate "del-1" 2 "party_1"), .office (.issueCredential "del-1" "party_1"),
    .office (.accreditDelegate "del-1" "party_1"), .office (.addDelegate "del-2" 1 "party_1"),
    .office (.issueCredential "del-2" "party_1"), .office (.accreditDelegate "del-2" "party_1"),
    .office (.createRound "rnd-1" 1 1 .secretBallot), .office (.openRound "rnd-1" "party_1")] ++
      sampleCast 0 "bal-1"

/-- The session is authenticated without a fingerprint. -/
def noFingerprint : List PrimariesAct :=
  samplePrimary.take 8 ++ [.auth 0 (.authenticate "vs-1" "otp-1" ""), .auth 0 (.biometric true true)] ++
    sampleRemote 0 "bal-1"

/-- The session has expired when the vote comes. -/
def expiredSession : List PrimariesAct := samplePrimary ++ [.office (.tick 601)] ++ sampleRemote 0 "bal-1"

/-- The accreditation is taken back before the vote comes. -/
def revokedDelegate : List PrimariesAct := samplePrimary ++ [.office (.revokeDelegate "del-1" "party_1")] ++
      sampleRemote 0 "bal-1"

theorem ballots_not_eligible :
    ¬(∀ s ∈ Runs.visited (Primaries.step sampleCustody) (.start 0) otherElection, EligibleBallots s) ∧
      ¬(∀ s ∈ Runs.visited (Primaries.step sampleCustody) (.start 0) noFingerprint, EligibleBallots s) ∧
      ¬(∀ s ∈ Runs.visited (Primaries.step sampleCustody) (.start 0) expiredSession, EligibleBallots s) ∧
      ¬∀ s ∈ Runs.visited (Primaries.step sampleCustody) (.start 0) revokedDelegate, EligibleBallots s := by
  have hlast : ∀ acts ∈ [otherElection, noFingerprint, expiredSession, revokedDelegate],
      ¬EligibleBallots (Runs.final (Primaries.step sampleCustody) (.start 0) acts) := by
    decide +kernel
  have hbroken : ∀ acts ∈ [otherElection, noFingerprint, expiredSession, revokedDelegate],
      ¬∀ s ∈ Runs.visited (Primaries.step sampleCustody) (.start 0) acts, EligibleBallots s := by
    intro acts hacts hall
    exact hlast acts hacts (hall _ (Runs.final_mem_visited _ _))
  exact ⟨hbroken _ (by simp), hbroken _ (by simp), hbroken _ (by simp), hbroken _ (by simp)⟩

end Samples

end Inec
