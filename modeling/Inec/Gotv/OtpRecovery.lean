import Inec.Gotv.MobileOtp

/-!
# The end of a lockout

What a phone can do once its lockout is over: HandleRequestOTP and then HandleVerifyOTP with the code that was
issued, with nothing in between. The fifth wrong code locks the row and leaves its attempts at five, where a
request does not touch them. So the password issued after the lockout is refused at the attempts, and only that
verification, which locks the row once more, sets them back.
-/

namespace Inec.MobileOtp

variable (hashOTP : String → String)

/-- When the statements of a request and of the verification behind it are run. The code is still valid. -/
structure Times where
  cooldown : Int
  window : Int
  issued : Int
  lock : Int
  compared : Int
  cooldown_le : cooldown ≤ window
  window_le : window ≤ issued
  issued_le : issued ≤ lock
  lock_le : lock ≤ compared
  valid : compared ≤ issued + 10 * minute

def Times.request (t : Times) (registered : Bool) (otp : String) : List Input :=
  [.requestOTP registered false, .checkCooldown t.cooldown false, .checkWindow t.window false,
    .issueOTP t.issued otp false]

/-- A verification that nothing comes in between of; the ones in flight stay where they are. -/
def Times.verification (t : Times) (s : State) (code : String) : List Input :=
  [.verifyOTP code false, .checkLock s.reading.length t.lock false, .compare s.unlocked.length t.compared false]

def State.requested (s : State) (t : Times) (registered : Bool) (otp : String) : State :=
  Runs.final (State.step hashOTP) s (t.request registered otp)

def State.verified (s : State) (t : Times) (code : String) : State :=
  Runs.final (State.step hashOTP) s (t.verification s code)

/-- Whenever the row is not locked any more and a password is issued, that password is accepted. -/
def State.Recovers (s : State) : Prop :=
  ∀ (registered : Bool) (otp : String) (t : Times), otp.utf8ByteSize = 6 →
    (∀ u ∈ s.user, u.locked t.cooldown = false) →
    (s.requested hashOTP t registered otp).issue = s.issue + 1 →
    ((s.requested hashOTP t registered otp).verified hashOTP t otp).compared =
      (s.requested hashOTP t registered otp).compared ++ [⟨(s.requested hashOTP t registered otp).issue, true⟩]

/-- Fewer wrong codes than lock the row were counted since it was cleared last. -/
def State.AttemptsLeft (s : State) : Prop := ∀ u ∈ s.user, u.otpAttempts < 5

variable {s s' : State} {t : Times} {registered : Bool} {otp : String}

/-! ### The request -/

/-- What a step of a request leaves alone before the last one. -/
structure SameRow (s s' : State) : Prop where
  user : s'.user = s.user
  reading : s'.reading = s.reading
  unlocked : s'.unlocked = s.unlocked
  compared : s'.compared = s.compared
  issue : s'.issue = s.issue

theorem SameRow.refl (s : State) : SameRow s s := ⟨rfl, rfl, rfl, rfl, rfl⟩

theorem SameRow.trans {s'' : State} (h : SameRow s s') (h' : SameRow s' s'') : SameRow s s'' :=
  ⟨h'.user.trans h.user, h'.reading.trans h.reading, h'.unlocked.trans h.unlocked, h'.compared.trans h.compared,
    h'.issue.trans h.issue⟩

theorem sameRow_requestOTP (s : State) (registered fails : Bool) :
    SameRow s (s.step hashOTP (.requestOTP registered fails)) := by
  rw [State.step]
  split <;> exact ⟨rfl, rfl, rfl, rfl, rfl⟩

theorem sameRow_checkCooldown (s : State) (now : Int) (fails : Bool) :
    SameRow s (s.step hashOTP (.checkCooldown now fails)) := by
  rw [State.step]
  split
  · exact SameRow.refl s
  · split <;> exact ⟨rfl, rfl, rfl, rfl, rfl⟩

theorem sameRow_checkWindow (s : State) (now : Int) (fails : Bool) :
    SameRow s (s.step hashOTP (.checkWindow now fails)) := by
  rw [State.step]
  split
  · exact SameRow.refl s
  · split <;> exact ⟨rfl, rfl, rfl, rfl, rfl⟩

/-- What a password that was issued leaves behind. -/
structure Issued (s s' : State) (now : Int) (otp : String) : Prop where
  user : s'.user = some (upsertOTP hashOTP s.user now otp)
  reading : s'.reading = s.reading
  unlocked : s'.unlocked = s.unlocked
  compared : s'.compared = s.compared

theorem issued_of_requested (h : (s.requested hashOTP t registered otp).issue = s.issue + 1) :
    Issued hashOTP s (s.requested hashOTP t registered otp) t.issued otp := by
  have hsame := ((sameRow_requestOTP hashOTP s registered false).trans
    (sameRow_checkCooldown hashOTP _ t.cooldown false)).trans (sameRow_checkWindow hashOTP _ t.window false)
  revert hsame h
  generalize hlast : ((s.step hashOTP (.requestOTP registered false)).step hashOTP
    (.checkCooldown t.cooldown false)).step hashOTP (.checkWindow t.window false) = last
  intro h hsame
  have hrequested : s.requested hashOTP t registered otp = last.step hashOTP (.issueOTP t.issued otp false) := by
    rw [← hlast]
    rfl
  rw [hrequested] at h ⊢
  simp only [State.step] at h ⊢
  by_cases hcounted : last.counted = 0
  · rw [if_pos hcounted, hsame.issue] at h
    omega
  · rw [if_neg hcounted, if_neg Bool.false_ne_true]
    exact ⟨by rw [← hsame.user], hsame.reading, hsame.unlocked, hsame.compared⟩

/-! ### The verification -/

/-- A reading goes on when the row is not locked, and is the last then. -/
theorem step_checkLock {front : List Reading} {r : Reading} {u : MobileUser} {now : Int} (huser : s.user = some u)
    (hlocked : u.locked now = false) (hreading : s.reading = front ++ [r]) :
    s.step hashOTP (.checkLock front.length now false) =
      { s with reading := front, unlocked := s.unlocked ++ [r] } := by
  have herase : s.reading.eraseIdx front.length = front := by
    rw [hreading]
    simp [List.eraseIdx_append_of_length_le]
  simp only [State.step]
  rw [herase, hreading, List.getElem?_concat_length]
  simp [huser, hlocked]

/-- The right code that has not expired is compared, or is refused at the attempts. -/
theorem compared_settle {r : Reading} {now : Int} (hcode : hashOTP r.code = r.otpCodeHash)
    (hvalid : now ≤ r.otpExpiresAt) : (s.settle hashOTP r now false).compared =
      if r.otpAttempts ≥ 5 then s.compared else s.compared ++ [⟨r.issue, true⟩] := by
  unfold State.settle
  by_cases hattempts : r.otpAttempts ≥ 5
  · rw [if_pos hattempts, if_pos hattempts]
    rfl
  · rw [if_neg hattempts, if_neg hattempts, if_neg (by omega), if_pos hcode]
    rfl

theorem compared_compare {front : List Reading} {r : Reading} {now : Int} (hunlocked : s.unlocked = front ++ [r])
    (hcode : hashOTP r.code = r.otpCodeHash) (hvalid : now ≤ r.otpExpiresAt) :
    (s.step hashOTP (.compare front.length now false)).compared =
      if r.otpAttempts ≥ 5 then s.compared else s.compared ++ [⟨r.issue, true⟩] := by
  simp only [State.step]
  rw [hunlocked, List.getElem?_concat_length]
  exact compared_settle hashOTP hcode hvalid

/-- Of a row that is not locked, with the right code that has not expired. -/
theorem compared_verified {u : MobileUser} {expiresAt : Int} (huser : s.user = some u)
    (hhash : u.otpCodeHash = some (hashOTP otp)) (hexpires : u.otpExpiresAt = some expiresAt)
    (hlength : otp.utf8ByteSize = 6) (hlocked : u.locked t.lock = false) (hvalid : t.compared ≤ expiresAt) :
    (s.verified hashOTP t otp).compared =
      if u.otpAttempts ≥ 5 then s.compared else s.compared ++ [⟨s.issue, true⟩] := by
  have hread : s.read otp = some ⟨otp, hashOTP otp, expiresAt, u.otpAttempts, s.issue, s.writes⟩ := by
    simp [State.read, huser, hhash, hexpires]
  have hverify : ∃ next, s.step hashOTP (.verifyOTP otp false) = next ∧ next.user = some u ∧
      next.reading = s.reading ++ [⟨otp, hashOTP otp, expiresAt, u.otpAttempts, s.issue, s.writes⟩] ∧
      next.unlocked = s.unlocked ∧ next.compared = s.compared := by
    refine ⟨_, rfl, ?_⟩
    rw [State.step, if_neg (by simp [hlength]), hread]
    exact ⟨huser, rfl, rfl, rfl⟩
  obtain ⟨next, hnext, huser', hreading, hunlocked, hcompared⟩ := hverify
  unfold State.verified Times.verification
  rw [Runs.final_cons, Runs.final_cons, Runs.final_cons, Runs.final_nil, hnext,
    step_checkLock hashOTP huser' hlocked hreading]
  have hlast : next.unlocked ++ [⟨otp, hashOTP otp, expiresAt, u.otpAttempts, s.issue, s.writes⟩] =
      s.unlocked ++ [⟨otp, hashOTP otp, expiresAt, u.otpAttempts, s.issue, s.writes⟩] := by
    rw [hunlocked]
  refine (compared_compare hashOTP hlast rfl hvalid).trans ?_
  show (if _ then next.compared else next.compared ++ _) = _
  rw [hcompared]

/-! ### After the lockout -/

/-- The row an issued password is on: it is locked no longer than before and has its attempts from before. -/
theorem upsertOTP_row (user : Option MobileUser) (now : Int) (otp : String) :
    (upsertOTP hashOTP user now otp).otpCodeHash = some (hashOTP otp) ∧
      (upsertOTP hashOTP user now otp).otpExpiresAt = some (now + 10 * minute) ∧
      (upsertOTP hashOTP user now otp).otpAttempts = (user.elim 0 (·.otpAttempts)) ∧
      (upsertOTP hashOTP user now otp).otpLockedUntil = user.bind (·.otpLockedUntil) := by
  cases user <;> exact ⟨rfl, rfl, rfl, rfl⟩

theorem locked_later {u : MobileUser} {now later : Int} (h : u.locked now = false) (hle : now ≤ later) :
    u.locked later = false := by
  unfold MobileUser.locked at h ⊢
  cases hlock : u.otpLockedUntil with
  | none => rfl
  | some time =>
      rw [hlock] at h
      have hpast : ¬now < time := by simpa using h
      have hstill : ¬later < time := by omega
      simpa using hstill

/-- An issued password is accepted exactly when there were attempts left. -/
theorem compared_recovered (hlength : otp.utf8ByteSize = 6) (hunlocked : ∀ u ∈ s.user, u.locked t.cooldown = false)
    (hissue : (s.requested hashOTP t registered otp).issue = s.issue + 1) :
    ((s.requested hashOTP t registered otp).verified hashOTP t otp).compared =
      if s.user.elim 0 (·.otpAttempts) ≥ 5 then (s.requested hashOTP t registered otp).compared
      else (s.requested hashOTP t registered otp).compared ++
        [⟨(s.requested hashOTP t registered otp).issue, true⟩] := by
  have hissued := issued_of_requested hashOTP hissue
  obtain ⟨hhash, hexpires, hattempts, hlock⟩ := upsertOTP_row hashOTP s.user t.issued otp
  have hlater : t.cooldown ≤ t.lock := by
    have h₁ := t.cooldown_le
    have h₂ := t.window_le
    have h₃ := t.issued_le
    omega
  have hfree : (upsertOTP hashOTP s.user t.issued otp).locked t.lock = false := by
    unfold MobileUser.locked
    rw [hlock]
    cases huser : s.user with
    | none => rfl
    | some u => exact locked_later (hunlocked u huser) hlater
  rw [compared_verified hashOTP hissued.user hhash hexpires hlength hfree t.valid, hattempts]

theorem recovers_of_attemptsLeft (h : s.AttemptsLeft) : s.Recovers hashOTP := by
  intro registered otp t hlength hunlocked hissue
  have hleft : ¬s.user.elim 0 (·.otpAttempts) ≥ 5 := by
    cases huser : s.user with
    | none => simp
    | some u => simpa using h u huser
  rw [compared_recovered hashOTP hlength hunlocked hissue, if_neg hleft]

/-! ### A late request -/

/-- A request at one time and a verification right behind it. -/
def Times.at (now : Int) : Times where
  cooldown := now
  window := now
  issued := now
  lock := now
  compared := now
  cooldown_le := Int.le_refl now
  window_le := Int.le_refl now
  issued_le := Int.le_refl now
  lock_le := Int.le_refl now
  valid := by
    unfold minute second
    omega

theorem exists_late (column : Option Int) (span : Int) :
    ∃ late, ∀ now ≥ late, column.any (fun time => decide (now - span < time)) = false := by
  cases column with
  | none => exact ⟨0, fun _ _ => rfl⟩
  | some time =>
      refine ⟨time + span, fun now hlate => ?_⟩
      have hpast : ¬now - span < time := by omega
      simpa using hpast

/-- Late enough a row is neither locked nor waiting, and its window is over. -/
theorem exists_free (u : MobileUser) :
    ∃ now, u.locked now = false ∧ u.cooling now = false ∧ u.windowActive now = false := by
  obtain ⟨lock, hlock⟩ := exists_late u.otpLockedUntil 0
  obtain ⟨sent, hsent⟩ := exists_late u.otpLastSentAt minute
  obtain ⟨window, hwindow⟩ := exists_late u.otpRequestWindowStart (60 * minute)
  refine ⟨max lock (max sent window), ?_, hsent _ (by omega), hwindow _ (by omega)⟩
  have hfree := hlock (max lock (max sent window)) (by omega)
  rw [Int.sub_zero] at hfree
  exact hfree

theorem issue_requested {u : MobileUser} {now : Int} (huser : s.user = some u) (hlocked : u.locked now = false)
    (hcooling : u.cooling now = false) (hwindow : u.windowActive now = false) :
    (s.requested hashOTP (.at now) registered otp).issue = s.issue + 1 := by
  have hrequest : s.step hashOTP (.requestOTP registered false) = { s with enrolled := s.enrolled + 1 } := by
    simp [State.step, huser]
  have hcooldown : ({ s with enrolled := s.enrolled + 1 } : State).step hashOTP (.checkCooldown now false) =
      { s with cooled := s.cooled + 1 } := by
    simp [State.step, huser, hlocked, hcooling]
  have hcheck : ({ s with cooled := s.cooled + 1 } : State).step hashOTP (.checkWindow now false) =
      { s with counted := s.counted + 1 } := by
    simp [State.step, huser, hwindow]
  unfold State.requested Times.request
  rw [Runs.final_cons, Runs.final_cons, Runs.final_cons, Runs.final_cons, Runs.final_nil, hrequest]
  show ((((_ : State).step hashOTP (.checkCooldown now false)).step hashOTP (.checkWindow now false)).step hashOTP
    (.issueOTP now otp false)).issue = _
  rw [hcooldown, hcheck]
  simp [State.step]

/-- Otherwise there is a time at which a password is issued and refused. -/
theorem attemptsLeft_of_recovers (h : s.Recovers hashOTP) : s.AttemptsLeft := by
  intro u huser
  by_contra hnone
  obtain ⟨now, hlocked, hcooling, hwindow⟩ := exists_free u
  have hlength : ("000000" : String).utf8ByteSize = 6 := by decide
  have hunlocked : ∀ u' ∈ s.user, u'.locked (Times.at now).cooldown = false := by
    intro u' huser'
    rw [huser] at huser'
    exact Option.some.inj huser' ▸ hlocked
  have hissue : (s.requested hashOTP (.at now) true "000000").issue = s.issue + 1 :=
    issue_requested hashOTP huser hlocked hcooling hwindow
  have haccepted := h true "000000" (.at now) hlength hunlocked hissue
  have hspent : s.user.elim 0 (·.otpAttempts) ≥ 5 := by
    rw [huser]
    exact Nat.le_of_not_lt hnone
  rw [compared_recovered hashOTP hlength hunlocked hissue, if_pos hspent] at haccepted
  simpa using congrArg List.length haccepted

/-- After every history the lockout ends exactly for a row with attempts left. -/
theorem recovers_iff_attemptsLeft (inputs : List Input) :
    (Runs.final (State.step hashOTP) start inputs).Recovers hashOTP ↔
      (Runs.final (State.step hashOTP) start inputs).AttemptsLeft :=
  ⟨attemptsLeft_of_recovers hashOTP, recovers_of_attemptsLeft hashOTP⟩

/-- A password and five wrong codes. -/
def fiveWrongCodes : List Input :=
  issueInTurn "123456" 0 ++ verifyInTurn "000001" 1 ++ verifyInTurn "000002" 2 ++ verifyInTurn "000003" 3 ++
    verifyInTurn "000004" 4 ++ verifyInTurn "000005" 5

/-- Sixteen minutes later the row is not locked, a password is issued, and it is not accepted. -/
theorem lockout_goes_on : ¬ ∀ hashOTP inputs, (Runs.final (State.step hashOTP) start inputs).Recovers hashOTP := by
  intro h
  have haccepted := h id fiveWrongCodes true "654321" (.at (16 * minute)) (by decide) (by decide +kernel)
    (by decide +kernel)
  revert haccepted
  decide +kernel

end Inec.MobileOtp
