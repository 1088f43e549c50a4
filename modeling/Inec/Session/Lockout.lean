import Inec.Lib.Runs

/-!
# Login lockout

`Login` of internal/auth/service.go counts the failed password checks of an account in
`users.failed_login_attempts` and locks the account when the count comes to MaxLoginAttempts. `Authenticate`
checks the password of the same row and does neither, and it is the one that the login of cmd/auth-svc calls,
followed by `IssueTokens`.

A request is handled at one instant, counted in microseconds, the precision in which the database keeps
`locked_until`; a LockoutDuration is counted in nanoseconds. `compare` is bcrypt.
-/

namespace Inec.Lockout

structure Config where
  maxLoginAttempts : Int
  /-- In nanoseconds. -/
  lockoutDuration : Int
  deriving DecidableEq, Repr

/-- `DefaultConfig`. -/
def defaultConfig : Config := ⟨5, 15 * 60 * 1000000000⟩

def Config.lockAfter (cfg : Config) : Int := if cfg.maxLoginAttempts ≤ 0 then 5 else cfg.maxLoginAttempts

/-- `int(LockoutDuration / time.Second)`, which drops a part of a second. -/
def Config.lockSecs (cfg : Config) : Int :=
  let secs := cfg.lockoutDuration.tdiv 1000000000
  if secs ≤ 0 then 900 else secs

/-- The columns of `users` that the two functions read and write. -/
structure Account where
  passwordHash : String
  isActive : Int
  loginCount : Int
  failedLoginAttempts : Int
  lockedUntil : Option Int
  deriving DecidableEq, Repr

inductive EntryPoint
  | login
  | authenticate
  deriving DecidableEq, Repr

/-- A request that names the account. -/
structure Request where
  entry : EntryPoint
  password : String
  now : Int
  readFails : Bool
  /-- The update behind the password check fails. -/
  writeFails : Bool
  /-- What is left between the password and the tokens succeeds. -/
  issues : Bool
  deriving DecidableEq, Repr

inductive Answer
  | refused (message : String)
  /-- "account is temporarily locked until …" -/
  | locked (lockedUntil : Int)
  | wrong (message : String)
  /-- "account locked for … after … failed login attempts" -/
  | wrongAndLocked (lockAfter : Int)
  | notIssued (message : String)
  | issued
  deriving DecidableEq, Repr

namespace Answer

/-- The password was compared, and not right. -/
def failed : Answer → Bool
  | wrong _ | wrongAndLocked _ => true
  | _ => false

def compared : Answer → Bool
  | refused _ | locked _ => false
  | _ => true

end Answer

/-! ### The two entry points -/

section Entry

variable (cfg : Config) (compare : String → String → Bool)

def Account.lockedAt (a : Account) (now : Int) : Bool :=
  a.lockedUntil.any fun lockedUntil => decide (now < lockedUntil)

/-- The UPDATE behind a failed check. -/
def Account.recordFailure (a : Account) (now : Int) : Account :=
  if a.failedLoginAttempts + 1 ≥ cfg.lockAfter then
    { a with failedLoginAttempts := 0, lockedUntil := some (now + cfg.lockSecs * 1000000) }
  else { a with failedLoginAttempts := a.failedLoginAttempts + 1 }

/-- The UPDATE behind a check that succeeds. -/
def Account.recordSuccess (a : Account) : Account :=
  { a with loginCount := a.loginCount + 1, failedLoginAttempts := 0, lockedUntil := none }

def login (a : Account) (r : Request) : Account × Answer :=
  if r.password = "" then (a, .refused "username and password are required")
  else if r.readFails then (a, .refused "database error")
  else if a.isActive ≠ 1 then (a, .refused "account is disabled")
  else if a.lockedAt r.now then (a, .locked (a.lockedUntil.getD 0))
  else if compare a.passwordHash r.password then
    if r.writeFails then (a, .notIssued "authentication service error")
    else (a.recordSuccess, if r.issues then .issued else .notIssued "token generation failed")
  else if r.writeFails then (a, .wrong "authentication service error")
  else (a.recordFailure cfg r.now,
    if a.failedLoginAttempts +
      1 ≥ cfg.lockAfter then .wrongAndLocked cfg.lockAfter else .wrong "invalid credentials")

/-- `Authenticate`, and `IssueTokens` where it succeeds. -/
def authenticate (a : Account) (r : Request) : Answer :=
  if r.readFails then .refused "invalid credentials"
  else if a.isActive ≠ 1 then .refused "account is disabled"
  else if compare a.passwordHash r.password then
    if r.issues then .issued else .notIssued "token generation failed"
  else .wrong "invalid credentials"

def handle (a : Account) (r : Request) : Account × Answer :=
  match r.entry with
  | .login => login cfg compare a r
  | .authenticate => (a, authenticate compare a r)

end Entry

/-! ### What is asked -/

/-- The account, with the number of its failed checks in a row and the last one of a row that was full. -/
structure State where
  account : Account
  failures : Int
  lastFailure : Option Int
  deriving DecidableEq, Repr

variable (cfg : Config) (compare : String → String → Bool)

/-- An account as it is registered. -/
def start (passwordHash : String) : State := ⟨⟨passwordHash, 1, 0, 0, none⟩, 0, none⟩

/-- A lockout begins with the last of MaxLoginAttempts failed checks in a row, and a new row after it. -/
def State.count (s : State) (now : Int) (answer : Answer) : State :=
  if answer.failed then
    if s.failures + 1 ≥ cfg.lockAfter then { s with failures := 0, lastFailure := some now }
    else { s with failures := s.failures + 1 }
  else if answer.compared then { s with failures := 0, lastFailure := none }
  else s

def State.step (s : State) (r : Request) : State :=
  let (account, answer) := handle cfg compare s.account r
  { s.count cfg r.now answer with account := account }

/-- LockoutDuration has not passed since the last of the failed checks. -/
def State.LockedOut (s : State) (now : Int) : Prop :=
  ∃ last ∈ s.lastFailure, now * 1000 < last * 1000 + cfg.lockoutDuration

/-- While the account is locked out no password is compared and no login succeeds. -/
def State.Kept (s : State) (r : Request) : Prop :=
  s.LockedOut cfg r.now →
    (handle cfg compare s.account r).2.compared = false ∧ (handle cfg compare s.account r).2 ≠ .issued

/-- The request comes through `Login` and its update is written, or it is refused before the password. -/
def State.Careful (s : State) (r : Request) : Prop :=
  (r.entry = .login ∧ r.writeFails = false) ∨ r.readFails = true ∨ s.account.isActive ≠ 1

instance (s : State) (r : Request) : Decidable (s.Careful r) := inferInstanceAs (Decidable (_ ∨ _ ∨ _))

/-- `int(LockoutDuration / time.Second)` drops nothing, or is replaced by the fifteen minutes. -/
def Config.WholeSeconds (cfg : Config) : Prop :=
  cfg.lockoutDuration < 1000000000 ∨ 1000000000 ∣ cfg.lockoutDuration

/-! ### The counter of the row is the number of failed checks -/

structure State.Inv (s : State) : Prop where
  counted : s.account.failedLoginAttempts = s.failures
  locked : ∀ last ∈ s.lastFailure, ∃ lockedUntil ∈ s.account.lockedUntil,
    last * 1000 + cfg.lockoutDuration ≤ lockedUntil * 1000

variable {cfg compare} {s : State} {r : Request}

theorem Config.WholeSeconds.le (h : cfg.WholeSeconds) : cfg.lockoutDuration ≤ cfg.lockSecs * 1000000000 := by
  rw [Config.lockSecs]
  rcases h with h | ⟨secs, hsecs⟩
  · have hsecs : cfg.lockoutDuration.tdiv 1000000000 ≤ 0 := by
      rcases Int.lt_or_le cfg.lockoutDuration 0 with hneg | hpos
      · have hnonneg := Int.tdiv_nonneg (show 0 ≤ -cfg.lockoutDuration by omega)
          (show (0 : Int) ≤ 1000000000 by decide)
        rw [Int.neg_tdiv] at hnonneg
        omega
      · rw [Int.tdiv_eq_ediv_of_nonneg hpos]
        omega
    rw [if_pos hsecs]
    omega
  · rw [hsecs, Int.mul_tdiv_cancel_left _ (by decide)]
    split <;> omega

/-! The count by the answer. -/

theorem State.count_eq_self {answer : Answer} {now : Int} (hcompared : answer.compared = false)
    (hfailed : answer.failed = false) : s.count cfg now answer = s := by
  simp [State.count, hcompared, hfailed]

theorem State.count_of_right {answer : Answer} {now : Int} (hcompared : answer.compared = true)
    (hfailed : answer.failed = false) :
    s.count cfg now answer = { s with failures := 0, lastFailure := none } := by
  simp [State.count, hcompared, hfailed]

theorem State.count_of_wrong {answer : Answer} {now : Int} (hfailed : answer.failed = true) :
    s.count cfg now answer =
      if s.failures + 1 ≥ cfg.lockAfter then { s with failures := 0, lastFailure := some now }
      else { s with failures := s.failures + 1 } := by
  simp [State.count, hfailed]

theorem State.step_eq : s.step cfg compare r =
    { s.count cfg r.now (handle cfg compare s.account r).2 with account := (handle cfg compare s.account r).1 } := rfl

theorem start_inv (passwordHash : String) : (start passwordHash).Inv cfg := ⟨rfl, nofun⟩

/-- What the account is locked out by keeps it locked. -/
theorem State.Inv.lockedAt (h : s.Inv cfg) {now : Int} (hout : s.LockedOut cfg now) :
    s.account.lockedAt now = true := by
  obtain ⟨last, hlast, hnow⟩ := hout
  obtain ⟨lockedUntil, hlocked, hle⟩ := h.locked last hlast
  rw [Option.mem_def] at hlocked
  rw [Account.lockedAt, hlocked, Option.any_some, decide_eq_true_iff]
  omega

/-- What a request comes to. -/
inductive Comes (cfg : Config) (compare : String → String → Bool) (s : State) (r : Request) :
    Account × Answer → Prop
  | refused (answer : Answer) (hcompared : answer.compared = false) (hfailed : answer.failed = false) :
      Comes cfg compare s r (s.account, answer)
  | right (answer : Answer) (hfree : s.account.lockedAt r.now = false) (hcompared : answer.compared = true)
      (hfailed : answer.failed = false) : Comes cfg compare s r (s.account.recordSuccess, answer)
  | wrong (answer : Answer) (hfree : s.account.lockedAt r.now = false) (hcompared : answer.compared = true)
      (hfailed : answer.failed = true) : Comes cfg compare s r (s.account.recordFailure cfg r.now, answer)

theorem comes_login (hwrite : r.writeFails = false) : Comes cfg compare s r (login cfg compare s.account r) := by
  rw [login, hwrite]
  split
  · exact .refused _ rfl rfl
  split
  · exact .refused _ rfl rfl
  split
  · exact .refused _ rfl rfl
  split
  · exact .refused _ rfl rfl
  rename_i hlocked
  rw [Bool.not_eq_true] at hlocked
  split
  · exact .right _ hlocked (by cases r.issues <;> rfl) (by cases r.issues <;> rfl)
  · refine .wrong _ hlocked ?_ ?_ <;> split <;> rfl

theorem comes_handle (h : s.Careful r) : Comes cfg compare s r (handle cfg compare s.account r) := by
  rw [handle]
  split
  case h_1 hentry =>
    by_cases hwrite : r.writeFails = false
    · exact comes_login hwrite
    · rcases h with ⟨_, hw⟩ | hread | hactive
      · exact absurd hw hwrite
      · rw [login, if_pos hread]
        split <;> exact .refused _ rfl rfl
      · rw [login, if_pos hactive]
        split
        · exact .refused _ rfl rfl
        split <;> exact .refused _ rfl rfl
  case h_2 hentry =>
    rcases h with ⟨hlogin, _⟩ | hread | hactive
    · rw [hentry] at hlogin
      exact absurd hlogin (by decide)
    · rw [authenticate, if_pos hread]
      exact .refused _ rfl rfl
    · rw [authenticate, if_pos hactive]
      split <;> exact .refused _ rfl rfl

theorem State.Inv.step (hsecs : cfg.WholeSeconds) (h : s.Inv cfg) (hr : s.Careful r) :
    (s.step cfg compare r).Inv cfg := by
  have hcomes : Comes cfg compare s r (handle cfg compare s.account r) := comes_handle hr
  rw [State.step_eq]
  generalize handle cfg compare s.account r = result at hcomes
  cases hcomes with
  | refused answer hcompared hfailed =>
      rw [State.count_eq_self hcompared hfailed]
      exact ⟨h.counted, h.locked⟩
  | right answer hfree hcompared hfailed =>
      rw [State.count_of_right hcompared hfailed]
      exact ⟨rfl, nofun⟩
  | wrong answer hfree hcompared hfailed =>
      rw [State.count_of_wrong hfailed, Account.recordFailure, h.counted]
      by_cases hfull : s.failures + 1 ≥ cfg.lockAfter
      · rw [if_pos hfull, if_pos hfull]
        refine ⟨rfl, ?_⟩
        rintro last ⟨⟩
        have hle := hsecs.le
        refine ⟨_, rfl, ?_⟩
        omega
      · rw [if_neg hfull, if_neg hfull]
        exact ⟨rfl, h.locked⟩

/-- While the row locks the account nothing is compared. -/
theorem State.Inv.kept (h : s.Inv cfg) (hr : s.Careful r) : s.Kept cfg compare r := by
  intro hout
  have hlocked := h.lockedAt hout
  have hcomes : Comes cfg compare s r (handle cfg compare s.account r) := comes_handle hr
  generalize handle cfg compare s.account r = result at hcomes ⊢
  cases hcomes with
  | refused answer hcompared hfailed =>
      refine ⟨hcompared, ?_⟩
      rintro rfl
      exact absurd hcompared (by decide)
  | right answer hfree => rw [hlocked] at hfree; cases hfree
  | wrong answer hfree => rw [hlocked] at hfree; cases hfree

/-! ### The lockout -/

/-- The account is locked out in every run whose requests come through `Login` and whose updates are written. -/
theorem lockout_kept_of_careful (hsecs : cfg.WholeSeconds) (passwordHash : String) (requests : List Request)
    (hcareful : Runs.AllSteps (State.step cfg compare) State.Careful (start passwordHash) requests) :
    Runs.AllSteps (State.step cfg compare) (State.Kept cfg compare) (start passwordHash) requests := by
  have hstep : ∀ (s : State) (r : Request), s.Inv cfg → s.Careful r → (s.step cfg compare r).Inv cfg :=
    fun _ _ h hr => h.step hsecs hr
  exact Runs.AllSteps.imp_of_inv hstep (fun _ _ h hr => h.kept hr) (start_inv passwordHash) hcareful

def request (entry : EntryPoint) (password : String) (now : Int) : Request :=
  ⟨entry, password, now, false, false, true⟩

/-- Five wrong passwords, the right one while the account is locked, and the right one fifteen minutes later. -/
def throughLogin : List Request :=
  [request .login "a" 1, request .login "b" 2, request .login "c" 3, request .login "d" 4, request .login "e" 5,
    request .login "secret" 6, request .login "secret" 900000005]

theorem kept_throughLogin :
    Runs.AllSteps (State.step defaultConfig (· == ·)) State.Careful (start "secret") throughLogin ∧
      Runs.AllSteps (State.step defaultConfig (· == ·)) (State.Kept defaultConfig (· == ·)) (start "secret")
        throughLogin := by
  have hcareful : Runs.AllSteps (State.step defaultConfig (· == ·)) State.Careful
      (start "secret") throughLogin := by
    decide +kernel
  exact ⟨hcareful, lockout_kept_of_careful (.inr (by decide)) "secret" throughLogin hcareful⟩

/-- The same passwords as the login of the service checks them. -/
def throughAuthenticate : List Request :=
  [request .authenticate "a" 1, request .authenticate "b" 2, request .authenticate "c" 3,
    request .authenticate "d" 4, request .authenticate "e" 5]

/-- The account is locked out, and the next login of the service is issued its tokens. -/
theorem issued_while_lockedOut :
    ¬ ∀ cfg compare passwordHash requests, Config.WholeSeconds cfg →
      Runs.AllSteps (State.step cfg compare) (State.Kept cfg compare) (start passwordHash) requests := by
  intro h
  have hrun := h defaultConfig (· == ·) "secret" (throughAuthenticate ++ [request .authenticate "secret" 6])
    (.inr (by decide))
  have hkept := hrun.last
  have hlast : (Runs.final (State.step defaultConfig (· == ·)) (start "secret") throughAuthenticate).lastFailure =
      some 5 := by
    decide +kernel
  have hissued : (handle defaultConfig (· == ·)
      (Runs.final (State.step defaultConfig (· == ·)) (start "secret") throughAuthenticate).account
      (request .authenticate "secret" 6)).2 = .issued := by
    decide +kernel
  exact (hkept ⟨5, hlast, by decide⟩).2 hissued

end Inec.Lockout
