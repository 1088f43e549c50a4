import Inec.Lib.Runs
import Mathlib.Data.List.Count

/-!
# One-time passwords of the mobile app

HandleRequestOTP and HandleVerifyOTP of internal/gotv/mobile_auth.go, for one phone and party: one row of
`gotv_mobile_users`. Every statement of a request is a step of its own. A verification reads the hash and the
attempts of the row first, looks at the lockout, compares, and then counts a failure or clears the row, so that
what it compares with may no longer be what the row has. Each failure it counts is counted in SQL, and the fifth
takes the hash away.

`hashOTP` is the keyed hash under the secret of the service.

The requests in flight are counted by how far they are; a verification carries what it has read. `fails` is a
statement the database refuses. The handlers look at no error of the statements behind the first.
-/

namespace Inec.MobileOtp

variable (hashOTP : String → String)

def second : Int := 1000000

def minute : Int := 60 * second

/-- The columns of the one-time password. -/
structure MobileUser where
  otpCodeHash : Option String
  otpExpiresAt : Option Int
  otpAttempts : Nat
  otpLockedUntil : Option Int
  otpLastSentAt : Option Int
  otpRequestCount : Nat
  otpRequestWindowStart : Option Int
  deriving DecidableEq, Repr

/-- What a verification has read, with the number of the password that was in force and of the writes to the row
before it. -/
structure Reading where
  code : String
  otpCodeHash : String
  otpExpiresAt : Int
  otpAttempts : Nat
  issue : Nat
  writes : Nat
  deriving DecidableEq, Repr

/-- A code compared with the password of that number. -/
structure Comparison where
  issue : Nat
  right : Bool
  deriving DecidableEq, Repr

structure State where
  user : Option MobileUser
  /-- Requests for a password, by the check they have passed last. -/
  enrolled : Nat
  cooled : Nat
  counted : Nat
  /-- Verifications that have read the row, and those that have found it not locked. -/
  reading : List Reading
  unlocked : List Reading
  /-- How many passwords were issued, and how often the row was written. -/
  issue : Nat
  writes : Nat
  compared : List Comparison
  deriving DecidableEq, Repr

inductive Input
  | requestOTP (registered : Bool) (fails : Bool)
  | checkCooldown (now : Int) (fails : Bool)
  | checkWindow (now : Int) (fails : Bool)
  | issueOTP (now : Int) (otp : String) (fails : Bool)
  | verifyOTP (code : String) (fails : Bool)
  | checkLock (index : Nat) (now : Int) (fails : Bool)
  | compare (index : Nat) (now : Int) (fails : Bool)
  deriving DecidableEq, Repr

def start : State := ⟨none, 0, 0, 0, [], [], 0, 0, []⟩

/-! ### Requests for a password -/

/-- `otp_locked_until IS NOT NULL AND otp_locked_until > NOW()`. -/
def MobileUser.locked (u : MobileUser) (now : Int) : Bool := u.otpLockedUntil.any fun t => decide (now < t)

def MobileUser.cooling (u : MobileUser) (now : Int) : Bool := u.otpLastSentAt.any fun t => decide (now - minute < t)

def MobileUser.windowActive (u : MobileUser) (now : Int) : Bool :=
  u.otpRequestWindowStart.any fun t => decide (now - 60 * minute < t)

/-- The CASE of the upsert: the window is NULL or over. -/
def MobileUser.windowOver (u : MobileUser) (now : Int) : Bool :=
  u.otpRequestWindowStart.all fun t => decide (t < now - 60 * minute)

/-- The row that the INSERT writes, and what its DO UPDATE makes of the row that is there. -/
def upsertOTP (user : Option MobileUser) (now : Int) (otp : String) : MobileUser :=
  match user with
  | none => ⟨some (hashOTP otp), some (now + 10 * minute), 0, none, some now, 1, some now⟩
  | some u =>
      { u with
        otpCodeHash := some (hashOTP otp)
        otpExpiresAt := some (now + 10 * minute)
        otpLastSentAt := some now
        otpRequestCount := if u.windowOver now then 1 else u.otpRequestCount + 1
        otpRequestWindowStart := if u.windowOver now then some now else u.otpRequestWindowStart }

/-! ### Verifications -/

/-- The UPDATE once five attempts were read. -/
def MobileUser.lockOut (u : MobileUser) (now : Int) : MobileUser :=
  { u with otpLockedUntil := some (now + 15 * minute), otpAttempts := 0, otpCodeHash := none, otpExpiresAt := none }

/-- The UPDATE behind a wrong code. -/
def MobileUser.recordFailure (u : MobileUser) (now : Int) : MobileUser :=
  if u.otpAttempts + 1 ≥ 5 then
    { u with otpAttempts := u.otpAttempts + 1, otpLockedUntil := some (now + 15 * minute), otpCodeHash := none,
             otpExpiresAt := none }
  else { u with otpAttempts := u.otpAttempts + 1 }

/-- The UPDATE behind the right code, but for the token and the times of the login. -/
def MobileUser.clear (u : MobileUser) : MobileUser :=
  { u with otpCodeHash := none, otpExpiresAt := none, otpAttempts := 0, otpLockedUntil := none }

/-- What a verification reads; a column that is NULL does not scan. -/
def State.read (s : State) (code : String) : Option Reading := do
  let u ← s.user
  let hash ← u.otpCodeHash
  let expiresAt ← u.otpExpiresAt
  return ⟨code, hash, expiresAt, u.otpAttempts, s.issue, s.writes⟩

def State.update (s : State) (f : MobileUser → MobileUser) (fails : Bool) : State :=
  if fails then s else { s with user := s.user.map f, writes := s.writes + 1 }

def State.compare (s : State) (issue : Nat) (right : Bool) : State :=
  { s with compared := s.compared ++ [⟨issue, right⟩] }

/-- HandleVerifyOTP from the attempts on. -/
def State.settle (s : State) (r : Reading) (now : Int) (fails : Bool) : State :=
  if r.otpAttempts ≥ 5 then s.update (·.lockOut now) fails
  else if r.otpExpiresAt < now then s
  else if hashOTP r.code = r.otpCodeHash then (s.compare r.issue true).update (·.clear) fails
  else (s.compare r.issue false).update (·.recordFailure now) fails

def State.step (s : State) : Input → State
  | .requestOTP registered fails =>
      if fails = false ∧ (s.user.isSome = true ∨ registered = true) then
        { s with enrolled := s.enrolled + 1 } else s
  | .checkCooldown now fails =>
      if s.enrolled = 0 then s
      else if !fails && s.user.any (fun u => u.locked now || u.cooling now) then
        { s with enrolled := s.enrolled - 1 }
      else { s with enrolled := s.enrolled - 1, cooled := s.cooled + 1 }
  | .checkWindow now fails =>
      if s.cooled = 0 then s
      else if !fails && s.user.any (fun u => u.windowActive now && decide (u.otpRequestCount ≥ 5)) then
        { s with cooled := s.cooled - 1 }
      else { s with cooled := s.cooled - 1, counted := s.counted + 1 }
  | .issueOTP now otp fails =>
      if s.counted = 0 then s
      else if fails then { s with counted := s.counted - 1 }
      else { s with counted := s.counted - 1, user := some (upsertOTP hashOTP s.user now otp),
                    issue := s.issue + 1, writes := s.writes + 1 }
  | .verifyOTP code fails =>
      if fails = true ∨ code.utf8ByteSize ≠ 6 then s
      else { s with reading := s.reading ++ (s.read code).toList }
  | .checkLock index now fails =>
      match s.reading[index]? with
      | some r =>
          if !fails && s.user.any (fun u => u.locked now) then { s with reading := s.reading.eraseIdx index }
          else { s with reading := s.reading.eraseIdx index, unlocked := s.unlocked ++ [r] }
      | none => s
  | .compare index now fails =>
      match s.unlocked[index]? with
      | some r => ({ s with unlocked := s.unlocked.eraseIdx index } : State).settle hashOTP r now fails
      | none => s

/-! ### What is asked -/

/-- At most five wrong codes compared with a password, and at most one right one. -/
def State.Bounded (s : State) : Prop :=
  ∀ issue, s.compared.count ⟨issue, false⟩ ≤ 5 ∧ s.compared.count ⟨issue, true⟩ ≤ 1

/-- A verification that gets as far as comparing finds the row as it has read it, and its update is written. -/
def State.Careful (s : State) : Input → Prop
  | .compare index now fails =>
      ∀ r ∈ s.unlocked[index]?, r.otpAttempts < 5 → now ≤ r.otpExpiresAt → r.writes = s.writes ∧ fails = false
  | _ => True

instance (s : State) : (i : Input) → Decidable (s.Careful i)
  | .compare index now fails =>
      inferInstanceAs (Decidable (∀ r ∈ s.unlocked[index]?, r.otpAttempts < 5 → now ≤ r.otpExpiresAt →
        r.writes = s.writes ∧ fails = false))
  | .requestOTP .. | .checkCooldown .. | .checkWindow .. | .issueOTP .. | .verifyOTP .. | .checkLock .. =>
      .isTrue trivial

/-! ### What the row knows -/

/-- What is known of a reading: it is of now if the row has not been written since. -/
structure Reading.Of (s : State) (r : Reading) : Prop where
  writes : r.writes ≤ s.writes
  fresh : r.writes = s.writes → r.issue = s.issue ∧
    ∃ u, s.user = some u ∧ u.otpCodeHash = some r.otpCodeHash ∧ u.otpAttempts = r.otpAttempts

/-- While a password is in force the attempts of the row count at least the wrong codes compared with it. -/
structure State.Inv (s : State) : Prop where
  reading : ∀ r ∈ s.reading ++ s.unlocked, r.Of s
  issued : ∀ c ∈ s.compared, c.issue ≤ s.issue
  bounded : s.Bounded
  inForce : ∀ u, s.user = some u → u.otpCodeHash ≠ none →
    s.compared.count ⟨s.issue, false⟩ ≤ u.otpAttempts ∧ s.compared.count ⟨s.issue, true⟩ = 0

variable {s s' : State}

theorem Reading.Of.of_eq {r : Reading} (h : r.Of s) (huser : s'.user = s.user) (hissue : s'.issue = s.issue)
    (hwrites : s'.writes = s.writes) : r.Of s' := by
  refine ⟨hwrites ▸ h.writes, fun heq => ?_⟩
  rw [huser, hissue]
  exact h.fresh (heq.trans hwrites)

/-- Once the row is written nothing is said of the readings. -/
theorem Reading.Of.written {r : Reading} (h : r.Of s) (hwrites : s'.writes = s.writes + 1) : r.Of s' := by
  have hle := h.writes
  exact ⟨by omega, fun heq => by omega⟩

theorem Reading.of_read {code : String} {r : Reading} (h : s.read code = some r) : r.Of s := by
  simp only [State.read, Option.bind_eq_bind, Option.bind_eq_some_iff, Option.pure_def, Option.some.injEq] at h
  obtain ⟨u, huser, hash, hhash, expiresAt, -, rfl⟩ := h
  exact ⟨Nat.le_refl _, fun _ => ⟨rfl, u, huser, hhash, rfl⟩⟩

/-- A step that leaves the row alone. -/
theorem State.Inv.of_eq (h : s.Inv) (huser : s'.user = s.user) (hissue : s'.issue = s.issue)
    (hwrites : s'.writes = s.writes) (hcompared : s'.compared = s.compared)
    (hreading : ∀ r ∈ s'.reading ++ s'.unlocked, r ∈ s.reading ++ s.unlocked ∨ r.Of s) : s'.Inv := by
  refine ⟨?_, ?_, ?_, ?_⟩
  · intro r hr
    rcases hreading r hr with hold | hof
    · exact (h.reading r hold).of_eq huser hissue hwrites
    · exact hof.of_eq huser hissue hwrites
  · rw [hcompared, hissue]
    exact h.issued
  · rw [State.Bounded, hcompared]
    exact h.bounded
  · rw [huser, hcompared, hissue]
    exact h.inForce

/-- The row as it is written with no password in force. -/
theorem State.Inv.of_closed (h : s.Inv) (hwrites : s'.writes = s.writes + 1) (hissue : s'.issue = s.issue)
    (hreading : ∀ r ∈ s'.reading ++ s'.unlocked, r ∈ s.reading ++ s.unlocked)
    (hcompared : ∀ c ∈ s'.compared, c.issue ≤ s.issue) (hbounded : s'.Bounded)
    (hclosed : ∀ u, s'.user = some u → u.otpCodeHash = none) : s'.Inv where
  reading r hr := (h.reading r (hreading r hr)).written hwrites
  issued := hissue ▸ hcompared
  bounded := hbounded
  inForce u hu hforce := absurd (hclosed u hu) hforce

theorem start_inv : start.Inv := by
  refine ⟨nofun, nofun, ?_, nofun⟩
  intro issue
  exact ⟨Nat.zero_le _, Nat.zero_le _⟩

/-- A new password has not been compared with anything. -/
theorem State.Inv.issueOTP (h : s.Inv) {now : Int} {otp : String} :
    State.Inv { s with counted := s.counted - 1, user := some (upsertOTP hashOTP s.user now otp),
                       issue := s.issue + 1, writes := s.writes + 1 } where
  reading r hr := (h.reading r hr).written rfl
  issued c hc := Nat.le_succ_of_le (h.issued c hc)
  bounded := h.bounded
  inForce u hu hforce := by
    have hnone : ∀ right, s.compared.count ⟨s.issue + 1, right⟩ = 0 := by
      intro right
      rw [List.count_eq_zero]
      intro hc
      have hle : s.issue + 1 ≤ s.issue := h.issued _ hc
      omega
    exact ⟨by rw [hnone]; exact Nat.zero_le _, hnone true⟩

/-! ### A comparison -/

theorem State.count_compare {issue : Nat} {right : Bool} {c : Comparison} :
    (s.compare issue right).compared.count c = s.compared.count c + if c = ⟨issue, right⟩ then 1 else 0 := by
  rw [compare, List.count_append, List.count_singleton]
  simp only [beq_iff_eq, @eq_comm _ c]

/-- One code more is compared with the password in force. -/
theorem State.Bounded.compare (h : s.Bounded) {issue : Nat} {right : Bool}
    (hwrong : right = false → s.compared.count ⟨issue, false⟩ < 5)
    (hright : right = true → s.compared.count ⟨issue, true⟩ = 0) : (s.compare issue right).Bounded := by
  intro other
  obtain ⟨hle, hone⟩ := h other
  rw [count_compare, count_compare]
  constructor
  · split
    case isTrue heq =>
      obtain ⟨rfl, rfl⟩ := Comparison.mk.inj heq
      exact hwrong rfl
    case isFalse => exact hle
  · split
    case isTrue heq =>
      obtain ⟨rfl, rfl⟩ := Comparison.mk.inj heq
      have hnone := hright rfl
      omega
    case isFalse => exact hone

/-- A verification that finds the row as it has read it, and writes it. -/
theorem State.Inv.settle (h : s.Inv) {r : Reading} (hof : r.Of s) {now : Int} {fails : Bool}
    (hcond : r.otpAttempts < 5 → now ≤ r.otpExpiresAt → r.writes = s.writes ∧ fails = false) :
    (s.settle hashOTP r now fails).Inv := by
  rw [State.settle]
  split
  case isTrue =>
    rw [State.update]
    split
    · exact h
    · refine h.of_closed rfl rfl (fun r hr => hr) h.issued h.bounded ?_
      intro u hu
      obtain ⟨u₀, -, rfl⟩ := Option.map_eq_some_iff.mp hu
      rfl
  case isFalse hattempts =>
    split
    case isTrue => exact h
    case isFalse hexpiry =>
      obtain ⟨hwrites, rfl⟩ := hcond (Nat.lt_of_not_le hattempts) (Int.not_lt.mp hexpiry)
      obtain ⟨hissue, u, huser, hhash, hsame⟩ := hof.fresh hwrites
      obtain ⟨hwrong, hright⟩ := h.inForce u huser (by rw [hhash]; exact Option.some_ne_none _)
      have hissued : ∀ right, ∀ c ∈ (s.compare r.issue right).compared, c.issue ≤ s.issue := by
        intro right c hc
        rcases List.mem_append.mp hc with hc | hc
        · exact h.issued c hc
        · obtain rfl := List.mem_singleton.mp hc
          exact Nat.le_of_eq hissue
      split
      case isTrue =>
        refine h.of_closed rfl rfl (fun r hr => hr) (hissued true) ?_ ?_
        · exact h.bounded.compare nofun fun _ => hissue ▸ hright
        · intro u' hu'
          obtain ⟨u₀, -, rfl⟩ := Option.map_eq_some_iff.mp hu'
          rfl
      case isFalse =>
        have hbounded : (s.compare r.issue false).Bounded := by
          refine h.bounded.compare (fun _ => ?_) nofun
          rw [hissue]
          omega
        refine ⟨fun r hr => (h.reading r hr).written rfl, hissued false, hbounded, ?_⟩
        intro u' hu' hforce
        have hfailed : u' = u.recordFailure now := by
          rw [State.update, if_neg Bool.false_ne_true] at hu'
          have hmap : s.user.map (·.recordFailure now) = some u' := hu'
          rw [huser, Option.map_some, Option.some.injEq] at hmap
          exact hmap.symm
        subst hfailed
        show (s.compare r.issue false).compared.count ⟨s.issue, false⟩ ≤ _ ∧
          (s.compare r.issue false).compared.count ⟨s.issue, true⟩ = 0
        rw [State.count_compare, State.count_compare, hissue, if_pos rfl, if_neg (by simp)]
        refine ⟨?_, hright⟩
        rw [MobileUser.recordFailure]
        split <;> exact Nat.succ_le_succ hwrong

theorem State.Inv.step (h : s.Inv) {i : Input} (hi : s.Careful i) : (s.step hashOTP i).Inv := by
  have hsame : ∀ s' : State, s'.user = s.user → s'.issue = s.issue → s'.writes = s.writes →
      s'.compared = s.compared → s'.reading = s.reading → s'.unlocked = s.unlocked → s'.Inv := by
    intro s' huser hissue hwrites hcompared hreading hunlocked
    exact h.of_eq huser hissue hwrites hcompared fun r hr => .inl (by rwa [hreading, hunlocked] at hr)
  cases i with
  | requestOTP registered fails =>
      rw [State.step]
      split <;> exact hsame _ rfl rfl rfl rfl rfl rfl
  | checkCooldown now fails =>
      rw [State.step]
      split
      · exact h
      split <;> exact hsame _ rfl rfl rfl rfl rfl rfl
  | checkWindow now fails =>
      rw [State.step]
      split
      · exact h
      split <;> exact hsame _ rfl rfl rfl rfl rfl rfl
  | issueOTP now otp fails =>
      rw [State.step]
      split
      · exact h
      split
      · exact hsame _ rfl rfl rfl rfl rfl rfl
      · exact h.issueOTP hashOTP
  | verifyOTP code fails =>
      rw [State.step]
      split
      · exact h
      refine h.of_eq rfl rfl rfl rfl fun r hr => ?_
      rcases List.mem_append.mp hr with hr | hr
      · rcases List.mem_append.mp hr with hr | hr
        · exact .inl (List.mem_append_left _ hr)
        · exact .inr (Reading.of_read (Option.mem_toList.mp hr))
      · exact .inl (List.mem_append_right _ hr)
  | checkLock index now fails =>
      rw [State.step]
      split
      case h_1 r hr =>
        have herase : ∀ q ∈ s.reading.eraseIdx index, q ∈ s.reading := fun q => List.mem_of_mem_eraseIdx
        split
        · refine h.of_eq rfl rfl rfl rfl fun q hq => .inl ?_
          exact List.mem_append.mpr ((List.mem_append.mp hq).imp (herase q) id)
        · refine h.of_eq rfl rfl rfl rfl fun q hq => .inl ?_
          rcases List.mem_append.mp hq with hq | hq
          · exact List.mem_append_left _ (herase q hq)
          · rcases List.mem_append.mp hq with hq | hq
            · exact List.mem_append_right _ hq
            · obtain rfl := List.mem_singleton.mp hq
              exact List.mem_append_left _ (List.mem_of_getElem? hr)
      case h_2 => exact h
  | compare index now fails =>
      rw [State.step]
      split
      case h_1 r hr =>
        have hof : r.Of s := h.reading r (List.mem_append_right _ (List.mem_of_getElem? hr))
        have hinv : State.Inv { s with unlocked := s.unlocked.eraseIdx index } := by
          refine h.of_eq rfl rfl rfl rfl fun q hq => .inl ?_
          exact List.mem_append.mpr ((List.mem_append.mp hq).imp id List.mem_of_mem_eraseIdx)
        exact hinv.settle hashOTP (hof.of_eq rfl rfl rfl) fun hattempts hexpiry => hi r hr hattempts hexpiry
      case h_2 => exact h

/-! ### The bound -/

/-- The bound holds along every run in which no comparison is made on a row written since, and none goes
uncounted. -/
theorem bounded_of_careful (inputs : List Input)
    (hcareful : Runs.AllSteps (State.step hashOTP) State.Careful start inputs) :
    ∀ s ∈ Runs.visited (State.step hashOTP) start inputs, s.Bounded := by
  have hinv : ∀ s ∈ Runs.visited (State.step hashOTP) start inputs, s.Inv :=
    Runs.forall_visited (fun _ _ h hi => h.step hashOTP hi) start_inv hcareful
  exact fun s hs => (hinv s hs).bounded

def verifyInTurn (code : String) (now : Int) : List Input :=
  [.verifyOTP code false, .checkLock 0 now false, .compare 0 now false]

def issueInTurn (otp : String) (now : Int) : List Input :=
  [.requestOTP true false, .checkCooldown now false, .checkWindow now false, .issueOTP now otp false]

/-- A password, a wrong code and the right one, one request after the other, and the right one once more. -/
def oneByOne : List Input :=
  issueInTurn "123456" 0 ++ verifyInTurn "000000" 1 ++ verifyInTurn "123456" 2 ++ verifyInTurn "123456" 3

theorem bounded_oneByOne :
    Runs.AllSteps (State.step id) State.Careful start oneByOne ∧
      ∀ s ∈ Runs.visited (State.step id) start oneByOne, s.Bounded := by
  have hcareful : Runs.AllSteps (State.step id) State.Careful start oneByOne := by decide +kernel
  exact ⟨hcareful, bounded_of_careful id oneByOne hcareful⟩

/-- Two verifications of the right code, both of which read the row before either clears it. -/
def sideBySideVerifications : List Input :=
  issueInTurn "123456" 0 ++ [.verifyOTP "123456" false, .verifyOTP "123456" false, .checkLock 0 1 false,
    .checkLock 0 1 false, .compare 0 2 false, .compare 0 2 false]

/-- Both are answered with a token. -/
theorem verified_twice :
    ¬ ∀ hashOTP inputs, ∀ s ∈ Runs.visited (State.step hashOTP) start inputs, s.Bounded := by
  intro h
  have hone := (h id sideBySideVerifications _ (Runs.final_mem_visited _ _) 1).2
  have htwice : (Runs.final (State.step id) start sideBySideVerifications).compared.count ⟨1, true⟩ = 2 := by
    decide +kernel
  omega

end Inec.MobileOtp
