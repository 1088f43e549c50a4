import Inec.Lib.PaddedNumber
import Inec.Lib.Rows
import Inec.Lib.Runs

/-!
# Second factors

The MFA service of internal/auth/mfa.go, its handlers, and the two logins: handleLogin of the monolith and `login`
of cmd/auth-svc. VerifyTOTP enables the row of `user_mfa` that SetupTOTP has written. SetupTOTP asks for no code and
writes the row anew, not verified and not enabled. The login of the auth service asks `IsMFARequired` and takes an
error for a no. The login of the monolith asks another table, `mfa_totp`, which none of these operations writes, for
a column `is_active`, which no migration gives it.

All of it is about one user. `credentials` tells whether the password check of a login succeeds, and a flag that
ends in `Fails` is a statement the database refuses.
-/

namespace Inec.Mfa

/-! ### Codes -/

/-- What the code takes from the standard library. -/
structure Primitives where
  /-- HMAC with SHA-1, on key and message: twenty bytes. -/
  hmacSha1 : List UInt8 → List UInt8 → List UInt8
  /-- `base32.StdEncoding.WithPadding(base32.NoPadding).DecodeString`. -/
  decodeBase32 : String → Option (List UInt8)
  /-- SHA-256, then base64. -/
  codeHash : String → String
  toUpper : String → String

variable (p : Primitives)

/-- `binary.BigEndian.PutUint64`. -/
def bigEndian (counter : UInt64) : List UInt8 :=
  ([56, 48, 40, 32, 24, 16, 8, 0] : List UInt64).map fun shift => (counter >>> shift).toUInt8

def generateTOTP (secret : String) (counter : UInt64) : String :=
  match p.decodeBase32 (p.toUpper secret) with
  | none => ""
  | some key =>
      let hash := p.hmacSha1 key (bigEndian counter)
      let offset := (hash.getLastD 0).toNat % 16
      let code := ((hash.drop offset).take 4).foldl (fun n b => n * 256 + b.toNat) 0 % 2 ^ 31
      String.ofList (PaddedNumber.padded 6 (code % 10 ^ 6))

/-- The step of the clock and the ones before and after it; `now` is `Time.Unix`. -/
def validateCode (secret code : String) (now : Nat) : Bool :=
  let counter : UInt64 := .ofNat (now / 30)
  [counter - 1, counter, counter + 1].any fun counter => generateTOTP p secret counter == code

/-! ### Tables -/

/-- The row of `user_mfa` with the method totp. -/
structure TotpRow where
  secret : String
  verified : Bool
  enabled : Bool
  deriving DecidableEq, Repr

/-- The row of `user_mfa` with the method webauthn. -/
structure WebAuthnRow where
  verified : Bool
  enabled : Bool
  deriving DecidableEq, Repr

structure BackupCode where
  id : Nat
  codeHash : String
  used : Bool
  deriving DecidableEq, Repr

structure State where
  totp : Option TotpRow
  webauthn : Option WebAuthnRow
  codes : List BackupCode
  nextId : Nat
  /-- The secret that VerifyTOTP has enabled and DisableTOTP has not disabled since. -/
  enrolled : Option String
  /-- The backup codes that were accepted, by id. -/
  accepted : List Nat
  deriving DecidableEq, Repr

inductive Input
  | setup (secret : String) (codes : List String) (storeFails deleteFails : Bool) (inserted : Nat)
  | verify (code : String) (now : Nat) (readFails writeFails : Bool)
  | disable (code : String) (now : Nat) (readFails writeFails disableFails : Bool)
  | backupCodes (code : String) (now : Nat) (codes : List String) (readFails writeFails deleteFails : Bool)
      (inserted : Nat)
  | webAuthnBegin (fails : Bool)
  | webAuthnComplete (credentialFails rowFails : Bool)
  | monolithLogin (credentials : Bool) (code : String) (now : Nat) (existsFails secretFails : Bool)
  | serviceLogin (credentials : Bool) (code : String) (now : Nat)
      (requiredFails enabledFails readFails useFails : Bool)
  deriving DecidableEq, Repr

def start : State := ⟨none, none, [], 0, none, []⟩

/-! ### The service -/

/-- `generateBackupCodes`: the error of the DELETE is not looked at, and `inserted` of the INSERTs succeed. -/
def State.generateBackupCodes (s : State) (codes : List String) (deleteFails : Bool) (inserted : Nat) : State :=
  let added := (codes.take inserted).mapIdx fun i code => ⟨s.nextId + i, p.codeHash code, false⟩
  { s with codes := (if deleteFails then s.codes else []) ++ added, nextId := s.nextId + added.length }

def State.setupTOTP (s : State) (secret : String) (codes : List String) (storeFails deleteFails : Bool)
    (inserted : Nat) : State :=
  if storeFails then s
  else ({ s with totp := some ⟨secret, false, false⟩ } : State).generateBackupCodes p codes deleteFails inserted

/-- The answer of VerifyTOTP, `none` for an error, and what it leaves. -/
def State.verifyTOTP (s : State) (code : String) (now : Nat) (readFails writeFails : Bool) : State × Option Bool :=
  match s.totp with
  | none => (s, none)
  | some row =>
      if readFails then (s, none)
      else if validateCode p row.secret code now then
        if row.verified then (s, some true)
        else if writeFails then (s, none)
        else ({ s with totp := some { row with verified := true, enabled := true }, enrolled := some row.secret },
          some true)
      else (s, some false)

def State.disableTOTP (s : State) : State :=
  { s with totp := s.totp.map fun row => { row with enabled := false }, enrolled := none }

/-- The rows that the UPDATE of useBackupCode finds. -/
def State.unused (s : State) (code : String) : List BackupCode :=
  s.codes.filter fun c => c.codeHash == p.codeHash (p.toUpper code) && !c.used

def State.useBackupCode (s : State) (code : String) (useFails : Bool) : State × Option Bool :=
  if useFails then (s, none)
  else
    ({ s with
        codes := s.codes.map fun c => if c ∈ s.unused p code then { c with used := true } else c
        accepted := s.accepted ++ (s.unused p code).map (·.id) },
      some !(s.unused p code).isEmpty)

def State.validateLogin (s : State) (code : String) (now : Nat) (enabledFails readFails useFails : Bool) :
    State × Option Bool :=
  if enabledFails then (s, none)
  else
    match s.totp.filter (·.verified) with
    | none => (s, some true)
    | some row =>
        if row.enabled then
          if code.utf8ByteSize = 10 then s.useBackupCode p code useFails
          else s.verifyTOTP p code now readFails false
        else (s, some true)

/-- `IsMFARequired`, and `false` where its query fails, as the login has it. -/
def State.mfaRequired (s : State) (requiredFails : Bool) : Bool :=
  !requiredFails &&
    (s.totp.any (fun row => row.verified && row.enabled) || s.webauthn.any fun row => row.verified && row.enabled)

/-! ### The logins -/

/-- `login` of cmd/auth-svc: what it leaves, and whether it answers with tokens. -/
def State.serviceLogin (s : State) (credentials : Bool) (code : String) (now : Nat)
    (requiredFails enabledFails readFails useFails : Bool) : State × Bool :=
  if !credentials then (s, false)
  else if s.mfaRequired requiredFails then
    if code = "" then (s, false)
    else
      let (s', valid) := s.validateLogin p code now enabledFails readFails useFails
      (s', valid == some true)
  else (s, true)

/-- handleLogin. `active` is what `mfa_totp` has for the user with `is_active=1`, and `none` where the table has no
such column, as it is after the migrations. -/
def monolithLogin (active : Option (List String)) (credentials : Bool) (code : String) (now : Nat)
    (existsFails secretFails : Bool) : Bool :=
  match active with
  | none => false
  | some [] => credentials && !existsFails
  | some (secret :: _) =>
      credentials && !existsFails && code != "" && !secretFails && validateCode p secret code now

def State.step (s : State) : Input → State
  | .setup secret codes storeFails deleteFails inserted =>
      s.setupTOTP p secret codes storeFails deleteFails inserted
  | .verify code now readFails writeFails => (s.verifyTOTP p code now readFails writeFails).1
  | .disable code now readFails writeFails disableFails =>
      if code = "" then s
      else
        let (s', valid) := s.verifyTOTP p code now readFails writeFails
        if valid = some true ∧ disableFails = false then s'.disableTOTP else s'
  | .backupCodes code now codes readFails writeFails deleteFails inserted =>
      if code = "" then s
      else
        let (s', valid) := s.verifyTOTP p code now readFails writeFails
        if valid = some true then s'.generateBackupCodes p codes deleteFails inserted else s'
  | .webAuthnBegin fails => if fails then s else { s with webauthn := s.webauthn <|> some ⟨false, false⟩ }
  | .webAuthnComplete credentialFails rowFails =>
      if credentialFails || rowFails then s else { s with webauthn := some ⟨true, true⟩ }
  | .monolithLogin .. => s
  | .serviceLogin credentials code now requiredFails enabledFails readFails useFails =>
      (s.serviceLogin p credentials code now requiredFails enabledFails readFails useFails).1

/-! ### What is asked -/

/-- The code is valid for the secret, or an unused backup code. -/
def State.Proven (s : State) (secret code : String) (now : Nat) : Prop :=
  validateCode p secret code now = true ∨ code.utf8ByteSize = 10 ∧ s.unused p code ≠ []

/-- A login that answers with tokens while TOTP is enabled has been given a second factor. -/
def State.Kept (active : Option (List String)) (s : State) : Input → Prop
  | .monolithLogin credentials code now existsFails secretFails =>
      monolithLogin p active credentials code now existsFails secretFails = true →
        ∀ secret ∈ s.enrolled, s.Proven p secret code now
  | .serviceLogin credentials code now requiredFails enabledFails readFails useFails =>
      (s.serviceLogin p credentials code now requiredFails enabledFails readFails useFails).2 = true →
        ∀ secret ∈ s.enrolled, s.Proven p secret code now
  | _ => True

/-- No backup code was accepted twice. -/
def State.Once (s : State) : Prop := s.accepted.Nodup

/-- `mfa_totp` cannot be asked, or its secret for the user does not let the code pass. -/
def monolithRefuses (active : Option (List String)) (code : String) (now : Nat) (secretFails : Bool) : Prop :=
  match active with
  | none => True
  | some [] => False
  | some (secret :: _) => code = "" ∨ secretFails = true ∨ validateCode p secret code now = false

/-- The lookup of the auth service answers, and the row is the one that was enabled; or a WebAuthn credential makes
it ask for a code and the login ends there. -/
def State.Asks (s : State) (secret code : String) (requiredFails enabledFails : Bool) : Prop :=
  requiredFails = false ∧
    (s.totp = some ⟨secret, true, true⟩ ∨
      s.webauthn.any (fun row => row.verified && row.enabled) = true ∧ (code = "" ∨ enabledFails = true))

def State.Careful (active : Option (List String)) (s : State) : Input → Prop
  | .monolithLogin credentials code now existsFails secretFails =>
      credentials = true → existsFails = false →
        ∀ secret ∈ s.enrolled, s.Proven p secret code now ∨ monolithRefuses p active code now secretFails
  | .serviceLogin credentials code now requiredFails enabledFails _ _ =>
      credentials = true →
        ∀ secret ∈ s.enrolled, s.Proven p secret code now ∨ s.Asks secret code requiredFails enabledFails
  | _ => True

instance (active : Option (List String)) (code : String) (now : Nat) (secretFails : Bool) :
    Decidable (monolithRefuses p active code now secretFails) :=
  match active with
  | none => .isTrue trivial
  | some [] => .isFalse id
  | some (secret :: _) =>
      inferInstanceAs (Decidable (code = "" ∨ secretFails = true ∨ validateCode p secret code now = false))

instance (s : State) (secret code : String) (now : Nat) : Decidable (s.Proven p secret code now) :=
  inferInstanceAs (Decidable (_ ∨ _ ∧ _))

instance (s : State) (secret code : String) (requiredFails enabledFails : Bool) :
    Decidable (s.Asks secret code requiredFails enabledFails) :=
  inferInstanceAs (Decidable (_ ∧ (_ ∨ _ ∧ _)))

instance (active : Option (List String)) (s : State) : (i : Input) → Decidable (s.Careful p active i)
  | .monolithLogin credentials code now existsFails secretFails =>
      inferInstanceAs (Decidable (credentials = true → existsFails = false →
        ∀ secret ∈ s.enrolled, s.Proven p secret code now ∨ monolithRefuses p active code now secretFails))
  | .serviceLogin credentials code now requiredFails enabledFails _ _ =>
      inferInstanceAs (Decidable (credentials = true →
        ∀ secret ∈ s.enrolled, s.Proven p secret code now ∨ s.Asks secret code requiredFails enabledFails))
  | .setup .. | .verify .. | .disable .. | .backupCodes .. | .webAuthnBegin .. | .webAuthnComplete .. =>
      .isTrue trivial

/-! ### The row and the backup codes -/

/-- The row of an enrolled user is the one that was enabled, or one that was set up again. -/
structure State.Inv (s : State) : Prop where
  ids : (s.codes.map (·.id)).Nodup
  below : ∀ id ∈ s.codes.map (·.id) ++ s.accepted, id < s.nextId
  spent : ∀ c ∈ s.codes, c.id ∈ s.accepted → c.used = true
  once : s.Once
  row : ∀ secret ∈ s.enrolled, s.totp = some ⟨secret, true, true⟩ ∨ ∃ other, s.totp = some ⟨other, false, false⟩

variable {p} {s s' : State} {active : Option (List String)}

theorem start_inv : start.Inv := ⟨.nil, nofun, nofun, .nil, nofun⟩

/-- What leaves the backup codes alone. -/
theorem State.Inv.of_row (h : s.Inv) (hcodes : s'.codes = s.codes) (hnext : s'.nextId = s.nextId)
    (haccepted : s'.accepted = s.accepted)
    (hrow : ∀ secret ∈ s'.enrolled, s'.totp = some ⟨secret, true, true⟩ ∨
      ∃ other, s'.totp = some ⟨other, false, false⟩) : s'.Inv where
  ids := hcodes ▸ h.ids
  below := by rw [hcodes, haccepted, hnext]; exact h.below
  spent := by rw [hcodes, haccepted]; exact h.spent
  once := by rw [State.Once, haccepted]; exact h.once
  row := hrow

/-- VerifyTOTP leaves everything as it is, or enables the row. -/
theorem verifyTOTP_cases (code : String) (now : Nat) (readFails writeFails : Bool) :
    (s.verifyTOTP p code now readFails writeFails).1 = s ∨
      ∃ row, s.totp = some row ∧ (s.verifyTOTP p code now readFails writeFails).1 =
        { s with totp := some ⟨row.secret, true, true⟩, enrolled := some row.secret } := by
  rw [State.verifyTOTP]
  split
  case h_1 => exact .inl rfl
  case h_2 row hrow =>
    split
    · exact .inl rfl
    split
    · split
      · exact .inl rfl
      split
      · exact .inl rfl
      · exact .inr ⟨row, hrow, rfl⟩
    · exact .inl rfl

theorem State.Inv.verifyTOTP (h : s.Inv) (code : String) (now : Nat) (readFails writeFails : Bool) :
    (s.verifyTOTP p code now readFails writeFails).1.Inv := by
  rcases verifyTOTP_cases (p := p) (s := s) code now readFails writeFails with heq | ⟨row, -, heq⟩
  · rw [heq]
    exact h
  · rw [heq]
    refine h.of_row rfl rfl rfl ?_
    rintro secret ⟨⟩
    exact .inl rfl

theorem State.Inv.disableTOTP (h : s.Inv) : s.disableTOTP.Inv := h.of_row rfl rfl rfl nofun

/-- New codes get ids that have not been given before. -/
theorem State.Inv.generateBackupCodes (h : s.Inv) (codes : List String) (deleteFails : Bool) (inserted : Nat) :
    (s.generateBackupCodes p codes deleteFails inserted).Inv := by
  have hnew : ∀ (texts : List String) (start : Nat),
      (texts.mapIdx fun i code => BackupCode.mk (start + i) (p.codeHash code) false).map (·.id) =
        List.range' start texts.length := by
    intro texts
    induction texts with
    | nil => exact fun _ => rfl
    | cons code rest ih =>
        intro start
        rw [List.mapIdx_cons, List.map_cons, List.length_cons, List.range'_succ, ← ih (start + 1)]
        simp only [Nat.add_zero, Nat.add_assoc, Nat.add_comm 1]
  have hkept : ((if deleteFails then s.codes else []).map (·.id)).Sublist (s.codes.map (·.id)) := by
    split
    · exact List.Sublist.refl _
    · exact List.nil_sublist _
  have hids : (s.generateBackupCodes p codes deleteFails inserted).codes.map (·.id) =
      (if deleteFails then s.codes else []).map (·.id) ++ List.range' s.nextId (codes.take inserted).length := by
    rw [State.generateBackupCodes, List.map_append, hnew]
  have hnext : (s.generateBackupCodes p codes deleteFails inserted).nextId =
      s.nextId + (codes.take inserted).length := by
    rw [State.generateBackupCodes, List.length_mapIdx]
  have hbelow : ∀ id ∈ s.codes.map (·.id), id < s.nextId := fun id hid => h.below id (List.mem_append_left _ hid)
  refine ⟨?_, ?_, ?_, h.once, h.row⟩
  · rw [hids, List.nodup_append]
    refine ⟨h.ids.sublist hkept, List.nodup_range', ?_⟩
    rintro id hold _ hnew rfl
    have hlt := hbelow id (hkept.subset hold)
    rw [List.mem_range'_1] at hnew
    omega
  · intro id hid
    rw [hnext]
    rw [hids, List.append_assoc] at hid
    rcases List.mem_append.mp hid with hid | hid
    · exact Nat.lt_add_right _ (hbelow id (hkept.subset hid))
    rcases List.mem_append.mp hid with hid | hid
    · exact (List.mem_range'_1.mp hid).2
    · exact Nat.lt_add_right _ (h.below id (List.mem_append_right _ hid))
  · intro c hc haccepted
    rcases List.mem_append.mp hc with hold | hadded
    · split at hold
      · exact h.spent c hold haccepted
      · cases hold
    · have hid : c.id ∈ List.range' s.nextId (codes.take inserted).length := by
        rw [← hnew]
        exact List.mem_map_of_mem hadded
      have hlt := h.below c.id (List.mem_append_right _ haccepted)
      rw [List.mem_range'_1] at hid
      omega

/-- The code that is accepted was unused and is used from then on. -/
theorem State.Inv.useBackupCode (h : s.Inv) (code : String) (useFails : Bool) :
    (s.useBackupCode p code useFails).1.Inv := by
  rw [State.useBackupCode]
  split
  case isTrue => exact h
  case isFalse =>
    have hids : (s.codes.map fun c => if c ∈ s.unused p code then { c with used := true } else c).map (·.id) =
        s.codes.map (·.id) := by
      rw [List.map_map]
      refine List.map_congr_left fun c _ => ?_
      rw [Function.comp_apply]
      split <;> rfl
    have hunused : ∀ c ∈ s.unused p code, c ∈ s.codes ∧ c.used = false := by
      intro c hc
      obtain ⟨hmem, hboth⟩ := List.mem_filter.mp hc
      rw [Bool.and_eq_true, Bool.not_eq_true'] at hboth
      exact ⟨hmem, hboth.2⟩
    refine ⟨hids ▸ h.ids, ?_, ?_, ?_, h.row⟩
    · intro id hid
      rw [← List.append_assoc, hids] at hid
      rcases List.mem_append.mp hid with hid | hid
      · exact h.below id hid
      · obtain ⟨c, hc, rfl⟩ := List.mem_map.mp hid
        exact h.below _ (List.mem_append_left _ (List.mem_map_of_mem (hunused c hc).1))
    · intro c hc haccepted
      obtain ⟨c₀, hc₀, rfl⟩ := List.mem_map.mp hc
      split
      · rfl
      · rename_i hnot
        rw [if_neg hnot] at haccepted
        rcases List.mem_append.mp haccepted with hold | hnew
        · exact h.spent c₀ hc₀ hold
        · obtain ⟨c₁, hc₁, heq⟩ := List.mem_map.mp hnew
          have hsame := Rows.eq_of_key_eq h.ids (hunused c₁ hc₁).1 hc₀ heq
          exact absurd (hsame ▸ hc₁) hnot
    · rw [State.Once, List.nodup_append]
      refine ⟨h.once, h.ids.sublist (List.filter_sublist.map _), ?_⟩
      rintro id hold _ hnew rfl
      obtain ⟨c, hc, rfl⟩ := List.mem_map.mp hnew
      obtain ⟨hmem, hfree⟩ := hunused c hc
      rw [h.spent c hmem hold] at hfree
      cases hfree

theorem State.Inv.setupTOTP (h : s.Inv) (secret : String) (codes : List String) (storeFails deleteFails : Bool)
    (inserted : Nat) : (s.setupTOTP p secret codes storeFails deleteFails inserted).Inv := by
  rw [State.setupTOTP]
  split
  · exact h
  · have hrow : State.Inv { s with totp := some ⟨secret, false, false⟩ } :=
      h.of_row rfl rfl rfl fun _ _ => .inr ⟨secret, rfl⟩
    exact hrow.generateBackupCodes codes deleteFails inserted

theorem State.Inv.validateLogin (h : s.Inv) (code : String) (now : Nat) (enabledFails readFails useFails : Bool) :
    (s.validateLogin p code now enabledFails readFails useFails).1.Inv := by
  rw [State.validateLogin]
  split
  · exact h
  split
  · exact h
  · split
    · split
      · exact h.useBackupCode code useFails
      · exact h.verifyTOTP code now readFails false
    · exact h

theorem State.Inv.step (h : s.Inv) (i : Input) : (s.step p i).Inv := by
  cases i with
  | setup secret codes storeFails deleteFails inserted =>
      exact h.setupTOTP secret codes storeFails deleteFails inserted
  | verify code now readFails writeFails => exact h.verifyTOTP code now readFails writeFails
  | disable code now readFails writeFails disableFails =>
      have hverified := h.verifyTOTP (p := p) code now readFails writeFails
      rw [State.step]
      split
      · exact h
      dsimp only
      split
      · exact hverified.disableTOTP
      · exact hverified
  | backupCodes code now codes readFails writeFails deleteFails inserted =>
      have hverified := h.verifyTOTP (p := p) code now readFails writeFails
      rw [State.step]
      split
      · exact h
      dsimp only
      split
      · exact hverified.generateBackupCodes codes deleteFails inserted
      · exact hverified
  | webAuthnBegin fails =>
      rw [State.step]
      split
      · exact h
      · exact h.of_row rfl rfl rfl h.row
  | webAuthnComplete credentialFails rowFails =>
      rw [State.step]
      split
      · exact h
      · exact h.of_row rfl rfl rfl h.row
  | monolithLogin credentials code now existsFails secretFails => exact h
  | serviceLogin credentials code now requiredFails enabledFails readFails useFails =>
      rw [State.step, State.serviceLogin]
      split
      · exact h
      split
      · split
        · exact h
        · exact h.validateLogin code now enabledFails readFails useFails
      · exact h

/-! ### The two logins -/

theorem monolithLogin_eq_true_iff {credentials : Bool} {code : String} {now : Nat}
    {existsFails secretFails : Bool} :
    monolithLogin p active credentials code now existsFails secretFails = true ↔
      credentials = true ∧ existsFails = false ∧ ¬ monolithRefuses p active code now secretFails := by
  rcases active with _ | _ | ⟨secret, rest⟩
  · simp [monolithLogin, monolithRefuses]
  · simp [monolithLogin, monolithRefuses]
  · simp [monolithLogin, monolithRefuses, and_assoc]

/-- The answer of a verification that leaves the flags alone. -/
theorem verifyTOTP_eq_some_true {row : TotpRow} (hrow : s.totp = some row) {code : String} {now : Nat}
    {readFails writeFails : Bool} (h : (s.verifyTOTP p code now readFails writeFails).2 = some true) :
    validateCode p row.secret code now = true := by
  rw [State.verifyTOTP, hrow] at h
  dsimp only at h
  split at h
  · cases h
  split at h
  case isTrue hvalid => exact hvalid
  case isFalse => cases h

theorem useBackupCode_eq_some_true {code : String} {useFails : Bool}
    (h : (s.useBackupCode p code useFails).2 = some true) : s.unused p code ≠ [] := by
  rw [State.useBackupCode] at h
  split at h
  · cases h
  · intro hnone
    rw [hnone] at h
    cases h

/-- Where the row is the one that was enabled, ValidateLogin asks for the second factor. -/
theorem proven_of_validateLogin {secret : String} (hrow : s.totp = some ⟨secret, true, true⟩) {code : String}
    {now : Nat} {enabledFails readFails useFails : Bool}
    (h : (s.validateLogin p code now enabledFails readFails useFails).2 = some true) :
    s.Proven p secret code now := by
  rw [State.validateLogin, hrow] at h
  split at h
  · cases h
  change (if code.utf8ByteSize = 10 then s.useBackupCode p code useFails
    else s.verifyTOTP p code now readFails false).2 = some true at h
  split at h
  case isTrue hlength => exact .inr ⟨hlength, useBackupCode_eq_some_true h⟩
  case isFalse => exact .inl (verifyTOTP_eq_some_true hrow h)

/-- A row that was set up again lets every login pass that is asked for anything. -/
theorem validateLogin_of_unverified {other : String} (hrow : s.totp = some ⟨other, false, false⟩) {code : String}
    {now : Nat} {enabledFails readFails useFails : Bool} (henabled : enabledFails = false) :
    (s.validateLogin p code now enabledFails readFails useFails).2 = some true := by
  rw [State.validateLogin, hrow, henabled]
  rfl

theorem serviceLogin_eq_true_iff {credentials : Bool} {code : String} {now : Nat}
    {requiredFails enabledFails readFails useFails : Bool} :
    (s.serviceLogin p credentials code now requiredFails enabledFails readFails useFails).2 = true ↔
      credentials = true ∧ (s.mfaRequired requiredFails = true →
        code ≠ "" ∧ (s.validateLogin p code now enabledFails readFails useFails).2 = some true) := by
  rw [State.serviceLogin]
  cases credentials with
  | false => simp
  | true =>
      simp only [Bool.not_true, Bool.false_eq_true, if_false, true_and]
      split
      case isTrue hrequired =>
        split
        case isTrue hcode => simp [hrequired, hcode]
        case isFalse hcode => simp [hrequired, hcode]
      case isFalse hrequired => simp [hrequired]

theorem mfaRequired_of_enabled {secret : String} (hrow : s.totp = some ⟨secret, true, true⟩) :
    s.mfaRequired false = true := by
  rw [State.mfaRequired, hrow]
  rfl

/-- A row that was set up again asks for nothing; a WebAuthn credential does. -/
theorem mfaRequired_of_unverified {other : String} (hrow : s.totp = some ⟨other, false, false⟩) :
    s.mfaRequired false = s.webauthn.any fun row => row.verified && row.enabled := by
  rw [State.mfaRequired, hrow]
  rfl

theorem proven_of_serviceLogin {secret code : String} {now : Nat}
    {requiredFails enabledFails readFails useFails : Bool} (hasks : s.Asks secret code requiredFails enabledFails)
    (hlogin : s.mfaRequired requiredFails = true →
      code ≠ "" ∧ (s.validateLogin p code now enabledFails readFails useFails).2 = some true) :
    s.Proven p secret code now := by
  obtain ⟨rfl, hrow | ⟨hwebauthn, hends⟩⟩ := hasks
  · exact proven_of_validateLogin hrow (hlogin (mfaRequired_of_enabled hrow)).2
  · have hrequired : s.mfaRequired false = true := by
      rw [State.mfaRequired, hwebauthn, Bool.or_true]
      rfl
    obtain ⟨hcode, hvalid⟩ := hlogin hrequired
    rcases hends with hempty | hfails
    · exact absurd hempty hcode
    · rw [State.validateLogin, if_pos hfails] at hvalid
      cases hvalid

/-- Where the login does not ask it answers with tokens. -/
theorem State.Inv.serviceLogin_of_not_asks (h : s.Inv) {secret code : String} {now : Nat}
    {requiredFails enabledFails readFails useFails : Bool} (hsecret : secret ∈ s.enrolled)
    (hnot : ¬ s.Asks secret code requiredFails enabledFails) (hrequired : s.mfaRequired requiredFails = true) :
    code ≠ "" ∧ (s.validateLogin p code now enabledFails readFails useFails).2 = some true := by
  have hanswers : requiredFails = false := by
    cases requiredFails with
    | false => rfl
    | true => cases hrequired
  subst hanswers
  rcases h.row secret hsecret with hrow | ⟨other, hrow⟩
  · exact absurd ⟨rfl, .inl hrow⟩ hnot
  · rw [mfaRequired_of_unverified hrow] at hrequired
    have hcode : code ≠ "" := fun hempty => hnot ⟨rfl, .inr ⟨hrequired, .inl hempty⟩⟩
    have henabled : enabledFails = false := by
      rw [← Bool.not_eq_true]
      exact fun hfails => hnot ⟨rfl, .inr ⟨hrequired, .inr hfails⟩⟩
    exact ⟨hcode, validateLogin_of_unverified hrow henabled⟩

theorem kept_iff_careful (h : s.Inv) (i : Input) : s.Kept p active i ↔ s.Careful p active i := by
  cases i with
  | monolithLogin credentials code now existsFails secretFails =>
      rw [State.Kept, State.Careful, monolithLogin_eq_true_iff]
      grind
  | serviceLogin credentials code now requiredFails enabledFails readFails useFails =>
      rw [State.Kept, State.Careful, serviceLogin_eq_true_iff]
      constructor
      · intro hkept hcredentials secret hsecret
        by_cases hasks : s.Asks secret code requiredFails enabledFails
        · exact .inr hasks
        · exact .inl (hkept ⟨hcredentials, h.serviceLogin_of_not_asks hsecret hasks⟩ secret hsecret)
      · rintro hcareful ⟨hcredentials, hlogin⟩ secret hsecret
        rcases hcareful hcredentials secret hsecret with hproven | hasks
        · exact hproven
        · exact proven_of_serviceLogin hasks hlogin
  | setup => exact Iff.rfl
  | verify => exact Iff.rfl
  | disable => exact Iff.rfl
  | backupCodes => exact Iff.rfl
  | webAuthnBegin => exact Iff.rfl
  | webAuthnComplete => exact Iff.rfl

/-! ### Runs -/

/-- The second factor is asked for exactly in the runs whose logins find the row that was enabled, or are given the
factor all the same; and no backup code is accepted twice in any run. -/
theorem secondFactor_kept_iff (p : Primitives) (active : Option (List String)) (inputs : List Input) :
    (Runs.AllSteps (State.step p) (State.Kept p active) start inputs ∧
        ∀ s ∈ Runs.visited (State.step p) start inputs, s.Once) ↔
      Runs.AllSteps (State.step p) (State.Careful p active) start inputs := by
  have hkeep : ∀ (s : State) i, s.Inv → (s.step p i).Inv := fun _ i h => h.step i
  have honce : ∀ s ∈ Runs.visited (State.step p) start inputs, s.Inv :=
    Runs.forall_visited_of_step hkeep start_inv inputs
  rw [Runs.allSteps_congr hkeep (fun _ i h => kept_iff_careful h i) start_inv inputs]
  exact and_iff_left fun s hs => (honce s hs).once

/-- The key of the examples in the standard of one-time passwords, in base32. -/
def exampleSecret : String := "GEZDGNBVGY3TQOJQGEZDGNBVGY3TQOJQ"

/-- HMAC with SHA-1 at that key and the first three counters. -/
def recorded : Primitives where
  hmacSha1 _ message :=
    if message = bigEndian 0 then
      [0xcc, 0x93, 0xcf, 0x18, 0x50, 0x8d, 0x94, 0x93, 0x4c, 0x64,
        0xb6, 0x5d, 0x8b, 0xa7, 0x66, 0x7f, 0xb7, 0xcd, 0xe4, 0xb0]
    else if message = bigEndian 1 then
      [0x75, 0xa4, 0x8a, 0x19, 0xd4, 0xcb, 0xe1, 0x00, 0x64, 0x4e,
        0x8a, 0xc1, 0x39, 0x7e, 0xea, 0x74, 0x7a, 0x2d, 0x33, 0xab]
    else
      [0x0b, 0xac, 0xb7, 0xfa, 0x08, 0x2f, 0xef, 0x30, 0x78, 0x22,
        0x11, 0x93, 0x8b, 0xc1, 0xc5, 0xe7, 0x04, 0x16, 0xff, 0x44]
  decodeBase32 text := if text = exampleSecret then some
    ("12345678901234567890".toList.map fun c => c.toUInt8) else none
  codeHash := id
  toUpper := String.toUpper

def backupCodesOf (letter : String) : List String :=
  (List.range 10).map fun n => "BACKUP" ++ letter ++ "AA" ++ toString n

/-- The user sets TOTP up and enables it with the code of second 59. -/
def enrol : List Input :=
  [.setup exampleSecret (backupCodesOf "X") false false 10, .verify "287082" 59 false false]

/-- The query for the flag fails, and the login is answered with tokens for the password alone. -/
theorem issued_without_code :
    ¬ ∀ p active inputs, Runs.AllSteps (State.step p) (State.Kept p active) start inputs ∧
      ∀ s ∈ Runs.visited (State.step p) start inputs, s.Once := by
  intro h
  have hrun := (h recorded none (enrol ++ [.serviceLogin true "" 59 true false false false])).1
  have hkept := hrun.last
  have hproven := hkept (by decide +kernel) exampleSecret (by decide +kernel)
  have hnot : ¬ (Runs.final
      (State.step recorded) start enrol).Proven recorded exampleSecret "" 59 := by decide +kernel
  exact hnot hproven

end Inec.Mfa
