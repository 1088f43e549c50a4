import Inec.Lib.CalendarDate
import Inec.Lib.Runs
import Inec.Lib.UniqueIndex
import Inec.Request

/-!
# The voter register

The requests on `voters`: those of ems.go, the resolution of duplicates of election_fsm.go and the two erasures.
Each reads first and then issues a single statement, and any number of other requests can come in between. `accept`
is the part before the statement, `execute` the statement.

The polling units, wards and LGAs are those of the tables given, which no request changes.
-/

namespace Inec.Voters

open Checks Rfc3339

/-! ### Rows -/

/-- What `voters_status_check` admits. -/
inductive VoterStatus
  | registered | verified | active | suspended | deceased | transferred
  deriving DecidableEq, Repr

def VoterStatus.text : VoterStatus → String
  | .registered => "registered"
  | .verified => "verified"
  | .active => "active"
  | .suspended => "suspended"
  | .deceased => "deceased"
  | .transferred => "transferred"

structure Place where
  wardCode : String
  lgaCode : String
  stateCode : String
  deriving DecidableEq, Repr

structure VoterRow where
  vin : String
  nin : Option String
  firstName : String
  lastName : String
  middleName : Option String
  dateOfBirth : String
  gender : String
  phone : Option String
  place : Place
  pollingUnitCode : String
  biometricHash : Option String
  pvcNumber : String
  disabilityType : Option String
  assistanceNeeded : Bool
  status : VoterStatus
  pvcCollected : Bool
  pvcCollectedAt : Option Int
  hasVoted : Bool
  votedAt : Option Int
  verifiedAt : Option Int
  deriving DecidableEq, Repr

/-! ### Statements -/

inductive Write
  | insert (row : VoterRow)
  | collectPVC (vin : String)
  | markVoted (vin : String) (electionId : Int)
  | reactivate (vin pollingUnitCode : String)
  | verify (vin : String)
  | transfer (vin pollingUnitCode : String) (place : Place)
  | merge (voterA voterB : String)
  | flag (voterA voterB : String)
  /-- `executeDataErasure`. -/
  | erase (vin : String)
  /-- `HandleDataSubjectErasure`. -/
  | eraseSubject (nin : String)
  deriving DecidableEq, Repr

/-- The `WHERE` of an update. -/
def Write.selects : Write → VoterRow → Bool
  | .insert _, _ => false
  | .collectPVC vin, r => r.vin == vin && !r.pvcCollected
  | .markVoted vin _, r => r.vin == vin && !r.hasVoted
  | .reactivate vin _, r => r.vin == vin && (r.status == .transferred || r.status == .suspended)
  | .verify vin, r => r.vin == vin
  | .transfer vin _ _, r => r.vin == vin
  | .merge voterA _, r => r.vin == voterA
  | .flag voterA voterB, r => r.vin == voterA || r.vin == voterB
  | .erase vin, r => r.vin == vin
  | .eraseSubject nin, r => r.nin == some nin

/-- The `SET` of an update. No row takes the statuses of a merge or a flag. -/
def Write.set (now : Int) : Write → VoterRow → VoterRow
  | .insert _, r => r
  | .collectPVC _, r => { r with pvcCollected := true, pvcCollectedAt := some now }
  | .markVoted _ _, r => { r with hasVoted := true, votedAt := some now }
  | .reactivate _ pollingUnitCode, r => { r with status := .active, pollingUnitCode := pollingUnitCode }
  | .verify _, r => { r with status := .verified, verifiedAt := some now }
  | .transfer _ pollingUnitCode place, r =>
      { r with pollingUnitCode := pollingUnitCode, place := place, status := .transferred }
  | .merge _ _, r => r
  | .flag _ _, r => r
  | .erase _, r =>
      { r with firstName := "[ERASED]", lastName := "[ERASED]", middleName := none, dateOfBirth := "", phone := none,
               biometricHash := none }
  | .eraseSubject _, r => { r with phone := none, biometricHash := none }

def Write.update (now : Int) (w : Write) (r : VoterRow) : VoterRow := if w.selects r then w.set now r else r

/-- The definition of the table that is in force: 000021 has no unique index of its own, `initEMSTables` has three
with foreign keys, and both are followed by `idx_voters_nin`. -/
structure Schema where
  indexes : List (UniqueIndex VoterRow)
  references : VoterRow → Bool

def checkViolation (name : String) : String :=
  "new row for relation \"voters\" violates check constraint \"" ++ name ++ "\""

/-- The statement as the database runs it, with the number of rows affected. -/
def execute (schema : Schema) (now : Int) (rows : List VoterRow) : Write → Except String (List VoterRow × Nat)
  | .insert row => do
      require (row.gender == "M" || row.gender == "F") (checkViolation "voters_gender_check")
      require (schema.references row) "insert or update on table \"voters\" violates foreign key constraint"
      let rows ← UniqueIndex.insert schema.indexes rows row
      pure (rows, 1)
  | .merge _ _ => .error "column \"merged_into\" of relation \"voters\" does not exist"
  | .flag voterA voterB =>
      if rows.any (Write.flag voterA voterB).selects then .error (checkViolation "voters_status_check")
      else .ok (rows, 0)
  | w => .ok (rows.map (w.update now), rows.countP w.selects)

/-- What the handler answers to the number of rows affected. -/
def Write.reply (affected : Nat) : Write → Except HttpError Unit
  | .collectPVC _ => require (affected != 0) ⟨409, "voter not found or PVC already collected"⟩
  | .markVoted _ _ => require (affected != 0) ⟨409, "voter has already been marked as voted"⟩
  | .reactivate _ _ => require (affected != 0) ⟨409, "voter not found or not in transferred/suspended status"⟩
  | .eraseSubject _ => require (affected != 0) ⟨404, "no records found for subject"⟩
  | _ => .ok ()

/-- What it answers to an error. `dbExecLog` keeps that of a merge or a flag to itself. -/
def Write.failure (err : String) : Write → Except HttpError Unit
  | .insert _ => .error ⟨500, "Registration failed: " ++ err⟩
  | _ => .ok ()

/-! ### Requests -/

structure RegisterVoterRequest where
  firstName : String
  lastName : String
  middleName : String
  dateOfBirth : String
  gender : String
  phone : String
  stateCode : String
  lgaCode : String
  wardCode : String
  pollingUnitCode : String
  biometricData : String
  nin : String
  disabilityType : String
  assistanceNeeded : Bool
  deriving DecidableEq, Repr

inductive VoterRequest
  | register (req : RegisterVoterRequest)
  | collectPVC (vin : String)
  | markVoted (vin : String) (electionId : Int)
  | reactivate (vin pollingUnitCode : String)
  | verify (vin : String)
  | transfer (vin newPollingUnitCode : String)
  | resolveDuplicate (voterA voterB decision : String)
  | erase (vin : String)
  | eraseSubject (nin : String)
  deriving DecidableEq, Repr

/-- A request as it comes in: who asks, and the clock. -/
structure Visit where
  env : Env
  /-- The date of `time.Now()`, in UTC. -/
  today : Date
  unixNano : Nat

def nullable (text : String) : Option String := if text = "" then none else some text

section Handlers

variable (sha256Hex : String → String) (tables : Tables)

/-- `handleRegisterVoter` as far as the age. -/
def checkBirth (today : Date) (dateOfBirth : String) : Except HttpError Unit := do
  let dob ← fetch (Date.parse dateOfBirth) ⟨400, "date_of_birth must be YYYY-MM-DD"⟩
  require (Date.Reached dob.year dob.month dob.day today) ⟨400, "date_of_birth cannot be in the future"⟩
  require (18 ≤ Date.ageOn dob today) ⟨422, "voter must be at least 18 years old to register"⟩

def biometricHash (biometricData : String) : String := String.ofList ((sha256Hex biometricData).toList.take 32)

def RegisterVoterRequest.biometric (req : RegisterVoterRequest) : Option String :=
  if req.biometricData = "" then none else some (biometricHash sha256Hex req.biometricData)

/-- The row of a registration. -/
def RegisterVoterRequest.row (req : RegisterVoterRequest) (unixNano : Nat) : VoterRow where
  vin := "VIN" ++ String.ofList
    ((sha256Hex (req.firstName ++ req.lastName ++ req.dateOfBirth ++ toString unixNano)).toList.take 12)
  nin := nullable req.nin
  firstName := req.firstName
  lastName := req.lastName
  middleName := some req.middleName
  dateOfBirth := req.dateOfBirth
  gender := req.gender
  phone := some req.phone
  place := ⟨req.wardCode, req.lgaCode, req.stateCode⟩
  pollingUnitCode := req.pollingUnitCode
  biometricHash := req.biometric sha256Hex
  pvcNumber := "PVC-" ++ req.stateCode ++ "-" ++ String.ofList (PaddedNumber.padded 6 (unixNano % 999999))
  disabilityType := nullable req.disabilityType
  assistanceNeeded := req.assistanceNeeded
  status := .registered
  pvcCollected := false
  pvcCollectedAt := none
  hasVoted := false
  votedAt := none
  verifiedAt := none

def disabilityTypes : List String := ["visual", "hearing", "mobility", "cognitive", "other"]

def handleRegisterVoter (visit : Visit) (req : RegisterVoterRequest) (rows : List VoterRow) :
    Except HttpError Write := do
  requireRole visit.env [.admin, .presidingOfficer]
  require (req.firstName != "" && req.lastName != "" && req.dateOfBirth != "")
    ⟨400, "first_name, last_name, date_of_birth required"⟩
  checkBirth visit.today req.dateOfBirth
  require (req.biometricData == "" || rows.all fun r => r.biometricHash != req.biometric sha256Hex)
    ⟨409, "Duplicate biometric detected"⟩
  require (req.disabilityType == "" || disabilityTypes.contains req.disabilityType)
    ⟨400, "disability_type must be one of: visual, hearing, mobility, cognitive, other"⟩
  pure (.insert (req.row sha256Hex visit.unixNano))

/-- `decodeAndValidate` with a failing tag of a field. -/
def invalidField (field tag : String) : HttpError :=
  ⟨400, "validation failed: [field '" ++ field ++ "' failed on '" ++ tag ++ "']"⟩

def voter? (rows : List VoterRow) (vin : String) : Option VoterRow := rows.find? fun r => r.vin == vin

def VoterStatus.mayVote (status : VoterStatus) : Bool :=
  status == .active || status == .verified || status == .registered

def handleMarkVoted (visit : Visit) (vin : String) (electionId : Int) (rows : List VoterRow) :
    Except HttpError Write := do
  guardRole visit.env [.admin, .presidingOfficer]
  require (electionId != 0) (invalidField "ElectionID" "required")
  require (0 < electionId) (invalidField "ElectionID" "gt")
  let voter ← fetch (voter? rows vin) ⟨404, "voter not found"⟩
  require voter.status.mayVote ⟨409, "voter status '" ++ voter.status.text ++ "' is not eligible to vote"⟩
  pure (.markVoted vin electionId)

def handleCollectPVC (visit : Visit) (vin : String) : Except HttpError Write := do
  guardRole visit.env [.admin, .collationOfficer, .presidingOfficer]
  pure (.collectPVC vin)

def handleReactivateVoter (visit : Visit) (vin pollingUnitCode : String) : Except HttpError Write := do
  guardRole visit.env [.admin]
  require (pollingUnitCode != "") (invalidField "PollingUnitCode" "required")
  require (tables.pollingUnits.any (·.code == pollingUnitCode)) ⟨400, "polling unit not found"⟩
  pure (.reactivate vin pollingUnitCode)

def handleVoterVerify (vin : String) (rows : List VoterRow) : Except HttpError Write := do
  let _ ← fetch (voter? rows vin) ⟨404, "Voter not found"⟩
  pure (.verify vin)

/-- The polling unit joined with its ward and LGA. -/
def place? (pollingUnitCode : String) : Option Place := do
  let unit ← tables.pollingUnit? pollingUnitCode
  let ward ← tables.wards.find? (·.code == unit.wardCode)
  let lga ← tables.lgas.find? (·.code == ward.lgaCode)
  pure ⟨ward.code, lga.code, lga.stateCode⟩

def handleVoterTransfer (visit : Visit) (vin newPollingUnitCode : String) (rows : List VoterRow) :
    Except HttpError Write := do
  requireRole visit.env [.admin]
  let _ ← fetch (voter? rows vin) ⟨404, "Voter not found"⟩
  let place ← fetch ((place? tables newPollingUnitCode).filter (·.wardCode != "")) ⟨400, "Invalid polling unit code"⟩
  pure (.transfer vin newPollingUnitCode place)

/-- A dismissal writes nothing. -/
def handleDuplicateVoterResolve (visit : Visit) (voterA voterB decision : String) :
    Except HttpError (Option Write) := do
  requireRole visit.env [.admin]
  require (voterA != "") (invalidField "VoterAVIN" "required")
  require (voterB != "") (invalidField "VoterBVIN" "required")
  require (decision != "") (invalidField "Decision" "required")
  if decision = "merge" then pure (some (.merge voterA voterB))
  else if decision = "flag" then pure (some (.flag voterA voterB))
  else if decision = "dismiss" then pure none
  else .error ⟨400, "decision must be: merge, flag, or dismiss"⟩

/-- A request up to its statement. -/
def accept (visit : Visit) (rows : List VoterRow) : VoterRequest → Except HttpError (Option Write)
  | .register req => (handleRegisterVoter sha256Hex visit req rows).map some
  | .collectPVC vin => (handleCollectPVC visit vin).map some
  | .markVoted vin electionId => (handleMarkVoted visit vin electionId rows).map some
  | .reactivate vin pollingUnitCode => (handleReactivateVoter tables visit vin pollingUnitCode).map some
  | .verify vin => (handleVoterVerify vin rows).map some
  | .transfer vin newPollingUnitCode => (handleVoterTransfer tables visit vin newPollingUnitCode rows).map some
  | .resolveDuplicate voterA voterB decision => handleDuplicateVoterResolve visit voterA voterB decision
  | .erase vin => do
      require (vin != "") ⟨400, "vin and reason required"⟩
      pure (some (.erase vin))
  | .eraseSubject nin => do
      require (nin != "") ⟨400, "subject identifier (nin) is required"⟩
      pure (some (.eraseSubject nin))

end Handlers

/-! ### Runs -/

/-- A statement that was issued, and the answer to its request. -/
structure Answer where
  write : Write
  answeredAt : Int
  reply : Except HttpError Unit

structure Register where
  voters : List VoterRow
  /-- The statements of the requests that passed their checks. -/
  pending : List Write
  answers : List Answer

inductive Event
  | request (visit : Visit) (request : VoterRequest)
  /-- The statement at this place is issued. -/
  | issue (n : Nat) (now : Int)
  /-- The request at this place ends without it. -/
  | abandon (n : Nat)

section Step

variable (sha256Hex : String → String) (tables : Tables) (schema : Schema)

def Register.issue (s : Register) (n : Nat) (now : Int) (w : Write) : Register :=
  match execute schema now s.voters w with
  | .ok (rows, affected) => ⟨rows, s.pending.eraseIdx n, s.answers ++ [⟨w, now, w.reply affected⟩]⟩
  | .error err => ⟨s.voters, s.pending.eraseIdx n, s.answers ++ [⟨w, now, w.failure err⟩]⟩

def step (s : Register) : Event → Register
  | .request visit request =>
      match accept sha256Hex tables visit s.voters request with
      | .ok (some w) => { s with pending := s.pending ++ [w] }
      | .ok none => s
      | .error _ => s
  | .issue n now =>
      match s.pending[n]? with
      | some w => s.issue schema n now w
      | none => s
  | .abandon n => { s with pending := s.pending.eraseIdx n }

end Step

variable {sha256Hex : String → String} {tables : Tables} {schema : Schema}

/-! ### What a step does -/

/-- What a statement that goes through does to the rows. -/
inductive Wrote (now : Int) (rows : List VoterRow) : Write → List VoterRow → Prop
  | inserted (row : VoterRow) : Wrote now rows (.insert row) (rows ++ [row])
  | updated (w : Write) (update : ∀ row, w ≠ .insert row) : Wrote now rows w (rows.map (w.update now))

theorem map_update_of_not_selects {w : Write} {now : Int} {rows : List VoterRow}
    (h : rows.any w.selects = false) : rows.map (w.update now) = rows := by
  rw [List.any_eq_false] at h
  have hid : rows.map (w.update now) = rows.map id := List.map_congr_left fun r hr => if_neg (h r hr)
  rw [hid, List.map_id]

theorem wrote_of_execute {now : Int} {rows rows' : List VoterRow} {w : Write} {affected : Nat}
    (h : execute schema now rows w = .ok (rows', affected)) : Wrote now rows w rows' := by
  cases w with
  | insert row =>
      simp only [execute, bind_eq_ok, require_eq_ok, pure_eq_ok, Prod.mk.injEq] at h
      obtain ⟨-, -, -, -, inserted, hinsert, rfl, -⟩ := h
      rw [(UniqueIndex.insert_eq_ok.mp hinsert).2]
      exact .inserted row
  | merge voterA voterB => cases h
  | flag voterA voterB =>
      simp only [execute] at h
      split at h
      · cases h
      · rename_i hany
        cases h
        have hmap := @map_update_of_not_selects _ now _ (Bool.eq_false_iff.mpr hany)
        have hwrote : Wrote now rows (.flag voterA voterB) (rows.map ((Write.flag voterA voterB).update now)) :=
          .updated _ fun _ hinsert => by cases hinsert
        rwa [hmap] at hwrote
  | _ =>
      cases h
      exact .updated _ fun _ hinsert => by cases hinsert

/-- A request is admitted, a statement is issued, or nothing but the requests under way changes. -/
theorem step_cases (s : Register) (e : Event) :
    (∃ visit request w, e = .request visit request ∧ accept sha256Hex tables visit s.voters request = .ok (some w) ∧
      step sha256Hex tables schema s e = { s with pending := s.pending ++ [w] }) ∨
    (∃ n now w, e = .issue n now ∧ s.pending[n]? = some w ∧
      step sha256Hex tables schema s e = s.issue schema n now w) ∨
    (∃ pending : List Write, (∀ w ∈ pending, w ∈ s.pending) ∧
      step sha256Hex tables schema s e = { s with pending := pending }) := by
  cases e with
  | request visit request =>
      cases haccept : accept sha256Hex tables visit s.voters request with
      | error err => exact .inr (.inr ⟨s.pending, fun _ => id, by simp only [step, haccept]⟩)
      | ok admitted =>
          cases admitted with
          | none => exact .inr (.inr ⟨s.pending, fun _ => id, by simp only [step, haccept]⟩)
          | some w => exact .inl ⟨visit, request, w, rfl, haccept, by simp only [step, haccept]⟩
  | issue n now =>
      cases hw : s.pending[n]? with
      | none => exact .inr (.inr ⟨s.pending, fun _ => id, by simp only [step, hw]⟩)
      | some w => exact .inr (.inl ⟨n, now, w, rfl, hw, by simp only [step, hw]⟩)
  | abandon n => exact .inr (.inr ⟨s.pending.eraseIdx n, fun _ => List.mem_of_mem_eraseIdx, rfl⟩)

theorem issue_cases (s : Register) (n : Nat) (now : Int) (w : Write) :
    (∃ err, execute schema now s.voters w = .error err ∧
      s.issue schema n now w = ⟨s.voters, s.pending.eraseIdx n, s.answers ++ [⟨w, now, w.failure err⟩]⟩) ∨
    (∃ rows affected, execute schema now s.voters w = .ok (rows, affected) ∧ Wrote now s.voters w rows ∧
      s.issue schema n now w = ⟨rows, s.pending.eraseIdx n, s.answers ++ [⟨w, now, w.reply affected⟩]⟩) := by
  cases h : execute schema now s.voters w with
  | error err => exact .inl ⟨err, rfl, by simp only [Register.issue, h]⟩
  | ok result => exact .inr ⟨result.1, result.2, rfl, wrote_of_execute h, by simp only [Register.issue, h]⟩

/-- The voters of a step are those before, or those of a statement that went through. -/
theorem voters_step (s : Register) (e : Event) :
    (step sha256Hex tables schema s e).voters = s.voters ∨
    ∃ n now w, e = .issue n now ∧ s.pending[n]? = some w ∧
      (∃ affected, execute schema now s.voters w = .ok ((step sha256Hex tables schema s e).voters, affected)) ∧
      Wrote now s.voters w (step sha256Hex tables schema s e).voters := by
  rcases @step_cases sha256Hex tables schema s e with
    ⟨_, _, _, _, _, heq⟩ | ⟨n, now, w, he, hw, heq⟩ | ⟨_, _, heq⟩
  · exact .inl (by rw [heq])
  · rcases @issue_cases schema s n now w with ⟨err, _, hissue⟩ | ⟨rows, affected, hok, hwrote, hissue⟩
    · exact .inl (by rw [heq, hissue])
    · rw [heq, hissue]
      exact .inr ⟨n, now, w, he, hw, ⟨affected, hok⟩, hwrote⟩
  · exact .inl (by rw [heq])

/-- The statement is under way or on record. -/
def Register.Holds (s : Register) (w : Write) : Prop := w ∈ s.pending ∨ ∃ a ∈ s.answers, a.write = w

/-- A statement that is held was so before, or is that of a request just admitted. -/
theorem holds_step {s : Register} {e : Event} {w : Write} (h : (step sha256Hex tables schema s e).Holds w) :
    s.Holds w ∨
      ∃ visit request, e = .request visit request ∧ accept sha256Hex tables visit s.voters request = .ok (some w) := by
  rcases @step_cases sha256Hex tables schema s e with
    ⟨visit, request, w', he, haccept, heq⟩ | ⟨n, now, w', _, hw, heq⟩ | ⟨pending, hsub, heq⟩
  · rw [heq] at h
    rcases h with h | h
    · rcases List.mem_append.mp h with h | h
      · exact .inl (.inl h)
      · rw [List.mem_singleton.mp h]
        exact .inr ⟨visit, request, he, haccept⟩
    · exact .inl (.inr h)
  · have hissue : ∃ rows reply, s.issue schema n now w' =
        ⟨rows, s.pending.eraseIdx n, s.answers ++ [⟨w', now, reply⟩]⟩ := by
      rcases @issue_cases schema s n now w' with ⟨_, _, hissue⟩ | ⟨_, _, _, _, hissue⟩
      all_goals exact ⟨_, _, hissue⟩
    obtain ⟨rows, reply, hissue⟩ := hissue
    rw [heq, hissue] at h
    rcases h with h | ⟨a, ha, rfl⟩
    · exact .inl (.inl (List.mem_of_mem_eraseIdx h))
    · rcases List.mem_append.mp ha with ha | ha
      · exact .inl (.inr ⟨a, ha, rfl⟩)
      · rw [List.mem_singleton.mp ha]
        exact .inl (.inl (List.mem_of_getElem? hw))
  · rw [heq] at h
    exact .inl (h.imp_left (hsub w))

/-! ### What an admitted statement says -/

variable (sha256Hex tables) in
/-- What the register it was admitted by said of a statement. -/
def Vouched (visit : Visit) (rows : List VoterRow) (request : VoterRequest) : Write → Prop
  | .insert row => ∃ req, request = .register req ∧ row = req.row sha256Hex visit.unixNano ∧
      handleRegisterVoter sha256Hex visit req rows = .ok (.insert row)
  | .markVoted vin _ => ∃ r ∈ rows, r.vin = vin ∧ r.status.mayVote = true
  | .transfer _ pollingUnitCode place => place? tables pollingUnitCode = some place
  | _ => True

theorem mem_of_voter? {rows : List VoterRow} {vin : String} {r : VoterRow} (h : voter? rows vin = some r) :
    r ∈ rows ∧ r.vin = vin := ⟨List.mem_of_find?_eq_some h, by simpa using List.find?_some h⟩

theorem vouched_of_accept {visit : Visit} {rows : List VoterRow} {request : VoterRequest} {w : Write}
    (h : accept sha256Hex tables visit rows request = .ok (some w)) :
    Vouched sha256Hex tables visit rows request w := by
  cases request with
  | register req =>
      simp only [accept, map_eq_ok, Option.some.injEq] at h
      obtain ⟨w', hok, rfl⟩ := h
      have hrow := hok
      simp only [handleRegisterVoter, bind_eq_ok, pure_eq_ok] at hrow
      obtain ⟨-, -, -, -, -, -, -, -, -, -, rfl⟩ := hrow
      exact ⟨req, rfl, rfl, hok⟩
  | markVoted vin electionId =>
      simp only [accept, handleMarkVoted, map_eq_ok, bind_eq_ok, fetch_eq_ok, require_eq_ok, pure_eq_ok,
        Option.some.injEq] at h
      obtain ⟨_, ⟨-, -, -, -, -, -, voter, hvoter, -, hmay, rfl⟩, rfl⟩ := h
      obtain ⟨hmem, hvin⟩ := mem_of_voter? hvoter
      exact ⟨voter, hmem, hvin, hmay⟩
  | transfer vin newPollingUnitCode =>
      simp only [accept, handleVoterTransfer, map_eq_ok, bind_eq_ok, fetch_eq_ok, pure_eq_ok, Option.some.injEq,
        Option.filter_eq_some_iff] at h
      obtain ⟨_, ⟨-, -, -, -, place, ⟨hplace, -⟩, rfl⟩, rfl⟩ := h
      exact hplace
  | resolveDuplicate voterA voterB decision =>
      simp only [accept, handleDuplicateVoterResolve, bind_eq_ok] at h
      obtain ⟨-, -, -, -, -, -, -, -, hdecision⟩ := h
      split at hdecision
      · cases hdecision
        trivial
      · split at hdecision
        · cases hdecision
          trivial
        · split at hdecision <;> cases hdecision
  | collectPVC vin =>
      simp only [accept, handleCollectPVC, map_eq_ok, bind_eq_ok, pure_eq_ok, Option.some.injEq] at h
      obtain ⟨_, ⟨-, -, rfl⟩, rfl⟩ := h
      trivial
  | reactivate vin pollingUnitCode =>
      simp only [accept, handleReactivateVoter, map_eq_ok, bind_eq_ok, pure_eq_ok, Option.some.injEq] at h
      obtain ⟨_, ⟨-, -, -, -, -, -, rfl⟩, rfl⟩ := h
      trivial
  | verify vin =>
      simp only [accept, handleVoterVerify, map_eq_ok, bind_eq_ok, pure_eq_ok, Option.some.injEq] at h
      obtain ⟨_, ⟨_, -, rfl⟩, rfl⟩ := h
      trivial
  | erase vin =>
      simp only [accept, bind_eq_ok, pure_eq_ok, Option.some.injEq] at h
      obtain ⟨-, -, rfl⟩ := h
      trivial
  | eraseSubject nin =>
      simp only [accept, bind_eq_ok, pure_eq_ok, Option.some.injEq] at h
      obtain ⟨-, -, rfl⟩ := h
      trivial

end Inec.Voters
