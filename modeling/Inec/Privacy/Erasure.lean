import Inec.Lib.Checks
import Inec.Lib.Rows
import Inec.Lib.Runs
import Inec.Lib.Statements

/-!
# Requests for the erasure of a voter's data

The erasure handlers of `platform_enhancements.go`. A request is filed as pending; a review approves or rejects
it. An approval erases the voter in four stores, one statement after the other, and then marks the request as
executed; what a store answers goes into the summary and nowhere else. The row is read once, at the beginning,
and the final update does not look at it again.

A review is taken statement by statement, so that reviews run beside each other and end anywhere. Every
statement may be refused, and its answer may be lost. The statement on `biometric_profiles` sets two columns
that the table does not have.
-/

namespace Inec.Erasure

open Checks

/-! ### The stores -/

/-- The columns of `voters` that are pseudonymized. -/
structure VoterRow where
  vin : String
  firstName : String
  lastName : String
  middleName : Option String
  dateOfBirth : String
  phone : Option String
  email : Option String
  address : Option String
  biometricHash : Option String
  photoHash : Option String
  deriving DecidableEq, Repr

def erasedMark : String := "[ERASED]"

def VoterRow.pseudonymized (v : VoterRow) : VoterRow where
  vin := v.vin
  firstName := erasedMark
  lastName := erasedMark
  middleName := none
  dateOfBirth := ""
  phone := none
  email := none
  address := none
  biometricHash := none
  photoHash := none

/-- A row of `biometric_templates`. -/
structure BiometricTemplate where
  voterVin : String
  templateData : String
  deriving DecidableEq, Repr

/-- A row of `biometric_profiles`, with the biometric values it has by column. -/
structure BiometricProfile where
  voterVin : String
  values : List (String × String)
  deriving DecidableEq, Repr

/-- The columns of `biometric_profiles` after all migrations. -/
def profileColumns : List String :=
  ["id", "voter_vin", "fingerprint_hash", "facial_hash", "iris_hash", "modalities_enrolled", "quality_score",
    "enrollment_device", "enrollment_date", "last_verified_at", "match_count", "duplicate_flag",
    "duplicate_matched_vin", "status", "updated_at", "device_id", "enrollment_center", "enrollment_status",
    "facial_quality", "fingerprint_quality", "iris_quality", "last_verified", "operator_id", "photo_hash",
    "verification_count", "vin", "voter_id"]

/-- The columns the erasure sets. -/
def blankedColumns : List String := ["template_data", "face_template"]

/-- The vault lists the voters of its templates and of its transforms. -/
structure Stores where
  voters : List VoterRow
  templates : List BiometricTemplate
  profiles : List BiometricProfile
  vaultTemplates : List String
  vaultTransforms : List String
  deriving DecidableEq, Repr

/-- What becomes of the call of `/vault/erase`. The vault deletes the templates before the transforms. -/
inductive VaultReply
  | erased
  | failed
  | templatesOnly
  | lost
  deriving DecidableEq, Repr

namespace Stores

variable (s : Stores) (vin : String)

def pseudonymizeVoters : Stores := { s with voters := Rows.update (·.vin) vin VoterRow.pseudonymized s.voters }

def deleteTemplates : Stores := { s with templates := s.templates.filter fun r => r.voterVin != vin }

/-- A statement that names a column the table does not have fails, whatever rows there are. -/
def blankProfiles : Option Stores :=
  if blankedColumns.all profileColumns.contains then
    some
      { s with
        profiles := Rows.update (·.voterVin) vin
          (fun r => { r with values := blankedColumns.map fun column => (column, erasedMark) }) s.profiles }
  else none

def vaultErase (reply : VaultReply) : Stores × Bool :=
  let templates := s.vaultTemplates.filter (· != vin)
  let transforms := s.vaultTransforms.filter (· != vin)
  match reply with
  | .erased => ({ s with vaultTemplates := templates, vaultTransforms := transforms }, true)
  | .failed => (s, false)
  | .templatesOnly => ({ s with vaultTemplates := templates }, false)
  | .lost => ({ s with vaultTemplates := templates, vaultTransforms := transforms }, false)

/-! The voter is gone from a store. -/

def VotersBlank : Prop := ∀ r ∈ s.voters, r.vin = vin → r = r.pseudonymized

def TemplatesBlank : Prop := ∀ r ∈ s.templates, r.voterVin ≠ vin

def ProfilesBlank : Prop := ∀ r ∈ s.profiles, r.voterVin = vin → ∀ e ∈ r.values, e.2 = erasedMark

def VaultBlank : Prop := vin ∉ s.vaultTemplates ∧ vin ∉ s.vaultTransforms

structure Erased : Prop where
  voters : s.VotersBlank vin
  templates : s.TemplatesBlank vin
  profiles : s.ProfilesBlank vin
  vault : s.VaultBlank vin

instance : Decidable (s.VotersBlank vin) := inferInstanceAs (Decidable (∀ r ∈ s.voters, _))

instance : Decidable (s.TemplatesBlank vin) := inferInstanceAs (Decidable (∀ r ∈ s.templates, _))

instance : Decidable (s.ProfilesBlank vin) := inferInstanceAs (Decidable (∀ r ∈ s.profiles, _))

instance : Decidable (s.VaultBlank vin) := inferInstanceAs (Decidable (_ ∧ _))

end Stores

/-! ### Requests and reviews -/

inductive Status
  | pending
  | approved
  | rejected
  | executed
  deriving DecidableEq, Repr

def Status.text : Status → String
  | .pending => "pending"
  | .approved => "approved"
  | .rejected => "rejected"
  | .executed => "executed"

/-- A row of `data_erasure_requests`. -/
structure ErasureRequest where
  id : Nat
  vin : String
  reason : String
  requestedBy : Nat
  status : Status
  reviewedBy : Option Nat
  reviewNotes : Option String
  deriving DecidableEq, Repr

/-- The statement a review sends next. -/
inductive Stage
  | voters
  | templates
  | profiles
  | vault
  | record
  | ended
  deriving DecidableEq, Repr

/-- A review that has passed its checks. -/
structure Review where
  pid : Nat
  requestId : Nat
  reviewer : Nat
  approve : Bool
  notes : String
  vin : String
  reason : String
  stage : Stage
  alive : Bool
  steps : List (String × String)
  deriving DecidableEq, Repr

/-- What is sent to the review handler; `none` is a body that is no JSON. -/
structure ReviewBody where
  requestId : Nat
  decision : String
  notes : String

/-- The checks of `handleDataErasureReview`. -/
def beginReview (requests : List ErasureRequest) (works : Bool) (pid : Nat) (body : Option ReviewBody)
    (reviewer : Nat) : Except (Nat × String) Review := do
  let body ← fetch body (400, "request_id and decision (approve|reject) required")
  require (body.decision = "approve" ∨ body.decision = "reject")
    (400, "request_id and decision (approve|reject) required")
  let row ← fetch (if works then requests.find? (fun r => r.id == body.requestId) else none)
    (404, "erasure request not found")
  require (row.status = .pending) (409, "request already " ++ row.status.text)
  require (¬ (row.requestedBy = reviewer ∧ reviewer ≠ 0))
    (403, "dual control: the requester cannot review their own erasure request")
  return ⟨pid, row.id, reviewer, body.decision = "approve", body.notes, row.vin, row.reason,
    if body.decision = "approve" then .voters else .record, true, []⟩

/-- The answers of the stores to one statement. -/
structure Reply where
  statement : Statements.CommitReply
  vault : VaultReply
  error : String

/-- The request and, for an erasure, the review that took effect on it. -/
structure State where
  stores : Stores
  requests : List ErasureRequest
  reviews : List Review
  /-- The requests on which a decision has taken effect, each with the review it came from. -/
  effects : List (Nat × Nat)
  /-- The erasures that were started: the voter, who started it, and the request it was started for. -/
  erasures : List (String × Nat × Option Nat)
  deriving DecidableEq, Repr

/-- The last input is the old endpoint, which erases at once. Its statements are not taken apart. -/
inductive Input
  | request (vin reason : String) (actor : Nat) (works : Bool)
  | review (body : Option ReviewBody) (reviewer : Nat) (works : Bool)
  | advance (pid : Nat) (reply : Reply)
  | cut (pid : Nat)
  | immediate (vin reason : String) (actor : Nat) (replies : Fin 4 → Reply) (works : Bool)

/-- The text of a step in the summary. -/
def stepText (told : Bool) (done : String) (reply : Reply) : String :=
  if told then done else "error: " ++ reply.error

/-- One statement of `executeDataErasure`: the stores, the text of the step, and the next statement. -/
def eraseStep (s : Stores) (vin : String) (reply : Reply) : Stage → Stores × List (String × String) × Stage
  | .voters =>
      let (s', told) := Statements.commit s (some (s.pseudonymizeVoters vin)) reply.statement
      (s', [("voters_pii", stepText told "pseudonymized" reply)], .templates)
  | .templates =>
      let (s', told) := Statements.commit s (some (s.deleteTemplates vin)) reply.statement
      (s', [("biometric_templates", stepText told "deleted" reply)], .profiles)
  | .profiles =>
      let (s', told) := Statements.commit s (s.blankProfiles vin) reply.statement
      (s', [("biometric_profiles", stepText told "blanked" reply)], .vault)
  | .vault =>
      let (s', told) := s.vaultErase vin reply.vault
      let deleted := (s.vaultTemplates.count vin + s.vaultTransforms.count vin : Nat)
      (s', [("rust_vault", stepText told ("deleted " ++ toString deleted ++ " records") reply)], .record)
  | .record => (s, [], .record)
  | .ended => (s, [], .ended)

/-- The update that ends a review. -/
def recordDecision (v : Review) (requests : List ErasureRequest) : List ErasureRequest :=
  Rows.update (·.id) v.requestId
    (fun r =>
      { r with
        status := if v.approve then .executed else .rejected
        reviewedBy := some v.reviewer
        reviewNotes := some v.notes }) requests

namespace State

variable (s : State)

def setReview (v : Review) : State := { s with reviews := Rows.update (·.pid) v.pid (fun _ => v) s.reviews }

/-- The next statement of a review. A reject takes effect with its update, an approval when it begins to erase. The
error of the last update is not looked at: the handler is done with it in any case. -/
def advance (v : Review) (reply : Reply) : State :=
  match v.stage with
  | .record =>
      if reply.statement = .refused then
        s.setReview { v with
          alive := false
          stage := if v.approve then .record else .ended }
      else
        { s with
          requests := recordDecision v s.requests
          effects := if v.approve then s.effects else s.effects ++ [(v.requestId, v.pid)] }.setReview
          { v with stage := .ended }
  | stage =>
      let (stores, steps, next) := eraseStep s.stores v.vin reply stage
      { s with
        stores := stores
        effects := if stage = Stage.voters then s.effects ++ [(v.requestId, v.pid)] else s.effects
        erasures := if stage = Stage.voters then s.erasures ++
          [(v.vin, v.reviewer, some v.requestId)] else s.erasures
          }.setReview
        { v with
          stage := next
          steps := v.steps ++ steps }

/-- `handleDataErasure`. -/
def immediate (vin reason : String) (actor : Nat) (replies : Fin 4 → Reply) (works : Bool) : State :=
  let s₁ := (eraseStep s.stores vin (replies 0) .voters).1
  let s₂ := (eraseStep s₁ vin (replies 1) .templates).1
  let s₃ := (eraseStep s₂ vin (replies 2) .profiles).1
  let s₄ := (eraseStep s₃ vin (replies 3) .vault).1
  { s with
    stores := s₄
    erasures := s.erasures ++ [(vin, actor, none)]
    requests :=
      if works then
        s.requests ++ [⟨s.requests.length + 1, vin, reason, actor, .executed, some actor,
          some "immediate admin erasure via /data/erasure"⟩]
      else s.requests }

def step : Input → State
  | .request vin reason actor works =>
      if vin ≠ "" ∧ reason ≠ "" ∧ works then
        { s with requests := s.requests ++ [⟨s.requests.length + 1, vin, reason, actor, .pending, none, none⟩] }
      else s
  | .review body reviewer works =>
      match beginReview s.requests works s.reviews.length body reviewer with
      | .error _ => s
      | .ok v => { s with reviews := s.reviews ++ [v] }
  | .advance pid reply =>
      match s.reviews.find? fun v => v.pid == pid with
      | none => s
      | some v => if v.alive ∧ v.stage ≠ .ended then s.advance v reply else s
  | .cut pid =>
      match s.reviews.find? fun v => v.pid == pid with
      | none => s
      | some v => s.setReview { v with alive := false }
  | .immediate vin reason actor replies works => if vin ≠ "" then s.immediate vin reason actor replies works else s

end State

end Inec.Erasure
