import Inec.Integration.DeviceGateway
import Inec.Ingestion.Payload
import Inec.Lib.UniqueIndex

/-!
# Accreditations

The three ways into `bvas_accreditations`: the staff request of bvas.go, the jobs of ingestion.go and the
envelopes of device_gateway.go. The request counts the accreditations of the voter first and inserts in a
transaction of its own; the other two insert with a conflict clause on the hash, the election and the polling
unit. The index of migration 000045 is on the hash and the election alone.

An attempt that has come to its end is listed in `ended`, with whether the voter was accredited before its last
statement. No step of the code reads the list. `Fault` and the errors given with a step are failures of the
database.
-/

namespace Inec.Bvas

open Checks

variable (sha256Hex : String → String)

/-! ### The table -/

/-- A hash of a voter card and an election. -/
abbrev Voter : Type := String × Int

structure AccreditationRow where
  id : Int
  deviceId : String
  electionId : Int
  pollingUnitCode : String
  voterPvcHash : String
  biometricMatch : Bool
  pvcVerified : Bool
  method : String
  /-- Set by the BVAS service, which has a table path of its own. -/
  voterVin : Option String
  deriving DecidableEq, Repr

def AccreditationRow.voter (row : AccreditationRow) : Voter := (row.voterPvcHash, row.electionId)

def accreditationsPkey : UniqueIndex AccreditationRow where
  name := "bvas_accreditations_pkey"
  columns := ["id"]
  predicate := none
  collide r r' := r.id == r'.id

def voterElectionPuUnique : UniqueIndex AccreditationRow where
  name := "bvas_accreditations_voter_election_pu_unique"
  columns := ["voter_pvc_hash", "election_id", "polling_unit_code"]
  predicate := none
  collide r r' := r.voter == r'.voter && r.pollingUnitCode == r'.pollingUnitCode

def voterElectionUnique : UniqueIndex AccreditationRow where
  name := "bvas_accreditations_voter_election_unique"
  columns := ["voter_pvc_hash", "election_id"]
  predicate := none
  collide r r' := r.voter == r'.voter

def vinElectionUnique : UniqueIndex AccreditationRow where
  name := "bvas_accreditations_vin_election_unique"
  columns := ["election_id", "voter_vin"]
  predicate := some "voter_vin IS NOT NULL"
  collide r r' := r.voterVin.isSome && r.electionId == r'.electionId && r.voterVin == r'.voterVin

/-- The statements of 000006, 000033 and 000045. -/
def accreditationIndexes : List (UniqueIndex AccreditationRow) :=
  UniqueIndex.migrated
    [.create accreditationsPkey, .create voterElectionPuUnique, .create voterElectionUnique,
      .create vinElectionUnique]

/-- The clause of both inserts that have one. -/
def conflictTarget : List String := ["voter_pvc_hash", "election_id", "polling_unit_code"]

/-- An error of the database as the driver hands it on. -/
def driverError (text : String) : String := "ERROR: " ++ text ++ " (SQLSTATE 23505)"

/-! ### The staff request -/

structure AccreditationRequest where
  deviceId : String
  electionId : Int
  pollingUnitCode : String
  voterPvcNumber : String
  verificationId : Int
  method : String
  /-- Latitude and longitude are both given. -/
  located : Bool
  deriving DecidableEq, Repr

structure VerificationRow where
  result : String
  electionId : Option Int
  pollingUnitCode : Option String
  deriving DecidableEq, Repr

/-- The answer to the query for the verification. -/
inductive VerificationAnswer
  | row (verification : VerificationRow)
  | noRows
  | unavailable
  deriving DecidableEq, Repr

inductive GeofenceAnswer
  | within
  /-- The distance and the radius, as `%.0fm` and `%dm` write them. -/
  | outside (distance radius : String)
  | unavailable (err : String)
  deriving DecidableEq, Repr

/-- What a request is checked against. -/
structure Surroundings where
  /-- `externalDeviceGatewayRequired`. -/
  gatewayRequired : Bool
  verification : VerificationAnswer
  deviceStatus : Option String
  electionStatus : Option String
  geofence : GeofenceAnswer
  deriving DecidableEq, Repr

def fetchVerification : VerificationAnswer → Except HttpError VerificationRow
  | .row verification => .ok verification
  | .noRows => .error ⟨403, "no server-side biometric verification on file; accreditation refused"⟩
  | .unavailable => .error ⟨503, "biometric verification service unavailable; accreditation refused"⟩

def checkGeofence : GeofenceAnswer → Except HttpError Unit
  | .within => .ok ()
  | .outside distance radius =>
      .error ⟨403, "Geofence violation: BVAS device is " ++ distance ++
        " from polling unit (allowed: " ++ radius ++ ")"⟩
  | .unavailable err => .error ⟨403, "Geofence validation failed (fail-closed): " ++ err⟩

def alreadyConsumed : HttpError :=
  ⟨409, "biometric verification already consumed; a fresh verification is required per accreditation"⟩

/-- `handleBVASAccreditation` as far as the count. -/
def checkAccreditation (req : AccreditationRequest) (around : Surroundings) (consumed : Bool) :
    Except HttpError Unit := do
  require (!around.gatewayRequired)
    ⟨410, "legacy staff-authenticated BVAS ingestion is disabled; use the mTLS device gateway"⟩
  require (req.verificationId != 0) ⟨400, "verification_id (server-side biometric verification record) required"⟩
  let verification ← fetchVerification around.verification
  require (verification.result == "match")
    ⟨403, "biometric verification did not result in a match; accreditation refused"⟩
  require (!consumed) alreadyConsumed
  require (verification.electionId.all fun id => id == 0 || id == req.electionId)
    ⟨403, "biometric verification belongs to a different election; accreditation refused"⟩
  require (verification.pollingUnitCode.all fun code => code == "" || code == req.pollingUnitCode)
    ⟨403, "biometric verification belongs to a different polling unit; accreditation refused"⟩
  let deviceStatus ← fetch around.deviceStatus ⟨404, "BVAS device not found"⟩
  require (deviceStatus == "active")
    ⟨400, "BVAS device is '" ++ deviceStatus ++ "' — must be 'active' to perform accreditation"⟩
  let electionStatus ← fetch around.electionStatus ⟨404, "Election not found"⟩
  require (electionStatus == "voting" || electionStatus == "active")
    ⟨400, "Election is '" ++ electionStatus ++ "' — accreditation only allowed during 'voting' or 'active' phase"⟩
  require req.located ⟨400, "device location (device_lat, device_lng) is required for accreditation"⟩
  checkGeofence around.geofence

/-- The row of a request. The flags of the client are ignored. -/
def AccreditationRequest.row (req : AccreditationRequest) (id : Int) : AccreditationRow where
  id := id
  deviceId := req.deviceId
  electionId := req.electionId
  pollingUnitCode := req.pollingUnitCode
  voterPvcHash := sha256Hex req.voterPvcNumber
  biometricMatch := true
  pvcVerified := true
  method := if req.method = "" then "biometric" else req.method
  voterVin := none

/-- The statement of the transaction that fails. -/
inductive Fault
  | beginTx
  | consume
  | insert (err : String)
  | commit
  deriving DecidableEq, Repr

/-! ### Jobs and envelopes -/

def methods : List String := ["biometric", "manual", "override"]

/-- A flag that may come as a bool or as a text. -/
def payloadFlag (payload : Payload) (key : String) : Bool :=
  match payload.get? key with
  | some (.bool value) => value
  | _ => payloadString payload [key] == "true"

/-- `applyIngestedAccreditation` as far as its INSERT. -/
def parseAccreditation (payload : Payload) (id : Int) : Except String AccreditationRow := do
  let electionId := payloadInt payload ["election_id"]
  require (electionId.isSome && 0 < electionId.getD 0) "election_id is required"
  let code := payloadString payload ["polling_unit_code", "pu_code"]
  require (code != "") "polling_unit_code is required"
  let hash ← relabel (normalizeLowerHex64 (payloadString payload ["voter_pvc_hash"])) fun err =>
    "voter_pvc_hash " ++ err
  let method := payloadString payload ["method"]
  let method := if method = "" then "biometric" else method
  require (methods.contains method) "invalid accreditation method"
  return {
    id := id
    deviceId := payloadString payload ["device_id"]
    electionId := electionId.getD 0
    pollingUnitCode := code
    voterPvcHash := hash
    biometricMatch := payloadFlag payload "biometric_match"
    pvcVerified := payloadFlag payload "pvc_verified"
    method := method
    voterVin := none }

/-- The payload of an accreditation envelope, once it is decoded. -/
structure GatewayAccreditation where
  voterPvcHash : String
  biometricMatch : Bool
  pvcVerified : Bool
  method : String
  deriving DecidableEq, Repr

/-- An envelope that has been verified, with what its transaction finds. -/
structure AccreditationEnvelope where
  inbox : InboxRow
  electionId : Int
  pollingUnitCode : String
  payload : Except String GatewayAccreditation
  deviceStatus : Option String
  electionStatus : Option String

/-- `deviceGatewayAccreditationPayload` and the two checks behind it. -/
def checkEnvelope (e : AccreditationEnvelope) (id : Int) : Except String AccreditationRow := do
  let value ← e.payload
  let hash ← relabel (normalizeLowerHex64 value.voterPvcHash) fun err => "voter_pvc_hash " ++ err
  let method := if value.method = "" then "biometric" else value.method
  require (methods.contains method) "invalid accreditation method"
  require (e.deviceStatus == some "active") "device is not active"
  require (e.electionStatus == some "voting" || e.electionStatus == some "active")
    "election is not accepting accreditation"
  return {
    id := id
    deviceId := e.inbox.deviceId
    electionId := e.electionId
    pollingUnitCode := e.pollingUnitCode
    voterPvcHash := hash
    biometricMatch := value.biometricMatch
    pvcVerified := value.pvcVerified
    method := method
    voterVin := none }

/-! ### Attempts -/

inductive Ending
  | accepted
  /-- Reported as a duplicate. -/
  | duplicate
  /-- Refused by a check of the path. -/
  | refused (err : HttpError)
  /-- Answered as a replay of an event that is, or is not, in the inbox. -/
  | replayed (inInbox : Bool)
  | failed (err : HttpError)
  | deadLetter (err : String)
  deriving DecidableEq, Repr

structure Ended where
  voter : Voter
  /-- The voter was accredited before. -/
  late : Bool
  ending : Ending
  deriving DecidableEq, Repr

/-- A request between its count and its transaction. -/
structure Job where
  payload : Payload
  maxRetries : Nat
  tries : Nat

structure State where
  rows : List AccreditationRow
  /-- The verifications with a `consumed_at`. -/
  consumed : List Int
  inbox : List InboxRow
  /-- The requests that have counted and found nothing. -/
  counted : List AccreditationRequest
  jobs : List Job
  ended : List Ended

def start : State := ⟨[], [], [], [], [], []⟩

inductive Input
  /-- A request up to its count, which may fail to be answered. -/
  | request (req : AccreditationRequest) (around : Surroundings) (answered : Bool)
  /-- The transaction of a request that has counted. -/
  | transact (index : Nat) (fault : Option Fault)
  | takeJob (payload : Payload) (maxRetries : Nat)
  /-- A try of a job, whose statement may fail. -/
  | tryJob (index : Nat) (fault : Option String)
  /-- The transaction of an envelope, of which some statement may fail. -/
  | envelope (e : AccreditationEnvelope) (fault : Option String)

namespace State

variable (s : State)

def rowsOf (voter : Voter) : List AccreditationRow := s.rows.filter fun row => row.voter == voter

def accredited (voter : Voter) : Bool := s.rows.any fun row => row.voter == voter

def nextId : Int := nextSerial (s.rows.map (·.id))

def finish (voter : Voter) (ending : Ending) : State :=
  { s with ended := s.ended ++ [⟨voter, s.accredited voter, ending⟩] }

/-- Write the row, and end as accepted. -/
def accept (row : AccreditationRow) (rows : List AccreditationRow) : State :=
  { s.finish row.voter .accepted with rows := rows }

/-- The count and the checks before it. -/
def request (req : AccreditationRequest) (around : Surroundings) (answered : Bool) : State :=
  let row := req.row sha256Hex s.nextId
  match checkAccreditation req around (s.consumed.contains req.verificationId) with
  | .error err => s.finish row.voter (.refused err)
  | .ok () =>
      if answered ∧ 0 < (s.rowsOf row.voter).length then s.finish row.voter .duplicate
      else { s with counted := s.counted ++ [req] }

/-- The transaction of the request: the verification is used up and the row inserted, or neither. -/
def transact (req : AccreditationRequest) (fault : Option Fault) : State :=
  let row := req.row sha256Hex s.nextId
  match fault with
  | some .beginTx => s.finish row.voter (.failed ⟨500, "database transaction failed"⟩)
  | some .consume =>
      s.finish row.voter (.failed ⟨503, "biometric verification service unavailable; accreditation refused"⟩)
  | _ =>
      if s.consumed.contains req.verificationId then s.finish row.voter (.refused alreadyConsumed)
      else
        match fault, UniqueIndex.insert accreditationIndexes s.rows row with
        | some (.insert err), _ => s.finish row.voter (.failed ⟨500, "failed to persist accreditation: " ++ err⟩)
        | _, .error err =>
            s.finish row.voter (.failed ⟨500, "failed to persist accreditation: " ++ driverError err⟩)
        | some _, .ok _ => s.finish row.voter (.failed ⟨500, "commit failed"⟩)
        | none, .ok rows =>
            { s.accept row rows with consumed := s.consumed ++ [req.verificationId] }

/-- What the INSERT with the conflict clause comes to. -/
def insertOnConflict (row : AccreditationRow) (fault : Option String) :
    Except String (List AccreditationRow × Nat) :=
  match fault with
  | some err => .error err
  | none => relabel (UniqueIndex.insertOnConflict accreditationIndexes conflictTarget s.rows row) driverError

/-- A try that has failed: the job is tried again, or put away. -/
def failJob (index : Nat) (job : Job) (voter : Option Voter) (err : String) : State :=
  if job.tries < job.maxRetries then { s with jobs := s.jobs.set index { job with tries := job.tries + 1 } }
  else
    match voter with
    | some voter => { s.finish voter (.deadLetter err) with jobs := s.jobs.eraseIdx index }
    | none => { s with jobs := s.jobs.eraseIdx index }

def tryJob (index : Nat) (job : Job) (fault : Option String) : State :=
  match parseAccreditation job.payload s.nextId with
  | .error err => s.failJob index job none err
  | .ok row =>
      match s.insertOnConflict row fault with
      | .error err => s.failJob index job (some row.voter) ("persist accreditation: " ++ err)
      | .ok (_, 0) => { s.finish row.voter .duplicate with jobs := s.jobs.eraseIdx index }
      | .ok (rows, _ + 1) => { s.accept row rows with jobs := s.jobs.eraseIdx index }

/-- The inbox has a row with a key of this one. -/
def recorded (row : InboxRow) : Bool :=
  s.inbox.any fun old =>
    old.sequenceKey == row.sequenceKey || old.nonceKey == row.nonceKey || old.envelopeHash == row.envelopeHash

/-- How the handler answers an error of the transaction. -/
def answerError (inbox : InboxRow) (err : String) : Ending :=
  if isReplayError err then .replayed (s.recorded inbox) else .failed ⟨422, err⟩

/-- The transaction of `persistDeviceGatewayEnvelope` for an accreditation. -/
def envelope (e : AccreditationEnvelope) (fault : Option String) : State :=
  match checkEnvelope e s.nextId with
  | .error _ => s
  | .ok row =>
      match fault with
      | some err => s.finish row.voter (s.answerError e.inbox err)
      | none =>
          if s.recorded e.inbox then s.finish row.voter (s.answerError e.inbox uniqueViolation)
          else
            match s.insertOnConflict row none with
            | .error err =>
                s.finish row.voter (s.answerError e.inbox ("persist accredited device event: " ++ err))
            | .ok (_, 0) => { s.finish row.voter .duplicate with inbox := s.inbox ++ [e.inbox] }
            | .ok (rows, _ + 1) => { s.accept row rows with inbox := s.inbox ++ [e.inbox] }

end State

def step (s : State) : Input → State
  | .request req around answered => s.request sha256Hex req around answered
  | .transact index fault =>
      match s.counted[index]? with
      | some req => { s.transact sha256Hex req fault with counted := s.counted.eraseIdx index }
      | none => s
  | .takeJob payload maxRetries => { s with jobs := s.jobs ++ [⟨payload, maxRetries, 0⟩] }
  | .tryJob index fault =>
      match s.jobs[index]? with
      | some job => s.tryJob index job fault
      | none => s
  | .envelope e fault => s.envelope e fault

end Inec.Bvas
