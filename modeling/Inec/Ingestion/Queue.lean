import Inec.Ingestion.Payload

/-!
# The ingestion queue

`enqueueJob`, the workers and the recovery of ingestion.go, with the offline sync endpoint in front. A job
is persisted in `ingestion_jobs` under a key that is unique for good, and is also kept in memory until a
worker is done with it. A worker that fails too often moves the job to the dead letters. A crash clears
the memory; the recovery takes up again what the table says is pending.

The rows of `offline_sync_queue`, and accreditations and incidents with theirs, are written beside the
jobs and decide nothing here.
-/

namespace Inec

open Checks

variable (sha256Hex : String → String)

/-! ### Jobs -/

inductive JobType
  | resultSubmission
  | batchResultUpload
  | accreditationSync
  | offlineResultSync
  | other (name : String)
  deriving DecidableEq, Repr

def JobType.text : JobType → String
  | .resultSubmission => "result_submission"
  | .batchResultUpload => "batch_result_upload"
  | .accreditationSync => "accreditation_sync"
  | .offlineResultSync => "offline_result_sync"
  | .other name => name

inductive JobStatus
  | pending | inProgress | completed | failed | deadLetter
  deriving DecidableEq, Repr

/-- Still to be done. -/
def JobStatus.active (status : JobStatus) : Bool := status == .pending || status == .inProgress

/-- A row of `ingestion_jobs` and an entry of the queue in memory. -/
structure IngestionJob where
  id : Nat
  jobType : JobType
  status : JobStatus
  payload : Payload
  idempotencyKey : String
  retries : Nat
  maxRetries : Nat
  error : String

structure DeadLetterEntry where
  id : Nat
  jobId : Nat
  jobType : JobType
  error : String
  payload : Payload
  reprocessed : Bool

structure IngestState where
  tables : Tables
  /-- `ingestion_jobs`. -/
  jobs : List IngestionJob
  /-- `dead_letter_queue`. -/
  deadLetters : List DeadLetterEntry
  /-- `ingestionQueue`. -/
  queue : List IngestionJob
  /-- `idempotencyStore`. -/
  keys : List (String × Nat)
  nextId : Nat
  dlqNextId : Nat

/-- What a statement comes to: done, done without an answer, or not done. -/
inductive DbReply
  | answered | lost | unreachable
  deriving DecidableEq, Repr

def maxIngestionQueueSize : Nat := 10000

namespace IngestState

variable (s : IngestState)

/-- `countInFlightLocked`. -/
def inFlight : Nat := (s.queue.filter fun job => job.status.active).length

/-- The job of the key, while it is in memory. -/
def heldInMemory? (key : String) : Option IngestionJob :=
  (s.keys.lookup key).bind fun id => s.queue.find? fun job => job.id == id

/-- The job of the key in the table. -/
def jobOf? (key : String) : Option IngestionJob := s.jobs.find? fun job => job.idempotencyKey == key

def updateJob (id : Nat) (f : IngestionJob → IngestionJob) : IngestState :=
  { s with jobs := Rows.update (·.id) id f s.jobs }

end IngestState

/-! ### Enqueueing -/

/-- The key a job is stored under. -/
def enqueueKey (jobType : JobType) (payload : Payload) (key : String) : String :=
  if key = "" then generateIdempotencyKey sha256Hex jobType.text payload else key

def newJob (id : Nat) (jobType : JobType) (payload : Payload) (key : String) : IngestionJob where
  id := id
  jobType := jobType
  status := .pending
  payload := payload
  idempotencyKey := key
  retries := 0
  maxRetries := 3
  error := ""

/-- The INSERT of `enqueueJob` with `ON CONFLICT (idempotency_key) DO NOTHING`, and what follows from it: the
job and whether it was there before. -/
def persistJob (s : IngestState) (job : IngestionJob) (db : DbReply) :
    IngestState × Except String (IngestionJob × Bool) :=
  let s := { s with nextId := s.nextId + 1 }
  if db = .unreachable then (s, .error "persist ingestion job: database unreachable")
  else
    match s.jobOf? job.idempotencyKey with
    | some existing =>
        if db = .lost then (s, .error "persist ingestion job: no answer") else (s, .ok (existing, true))
    | none =>
        if s.jobs.any fun row => row.id == job.id then (s, .error "persist ingestion job: duplicate id")
        else if db = .lost then ({ s with jobs := s.jobs ++ [job] }, .error "persist ingestion job: no answer")
        else
          ({ s with
              jobs := s.jobs ++ [job]
              queue := s.queue ++ [job]
              keys := (job.idempotencyKey, job.id) :: s.keys },
            .ok (job, false))

/-- `enqueueJob`: the job of the key, and whether it was there before. -/
def enqueueJob (s : IngestState) (jobType : JobType) (payload : Payload) (key : String) (db : DbReply) :
    IngestState × Except String (IngestionJob × Bool) :=
  let key := enqueueKey sha256Hex jobType payload key
  match s.heldInMemory? key with
  | some job => (s, .ok (job, true))
  | none =>
      if maxIngestionQueueSize ≤ s.inFlight then
        (s, .error ("ingestion queue full (" ++ toString maxIngestionQueueSize ++
          " jobs in flight) — try again later"))
      else persistJob s (newJob s.nextId jobType payload key) db

/-! ### The workers -/

/-- What a worker sees of its surroundings in one attempt. -/
structure WorkEnv where
  env : Env
  /-- Whether the row of `offline_sync_queue` is found or written. -/
  queueRow : Bool
  /-- The commit of the result's transaction. -/
  commit : DbReply
  /-- The outcome of applying an accreditation or an incident. -/
  applyOther : Except String Unit
  /-- The statements of the jobs a batch enqueues. -/
  children : DbReply
  /-- `fmt.Sprintf("%v", value)`. -/
  formatV : Option PayloadValue → String
  /-- Whether the INSERT of the dead letter and the last UPDATE of the job are carried out. -/
  lettered : Bool
  recorded : Bool

/-- `applyIngestedResult`: `applyResultTx` in a transaction of its own, and the audit row. -/
def applyIngestedResult (work : WorkEnv) (db : Tables) (res : IngestedResult) : Tables × Except String Unit :=
  match applyResultTx sha256Hex work.env db res with
  | .error err => (db, .error err)
  | .ok (outcome, resultId, db') =>
      match work.commit with
      | .unreachable => (db, .error "commit result")
      | .lost => (db', .error "commit result")
      | .answered =>
          match outcome with
          | .applied => (logAudit work.env db' "RESULT_SUBMITTED" "result" (toString resultId), .ok ())
          | .duplicate => (db', .ok ())
          | .conflict => (logAudit work.env db' "RESULT_SYNC_CONFLICT" "result" (toString resultId), .ok ())

def processResultIngestion (work : WorkEnv) (s : IngestState) (job : IngestionJob) :
    IngestState × Except String Unit :=
  match parseIngestedResult job.payload with
  | .error err => (s, .error err)
  | .ok res =>
      let res := if res.source = "" then { res with source := "ingestion_api" } else res
      let applied := applyIngestedResult sha256Hex work s.tables res
      ({ s with tables := applied.1 }, applied.2)

/-- A text field of the payload, as a Go type assertion reads it. -/
def textField (payload : Payload) (key : String) : String :=
  match payload.get? key with
  | some (.str text) => text
  | _ => ""

def processOfflineSync (work : WorkEnv) (s : IngestState) (job : IngestionJob) : IngestState × Except String Unit :=
  let syncType := textField job.payload "sync_type"
  if work.queueRow then
    if syncType = SyncType.result.text then
      match parseIngestedResult job.payload with
      | .error err => (s, .error err)
      | .ok res =>
          let res := { res with source := "offline_sync", sourceRef := textField job.payload "device_id" }
          let applied := applyIngestedResult sha256Hex work s.tables res
          ({ s with tables := applied.1 }, applied.2)
    else if syncType = SyncType.accreditation.text ∨ syncType = SyncType.incident.text then (s, work.applyOther)
    else (s, .error ("unknown sync_type: " ++ syncType))
  else (s, .error "record offline sync queue row")

/-- One item of a batch job, which becomes a job of its own. -/
def enqueueBatchItem (work : WorkEnv) (batch : Payload) (acc : IngestState × List String)
    (item : PayloadValue × Nat) :
    IngestState × List String :=
  match item.1 with
  | .obj result =>
      let key := "batch-" ++ work.formatV (batch.get? "batch_id") ++ "-" ++ toString item.2
      let enqueued := enqueueJob sha256Hex acc.1 .resultSubmission result key work.children
      match enqueued.2 with
      | .ok _ => (enqueued.1, acc.2)
      | .error err => (enqueued.1, acc.2 ++ ["item " ++ toString item.2 ++ ": " ++ err])
  | _ => (acc.1, acc.2 ++ ["item " ++ toString item.2 ++ ": not an object"])

def processBatchResultIngestion (work : WorkEnv) (s : IngestState) (job : IngestionJob) :
    IngestState × Except String Unit :=
  match job.payload.get? "results" with
  | some (.arr items) =>
      let enqueued := items.zipIdx.foldl (enqueueBatchItem sha256Hex work job.payload) (s, [])
      (enqueued.1, if enqueued.2.isEmpty then .ok ()
        else .error ("batch enqueue failures: " ++ String.intercalate "; " enqueued.2))
  | _ => (s, .error "invalid batch payload: missing results array")

def executeIngestionJob (work : WorkEnv) (s : IngestState) (job : IngestionJob) :
    IngestState × Except String Unit :=
  match job.jobType with
  | .resultSubmission => processResultIngestion sha256Hex work s job
  | .batchResultUpload => processBatchResultIngestion sha256Hex work s job
  | .accreditationSync => (s, work.applyOther)
  | .offlineResultSync => processOfflineSync sha256Hex work s job
  | .other name => (s, .error ("unknown job type: " ++ name))

/-- A worker takes the job up. -/
def startJob (s : IngestState) (id : Nat) (recorded : Bool) : IngestState :=
  if s.queue.any fun job => job.id == id then
    let s := { s with queue := Rows.update (·.id) id (fun job => { job with status := .inProgress }) s.queue }
    if recorded then s.updateJob id fun row => { row with status := .inProgress } else s
  else s

/-- `removeJobFromQueueLocked` and the key with it. -/
def forgetJob (s : IngestState) (job : IngestionJob) : IngestState :=
  { s with
    queue := s.queue.eraseP fun other => other.id == job.id
    keys := s.keys.filter fun entry => entry.1 != job.idempotencyKey }

def completeJob (work : WorkEnv) (s : IngestState) (job : IngestionJob) : IngestState :=
  forgetJob (if work.recorded then s.updateJob job.id fun row =>
    { row with status := .completed, retries := job.retries }
    else s) job

/-- After the last attempt the job goes to the dead letters. Their counter starts again with the process, and
an id that is taken fails the INSERT. -/
def deadLetterJob (work : WorkEnv) (s : IngestState) (job : IngestionJob) (err : String) : IngestState :=
  let entry : DeadLetterEntry := ⟨s.dlqNextId, job.id, job.jobType, err, job.payload, false⟩
  let s := { s with
    dlqNextId := s.dlqNextId + 1
    deadLetters := if work.lettered && !s.deadLetters.any (fun other => other.id == entry.id) then
        s.deadLetters ++ [entry]
      else s.deadLetters }
  forgetJob (if work.recorded then
      s.updateJob job.id fun row => { row with status := .deadLetter, error := err, retries := job.retries + 1 }
    else s) job

/-- One attempt of a worker at the job it took up. -/
def workJob (work : WorkEnv) (s : IngestState) (id : Nat) : IngestState :=
  match s.queue.find? fun job => job.id == id && job.status == .inProgress with
  | none => s
  | some job =>
      let executed := executeIngestionJob sha256Hex work s job
      match executed.2 with
      | .ok () => completeJob work executed.1 job
      | .error err =>
          if job.maxRetries ≤ job.retries then deadLetterJob work executed.1 job err
          else
            { executed.1 with
              queue := Rows.update (·.id) id (fun job => { job with retries := job.retries + 1 }) executed.1.queue }

/-- `handleReprocessDLQ`: the payload under the key of its content. -/
def reprocessDLQ (s : IngestState) (id : Nat) (db : DbReply) (recorded : Bool) : IngestState :=
  match s.deadLetters.find? fun entry => entry.id == id && !entry.reprocessed with
  | none => s
  | some entry =>
      let enqueued := enqueueJob sha256Hex s entry.jobType entry.payload "" db
      match enqueued.2 with
      | .ok _ =>
          if recorded then
            { enqueued.1 with
              deadLetters := Rows.update (·.id) id (fun e =>
                { e with reprocessed := true }) enqueued.1.deadLetters }
          else enqueued.1
      | .error _ => enqueued.1

/-- A crash and `recoverPendingJobs`. The UPDATE and the SELECT may fail, and the counter goes on from what
the largest id reads as. -/
def restart (s : IngestState) (nextId : Nat) (reset recovered : Bool) : IngestState :=
  let jobs := if reset then s.jobs.map fun row => if row.status =
      .inProgress then { row with status := .pending } else row
    else s.jobs
  let pending := if recovered then jobs.filter fun row => row.status == .pending else []
  { s with
    jobs := jobs
    queue := pending
    keys := pending.map fun row => (row.idempotencyKey, row.id)
    nextId := nextId
    dlqNextId := 1 }

/-! ### The sync endpoint -/

structure SyncItem where
  payload : Option Payload
  timestamp : String
  idempotencyKey : String

/-- What the items of one batch have in common. `checkTimestamp` is `validateOfflineSyncTimestamp` at the
current time. -/
structure SyncBatch where
  deviceId : String
  syncType : SyncType
  userId : Int
  receivedAt : String
  checkTimestamp : String → Except String Unit

inductive ItemOutcome
  | queued (jobId : Nat)
  | duplicate (jobId : Nat)
  | rejected (err : String)
  deriving DecidableEq, Repr

/-- The item as it is enqueued. -/
def syncPayload (batch : SyncBatch) (item : SyncItem) : Payload :=
  let payload := ((((item.payload.getD []).set "device_id" (.str batch.deviceId)).set "sync_type"
    (.str batch.syncType.text)).set "original_timestamp" (.str item.timestamp)).set "server_received_at"
    (.str batch.receivedAt)
  if (payload.get? "submitted_by").isNone ∧ 0 < batch.userId then
    payload.set "submitted_by" (.number (.ofInt batch.userId))
  else payload

def syncKey (batch : SyncBatch) (item : SyncItem) : String :=
  if item.idempotencyKey = "" then deriveOfflineSyncKey sha256Hex batch.deviceId batch.syncType
    (syncPayload batch item)
  else item.idempotencyKey

/-- The loop body of `handleOfflineSync`. -/
def syncItem (s : IngestState) (batch : SyncBatch) (item : SyncItem) (db : DbReply) : IngestState × ItemOutcome :=
  match batch.checkTimestamp item.timestamp with
  | .error err => (s, .rejected err)
  | .ok () =>
      let enqueued := enqueueJob sha256Hex s .offlineResultSync (syncPayload batch item)
        (syncKey sha256Hex batch item) db
      (enqueued.1,
        match enqueued.2 with
        | .error err => .rejected err
        | .ok (job, true) => .duplicate job.id
        | .ok (job, false) => .queued job.id)

def offlineSyncMaxItems : Nat := 500

/-- The items of a batch one after the other, with their outcomes. -/
def syncItems (s : IngestState) (batch : SyncBatch) : List (SyncItem × DbReply) → IngestState × List ItemOutcome
  | [] => (s, [])
  | (item, db) :: rest =>
      let first := syncItem sha256Hex s batch item db
      let later := syncItems first.1 batch rest
      (later.1, first.2 :: later.2)

/-- `handleOfflineSync` after its role check and the check of the sync type. -/
def handleOfflineSync (s : IngestState) (batch : SyncBatch) (deviceRegistered : Bool)
    (items : List (SyncItem × DbReply)) :
    Except HttpError (IngestState × List ItemOutcome) := do
  require (batch.deviceId != "") ⟨400, "device_id required"⟩
  require deviceRegistered ⟨404, "device not registered"⟩
  require (!items.isEmpty) ⟨400, "no items to sync"⟩
  require (items.length ≤ offlineSyncMaxItems) ⟨400, "offline sync batch size exceeds maximum of 500"⟩
  return syncItems sha256Hex s batch items

/-! ### The machine -/

/-- `sync` is one item of a batch: between two items the workers run. `enqueue` stands for the other
endpoints, `other` for whatever else writes the tables. -/
inductive IngestInput
  | sync (batch : SyncBatch) (item : SyncItem) (db : DbReply)
  | enqueue (jobType : JobType) (payload : Payload) (key : String) (db : DbReply)
  | start (id : Nat) (recorded : Bool)
  | work (id : Nat) (work : WorkEnv)
  | reprocess (id : Nat) (db : DbReply) (recorded : Bool)
  | restart (nextId : Nat) (reset recovered : Bool)
  | other (tables : Tables)

def ingestStep (s : IngestState) : IngestInput → IngestState
  | .sync batch item db => (syncItem sha256Hex s batch item db).1
  | .enqueue jobType payload key db => (enqueueJob sha256Hex s jobType payload key db).1
  | .start id recorded => startJob s id recorded
  | .work id work => workJob sha256Hex work s id
  | .reprocess id db recorded => reprocessDLQ sha256Hex s id db recorded
  | .restart nextId reset recovered => restart s nextId reset recovered
  | .other tables => { s with tables := tables }

/-- No job yet, over any tables. -/
def ingestStart (tables : Tables) : IngestState where
  tables := tables
  jobs := []
  deadLetters := []
  queue := []
  keys := []
  nextId := 1
  dlqNextId := 1

end Inec
