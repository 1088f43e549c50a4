import Inec.Ingestion.Queue
import Inec.Lib.GoSlice
import Inec.Lib.Runs

/-!
# The queue of the internal ingestion service

`internal/ingestion/service.go`. A worker looks its job up under the lock, keeps a pointer to the slot it lies
in, and reads the type and the payload through the pointer after it has let go of the lock. Whoever ends a job
takes it out of the queue in place, which moves the jobs behind it by one slot, and new jobs go to the slot
behind the last one.

The steps are what a worker does in one piece: under the lock, between two reads, or with the database. `job` in
`Worker`, `Call`, `Update` and `Returned` is the job as it was when the worker picked it; no step of the code
reads it.
-/

namespace Inec.InternalQueue

open GoSlice

def maxConcurrentJobProcessor : Nat := 32

def defaultRetries : Int := 3

structure Job where
  id : String
  jobType : String
  status : JobStatus
  payload : Payload
  idempotencyKey : String
  retries : Int
  maxRetries : Int
  error : String
  deriving DecidableEq

def Job.setStatus (status : JobStatus) (job : Job) : Job := { job with status }

/-- `Retries++`, with the status that follows from it. -/
def Job.again (job : Job) : Job :=
  { job with
    retries := job.retries + 1
    status := .pending }

def Job.giveUp (err : String) (job : Job) : Job :=
  { job with
    retries := job.retries + 1
    status := .deadLetter
    error := err }

def Job.fail (errMsg : String) (job : Job) : Job :=
  { job with
    status := .failed
    error := errMsg }

/-- What an UPDATE on `ingestion_jobs` sets. -/
inductive Outcome
  | completed
  | failed (errMsg : String)
  | pending (retries : Int)
  | deadLetter (errMsg : String) (retries : Int)
  deriving DecidableEq, Repr

inductive Stage
  /-- Has the pointer. -/
  | picked
  /-- Has looked up the processor of the type it read. -/
  | known (jobType : String)
  /-- There is no processor of the type it read. -/
  | unknown
  | processing
  | failing (errMsg : String)
  /-- Out of the lock for the last time, with the UPDATE still to come. -/
  | ending (outcome : Outcome)
  deriving DecidableEq, Repr

/-- A goroutine in `processJob(jobID)`. -/
structure Worker where
  key : Nat
  jobID : String
  job : Job
  pointer : Pointer
  stage : Stage
  deriving DecidableEq

/-- A call of a processor. -/
structure Call where
  worker : Nat
  job : Job
  jobType : String
  payload : Payload
  deriving DecidableEq

/-- An UPDATE of the row of `ingestion_jobs` with this id. -/
structure Update where
  worker : Nat
  job : Job
  id : String
  outcome : Outcome
  deriving DecidableEq

/-- A call that has come back with this error. -/
structure Returned where
  worker : Nat
  job : Job
  err : Option String
  deriving DecidableEq

structure State where
  mem : Memory Job
  queue : Slice
  /-- The jobs of the goroutines that have been started and wait for the semaphore. -/
  waiting : List String
  workers : List Worker
  nextKey : Nat
  calls : List Call
  returned : List Returned
  updates : List Update
  deriving DecidableEq

/-- `NewService`, which makes the queue with room for 1000 jobs. -/
def start : State := ⟨[[]], ⟨0, 0, 1000⟩, [], [], 0, [], [], []⟩

namespace State

variable (s : State)

def jobs : List Job := s.mem.contents s.queue

/-- The first job of the queue with this id, with its index. -/
def queued? (jobID : String) : Option (Nat × Job) :=
  (s.jobs.findIdx? (·.id == jobID)).bind fun i => (s.jobs[i]?).map fun job => (i, job)

def worker? (key : Nat) : Option Worker := s.workers.find? (·.key == key)

/-- An assignment to fields of `s.queue[i]`. -/
def setJob (i : Nat) (f : Job → Job) : State := { s with mem := s.mem.modify s.queue i f }

def removeJob (jobID : String) : State :=
  match s.queued? jobID with
  | some (i, _) =>
      { s with
        mem := (s.mem.removeAt s.queue i).1
        queue := (s.mem.removeAt s.queue i).2 }
  | none => s

def setStage (w : Worker) (stage : Stage) : State :=
  { s with workers := Rows.update Worker.key w.key (fun w => { w with stage }) s.workers }

def leave (w : Worker) : State := { s with workers := s.workers.filter (·.key != w.key) }

def exec (w : Worker) (outcome : Outcome) : State :=
  { s with updates := s.updates ++ [⟨w.key, w.job, w.jobID, outcome⟩] }

def comeBack (w : Worker) (err : Option String) : State :=
  { s with returned := s.returned ++ [⟨w.key, w.job, err⟩] }

/-- The append of `Enqueue` and of `RecoverPending`, and the goroutine they start. -/
def enqueue (grow : Nat → Nat) (job : Job) : State :=
  { s with
    mem := (s.mem.append grow s.queue job).1
    queue := (s.mem.append grow s.queue job).2
    waiting := s.waiting ++ [job.id] }

def newWorker (jobID : String) (i : Nat) (job : Job) : Worker :=
  ⟨s.nextKey, jobID, job, ⟨s.queue.array, i⟩, .picked⟩

/-- `processJob` as far as the first unlock. -/
def pick (jobID : String) : State :=
  match s.queued? jobID with
  | some (i, job) =>
      { s with
        mem := s.mem.modify s.queue i (Job.setStatus .inProgress)
        waiting := s.waiting.erase jobID
        workers := s.workers ++ [s.newWorker jobID i job]
        nextKey := s.nextKey + 1 }
  | none => { s with waiting := s.waiting.erase jobID }

/-- The error branch after the processor, under the lock. -/
def retry (w : Worker) (err : String) : State :=
  match s.queued? w.jobID with
  | some (i, job) =>
      if job.maxRetries ≤ job.retries + 1 then
        (((s.setJob i (Job.giveUp err)).removeJob w.jobID).exec w (.deadLetter err (job.retries + 1))).leave w
      else
        ((({ s with waiting := s.waiting ++ [w.jobID] }).setJob i Job.again).exec w
          (.pending (job.retries + 1))).leave w
  | none => s.leave w

/-- The end of `processJob` and of `markFailed` under the lock. -/
def conclude (w : Worker) (f : Job → Job) (outcome : Outcome) : State :=
  let marked :=
    match s.queued? w.jobID with
    | some (i, _) => s.setJob i f
    | none => s
  (marked.removeJob w.jobID).setStage w (.ending outcome)

/-- `processJob` from the return of the processor. -/
def finish (w : Worker) : Option String → State
  | some err => (s.comeBack w (some err)).retry w err
  | none => (s.comeBack w none).conclude w (Job.setStatus .completed) .completed

end State

/-- What a worker does next. -/
inductive Act
  /-- `s.processors[job.Type]`. -/
  | lookUp
  /-- The message for `markFailed`, which reads the type once more. -/
  | describe
  /-- `processor(ctx, job.Payload)`. -/
  | call
  /-- The processor comes back. -/
  | finish (err : Option String)
  | markFailed
  /-- The UPDATE outside of the lock. -/
  | update
  deriving DecidableEq

inductive Input
  | enqueue (job : Job)
  | pick (jobID : String)
  | work (key : Nat) (act : Act)
  deriving DecidableEq

section Step

variable (grow : Nat → Nat) (registered : String → Bool)

def State.work (s : State) (w : Worker) : Act → State
  | .lookUp =>
      match w.stage, s.mem.load w.pointer with
      | .picked, some job => s.setStage w (if registered job.jobType then .known job.jobType else .unknown)
      | _, _ => s
  | .describe =>
      match w.stage, s.mem.load w.pointer with
      | .unknown, some job => s.setStage w (.failing ("no processor registered for type: " ++ job.jobType))
      | _, _ => s
  | .call =>
      match w.stage, s.mem.load w.pointer with
      | .known jobType, some job =>
          { s.setStage w .processing with calls := s.calls ++ [⟨w.key, w.job, jobType, job.payload⟩] }
      | _, _ => s
  | .finish err =>
      match w.stage with
      | .processing => s.finish w err
      | _ => s
  | .markFailed =>
      match w.stage with
      | .failing errMsg => s.conclude w (Job.fail errMsg) (.failed errMsg)
      | _ => s
  | .update =>
      match w.stage with
      | .ending outcome => (s.exec w outcome).leave w
      | _ => s

def step (s : State) : Input → State
  | .enqueue job => s.enqueue grow job
  | .pick jobID => if jobID ∈ s.waiting ∧ s.workers.length < maxConcurrentJobProcessor then s.pick jobID else s
  | .work key act => (s.worker? key).elim s fun w => s.work registered w act

end Step

/-! ### What the workers rely on -/

/-- What a processor gets of a job. -/
def Job.content (job : Job) : String × Payload := (job.jobType, job.payload)

/-- For the worker the one is as good as the other: it has nothing left to read in which they differ. -/
def Worker.Same (w : Worker) (old new : Option Job) : Prop :=
  match w.stage with
  | .picked => new.map Job.content = old.map Job.content
  | .known _ => new.map Job.payload = old.map Job.payload
  | _ => True

instance (w : Worker) (old new : Option Job) : Decidable (w.Same old new) := by
  unfold Worker.Same
  split <;> infer_instance

/-- The index of the job that a step takes out of the queue. -/
def State.takesOut (s : State) : Input → Option Nat
  | .work key act =>
      (s.worker? key).bind fun w =>
        match w.stage, act, s.queued? w.jobID with
        | .processing, .finish none, some (i, _) => some i
        | .processing, .finish (some _), some (i, job) => if job.maxRetries ≤ job.retries + 1 then some i else none
        | .failing _, .markFailed, some (i, _) => some i
        | _, _, _ => none
  | _ => none

/-- No worker that has yet to read its job finds another one in its slot after the step: none is appended there,
and none moves down into it. -/
def State.Undisturbed (s : State) : Input → Prop
  | .enqueue job =>
      ∀ w ∈ s.workers, w.pointer = ⟨s.queue.array, s.queue.len⟩ → s.queue.len < s.queue.cap →
        w.Same (s.mem.load w.pointer) (some job)
  | i =>
      ∀ n ∈ s.takesOut i, ∀ w ∈ s.workers, w.pointer.array = s.queue.array → n ≤ w.pointer.index →
        w.pointer.index + 1 < s.queue.len →
          w.Same (s.mem.load w.pointer) (s.mem.load ⟨w.pointer.array, w.pointer.index + 1⟩)

instance (s : State) : (i : Input) → Decidable (s.Undisturbed i)
  | .enqueue _ | .pick _ | .work _ _ => inferInstanceAs (Decidable (∀ _ ∈ _, _))

/-- The outcome says how the call came back. -/
def Outcome.Reports : Outcome → Option String → Prop
  | .completed, none => True
  | .pending _, some _ => True
  | .deadLetter errMsg _, some text => errMsg = text
  | _, _ => False

instance : (outcome : Outcome) → (err : Option String) → Decidable (outcome.Reports err)
  | .completed, none => .isTrue trivial
  | .pending _, some _ => .isTrue trivial
  | .deadLetter errMsg _, some text => inferInstanceAs (Decidable (errMsg = text))
  | .completed, some _ | .failed _, _ | .pending _, none | .deadLetter _ _, none => .isFalse nofun

/-- Each job is processed as itself. -/
structure State.AsItself (s : State) : Prop where
  /-- A processor gets the type and the payload of the job that was picked. -/
  calls : ∀ c ∈ s.calls, c.jobType = c.job.jobType ∧ c.payload = c.job.payload
  /-- What is written is written under the job's own id. -/
  updates : ∀ u ∈ s.updates, u.id = u.job.id
  /-- How a call came back is written, or its worker is about to. -/
  recorded : ∀ r ∈ s.returned,
    (∃ u ∈ s.updates, u.worker = r.worker ∧ u.job = r.job ∧ u.outcome.Reports r.err) ∨
      ∃ w ∈ s.workers, w.key = r.worker ∧ w.job = r.job ∧ ∃ outcome, w.stage = .ending outcome ∧
        outcome.Reports r.err

end Inec.InternalQueue
