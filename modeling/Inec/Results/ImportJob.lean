import Inec.Ingestion.InternalWorkers
import Inec.Lib.UniqueIndex
import Inec.Results.Consistent

/-!
# Result imports as jobs

A `result_import` job of the internal ingestion service against the constraints that the migrations leave on
`results`. The INSERT names its arbiter by the two columns alone. Migration 000028 made a unique index on just
these; 000036 put a partial one in its place, which a conflict clause without a predicate does not find. So the
statement fails while it is planned, whatever the table holds, and no job gets behind it.

`processResultImport` below is the processor with the answers of the database and with what it logs. `Answers`
holds what the database says where the constraints do not decide it.
-/

namespace Inec.ResultImport

open Checks

/-! ### The constraints on results -/

def resultsPkey : UniqueIndex ResultRow where
  name := "results_pkey"
  columns := ["id"]
  predicate := none
  collide r r' := r.id == r'.id

def resultsElectionPuUnique : UniqueIndex ResultRow where
  name := "results_election_pu_unique"
  columns := ["election_id", "polling_unit_code"]
  predicate := none
  collide r r' := r.key == r'.key

def resultsCanonicalPuUnique : UniqueIndex ResultRow where
  name := "results_canonical_pu_unique"
  columns := ["election_id", "polling_unit_code"]
  predicate := some "status NOT IN ('superseded','voided')"
  collide r r' := r.status.live && r'.status.live && r.key == r'.key

def resultsIdempotencyKeyUnique : UniqueIndex ResultRow where
  name := "results_idempotency_key_unique"
  columns := ["idempotency_key"]
  predicate := some "idempotency_key IS NOT NULL"
  collide r r' := r.idempotencyKey.isSome && r.idempotencyKey == r'.idempotencyKey

/-- The statements of 000001, 000028 and 000036 on unique indexes of `results`; no later migration has one. -/
def resultsMigrations : List (UniqueIndex.Ddl ResultRow) :=
  [.create resultsPkey, .create resultsElectionPuUnique, .drop "results_election_pu_unique",
    .create resultsCanonicalPuUnique, .create resultsIdempotencyKeyUnique]

def resultsIndexes : List (UniqueIndex ResultRow) := UniqueIndex.migrated resultsMigrations

example : resultsIndexes = [resultsPkey, resultsCanonicalPuUnique, resultsIdempotencyKeyUnique] := rfl

def conflictTarget : List String := ["election_id", "polling_unit_code"]

theorem arbiter?_resultsIndexes : UniqueIndex.arbiter? resultsIndexes conflictTarget = none := rfl

/-- As long as the index of 000028 was there it was the arbiter. -/
example : (UniqueIndex.arbiter? (UniqueIndex.migrated (resultsMigrations.take 2)) conflictTarget).map (·.name) =
    some "results_election_pu_unique" := by decide

/-! ### The processor -/

structure Answers where
  beginTx : Except String Unit
  insert : Except String Unit
  load : Except String Unit
  scores : Except String Unit
  commit : Except String Unit

def conflictMessage : String := "result_import conflict: divergent figures for existing result; first-writer-wins"

/-- The figures the code compares. -/
def divergent (existing row : ResultRow) : Bool :=
  existing.totalValidVotes != row.totalValidVotes || existing.rejectedVotes != row.rejectedVotes ||
    existing.accreditedVoters != row.accreditedVoters

/-- The transaction of a row and its scores, with the warnings it logs. -/
def importTx (indexes : List (UniqueIndex ResultRow)) (answers : Answers) (db : Tables) (row : ResultRow)
    (scores : List PartyVoteEntry) : Except String Tables × List String :=
  match UniqueIndex.insertOnConflict indexes conflictTarget db.results row, answers.insert with
  | .error err, _ | .ok _, .error err => (.error ("insert result: pq: " ++ err), [])
  | .ok (_, 0), .ok () =>
      match answers.load, db.results.find? (·.key == row.key) with
      | .error err, _ => (.error ("load existing result: " ++ err), [])
      | .ok (), none => (.error ("load existing result: " ++ "sql: no rows in result set"), [])
      | .ok (), some existing =>
          (answers.commit.map fun _ => db, if divergent existing row then [conflictMessage] else [])
  | .ok (_, _ + 1), .ok () =>
      (do
        relabel answers.load fun err => "load inserted result id: " ++ err
        relabel answers.scores fun err => "insert party score: " ++ err
        answers.commit
        return db.addResult row (scorePairs scores), [])

def processResultImport (indexes : List (UniqueIndex ResultRow)) (answers : Answers) (db : Tables)
    (payload : Payload) : Except String Tables × List String :=
  match parseImport db payload, answers.beginTx with
  | .error err, _ | .ok _, .error err => (.error err, [])
  | .ok (row, scores), .ok () => importTx indexes answers db row scores

/-! ### Jobs -/

open InternalQueue (Job Outcome)

/-- What `processJob` writes of a job after its processor came back. -/
def outcome (job : Job) : Option String → Outcome
  | none => .completed
  | some err =>
      if job.maxRetries ≤ job.retries + 1 then .deadLetter err (job.retries + 1) else .pending (job.retries + 1)

structure Attempt where
  tables : Tables
  warnings : List String
  outcome : Outcome

/-- One pass of a job through its processor. -/
def attempt (indexes : List (UniqueIndex ResultRow)) (answers : Answers) (db : Tables) (job : Job) : Attempt :=
  match processResultImport indexes answers db job.payload with
  | (.ok db', warnings) => ⟨db', warnings, outcome job none⟩
  | (.error err, warnings) => ⟨db, warnings, outcome job (some err)⟩

/-- The passes of a job, each with what it meets, as long as it is put off. -/
def attempts (indexes : List (UniqueIndex ResultRow)) : Job → List (Answers × Tables) → List Attempt
  | _, [] => []
  | job, (answers, db) :: rest =>
      let run := attempt indexes answers db job
      match run.outcome with
      | .pending retries => run :: attempts indexes { job with retries } rest
      | _ => [run]

/-! ### What becomes of a job -/

variable {answers : Answers} {db : Tables} {job : Job}

theorem importTx_resultsIndexes (answers : Answers) (db : Tables) (row : ResultRow) (scores : List PartyVoteEntry) :
    importTx resultsIndexes answers db row scores =
      (.error ("insert result: pq: " ++ UniqueIndex.noArbiter), []) := by
  rw [importTx, UniqueIndex.insertOnConflict_of_none arbiter?_resultsIndexes]

/-- Up to here the processor is the one of the side doors, with the database's no. -/
theorem processResultImport_eq (payload : Payload) (hbegin : answers.beginTx = .ok ()) :
    processResultImport resultsIndexes answers db payload =
      (Inec.processResultImport db payload (.error ("pq: " ++ UniqueIndex.noArbiter)), []) := by
  rw [processResultImport, hbegin, Inec.processResultImport]
  cases parseImport db payload with
  | error err => rfl
  | ok parsed =>
      show importTx resultsIndexes answers db parsed.1 parsed.2 = _
      rw [importTx_resultsIndexes]
      rfl

/-- Whatever the table holds and the database answers, a pass fails and logs nothing. -/
theorem attempt_resultsIndexes (answers : Answers) (db : Tables) (job : Job) :
    ∃ err, attempt resultsIndexes answers db job = ⟨db, [], outcome job (some err)⟩ := by
  have herr : ∃ err, processResultImport resultsIndexes answers db job.payload = (.error err, []) := by
    rw [processResultImport]
    cases parseImport db job.payload with
    | error err => exact ⟨err, rfl⟩
    | ok parsed =>
        cases answers.beginTx with
        | error err => exact ⟨err, rfl⟩
        | ok _ => exact ⟨_, importTx_resultsIndexes answers db parsed.1 parsed.2⟩
  obtain ⟨err, herr⟩ := herr
  exact ⟨err, by rw [attempt, herr]⟩

theorem outcome_error_ne_completed (job : Job) (err : String) : outcome job (some err) ≠ .completed := by
  rw [outcome]
  split <;> exact nofun

/-- It is what the worker of the queue writes when its processor comes back with an error. -/
theorem updates_retry {s : InternalQueue.State} {w : InternalQueue.Worker} {i : Nat} (err : String)
    (hentry : s.queued? w.jobID = some (i, job)) :
    (s.retry w err).updates = s.updates ++ [⟨w.key, w.job, w.jobID, outcome job (some err)⟩] := by
  rw [InternalQueue.State.retry, hentry, outcome]
  show (if job.maxRetries ≤ job.retries + 1 then _ else _ : InternalQueue.State).updates = _
  split
  · exact congrArg (· ++ _) (InternalQueue.removeJob_updates _ _)
  · rfl

/-- The last pass that the job has left makes it a dead letter. -/
theorem exists_deadLetter_of_attempts {job : Job} {met : List (Answers × Tables)} (hsome : 0 < met.length)
    (henough : job.maxRetries ≤ job.retries + met.length) :
    ∃ run ∈ attempts resultsIndexes job met, ∃ err retries, run.outcome = .deadLetter err retries := by
  induction met generalizing job with
  | nil => cases hsome
  | cons first rest ih =>
      obtain ⟨err, hrun⟩ := attempt_resultsIndexes first.1 first.2 job
      have houtcome : (attempt resultsIndexes first.1 first.2 job).outcome = outcome job (some err) := by rw [hrun]
      rw [attempts, houtcome, outcome]
      by_cases hlast : job.maxRetries ≤ job.retries + 1
      · rw [if_pos hlast]
        exact ⟨_, List.mem_singleton_self _, err, job.retries + 1, by rw [houtcome, outcome, if_pos hlast]⟩
      · rw [if_neg hlast]
        rw [List.length_cons] at henough
        obtain ⟨run, hmem, hdead⟩ := @ih { job with retries := job.retries + 1 } (by omega) (by
          show job.maxRetries ≤ job.retries + 1 + rest.length
          omega)
        exact ⟨run, List.mem_cons_of_mem _ hmem, hdead⟩

/-! ### The stored result -/

/-- The canonical result of the row's election and unit has these figures. -/
def Stored (db : Tables) (row : ResultRow) (scores : List PartyVoteEntry) : Prop :=
  ∃ r, liveResult? db row.electionId row.pollingUnitCode = some r ∧ (partyEntries db r.id).Perm scores ∧
    r.totalValidVotes = row.totalValidVotes ∧ r.rejectedVotes = row.rejectedVotes ∧
      r.totalVotesCast = row.totalVotesCast ∧ r.accreditedVoters = row.accreditedVoters

/-- A job with figures of its own, where a result with other party scores is stored. -/
def Differs (db : Tables) (payload : Payload) : Prop :=
  ∃ row scores, parseImport db payload = .ok (row, scores) ∧
    ∃ r, liveResult? db row.electionId row.pollingUnitCode = some r ∧ ¬(partyEntries db r.id).Perm scores

/-- A completed import is the stored result, and a differing one is reported and changes nothing. -/
structure Exact (db : Tables) (job : Job) (run : Attempt) : Prop where
  completed : run.outcome = .completed →
    ∃ row scores, parseImport db job.payload = .ok (row, scores) ∧ Stored run.tables row scores
  conflict : Differs db job.payload → conflictMessage ∈ run.warnings ∧ run.tables = db

/-- Nothing is ever completed, and no conflict is ever reported. -/
theorem exact_iff (answers : Answers) (db : Tables) (job : Job) :
    Exact db job (attempt resultsIndexes answers db job) ↔ ¬Differs db job.payload := by
  obtain ⟨err, hrun⟩ := attempt_resultsIndexes answers db job
  rw [hrun]
  constructor
  · intro h hdiffers
    cases (h.conflict hdiffers).1
  · intro hsame
    refine ⟨?_, fun hdiffers => absurd hdiffers hsame⟩
    intro hcompleted
    exact absurd hcompleted (outcome_error_ne_completed job err)

/-- The payload of two parties at the unit `PU` of election 7. -/
def importPayload (first second : Int) : Payload :=
  [("election_id", .number (.ofInt 7)), ("polling_unit_code", .str "PU"),
    ("accredited_voters", .number (.ofInt 200)), ("party_scores", .arr
      [.obj [("party_code", .str "A"), ("votes", .number (.ofInt first))],
        .obj [("party_code", .str "B"), ("votes", .number (.ofInt second))]])]

/-- A pending result of 100 and 50 votes is stored, and a job has 60 and 90 for the same unit. -/
theorem not_exact_of_other_scores :
    ¬∀ (answers : Answers) (db : Tables) (job : Job), Exact db job (attempt resultsIndexes answers db job) := by
  intro h
  let stored : ResultRow := { ResultRow.bare 1 7 "PU" .pending with
    totalValidVotes := 150, totalVotesCast := 150, accreditedVoters := 200 }
  let db : Tables := Tables.empty.addResult stored [("A", 100), ("B", 50)]
  let job : Job := ⟨"job_1", "result_import", .pending, importPayload 60 90, "key", 0, 3, ""⟩
  have hdiffers : Differs db job.payload := by
    refine ⟨_, _, rfl, stored, ?_, ?_⟩
    · decide +kernel
    · decide +kernel
  have hreported := (h ⟨.ok (), .ok (), .ok (), .ok (), .ok ()⟩ db job).conflict hdiffers
  obtain ⟨err, hrun⟩ := attempt_resultsIndexes ⟨.ok (), .ok (), .ok (), .ok (), .ok ()⟩ db job
  rw [hrun] at hreported
  cases hreported.1

end Inec.ResultImport
