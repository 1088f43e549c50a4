import Inec.Ingestion.Acknowledged

/-!
# Reprocessing dead letters

`handleReprocessDLQ` enqueues the payload of a dead letter without a key of its own, so the job is stored
under the key of its content. It does not look at whether `enqueueJob` made a job or found one. A job
that was first enqueued without a key has that very key, and the dead job is what is found: the entry is
marked as reprocessed, and nothing runs.
-/

namespace Inec

open Checks

variable (sha256Hex : String → String)

/-! ### The handler -/

/-- `SELECT ... FROM dead_letter_queue WHERE id=? AND reprocessed=0`. -/
def IngestState.deadLetter? (s : IngestState) (id : Nat) : Option DeadLetterEntry :=
  s.deadLetters.find? fun entry => entry.id == id && !entry.reprocessed

structure ReprocessResponse where
  message : String
  newJobId : Nat
  deriving DecidableEq, Repr

/-- The UPDATE that marks an entry. -/
def markReprocessed (s : IngestState) (id : Nat) : IngestState :=
  { s with deadLetters := Rows.update (·.id) id (fun e => { e with reprocessed := true }) s.deadLetters }

/-- An UPDATE that fails is only logged: `recorded` is whether it is carried out. -/
def handleReprocessDLQ (env : Env) (s : IngestState) (id : Nat) (db : DbReply) (recorded : Bool) :
    IngestState × Except HttpError ReprocessResponse :=
  match requireRole env [.admin] with
  | .error err => (s, .error err)
  | .ok () =>
      match s.deadLetter? id with
      | none => (s, .error ⟨404, "DLQ entry not found or already reprocessed"⟩)
      | some entry =>
          let enqueued := enqueueJob sha256Hex s entry.jobType entry.payload "" db
          match enqueued.2 with
          | .error err => (enqueued.1, .error ⟨500, err⟩)
          | .ok (job, _) =>
              (if recorded then markReprocessed enqueued.1 id else enqueued.1, .ok ⟨"Reprocessed", job.id⟩)

/-- The key the payload of an entry is enqueued under. -/
def DeadLetterEntry.rerunKey (entry : DeadLetterEntry) : String :=
  enqueueKey sha256Hex entry.jobType entry.payload ""

/-- A job of the entry's type that carries its payload is still to be done. -/
def DeadLetterEntry.Scheduled (entry : DeadLetterEntry) (s : IngestState) : Prop :=
  ∃ job ∈ s.jobs, job.jobType = entry.jobType ∧ job.payload = entry.payload ∧ job.status.active = true

/-- Whether `enqueueJob` takes an item of the key for one it has already, whatever became of it. -/
def IngestState.KeyUsed (s : IngestState) (key : String) : Prop :=
  (s.heldInMemory? key).isSome = true ∨ KeyTaken s key

section Claim

variable (env : Env) (s : IngestState) (id : Nat) (db : DbReply) (recorded : Bool)

/-- What a success that marks the entry promises. -/
def RerunsPayload : Prop :=
  ∀ entry response, s.deadLetter? id = some entry →
    (handleReprocessDLQ sha256Hex env s id db recorded).2 = .ok response → recorded = true →
      entry.Scheduled (handleReprocessDLQ sha256Hex env s id db recorded).1

/-- An entry that is about to be marked, as it has to be for its payload to run again. -/
def RerunFits : Prop :=
  ∀ entry, s.deadLetter? id = some entry → env.claims.role = .admin →
    s.answers (entry.rerunKey sha256Hex) db = true → recorded = true →
      ¬s.KeyUsed (entry.rerunKey sha256Hex) ∨ entry.Scheduled s

end Claim

variable {sha256Hex} {env : Env} {s s' : IngestState} {entryId : Nat} {db : DbReply} {recorded : Bool}

/-! ### The handler and the machine -/

/-- A request goes through exactly if `enqueueJob` has an answer for the payload. -/
theorem handleReprocessDLQ_ok_iff {entry : DeadLetterEntry} (hentry : s.deadLetter? entryId = some entry) :
    (∃ response, (handleReprocessDLQ sha256Hex env s entryId db recorded).2 = .ok response) ↔
      env.claims.role = .admin ∧ s.answers (entry.rerunKey sha256Hex) db = true := by
  rw [DeadLetterEntry.rerunKey, ← enqueueJob_isOk]
  by_cases hrole : env.claims.role = .admin
  · have hok : requireRole env [.admin] = .ok () := by simp [requireRole, hrole]
    simp only [handleReprocessDLQ, hok, hentry, hrole, true_and]
    cases (enqueueJob sha256Hex s entry.jobType entry.payload "" db).2 with
    | error err => simp [Except.isOk, Except.toBool]
    | ok reply => simp [Except.isOk, Except.toBool]
  · have herr : ∃ err, requireRole env [.admin] = .error err := ⟨_, by simp [requireRole, require, hrole]; rfl⟩
    obtain ⟨err, herr⟩ := herr
    simp [handleReprocessDLQ, herr, hrole]

/-- What a job's INSERT leaves in the table, once `enqueueJob` has an answer: the table as it was, when the
key was in use, and the new job behind it otherwise. -/
theorem enqueueJob_jobs {jobType : JobType} {payload : Payload} {key : String}
    (hok : (enqueueJob sha256Hex s jobType payload key db).2.isOk = true) :
    (s.KeyUsed (enqueueKey sha256Hex jobType payload key) ∧
      (enqueueJob sha256Hex s jobType payload key db).1.jobs = s.jobs) ∨
        (¬s.KeyUsed (enqueueKey sha256Hex jobType payload key) ∧
          (enqueueJob sha256Hex s jobType payload key db).1.jobs =
        s.jobs ++ [newJob s.nextId jobType payload (enqueueKey sha256Hex jobType payload key)]) := by
  unfold enqueueJob at hok ⊢
  cases hheld : s.heldInMemory? (enqueueKey sha256Hex jobType payload key) with
  | some job =>
      left
      simp only [hheld]
      exact ⟨Or.inl (by rw [hheld]; rfl), trivial⟩
  | none =>
      simp only [hheld] at hok ⊢
      by_cases hfull : maxIngestionQueueSize ≤ s.inFlight
      · simp only [hfull, if_true] at hok
        cases hok
      · simp only [hfull, if_false] at hok ⊢
        have heffect := persistJob_effect s (newJob s.nextId jobType payload
          (enqueueKey sha256Hex jobType payload key)) db
        revert hok heffect
        generalize persistJob s (newJob s.nextId jobType payload
          (enqueueKey sha256Hex jobType payload key)) db = persisted
        obtain ⟨next, reply⟩ := persisted
        intro hok heffect
        cases heffect with
        | duplicate known same => exact Or.inl ⟨Or.inr known, same.jobs⟩
        | queued unknown _ _ jobs =>
            refine Or.inr ⟨?_, jobs⟩
            rintro (hused | ⟨row, hrow, hkey⟩)
            · rw [hheld] at hused
              cases hused
            · exact unknown row hrow hkey
        | refused => cases hok
        | lost => cases hok

theorem DeadLetterEntry.scheduled_congr (entry : DeadLetterEntry) (h : s'.jobs = s.jobs) :
    entry.Scheduled s' ↔ entry.Scheduled s := by
  rw [Scheduled, Scheduled, h]

/-- Marking the entry leaves the jobs alone. -/
theorem handleReprocessDLQ_jobs {entry : DeadLetterEntry} (hentry : s.deadLetter? entryId = some entry)
    (hrole : env.claims.role = .admin) :
    (handleReprocessDLQ sha256Hex env s entryId db recorded).1.jobs =
      (enqueueJob sha256Hex s entry.jobType entry.payload "" db).1.jobs := by
  have hok : requireRole env [.admin] = .ok () := by simp [requireRole, hrole]
  simp only [handleReprocessDLQ, hok, hentry]
  cases (enqueueJob sha256Hex s entry.jobType entry.payload "" db).2 with
  | error err => rfl
  | ok reply => cases recorded <;> rfl

/-! ### When a dead letter runs again -/

/-- The payload of a dead letter runs again exactly if its key is free, or a job that carries it is still to
be done. -/
theorem rerunsPayload_iff_rerunFits (env : Env) (s : IngestState) (entryId : Nat) (db : DbReply) (recorded : Bool) :
    RerunsPayload sha256Hex env s entryId db recorded ↔ RerunFits sha256Hex env s entryId db recorded := by
  constructor
  · intro hreruns entry hentry hrole hanswers hrecorded
    obtain ⟨response, hresponse⟩ := (handleReprocessDLQ_ok_iff hentry).mpr ⟨hrole, hanswers⟩
    have hscheduled := hreruns entry response hentry hresponse hrecorded
    rw [DeadLetterEntry.rerunKey, ← enqueueJob_isOk] at hanswers
    rcases enqueueJob_jobs hanswers with ⟨-, hjobs⟩ | ⟨hfree, -⟩
    · right
      exact (entry.scheduled_congr ((handleReprocessDLQ_jobs hentry hrole).trans hjobs)).mp hscheduled
    · exact Or.inl hfree
  · intro hfits entry response hentry hresponse hrecorded
    obtain ⟨hrole, hanswers⟩ := (handleReprocessDLQ_ok_iff hentry).mp ⟨response, hresponse⟩
    have hfits := hfits entry hentry hrole hanswers hrecorded
    rw [DeadLetterEntry.rerunKey, ← enqueueJob_isOk] at hanswers
    rcases enqueueJob_jobs hanswers with ⟨hused, hjobs⟩ | ⟨-, hjobs⟩
    · rw [entry.scheduled_congr ((handleReprocessDLQ_jobs hentry hrole).trans hjobs)]
      exact hfits.resolve_left fun hfree => hfree hused
    · -- the new job is the one that runs
      rw [DeadLetterEntry.Scheduled, handleReprocessDLQ_jobs hentry hrole, hjobs]
      exact ⟨_, List.mem_append_right _ (List.mem_singleton_self _), rfl, rfl, rfl⟩

section DeadJob

/-- A result enqueued without a key, that no worker gets through. -/
def givenUp : List IngestInput :=
  [.enqueue .resultSubmission ((capture 200).payload.getD []) "" .answered, .start 1 true, .work 1 failedAttempt,
    .work 1 failedAttempt, .work 1 failedAttempt, .work 1 failedAttempt]

/-- A success after which every job is done or given up keeps no promise. -/
theorem not_rerunsPayload
    (h : (s.deadLetter? entryId).isSome = true ∧
      (handleReprocessDLQ sha256Hex env s entryId db true).2.isOk = true ∧
        ((handleReprocessDLQ sha256Hex env s entryId db true).1.jobs.all fun job => !job.status.active) = true) :
    ¬RerunsPayload sha256Hex env s entryId db true := by
  intro hreruns
  obtain ⟨hentry, hok, hended⟩ := h
  obtain ⟨entry, hentry⟩ := Option.isSome_iff_exists.mp hentry
  cases hreply : (handleReprocessDLQ sha256Hex env s entryId db true).2 with
  | error err =>
      rw [hreply] at hok
      cases hok
  | ok response =>
      obtain ⟨job, hjob, -, -, hactive⟩ := hreruns entry response hentry hreply rfl
      have hdone := List.all_eq_true.mp hended job hjob
      rw [hactive] at hdone
      cases hdone

/-- An admin is told that the entry was reprocessed, and the only job is the dead one. -/
theorem reprocessed_and_not_run :
    ¬RerunsPayload id (.plain 1 "admin" .admin 0) (Runs.final (ingestStep id) (ingestStart Tables.empty) givenUp)
      1 .answered true := by
  apply not_rerunsPayload
  decide +kernel

end DeadJob

end Inec
