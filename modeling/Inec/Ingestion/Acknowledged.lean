import Inec.Lib.Runs
import Inec.Ingestion.Queue

/-!
# Acknowledged items

The sync endpoint answers `duplicate` when a job has the key of the item, and `queued` when it has made
one. It asks neither what became of that job nor whether the figures are the same, and it does not look
at the results. So an item can be acknowledged and be nowhere: the key was used for other figures, or
its job is among the dead letters.

What the endpoint has to go by is the table and the memory, and `QueueSound` says how the two belong
together.
-/

namespace Inec

variable {sha256Hex : String → String}

/-! ### Table and memory -/

structure QueueSound (s : IngestState) : Prop where
  ids : (s.jobs.map (·.id)).Nodup
  queueIds : (s.queue.map (·.id)).Nodup
  queued : ∀ job ∈ s.queue, ∃ row ∈ s.jobs, row.id = job.id ∧ row.idempotencyKey = job.idempotencyKey ∧
    row.status.active = true
  keyed : ∀ entry ∈ s.keys, ∃ row ∈ s.jobs, row.id = entry.2 ∧ row.idempotencyKey = entry.1

section Sound

variable {s s' : IngestState}

/-- Only the jobs of the table and what is in memory matter. -/
theorem QueueSound.of_eq (h : QueueSound s) (hjobs : s'.jobs = s.jobs) (hqueue : s'.queue = s.queue)
    (hkeys : s'.keys = s.keys) : QueueSound s' := by
  refine ⟨?_, ?_, ?_, ?_⟩ <;> simp only [hjobs, hqueue, hkeys]
  · exact h.ids
  · exact h.queueIds
  · exact h.queued
  · exact h.keyed

/-- The memory may lose entries, or change them but for id and key. -/
theorem QueueSound.memory (h : QueueSound s) (hjobs : s'.jobs = s.jobs) (hids : (s'.queue.map (·.id)).Nodup)
    (hqueue : ∀ job ∈ s'.queue, ∃ old ∈ s.queue, old.id = job.id ∧ old.idempotencyKey = job.idempotencyKey)
    (hkeys : ∀ entry ∈ s'.keys, entry ∈ s.keys) : QueueSound s' := by
  refine ⟨hjobs ▸ h.ids, hids, ?_, ?_⟩
  · intro job hjob
    obtain ⟨old, hold, hid, hkey⟩ := hqueue job hjob
    obtain ⟨row, hrow, hrowId, hrowKey, hactive⟩ := h.queued old hold
    exact ⟨row, hjobs ▸ hrow, hrowId.trans hid, hrowKey.trans hkey, hactive⟩
  · intro entry hentry
    rw [hjobs]
    exact h.keyed entry (hkeys entry hentry)

/-- One entry in memory may change but for id and key. -/
theorem QueueSound.touch (h : QueueSound s) {id : Nat} {f : IngestionJob → IngestionJob}
    (hid : ∀ job, (f job).id = job.id) (hkey : ∀ job, (f job).idempotencyKey = job.idempotencyKey) :
    QueueSound { s with queue := Rows.update (·.id) id f s.queue } := by
  have hids : (Rows.update (·.id) id f s.queue).map (·.id) = s.queue.map (·.id) :=
    Rows.map_update fun job _ _ => hid job
  refine h.memory rfl (hids ▸ h.queueIds) ?_ fun entry hentry => hentry
  intro job hjob
  rcases Rows.mem_update.mp hjob with ⟨old, hold, -, rfl⟩ | ⟨hold, -⟩
  · exact ⟨old, hold, (hid old).symm, (hkey old).symm⟩
  · exact ⟨job, hold, rfl, rfl⟩

/-- An UPDATE of one job. It may only end a job that is no longer in memory. -/
theorem QueueSound.update (h : QueueSound s) {id : Nat} {f : IngestionJob → IngestionJob}
    (hid : ∀ row, (f row).id = row.id) (hkey : ∀ row, (f row).idempotencyKey = row.idempotencyKey)
    (hactive : (∀ row, (f row).status.active = true) ∨ ∀ job ∈ s.queue, job.id ≠ id) :
    QueueSound (s.updateJob id f) := by
  have hrow : ∀ row ∈ s.jobs, ∃ row' ∈ Rows.update (·.id) id f s.jobs, row'.id = row.id ∧
      row'.idempotencyKey = row.idempotencyKey ∧ (row' = f row ∨ row.id ≠ id ∧ row' = row) := by
    intro row hmem
    by_cases heq : row.id = id
    · exact ⟨f row, Rows.mem_update.mpr (Or.inl ⟨row, hmem, heq, rfl⟩), hid row, hkey row, Or.inl rfl⟩
    · exact ⟨row, Rows.mem_update.mpr (Or.inr ⟨hmem, heq⟩), rfl, rfl, Or.inr ⟨heq, rfl⟩⟩
  refine ⟨?_, h.queueIds, ?_, ?_⟩
  · rw [IngestState.updateJob, Rows.map_update fun row _ _ => hid row]
    exact h.ids
  · intro job hjob
    obtain ⟨row, hmem, hrowId, hrowKey, hrowActive⟩ := h.queued job hjob
    obtain ⟨row', hmem', hid', hkey', hcases⟩ := hrow row hmem
    refine ⟨row', hmem', hid'.trans hrowId, hkey'.trans hrowKey, ?_⟩
    rcases hcases with rfl | ⟨-, rfl⟩
    · rcases hactive with hall | hgone
      · exact hall row
      · -- the job in memory has another id, so its row is untouched
        rcases Rows.mem_update.mp hmem' with ⟨row₀, hmem₀, heq₀, hf⟩ | ⟨hsame, hne⟩
        · refine absurd ?_ (hgone job hjob)
          rw [← hrowId, ← hid row, hf, hid row₀, heq₀]
        · rw [Rows.eq_of_key_eq h.ids hsame hmem (hid row)]
          exact hrowActive
    · exact hrowActive
  · intro entry hentry
    obtain ⟨row, hmem, hrowId, hrowKey⟩ := h.keyed entry hentry
    obtain ⟨row', hmem', hid', hkey', -⟩ := hrow row hmem
    exact ⟨row', hmem', hid'.trans hrowId, hkey'.trans hrowKey⟩

/-- An INSERT of a job under a new id. -/
theorem QueueSound.insert (h : QueueSound s) {job : IngestionJob} (hnew : ∀ row ∈ s.jobs, row.id ≠ job.id)
    (hjobs : s'.jobs = s.jobs ++ [job]) (hqueue : s'.queue = s.queue) (hkeys : s'.keys = s.keys) :
    QueueSound s' := by
  refine ⟨?_, hqueue ▸ h.queueIds, ?_, ?_⟩
  · rw [hjobs, List.map_append, List.nodup_append]
    refine ⟨h.ids, by simp, ?_⟩
    intro a ha b hb
    obtain ⟨row, hrow, rfl⟩ := List.mem_map.mp ha
    rw [List.map_singleton, List.mem_singleton] at hb
    exact hb ▸ hnew row hrow
  · intro q hq
    obtain ⟨row, hrow, hcols⟩ := h.queued q (hqueue ▸ hq)
    exact ⟨row, hjobs ▸ List.mem_append_left _ hrow, hcols⟩
  · intro entry hentry
    obtain ⟨row, hrow, hcols⟩ := h.keyed entry (hkeys ▸ hentry)
    exact ⟨row, hjobs ▸ List.mem_append_left _ hrow, hcols⟩

/-- And its entry in memory. -/
theorem QueueSound.remember (h : QueueSound s) {job : IngestionJob} (hjob : job ∈ s.jobs)
    (hactive : job.status.active = true) (hnew : ∀ q ∈ s.queue, q.id ≠ job.id) :
    QueueSound { s with queue := s.queue ++ [job], keys := (job.idempotencyKey, job.id) :: s.keys } := by
  refine ⟨h.ids, ?_, ?_, ?_⟩
  · simp only [List.map_append, List.nodup_append]
    refine ⟨h.queueIds, by simp, ?_⟩
    intro a ha b hb
    obtain ⟨q, hq, rfl⟩ := List.mem_map.mp ha
    rw [List.map_singleton, List.mem_singleton] at hb
    exact hb ▸ hnew q hq
  · intro q hq
    rcases List.mem_append.mp hq with hq | hq
    · exact h.queued q hq
    · obtain rfl := List.mem_singleton.mp hq
      exact ⟨q, hjob, rfl, rfl, hactive⟩
  · intro entry hentry
    rcases List.mem_cons.mp hentry with rfl | hentry
    · exact ⟨job, hjob, rfl, rfl⟩
    · exact h.keyed entry hentry

theorem QueueSound.forget (h : QueueSound s) (job : IngestionJob) :
    QueueSound (forgetJob s job) ∧ ∀ q ∈ (forgetJob s job).queue, q.id ≠ job.id := by
  have hmem : ∀ q ∈ (forgetJob s job).queue, q ∈ s.queue ∧ q.id ≠ job.id :=
    fun q hq => Rows.mem_eraseP_key h.queueIds hq
  refine ⟨h.memory rfl ?_ (fun q hq => ⟨q, (hmem q hq).1, rfl, rfl⟩)
    (fun entry hentry => (List.mem_filter.mp hentry).1), fun q hq => (hmem q hq).2⟩
  exact (List.eraseP_sublist.map _).nodup h.queueIds

end Sound

/-! ### What enqueueing does -/

/-- Whether `enqueueJob` has an answer for the key: from memory, or from the table. -/
def IngestState.answers (s : IngestState) (key : String) (db : DbReply) : Bool :=
  (s.heldInMemory? key).isSome ||
    (decide (s.inFlight < maxIngestionQueueSize) && db == .answered &&
      ((s.jobOf? key).isSome || !s.jobs.any fun row => row.id == s.nextId))

/-- All but the counters is as it was. -/
structure SameQueue (s s' : IngestState) : Prop where
  tables : s'.tables = s.tables
  jobs : s'.jobs = s.jobs
  queue : s'.queue = s.queue
  keys : s'.keys = s.keys

inductive EnqueueEffect (s : IngestState) (job : IngestionJob) :
    IngestState → Except String (IngestionJob × Bool) → Prop
  /-- A job has the key, in whatever state it is. -/
  | duplicate {s' : IngestState} {existing : IngestionJob}
      (known : ∃ row ∈ s.jobs, row.idempotencyKey = job.idempotencyKey) (same : SameQueue s s') :
      EnqueueEffect s job s' (.ok (existing, true))
  | queued {s' : IngestState} (unknown : ∀ row ∈ s.jobs, row.idempotencyKey ≠ job.idempotencyKey)
      (fresh : ∀ row ∈ s.jobs, row.id ≠ job.id) (tables : s'.tables = s.tables) (jobs : s'.jobs = s.jobs ++ [job])
      (queue : s'.queue = s.queue ++ [job]) (keys : s'.keys = (job.idempotencyKey, job.id) :: s.keys) :
      EnqueueEffect s job s' (.ok (job, false))
  | refused {s' : IngestState} {err : String} (same : SameQueue s s') : EnqueueEffect s job s' (.error err)
  /-- The job is in the table and nobody has heard of it. -/
  | lost {s' : IngestState} {err : String} (fresh : ∀ row ∈ s.jobs, row.id ≠ job.id) (tables : s'.tables = s.tables)
      (jobs : s'.jobs = s.jobs ++ [job]) (queue : s'.queue = s.queue) (keys : s'.keys = s.keys) :
      EnqueueEffect s job s' (.error err)

section Enqueue

variable {s s' : IngestState} {key : String} {db : DbReply} {job : IngestionJob}

theorem QueueSound.known_of_held (h : QueueSound s) (hheld : s.heldInMemory? key = some job) :
    ∃ row ∈ s.jobs, row.idempotencyKey = key := by
  obtain ⟨id, hid, -⟩ := Option.bind_eq_some_iff.mp hheld
  obtain ⟨before, after, hkeys, -⟩ := List.lookup_eq_some_iff.mp hid
  obtain ⟨row, hrow, -, hkey⟩ := h.keyed (key, id) (hkeys ▸ List.mem_append_right _ List.mem_cons_self)
  exact ⟨row, hrow, hkey⟩

theorem persistJob_effect (s : IngestState) (job : IngestionJob) (db : DbReply) :
    EnqueueEffect s job (persistJob s job db).1 (persistJob s job db).2 := by
  unfold persistJob
  by_cases hdown : db = .unreachable
  · simp only [hdown, if_true]
    exact .refused ⟨rfl, rfl, rfl, rfl⟩
  · simp only [hdown, if_false]
    cases hfind : ({ s with nextId := s.nextId + 1 } : IngestState).jobOf? job.idempotencyKey with
    | some existing =>
        obtain ⟨hmem, hkey⟩ := Rows.find?_key hfind
        by_cases hlost : db = .lost
        · simp only [hlost, if_true]
          exact .refused ⟨rfl, rfl, rfl, rfl⟩
        · simp only [hlost, if_false]
          exact .duplicate ⟨existing, hmem, hkey⟩ ⟨rfl, rfl, rfl, rfl⟩
    | none =>
        have hunknown : ∀ row ∈ s.jobs, row.idempotencyKey ≠ job.idempotencyKey := by
          intro row hrow
          simpa using List.find?_eq_none.mp hfind row hrow
        by_cases htaken : (s.jobs.any fun row => row.id == job.id) = true
        · simp only [htaken, if_true]
          exact .refused ⟨rfl, rfl, rfl, rfl⟩
        · have hfresh : ∀ row ∈ s.jobs, row.id ≠ job.id := by
            intro row hrow hid
            exact htaken (List.any_eq_true.mpr ⟨row, hrow, beq_iff_eq.mpr hid⟩)
          by_cases hlost : db = .lost
          · simp only [htaken, hlost, if_true]
            exact .lost hfresh rfl rfl rfl rfl
          · simp only [htaken, hlost, if_false]
            exact .queued hunknown hfresh rfl rfl rfl rfl

theorem enqueueJob_effect (h : QueueSound s) (jobType : JobType) (payload : Payload) (key : String) (db : DbReply) :
    EnqueueEffect s (newJob s.nextId jobType payload (enqueueKey sha256Hex jobType payload key))
      (enqueueJob sha256Hex s jobType payload key db).1 (enqueueJob sha256Hex s jobType payload key db).2 := by
  unfold enqueueJob
  cases hheld : s.heldInMemory? (enqueueKey sha256Hex jobType payload key) with
  | some job =>
      simp only [hheld]
      exact .duplicate (h.known_of_held hheld) ⟨rfl, rfl, rfl, rfl⟩
  | none =>
      simp only [hheld]
      by_cases hfull : maxIngestionQueueSize ≤ s.inFlight
      · simp only [hfull, if_true]
        exact .refused ⟨rfl, rfl, rfl, rfl⟩
      · simp only [hfull, if_false]
        exact persistJob_effect s _ db

theorem EnqueueEffect.sound {reply : Except String (IngestionJob × Bool)} (h : QueueSound s)
    (heffect : EnqueueEffect s job s' reply) (hactive : job.status.active = true) : QueueSound s' := by
  cases heffect with
  | duplicate _ same => exact h.of_eq same.jobs same.queue same.keys
  | refused same => exact h.of_eq same.jobs same.queue same.keys
  | lost fresh _ jobs queue keys => exact h.insert fresh jobs queue keys
  | queued _ fresh _ jobs queue keys =>
      have hinserted : QueueSound { s with jobs := s.jobs ++ [job] } := h.insert fresh rfl rfl rfl
      have hnew : ∀ q ∈ s.queue, q.id ≠ job.id := by
        intro q hq
        obtain ⟨row, hrow, hid, -⟩ := h.queued q hq
        exact hid ▸ fresh row hrow
      have hmem : job ∈ s.jobs ++ [job] := List.mem_append_right _ (List.mem_singleton_self job)
      exact (hinserted.remember hmem hactive hnew).of_eq jobs queue keys

theorem enqueueJob_sound (h : QueueSound s) (jobType : JobType) (payload : Payload) (key : String) (db : DbReply) :
    QueueSound (enqueueJob sha256Hex s jobType payload key db).1 :=
  (enqueueJob_effect h jobType payload key db).sound h rfl

theorem persistJob_isOk (s : IngestState) (job : IngestionJob) (db : DbReply) :
    (persistJob s job db).2.isOk =
      (db == .answered && ((s.jobOf? job.idempotencyKey).isSome || !s.jobs.any fun row => row.id == job.id)) := by
  have hjobOf : ({ s with nextId := s.nextId + 1 } : IngestState).jobOf? job.idempotencyKey =
      s.jobOf? job.idempotencyKey := rfl
  unfold persistJob
  cases hfind : s.jobOf? job.idempotencyKey with
  | some existing => cases db <;> simp [hjobOf, hfind, Except.isOk, Except.toBool]
  | none =>
      by_cases htaken : (s.jobs.any fun row => row.id == job.id) = true
      · cases db <;> simp [hjobOf, hfind, htaken, Except.isOk, Except.toBool]
      · cases db <;> simp [hjobOf, hfind, htaken, Except.isOk, Except.toBool]

theorem enqueueJob_isOk (s : IngestState) (jobType : JobType) (payload : Payload) (key : String) (db : DbReply) :
    (enqueueJob sha256Hex s jobType payload key db).2.isOk =
      s.answers (enqueueKey sha256Hex jobType payload key) db := by
  unfold enqueueJob IngestState.answers
  cases hheld : s.heldInMemory? (enqueueKey sha256Hex jobType payload key) with
  | some job => simp only [hheld, Option.isSome_some, Bool.true_or, Except.isOk, Except.toBool]
  | none =>
      by_cases hfull : maxIngestionQueueSize ≤ s.inFlight
      · simp [hheld, hfull, Nat.not_lt.mpr hfull, Except.isOk, Except.toBool]
      · simp only [hheld, hfull, if_false, persistJob_isOk, Option.isSome_none, Bool.false_or,
          decide_eq_true (Nat.lt_of_not_le hfull), Bool.true_and]
        rfl

end Enqueue

/-! ### Every step keeps the two together -/

section Steps

variable {s : IngestState}

theorem startJob_sound (h : QueueSound s) (id : Nat) (recorded : Bool) : QueueSound (startJob s id recorded) := by
  unfold startJob
  by_cases hany : (s.queue.any fun job => job.id == id) = true
  · simp only [hany, if_true]
    have htaken : QueueSound { s with
        queue := Rows.update (·.id) id (fun job => { job with status := .inProgress }) s.queue } :=
      h.touch (fun _ => rfl) (fun _ => rfl)
    cases recorded with
    | false => exact htaken
    | true => exact htaken.update (fun _ => rfl) (fun _ => rfl) (Or.inl fun _ => rfl)
  · simp only [hany]
    exact h

/-- The last UPDATE of a job. It leaves the memory in the same breath. -/
theorem QueueSound.settle (h : QueueSound s) (job : IngestionJob) (recorded : Bool)
    {f : IngestionJob → IngestionJob} (hid : ∀ row, (f row).id = row.id)
    (hkey : ∀ row, (f row).idempotencyKey = row.idempotencyKey) :
    QueueSound (forgetJob (if recorded then s.updateJob job.id f else s) job) := by
  obtain ⟨hforgot, hgone⟩ := h.forget job
  cases recorded with
  | false => exact hforgot
  | true => exact (hforgot.update hid hkey (Or.inr hgone)).of_eq rfl rfl rfl

theorem completeJob_sound (h : QueueSound s) (work : WorkEnv) (job : IngestionJob) :
    QueueSound (completeJob work s job) :=
  h.settle job work.recorded (fun _ => rfl) (fun _ => rfl)

theorem deadLetterJob_sound (h : QueueSound s) (work : WorkEnv) (job : IngestionJob) (err : String) :
    QueueSound (deadLetterJob work s job err) := by
  have hlettered : ∀ letters, QueueSound { s with dlqNextId := s.dlqNextId + 1, deadLetters := letters } :=
    fun _ => h.of_eq rfl rfl rfl
  exact (hlettered _).settle job work.recorded (fun _ => rfl) (fun _ => rfl)

theorem enqueueBatchItem_sound (work : WorkEnv) (batch : Payload) (acc : IngestState × List String)
    (item : PayloadValue × Nat) (h : QueueSound acc.1) :
    QueueSound (enqueueBatchItem sha256Hex work batch acc item).1 := by
  unfold enqueueBatchItem
  cases hitem : item.1 with
  | obj result =>
      simp only
      have hsound := @enqueueJob_sound sha256Hex _ h .resultSubmission result
        ("batch-" ++ work.formatV (batch.get? "batch_id") ++ "-" ++ toString item.2) work.children
      split
      · exact hsound
      · exact hsound
  | null => exact h
  | bool _ => exact h
  | number _ => exact h
  | str _ => exact h
  | arr _ => exact h

theorem processBatchResultIngestion_sound (h : QueueSound s) (work : WorkEnv) (job : IngestionJob) :
    QueueSound (processBatchResultIngestion sha256Hex work s job).1 := by
  unfold processBatchResultIngestion
  split
  · rename_i items _
    exact @List.foldlRecOn _ _ (fun acc : IngestState × List String => QueueSound acc.1) items.zipIdx _ _ h
      fun acc hacc item _ => enqueueBatchItem_sound work job.payload acc item hacc
  · exact h

theorem executeIngestionJob_sound (h : QueueSound s) (work : WorkEnv) (job : IngestionJob) :
    QueueSound (executeIngestionJob sha256Hex work s job).1 := by
  unfold executeIngestionJob
  cases job.jobType with
  | resultSubmission =>
      simp only [processResultIngestion]
      split
      · exact h
      · exact h.of_eq rfl rfl rfl
  | batchResultUpload => exact processBatchResultIngestion_sound h work job
  | accreditationSync => exact h
  | offlineResultSync =>
      simp only [processOfflineSync]
      split
      · split
        · split
          · exact h
          · exact h.of_eq rfl rfl rfl
        · split
          · exact h
          · exact h
      · exact h
  | other name => exact h

theorem workJob_sound (h : QueueSound s) (work : WorkEnv) (id : Nat) :
    QueueSound (workJob sha256Hex work s id) := by
  unfold workJob
  split
  · exact h
  · rename_i job _
    have hexecuted := @executeIngestionJob_sound sha256Hex s h work job
    simp only
    split
    · exact completeJob_sound hexecuted work job
    · split
      · exact deadLetterJob_sound hexecuted work job _
      · exact hexecuted.touch (fun _ => rfl) (fun _ => rfl)

theorem reprocessDLQ_sound (h : QueueSound s) (id : Nat) (db : DbReply) (recorded : Bool) :
    QueueSound (reprocessDLQ sha256Hex s id db recorded) := by
  unfold reprocessDLQ
  split
  · exact h
  · rename_i entry _
    have henqueued := @enqueueJob_sound sha256Hex s h entry.jobType entry.payload "" db
    simp only
    split
    · split
      · exact henqueued.of_eq rfl rfl rfl
      · exact henqueued
    · exact henqueued

theorem restart_sound (h : QueueSound s) (nextId : Nat) (reset recovered : Bool) :
    QueueSound (restart s nextId reset recovered) := by
  have hids : ((restart s nextId reset recovered).jobs.map (·.id)).Nodup := by
    cases reset with
    | false => exact h.ids
    | true =>
        have hmap : (restart s nextId true recovered).jobs.map (·.id) = s.jobs.map (·.id) := by
          simp only [restart, if_true, List.map_map]
          apply List.map_congr_left
          intro row _
          simp only [Function.comp]
          split <;> rfl
        exact hmap ▸ h.ids
  -- what is recovered is what the table says is pending
  have hpending : ∀ row ∈ (restart s nextId reset recovered).queue,
      row ∈ (restart s nextId reset recovered).jobs ∧ row.status = .pending := by
    intro row hrow
    cases recovered with
    | false => cases hrow
    | true =>
        obtain ⟨hmem, hstatus⟩ := List.mem_filter.mp hrow
        exact ⟨hmem, beq_iff_eq.mp hstatus⟩
  refine ⟨hids, ?_, ?_, ?_⟩
  · cases recovered with
    | false => exact List.nodup_nil
    | true => exact hids.sublist (List.filter_sublist.map _)
  · intro row hrow
    obtain ⟨hmem, hstatus⟩ := hpending row hrow
    exact ⟨row, hmem, rfl, rfl, by rw [hstatus]; rfl⟩
  · intro entry hentry
    obtain ⟨row, hrow, rfl⟩ := List.mem_map.mp hentry
    exact ⟨row, (hpending row hrow).1, rfl, rfl⟩

theorem syncItem_sound (h : QueueSound s) (batch : SyncBatch) (item : SyncItem) (db : DbReply) :
    QueueSound (syncItem sha256Hex s batch item db).1 := by
  unfold syncItem
  split
  · exact h
  · exact enqueueJob_sound h _ _ _ _

theorem ingestStep_sound (s : IngestState) (i : IngestInput) (h : QueueSound s) :
    QueueSound (ingestStep sha256Hex s i) := by
  cases i with
  | sync batch item db => exact syncItem_sound h batch item db
  | enqueue jobType payload key db => exact enqueueJob_sound h jobType payload key db
  | start id recorded => exact startJob_sound h id recorded
  | work id work => exact workJob_sound h work id
  | reprocess id db recorded => exact reprocessDLQ_sound h id db recorded
  | restart nextId reset recovered => exact restart_sound h nextId reset recovered
  | other tables => exact h.of_eq rfl rfl rfl

theorem ingestStart_sound (tables : Tables) : QueueSound (ingestStart tables) :=
  ⟨List.nodup_nil, List.nodup_nil, List.forall_mem_nil _, List.forall_mem_nil _⟩

end Steps

/-! ### Kept -/

/-- The payloads a job stands for: its own, or those of the results a batch job has yet to enqueue. -/
def IngestionJob.payloads (job : IngestionJob) : List Payload :=
  match job.jobType, job.payload.get? "results" with
  | .batchResultUpload, some (.arr items) => items.filterMap fun
      | .obj result => some result
      | _ => none
  | _, _ => [job.payload]

/-- The payload itself, or one with the same figures. -/
def SameFigures (q p : Payload) : Prop :=
  q = p ∨ ∃ f g, figures? q = some f ∧ figures? p = some g ∧ f.Same g

section Kept

variable (s : IngestState)

/-- The figures are those of the canonical row of their polling unit. -/
def Stored (p : Payload) : Prop :=
  ∃ f r, figures? p = some f ∧ liveResult? s.tables f.electionId f.pollingUnitCode = some r ∧
    (storedFigures s.tables r).Same f

/-- The canonical row of the polling unit has other figures. -/
def ConflictsWithStored (p : Payload) : Prop :=
  ∃ f r, figures? p = some f ∧ liveResult? s.tables f.electionId f.pollingUnitCode = some r ∧
    ¬(storedFigures s.tables r).Same f

/-- A job that is pending or in progress has the figures. -/
def Carried (p : Payload) : Prop :=
  ∃ job ∈ s.jobs, job.status.active = true ∧ ∃ q ∈ job.payloads, SameFigures q p

def KeyTaken (key : String) : Prop := ∃ job ∈ s.jobs, job.idempotencyKey = key

def KeyDeadLettered (key : String) : Prop := ∃ job ∈ s.jobs, job.idempotencyKey = key ∧ job.status = .deadLetter

end Kept

def ItemOutcome.acknowledged : ItemOutcome → Bool
  | .queued _ => true
  | .duplicate _ => true
  | .rejected _ => false

section Claim

variable (sha256Hex) (s : IngestState)

/-- The key an item is enqueued under. -/
def itemKey (batch : SyncBatch) (item : SyncItem) : String :=
  enqueueKey sha256Hex .offlineResultSync (syncPayload batch item) (syncKey sha256Hex batch item)

/-- What an acknowledgement promises. Figures are what a result has; to the other sync types only the last
part applies. -/
def AckKept : IngestInput → Prop
  | .sync batch item db =>
      (syncItem sha256Hex s batch item db).2.acknowledged = true →
        (batch.syncType = .result →
          (Stored (syncItem sha256Hex s batch item db).1 (syncPayload batch item) ∨
            Carried (syncItem sha256Hex s batch item db).1 (syncPayload batch item)) ∧
          ¬ConflictsWithStored (syncItem sha256Hex s batch item db).1 (syncPayload batch item)) ∧
        ¬KeyDeadLettered (syncItem sha256Hex s batch item db).1 (itemKey sha256Hex batch item)
  | _ => True

/-- An item that passes the checks of the endpoint, as it has to be for its acknowledgement to be right. -/
def SyncFits : IngestInput → Prop
  | .sync batch item db =>
      batch.checkTimestamp item.timestamp = .ok () → s.answers (itemKey sha256Hex batch item) db = true →
        (batch.syncType = .result →
          ¬ConflictsWithStored s (syncPayload batch item) ∧
          (KeyTaken s (itemKey sha256Hex batch item) →
            Stored s (syncPayload batch item) ∨ Carried s (syncPayload batch item))) ∧
        ¬KeyDeadLettered s (itemKey sha256Hex batch item)
  | _ => True

end Claim

section Exact

variable {s s' : IngestState} {batch : SyncBatch} {item : SyncItem} {db : DbReply}

/-- Only the tables and the jobs matter to what an acknowledgement promises. -/
theorem SameQueue.kept_iff (h : SameQueue s s') (p : Payload) (key : String) :
    (Stored s' p ↔ Stored s p) ∧ (Carried s' p ↔ Carried s p) ∧
      (ConflictsWithStored s' p ↔ ConflictsWithStored s p) ∧ (KeyDeadLettered s' key ↔ KeyDeadLettered s key) := by
  simp only [Stored, Carried, ConflictsWithStored, KeyDeadLettered, h.tables, h.jobs, and_self]

/-- The acknowledgement of an item in terms of what `enqueueJob` does with it. -/
theorem syncItem_acknowledged (htime : batch.checkTimestamp item.timestamp = .ok ()) :
    (syncItem sha256Hex s batch item db).2.acknowledged = s.answers (itemKey sha256Hex batch item) db := by
  rw [itemKey, ← enqueueJob_isOk]
  simp only [syncItem, htime]
  cases (enqueueJob sha256Hex s .offlineResultSync (syncPayload batch item)
    (syncKey sha256Hex batch item) db).2 with
  | error err => rfl
  | ok reply =>
      obtain ⟨job, dup⟩ := reply
      cases dup <;> rfl

/-- A new job carries its own figures. -/
theorem carried_of_mem {job : IngestionJob} (hmem : job ∈ s.jobs) (hactive : job.status.active = true)
    (htype : job.jobType ≠ .batchResultUpload) : Carried s job.payload := by
  refine ⟨job, hmem, hactive, job.payload, ?_, Or.inl rfl⟩
  unfold IngestionJob.payloads
  split
  · rename_i hbatch _
    exact absurd hbatch htype
  · exact List.mem_singleton_self _

theorem EnqueueEffect.kept_iff {job : IngestionJob} {reply : IngestionJob × Bool}
    (heffect : EnqueueEffect s job s' (.ok reply)) (hactive : job.status.active = true)
    (htype : job.jobType ≠ .batchResultUpload) (isResult : Prop) :
    ((isResult → (Stored s' job.payload ∨ Carried s' job.payload) ∧ ¬ConflictsWithStored s' job.payload) ∧
        ¬KeyDeadLettered s' job.idempotencyKey) ↔
      ((isResult → ¬ConflictsWithStored s job.payload ∧
          (KeyTaken s job.idempotencyKey → Stored s job.payload ∨ Carried s job.payload)) ∧
        ¬KeyDeadLettered s job.idempotencyKey) := by
  cases heffect with
  | duplicate known same =>
      obtain ⟨hstored, hcarried, hconflicts, hdead⟩ := same.kept_iff job.payload job.idempotencyKey
      have hknown : KeyTaken s job.idempotencyKey := known
      simp only [hstored, hcarried, hconflicts, hdead, hknown, true_imp_iff]
      exact and_congr_left fun _ => forall_congr' fun _ => And.comm
  | queued unknown fresh tables jobs =>
      have hmem : job ∈ s'.jobs := jobs ▸ List.mem_append_right _ (List.mem_singleton_self job)
      have hcarried : Carried s' job.payload := carried_of_mem hmem hactive htype
      have hconflicts : ConflictsWithStored s' job.payload ↔ ConflictsWithStored s job.payload := by
        simp only [ConflictsWithStored, tables]
      have hfree : ¬KeyTaken s job.idempotencyKey := fun ⟨row, hrow, hkey⟩ => unknown row hrow hkey
      have hdead : ¬KeyDeadLettered s job.idempotencyKey := fun ⟨row, hrow, hkey, _⟩ => unknown row hrow hkey
      have hdead' : ¬KeyDeadLettered s' job.idempotencyKey := by
        rintro ⟨row, hrow, hkey, hstatus⟩
        rw [jobs, List.mem_append, List.mem_singleton] at hrow
        rcases hrow with hrow | rfl
        · exact unknown row hrow hkey
        · rw [hstatus] at hactive
          cases hactive
      simp only [hcarried, hconflicts, hfree, hdead, hdead', or_true, true_and, false_imp_iff, and_true]

theorem ackKept_iff_syncFits (s : IngestState) (i : IngestInput) (h : QueueSound s) :
    AckKept sha256Hex s i ↔ SyncFits sha256Hex s i := by
  cases i with
  | sync batch item db =>
      cases htime : batch.checkTimestamp item.timestamp with
      | error err => simp [AckKept, SyncFits, syncItem, htime, ItemOutcome.acknowledged]
      | ok u =>
          have hstate : (syncItem sha256Hex s batch item db).1 =
              (enqueueJob sha256Hex s .offlineResultSync (syncPayload batch item)
                (syncKey sha256Hex batch item) db).1 := by
            simp only [syncItem, htime]
          simp only [AckKept, SyncFits, syncItem_acknowledged htime, hstate, htime, true_imp_iff]
          refine forall_congr' fun hanswers => ?_
          have hok := (@enqueueJob_isOk sha256Hex s .offlineResultSync (syncPayload batch item)
            (syncKey sha256Hex batch item) db).trans hanswers
          have heffect := @enqueueJob_effect sha256Hex s h .offlineResultSync (syncPayload batch item)
            (syncKey sha256Hex batch item) db
          cases hreply : (enqueueJob sha256Hex s .offlineResultSync (syncPayload batch item)
              (syncKey sha256Hex batch item) db).2 with
          | error err =>
              rw [hreply] at hok
              cases hok
          | ok reply =>
              rw [hreply] at heffect
              exact heffect.kept_iff rfl (fun hbatch => nomatch hbatch) _
  | enqueue => exact Iff.rfl
  | start => exact Iff.rfl
  | work => exact Iff.rfl
  | reprocess => exact Iff.rfl
  | restart => exact Iff.rfl
  | other => exact Iff.rfl

end Exact

/-- Along every run the acknowledgements are right exactly if every item that passes the checks of the
endpoint fits. -/
theorem acknowledged_iff_syncFits (tables : Tables) (inputs : List IngestInput) :
    Runs.AllSteps (ingestStep sha256Hex) (AckKept sha256Hex) (ingestStart tables) inputs ↔
      Runs.AllSteps (ingestStep sha256Hex) (SyncFits sha256Hex) (ingestStart tables) inputs :=
  Runs.allSteps_congr ingestStep_sound ackKept_iff_syncFits (ingestStart_sound tables) inputs

/-- A batch is a run of its items, if nothing comes between them. -/
theorem syncItems_eq_final (s : IngestState) (batch : SyncBatch) (items : List (SyncItem × DbReply)) :
    (syncItems sha256Hex s batch items).1 =
      Runs.final (ingestStep sha256Hex) s (items.map fun item => .sync batch item.1 item.2) := by
  induction items generalizing s with
  | nil => rfl
  | cons first rest ih => exact ih (syncItem sha256Hex s batch first.1 first.2).1

theorem Figures.Same.refl (f : Figures) : f.Same f := ⟨rfl, rfl, List.Perm.refl _, rfl, rfl⟩

/-- Whether an active job has the figures is a matter of looking through the jobs. -/
theorem not_carried {s : IngestState} {p : Payload} {g : Figures} (hp : figures? p = some g)
    (hjobs : ∀ job ∈ s.jobs, ∀ q ∈ job.payloads, ∀ f ∈ figures? q, ¬f.Same g) : ¬Carried s p := by
  rintro ⟨job, hjob, -, q, hq, rfl | ⟨f, g', hf, hg', hsame⟩⟩
  · exact hjobs job hjob q hq g hp (Figures.Same.refl g)
  · obtain rfl := Option.some.inj (hp.symm.trans hg')
    exact hjobs job hjob q hq f hf hsame

section Lost

/-- A device of one polling unit. -/
def unitDevice : SyncBatch where
  deviceId := "BVAS-1"
  syncType := .result
  userId := 7
  receivedAt := "2027-02-20T15:30:00Z"
  checkTimestamp := fun _ => .ok ()

/-- Its result with that many votes for the one party. -/
def capture (votes : Int) : SyncItem where
  payload := some [("election_id", .number (.ofInt 1)), ("polling_unit_code", .str "PU-1"),
    ("accredited_voters", .number (.ofInt 400)), ("rejected_votes", .number (.ofInt 0)),
    ("party_scores", .arr [.obj [("party_code", .str "APC"), ("votes", .number (.ofInt votes))]])]
  timestamp := "2027-02-20T15:00:00Z"
  idempotencyKey := ""

/-- An attempt that does not reach the database. -/
def failedAttempt : WorkEnv where
  env := .plain 7 "officer" .presidingOfficer 0
  queueRow := false
  commit := .unreachable
  applyOther := .ok ()
  children := .unreachable
  formatV := fun _ => ""
  lettered := true
  recorded := true

/-- The device sends its result, and once more with the figures put right. -/
def correctedCapture : List IngestInput :=
  [.sync unitDevice (capture 200) .answered, .sync unitDevice (capture 210) .answered]

/-- The job of the result fails until it is given up, and the device sends the result again. -/
def resentCapture : List IngestInput :=
  [.sync unitDevice (capture 200) .answered, .start 1 true, .work 1 failedAttempt, .work 1 failedAttempt,
    .work 1 failedAttempt, .work 1 failedAttempt, .sync unitDevice (capture 200) .answered]

/-- Both are answered with `duplicate`: figures that are nowhere, and a job among the dead letters. -/
theorem acknowledged_and_lost :
    ¬Runs.AllSteps (ingestStep id) (AckKept id) (ingestStart Tables.empty) correctedCapture ∧
      ¬Runs.AllSteps (ingestStep id) (AckKept id) (ingestStart Tables.empty) resentCapture := by
  constructor
  · rintro ⟨-, hack, -⟩
    obtain ⟨hkept, -⟩ := (hack (by decide +kernel)).1 rfl
    rcases hkept with ⟨f, r, -, hlive, -⟩ | hcarried
    · cases hlive
    · refine not_carried (show _ = some ⟨1, "PU-1", [("APC", 210)], 400, 0⟩ by decide +kernel) ?_ hcarried
      decide +kernel
  · rintro ⟨-, -, -, -, -, -, hack, -⟩
    refine (hack (by decide +kernel)).2 ?_
    unfold KeyDeadLettered
    decide +kernel

end Lost

end Inec
