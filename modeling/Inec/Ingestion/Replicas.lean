import Inec.Ingestion.Recovery

/-!
# Enqueueing from several replicas

Every replica has its own memory and its own counter, and any number of requests are on their way in each:
between looking a key up and inserting the job there is room for anything. What is left is the table. A
statement is one step, and the INSERT finds the key taken or takes it.
-/

namespace Inec

variable (sha256Hex : String → String)

structure Replica where
  queue : List IngestionJob
  keys : List (String × Nat)
  nextId : Nat

/-- How far a request has come in `enqueueJob`. -/
inductive EnqueuePhase
  | idle
  | looked (jobType : JobType) (payload : Payload) (key : String)
  | numbered (job : IngestionJob)
  | conflicted (key : String)
  | inserted (job : IngestionJob)
  | answered (reply : Except String (IngestionJob × Bool))

/-- The table, the memory of each replica, and the requests of each replica. -/
structure Replicas where
  jobs : List IngestionJob
  memory : Nat → Replica
  request : Nat × Nat → EnqueuePhase

def Replicas.start : Replicas where
  jobs := []
  memory _ := ⟨[], [], 1⟩
  request _ := .idle

/-- `i` is the replica and the request. `updateJobs` is any UPDATE of the table, and `setMemory` whatever else
becomes of a replica's memory: its workers, its recovery, a crash. -/
inductive EnqueueAction
  | lookUp (i : Nat × Nat) (jobType : JobType) (payload : Payload) (key : String)
  | number (i : Nat × Nat)
  | insert (i : Nat × Nat) (db : DbReply)
  | select (i : Nat × Nat) (found : Bool)
  | remember (i : Nat × Nat)
  | updateJobs (f : IngestionJob → IngestionJob) (sameId : ∀ job, (f job).id = job.id)
      (sameKey : ∀ job, (f job).idempotencyKey = job.idempotencyKey)
  | setMemory (r : Nat) (memory : Replica)

namespace Replicas

variable (w : Replicas)

def setRequest (i : Nat × Nat) (phase : EnqueuePhase) : Replicas :=
  { w with request := Function.update w.request i phase }

/-- The key in memory, and the number of jobs in flight. -/
def lookUp (i : Nat × Nat) (jobType : JobType) (payload : Payload) (key : String) : Replicas :=
  match w.request i with
  | .idle =>
      let key := enqueueKey sha256Hex jobType payload key
      let memory := w.memory i.1
      match (memory.keys.lookup key).bind fun id => memory.queue.find? fun job => job.id == id with
      | some job => w.setRequest i (.answered (.ok (job, true)))
      | none =>
          if maxIngestionQueueSize ≤ (memory.queue.filter fun job => job.status.active).length then
            w.setRequest i (.answered (.error ("ingestion queue full (" ++ toString maxIngestionQueueSize ++
              " jobs in flight) — try again later")))
          else w.setRequest i (.looked jobType payload key)
  | _ => w

/-- The next id of the replica. -/
def number (i : Nat × Nat) : Replicas :=
  match w.request i with
  | .looked jobType payload key =>
      let memory := w.memory i.1
      { w.setRequest i (.numbered (newJob memory.nextId jobType payload key)) with
        memory := Function.update w.memory i.1 { memory with nextId := memory.nextId + 1 } }
  | _ => w

/-- `INSERT ... ON CONFLICT (idempotency_key) DO NOTHING`. An id that is taken fails it. -/
def insert (i : Nat × Nat) (db : DbReply) : Replicas :=
  match w.request i with
  | .numbered job =>
      if db = .unreachable then w.setRequest i (.answered (.error "persist ingestion job: database unreachable"))
      else if w.jobs.any fun row => row.idempotencyKey == job.idempotencyKey then
        if db = .lost then w.setRequest i (.answered (.error "persist ingestion job: no answer"))
        else w.setRequest i (.conflicted job.idempotencyKey)
      else if w.jobs.any fun row => row.id == job.id then
        w.setRequest i (.answered (.error "persist ingestion job: duplicate id"))
      else
        { w.setRequest i (if db = .lost then .answered (.error "persist ingestion job: no answer") else .inserted job) with
          jobs := w.jobs ++ [job] }
  | _ => w

/-- The job that has the key. -/
def select (i : Nat × Nat) (found : Bool) : Replicas :=
  match w.request i with
  | .conflicted key =>
      match found, w.jobs.find? fun row => row.idempotencyKey == key with
      | true, some existing => w.setRequest i (.answered (.ok (existing, true)))
      | _, _ => w.setRequest i (.answered (.error "load existing ingestion job for idempotency key"))
  | _ => w

def remember (i : Nat × Nat) : Replicas :=
  match w.request i with
  | .inserted job =>
      let memory := w.memory i.1
      { w.setRequest i (.answered (.ok (job, false))) with
        memory := Function.update w.memory i.1
          { memory with queue := memory.queue ++ [job], keys := (job.idempotencyKey, job.id) :: memory.keys } }
  | _ => w

def step : EnqueueAction → Replicas
  | .lookUp i jobType payload key => w.lookUp sha256Hex i jobType payload key
  | .number i => w.number i
  | .insert i db => w.insert i db
  | .select i found => w.select i found
  | .remember i => w.remember i
  | .updateJobs f _ _ => { w with jobs := w.jobs.map f }
  | .setMemory r memory => { w with memory := Function.update w.memory r memory }

end Replicas

/-- The key of the job the request made. -/
def EnqueuePhase.made? : EnqueuePhase → Option String
  | .inserted job => some job.idempotencyKey
  | .answered (.ok (job, false)) => some job.idempotencyKey
  | _ => none

/-- A key is one job's, and one request has made it. -/
structure Replicas.KeysUnique (w : Replicas) : Prop where
  rows : (w.jobs.map (·.idempotencyKey)).Nodup
  stored : ∀ i, ∀ key ∈ (w.request i).made?, key ∈ w.jobs.map (·.idempotencyKey)
  once : ∀ i j, ∀ key ∈ (w.request i).made?, key ∈ (w.request j).made? → i = j

namespace Replicas

variable {sha256Hex} {w w' : Replicas}

theorem KeysUnique.of_eq (h : KeysUnique w) (hjobs : w'.jobs.map (·.idempotencyKey) = w.jobs.map (·.idempotencyKey))
    (hmade : ∀ i, ∀ key ∈ (w'.request i).made?, key ∈ (w.request i).made?) : KeysUnique w' := by
  refine ⟨hjobs ▸ h.rows, ?_, ?_⟩
  · intro i key hkey
    rw [hjobs]
    exact h.stored i key (hmade i key hkey)
  · intro i j key hi hj
    exact h.once i j key (hmade i key hi) (hmade j key hj)

/-- A request moves on and makes nothing new. -/
theorem KeysUnique.move (h : KeysUnique w) (hjobs : w'.jobs.map (·.idempotencyKey) = w.jobs.map (·.idempotencyKey))
    {i : Nat × Nat} {phase : EnqueuePhase} (hrequest : w'.request = Function.update w.request i phase)
    (hphase : ∀ key ∈ phase.made?, key ∈ (w.request i).made?) : KeysUnique w' := by
  refine h.of_eq hjobs ?_
  intro j key hkey
  rw [hrequest] at hkey
  by_cases hij : j = i
  · subst hij
    rw [Function.update_self] at hkey
    exact hphase key hkey
  · rwa [Function.update_of_ne hij] at hkey

theorem KeysUnique.lookUp (h : KeysUnique w) (i : Nat × Nat) (jobType : JobType)
    (payload : Payload) (key : String) :
    KeysUnique (w.lookUp sha256Hex i jobType payload key) := by
  unfold Replicas.lookUp
  split
  · simp only
    split
    · exact h.move rfl rfl fun _ hkey => nomatch hkey
    · split
      · exact h.move rfl rfl fun _ hkey => nomatch hkey
      · exact h.move rfl rfl fun _ hkey => nomatch hkey
  · exact h

theorem KeysUnique.number (h : KeysUnique w) (i : Nat × Nat) : KeysUnique (w.number i) := by
  unfold Replicas.number
  split
  · exact h.move rfl rfl fun _ hkey => nomatch hkey
  · exact h

/-- The INSERT takes the key only if no row has it. -/
theorem KeysUnique.insert (h : KeysUnique w) (i : Nat × Nat) (db : DbReply) : KeysUnique (w.insert i db) := by
  unfold Replicas.insert
  split
  · rename_i job hrequest
    split
    · exact h.move rfl rfl fun _ hkey => nomatch hkey
    · split
      · split
        · exact h.move rfl rfl fun _ hkey => nomatch hkey
        · exact h.move rfl rfl fun _ hkey => nomatch hkey
      · rename_i hfree
        have hnew : job.idempotencyKey ∉ w.jobs.map (·.idempotencyKey) := by
          intro hmem
          obtain ⟨row, hrow, hkey⟩ := List.mem_map.mp hmem
          exact hfree (List.any_eq_true.mpr ⟨row, hrow, beq_iff_eq.mpr hkey⟩)
        split
        · exact h.move rfl rfl fun _ hkey => nomatch hkey
        · have hothers : ∀ j, ∀ key ∈ (w.request j).made?, key ≠ job.idempotencyKey := by
            intro j key hkey heq
            exact hnew (heq ▸ h.stored j key hkey)
          generalize hphase : (if db = .lost then
            EnqueuePhase.answered (.error "persist ingestion job: no answer") else .inserted job) = phase
          have hmade : ∀ key ∈ phase.made?, key = job.idempotencyKey := by
            intro key hkey
            rw [← hphase] at hkey
            split at hkey
            · cases hkey
            · exact (Option.mem_some.mp hkey).symm
          have hcases : ∀ j, ∀ key ∈ (Function.update w.request i phase j).made?,
              (j = i ∧ key = job.idempotencyKey) ∨ key ∈ (w.request j).made? := by
            intro j key hkey
            by_cases hij : j = i
            · subst hij
              rw [Function.update_self] at hkey
              exact Or.inl ⟨rfl, hmade key hkey⟩
            · rw [Function.update_of_ne hij] at hkey
              exact Or.inr hkey
          refine ⟨?_, ?_, ?_⟩
          · simp only [List.map_append, List.map_singleton, List.nodup_append]
            refine ⟨h.rows, List.nodup_singleton _, ?_⟩
            intro a ha b hb heq
            rw [List.mem_singleton] at hb
            exact hnew (hb ▸ heq ▸ ha)
          · intro j key hkey
            simp only [List.map_append, List.map_singleton, List.mem_append, List.mem_singleton]
            rcases hcases j key hkey with ⟨-, rfl⟩ | hold
            · exact Or.inr rfl
            · exact Or.inl (h.stored j key hold)
          · intro j k key hj hk
            rcases hcases j key hj with ⟨rfl, rfl⟩ | hmadeJ
            · rcases hcases k _ hk with ⟨rfl, -⟩ | hmadeK
              · rfl
              · exact absurd rfl (hothers k _ hmadeK)
            · rcases hcases k _ hk with ⟨rfl, rfl⟩ | hmadeK
              · exact absurd rfl (hothers j _ hmadeJ)
              · exact h.once j k key hmadeJ hmadeK
  · exact h

theorem KeysUnique.select (h : KeysUnique w) (i : Nat × Nat) (found : Bool) : KeysUnique (w.select i found) := by
  unfold Replicas.select
  split
  · split
    · exact h.move rfl rfl fun _ hkey => nomatch hkey
    · exact h.move rfl rfl fun _ hkey => nomatch hkey
  · exact h

theorem KeysUnique.remember (h : KeysUnique w) (i : Nat × Nat) : KeysUnique (w.remember i) := by
  unfold Replicas.remember
  split
  · rename_i job hrequest
    refine h.move rfl rfl fun key hkey => ?_
    rw [hrequest]
    exact hkey
  · exact h

theorem step_keysUnique (w : Replicas) (a : EnqueueAction) (h : KeysUnique w) :
    KeysUnique (w.step sha256Hex a) := by
  cases a with
  | lookUp i jobType payload key => exact h.lookUp i jobType payload key
  | number i => exact h.number i
  | insert i db => exact h.insert i db
  | select i found => exact h.select i found
  | remember i => exact h.remember i
  | updateJobs f sameId sameKey =>
      refine h.of_eq ?_ fun _ _ hkey => hkey
      simp only [step, List.map_map]
      exact List.map_congr_left fun job _ => sameKey job
  | setMemory r memory => exact h.of_eq rfl fun _ _ hkey => hkey

theorem start_keysUnique : KeysUnique start :=
  ⟨List.nodup_nil, fun _ _ hkey => (nomatch hkey), fun _ _ _ hkey => (nomatch hkey)⟩

/-- The rows of a key. -/
theorem KeysUnique.countP_le_one (h : KeysUnique w) (key : String) :
    w.jobs.countP (fun job => job.idempotencyKey == key) ≤ 1 := by
  have hcount := List.nodup_iff_count_le_one.mp h.rows key
  rw [List.count, List.countP_map] at hcount
  exact hcount

end Replicas

/-- The recovery schedules every pending or in-progress job of the table once and no other, whatever its workers
do meanwhile, and comes to its end. And however requests of several replicas interleave, a key has one row and
one request that made it. -/
theorem recovery_once_and_keys_unique :
    (∀ (table : JobTable) (actions : List RecoveryAction),
      ((Runs.final Recovery.step (.start table) actions).phase = .finished →
        (Runs.final Recovery.step (.start table) actions).failed = false →
          (Runs.final Recovery.step (.start table) actions).SchedulesOnce table) ∧
      (∀ row ∈ table.rows, (Runs.final Recovery.step (.start table) actions).scheduled.count row.id ≤
        if row.status.active then 1 else 0) ∧
      (∀ id ∈ (Runs.final Recovery.step (.start table) actions).scheduled,
        id ∈ table.rows.map (·.id) ∨ id ∈ (Runs.final Recovery.step (.start table) actions).added) ∧
      ∃ n, (Runs.final Recovery.step (.start table)
        (actions ++ List.replicate n (.proceed true))).phase = .finished) ∧
    ∀ (actions : List EnqueueAction), ∀ w ∈ Runs.visited (Replicas.step sha256Hex) .start actions,
      (∀ key, w.jobs.countP (fun job => job.idempotencyKey == key) ≤ 1) ∧
        ∀ i j, ∀ key ∈ (w.request i).made?, key ∈ (w.request j).made? → i = j := by
  refine ⟨?_, ?_⟩
  · intro table actions
    have hsound := Recovery.reached_sound table actions
    refine ⟨hsound.schedulesOnce, fun row hrow => hsound.count_le_one hrow, hsound.pagingSound.other, ?_⟩
    obtain ⟨n, hn⟩ := hsound.finishes
    exact ⟨n, by rw [Runs.final_append]; exact hn⟩
  · intro actions w hw
    have hunique := Runs.forall_visited_of_step Replicas.step_keysUnique Replicas.start_keysUnique actions w hw
    exact ⟨hunique.countP_le_one, hunique.once⟩

section ThreeJobs

def storedJob (id : String) (status : JobStatus) : JobRow :=
  ⟨id, .resultSubmission, status, [], some ("key " ++ id), 0, 3⟩

/-- A job a crash left in progress, one that is done and one that is pending. -/
def crashed : JobTable where
  rows := [storedJob "ING-000002" .inProgress, storedJob "ING-000003" .completed, storedJob "ING-000001" .pending]
  ids := by decide
  keys := by decide
  named := by decide

/-- The recovery of the three, with a worker in between. -/
def recoveryOfThree : List RecoveryAction :=
  [.proceed true, .proceed true, .proceed true, .startJob "ING-000001" true, .endJob "ING-000001" true true,
    .proceed true, .proceed true]

theorem recovery_once_of_three :
    (Runs.final Recovery.step (.start crashed) recoveryOfThree).scheduled = ["ING-000001", "ING-000002"] ∧
      (Runs.final Recovery.step (.start crashed) recoveryOfThree).SchedulesOnce crashed :=
  ⟨by decide +kernel, ((@recovery_once_and_keys_unique id).1 crashed recoveryOfThree).1 (by decide +kernel)
    (by decide +kernel)⟩

end ThreeJobs

end Inec
