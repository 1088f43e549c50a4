import Mathlib.Data.String.Basic
import Inec.Lib.KeysetPaging
import Inec.Lib.Runs
import Inec.Ingestion.Queue

/-!
# The recovery, while the workers run

`recoverPendingJobs` resets what a crash left in progress and reads the pending jobs page by page, in the
order of their ids and from the last id on. Every job it reads is handed to a worker at once. So the table
changes under the paging: statuses move on, and a batch job inserts jobs of its own.

Ids are texts here, as other writers of the table have ids of another form.
-/

namespace Inec

open KeysetPaging

/-! ### The table -/

/-- A row of `ingestion_jobs`. The key may be NULL. -/
structure JobRow where
  id : String
  jobType : JobType
  status : JobStatus
  payload : Payload
  idempotencyKey : Option String
  retries : Nat
  maxRetries : Nat

/-- What the primary key and the UNIQUE of the table ensure. No writer has an empty id. -/
structure JobTable where
  rows : List JobRow
  ids : (rows.map (·.id)).Nodup
  keys : (rows.filterMap (·.idempotencyKey)).Nodup
  named : ∀ row ∈ rows, row.id ≠ ""

/-- The row after the UPDATE that resets stale jobs. -/
def JobRow.reset (row : JobRow) : JobRow := if row.status =
      .inProgress then { row with status := .pending } else row

/-- `idemKey.Valid && idemKey.String != ""`. -/
def JobRow.storeKey? (row : JobRow) : Option String :=
  match row.idempotencyKey with
  | some key => if key = "" then none else some key
  | none => none

def ingestionRecoveryPageSize : Nat := 1000

/-! ### The process -/

inductive RecoveryPhase
  | resetting | querying | reading | finished
  deriving DecidableEq, Repr

structure Recovery where
  jobs : List JobRow
  /-- `ingestionQueue`. -/
  queue : List JobRow
  /-- `idempotencyStore`. -/
  keys : List (String × String)
  /-- The copies the workers hold. -/
  running : List JobRow
  /-- Jobs a worker has inserted and not yet put into memory. -/
  inserted : List JobRow
  phase : RecoveryPhase
  /-- `lastID`. -/
  cursor : String
  /-- The rows of the page that are still to be read, and the number of those that were. -/
  batch : List JobRow
  page : Nat
  /-- The ids `recoverPendingJobs` has called `runProcessJob` with. -/
  scheduled : List String
  /-- The ids of the jobs inserted since the start. -/
  added : List String
  /-- Whether the UPDATE was carried out, and whether a statement failed. -/
  reset : Bool
  failed : Bool

/-- A new process. -/
def Recovery.start (table : JobTable) : Recovery where
  jobs := table.rows
  queue := []
  keys := []
  running := []
  inserted := []
  phase := .resetting
  cursor := ""
  batch := []
  page := 0
  scheduled := []
  added := []
  reset := false
  failed := false

namespace Recovery

variable (s : Recovery)

/-- `SELECT ... WHERE status = 'pending' AND id > ? ORDER BY id ASC LIMIT ?`. -/
def pendingPage : List JobRow :=
  KeysetPaging.page (·.id) ingestionRecoveryPageSize s.cursor (s.jobs.filter fun row => row.status == .pending)

/-- Whether a job of the row's key is in memory. -/
def alreadyQueued (row : JobRow) : Bool :=
  match row.storeKey? with
  | some key => (s.keys.lookup key).isSome
  | none => false

/-- A job into memory. -/
def remember (row : JobRow) : Recovery :=
  { s with
    queue := s.queue ++ [{ row with status := .pending }]
    keys := match row.storeKey? with
      | some key => (key, row.id) :: s.keys
      | none => s.keys }

/-- The next row of a page. -/
def read (row : JobRow) (rest : List JobRow) : Recovery :=
  let s := { s with batch := rest, page := s.page + 1, cursor := row.id }
  if s.alreadyQueued row then s else { s.remember row with scheduled := s.scheduled ++ [row.id] }

/-- The next thing `recoverPendingJobs` does. `answered` is whether its statement is carried out. -/
def proceed (answered : Bool) : Recovery :=
  match s.phase with
  | .resetting =>
      if answered then { s with jobs := s.jobs.map JobRow.reset, reset := true, phase := .querying }
      else { s with failed := true, phase := .querying }
  | .querying =>
      if answered then { s with batch := s.pendingPage, page := 0, phase := .reading }
      else { s with failed := true, phase := .finished }
  | .reading =>
      match s.batch with
      | row :: rest => s.read row rest
      | [] => { s with phase := if s.page < ingestionRecoveryPageSize then .finished else .querying }
  | .finished => s

def setStatus (id : String) (status : JobStatus) : Recovery :=
  { s with jobs := Rows.update (·.id) id (fun row => { row with status := status }) s.jobs }

/-- The beginning of `processJob`. -/
def startJob (id : String) (recorded : Bool) : Recovery :=
  match s.queue.find? fun job => job.id == id with
  | none => s
  | some job =>
      let s := { s with
        queue := Rows.update (·.id) id (fun job => { job with status := .inProgress }) s.queue
        running := { job with status := .inProgress } :: s.running }
      if recorded then s.setStatus id .inProgress else s

/-- And its end: the job is done, or given up. -/
def endJob (id : String) (done recorded : Bool) : Recovery :=
  match s.running.find? fun job => job.id == id with
  | none => s
  | some job =>
      let s := if recorded then s.setStatus id (if done then .completed else .deadLetter) else s
      { s with
        running := s.running.eraseP fun other => other.id == id
        queue := s.queue.eraseP fun other => other.id == id
        keys := s.keys.filter fun entry => some entry.1 != job.idempotencyKey }

/-- The INSERT of `enqueueJob`, by a worker with a batch. -/
def insertJob (row : JobRow) : Recovery :=
  if row.status = .pending ∧ row.storeKey?.isSome ∧ row.id ≠ "" ∧ row.id ∉ s.jobs.map (·.id) ∧
      row.idempotencyKey ∉ s.jobs.map (·.idempotencyKey) then
    { s with jobs := s.jobs ++ [row], inserted := row :: s.inserted, added := row.id :: s.added }
  else s

/-- And what it keeps in memory afterwards. -/
def rememberJob (id : String) : Recovery :=
  match s.inserted.find? fun row => row.id == id with
  | none => s
  | some row => { s.remember row with inserted := s.inserted.eraseP fun other => other.id == id }

end Recovery

inductive RecoveryAction
  | proceed (answered : Bool)
  | startJob (id : String) (recorded : Bool)
  | endJob (id : String) (done recorded : Bool)
  | insertJob (row : JobRow)
  | rememberJob (id : String)

def Recovery.step (s : Recovery) : RecoveryAction → Recovery
  | .proceed answered => s.proceed answered
  | .startJob id recorded => s.startJob id recorded
  | .endJob id done recorded => s.endJob id done recorded
  | .insertJob row => s.insertJob row
  | .rememberJob id => s.rememberJob id

/-! ### What holds all along -/

@[simp] theorem JobRow.reset_id (row : JobRow) : row.reset.id = row.id := by
  unfold JobRow.reset
  split <;> rfl

@[simp] theorem JobRow.reset_key (row : JobRow) : row.reset.idempotencyKey = row.idempotencyKey := by
  unfold JobRow.reset
  split <;> rfl

namespace Recovery

variable {table : JobTable} {s s' : Recovery}

/-- The jobs this process has to do with: those the recovery scheduled and those inserted since. -/
def Owns (s : Recovery) (id : String) : Prop := id ∈ s.scheduled ∨ id ∈ s.added

/-- The row is to be scheduled: it is pending once the UPDATE has had its effect, if it has. -/
def Due (s : Recovery) (row : JobRow) : Prop :=
  if s.reset then row.status.active = true else row.status = .pending

/-- The row as it stands in the table until a worker takes it up. -/
def shown (s : Recovery) (row : JobRow) : JobRow := if s.reset then row.reset else row

/-- How the table at hand comes from the one at the start. -/
structure TableSound (table : JobTable) (s : Recovery) : Prop where
  ids : (s.jobs.map (·.id)).Nodup
  keys : (s.jobs.filterMap (·.idempotencyKey)).Nodup
  origin : ∀ row ∈ s.jobs, (∃ old ∈ table.rows, old.id = row.id ∧ old.idempotencyKey =
    row.idempotencyKey) ∨ row.id ∈ s.added
  untouched : ∀ row ∈ table.rows, row.id ∉ s.scheduled → s.shown row ∈ s.jobs
  kept : ∀ row ∈ table.rows, row.id ∈ s.jobs.map (·.id)
  added : ∀ id ∈ s.added, id ∉ table.rows.map (·.id)

/-- What is in memory belongs to the process. -/
structure MemorySound (s : Recovery) : Prop where
  queue : ∀ job ∈ s.queue, s.Owns job.id
  running : ∀ job ∈ s.running, s.Owns job.id
  inserted : ∀ job ∈ s.inserted, job.id ∈ s.added ∧ ∃ row ∈ s.jobs, row.id = job.id ∧ row.idempotencyKey =
    job.idempotencyKey
  keys : ∀ entry ∈ s.keys, s.Owns entry.2 ∧ ∃ row ∈ s.jobs, row.id = entry.2 ∧ row.idempotencyKey = some entry.1

/-- How far the paging has come. -/
structure PagingSound (table : JobTable) (s : Recovery) : Prop where
  once : s.scheduled.Nodup
  passed : ∀ id ∈ s.scheduled, id ≤ s.cursor
  active : ∀ row ∈ table.rows, row.id ∈ s.scheduled → row.status.active = true
  other : ∀ id ∈ s.scheduled, id ∈ table.rows.map (·.id) ∨ id ∈ s.added
  caughtUp : ∀ row ∈ table.rows, s.Due row → row.id ≤ s.cursor → row.id ∈ s.scheduled
  upwards : s.batch.Pairwise fun a b => a.id < b.id
  ahead : ∀ row ∈ s.batch, s.cursor < row.id
  known : ∀ row ∈ s.batch, (∃ other ∈ s.jobs, other.id = row.id ∧ other.idempotencyKey = row.idempotencyKey) ∧
    ∀ old ∈ table.rows, old.id = row.id → old.status.active = true
  complete : s.phase = .reading → ∀ row ∈ table.rows, s.Due row → s.cursor < row.id →
    (∃ other ∈ s.batch, other.id = row.id) ∨
      s.page + s.batch.length = ingestionRecoveryPageSize ∧ ∀ other ∈ s.batch, other.id ≤ row.id
  idle : s.phase ≠ .reading → s.batch = []
  first : s.phase = .resetting → s.reset = false ∧ s.cursor = ""
  resetOr : s.phase ≠ .resetting → s.reset = true ∨ s.failed = true
  done : s.phase = .finished → s.failed = true ∨ ∀ row ∈ table.rows, s.Due row → row.id ∈ s.scheduled

structure Sound (table : JobTable) (s : Recovery) : Prop where
  tableSound : TableSound table s
  memorySound : MemorySound s
  pagingSound : PagingSound table s

/-! ### The workers -/

@[simp] theorem shown_id (row : JobRow) : (s.shown row).id = row.id := by
  unfold shown
  split
  · exact row.reset_id
  · rfl

theorem shown_pending_iff (row : JobRow) : (s.shown row).status = .pending ↔ s.Due row := by
  simp only [shown, Due, JobRow.reset]
  cases s.reset with
  | false => rfl
  | true => cases hstatus : row.status <;> simp [hstatus, JobStatus.active]

theorem Due.active {row : JobRow} (h : s.Due row) : row.status.active = true := by
  unfold Due at h
  split at h
  · exact h
  · rw [h]
    rfl

theorem filterMap_key_eq (rows : List JobRow) :
    rows.filterMap (·.idempotencyKey) = (rows.map (·.idempotencyKey)).filterMap fun key => key := by
  rw [List.filterMap_map]
  rfl

/-- Memory may change, as long as it is about jobs of this process. -/
theorem Sound.withMemory (h : Sound table s) {queue running inserted : List JobRow} {keys : List (String × String)}
    (hmemory : MemorySound { s with queue := queue, running := running, inserted := inserted, keys := keys }) :
    Sound table { s with queue := queue, running := running, inserted := inserted, keys := keys } := by
  obtain ⟨ht, -, hp⟩ := h
  exact ⟨⟨ht.ids, ht.keys, ht.origin, ht.untouched, ht.kept, ht.added⟩, hmemory,
    ⟨hp.once, hp.passed, hp.active, hp.other, hp.caughtUp, hp.upwards, hp.ahead, hp.known, hp.complete, hp.idle,
      hp.first, hp.resetOr, hp.done⟩⟩

/-- The rows keep their ids and their keys. -/
theorem setStatus_col {Col : Type} (col : JobRow → Col)
    (hcol : ∀ row status, col { row with status := status } = col row) (id : String) (status : JobStatus) :
    (s.setStatus id status).jobs.map col = s.jobs.map col :=
  Rows.map_update fun row _ _ => hcol row status

theorem exists_setStatus {id key} {status : JobStatus} {i : String}
    (h : ∃ row ∈ s.jobs, row.id = id ∧ row.idempotencyKey = key) :
    ∃ row ∈ (s.setStatus i status).jobs, row.id = id ∧ row.idempotencyKey = key := by
  obtain ⟨row, hrow, hid, hkey⟩ := h
  by_cases hi : row.id = i
  · exact ⟨{ row with status := status }, Rows.mem_update.mpr (Or.inl ⟨row, hrow, hi, rfl⟩), hid, hkey⟩
  · exact ⟨row, Rows.mem_update.mpr (Or.inr ⟨hrow, hi⟩), hid, hkey⟩

/-- An UPDATE of a job of this process. -/
theorem Sound.setStatus (h : Sound table s) {id : String} (hown : s.Owns id) (status : JobStatus) :
    Sound table (s.setStatus id status) := by
  obtain ⟨ht, hm, hp⟩ := h
  have hids := @setStatus_col s String (·.id) (fun _ _ => rfl) id status
  have hkeys := @setStatus_col s (Option String) (·.idempotencyKey) (fun _ _ => rfl) id status
  refine ⟨⟨?_, ?_, ?_, ?_, ?_, ht.added⟩, ⟨hm.queue, hm.running, ?_, ?_⟩,
    ⟨hp.once, hp.passed, hp.active, hp.other, hp.caughtUp, hp.upwards, hp.ahead, ?_, hp.complete, hp.idle,
      hp.first, hp.resetOr, hp.done⟩⟩
  · rw [hids]
    exact ht.ids
  · rw [filterMap_key_eq, hkeys, ← filterMap_key_eq]
    exact ht.keys
  · intro row hrow
    rcases Rows.mem_update.mp hrow with ⟨old, hold, -, rfl⟩ | ⟨hold, -⟩
    · exact ht.origin old hold
    · exact ht.origin row hold
  · -- a row that nobody has scheduled is not the one that changes
    intro row hrow hfree
    refine Rows.mem_update.mpr (Or.inr ⟨ht.untouched row hrow hfree, ?_⟩)
    intro heq
    rw [shown_id] at heq
    rcases hown with hscheduled | hadded
    · exact hfree (heq ▸ hscheduled)
    · exact ht.added id hadded (heq ▸ List.mem_map_of_mem hrow)
  · intro row hrow
    rw [hids]
    exact ht.kept row hrow
  · intro job hjob
    obtain ⟨hadded, hexists⟩ := hm.inserted job hjob
    exact ⟨hadded, exists_setStatus hexists⟩
  · intro entry hentry
    obtain ⟨howns, hexists⟩ := hm.keys entry hentry
    exact ⟨howns, exists_setStatus hexists⟩
  · intro row hrow
    obtain ⟨hexists, hactive⟩ := hp.known row hrow
    exact ⟨exists_setStatus hexists, hactive⟩

theorem Sound.startJob (h : Sound table s) (id : String) (recorded : Bool) :
    Sound table (s.startJob id recorded) := by
  unfold Recovery.startJob
  split
  · exact h
  · rename_i job hfind
    obtain ⟨hmem, hid⟩ := Rows.find?_key hfind
    have hown := h.memorySound.queue job hmem
    have hmoved : Sound table { s with
        queue := Rows.update (·.id) id (fun job => { job with status := .inProgress }) s.queue
        running := { job with status := .inProgress } :: s.running } := by
      refine h.withMemory ⟨?_, ?_, h.memorySound.inserted, h.memorySound.keys⟩
      · intro other hother
        rcases Rows.mem_update.mp hother with ⟨old, hold, -, rfl⟩ | ⟨hold, -⟩
        · exact h.memorySound.queue old hold
        · exact h.memorySound.queue other hold
      · intro other hother
        rcases List.mem_cons.mp hother with rfl | hother
        · exact hown
        · exact h.memorySound.running other hother
    cases recorded with
    | false => exact hmoved
    | true => exact hmoved.setStatus (hid ▸ hown) .inProgress

theorem Sound.endJob (h : Sound table s) (id : String) (done recorded : Bool) :
    Sound table (s.endJob id done recorded) := by
  unfold Recovery.endJob
  split
  · exact h
  · rename_i job hfind
    obtain ⟨hmem, hid⟩ := Rows.find?_key hfind
    have hown := h.memorySound.running job hmem
    have hforget : ∀ t : Recovery, Sound table t → Sound table { t with
        running := t.running.eraseP fun other => other.id == id
        queue := t.queue.eraseP fun other => other.id == id
        keys := t.keys.filter fun entry => some entry.1 != job.idempotencyKey } := by
      intro t ht
      refine ht.withMemory ⟨?_, ?_, ht.memorySound.inserted, ?_⟩
      · intro other hother
        exact ht.memorySound.queue other (List.mem_of_mem_eraseP hother)
      · intro other hother
        exact ht.memorySound.running other (List.mem_of_mem_eraseP hother)
      · intro entry hentry
        exact ht.memorySound.keys entry (List.mem_filter.mp hentry).1
    cases recorded with
    | false => exact hforget s h
    | true => exact hforget _ (h.setStatus (hid ▸ hown) _)

theorem Sound.insertJob (h : Sound table s) (row : JobRow) : Sound table (s.insertJob row) := by
  unfold Recovery.insertJob
  split
  · rename_i hguard
    obtain ⟨-, hkeyed, -, hid, hkey⟩ := hguard
    obtain ⟨ht, hm, hp⟩ := h
    have hexists : ∀ {id key}, (∃ other ∈ s.jobs, other.id = id ∧ other.idempotencyKey = key) →
        ∃ other ∈ s.jobs ++ [row], other.id = id ∧ other.idempotencyKey = key :=
      fun ⟨other, hother, hcols⟩ => ⟨other, List.mem_append_left _ hother, hcols⟩
    have howns : ∀ {id}, s.Owns id →
        Owns { s with jobs := s.jobs ++ [row], inserted := row :: s.inserted, added := row.id :: s.added } id :=
      fun hown => hown.imp_right (List.mem_cons_of_mem _)
    refine ⟨⟨?_, ?_, ?_, ?_, ?_, ?_⟩, ⟨?_, ?_, ?_, ?_⟩,
      ⟨hp.once, hp.passed, hp.active, ?_, hp.caughtUp, hp.upwards, hp.ahead, ?_, hp.complete, hp.idle,
        hp.first, hp.resetOr, hp.done⟩⟩
    · rw [List.map_append, List.map_singleton, List.nodup_append]
      refine ⟨ht.ids, List.nodup_singleton _, ?_⟩
      intro a ha b hb heq
      rw [List.mem_singleton] at hb
      exact hid (hb ▸ heq ▸ ha)
    · rw [List.filterMap_append, List.nodup_append]
      refine ⟨ht.keys, ?_, ?_⟩
      · cases hrowKey : row.idempotencyKey <;> simp [hrowKey]
      · intro a ha b hb heq
        obtain ⟨other, hother, hotherKey⟩ := List.mem_filterMap.mp ha
        obtain ⟨row', hrow', hrowKey⟩ := List.mem_filterMap.mp hb
        rw [List.mem_singleton] at hrow'
        apply hkey
        rw [← hrow', hrowKey, ← heq, ← hotherKey]
        exact List.mem_map_of_mem hother
    · intro other hother
      rcases List.mem_append.mp hother with hold | hnew
      · exact (ht.origin other hold).imp_right (List.mem_cons_of_mem _)
      · exact Or.inr (List.mem_singleton.mp hnew ▸ List.mem_cons_self)
    · intro old hold hfree
      exact List.mem_append_left _ (ht.untouched old hold hfree)
    · intro old hold
      rw [List.map_append]
      exact List.mem_append_left _ (ht.kept old hold)
    · intro id hadded hold
      rcases List.mem_cons.mp hadded with rfl | hadded
      · obtain ⟨old, hmem, heq⟩ := List.mem_map.mp hold
        exact hid (heq ▸ ht.kept old hmem)
      · exact ht.added id hadded hold
    · intro job hjob
      exact howns (hm.queue job hjob)
    · intro job hjob
      exact howns (hm.running job hjob)
    · intro job hjob
      rcases List.mem_cons.mp hjob with rfl | hjob
      · exact ⟨List.mem_cons_self, job, List.mem_append_right _ (List.mem_singleton_self job), rfl, rfl⟩
      · obtain ⟨hadded, hrow⟩ := hm.inserted job hjob
        exact ⟨List.mem_cons_of_mem _ hadded, hexists hrow⟩
    · intro entry hentry
      obtain ⟨hown, hrow⟩ := hm.keys entry hentry
      exact ⟨howns hown, hexists hrow⟩
    · intro id hid
      exact (hp.other id hid).imp_right (List.mem_cons_of_mem _)
    · intro other hother
      obtain ⟨hrow, hactive⟩ := hp.known other hother
      exact ⟨hexists hrow, hactive⟩
  · exact h

theorem storeKey?_eq_some {row : JobRow} {key : String} (h : row.storeKey? = some key) :
    row.idempotencyKey = some key := by
  unfold JobRow.storeKey? at h
  split at h
  · rename_i stored heq
    split at h
    · cases h
    · rw [heq, h]
  · cases h

/-- A job of this process goes into memory. -/
theorem MemorySound.remember (h : MemorySound s) {row : JobRow} (hown : s.Owns row.id)
    (hrow : ∃ other ∈ s.jobs, other.id = row.id ∧ other.idempotencyKey = row.idempotencyKey) :
    MemorySound (s.remember row) := by
  refine ⟨?_, h.running, h.inserted, ?_⟩
  · intro job hjob
    rcases List.mem_append.mp hjob with hjob | hjob
    · exact h.queue job hjob
    · rw [List.mem_singleton.mp hjob]
      exact hown
  · intro entry hentry
    unfold Recovery.remember at hentry
    simp only at hentry
    split at hentry
    · rename_i key hkey
      rcases List.mem_cons.mp hentry with rfl | hentry
      · refine ⟨hown, ?_⟩
        rw [← storeKey?_eq_some hkey]
        exact hrow
      · exact h.keys entry hentry
    · exact h.keys entry hentry

theorem Sound.rememberJob (h : Sound table s) (id : String) : Sound table (s.rememberJob id) := by
  unfold Recovery.rememberJob
  split
  · exact h
  · rename_i row hfind
    obtain ⟨hmem, -⟩ := Rows.find?_key hfind
    obtain ⟨hadded, hrow⟩ := h.memorySound.inserted row hmem
    have hremembered := h.memorySound.remember (Or.inr hadded) hrow
    refine h.withMemory ⟨hremembered.queue, hremembered.running, ?_, hremembered.keys⟩
    intro other hother
    exact h.memorySound.inserted other (List.mem_of_mem_eraseP hother)

/-! ### The paging -/

/-- No id is before the first page. -/
theorem not_le_start {row : JobRow} (hrow : row ∈ table.rows) : ¬row.id ≤ "" := by
  intro hle
  have hlt : ¬row.id < "" := by
    rw [String.lt_iff_toList_lt]
    exact List.not_lt_nil _
  exact table.named row hrow (eq_of_le_of_not_lt hle hlt)

theorem start_sound (table : JobTable) : Sound table (start table) := by
  refine ⟨⟨table.ids, table.keys, ?_, ?_, ?_, List.forall_mem_nil _⟩,
    ⟨List.forall_mem_nil _, List.forall_mem_nil _, List.forall_mem_nil _, List.forall_mem_nil _⟩,
    ⟨List.nodup_nil, List.forall_mem_nil _, ?_, List.forall_mem_nil _, ?_, List.Pairwise.nil, List.forall_mem_nil _,
      List.forall_mem_nil _, ?_, fun _ => rfl, fun _ => ⟨rfl, rfl⟩, ?_, ?_⟩⟩
  · intro row hrow
    exact Or.inl ⟨row, hrow, rfl, rfl⟩
  · intro row hrow _
    exact hrow
  · intro row hrow
    exact List.mem_map_of_mem hrow
  · intro row _ hscheduled
    cases hscheduled
  · intro row hrow _ hle
    exact absurd hle (not_le_start hrow)
  · intro hreading
    cases hreading
  · intro hne
    exact absurd rfl hne
  · intro hdone
    cases hdone

/-- The UPDATE that resets stale jobs. -/
theorem Sound.resetJobs (h : Sound table s) (hphase : s.phase = .resetting) :
    Sound table { s with jobs := s.jobs.map JobRow.reset, reset := true, phase := .querying } := by
  obtain ⟨ht, hm, hp⟩ := h
  obtain ⟨hreset, hcursor⟩ := hp.first hphase
  have hids : (s.jobs.map JobRow.reset).map (·.id) = s.jobs.map (·.id) := by
    rw [List.map_map]
    exact List.map_congr_left fun row _ => row.reset_id
  have hkeys : (s.jobs.map JobRow.reset).map (·.idempotencyKey) = s.jobs.map (·.idempotencyKey) := by
    rw [List.map_map]
    exact List.map_congr_left fun row _ => row.reset_key
  have hexists : ∀ {id key}, (∃ row ∈ s.jobs, row.id = id ∧ row.idempotencyKey = key) →
      ∃ row ∈ s.jobs.map JobRow.reset, row.id = id ∧ row.idempotencyKey = key :=
    fun ⟨row, hrow, hid, hkey⟩ => ⟨row.reset, List.mem_map_of_mem hrow, row.reset_id.trans hid,
      row.reset_key.trans hkey⟩
  have hbatch := hp.idle (by rw [hphase]; decide)
  refine ⟨⟨?_, ?_, ?_, ?_, ?_, ht.added⟩, ⟨hm.queue, hm.running, ?_, ?_⟩,
    ⟨hp.once, hp.passed, hp.active, hp.other, ?_, hp.upwards, hp.ahead, ?_, fun hreading => (nomatch hreading),
      fun _ => hbatch, fun hfirst => (nomatch hfirst), fun _ => Or.inl rfl, fun hdone => (nomatch hdone)⟩⟩
  · rw [hids]
    exact ht.ids
  · rw [filterMap_key_eq, hkeys, ← filterMap_key_eq]
    exact ht.keys
  · intro row hrow
    obtain ⟨old, hold, rfl⟩ := List.mem_map.mp hrow
    rw [JobRow.reset_id, JobRow.reset_key]
    exact ht.origin old hold
  · intro row hrow hfree
    have hmem := ht.untouched row hrow hfree
    rw [shown, hreset, if_neg (by decide)] at hmem
    exact List.mem_map_of_mem hmem
  · intro row hrow
    rw [hids]
    exact ht.kept row hrow
  · intro job hjob
    obtain ⟨hadded, hrow⟩ := hm.inserted job hjob
    exact ⟨hadded, hexists hrow⟩
  · intro entry hentry
    obtain ⟨hown, hrow⟩ := hm.keys entry hentry
    exact ⟨hown, hexists hrow⟩
  · intro row hrow _ hle
    rw [hcursor] at hle
    exact absurd hle (not_le_start hrow)
  · intro row hrow
    obtain ⟨hknown, hactive⟩ := hp.known row hrow
    exact ⟨hexists hknown, hactive⟩

/-- A row on a page is one that is still to be scheduled, or that was inserted since. -/
theorem Sound.query (h : Sound table s) (hphase : s.phase = .querying) :
    Sound table { s with batch := s.pendingPage, page := 0, phase := .reading } := by
  obtain ⟨ht, hm, hp⟩ := h
  have hids : ((s.jobs.filter fun row => row.status == .pending).map (·.id)).Nodup :=
    ht.ids.sublist (List.filter_sublist.map _)
  have hmem : ∀ row ∈ s.pendingPage, row ∈ s.jobs ∧ row.status = .pending ∧ s.cursor < row.id := by
    intro row hrow
    obtain ⟨hfiltered, hlt⟩ := mem_of_mem_page hrow
    obtain ⟨hjobs, hstatus⟩ := List.mem_filter.mp hfiltered
    exact ⟨hjobs, beq_iff_eq.mp hstatus, hlt⟩
  refine ⟨⟨ht.ids, ht.keys, ht.origin, ht.untouched, ht.kept, ht.added⟩,
    ⟨hm.queue, hm.running, hm.inserted, hm.keys⟩,
      ⟨hp.once, hp.passed, hp.active, hp.other, hp.caughtUp, page_increasing hids,
        fun row hrow => (hmem row hrow).2.2, ?_, ?_, fun hne => absurd rfl hne, fun hfirst => (nomatch hfirst),
          fun _ => hp.resetOr (by rw [hphase]; decide), ?_⟩⟩
  · intro row hrow
    obtain ⟨hjobs, hstatus, hlt⟩ := hmem row hrow
    refine ⟨⟨row, hjobs, rfl, rfl⟩, ?_⟩
    intro old hold hid
    have hfree : old.id ∉ s.scheduled := fun hscheduled => absurd (hp.passed _ hscheduled) (not_le.mpr (hid ▸ hlt))
    have hsame : s.shown old = row :=
      Rows.eq_of_key_eq ht.ids (ht.untouched old hold hfree) hjobs ((shown_id old).trans hid)
    exact ((shown_pending_iff old).mp (hsame ▸ hstatus)).active
  · intro _ row hrow hdue hlt
    have hfree : row.id ∉ s.scheduled := fun hscheduled => absurd (hp.passed _ hscheduled) (not_le.mpr hlt)
    have hpending : s.shown row ∈ s.jobs.filter fun row => row.status == .pending :=
      List.mem_filter.mpr ⟨ht.untouched row hrow hfree, beq_iff_eq.mpr ((shown_pending_iff row).mpr hdue)⟩
    have hpage := @mem_page_or _ _ _ (fun row : JobRow => row.id) ingestionRecoveryPageSize s.cursor _
      (s.shown row) hpending
      (by rw [shown_id]; exact hlt)
    rw [shown_id] at hpage
    rcases hpage with hon | ⟨hfull, hbefore⟩
    · exact Or.inl ⟨s.shown row, hon, shown_id row⟩
    · right
      refine ⟨?_, hbefore⟩
      rw [Nat.zero_add]
      exact hfull
  · intro hdone
    cases hdone

/-- The end of a page. -/
theorem Sound.endPage (h : Sound table s) (hphase : s.phase = .reading) (hbatch : s.batch = []) :
    Sound table { s with phase := if s.page < ingestionRecoveryPageSize then .finished else .querying } := by
  obtain ⟨ht, hm, hp⟩ := h
  have hnext : (if s.page < ingestionRecoveryPageSize then RecoveryPhase.finished else .querying) ≠ .reading := by
    split <;> decide
  have hstarted : (if s.page < ingestionRecoveryPageSize then RecoveryPhase.finished else .querying) ≠ .resetting := by
    split <;> decide
  refine ⟨⟨ht.ids, ht.keys, ht.origin, ht.untouched, ht.kept, ht.added⟩,
    ⟨hm.queue, hm.running, hm.inserted, hm.keys⟩,
      ⟨hp.once, hp.passed, hp.active, hp.other, hp.caughtUp, hp.upwards, hp.ahead, hp.known,
        fun hreading => absurd hreading hnext, fun _ => hbatch, fun hfirst => absurd hfirst hstarted,
          fun _ => hp.resetOr (by rw [hphase]; decide), ?_⟩⟩
  intro hdone
  right
  intro row hrow hdue
  by_cases hle : row.id ≤ s.cursor
  · exact hp.caughtUp row hrow hdue hle
  · -- a page that is not full has every row that was left
    exfalso
    rcases hp.complete hphase row hrow hdue (not_le.mp hle) with ⟨other, hother, -⟩ | ⟨hfull, -⟩
    · rw [hbatch] at hother
      cases hother
    · rw [hbatch, List.length_nil, Nat.add_zero] at hfull
      simp only [hfull, Nat.lt_irrefl, if_false] at hdone
      cases hdone

/-- A statement that fails. -/
theorem Sound.fail (h : Sound table s) (hphase : s.phase = .resetting ∨ s.phase = .querying) {next : RecoveryPhase}
    (hnext : next = .querying ∨ next = .finished) : Sound table { s with failed := true, phase := next } := by
  obtain ⟨ht, hm, hp⟩ := h
  have hbatch := hp.idle (by rcases hphase with h | h <;> rw [h] <;> decide)
  have hidle : next ≠ .reading ∧ next ≠ .resetting := by rcases hnext with rfl | rfl <;> decide
  exact ⟨⟨ht.ids, ht.keys, ht.origin, ht.untouched, ht.kept, ht.added⟩,
    ⟨hm.queue, hm.running, hm.inserted, hm.keys⟩,
      ⟨hp.once, hp.passed, hp.active, hp.other, hp.caughtUp, hp.upwards, hp.ahead, hp.known,
        fun hreading => absurd hreading hidle.1, fun _ => hbatch, fun hfirst => absurd hfirst hidle.2,
          fun _ => Or.inr rfl,
      fun _ => Or.inl rfl⟩⟩

section Read

variable {row : JobRow} {rest : List JobRow}

/-- A row that is due up to the next one of the page is that one. -/
theorem PagingSound.due_is_next (hp : PagingSound table s) (hphase : s.phase = .reading)
    (hbatch : s.batch = row :: rest) {old : JobRow} (hold : old ∈ table.rows) (hdue : s.Due old)
    (hle : old.id ≤ row.id) :
    old.id ∈ s.scheduled ∨ old.id = row.id := by
  by_cases hpassed : old.id ≤ s.cursor
  · exact Or.inl (hp.caughtUp old hold hdue hpassed)
  · right
    have hupwards := hbatch ▸ hp.upwards
    rcases hp.complete hphase old hold hdue (not_le.mp hpassed) with ⟨other, hother, hid⟩ | ⟨-, hbefore⟩
    · rw [hbatch] at hother
      rcases List.mem_cons.mp hother with rfl | hother
      · exact hid.symm
      · have hlt := (List.pairwise_cons.mp hupwards).1 other hother
        exact absurd hle (not_le.mpr (hid ▸ hlt))
    · exact le_antisymm hle (hbefore row (hbatch ▸ List.mem_cons_self))

/-- A row whose key is in memory is one that was inserted since. -/
theorem Sound.not_alreadyQueued (h : Sound table s) (hbatch : s.batch = row :: rest) {old : JobRow}
    (hold : old ∈ table.rows) (hid : old.id = row.id) : s.alreadyQueued row = false := by
  obtain ⟨ht, hm, hp⟩ := h
  have hrow : row ∈ s.batch := hbatch ▸ List.mem_cons_self
  have hfree : old.id ∉ s.scheduled :=
    fun hscheduled => absurd (hp.passed _ hscheduled) (not_le.mpr (hid ▸ hp.ahead row hrow))
  unfold alreadyQueued
  split
  · rename_i key hkey
    rw [← Bool.not_eq_true, Option.isSome_iff_exists]
    rintro ⟨id, hlookup⟩
    obtain ⟨before, after, hkeys, -⟩ := List.lookup_eq_some_iff.mp hlookup
    obtain ⟨hown, other, hother, hotherId, hotherKey⟩ :=
      hm.keys (key, id) (hkeys ▸ List.mem_append_right _ List.mem_cons_self)
    obtain ⟨⟨known, hknown, hknownId, hknownKey⟩, -⟩ := hp.known row hrow
    -- both have the key, so they are one row
    have hknownSome : known.idempotencyKey = some key := hknownKey.trans (storeKey?_eq_some hkey)
    have hsame : other = known := Rows.eq_of_filterMap_eq ht.keys hother hknown hotherKey hknownSome
    have hidOld : id = old.id := by
      have hotherId : other.id = id := hotherId
      rw [← hotherId, hsame, hknownId, hid]
    rcases hown with hscheduled | hadded
    · exact hfree (hidOld ▸ hscheduled)
    · exact ht.added id hadded (hidOld ▸ List.mem_map_of_mem hold)
  · rfl

/-- The next row of the page. -/
theorem Sound.read (h : Sound table s) (hphase : s.phase = .reading) (hbatch : s.batch = row :: rest) :
    Sound table (s.read row rest) := by
  have hnotQueued := fun old (hold : old ∈ table.rows) hid => h.not_alreadyQueued hbatch hold hid
  obtain ⟨ht, hm, hp⟩ := h
  have hrow : row ∈ s.batch := hbatch ▸ List.mem_cons_self
  have hrest : ∀ other ∈ rest, other ∈ s.batch := fun other hother => hbatch ▸ List.mem_cons_of_mem _ hother
  obtain ⟨hrowKnown, hrowActive⟩ := hp.known row hrow
  obtain ⟨habove, hupwards⟩ := List.pairwise_cons.mp (hbatch ▸ hp.upwards)
  have hnew : row.id ∉ s.scheduled := fun hscheduled => absurd (hp.passed _ hscheduled)
    (not_le.mpr (hp.ahead row hrow))
  have hcomplete : ∀ old ∈ table.rows, s.Due old → row.id < old.id → (∃ other ∈ rest, other.id = old.id) ∨
      s.page + 1 + rest.length = ingestionRecoveryPageSize ∧ ∀ other ∈ rest, other.id ≤ old.id := by
    intro old hold hdue hlt
    have hahead := lt_trans (hp.ahead row hrow) hlt
    rcases hp.complete hphase old hold hdue hahead with ⟨other, hother, hid⟩ | ⟨hfull, hbefore⟩
    · rw [hbatch] at hother
      rcases List.mem_cons.mp hother with rfl | hother
      · exact absurd hid (ne_of_lt hlt)
      · exact Or.inl ⟨other, hother, hid⟩
    · right
      rw [hbatch, List.length_cons] at hfull
      exact ⟨by omega, fun other hother => hbefore other (hrest other hother)⟩
  unfold Recovery.read
  simp only
  split
  · -- the row was inserted since, and its worker has it
    rename_i hqueued
    refine ⟨⟨ht.ids, ht.keys, ht.origin, ht.untouched, ht.kept, ht.added⟩,
      ⟨hm.queue, hm.running, hm.inserted, hm.keys⟩,
        ⟨hp.once, ?_, hp.active, hp.other, ?_, hupwards, habove, fun other hother => hp.known other
          (hrest other hother), fun _ => hcomplete, fun hne => absurd hphase hne,
            fun hfirst => absurd (hphase.symm.trans hfirst) (by decide),
        hp.resetOr, fun hdone => absurd (hphase.symm.trans hdone) (by decide)⟩⟩
    · intro id hid
      exact (hp.passed id hid).trans (hp.ahead row hrow).le
    · intro old hold hdue hle
      rcases hp.due_is_next hphase hbatch hold hdue hle with hscheduled | hid
      · exact hscheduled
      · have hfree : s.alreadyQueued row = true := hqueued
        rw [hnotQueued old hold hid] at hfree
        cases hfree
  · -- it is handed to a worker
    have hremembered := MemorySound.remember (s := { s with
        batch := rest, page := s.page + 1, cursor := row.id, scheduled := s.scheduled ++ [row.id] })
      ⟨fun job hjob => (hm.queue job hjob).imp_left (List.mem_append_left _),
        fun job hjob => (hm.running job hjob).imp_left (List.mem_append_left _), hm.inserted,
        fun entry hentry => ⟨(hm.keys entry hentry).1.imp_left (List.mem_append_left _), (hm.keys entry hentry).2⟩⟩
      (Or.inl (List.mem_append_right _ (List.mem_singleton_self row.id))) hrowKnown
    refine ⟨⟨ht.ids, ht.keys, ht.origin, ?_, ht.kept, ht.added⟩,
      ⟨hremembered.queue, hremembered.running, hremembered.inserted, hremembered.keys⟩,
      ⟨?_, ?_, ?_, ?_, ?_, hupwards, habove, fun other hother => hp.known other (hrest other hother),
        fun _ => hcomplete, fun hne => absurd hphase hne,
          fun hfirst => absurd (hphase.symm.trans hfirst) (by decide),
        hp.resetOr, fun hdone => absurd (hphase.symm.trans hdone) (by decide)⟩⟩
    · intro old hold hfree
      exact ht.untouched old hold fun hscheduled => hfree (List.mem_append_left _ hscheduled)
    · rw [List.nodup_append]
      refine ⟨hp.once, List.nodup_singleton _, ?_⟩
      intro a ha b hb heq
      rw [List.mem_singleton] at hb
      exact hnew (hb ▸ heq ▸ ha)
    · intro id hid
      rcases List.mem_append.mp hid with hid | hid
      · exact (hp.passed id hid).trans (hp.ahead row hrow).le
      · exact (List.mem_singleton.mp hid).le
    · intro old hold hid
      rcases List.mem_append.mp hid with hid | hid
      · exact hp.active old hold hid
      · exact hrowActive old hold (List.mem_singleton.mp hid)
    · intro id hid
      rcases List.mem_append.mp hid with hid | hid
      · exact hp.other id hid
      · obtain ⟨other, hother, hotherId, -⟩ := hrowKnown
        rw [List.mem_singleton.mp hid, ← hotherId]
        exact (ht.origin other hother).imp_left fun ⟨old, hold, hcols⟩ => List.mem_map.mpr ⟨old, hold, hcols.1⟩
    · intro old hold hdue hle
      rcases hp.due_is_next hphase hbatch hold hdue hle with hscheduled | hid
      · exact List.mem_append_left _ hscheduled
      · exact List.mem_append_right _ (List.mem_singleton.mpr hid)

end Read

theorem Sound.proceed (h : Sound table s) (answered : Bool) : Sound table (s.proceed answered) := by
  unfold Recovery.proceed
  split
  · rename_i hphase
    split
    · exact h.resetJobs hphase
    · exact h.fail (Or.inl hphase) (Or.inl rfl)
  · rename_i hphase
    split
    · exact h.query hphase
    · exact h.fail (Or.inr hphase) (Or.inr rfl)
  · rename_i hphase
    split
    · rename_i row rest hbatch
      exact h.read hphase hbatch
    · rename_i hbatch
      exact h.endPage hphase hbatch
  · exact h

theorem step_sound (s : Recovery) (a : RecoveryAction) (h : Sound table s) : Sound table (s.step a) := by
  cases a with
  | proceed answered => exact h.proceed answered
  | startJob id recorded => exact h.startJob id recorded
  | endJob id done recorded => exact h.endJob id done recorded
  | insertJob row => exact h.insertJob row
  | rememberJob id => exact h.rememberJob id

theorem reached_sound (table : JobTable) (actions : List RecoveryAction) :
    Sound table (Runs.final Recovery.step (start table) actions) :=
  Runs.forall_visited_of_step step_sound (start_sound table) actions _ (Runs.final_mem_visited _ actions)

/-! ### The end -/

/-- The rows past the cursor. -/
def left (s : Recovery) : Nat := (s.jobs.filter fun row => s.cursor < row.id).length

/-- What goes down with everything `recoverPendingJobs` does. A page that was read to its end leads to another
query if it was full. -/
def rank (s : Recovery) : Nat :=
  match s.phase with
  | .resetting => 4 * s.left + 4
  | .querying => 4 * s.left + 2
  | .reading =>
      if s.batch = [] then (if s.page < ingestionRecoveryPageSize then 1 else 4 * s.left + 3) else 4 * s.left + 1
  | .finished => 0

theorem rank_reading_le (h : s.phase = .reading) : s.rank ≤ 4 * s.left + 3 := by
  unfold rank
  rw [h]
  simp only
  split
  · split <;> omega
  · omega

theorem left_resetJobs : left
      { s with jobs := s.jobs.map JobRow.reset, reset := true, phase := .querying } = s.left := by
  have hcount : ∀ jobs : List JobRow, (jobs.filter fun row => s.cursor < row.id).length =
      ((jobs.map (·.id)).filter fun id => s.cursor < id).length := by
    intro jobs
    rw [List.filter_map, List.length_map]
    rfl
  rw [left, left, hcount, hcount, List.map_map]
  congr 2
  exact List.map_congr_left fun row _ => row.reset_id

/-- Reading a row leaves it behind. -/
theorem left_read_lt (h : Sound table s) {row : JobRow} {rest : List JobRow} (hbatch : s.batch = row :: rest) :
    (s.read row rest).left < s.left := by
  have hrow : row ∈ s.batch := hbatch ▸ List.mem_cons_self
  have hlt := h.pagingSound.ahead row hrow
  obtain ⟨⟨other, hother, hid, -⟩, -⟩ := h.pagingSound.known row hrow
  have hread : (s.read row rest).left = (s.jobs.filter fun other => row.id < other.id).length := by
    unfold Recovery.read
    simp only
    split <;> rfl
  have hfilter : (s.jobs.filter fun other => row.id < other.id) =
      (s.jobs.filter fun other => s.cursor < other.id).filter fun other => row.id < other.id := by
    rw [List.filter_filter]
    apply List.filter_congr
    intro other _
    by_cases hpast : row.id < other.id
    · simp [hpast, lt_trans hlt hpast]
    · simp [hpast]
  rw [hread, hfilter, left, List.length_filter_lt_length_iff_exists]
  refine ⟨other, List.mem_filter.mpr ⟨hother, ?_⟩, ?_⟩
  · rw [hid]
    exact decide_eq_true hlt
  · rw [hid]
    simp

theorem rank_proceed_lt (h : Sound table s) (hrunning : s.phase ≠ .finished) : (s.proceed true).rank < s.rank := by
  unfold Recovery.proceed
  split
  · rename_i hphase
    simp only [if_true, rank, hphase, left_resetJobs]
    omega
  · rename_i hphase
    simp only [if_true, rank, hphase]
    have hleft : left { s with batch := s.pendingPage, page := 0, phase := .reading } = s.left := rfl
    rw [hleft]
    split
    · have hsize : 0 < ingestionRecoveryPageSize := by decide
      simp only [hsize, if_true]
      omega
    · omega
  · rename_i hphase
    split
    · rename_i row rest hbatch
      have hlt := left_read_lt h hbatch
      have hread : (s.read row rest).phase = .reading := by
        unfold Recovery.read
        simp only
        split <;> exact hphase
      have hle := rank_reading_le hread
      have hrank : s.rank = 4 * s.left + 1 := by
        simp only [rank, hphase, hbatch, reduceCtorEq, if_false]
      omega
    · rename_i hbatch
      simp only [rank, hphase, hbatch, if_true]
      by_cases hshort : s.page < ingestionRecoveryPageSize
      · simp only [hshort, if_true]
        omega
      · simp only [hshort, if_false]
        exact Nat.lt_succ_self _
  · rename_i hphase
    exact absurd hphase hrunning

/-- If its statements are carried out and the workers let it, the recovery comes to its end. -/
theorem Sound.finishes (h : Sound table s) :
    ∃ n, (Runs.final Recovery.step s (List.replicate n (.proceed true))).phase = .finished := by
  induction hrank : s.rank using Nat.strong_induction_on generalizing s with
  | _ rank ih =>
      by_cases hphase : s.phase = .finished
      · exact ⟨0, hphase⟩
      · obtain ⟨n, hn⟩ := ih (s.proceed true).rank (hrank ▸ rank_proceed_lt h hphase) (h.proceed true) rfl
        exact ⟨n + 1, hn⟩

/-- Each job of the table that was pending or in progress is scheduled once, and no other. -/
def SchedulesOnce (table : JobTable) (s : Recovery) : Prop :=
  ∀ row ∈ table.rows, s.scheduled.count row.id = if row.status.active then 1 else 0

theorem Sound.schedulesOnce (h : Sound table s) (hdone : s.phase = .finished) (hfailed : s.failed = false) :
    SchedulesOnce table s := by
  have hp := h.pagingSound
  have hreset : s.reset = true := by
    rcases hp.resetOr (by rw [hdone]; decide) with hreset | hwrong
    · exact hreset
    · rw [hfailed] at hwrong
      cases hwrong
  intro row hrow
  by_cases hactive : row.status.active = true
  · have hdue : s.Due row := by
      rw [Due, hreset, if_pos rfl]
      exact hactive
    rcases hp.done hdone with hwrong | hall
    · rw [hfailed] at hwrong
      cases hwrong
    · rw [if_pos hactive]
      exact List.count_eq_one_of_mem hp.once (hall row hrow hdue)
  · rw [if_neg hactive]
    exact List.count_eq_zero_of_not_mem fun hscheduled => hactive (hp.active row hrow hscheduled)

/-- Whatever fails, no job is scheduled twice, and none that was done. -/
theorem Sound.count_le_one (h : Sound table s) {row : JobRow} (hrow : row ∈ table.rows) :
    s.scheduled.count row.id ≤ if row.status.active then 1 else 0 := by
  by_cases hactive : row.status.active = true
  · rw [if_pos hactive]
    exact List.nodup_iff_count_le_one.mp h.pagingSound.once row.id
  · rw [if_neg hactive, Nat.le_zero]
    exact List.count_eq_zero_of_not_mem fun hscheduled => hactive (h.pagingSound.active row hrow hscheduled)

end Recovery

end Inec
