import Inec.Lib.PaddedNumber
import Inec.Ingestion.Acknowledged

/-!
# Identifiers across restarts

Jobs are numbered `ING-000001`, `ING-000002` and so on, dead letters `DLQ-000001` and so on, by two
counters that live in the process. A restart seeds the first past the largest id in the table, which is
the largest as a text, and forgets the second. So the texts of seven digits are overlooked, and the dead
letters are numbered from the beginning again.
-/

namespace Inec

open PaddedNumber

variable (sha256Hex : String → String)

/-! ### Ids -/

/-- `fmt.Sprintf("ING-%06d", n)`. -/
def jobIdText (n : Nat) : String := String.ofList ("ING-".toList ++ padded 6 n)

/-- `fmt.Sprintf("DLQ-%06d", n)`. -/
def dlqIdText (n : Nat) : String := String.ofList ("DLQ-".toList ++ padded 6 n)

theorem toList_jobIdText (n : Nat) : (jobIdText n).toList = "ING-".toList ++ padded 6 n :=
  @String.toList_ofList ("ING-".toList ++ padded 6 n)

theorem jobIdText_inj {n m : Nat} (h : jobIdText n = jobIdText m) : n = m :=
  padded_inj (List.append_cancel_left (String.ofList_inj.mp h))

theorem dlqIdText_inj {n m : Nat} (h : dlqIdText n = dlqIdText m) : n = m :=
  padded_inj (List.append_cancel_left (String.ofList_inj.mp h))

/-- `SELECT MAX(id) FROM ingestion_jobs WHERE id LIKE 'ING-%'`. Every id is of that form. -/
def maxJobId (jobs : List IngestionJob) : Option String := (jobs.map fun job => jobIdText job.id).max?

/-- The number of an id: `strconv.ParseInt(strings.TrimPrefix(id, "ING-"), 10, 64)`. -/
def jobNumber? (id : String) : Option Int :=
  JsonText.int64? (if "ING-".toList.isPrefixOf id.toList then id.toList.drop 4 else id.toList)

/-- The counter `recoverPendingJobs` leaves in a new process. -/
def seededNextId (jobs : List IngestionJob) : Nat :=
  match (maxJobId jobs).bind jobNumber? with
  | some n => if 1 ≤ n then n.toNat + 1 else 1
  | none => 1

/-! ### Processes -/

def IngestInput.isRestart : IngestInput → Bool
  | .restart _ _ _ => true
  | _ => false

/-- What a process does, and its replacement by a new one. `seeded` is whether the query for the largest id
is answered. -/
inductive LifeInput
  | act (i : IngestInput) (serving : i.isRestart = false)
  | restart (seeded reset recovered : Bool)

def lifeStep (s : IngestState) : LifeInput → IngestState
  | .act i _ => ingestStep sha256Hex s i
  | .restart seeded reset recovered => restart s (if seeded then seededNextId s.jobs else 1) reset recovered

/-- No id that the counters have still to give out is in the tables. -/
structure NewIdsFresh (s : IngestState) : Prop where
  jobs : ∀ n, s.nextId ≤ n → jobIdText n ∉ s.jobs.map fun job => jobIdText job.id
  letters : ∀ n, s.dlqNextId ≤ n → dlqIdText n ∉ s.deadLetters.map fun entry => dlqIdText entry.id

/-- The INSERTs of a new job and of a dead letter take effect when they reach the table. -/
structure InsertsLand (s : IngestState) : Prop where
  job : ∀ jobType payload key db, ¬KeyTaken s key → db ≠ .unreachable →
    newJob s.nextId jobType payload key ∈ (persistJob s (newJob s.nextId jobType payload key) db).1.jobs
  letter : ∀ (work : WorkEnv) (job : IngestionJob) err, work.lettered = true →
    ⟨s.dlqNextId, job.id, job.jobType, err, job.payload, false⟩ ∈ (deadLetterJob work s job err).deadLetters

/-- The job with the largest number also has the largest id as a text. -/
def SeedReaches (jobs : List IngestionJob) : Prop :=
  ∃ top ∈ jobs, top.id < 2 ^ 63 ∧ ∀ job ∈ jobs, job.id ≤ top.id ∧ jobIdText job.id ≤ jobIdText top.id

/-- A restart that goes on with new ids. -/
def RestartFits (s : IngestState) : LifeInput → Prop
  | .act _ _ => True
  | .restart seeded _ _ => s.deadLetters = [] ∧ (s.jobs = [] ∨ seeded = true ∧ SeedReaches s.jobs)

variable {sha256Hex}

/-! ### What the counters give out -/

/-- The ids of the jobs and of the dead letters are below their counters. -/
theorem newIdsFresh_iff {s : IngestState} :
    NewIdsFresh s ↔ (∀ job ∈ s.jobs, job.id < s.nextId) ∧ ∀ entry ∈ s.deadLetters, entry.id < s.dlqNextId := by
  constructor
  · intro h
    refine ⟨fun job hjob => ?_, fun entry hentry => ?_⟩
    · by_contra hle
      exact h.jobs job.id (Nat.le_of_not_lt hle) (List.mem_map.mpr ⟨job, hjob, rfl⟩)
    · by_contra hle
      exact h.letters entry.id (Nat.le_of_not_lt hle) (List.mem_map.mpr ⟨entry, hentry, rfl⟩)
  · rintro ⟨hjobs, hletters⟩
    refine ⟨fun n hn hmem => ?_, fun n hn hmem => ?_⟩
    · obtain ⟨job, hjob, htext⟩ := List.mem_map.mp hmem
      have hlt := hjobs job hjob
      rw [jobIdText_inj htext] at hlt
      omega
    · obtain ⟨entry, hentry, htext⟩ := List.mem_map.mp hmem
      have hlt := hletters entry hentry
      rw [dlqIdText_inj htext] at hlt
      omega

/-- What is numbered on the way from one state to the other is numbered by the counters. -/
structure Numbered (s s' : IngestState) : Prop where
  nextId : s.nextId ≤ s'.nextId
  dlqNextId : s.dlqNextId ≤ s'.dlqNextId
  jobs : ∀ job ∈ s'.jobs, (∃ old ∈ s.jobs, old.id = job.id) ∨ s.nextId ≤ job.id ∧ job.id < s'.nextId
  letters : ∀ entry ∈ s'.deadLetters,
    (∃ old ∈ s.deadLetters, old.id = entry.id) ∨ s.dlqNextId ≤ entry.id ∧ entry.id < s'.dlqNextId

namespace Numbered

variable {s s' s'' : IngestState}

theorem of_eq (hjobs : s'.jobs = s.jobs) (hletters : s'.deadLetters = s.deadLetters) (hnext : s.nextId ≤ s'.nextId)
    (hdlq : s.dlqNextId ≤ s'.dlqNextId) : Numbered s s' :=
  ⟨hnext, hdlq, fun job hjob => Or.inl ⟨job, hjobs ▸ hjob, rfl⟩,
    fun entry hentry => Or.inl ⟨entry, hletters ▸ hentry, rfl⟩⟩

theorem refl (s : IngestState) : Numbered s s := of_eq rfl rfl (Nat.le_refl _) (Nat.le_refl _)

theorem trans (h : Numbered s s') (h' : Numbered s' s'') : Numbered s s'' := by
  refine ⟨h.nextId.trans h'.nextId, h.dlqNextId.trans h'.dlqNextId, fun job hjob => ?_, fun entry hentry => ?_⟩
  · have hnext := h.nextId
    have hnext' := h'.nextId
    rcases h'.jobs job hjob with ⟨old, hold, hid⟩ | hnew
    · rcases h.jobs old hold with ⟨older, holder, hid'⟩ | hnew
      · exact Or.inl ⟨older, holder, hid'.trans hid⟩
      · right
        omega
    · right
      omega
  · have hdlq := h.dlqNextId
    have hdlq' := h'.dlqNextId
    rcases h'.letters entry hentry with ⟨old, hold, hid⟩ | hnew
    · rcases h.letters old hold with ⟨older, holder, hid'⟩ | hnew
      · exact Or.inl ⟨older, holder, hid'.trans hid⟩
      · right
        omega
    · right
      omega

/-- An UPDATE leaves the ids alone. -/
theorem updateJob (s : IngestState) (id : Nat) {f : IngestionJob → IngestionJob}
    (hid : ∀ row, (f row).id = row.id) :
    Numbered s (s.updateJob id f) := by
  refine ⟨Nat.le_refl _, Nat.le_refl _, fun job hjob => Or.inl ?_, fun entry hentry => Or.inl ⟨entry, hentry, rfl⟩⟩
  rcases Rows.mem_update.mp hjob with ⟨old, hold, -, rfl⟩ | ⟨hold, -⟩
  · exact ⟨old, hold, (hid old).symm⟩
  · exact ⟨job, hold, rfl⟩

theorem fresh (h : Numbered s s') (hfresh : NewIdsFresh s) : NewIdsFresh s' := by
  rw [newIdsFresh_iff] at hfresh ⊢
  refine ⟨fun job hjob => ?_, fun entry hentry => ?_⟩
  · rcases h.jobs job hjob with ⟨old, hold, hid⟩ | hnew
    · have hlt := hfresh.1 old hold
      have hnext := h.nextId
      omega
    · exact hnew.2
  · rcases h.letters entry hentry with ⟨old, hold, hid⟩ | hnew
    · have hlt := hfresh.2 old hold
      have hdlq := h.dlqNextId
      omega
    · exact hnew.2

end Numbered

/-- With six digits the order of the texts is that of the numbers. -/
theorem seedReaches_of_sixDigits {jobs : List IngestionJob} (hne : jobs ≠ [])
    (h : ∀ job ∈ jobs, job.id < 1000000) : SeedReaches jobs := by
  have hsome : ∃ n, (jobs.map (·.id)).max? = some n := by
    cases hmax : (jobs.map (·.id)).max? with
    | none => exact absurd (List.map_eq_nil_iff.mp (List.max?_eq_none_iff.mp hmax)) hne
    | some n => exact ⟨n, rfl⟩
  obtain ⟨n, hmax⟩ := hsome
  obtain ⟨hmem, hle⟩ := List.max?_eq_some_iff.mp hmax
  obtain ⟨top, htop, rfl⟩ := List.mem_map.mp hmem
  have hlt := h top htop
  refine ⟨top, htop, by omega, ?_⟩
  intro job hjob
  have hid := hle job.id (List.mem_map_of_mem hjob)
  refine ⟨hid, ?_⟩
  have hpadded : padded 6 job.id ≤ padded 6 top.id := padded_le_of_le (by decide) hlt hid
  have htexts : (jobIdText job.id).toList ≤ (jobIdText top.id).toList := by
    rw [toList_jobIdText, toList_jobIdText]
    exact append_le_append _ hpadded
  exact String.le_iff_toList_le.mpr htexts


/-! ### Every operation numbers by the counters -/

section Operations

variable {s : IngestState}

theorem persistJob_numbered (s : IngestState) (jobType : JobType) (payload : Payload)
    (key : String) (db : DbReply) :
    Numbered s (persistJob s (newJob s.nextId jobType payload key) db).1 := by
  have hsame : Numbered s { s with nextId := s.nextId + 1 } := .of_eq rfl rfl (Nat.le_succ _) (Nat.le_refl _)
  have hnew : ∀ queue keys, Numbered s { s with
      nextId := s.nextId + 1, jobs := s.jobs ++ [newJob s.nextId jobType payload key], queue :=
        queue, keys := keys } := by
    intro queue keys
    refine ⟨Nat.le_succ _, Nat.le_refl _, fun job hjob => ?_, fun entry hentry => Or.inl ⟨entry, hentry, rfl⟩⟩
    rcases List.mem_append.mp hjob with hold | hnew
    · exact Or.inl ⟨job, hold, rfl⟩
    · obtain rfl := List.mem_singleton.mp hnew
      exact Or.inr ⟨Nat.le_refl _, Nat.lt_succ_self _⟩
  unfold persistJob
  simp only
  split
  · exact hsame
  · split
    · split
      · exact hsame
      · exact hsame
    · split
      · exact hsame
      · split
        · exact hnew _ _
        · exact hnew _ _

theorem enqueueJob_numbered (s : IngestState) (jobType : JobType) (payload : Payload)
    (key : String) (db : DbReply) :
    Numbered s (enqueueJob sha256Hex s jobType payload key db).1 := by
  unfold enqueueJob
  simp only
  split
  · exact .refl s
  · split
    · exact .refl s
    · exact persistJob_numbered s jobType payload _ db

theorem startJob_numbered (s : IngestState) (id : Nat) (recorded : Bool) : Numbered s (startJob s id recorded) := by
  unfold startJob
  split
  · cases recorded with
    | false => exact .of_eq rfl rfl (Nat.le_refl _) (Nat.le_refl _)
    | true =>
        simp only [if_true]
        refine Numbered.trans ?_ (Numbered.updateJob _ id fun _ => rfl)
        exact .of_eq rfl rfl (Nat.le_refl _) (Nat.le_refl _)
  · exact .refl s

theorem forgetJob_numbered (s : IngestState) (job : IngestionJob) : Numbered s (forgetJob s job) :=
  .of_eq rfl rfl (Nat.le_refl _) (Nat.le_refl _)

/-- The last UPDATE of a job, and its end in memory. -/
theorem settle_numbered (s : IngestState) (job : IngestionJob) (recorded : Bool) {f : IngestionJob → IngestionJob}
    (hid : ∀ row, (f row).id = row.id) : Numbered s
      (forgetJob (if recorded then s.updateJob job.id f else s) job) := by
  cases recorded with
  | false => exact forgetJob_numbered s job
  | true => exact (Numbered.updateJob s job.id hid).trans (forgetJob_numbered _ job)

theorem deadLetterJob_numbered (s : IngestState) (work : WorkEnv) (job : IngestionJob) (err : String) :
    Numbered s (deadLetterJob work s job err) := by
  unfold deadLetterJob
  simp only
  refine Numbered.trans ?_ (settle_numbered _ job work.recorded fun _ => rfl)
  refine ⟨Nat.le_refl _, Nat.le_succ _, fun row hrow => Or.inl ⟨row, hrow, rfl⟩, fun entry hentry => ?_⟩
  simp only at hentry
  split at hentry
  · rcases List.mem_append.mp hentry with hold | hnew
    · exact Or.inl ⟨entry, hold, rfl⟩
    · obtain rfl := List.mem_singleton.mp hnew
      exact Or.inr ⟨Nat.le_refl _, Nat.lt_succ_self _⟩
  · exact Or.inl ⟨entry, hentry, rfl⟩

theorem enqueueBatchItem_numbered (work : WorkEnv) (batch : Payload) (acc : IngestState × List String)
    (item : PayloadValue × Nat) : Numbered acc.1 (enqueueBatchItem sha256Hex work batch acc item).1 := by
  unfold enqueueBatchItem
  cases hitem : item.1 with
  | obj result =>
      simp only
      split
      · exact enqueueJob_numbered _ _ _ _ _
      · exact enqueueJob_numbered _ _ _ _ _
  | null => exact .refl _
  | bool _ => exact .refl _
  | number _ => exact .refl _
  | str _ => exact .refl _
  | arr _ => exact .refl _

theorem processBatchResultIngestion_numbered (s : IngestState) (work : WorkEnv) (job : IngestionJob) :
    Numbered s (processBatchResultIngestion sha256Hex work s job).1 := by
  unfold processBatchResultIngestion
  split
  · rename_i items _
    exact @List.foldlRecOn _ _ (fun acc : IngestState × List String => Numbered s acc.1) items.zipIdx _ _ (.refl s)
      fun acc hacc item _ => hacc.trans (enqueueBatchItem_numbered work job.payload acc item)
  · exact .refl s

theorem executeIngestionJob_numbered (s : IngestState) (work : WorkEnv) (job : IngestionJob) :
    Numbered s (executeIngestionJob sha256Hex work s job).1 := by
  have htables : ∀ tables, Numbered s { s with tables := tables } :=
    fun _ => .of_eq rfl rfl (Nat.le_refl _) (Nat.le_refl _)
  unfold executeIngestionJob
  cases job.jobType with
  | resultSubmission =>
      simp only [processResultIngestion]
      split
      · exact .refl s
      · exact htables _
  | batchResultUpload => exact processBatchResultIngestion_numbered s work job
  | accreditationSync => exact .refl s
  | offlineResultSync =>
      simp only [processOfflineSync]
      split
      · split
        · split
          · exact .refl s
          · exact htables _
        · split
          · exact .refl s
          · exact .refl s
      · exact .refl s
  | other name => exact .refl s

theorem workJob_numbered (s : IngestState) (work : WorkEnv) (id : Nat) :
    Numbered s (workJob sha256Hex work s id) := by
  unfold workJob
  split
  · exact .refl s
  · rename_i job _
    have hexecuted := @executeIngestionJob_numbered sha256Hex s work job
    simp only
    split
    · exact hexecuted.trans (settle_numbered _ job work.recorded fun _ => rfl)
    · split
      · exact hexecuted.trans (deadLetterJob_numbered _ work job _)
      · exact hexecuted.trans (.of_eq rfl rfl (Nat.le_refl _) (Nat.le_refl _))

theorem reprocessDLQ_numbered (s : IngestState) (id : Nat) (db : DbReply) (recorded : Bool) :
    Numbered s (reprocessDLQ sha256Hex s id db recorded) := by
  unfold reprocessDLQ
  split
  · exact .refl s
  · rename_i entry _
    have henqueued := @enqueueJob_numbered sha256Hex s entry.jobType entry.payload "" db
    simp only
    split
    · split
      · -- marking the entry keeps its id
        refine henqueued.trans ⟨Nat.le_refl _, Nat.le_refl _, fun job hjob => Or.inl ⟨job, hjob, rfl⟩, ?_⟩
        intro other hother
        rcases Rows.mem_update.mp hother with ⟨old, hold, -, rfl⟩ | ⟨hold, -⟩
        · exact Or.inl ⟨old, hold, rfl⟩
        · exact Or.inl ⟨other, hold, rfl⟩
      · exact henqueued
    · exact henqueued

theorem ingestStep_numbered (s : IngestState) (i : IngestInput) (h : i.isRestart = false) :
    Numbered s (ingestStep sha256Hex s i) := by
  cases i with
  | sync batch item db =>
      simp only [ingestStep, syncItem]
      split
      · exact .refl s
      · exact enqueueJob_numbered _ _ _ _ _
  | enqueue jobType payload key db => exact enqueueJob_numbered s jobType payload key db
  | start id recorded => exact startJob_numbered s id recorded
  | work id work => exact workJob_numbered s work id
  | reprocess id db recorded => exact reprocessDLQ_numbered s id db recorded
  | restart nextId reset recovered => cases h
  | other tables => exact .of_eq rfl rfl (Nat.le_refl _) (Nat.le_refl _)

end Operations

/-! ### Restarts -/

/-- Numbers start from one. -/
structure NumbersPositive (s : IngestState) : Prop where
  nextId : 1 ≤ s.nextId
  dlqNextId : 1 ≤ s.dlqNextId
  jobs : ∀ job ∈ s.jobs, 1 ≤ job.id
  letters : ∀ entry ∈ s.deadLetters, 1 ≤ entry.id

section Restarts

variable {s s' : IngestState}

theorem NumbersPositive.of_numbered (h : NumbersPositive s) (hnumbered : Numbered s s') : NumbersPositive s' := by
  refine ⟨h.nextId.trans hnumbered.nextId, h.dlqNextId.trans hnumbered.dlqNextId, fun job hjob => ?_,
    fun entry hentry => ?_⟩
  · rcases hnumbered.jobs job hjob with ⟨old, hold, hid⟩ | ⟨hle, -⟩
    · exact hid ▸ h.jobs old hold
    · exact h.nextId.trans hle
  · rcases hnumbered.letters entry hentry with ⟨old, hold, hid⟩ | ⟨hle, -⟩
    · exact hid ▸ h.letters old hold
    · exact h.dlqNextId.trans hle

theorem restart_job_ids (s : IngestState) (nextId : Nat) (reset recovered : Bool) :
    (restart s nextId reset recovered).jobs.map (·.id) = s.jobs.map (·.id) := by
  cases reset with
  | false => rfl
  | true =>
      simp only [restart, if_true, List.map_map]
      apply List.map_congr_left
      intro row _
      simp only [Function.comp]
      split <;> rfl

theorem forall_restart_jobs (nextId : Nat) (reset recovered : Bool) (p : Nat → Prop) :
    (∀ job ∈ (restart s nextId reset recovered).jobs, p job.id) ↔ ∀ job ∈ s.jobs, p job.id := by
  have hmap : ∀ jobs : List IngestionJob, (∀ job ∈ jobs, p job.id) ↔ ∀ id ∈ jobs.map (·.id), p id := by
    intro jobs
    exact List.forall_mem_map.symm
  rw [hmap, hmap, restart_job_ids]

theorem seededNextId_pos (jobs : List IngestionJob) : 1 ≤ seededNextId jobs := by
  unfold seededNextId
  split
  · split
    · exact Nat.le_add_left _ _
    · exact Nat.le_refl _
  · exact Nat.le_refl _

theorem jobNumber?_jobIdText (n : Nat) : jobNumber? (jobIdText n) =
      if n < 2 ^ 63 then some (n : Int) else none := by
  have hfront : "ING-".toList.isPrefixOf ("ING-".toList ++ padded 6 n) = true :=
    List.isPrefixOf_iff_prefix.mpr (List.prefix_append ..)
  rw [jobNumber?, toList_jobIdText, if_pos hfront, ← int64?_padded]
  rfl

/-- The new counter is past every id exactly if the largest text is that of the largest number. -/
theorem lt_seededNextId_iff {jobs : List IngestionJob} (hpos : ∀ job ∈ jobs, 1 ≤ job.id) :
    (∀ job ∈ jobs, job.id < seededNextId jobs) ↔ jobs = [] ∨ SeedReaches jobs := by
  unfold seededNextId maxJobId
  cases hmax : (jobs.map fun job => jobIdText job.id).max? with
  | none =>
      have hnil : jobs = [] := List.map_eq_nil_iff.mp (List.max?_eq_none_iff.mp hmax)
      simp [hnil]
  | some text =>
      obtain ⟨hmem, hle⟩ := List.max?_eq_some_iff.mp hmax
      obtain ⟨top, htop, rfl⟩ := List.mem_map.mp hmem
      have hne : jobs ≠ [] := List.ne_nil_of_mem htop
      have htexts : ∀ job ∈ jobs, jobIdText job.id ≤ jobIdText top.id :=
        fun job hjob => hle _ (List.mem_map.mpr ⟨job, hjob, rfl⟩)
      have htopPos := hpos top htop
      simp only [Option.bind_some, jobNumber?_jobIdText, hne, false_or]
      by_cases hfits : top.id < 2 ^ 63
      · have hone : (1 : Int) ≤ top.id := by exact_mod_cast htopPos
        simp only [hfits, if_true, hone, Int.toNat_natCast]
        constructor
        · intro h
          exact ⟨top, htop, hfits, fun job hjob => ⟨Nat.le_of_lt_succ (h job hjob), htexts job hjob⟩⟩
        · rintro ⟨best, hbest, -, hreach⟩ job hjob
          -- both have the largest text
          have htext : jobIdText best.id = jobIdText top.id := le_antisymm (htexts best hbest) (hreach top htop).2
          have hid := (hreach job hjob).1
          rw [jobIdText_inj htext] at hid
          exact Nat.lt_succ_of_le hid
      · simp only [hfits, if_false]
        constructor
        · intro h
          have hlt := h top htop
          omega
        · rintro ⟨best, hbest, hlt, hreach⟩
          have hid := (hreach top htop).1
          omega

/-- What the counter goes on from after a restart. -/
theorem restart_nextId (seeded reset recovered : Bool) :
    (lifeStep sha256Hex s (.restart seeded reset recovered)).nextId =
      if seeded then seededNextId s.jobs else 1 := rfl

theorem restart_fresh_iff (h : NumbersPositive s) (seeded reset recovered : Bool) :
    NewIdsFresh (lifeStep sha256Hex s (.restart seeded reset recovered)) ↔
      RestartFits s (.restart seeded reset recovered) := by
  rw [newIdsFresh_iff, restart_nextId, RestartFits, And.comm]
  refine and_congr ?_ ?_
  · -- the dead letters are numbered from one again
    constructor
    · intro hlt
      apply List.eq_nil_iff_forall_not_mem.mpr
      intro entry hentry
      have hzero : entry.id < 1 := hlt entry hentry
      have hpos := h.letters entry hentry
      omega
    · intro hnil entry hentry
      have hmem : entry ∈ s.deadLetters := hentry
      rw [hnil] at hmem
      cases hmem
  · cases seeded with
    | true =>
        simp only [if_true, true_and]
        rw [← lt_seededNextId_iff h.jobs]
        exact forall_restart_jobs _ reset recovered fun id => id < seededNextId s.jobs
    | false =>
        simp only [Bool.false_eq_true, if_false, false_and, or_false]
        refine (forall_restart_jobs _ reset recovered fun id => id < 1).trans ?_
        constructor
        · intro hlt
          apply List.eq_nil_iff_forall_not_mem.mpr
          intro job hjob
          have hzero := hlt job hjob
          have hpos := h.jobs job hjob
          omega
        · intro hnil job hjob
          rw [hnil] at hjob
          cases hjob

theorem lifeStep_positive (s : IngestState) (i : LifeInput) (h : NumbersPositive s) :
    NumbersPositive (lifeStep sha256Hex s i) := by
  cases i with
  | act i serving => exact h.of_numbered (ingestStep_numbered s i serving)
  | restart seeded reset recovered =>
      refine ⟨?_, Nat.le_refl _, ?_, h.letters⟩
      · rw [restart_nextId]
        cases seeded with
        | false => exact Nat.le_refl _
        | true => exact seededNextId_pos s.jobs
      · exact (forall_restart_jobs _ reset recovered fun id => 1 ≤ id).mpr h.jobs

theorem lifeStep_fresh_iff (s : IngestState) (i : LifeInput) (h : NumbersPositive s) (hfresh : NewIdsFresh s) :
    NewIdsFresh (lifeStep sha256Hex s i) ↔ RestartFits s i := by
  cases i with
  | act i serving => exact iff_of_true ((ingestStep_numbered s i serving).fresh hfresh) trivial
  | restart seeded reset recovered => exact restart_fresh_iff h seeded reset recovered

end Restarts

/-! ### Nothing is lost -/

/-- An INSERT under a new id is not refused. -/
theorem NewIdsFresh.insertsLand {s : IngestState} (h : NewIdsFresh s) : InsertsLand s := by
  rw [newIdsFresh_iff] at h
  refine ⟨fun jobType payload key db hkey hdb => ?_, fun work job err hlettered => ?_⟩
  · have hunknown : ({ s with nextId := s.nextId + 1 } : IngestState).jobOf? key = none := by
      apply List.find?_eq_none.mpr
      intro row hrow heq
      exact hkey ⟨row, hrow, beq_iff_eq.mp heq⟩
    have hfree : (s.jobs.any fun row => row.id == s.nextId) = false := by
      apply List.any_eq_false.mpr
      intro row hrow heq
      have hlt := h.1 row hrow
      rw [beq_iff_eq.mp heq] at hlt
      exact Nat.lt_irrefl _ hlt
    have hmem : ∀ job : IngestionJob, job ∈ s.jobs ++ [job] :=
      fun job => List.mem_append_right _ (List.mem_singleton_self job)
    unfold persistJob
    simp only [hdb, if_false, newJob, hunknown, hfree, Bool.false_eq_true]
    split
    · exact hmem _
    · exact hmem _
  · have hfree : (s.deadLetters.any fun other => other.id == s.dlqNextId) = false := by
      apply List.any_eq_false.mpr
      intro entry hentry heq
      have hlt := h.2 entry hentry
      rw [beq_iff_eq.mp heq] at hlt
      exact Nat.lt_irrefl _ hlt
    have hkept : ∀ (recorded : Bool) (t : IngestState) (f : IngestionJob → IngestionJob),
        (forgetJob (if recorded then t.updateJob job.id f else t) job).deadLetters = t.deadLetters := by
      intro recorded t f
      cases recorded <;> rfl
    unfold deadLetterJob
    simp only [hkept, hlettered, hfree, Bool.not_false, Bool.and_self, if_true]
    exact List.mem_append_right _ (List.mem_singleton_self _)

/-- Along every run the ids still to be given out are new, and no INSERT is lost to one that is not, exactly
if the restarts leave nothing behind that the counters do not know of. -/
theorem newIdsFresh_iff_restartFits (tables : Tables) (inputs : List LifeInput) :
    (∀ s ∈ Runs.visited (lifeStep sha256Hex) (ingestStart tables) inputs, NewIdsFresh s ∧ InsertsLand s) ↔
      Runs.AllSteps (lifeStep sha256Hex) RestartFits (ingestStart tables) inputs := by
  have hstart : NumbersPositive (ingestStart tables) :=
    ⟨Nat.le_refl _, Nat.le_refl _, List.forall_mem_nil _, List.forall_mem_nil _⟩
  have hfresh : NewIdsFresh (ingestStart tables) :=
    newIdsFresh_iff.mpr ⟨List.forall_mem_nil _, List.forall_mem_nil _⟩
  rw [← Runs.forall_visited_iff lifeStep_positive lifeStep_fresh_iff hstart hfresh inputs]
  exact forall₂_congr fun s _ => and_iff_left_of_imp NewIdsFresh.insertsLand

section Taken

/-- A job that no worker gets through. -/
def givenUpJob (key : String) (id : Nat) : List LifeInput :=
  .act (.enqueue .resultSubmission [] key .answered) rfl :: .act (.start id true) rfl ::
    List.replicate 4 (.act (.work id failedAttempt) rfl)

/-- A job is given up, and the process replaced. -/
def letteredRestart : List LifeInput := givenUpJob "k1" 1 ++ [.restart true true true]

/-- A request that does not reach the database, which uses an id up. -/
def missedRequest : LifeInput := .act (.enqueue .resultSubmission [] "k" .unreachable) rfl

/-- The jobs 999999 and 1000000, and a restart. -/
def sevenDigits : List LifeInput :=
  List.replicate 999998 missedRequest ++ [.act (.enqueue .resultSubmission [] "k1" .answered) rfl,
    .act (.enqueue .resultSubmission [] "k2" .answered) rfl, .restart true true true]

theorem final_missedRequests (tables : Tables) (count first : Nat) :
    Runs.final (lifeStep id) { ingestStart tables with nextId := first } (List.replicate count missedRequest) =
      { ingestStart tables with nextId := first + count } := by
  induction count generalizing first with
  | zero => rfl
  | succ count ih =>
      rw [List.replicate_succ, Runs.final_cons]
      have hstep : lifeStep id { ingestStart tables with nextId := first } missedRequest =
          { ingestStart tables with nextId := first + 1 } := rfl
      rw [hstep, ih, Nat.add_right_comm]
      rfl

theorem not_newIdsFresh {s : IngestState}
    (h : (s.jobs.any (fun job => decide (s.nextId ≤ job.id)) || s.deadLetters.any fun entry => decide
      (s.dlqNextId ≤ entry.id)) = true) :
    ¬NewIdsFresh s := by
  rw [newIdsFresh_iff]
  rintro ⟨hjobs, hletters⟩
  rcases Bool.or_eq_true_iff.mp h with h | h
  · obtain ⟨job, hjob, hle⟩ := List.any_eq_true.mp h
    exact Nat.not_lt.mpr (of_decide_eq_true hle) (hjobs job hjob)
  · obtain ⟨entry, hentry, hle⟩ := List.any_eq_true.mp h
    exact Nat.not_lt.mpr (of_decide_eq_true hle) (hletters entry hentry)

/-- The dead letter of the next job is refused, and so is the job after number 1000000. -/
theorem ids_taken_after_restart :
    (¬∀ s ∈ Runs.visited (lifeStep id) (ingestStart Tables.empty) (letteredRestart ++ givenUpJob "k2" 2),
      NewIdsFresh s ∧ InsertsLand s) ∧
      (Runs.final (lifeStep id) (ingestStart Tables.empty)
        (letteredRestart ++ givenUpJob "k2" 2)).deadLetters.length = 1 ∧
      ¬∀ s ∈ Runs.visited (lifeStep id) (ingestStart Tables.empty) sevenDigits, NewIdsFresh s ∧ InsertsLand s := by
  refine ⟨?_, by decide +kernel, ?_⟩
  · intro h
    refine not_newIdsFresh ?_ (h _ (Runs.final_mem_visited_append _ letteredRestart _)).1
    decide +kernel
  · intro h
    have hmissed : Runs.final (lifeStep id) (ingestStart Tables.empty) (List.replicate 999998 missedRequest) =
        { ingestStart Tables.empty with nextId := 999999 } := final_missedRequests Tables.empty 999998 1
    have hfresh := (h _ (Runs.final_mem_visited _ _)).1
    rw [sevenDigits, Runs.final_append, hmissed] at hfresh
    refine not_newIdsFresh ?_ hfresh
    decide +kernel

end Taken

end Inec
