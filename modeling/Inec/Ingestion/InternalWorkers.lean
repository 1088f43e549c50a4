import Inec.Ingestion.InternalQueue
import Mathlib.Data.List.Perm.Basic

/-!
# Workers of the internal ingestion service

That a worker writes under the id of its own job, and that it finds the job in the queue when it comes back to
it, holds whatever the workers do: `Sound`. That it reads its own job through its pointer depends on the others,
and every step that moves nothing into the slot keeps it: `Seen`.
-/

namespace Inec.InternalQueue

open GoSlice

variable {s : State}

/-! ### The queue -/

def State.ids (s : State) : List String := s.jobs.map Job.id

theorem findIdx?_jobs (jobID : String) : s.jobs.findIdx? (·.id == jobID) = s.ids.findIdx? (· == jobID) := by
  rw [State.ids, List.findIdx?_map]
  rfl

theorem State.queued?_eq_some {jobID : String} {i : Nat} {job : Job} (h : s.queued? jobID = some (i, job)) :
    s.jobs[i]? = some job ∧ job.id = jobID := by
  obtain ⟨k, hk, hfound⟩ := Option.bind_eq_some_iff.mp h
  obtain ⟨job', hjob, heq⟩ := Option.map_eq_some_iff.mp hfound
  cases heq
  obtain ⟨hlt, hid, _⟩ := List.findIdx?_eq_some_iff_getElem.mp hk
  rw [List.getElem?_eq_getElem hlt] at hjob
  cases hjob
  exact ⟨List.getElem?_eq_getElem hlt, beq_iff_eq.mp hid⟩

theorem State.exists_queued? {jobID : String} (h : jobID ∈ s.ids) : ∃ i job, s.queued? jobID = some (i, job) := by
  cases hfound : s.jobs.findIdx? (·.id == jobID) with
  | none =>
      obtain ⟨job, hjob, hid⟩ := List.mem_map.mp h
      have hno := List.findIdx?_eq_none_iff.mp hfound job hjob
      rw [hid, beq_self_eq_true] at hno
      cases hno
  | some i =>
      obtain ⟨hlt, _⟩ := List.findIdx?_eq_some_iff_getElem.mp hfound
      refine ⟨i, s.jobs[i], ?_⟩
      rw [State.queued?, hfound]
      show ((s.jobs[i]?).map fun job => (i, job)) = _
      rw [List.getElem?_eq_getElem hlt]
      rfl

section SetJob

variable (hs : s.mem.Holds s.queue) (i : Nat) {f : Job → Job}

include hs

theorem holds_setJob : (s.setJob i f).mem.Holds (s.setJob i f).queue := holds_modify hs i f

theorem jobs_setJob : (s.setJob i f).jobs = s.jobs.modify i f := contents_modify hs i f

variable (hid : ∀ job, (f job).id = job.id)

include hid

theorem ids_setJob : (s.setJob i f).ids = s.ids := by
  rw [State.ids, jobs_setJob hs i, State.ids]
  apply List.ext_getElem?
  intro k
  rw [List.getElem?_map, List.getElem?_modify, List.getElem?_map]
  by_cases hk : i = k
  · simp [hk, Function.comp_def, hid]
  · simp [hk]

theorem queued?_setJob (jobID : String) :
    ((s.setJob i f).queued? jobID).map Prod.fst = (s.queued? jobID).map Prod.fst := by
  have hindex : (s.setJob i f).jobs.findIdx? (·.id == jobID) = s.jobs.findIdx? (·.id == jobID) := by
    rw [findIdx?_jobs, findIdx?_jobs, ids_setJob hs i hid]
  rw [State.queued?, State.queued?, hindex, jobs_setJob hs i]
  cases s.jobs.findIdx? (·.id == jobID) with
  | none => rfl
  | some k =>
      show (((s.jobs.modify i f)[k]?).map _).map _ = ((s.jobs[k]?).map _).map _
      rw [List.getElem?_modify]
      cases s.jobs[k]? <;> rfl

omit hid in
theorem content_setJob (hcontent : ∀ job, (f job).content = job.content) (p : Pointer) :
    ((s.setJob i f).mem.load p).map Job.content = (s.mem.load p).map Job.content :=
  load_modify hs i hcontent p

end SetJob

section RemoveJob

variable (hs : s.mem.Holds s.queue) (jobID : String)

theorem State.removeJob_none (h : s.queued? jobID = none) : s.removeJob jobID = s := by
  rw [State.removeJob, h]

theorem lt_len_of_queued? (hs : s.mem.Holds s.queue) {i : Nat} {job : Job} (h : s.queued? jobID = some (i, job)) :
    i < s.queue.len := by
  obtain ⟨hjob, _⟩ := State.queued?_eq_some h
  have hlt : i < s.jobs.length := (List.getElem?_eq_some_iff.mp hjob).1
  rwa [State.jobs, hs.length_contents] at hlt

include hs

theorem holds_removeJob : (s.removeJob jobID).mem.Holds (s.removeJob jobID).queue := by
  cases hentry : s.queued? jobID with
  | none => rwa [State.removeJob_none jobID hentry]
  | some e =>
      rw [State.removeJob, hentry]
      exact holds_removeAt (lt_len_of_queued? jobID hs hentry) hs

/-- One entry with the id goes. -/
theorem ids_removeJob (h : jobID ∈ s.ids) : s.ids.Perm (jobID :: (s.removeJob jobID).ids) := by
  obtain ⟨i, job, hentry⟩ := State.exists_queued? h
  obtain ⟨hjob, hid⟩ := State.queued?_eq_some hentry
  obtain ⟨hlt, hget⟩ := List.getElem?_eq_some_iff.mp hjob
  have hjobs : (s.removeJob jobID).jobs = s.jobs.eraseIdx i := by
    rw [State.removeJob, hentry]
    exact contents_removeAt (lt_len_of_queued? jobID hs hentry) hs
  rw [State.ids, State.ids, hjobs, ← hid, ← List.map_cons, ← hget]
  exact (List.getElem_cons_eraseIdx_perm hlt).symm.map Job.id

end RemoveJob

/-! ### What a worker reads -/

theorem Worker.same_of_content {w : Worker} {old new : Option Job}
    (h : new.map Job.content = old.map Job.content) : w.Same old new := by
  have hpayload : new.map Job.payload = old.map Job.payload := by
    have hsnd := congrArg (Option.map Prod.snd) h
    rw [Option.map_map, Option.map_map] at hsnd
    exact hsnd
  unfold Worker.Same
  split
  · exact h
  · exact hpayload
  · trivial

theorem Worker.Same.refl (w : Worker) (old : Option Job) : w.Same old old := Worker.same_of_content rfl

theorem Worker.Same.trans {w : Worker} {a b c : Option Job} (hab : w.Same a b) (hbc : w.Same b c) : w.Same a c := by
  unfold Worker.Same at *
  split
  all_goals simp_all

/-- The removal shows a worker the slot behind its own, or nothing new. -/
theorem same_removeJob (hs : s.mem.Holds s.queue) (jobID : String) {w : Worker}
    (h : ∀ n ∈ (s.queued? jobID).map Prod.fst, w.pointer.array = s.queue.array → n ≤ w.pointer.index →
      w.pointer.index + 1 < s.queue.len →
        w.Same (s.mem.load w.pointer) (s.mem.load ⟨w.pointer.array, w.pointer.index + 1⟩)) :
    w.Same (s.mem.load w.pointer) ((s.removeJob jobID).mem.load w.pointer) := by
  cases hentry : s.queued? jobID with
  | none =>
      rw [State.removeJob_none jobID hentry]
      exact .refl w _
  | some e =>
      have hlt : e.1 < s.queue.len := lt_len_of_queued? jobID hs hentry
      rw [State.removeJob, hentry]
      show w.Same _ ((s.mem.removeAt s.queue e.1).1.load w.pointer)
      by_cases hmoved : w.pointer.array = s.queue.array ∧ e.1 ≤ w.pointer.index ∧ w.pointer.index + 1 < s.queue.len
      · obtain ⟨harray, hfrom, hbelow⟩ := hmoved
        rw [load_removeAt_shifted hs hlt harray hfrom hbelow]
        exact h e.1 (by rw [hentry]; rfl) harray hfrom hbelow
      · rw [load_removeAt hs hlt (by omega)]
        exact .refl w _

/-- The same behind an assignment to fields that no processor gets. -/
theorem same_setJob_removeJob (hs : s.mem.Holds s.queue) (i : Nat) {f : Job → Job}
    (hid : ∀ job, (f job).id = job.id) (hcontent : ∀ job, (f job).content = job.content)
    (jobID : String) {w : Worker} (h : ∀ n ∈ (s.queued? jobID).map Prod.fst, w.pointer.array = s.queue.array →
      n ≤ w.pointer.index → w.pointer.index + 1 < s.queue.len →
        w.Same (s.mem.load w.pointer) (s.mem.load ⟨w.pointer.array, w.pointer.index + 1⟩)) :
    w.Same (s.mem.load w.pointer) (((s.setJob i f).removeJob jobID).mem.load w.pointer) := by
  have hset : ∀ p, ((s.setJob i f).mem.load p).map Job.content = (s.mem.load p).map Job.content :=
    content_setJob hs i hcontent
  refine (Worker.same_of_content (hset w.pointer)).trans (same_removeJob (holds_setJob hs i) jobID ?_)
  intro n hn harray hfrom hbelow
  rw [queued?_setJob hs i hid] at hn
  have hnext := h n hn harray hfrom hbelow
  exact ((Worker.same_of_content (hset _).symm).trans hnext).trans (Worker.same_of_content (hset _))

/-! ### Soundness -/

/-- Has its job in the queue. -/
def Worker.queued (w : Worker) : Bool :=
  match w.stage with
  | .ending _ => false
  | _ => true

/-- The goroutines that will come back to the queue, by their jobs. -/
def State.owed (s : State) : List String := s.waiting ++ (s.workers.filter Worker.queued).map Worker.jobID

def State.Recorded (s : State) (r : Returned) : Prop :=
  (∃ u ∈ s.updates, u.worker = r.worker ∧ u.job = r.job ∧ u.outcome.Reports r.err) ∨
    ∃ w ∈ s.workers, w.key = r.worker ∧ w.job = r.job ∧ ∃ outcome, w.stage = .ending outcome ∧ outcome.Reports r.err

/-- The workers know their jobs, and find them in the queue. -/
structure State.Sound (s : State) : Prop where
  holds : s.mem.Holds s.queue
  keys : (s.workers.map Worker.key).Nodup
  fresh : ∀ w ∈ s.workers, w.key < s.nextKey
  own : ∀ w ∈ s.workers, w.job.id = w.jobID
  owed : ∀ jobID, s.owed.count jobID ≤ s.ids.count jobID
  updates : ∀ u ∈ s.updates, u.id = u.job.id

theorem State.mem_of_worker? {key : Nat} {w : Worker} (h : s.worker? key = some w) : w ∈ s.workers :=
  (Rows.find?_key h).1

section RemoveJobFields

variable (s) (jobID : String)

@[simp] theorem removeJob_waiting : (s.removeJob jobID).waiting = s.waiting := by
  rw [State.removeJob]
  split <;> rfl

@[simp] theorem removeJob_workers : (s.removeJob jobID).workers = s.workers := by
  rw [State.removeJob]
  split <;> rfl

@[simp] theorem removeJob_nextKey : (s.removeJob jobID).nextKey = s.nextKey := by
  rw [State.removeJob]
  split <;> rfl

@[simp] theorem removeJob_calls : (s.removeJob jobID).calls = s.calls := by
  rw [State.removeJob]
  split <;> rfl

@[simp] theorem removeJob_returned : (s.removeJob jobID).returned = s.returned := by
  rw [State.removeJob]
  split <;> rfl

@[simp] theorem removeJob_updates : (s.removeJob jobID).updates = s.updates := by
  rw [State.removeJob]
  split <;> rfl

end RemoveJobFields

section Workers

variable {w : Worker} (hkeys : (s.workers.map Worker.key).Nodup) (hw : w ∈ s.workers)

include hkeys hw

theorem workers_perm : s.workers.Perm (w :: (s.leave w).workers) := by
  have hperm := Rows.update_perm hkeys hw id
  rwa [Rows.update_id] at hperm

theorem setStage_perm (stage : Stage) :
    (s.setStage w stage).workers.Perm ({ w with stage } :: (s.leave w).workers) :=
  Rows.update_perm hkeys hw fun w => { w with stage }

theorem owed_leave : s.owed.Perm ((if w.queued then [w.jobID] else []) ++ (s.leave w).owed) := by
  have hworkers := ((workers_perm hkeys hw).filter Worker.queued).map Worker.jobID
  refine (hworkers.append_left s.waiting).trans ?_
  rw [List.filter_cons]
  split
  · exact List.perm_middle
  · exact .refl _

theorem owed_setStage (stage : Stage) :
    (s.setStage w stage).owed.Perm
      ((if Worker.queued { w with stage } then [w.jobID] else []) ++ (s.leave w).owed) := by
  have hworkers := ((setStage_perm hkeys hw stage).filter Worker.queued).map Worker.jobID
  refine (hworkers.append_left s.waiting).trans ?_
  rw [List.filter_cons]
  split
  · exact List.perm_middle
  · exact .refl _

end Workers

theorem State.Sound.mem_ids (h : s.Sound) {w : Worker} (hw : w ∈ s.workers) (hq : w.queued = true) :
    w.jobID ∈ s.ids := by
  have howed : w.jobID ∈ s.owed :=
    List.mem_append_right _ (List.mem_map_of_mem (List.mem_filter.mpr ⟨hw, hq⟩))
  have hcount := h.owed w.jobID
  have hpos := List.count_pos_iff.mpr howed
  exact List.count_pos_iff.mp (by omega)

/-- What is recorded stays so while the updates stay and a worker with an outcome does not go without writing it. -/
theorem State.Recorded.mono {t : State} {r : Returned} (h : s.Recorded r)
    (hupdates : ∀ u ∈ s.updates, u ∈ t.updates) (hending : ∀ w ∈ s.workers, ∀ outcome, w.stage = .ending outcome →
      w ∈ t.workers ∨ ∃ u ∈ t.updates, u.worker = w.key ∧ u.job = w.job ∧ u.outcome = outcome) : t.Recorded r := by
  rcases h with ⟨u, hu, hreports⟩ | ⟨w, hw, hkey, hjob, outcome, hstage, hreports⟩
  · exact .inl ⟨u, hupdates u hu, hreports⟩
  · rcases hending w hw outcome hstage with hstays | ⟨u, hu, hworker, hujob, hout⟩
    · exact .inr ⟨w, hstays, hkey, hjob, outcome, hstage, hreports⟩
    · exact .inl ⟨u, hu, hworker.trans hkey, hujob.trans hjob, hout ▸ hreports⟩

theorem mem_leave {w x : Worker} (hx : x ∈ s.workers) (hkey : x.key ≠ w.key) : x ∈ (s.leave w).workers :=
  List.mem_filter.mpr ⟨hx, bne_iff_ne.mpr hkey⟩

theorem mem_of_mem_leave {w x : Worker} (hx : x ∈ (s.leave w).workers) : x ∈ s.workers := (List.mem_filter.mp hx).1

theorem mem_setStage {w x : Worker} {stage : Stage} (hx : x ∈ s.workers) (hkey : x.key ≠ w.key) :
    x ∈ (s.setStage w stage).workers := Rows.mem_update.mpr (.inr ⟨hx, hkey⟩)

theorem mem_setStage_self {w : Worker} {stage : Stage} (hw : w ∈ s.workers) :
    { w with stage } ∈ (s.setStage w stage).workers := Rows.mem_update.mpr (.inl ⟨w, hw, rfl, rfl⟩)

/-- A worker in another stage than this one is another worker. -/
theorem State.Sound.eq_of_key (h : s.Sound) {w x : Worker} (hw : w ∈ s.workers) (hx : x ∈ s.workers)
    (hkey : x.key = w.key) : x = w := Rows.eq_of_key_eq h.keys hx hw hkey

/-- A worker that changes its stage is the one it was in all else. -/
theorem exists_of_mem_setStage {w x : Worker} {stage : Stage} (hx : x ∈ (s.setStage w stage).workers) :
    (∃ x₀ ∈ s.workers, x₀.key = w.key ∧ x = { x₀ with stage }) ∨ (x ∈ s.workers ∧ x.key ≠ w.key) :=
  Rows.mem_update.mp hx

theorem keys_setStage (w : Worker) (stage : Stage) :
    (s.setStage w stage).workers.map Worker.key = s.workers.map Worker.key :=
  Rows.map_update fun _ _ _ => rfl

theorem State.Sound.setStage (h : s.Sound) {w : Worker} (hw : w ∈ s.workers) (hq : w.queued = true) {stage : Stage}
    (hstage : Worker.queued { w with stage } = true) : (s.setStage w stage).Sound where
  holds := h.holds
  keys := by
    rw [keys_setStage]
    exact h.keys
  fresh := by
    intro x hx
    rcases exists_of_mem_setStage hx with ⟨x₀, hx₀, _, rfl⟩ | ⟨hx, _⟩
    · exact h.fresh x₀ hx₀
    · exact h.fresh x hx
  own := by
    intro x hx
    rcases exists_of_mem_setStage hx with ⟨x₀, hx₀, _, rfl⟩ | ⟨hx, _⟩
    · exact h.own x₀ hx₀
    · exact h.own x hx
  owed := by
    intro jobID
    have hbefore := (owed_leave h.keys hw).count_eq jobID
    have hafter := (owed_setStage h.keys hw stage).count_eq jobID
    rw [hq] at hbefore
    rw [hstage, ← hbefore] at hafter
    rw [hafter]
    exact h.owed jobID
  updates := h.updates

theorem State.Sound.enqueue (h : s.Sound) (grow : Nat → Nat) (job : Job) : (s.enqueue grow job).Sound where
  holds := holds_append grow h.holds job
  keys := h.keys
  fresh := h.fresh
  own := h.own
  owed := by
    intro jobID
    have hids : (s.enqueue grow job).ids = s.ids ++ [job.id] := by
      show (Memory.contents (s.mem.append grow s.queue job).1 (s.mem.append grow s.queue job).2).map Job.id = _
      rw [contents_append grow h.holds, List.map_append]
      rfl
    have howed : ((s.enqueue grow job).owed).Perm (s.owed ++ [job.id]) := by
      show ((s.waiting ++ [job.id]) ++ _).Perm ((s.waiting ++ _) ++ [job.id])
      rw [List.append_assoc, List.append_assoc]
      exact List.perm_append_comm.append_left _
    rw [howed.count_eq, hids, List.count_append, List.count_append]
    exact Nat.add_le_add_right (h.owed jobID) _
  updates := h.updates

theorem State.Sound.mem_ids_of_waiting (h : s.Sound) {jobID : String} (hwaiting : jobID ∈ s.waiting) :
    jobID ∈ s.ids := by
  have howed : jobID ∈ s.owed := List.mem_append_left _ hwaiting
  have hpos := List.count_pos_iff.mpr howed
  exact List.count_pos_iff.mp (Nat.lt_of_lt_of_le hpos (h.owed jobID))

theorem owed_pick {jobID : String} (hwaiting : jobID ∈ s.waiting) (i : Nat) (job : Job) :
    s.owed.Perm (s.waiting.erase jobID ++
      ((s.workers ++ [s.newWorker jobID i job]).filter Worker.queued).map Worker.jobID) := by
  rw [List.filter_append, List.map_append, ← List.append_assoc]
  refine ((List.perm_cons_erase hwaiting).append_right _).trans ?_
  exact (List.perm_append_singleton jobID _).symm

theorem State.Sound.pick (h : s.Sound) {jobID : String} (hwaiting : jobID ∈ s.waiting) : (s.pick jobID).Sound := by
  obtain ⟨i, job, hentry⟩ := State.exists_queued? (h.mem_ids_of_waiting hwaiting)
  have hnew : ∀ w ∈ s.workers ++ [s.newWorker jobID i job], w ∈ s.workers ∨ w = s.newWorker jobID i job := by
    intro w hw
    rw [List.mem_append, List.mem_singleton] at hw
    exact hw
  rw [State.pick, hentry]
  exact {
    holds := holds_setJob h.holds i
    keys := by
      apply Rows.nodup_map_append_singleton h.keys
      intro hold
      obtain ⟨w, hw, hkey⟩ := List.mem_map.mp hold
      exact Nat.ne_of_lt (h.fresh w hw) hkey
    fresh := by
      intro w hw
      rcases hnew w hw with hold | rfl
      · exact Nat.lt_succ_of_lt (h.fresh w hold)
      · exact Nat.lt_succ_self _
    own := by
      intro w hw
      rcases hnew w hw with hold | rfl
      · exact h.own w hold
      · exact (State.queued?_eq_some hentry).2
    owed := by
      intro id
      have hids := congrArg (List.count id) (@ids_setJob s h.holds i (Job.setStatus .inProgress) fun _ => rfl)
      have hcount := h.owed id
      rw [(owed_pick hwaiting i job).count_eq] at hcount
      exact Nat.le_trans hcount (Nat.le_of_eq hids.symm)
    updates := h.updates }

/-- A job that failed is written, and either leaves the queue or gets another goroutine. -/
structure Retried (s t : State) (w : Worker) (err : String) : Prop where
  holds : t.mem.Holds t.queue
  workers : t.workers = (s.leave w).workers
  nextKey : t.nextKey = s.nextKey
  returned : t.returned = s.returned
  calls : t.calls = s.calls
  updates : ∃ outcome : Outcome, outcome.Reports (some err) ∧
    t.updates = s.updates ++ [⟨w.key, w.job, w.jobID, outcome⟩]
  queue : (t.waiting = s.waiting ∧ s.ids.Perm (w.jobID :: t.ids)) ∨
    (t.waiting = s.waiting ++ [w.jobID] ∧ t.ids = s.ids)

theorem State.Sound.retried (h : s.Sound) {w : Worker} (hmem : w.jobID ∈ s.ids) (err : String) :
    Retried s (s.retry w err) w err := by
  obtain ⟨i, job, hentry⟩ := State.exists_queued? hmem
  have hset : (s.setJob i (Job.giveUp err)).mem.Holds (s.setJob i (Job.giveUp err)).queue := holds_setJob h.holds i
  have hids : (s.setJob i (Job.giveUp err)).ids = s.ids := ids_setJob h.holds i fun _ => rfl
  rw [State.retry, hentry]
  show Retried s (if job.maxRetries ≤ job.retries + 1 then _ else _) w err
  split
  · exact {
      holds := holds_removeJob hset w.jobID
      workers := congrArg (List.filter fun x : Worker => x.key != w.key) (removeJob_workers _ _)
      nextKey := removeJob_nextKey _ _
      returned := removeJob_returned _ _
      calls := removeJob_calls _ _
      updates := ⟨.deadLetter err (job.retries + 1), rfl, congrArg (· ++ _) (removeJob_updates _ _)⟩
      queue := by
        refine .inl ⟨removeJob_waiting _ _, ?_⟩
        have hperm := ids_removeJob hset w.jobID (hids ▸ hmem)
        rw [hids] at hperm
        exact hperm }
  · exact {
      holds := holds_setJob h.holds i
      workers := rfl
      nextKey := rfl
      returned := rfl
      calls := rfl
      updates := ⟨.pending (job.retries + 1), trivial, rfl⟩
      queue := .inr ⟨rfl, ids_setJob h.holds i fun _ => rfl⟩ }

/-- A job that is done leaves the queue, and its worker the lock. -/
structure Concluded (s t : State) (w : Worker) (outcome : Outcome) : Prop where
  holds : t.mem.Holds t.queue
  workers : t.workers = (s.setStage w (.ending outcome)).workers
  nextKey : t.nextKey = s.nextKey
  returned : t.returned = s.returned
  calls : t.calls = s.calls
  updates : t.updates = s.updates
  waiting : t.waiting = s.waiting
  ids : s.ids.Perm (w.jobID :: t.ids)

theorem State.Sound.concluded (h : s.Sound) {w : Worker} (hmem : w.jobID ∈ s.ids) {f : Job → Job}
    (hid : ∀ job, (f job).id = job.id) (outcome : Outcome) : Concluded s (s.conclude w f outcome) w outcome := by
  obtain ⟨i, job, hentry⟩ := State.exists_queued? hmem
  have hset : (s.setJob i f).mem.Holds (s.setJob i f).queue := holds_setJob h.holds i
  have hids : (s.setJob i f).ids = s.ids := ids_setJob h.holds i hid
  have hconclude : s.conclude w f outcome = ((s.setJob i f).removeJob w.jobID).setStage w (.ending outcome) := by
    rw [State.conclude, hentry]
  rw [hconclude]
  exact {
    holds := holds_removeJob hset w.jobID
    workers := congrArg (Rows.update Worker.key w.key _) (removeJob_workers _ _)
    nextKey := removeJob_nextKey _ _
    returned := removeJob_returned _ _
    calls := removeJob_calls _ _
    updates := removeJob_updates _ _
    waiting := removeJob_waiting _ _
    ids := by
      have hperm := ids_removeJob hset w.jobID (hids ▸ hmem)
      rw [hids] at hperm
      exact hperm }

theorem State.Sound.retry (h : s.Sound) {w : Worker} (hw : w ∈ s.workers) (hq : w.queued = true) (err : String) :
    (s.retry w err).Sound := by
  have hretried := h.retried (h.mem_ids hw hq) err
  have hkeep : ∀ x ∈ (s.retry w err).workers, x ∈ s.workers := by
    intro x hx
    rw [hretried.workers] at hx
    exact mem_of_mem_leave hx
  exact {
    holds := hretried.holds
    keys := by
      rw [hretried.workers]
      exact (List.filter_sublist.map Worker.key).nodup h.keys
    fresh := fun x hx => hretried.nextKey ▸ h.fresh x (hkeep x hx)
    own := fun x hx => h.own x (hkeep x hx)
    owed := by
      intro jobID
      have hbefore := (owed_leave h.keys hw).count_eq jobID
      rw [if_pos hq, List.count_append] at hbefore
      have hcount := h.owed jobID
      have howed : (s.retry w err).owed.count jobID =
          (s.retry w err).waiting.count jobID + (((s.leave w).workers.filter Worker.queued).map Worker.jobID).count
            jobID := by
        rw [State.owed, hretried.workers, List.count_append]
      have hleft : (s.leave w).owed.count jobID =
          s.waiting.count jobID + (((s.leave w).workers.filter Worker.queued).map Worker.jobID).count jobID :=
        List.count_append
      rcases hretried.queue with ⟨hwaiting, hids⟩ | ⟨hwaiting, hids⟩
      · have hperm := hids.count_eq jobID
        rw [hwaiting] at howed
        rw [List.count_cons] at hperm
        rw [List.count_singleton] at hbefore
        omega
      · rw [hwaiting, List.count_append] at howed
        rw [hids]
        omega
    updates := by
      obtain ⟨outcome, _, hupdates⟩ := hretried.updates
      intro u hu
      rw [hupdates, List.mem_append, List.mem_singleton] at hu
      rcases hu with hold | rfl
      · exact h.updates u hold
      · exact (h.own w hw).symm }

theorem State.Sound.conclude (h : s.Sound) {w : Worker} (hw : w ∈ s.workers) (hq : w.queued = true) {f : Job → Job}
    (hid : ∀ job, (f job).id = job.id) (outcome : Outcome) : (s.conclude w f outcome).Sound := by
  have hconcluded := h.concluded (h.mem_ids hw hq) hid outcome
  exact {
    holds := hconcluded.holds
    keys := by
      rw [hconcluded.workers, keys_setStage]
      exact h.keys
    fresh := by
      intro x hx
      rw [hconcluded.workers] at hx
      rw [hconcluded.nextKey]
      rcases exists_of_mem_setStage hx with ⟨x₀, hx₀, _, rfl⟩ | ⟨hx, _⟩
      · exact h.fresh x₀ hx₀
      · exact h.fresh x hx
    own := by
      intro x hx
      rw [hconcluded.workers] at hx
      rcases exists_of_mem_setStage hx with ⟨x₀, hx₀, _, rfl⟩ | ⟨hx, _⟩
      · exact h.own x₀ hx₀
      · exact h.own x hx
    owed := by
      intro jobID
      have hbefore := (owed_leave h.keys hw).count_eq jobID
      have hafter := (owed_setStage h.keys hw (.ending outcome)).count_eq jobID
      have howed : (s.conclude w f outcome).owed = (s.setStage w (.ending outcome)).owed := by
        rw [State.owed, hconcluded.workers, hconcluded.waiting]
        rfl
      have hperm := hconcluded.ids.count_eq jobID
      have hcount := h.owed jobID
      rw [if_pos hq, List.count_append, List.count_singleton] at hbefore
      rw [List.count_cons] at hperm
      rw [howed, hafter]
      show ([] ++ (s.leave w).owed).count jobID ≤ _
      rw [List.nil_append]
      omega
    updates := by
      rw [hconcluded.updates]
      exact h.updates }

theorem State.Sound.update (h : s.Sound) {w : Worker} (hw : w ∈ s.workers) (hq : w.queued = false)
    (outcome : Outcome) : ((s.exec w outcome).leave w).Sound where
  holds := h.holds
  keys := (List.filter_sublist.map Worker.key).nodup h.keys
  fresh := fun x hx => h.fresh x (mem_of_mem_leave hx)
  own := fun x hx => h.own x (mem_of_mem_leave hx)
  owed := by
    intro jobID
    have hbefore := (owed_leave h.keys hw).count_eq jobID
    rw [hq] at hbefore
    exact Nat.le_trans (Nat.le_of_eq hbefore.symm) (h.owed jobID)
  updates := by
    intro u hu
    rcases List.mem_append.mp hu with hold | hnew
    · exact h.updates u hold
    · rw [List.mem_singleton.mp hnew]
      exact (h.own w hw).symm

/-! ### Steps -/

section Step

variable {grow : Nat → Nat} {registered : String → Bool}

/-- The processor coming back is seen in the list of the returned calls only. -/
theorem State.Sound.comeBack (h : s.Sound) (w : Worker) (err : Option String) : (s.comeBack w err).Sound where
  holds := h.holds
  keys := h.keys
  fresh := h.fresh
  own := h.own
  owed := h.owed
  updates := h.updates

/-- The stage says whether a worker stands for a queued job. -/
theorem queued_of_stage {w : Worker} {stage : Stage} {queued : Bool} (h : w.stage = stage)
    (hqueued : Worker.queued { w with stage } = queued := by rfl) : w.queued = queued := by
  rw [← hqueued, Worker.queued, h, Worker.queued]

/-- What a step of a worker comes to. -/
inductive Worked (s : State) (w : Worker) : Act → State → Prop
  | idle {act : Act} : Worked s w act s
  | known {job : Job} (stage : w.stage = .picked) (load : s.mem.load w.pointer = some job) :
      Worked s w .lookUp (s.setStage w (.known job.jobType))
  | aside {act : Act} {stage : Stage} (queued : w.queued = true) (next : Worker.queued { w with stage } = true)
      (blind : stage = .unknown ∨ ∃ errMsg, stage = .failing errMsg) : Worked s w act (s.setStage w stage)
  | called {job : Job} {jobType : String} (stage : w.stage = .known jobType)
      (load : s.mem.load w.pointer = some job) :
      Worked s w .call
        { s.setStage w .processing with calls := s.calls ++ [⟨w.key, w.job, jobType, job.payload⟩] }
  | retried {err : String} (stage : w.stage = .processing) :
      Worked s w (.finish (some err)) ((s.comeBack w (some err)).retry w err)
  | completed (stage : w.stage = .processing) :
      Worked s w (.finish none) ((s.comeBack w none).conclude w (Job.setStatus .completed) .completed)
  | failed {errMsg : String} (stage : w.stage = .failing errMsg) :
      Worked s w .markFailed (s.conclude w (Job.fail errMsg) (.failed errMsg))
  | updated {outcome : Outcome} (stage : w.stage = .ending outcome) :
      Worked s w .update ((s.exec w outcome).leave w)

theorem Worked.of_work (s : State) (w : Worker) (act : Act) : Worked s w act (s.work registered w act) := by
  cases act with
  | lookUp =>
      rw [State.work]
      split
      case h_1 job hstage hload =>
        split
        · exact .known hstage hload
        · exact .aside (queued_of_stage hstage) rfl (.inl rfl)
      case h_2 => exact .idle
  | describe =>
      rw [State.work]
      split
      case h_1 job hstage hload => exact .aside (queued_of_stage hstage) rfl (.inr ⟨_, rfl⟩)
      case h_2 => exact .idle
  | call =>
      rw [State.work]
      split
      case h_1 jobType job hstage hload => exact .called hstage hload
      case h_2 => exact .idle
  | finish err =>
      rw [State.work]
      split
      case h_1 hstage =>
        cases err with
        | some err => exact .retried hstage
        | none => exact .completed hstage
      case h_2 => exact .idle
  | markFailed =>
      rw [State.work]
      split
      case h_1 errMsg hstage => exact .failed hstage
      case h_2 => exact .idle
  | update =>
      rw [State.work]
      split
      case h_1 outcome hstage => exact .updated hstage
      case h_2 => exact .idle

theorem State.Sound.worked (h : s.Sound) {w : Worker} (hw : w ∈ s.workers) {act : Act} {t : State}
    (hworked : Worked s w act t) : t.Sound := by
  cases hworked with
  | idle => exact h
  | known stage _ => exact h.setStage hw (queued_of_stage stage) rfl
  | aside queued next _ => exact h.setStage hw queued next
  | called stage _ =>
      have hset := h.setStage hw (queued_of_stage stage)
          (show Worker.queued { w with stage := .processing } = true from rfl)
      exact ⟨hset.holds, hset.keys, hset.fresh, hset.own, hset.owed, hset.updates⟩
  | retried stage => exact (h.comeBack w _).retry hw (queued_of_stage stage) _
  | completed stage =>
      exact (h.comeBack w _).conclude hw (queued_of_stage stage)
        (f := Job.setStatus .completed) (fun _ => rfl) _
  | @failed errMsg stage =>
      exact h.conclude hw (queued_of_stage stage) (f := Job.fail errMsg) (fun _ => rfl) _
  | updated stage => exact h.update hw (queued_of_stage stage) _

theorem State.Sound.step (h : s.Sound) (i : Input) : (step grow registered s i).Sound := by
  cases i with
  | enqueue job => exact h.enqueue grow job
  | pick jobID =>
      show (if _ then _ else _ : State).Sound
      split
      case isTrue hpick => exact h.pick hpick.1
      case isFalse => exact h
  | work key act =>
      show ((s.worker? key).elim s fun w => s.work registered w act).Sound
      cases hworker : s.worker? key with
      | none => exact h
      | some w => exact h.worked (State.mem_of_worker? hworker) (.of_work s w act)

/-! ### What came back is recorded -/

theorem State.Sound.ending_ne (h : s.Sound) {w x : Worker} {outcome : Outcome} (hw : w ∈ s.workers)
    (hq : w.queued = true) (hx : x ∈ s.workers) (hending : x.stage = .ending outcome) : x.key ≠ w.key := by
  intro hkey
  rw [← h.eq_of_key hw hx hkey, Worker.queued, hending] at hq
  cases hq

/-- A worker that has something left to do at the queue does not take a record with it. -/
theorem State.Recorded.setStage (h : s.Sound) {w : Worker} (hw : w ∈ s.workers)
    (hq : w.queued = true) {stage : Stage} {t : State} {r : Returned} (hr : s.Recorded r)
    (hworkers : t.workers = (s.setStage w stage).workers) (hupdates : t.updates = s.updates) : t.Recorded r := by
  apply hr.mono
  · rw [hupdates]
    exact fun _ hu => hu
  · intro x hx outcome hending
    rw [hworkers]
    exact .inl (mem_setStage hx (h.ending_ne hw hq hx hending))

theorem State.Sound.recorded_worked (h : s.Sound) (hrecorded : ∀ r ∈ s.returned, s.Recorded r) {w : Worker}
    (hw : w ∈ s.workers) {act : Act} {t : State} (hworked : Worked s w act t) :
    ∀ r ∈ t.returned, t.Recorded r := by
  cases hworked with
  | idle => exact hrecorded
  | known stage _ =>
      exact fun r hr => (hrecorded r hr).setStage h hw (queued_of_stage stage) rfl rfl
  | aside queued _ _ => exact fun r hr => (hrecorded r hr).setStage h hw queued rfl rfl
  | called stage _ =>
      exact fun r hr => (hrecorded r hr).setStage h hw (queued_of_stage stage) rfl rfl
  | @retried err stage =>
      have hq : w.queued = true := queued_of_stage stage
      have hretried := (h.comeBack w (some err)).retried ((h.comeBack w (some err)).mem_ids hw hq) err
      obtain ⟨outcome, hreports, hupdates⟩ := hretried.updates
      intro r hr
      rw [hretried.returned] at hr
      rcases List.mem_append.mp hr with hold | hnew
      · apply (hrecorded r hold).mono
        · intro u hu
          rw [hupdates]
          exact List.mem_append_left _ hu
        · intro x hx _ hending
          rw [hretried.workers]
          exact .inl (mem_leave hx (h.ending_ne hw hq hx hending))
      · rw [List.mem_singleton.mp hnew]
        refine .inl ⟨⟨w.key, w.job, w.jobID, outcome⟩, ?_, rfl, rfl, hreports⟩
        rw [hupdates]
        exact List.mem_append_right _ (List.mem_singleton_self _)
  | completed stage =>
      have hq : w.queued = true := queued_of_stage stage
      have hconcluded := (h.comeBack w none).concluded (f := Job.setStatus .completed)
        ((h.comeBack w none).mem_ids hw hq) (fun _ => rfl) .completed
      intro r hr
      rw [hconcluded.returned] at hr
      rcases List.mem_append.mp hr with hold | hnew
      · exact (hrecorded r hold).setStage h hw hq hconcluded.workers hconcluded.updates
      · rw [List.mem_singleton.mp hnew]
        refine .inr ⟨{ w with stage := .ending .completed }, ?_, rfl, rfl, .completed, rfl, trivial⟩
        rw [hconcluded.workers]
        exact mem_setStage_self hw
  | @failed errMsg stage =>
      have hq : w.queued = true := queued_of_stage stage
      have hconcluded := h.concluded (f := Job.fail errMsg) (h.mem_ids hw hq) (fun _ => rfl) (.failed errMsg)
      intro r hr
      rw [hconcluded.returned] at hr
      exact (hrecorded r hr).setStage h hw hq hconcluded.workers hconcluded.updates
  | @updated outcome stage =>
      intro r hr
      apply (hrecorded r hr).mono
      · exact fun _ hu => List.mem_append_left _ hu
      · intro x hx outcome' hending
        by_cases hkey : x.key = w.key
        · rw [h.eq_of_key hw hx hkey, stage] at hending
          cases hending
          refine .inr ⟨⟨w.key, w.job, w.jobID, outcome⟩, ?_, hkey.symm, ?_, rfl⟩
          · exact List.mem_append_right _ (List.mem_singleton_self _)
          · rw [h.eq_of_key hw hx hkey]
        · exact .inl (mem_leave hx hkey)

theorem recorded_step (h : s.Sound) (hrecorded : ∀ r ∈ s.returned, s.Recorded r) (i : Input) :
    ∀ r ∈ (step grow registered s i).returned, (step grow registered s i).Recorded r := by
  cases i with
  | enqueue job => exact hrecorded
  | pick jobID =>
      have hstep : step grow registered s (.pick jobID) =
          if jobID ∈ s.waiting ∧ s.workers.length < maxConcurrentJobProcessor then s.pick jobID else s := rfl
      rw [hstep]
      split
      case isTrue hpick =>
        obtain ⟨i, job, hentry⟩ := State.exists_queued? (h.mem_ids_of_waiting hpick.1)
        rw [State.pick, hentry]
        intro r hr
        apply (hrecorded r hr).mono
        · exact fun _ hu => hu
        · exact fun w hw _ _ => .inl (List.mem_append_left _ hw)
      case isFalse => exact hrecorded
  | work key act =>
      show ∀ r ∈ ((s.worker? key).elim s fun w => s.work registered w act).returned,
        ((s.worker? key).elim s fun w => s.work registered w act).Recorded r
      cases hworker : s.worker? key with
      | none => exact hrecorded
      | some w => exact h.recorded_worked hrecorded (State.mem_of_worker? hworker) (.of_work s w act)

/-! ### What the pointers go to -/

/-- What the worker has yet to read is what it picked. -/
def Worker.Sees (w : Worker) (slot : Option Job) : Prop :=
  match w.stage with
  | .picked => slot.map Job.content = some w.job.content
  | .known jobType => jobType = w.job.jobType ∧ slot.map Job.payload = some w.job.payload
  | _ => True

theorem Worker.Sees.of_same {w : Worker} {old new : Option Job} (h : w.Sees old) (hsame : w.Same old new) :
    w.Sees new := by
  unfold Worker.Sees at *
  unfold Worker.Same at hsame
  split
  case h_1 stage =>
    rw [stage] at h hsame
    exact hsame.trans h
  case h_2 jobType stage =>
    rw [stage] at h hsame
    exact ⟨h.1, hsame.trans h.2⟩
  case h_3 => trivial

/-- A worker that looks at nothing has nothing to lose. -/
theorem Worker.Sees.same_of_none {w : Worker} (h : w.Sees none) (new : Option Job) : w.Same none new := by
  unfold Worker.Sees at h
  unfold Worker.Same
  split
  case h_1 stage =>
    rw [stage] at h
    cases h
  case h_2 stage =>
    rw [stage] at h
    cases h.2
  case h_3 => trivial

theorem same_enqueue (h : s.Sound) {job : Job} (hcond : s.Undisturbed (.enqueue job)) {w : Worker}
    (hw : w ∈ s.workers) (hsees : w.Sees (s.mem.load w.pointer)) :
    w.Same (s.mem.load w.pointer) ((s.enqueue grow job).mem.load w.pointer) := by
  show w.Same _ ((s.mem.append grow s.queue job).1.load w.pointer)
  by_cases hfilled : w.pointer = ⟨s.queue.array, s.queue.len⟩ ∧ s.queue.len < s.queue.cap
  · have hnew : (s.mem.append grow s.queue job).1.load w.pointer = some job := by
      rw [hfilled.1]
      exact load_append_self grow h.holds job hfilled.2
    rw [hnew]
    exact hcond w hw hfilled.1 hfilled.2
  · cases hload : s.mem.load w.pointer with
    | none =>
        rw [hload] at hsees
        exact hsees.same_of_none _
    | some old =>
        rw [← hload, load_append grow h.holds job (lt_length_of_load hload)]
        · exact .refl w _
        · intro harray hindex
          by_contra hcap
          exact hfilled ⟨by rw [← harray, ← hindex], Nat.lt_of_not_le hcap⟩

/-- What the removal of a job with this id asks of the others. -/
def State.Spared (s : State) (jobID : String) (w : Worker) : Prop :=
  ∀ n ∈ (s.queued? jobID).map Prod.fst, w.pointer.array = s.queue.array → n ≤ w.pointer.index →
    w.pointer.index + 1 < s.queue.len →
      w.Same (s.mem.load w.pointer) (s.mem.load ⟨w.pointer.array, w.pointer.index + 1⟩)

theorem same_conclude (h : s.Sound) {v w : Worker} {f : Job → Job} (hid : ∀ job, (f job).id = job.id)
    (hcontent : ∀ job, (f job).content = job.content) (outcome : Outcome) (hspared : s.Spared v.jobID w) :
    w.Same (s.mem.load w.pointer) ((s.conclude v f outcome).mem.load w.pointer) := by
  rw [State.conclude]
  cases s.queued? v.jobID with
  | none => exact same_removeJob h.holds v.jobID hspared
  | some e => exact same_setJob_removeJob h.holds e.1 hid hcontent v.jobID hspared

theorem same_retry (h : s.Sound) {v w : Worker} (err : String)
    (hspared : ∀ n job, s.queued? v.jobID = some (n, job) → job.maxRetries ≤ job.retries + 1 → s.Spared v.jobID w) :
    w.Same (s.mem.load w.pointer) ((s.retry v err).mem.load w.pointer) := by
  rw [State.retry]
  cases hentry : s.queued? v.jobID with
  | none => exact .refl w _
  | some e =>
      show w.Same _ ((if e.2.maxRetries ≤ e.2.retries + 1 then _ else _ : State).mem.load w.pointer)
      split
      case isTrue hlast =>
        exact same_setJob_removeJob (f := Job.giveUp err) h.holds e.1 (fun _ => rfl) (fun _ => rfl) v.jobID
          (hspared e.1 e.2 hentry hlast)
      case isFalse =>
        exact Worker.same_of_content (content_setJob (f := Job.again) h.holds e.1 (fun _ => rfl) w.pointer)

section TakesOut

variable {key : Nat} {v : Worker} {n : Nat} (hworker : s.worker? key = some v)
  (hn : n ∈ (s.queued? v.jobID).map Prod.fst)

include hworker hn

theorem mem_takesOut_completed (hstage : v.stage = .processing) : n ∈ s.takesOut (.work key (.finish none)) := by
  obtain ⟨e, hentry, rfl⟩ := Option.mem_map.mp hn
  rw [Option.mem_def] at hentry
  simp only [State.takesOut, hworker, Option.bind_some, hstage, hentry, Option.mem_def]

theorem mem_takesOut_failed {errMsg : String} (hstage : v.stage = .failing errMsg) :
    n ∈ s.takesOut (.work key .markFailed) := by
  obtain ⟨e, hentry, rfl⟩ := Option.mem_map.mp hn
  rw [Option.mem_def] at hentry
  simp only [State.takesOut, hworker, Option.bind_some, hstage, hentry, Option.mem_def]

omit hn in
theorem mem_takesOut_deadLetter {err : String} {job : Job} (hstage : v.stage = .processing)
    (hentry : s.queued? v.jobID = some (n, job)) (hlast : job.maxRetries ≤ job.retries + 1) :
    n ∈ s.takesOut (.work key (.finish (some err))) := by
  simp only [State.takesOut, hworker, Option.bind_some, hstage, hentry, if_pos hlast, Option.mem_def]

end TakesOut

theorem same_step (h : s.Sound) {i : Input} (hcond : s.Undisturbed i) {w : Worker} (hw : w ∈ s.workers)
    (hsees : w.Sees (s.mem.load w.pointer)) :
    w.Same (s.mem.load w.pointer) ((step grow registered s i).mem.load w.pointer) := by
  cases i with
  | enqueue job => exact same_enqueue h hcond hw hsees
  | pick jobID =>
      show w.Same _ ((if _ then _ else _ : State).mem.load w.pointer)
      split
      case isTrue =>
        rw [State.pick]
        cases s.queued? jobID with
        | none => exact .refl w _
        | some e =>
            exact Worker.same_of_content
              (content_setJob (f := Job.setStatus .inProgress) h.holds e.1 (fun _ => rfl) w.pointer)
      case isFalse => exact .refl w _
  | work key act =>
      show w.Same _ (((s.worker? key).elim s fun w => s.work registered w act).mem.load w.pointer)
      have htaken : ∀ n ∈ s.takesOut (.work key act), w.pointer.array = s.queue.array → n ≤ w.pointer.index →
          w.pointer.index + 1 < s.queue.len →
            w.Same (s.mem.load w.pointer) (s.mem.load ⟨w.pointer.array, w.pointer.index + 1⟩) :=
        fun n hn => hcond n hn w hw
      cases hworker : s.worker? key with
      | none => exact .refl w _
      | some v =>
          have hworked : Worked s v act (s.work registered v act) := .of_work s v act
          show w.Same _ ((s.work registered v act).mem.load w.pointer)
          generalize s.work registered v act = t at hworked
          cases hworked with
          | idle => exact .refl w _
          | known _ _ => exact .refl w _
          | aside _ _ _ => exact .refl w _
          | called _ _ => exact .refl w _
          | @retried err stage =>
              refine same_retry (h.comeBack v _) err ?_
              intro n job hentry hlast k hk
              have hkn : n = k := by
                rw [hentry] at hk
                exact Option.some.inj hk
              exact htaken k (hkn ▸ mem_takesOut_deadLetter hworker stage hentry hlast)
          | completed stage =>
              refine same_conclude (f := Job.setStatus .completed) (h.comeBack v _) (fun _ => rfl)
                (fun _ => rfl) _ ?_
              exact fun n hn => htaken n (mem_takesOut_completed hworker hn stage)
          | @failed errMsg stage =>
              refine same_conclude (f := Job.fail errMsg) h (fun _ => rfl) (fun _ => rfl) _ ?_
              exact fun n hn => htaken n (mem_takesOut_failed hworker hn stage)
          | updated _ => exact .refl w _

/-- The pointers go to what was picked, and so did those of the calls. -/
structure State.Seen (s : State) : Prop where
  workers : ∀ w ∈ s.workers, w.Sees (s.mem.load w.pointer)
  calls : ∀ c ∈ s.calls, c.jobType = c.job.jobType ∧ c.payload = c.job.payload

/-- A new worker, or one in a new stage, sees what it picked. -/
theorem sees_work (h : s.Sound) (hseen : s.Seen) {w : Worker} (hw : w ∈ s.workers) {act : Act} {t : State}
    (hworked : Worked s w act t) :
    (∀ x ∈ t.workers, x ∈ s.workers ∨ x.Sees (t.mem.load x.pointer)) ∧
      ∀ c ∈ t.calls, c.jobType = c.job.jobType ∧ c.payload = c.job.payload := by
  have hsetStage : ∀ {stage : Stage} {x : Worker}, x ∈ (s.setStage w stage).workers →
      x ∈ s.workers ∨ x = { w with stage } := by
    intro stage x hx
    rcases exists_of_mem_setStage hx with ⟨x₀, hx₀, hkey, rfl⟩ | ⟨hx, _⟩
    · exact .inr (by rw [h.eq_of_key hw hx₀ hkey])
    · exact .inl hx
  have hwsees := hseen.workers w hw
  cases hworked with
  | idle => exact ⟨fun x hx => .inl hx, hseen.calls⟩
  | @known job stage load =>
      refine ⟨?_, hseen.calls⟩
      intro x hx
      refine (hsetStage hx).imp_right ?_
      rintro rfl
      rw [Worker.Sees, stage, load] at hwsees
      have hcontent : job.content = w.job.content := Option.some.inj hwsees
      show _ ∧ (s.mem.load w.pointer).map Job.payload = _
      rw [load]
      exact ⟨congrArg Prod.fst hcontent, congrArg some (congrArg Prod.snd hcontent)⟩
  | @aside _ stage queued next blind =>
      refine ⟨?_, hseen.calls⟩
      intro x hx
      refine (hsetStage hx).imp_right ?_
      rintro rfl
      rcases blind with rfl | ⟨errMsg, rfl⟩
      · exact trivial
      · exact trivial
  | @called job jobType stage load =>
      constructor
      · intro x hx
        refine (hsetStage hx).imp_right ?_
        rintro rfl
        exact trivial
      · intro c hc
        rcases List.mem_append.mp hc with hold | hnew
        · exact hseen.calls c hold
        · rw [Worker.Sees, stage, load] at hwsees
          rw [List.mem_singleton.mp hnew]
          exact ⟨hwsees.1, Option.some.inj hwsees.2⟩
  | @retried err stage =>
      have hq : w.queued = true := queued_of_stage stage
      have hretried := (h.comeBack w (some err)).retried ((h.comeBack w (some err)).mem_ids hw hq) err
      rw [hretried.workers, hretried.calls]
      exact ⟨fun x hx => .inl (mem_of_mem_leave hx), hseen.calls⟩
  | completed stage =>
      have hq : w.queued = true := queued_of_stage stage
      have hconcluded := (h.comeBack w none).concluded (f := Job.setStatus .completed)
        ((h.comeBack w none).mem_ids hw hq) (fun _ => rfl) .completed
      rw [hconcluded.workers, hconcluded.calls]
      refine ⟨?_, hseen.calls⟩
      intro x hx
      refine (hsetStage hx).imp_right ?_
      rintro rfl
      exact trivial
  | @failed errMsg stage =>
      have hq : w.queued = true := queued_of_stage stage
      have hconcluded := h.concluded (f := Job.fail errMsg) (h.mem_ids hw hq) (fun _ => rfl) (.failed errMsg)
      rw [hconcluded.workers, hconcluded.calls]
      refine ⟨?_, hseen.calls⟩
      intro x hx
      refine (hsetStage hx).imp_right ?_
      rintro rfl
      exact trivial
  | updated _ => exact ⟨fun x hx => .inl (mem_of_mem_leave hx), hseen.calls⟩

theorem sees_pick (h : s.Sound) {jobID : String} (hwaiting : jobID ∈ s.waiting) {x : Worker}
    (hx : x ∈ (s.pick jobID).workers) : x ∈ s.workers ∨ x.Sees ((s.pick jobID).mem.load x.pointer) := by
  obtain ⟨i, job, hentry⟩ := State.exists_queued? (h.mem_ids_of_waiting hwaiting)
  have hpick : s.pick jobID =
      { s with
        mem := s.mem.modify s.queue i (Job.setStatus .inProgress)
        waiting := s.waiting.erase jobID
        workers := s.workers ++ [s.newWorker jobID i job]
        nextKey := s.nextKey + 1 } := by
    rw [State.pick, hentry]
  rw [hpick] at hx ⊢
  rcases List.mem_append.mp hx with hold | hnew
  · exact .inl hold
  · rw [List.mem_singleton.mp hnew]
    refine .inr ?_
    have hload : s.mem.load ⟨s.queue.array, i⟩ = some job :=
      (load_eq_getElem_contents (lt_len_of_queued? jobID h.holds hentry)).trans (State.queued?_eq_some hentry).1
    have hslot := load_modify h.holds i (f := Job.setStatus .inProgress) (g := Job.content) (fun _ => rfl)
      ⟨s.queue.array, i⟩
    rw [hload] at hslot
    exact hslot

theorem State.Seen.step (hseen : s.Seen) (h : s.Sound) {i : Input} (hcond : s.Undisturbed i) :
    (InternalQueue.step grow registered s i).Seen := by
  have hkeep : ∀ x ∈ s.workers, x.Sees ((InternalQueue.step grow registered s i).mem.load x.pointer) :=
    fun x hx => (hseen.workers x hx).of_same (same_step h hcond hx (hseen.workers x hx))
  cases i with
  | enqueue job => exact ⟨hkeep, hseen.calls⟩
  | pick jobID =>
      have hstep : InternalQueue.step grow registered s (.pick jobID) =
          if jobID ∈ s.waiting ∧ s.workers.length < maxConcurrentJobProcessor then s.pick jobID else s := rfl
      rw [hstep] at hkeep ⊢
      split
      case isTrue hpick =>
        rw [if_pos hpick] at hkeep
        refine ⟨fun x hx => (sees_pick h hpick.1 hx).elim (hkeep x) id, ?_⟩
        rw [State.pick]
        cases s.queued? jobID <;> exact hseen.calls
      case isFalse => exact hseen
  | work key act =>
      have hstep : InternalQueue.step grow registered s (.work key act) =
          (s.worker? key).elim s fun w => s.work registered w act := rfl
      rw [hstep] at hkeep ⊢
      cases hworker : s.worker? key with
      | none => exact hseen
      | some w =>
          rw [hworker] at hkeep
          have hwork := sees_work h hseen (State.mem_of_worker? hworker) (@Worked.of_work registered s w act)
          exact ⟨fun x hx => (hwork.1 x hx).elim (hkeep x) id, hwork.2⟩

end Step

/-! ### Each job as itself -/

theorem sound_start : start.Sound where
  holds := ⟨Nat.zero_lt_one, Nat.zero_le _, Nat.zero_le _⟩
  keys := List.nodup_nil
  fresh := nofun
  own := nofun
  owed := fun _ => Nat.le_refl _
  updates := nofun

structure State.Kept (s : State) : Prop where
  sound : s.Sound
  recorded : ∀ r ∈ s.returned, s.Recorded r
  seen : s.Seen

/-- While no worker's slot is taken over before it has read its job, each job is processed as itself. -/
theorem State.asItself_of_undisturbed (grow : Nat → Nat) (registered : String → Bool) {inputs : List Input}
    (hcond : Runs.AllSteps (step grow registered) State.Undisturbed start inputs) :
    ∀ t ∈ Runs.visited (step grow registered) start inputs, t.AsItself := by
  have hstart : start.Kept := ⟨sound_start, nofun, nofun, nofun⟩
  have hrun : ∀ t ∈ Runs.visited (step grow registered) start inputs, t.Kept := by
    refine Runs.forall_visited ?_ hstart hcond
    intro s i h hi
    exact ⟨h.sound.step i, recorded_step h.sound h.recorded i, h.seen.step h.sound hi⟩
  intro t ht
  have hkept := hrun t ht
  exact ⟨hkept.seen.calls, hkept.sound.updates, hkept.recorded⟩

/-- A job of the id and the payload. -/
def importJob (id : String) : Job :=
  ⟨id, "result_import", .pending, [("polling_unit_code", .str id)], id, 0, defaultRetries, ""⟩

/-- The second worker has called its processor when the first one takes its job out, and is put off with an
error. -/
theorem State.asItself_of_two_workers :
    (Runs.final (step (2 * ·) (· == "result_import")) start
      [.enqueue (importJob "a"), .enqueue (importJob "b"), .pick "a", .pick "b", .work 1 .lookUp, .work 1 .call,
        .work 0 .lookUp, .work 0 .call, .work 0 (.finish none), .work 1 (.finish (some "down")), .work 0 .update,
        .pick "b"]).AsItself :=
  State.asItself_of_undisturbed _ _ (by decide +kernel) _ (Runs.final_mem_visited _ _)

/-- Three jobs, of which the first is done before the worker of the second has read: it reads the third. -/
theorem State.processed_as_neighbour :
    ¬∀ (inputs : List Input), ∀ t ∈ Runs.visited (step (2 * ·)
    (· == "result_import")) start inputs, t.AsItself := by
  intro h
  have hself := h
    [.enqueue (importJob "a"), .enqueue (importJob "b"), .enqueue (importJob "c"), .pick "a", .pick "b",
      .work 0 .lookUp, .work 0 .call, .work 0 (.finish none), .work 1 .lookUp, .work 1 .call]
    _ (Runs.final_mem_visited _ _)
  have hcalls := hself.calls
  revert hcalls
  decide +kernel

end Inec.InternalQueue
