import Inec.Lib.Runs
import Inec.System

/-!
# Evidence of every status

Each handler that writes `results.status` is responsible for its own call of `recordIntegrityEventTx`.
Submissions, validations, finalizations and disputes make that call for the row they write. A correction
makes it for the replacement only, so the row it supersedes changes without an event, and the resolution
of a dispute makes none at all.
-/

namespace Inec

open Checks

variable {sha256Hex : String → String}

/-! ### Events and statuses -/

/-- The event types that stand for a status of the result. -/
def lifecycleStatuses (eventType : String) : List ResultStatus :=
  if eventType = "RESULT_SUBMITTED" then [.pending, .disputed]
  else if eventType = "RESULT_VALIDATED" then [.validated]
  else if eventType = "RESULT_FINALIZED" then [.finalized]
  else if eventType = "RESULT_DISPUTED" then [.disputed]
  else if eventType = "RESULT_CORRECTED" then [.pending]
  else []

def isLifecycleEvent (ev : EvidenceEvent) : Bool := !(lifecycleStatuses ev.eventType).isEmpty

/-- The newest lifecycle event of a result. -/
def newestLifecycle (db : Tables) (resultId : Int) : Option EvidenceEvent :=
  Rows.maxBy (·.sequenceNo) (db.evidenceEvents.filter fun ev => ev.resultId == resultId && isLifecycleEvent ev)

/-- The event is of a type for the status, and its public payload names the status. -/
def Reports (ev : EvidenceEvent) (status : ResultStatus) : Prop :=
  status ∈ lifecycleStatuses ev.eventType ∧
    ∃ fields, ("status", Json.str status.text) ∈ fields ∧ ev.publicPayload = canonicalJSON (.ofMap fields)

/-- The newest lifecycle event of every result reports its status. -/
def EvidenceMatches (db : Tables) : Prop :=
  ∀ r ∈ db.results, ∃ ev, newestLifecycle db r.id = some ev ∧ Reports ev r.status

/-- Every result that the write brought in or moved to another status has an event among the new ones. -/
def Evidenced (db db' : Tables) : Prop :=
  ∃ added, db'.evidenceEvents = db.evidenceEvents ++ added ∧
    ∀ r ∈ db'.results, (∀ r₀ ∈ db.results, r₀.id = r.id → r₀.status ≠ r.status) →
      ∃ ev ∈ added, ev.resultId = r.id

/-- The requests on results. -/
def Op.onResults : Op → Bool
  | .submit _ => true
  | .submitEC8A _ => true
  | .ingest _ => true
  | .validate _ => true
  | .finalize _ => true
  | .dispute _ _ => true
  | .correct _ _ => true
  | .fileDispute _ => true
  | .resolveDispute _ _ => true
  | _ => false

/-- The request is not an accepted correction, and closes no dispute with a remedy for a result. -/
structure LeavesNoGap (sha256Hex : String → String) (d : Database) (q : Request) : Prop where
  correction : ∀ id req, q.op = .correct id req → q.op.run sha256Hex q.env d.tables = none
  remedy : ∀ id req checked, q.op = .resolveDispute id req →
    checkResolve q.env d.tables id req = .ok checked → remedied? d.tables checked = none

/-! ### The three kinds of write -/

/-- Nothing was written that the evidence speaks about. -/
structure Untouched (db db' : Tables) : Prop where
  results : db'.results = db.results
  events : db'.evidenceEvents = db.evidenceEvents

/-- One status was written and its event recorded. -/
structure StatusRecorded (db db' : Tables) (r : ResultRow) (f : ResultRow → ResultRow)
    (input : IntegrityEventInput) (row : EvidenceEvent) : Prop where
  found : db.result? r.id = some r
  keepsId : (f r).id = r.id
  results : db'.results = Rows.update (·.id) r.id f db.results
  recorded : Recorded db db' input row
  of : input.resultId = r.id
  reports : Reports row (f r).status

/-- One row was inserted and its event recorded. -/
structure RowRecorded (db db' : Tables) (r : ResultRow) (input : IntegrityEventInput) (row : EvidenceEvent) :
    Prop where
  fresh : r.id ∉ db.results.map (·.id)
  results : db'.results = db.results ++ [r]
  recorded : Recorded db db' input row
  of : input.resultId = r.id
  reports : Reports row r.status

theorem Reports.isLifecycleEvent {ev : EvidenceEvent} {status : ResultStatus} (h : Reports ev status) :
    isLifecycleEvent ev = true := by
  rw [Inec.isLifecycleEvent, Bool.not_eq_true', List.isEmpty_eq_false_iff]
  exact List.ne_nil_of_mem h.1

/-- The recorded event is the newest lifecycle event of its result. -/
theorem newestLifecycle_recorded {db db' : Tables} {input : IntegrityEventInput} {row : EvidenceEvent}
    {status : ResultStatus} (h : Recorded db db' input row) (hreports : Reports row status) :
    newestLifecycle db' input.resultId = some row := by
  have hlifecycle := hreports.isLifecycleEvent
  rw [newestLifecycle, h.events, List.filter_append, List.filter_singleton, h.resultId,
    hlifecycle, beq_self_eq_true]
  apply Rows.maxBy_append_singleton
  intro ev hev
  rw [List.mem_filter, Bool.and_eq_true, beq_iff_eq] at hev
  exact h.newest ev hev.1 hev.2.1

/-- The events of other results stay as they were. -/
theorem newestLifecycle_of_ne {db db' : Tables} {input : IntegrityEventInput} {row : EvidenceEvent} {id : Int}
    (h : Recorded db db' input row) (hne : id ≠ input.resultId) :
    newestLifecycle db' id = newestLifecycle db id := by
  have hrow : (row.resultId == id) = false := by
    rw [h.resultId]
    exact beq_false_of_ne hne.symm
  rw [newestLifecycle, h.events, List.filter_append, List.filter_singleton, hrow, Bool.false_and]
  simp [newestLifecycle]

theorem Untouched.evidenced {db db' : Tables} (h : Untouched db db') : Evidenced db db' := by
  refine ⟨[], by rw [h.events, List.append_nil], ?_⟩
  intro r hr hchanged
  rw [h.results] at hr
  exact absurd rfl (hchanged r hr rfl)

theorem Untouched.matches {db db' : Tables} (h : Untouched db db') (hdb : EvidenceMatches db) :
    EvidenceMatches db' := by
  intro r hr
  rw [h.results] at hr
  rw [newestLifecycle, h.events]
  exact hdb r hr

theorem StatusRecorded.evidenced {db db' : Tables} {r : ResultRow} {f : ResultRow → ResultRow}
    {input : IntegrityEventInput} {row : EvidenceEvent} (h : StatusRecorded db db' r f input row)
    (hids : (db.results.map (·.id)).Nodup) : Evidenced db db' := by
  refine ⟨[row], h.recorded.events, ?_⟩
  intro r' hr' hchanged
  refine ⟨row, List.mem_singleton_self _, ?_⟩
  rw [h.recorded.resultId, h.of]
  rw [h.results] at hr'
  rcases Rows.mem_update.mp hr' with ⟨r₀, hr₀, hid, rfl⟩ | ⟨hmem, -⟩
  · rw [Rows.eq_of_key_eq hids hr₀ (Tables.mem_of_result? h.found).1 hid]
    exact h.keepsId.symm
  · exact absurd rfl (hchanged r' hmem rfl)

theorem StatusRecorded.matches {db db' : Tables} {r : ResultRow} {f : ResultRow → ResultRow}
    {input : IntegrityEventInput} {row : EvidenceEvent} (h : StatusRecorded db db' r f input row)
    (hids : (db.results.map (·.id)).Nodup) (hdb : EvidenceMatches db) : EvidenceMatches db' := by
  intro r' hr'
  rw [h.results] at hr'
  rcases Rows.mem_update.mp hr' with ⟨r₀, hr₀, hid, rfl⟩ | ⟨hmem, hne⟩
  · rw [Rows.eq_of_key_eq hids hr₀ (Tables.mem_of_result? h.found).1 hid, h.keepsId, ← h.of]
    exact ⟨row, newestLifecycle_recorded h.recorded h.reports, h.reports⟩
  · rw [newestLifecycle_of_ne h.recorded (h.of ▸ hne)]
    exact hdb r' hmem

theorem RowRecorded.evidenced {db db' : Tables} {r : ResultRow} {input : IntegrityEventInput}
    {row : EvidenceEvent} (h : RowRecorded db db' r input row) : Evidenced db db' := by
  refine ⟨[row], h.recorded.events, ?_⟩
  intro r' hr' hchanged
  refine ⟨row, List.mem_singleton_self _, ?_⟩
  rw [h.recorded.resultId, h.of]
  rw [h.results] at hr'
  rcases List.mem_append.mp hr' with hmem | hmem
  · exact absurd rfl (hchanged r' hmem rfl)
  · rw [List.mem_singleton.mp hmem]

theorem RowRecorded.matches {db db' : Tables} {r : ResultRow} {input : IntegrityEventInput}
    {row : EvidenceEvent} (h : RowRecorded db db' r input row) (hdb : EvidenceMatches db) :
    EvidenceMatches db' := by
  intro r' hr'
  rw [h.results] at hr'
  rcases List.mem_append.mp hr' with hmem | hmem
  · have hne : r'.id ≠ input.resultId := by
      intro heq
      apply h.fresh
      rw [← h.of, ← heq]
      exact List.mem_map_of_mem hmem
    rw [newestLifecycle_of_ne h.recorded hne]
    exact hdb r' hmem
  · rw [List.mem_singleton.mp hmem, ← h.of]
    exact ⟨row, newestLifecycle_recorded h.recorded h.reports, h.reports⟩

/-! ### What each handler writes -/

theorem logAudit_untouched (env : Env) (db : Tables) (action entityType entityId : String) :
    Untouched db (logAudit env db action entityType entityId) := by
  unfold logAudit
  split
  · exact ⟨rfl, rfl⟩
  · exact ⟨rfl, rfl⟩

theorem Recorded.trans {db db' db'' : Tables} {input : IntegrityEventInput} {row : EvidenceEvent}
    (h : Recorded db db' input row) (hsame : Untouched db' db'') : Recorded db db'' input row :=
  { h with events := hsame.events.trans h.events }

/-- The evidence of a review is recorded after its row is written. -/
theorem recordReview_recorded {env : Env} {db db' : Tables} {r : ResultRow} {f : ResultRow → ResultRow}
    {event : IntegrityEventInput} {label action : String}
    (h : recordReview sha256Hex env db r f event label action = .ok db') :
    ∃ row, db'.results = Rows.update (·.id) r.id f db.results ∧ Recorded db db' event row := by
  simp only [recordReview, recordReviewAs, bind_eq_ok, relabel_eq_ok, pure_eq_ok] at h
  obtain ⟨recorded, hrecorded, rfl⟩ := h
  obtain ⟨row, hrow⟩ := recordIntegrityEventTx_recorded hrecorded
  have haudit := logAudit_untouched env recorded.1 action "result" (toString r.id)
  refine ⟨row, ?_, ⟨haudit.events.trans hrow.events, hrow.resultId, hrow.eventType, hrow.publicPayload,
    hrow.newest⟩⟩
  rw [haudit.results, (recordIntegrityEventTx_sameCore hrecorded).results]
  rfl

/-- The event of a review that names the new status reports it. -/
theorem reports_reviewEvent {env : Env} {db db' : Tables} {r : ResultRow} {policyId : Int}
    {eventType visibility : String} {status : ResultStatus} {publicFields privateFields : List (String × Json)}
    {row : EvidenceEvent}
    (h : Recorded db db' (reviewEvent env r policyId eventType visibility publicFields privateFields) row)
    (hstatus : status ∈ lifecycleStatuses eventType) (hfield : ("status", Json.str status.text) ∈ publicFields) :
    Reports row status := by
  refine ⟨?_, publicFields, hfield, h.publicPayload⟩
  rw [h.eventType]
  exact hstatus

theorem validate_recorded {env : Env} {db db' : Tables} {id : Int}
    (h : handleValidateResult sha256Hex env db id = .ok db') :
    ∃ r f input row, StatusRecorded db db' r f input row := by
  simp only [handleValidateResult, bind_eq_ok] at h
  obtain ⟨⟨r, policyId⟩, hchecked, hrecord⟩ := h
  obtain ⟨row, hresults, hrow⟩ := recordReview_recorded hrecord
  refine ⟨r, markValidated env, _, row, Tables.result?_id (checkValidate_ok hchecked).1, rfl,
    hresults, hrow, rfl, ?_⟩
  exact reports_reviewEvent hrow (by simp [markValidated, lifecycleStatuses])
    (by simp [markValidated, ResultStatus.text])

theorem finalize_recorded {env : Env} {db db' : Tables} {id : Int}
    (h : handleFinalizeResult sha256Hex env db id = .ok db') :
    ∃ r f input row, StatusRecorded db db' r f input row := by
  simp only [handleFinalizeResult, bind_eq_ok] at h
  obtain ⟨⟨r, policyId⟩, hchecked, hrecord⟩ := h
  obtain ⟨row, hresults, hrow⟩ := recordReview_recorded hrecord
  refine ⟨r, markFinalized env, _, row, Tables.result?_id (checkFinalize_ok hchecked).1, rfl,
    hresults, hrow, rfl, ?_⟩
  exact reports_reviewEvent hrow (by simp [markFinalized, lifecycleStatuses])
    (by simp [markFinalized, ResultStatus.text])

theorem dispute_recorded {env : Env} {db db' : Tables} {id : Int} {reason : String}
    (h : handleDisputeResult sha256Hex env db id reason = .ok db') :
    ∃ r f input row, StatusRecorded db db' r f input row := by
  simp only [handleDisputeResult, bind_eq_ok] at h
  obtain ⟨⟨r, policyId⟩, hchecked, hrecord⟩ := h
  obtain ⟨row, hresults, hrow⟩ := recordReview_recorded hrecord
  refine ⟨r, setStatus .disputed, _, row, Tables.result?_id (checkDispute_ok hchecked).1, rfl,
    hresults, hrow, rfl, ?_⟩
  exact reports_reviewEvent hrow (by simp [setStatus, lifecycleStatuses]) (by simp [setStatus, ResultStatus.text])

theorem apply_recorded {env : Env} {db db' : Tables} {res : IngestedResult} {outcome : ApplyOutcome} {id : Int}
    (h : applyResultTx sha256Hex env db res = .ok (outcome, id, db')) :
    Untouched db db' ∨ ∃ r input row, RowRecorded db db' r input row := by
  simp only [applyResultTx, bind_eq_ok] at h
  obtain ⟨_, _, h⟩ := h
  cases hlive : liveResult? db res.electionId res.pollingUnitCode with
  | some existing =>
      simp only [hlive, pure_eq_ok, Prod.mk.injEq] at h
      rw [← h.2.2]
      exact Or.inl ⟨rfl, rfl⟩
  | none =>
      simp only [hlive, insertIngested, bind_eq_ok, pure_eq_ok, relabel_eq_ok, Prod.mk.injEq] at h
      obtain ⟨_, ⟨_, _, policyId, _, recorded, hrecorded, rfl⟩, _, _, rfl⟩ := h
      obtain ⟨row, hrow⟩ := recordIntegrityEventTx_recorded hrecorded
      refine Or.inr ⟨ingestedRow sha256Hex db res, submittedEvent (ingestedRow sha256Hex db res) policyId res,
        row, nextSerial_notMem _, (recordIntegrityEventTx_sameCore hrecorded).results, ?_, rfl, ?_, _, ?_,
          hrow.publicPayload⟩
      · exact ⟨hrow.events, hrow.resultId, hrow.eventType, hrow.publicPayload, hrow.newest⟩
      · rw [hrow.eventType]
        rcases initialStatus_cases res.overrideReason with hstatus | hstatus <;>
          simp [submittedEvent, lifecycleStatuses, ingestedRow, hstatus]
      · simp

theorem submit_recorded {env : Env} {db db' : Tables} {req : SubmitRequest} {response : SubmitResponse}
    (h : handleSubmitResult sha256Hex env db req = .ok (db', response)) :
    Untouched db db' ∨ ∃ r input row, RowRecorded db db' r input row := by
  simp only [handleSubmitResult, bind_eq_ok] at h
  obtain ⟨_, _, _, _, h⟩ := h
  cases hreplay : replayed? db req.idempotencyKey with
  | some r =>
      simp only [hreplay, pure_eq_ok, Prod.mk.injEq] at h
      rw [← h.1]
      exact Or.inl ⟨rfl, rfl⟩
  | none =>
      simp only [hreplay, submitNew, bind_eq_ok, pure_eq_ok, relabel_eq_ok, Prod.mk.injEq] at h
      obtain ⟨_, _, ⟨outcome, id, applied⟩, happlied, _, _, rfl, _⟩ := h
      have haudit := logAudit_untouched env applied "RESULT_SUBMITTED" "result" (toString id)
      rcases apply_recorded happlied with hsame | ⟨r, input, row, hrow⟩
      · exact Or.inl ⟨haudit.results.trans hsame.results, haudit.events.trans hsame.events⟩
      · exact Or.inr ⟨r, input, row,
          { hrow with results := haudit.results.trans hrow.results, recorded := hrow.recorded.trans haudit }⟩

theorem submitEC8A_recorded {env : Env} {db db' : Tables} {form : FormEC8A}
    (h : handleSubmitEC8A sha256Hex env db form = .ok db') : ∃ r input row, RowRecorded db db' r input row := by
  simp only [handleSubmitEC8A, bind_eq_ok, relabel_eq_ok, pure_eq_ok] at h
  obtain ⟨_, _, _, _, policyId, _, recorded, hrecorded, rfl⟩ := h
  obtain ⟨row, hrow⟩ := recordIntegrityEventTx_recorded hrecorded
  have haudit := logAudit_untouched env recorded.1 "EC8A_SUBMITTED" "result" form.pollingUnitCode
  refine ⟨formRow sha256Hex env db form, formEvent env (formRow sha256Hex env db form) policyId form, row,
    nextSerial_notMem _, haudit.results.trans (recordIntegrityEventTx_sameCore hrecorded).results, ?_, rfl, ?_,
      _, ?_, hrow.publicPayload⟩
  · exact ⟨haudit.events.trans hrow.events, hrow.resultId, hrow.eventType, hrow.publicPayload, hrow.newest⟩
  · rw [hrow.eventType]
    simp [formEvent, formRow, lifecycleStatuses]
  · simp [formRow, ResultStatus.text]

theorem fileDispute_untouched {env : Env} {db db' : Tables} {req : FileDisputeRequest}
    (h : handleFileDispute env db req = .ok db') : Untouched db db' := by
  simp only [handleFileDispute, bind_eq_ok, pure_eq_ok] at h
  obtain ⟨_, _, _, _, _, _, _, _, _, _, rfl⟩ := h
  exact ⟨rfl, rfl⟩

theorem remediate_events (env : Env) (db : Tables) (checked : Dispute × Option DisputeOutcome) :
    (remediate env db checked).evidenceEvents = db.evidenceEvents := by
  unfold remediate
  cases remedied? db checked with
  | none => rfl
  | some write =>
      simp only
      split
      · exact (logAudit_untouched ..).events
      · rfl

/-- The resolution of a dispute writes the remedy and no event. -/
theorem resolveDispute_written {env : Env} {db db' : Tables} {id : Int} {req : ResolveRequest}
    {response : ResolveResponse} (h : handleResolveDispute env db id req = .ok (db', response)) :
    ∃ checked, checkResolve env db id req = .ok checked ∧
      db'.results = (remediedTables db checked).results ∧ db'.evidenceEvents = db.evidenceEvents := by
  obtain ⟨checked, hchecked, hcore⟩ := handleResolveDispute_ok h
  refine ⟨checked, hchecked, hcore.results, ?_⟩
  simp only [handleResolveDispute, bind_eq_ok, pure_eq_ok, Prod.mk.injEq] at h
  obtain ⟨checked', _, rfl, _⟩ := h
  rw [(logAudit_untouched ..).events]
  exact remediate_events env db checked'

/-- A correction records one event, for the replacement. -/
theorem correct_written {env : Env} {db db' : Tables} {id : Int} {req : CorrectRequest}
    (h : handleCorrectResult sha256Hex env db id req = .ok db') :
    ∃ r row, checkCorrect env db id req = .ok r ∧
      db'.results = (supersede sha256Hex env db r req).results ∧
      db'.evidenceEvents = db.evidenceEvents ++ [row] ∧
      row.resultId = (correctedRow sha256Hex env db r req).id := by
  obtain ⟨r, hr, hcore⟩ := handleCorrectResult_ok h
  simp only [handleCorrectResult, bind_eq_ok, relabel_eq_ok, pure_eq_ok] at h
  obtain ⟨r', hr', _, _, recorded, hrecorded, rfl⟩ := h
  obtain rfl : r = r' := Except.ok.inj (hr.symm.trans hr')
  obtain ⟨row, hrow⟩ := recordIntegrityEventTx_recorded hrecorded
  refine ⟨r, row, hr, hcore.results, ?_, hrow.resultId⟩
  rw [(logAudit_untouched ..).events, hrow.events]
  rfl

/-! ### The gaps -/

/-- A result that was moved to another status, without an event of its own, is a gap. -/
theorem not_evidenced {db db' : Tables} {r r' : ResultRow} {added : List EvidenceEvent}
    (hids : (db.results.map (·.id)).Nodup) (hr : r ∈ db.results) (hr' : r' ∈ db'.results) (hid : r'.id = r.id)
    (hstatus : r.status ≠ r'.status) (hevents : db'.evidenceEvents = db.evidenceEvents ++ added)
    (hadded : ∀ ev ∈ added, ev.resultId ≠ r.id) : ¬ Evidenced db db' := by
  rintro ⟨added', hevents', hrecorded⟩
  obtain rfl : added = added' := List.append_cancel_left (hevents.symm.trans hevents')
  have hmoved : ∀ r₀ ∈ db.results, r₀.id = r'.id → r₀.status ≠ r'.status := by
    intro r₀ hr₀ hid₀
    rw [Rows.eq_of_key_eq hids hr₀ hr (hid₀.trans hid)]
    exact hstatus
  obtain ⟨ev, hev, hresult⟩ := hrecorded r' hr' hmoved
  exact hadded ev hev (hresult.trans hid)

theorem correct_not_evidenced {env : Env} {d : Database} {db' : Tables} {id : Int} {req : CorrectRequest}
    (h : handleCorrectResult sha256Hex env d.tables id req = .ok db') : ¬ Evidenced d.tables db' := by
  obtain ⟨r, row, hchecked, hresults, hevents, hrow⟩ := correct_written h
  obtain ⟨hfound, hlive⟩ := checkCorrect_ok hchecked
  obtain ⟨hmem, rfl⟩ := Tables.mem_of_result? hfound
  have hwritten : setStatus .superseded r ∈ db'.results := by
    rw [hresults]
    exact List.mem_append_left _ (Rows.mem_update.mpr (Or.inl ⟨r, hmem, rfl, rfl⟩))
  have hstatus : r.status ≠ .superseded := by
    intro hsuperseded
    rw [hsuperseded] at hlive
    cases hlive
  refine not_evidenced d.constraints.resultIds hmem hwritten rfl hstatus hevents ?_
  intro ev hev
  rw [List.mem_singleton.mp hev, hrow]
  -- the replacement has a key no row had before
  intro heq
  have hfresh : (correctedRow sha256Hex env d.tables r req).id ∉ d.tables.results.map (·.id) := nextSerial_notMem _
  rw [heq] at hfresh
  exact hfresh (List.mem_map_of_mem hmem)

theorem remedied?_status_ne {db : Tables} {checked : Dispute × Option DisputeOutcome} {r : ResultRow}
    {status : ResultStatus} (h : remedied? db checked = some (r, status)) : r.status ≠ status := by
  obtain ⟨-, hlive, hstatus⟩ := remedied?_eq_some h
  rcases hstatus with rfl | ⟨hdisputed, rfl | rfl⟩
  · intro hvoided
    rw [hvoided] at hlive
    cases hlive
  · simp [hdisputed]
  · simp [hdisputed]

theorem resolveDispute_not_evidenced {env : Env} {d : Database} {db' : Tables} {id : Int} {req : ResolveRequest}
    {response : ResolveResponse} (h : handleResolveDispute env d.tables id req = .ok (db', response))
    {checked : Dispute × Option DisputeOutcome} (hchecked : checkResolve env d.tables id req = .ok checked)
    (hremedy : remedied? d.tables checked ≠ none) : ¬ Evidenced d.tables db' := by
  obtain ⟨checked', hchecked', hresults, hevents⟩ := resolveDispute_written h
  obtain rfl : checked = checked' := Except.ok.inj (hchecked.symm.trans hchecked')
  obtain ⟨⟨r, status⟩, hwrite⟩ := Option.ne_none_iff_exists'.mp hremedy
  obtain ⟨hmem, -⟩ := Tables.mem_of_result? (remedied?_eq_some hwrite).1
  have hwritten : setStatus status r ∈ db'.results := by
    rw [hresults, remediedTables, hwrite]
    exact Rows.mem_update.mpr (Or.inl ⟨r, hmem, rfl, rfl⟩)
  refine not_evidenced d.constraints.resultIds hmem hwritten rfl (remedied?_status_ne hwrite)
    (hevents.trans (List.append_nil _).symm) ?_
  intro ev hev
  cases hev

/-! ### Steps and runs -/

/-- What a step owes to the evidence. -/
structure EvidenceKept (db db' : Tables) : Prop where
  evidenced : Evidenced db db'
  keeps : EvidenceMatches db → EvidenceMatches db'

theorem Untouched.kept {db db' : Tables} (h : Untouched db db') : EvidenceKept db db' :=
  ⟨h.evidenced, h.matches⟩

theorem StatusRecorded.kept {d : Database} {db' : Tables}
    (h : ∃ r f input row, StatusRecorded d.tables db' r f input row) : EvidenceKept d.tables db' := by
  obtain ⟨r, f, input, row, hrecorded⟩ := h
  exact ⟨hrecorded.evidenced d.constraints.resultIds, hrecorded.matches d.constraints.resultIds⟩

theorem RowRecorded.kept {db db' : Tables} (h : ∃ r input row, RowRecorded db db' r input row) :
    EvidenceKept db db' := by
  obtain ⟨r, input, row, hrecorded⟩ := h
  exact ⟨hrecorded.evidenced, hrecorded.matches⟩

/-- A request that leaves no gap records what it changes. -/
theorem kept_of_leavesNoGap {d : Database} {q : Request} {db' : Tables} (hop : q.op.onResults = true)
    (hgap : LeavesNoGap sha256Hex d q) (h : q.op.run sha256Hex q.env d.tables = some db') :
    EvidenceKept d.tables db' := by
  obtain ⟨env, op⟩ := q
  cases op with
  | submit req =>
      obtain ⟨⟨db'', response⟩, hrun, rfl⟩ := map_eq_ok.mp (toOption_eq_some.mp h)
      exact (submit_recorded hrun).elim Untouched.kept RowRecorded.kept
  | submitEC8A form => exact RowRecorded.kept (submitEC8A_recorded (toOption_eq_some.mp h))
  | ingest res =>
      obtain ⟨⟨outcome, id, db''⟩, hrun, rfl⟩ := map_eq_ok.mp (toOption_eq_some.mp h)
      exact (apply_recorded hrun).elim Untouched.kept RowRecorded.kept
  | validate id => exact StatusRecorded.kept (validate_recorded (toOption_eq_some.mp h))
  | finalize id => exact StatusRecorded.kept (finalize_recorded (toOption_eq_some.mp h))
  | dispute id reason => exact StatusRecorded.kept (dispute_recorded (toOption_eq_some.mp h))
  | correct id req =>
      rw [hgap.correction id req rfl] at h
      cases h
  | fileDispute req => exact (fileDispute_untouched (toOption_eq_some.mp h)).kept
  | resolveDispute id req =>
      obtain ⟨⟨db'', response⟩, hrun, rfl⟩ := map_eq_ok.mp (toOption_eq_some.mp h)
      obtain ⟨checked, hchecked, hresults, hevents⟩ := resolveDispute_written hrun
      rw [remediedTables, hgap.remedy id req checked rfl hchecked] at hresults
      exact Untouched.kept ⟨hresults, hevents⟩
  | createElection req => cases hop
  | createRerun parentId req => cases hop
  | assignStaff req => cases hop
  | transition electionId event actor => cases hop
  | declare electionId req => cases hop
  | other write frame => cases hop

/-- A request that is evidenced leaves no gap. -/
theorem leavesNoGap_of_evidenced {d : Database} {q : Request}
    (h : Evidenced d.tables (step sha256Hex d q).tables) : LeavesNoGap sha256Hex d q := by
  obtain ⟨env, op⟩ := q
  refine ⟨?_, ?_⟩
  · rintro id req rfl
    cases hrun : Op.run sha256Hex env d.tables (.correct id req) with
    | none => rfl
    | some db' =>
        rw [step_accepted hrun] at h
        exact absurd h (correct_not_evidenced (toOption_eq_some.mp hrun))
  · rintro id req checked rfl hchecked
    by_contra hremedy
    obtain ⟨db', response, hok⟩ : ∃ db' response, handleResolveDispute env d.tables id req =
        .ok (db', response) := by
      simp [handleResolveDispute, hchecked]
    have hrun : Op.run sha256Hex env d.tables (.resolveDispute id req) = some db' := by
      rw [Op.run, hok]
      rfl
    rw [step_accepted hrun] at h
    exact resolveDispute_not_evidenced hok hchecked hremedy h

theorem step_kept {d : Database} {q : Request} (hop : q.op.onResults = true)
    (hgap : LeavesNoGap sha256Hex d q) : EvidenceKept d.tables (step sha256Hex d q).tables := by
  rcases step_cases d q with hsame | hrun
  · rw [hsame]
    exact Untouched.kept ⟨rfl, rfl⟩
  · exact kept_of_leavesNoGap hop hgap hrun

/-- Along a run of result requests every status change is evidenced and the newest event of every result
reports its status, exactly when no request is an accepted correction or a remedy of a dispute. -/
theorem run_evidenced_iff (sha256Hex : String → String) (d : Database) (hd : EvidenceMatches d.tables)
    (requests : List Request) (hrequests : ∀ q ∈ requests, q.op.onResults = true) :
    (Runs.AllSteps (step sha256Hex) (fun d q => Evidenced d.tables (step sha256Hex d q).tables) d requests ∧
        ∀ d' ∈ Runs.visited (step sha256Hex) d requests, EvidenceMatches d'.tables) ↔
      Runs.AllSteps (step sha256Hex) (LeavesNoGap sha256Hex) d requests := by
  have hstep : ∀ (d : Database) (q : Request), q.op.onResults = true → EvidenceMatches d.tables →
      (Evidenced d.tables (step sha256Hex d q).tables ↔ LeavesNoGap sha256Hex d q) :=
    fun d q hop _ => ⟨leavesNoGap_of_evidenced, fun hgap => (step_kept hop hgap).evidenced⟩
  have hkeep : ∀ (d : Database) (q : Request), q.op.onResults = true → EvidenceMatches d.tables →
      LeavesNoGap sha256Hex d q → EvidenceMatches (step sha256Hex d q).tables :=
    fun d q hop hd hgap => (step_kept hop hgap).keeps hd
  exact Runs.allSteps_and_forall_visited_iff hstep hkeep hd hrequests

/-! ### A validated and an annulled result -/

/-- One unit in an election open for capture, without results. -/
def capturingPoll : Database where
  tables :=
    { Tables.empty with
      states := ["S-1"]
      pollingUnits := [⟨"PU-1", "W-1", 200⟩]
      wards := [⟨"W-1", "L-1"⟩]
      lgas := [⟨"L-1", "S-1"⟩]
      elections := [.bare 1 .gubernatorial .voting] }
  constraints := by decide

/-- The unit reports, and a second officer validates the report. -/
def submitAndValidate : List Request :=
  [⟨.plain 1 "officer" .admin 0, .submit ⟨1, "PU-1", [⟨"APC", 60⟩, ⟨"LP", 40⟩], 100, 0, true, "", ""⟩⟩,
    ⟨.plain 2 "clerk" .admin 0, .validate 1⟩]

/-- The result is disputed by petition, and the petition is resolved by annulment. -/
def petitionAndAnnul : List Request :=
  [⟨.plain 1 "chair" .admin 0, .fileDispute ⟨1, "PU-1", some 1, "overvoting", "more votes than voters"⟩⟩,
    ⟨.plain 1 "chair" .admin 0, .resolveDispute 1 ⟨.resolve, "annulled", "result_annulled", ""⟩⟩]

/-- A figure of the validated result is put right. -/
def correctFirst : Request :=
  ⟨.plain 1 "chair" .admin 0, .correct 1 ⟨[⟨"APC", 61⟩, ⟨"LP", 39⟩], 100, 0, "transposed figures", none⟩⟩

theorem run_evidenced_iff_validated :
    EvidenceMatches capturingPoll.tables ∧
      ∀ d' ∈ Runs.visited (step id) capturingPoll submitAndValidate, EvidenceMatches d'.tables := by
  have hstart : EvidenceMatches capturingPoll.tables := by
    intro r hr
    cases hr
  have hrequests : ∀ q ∈ submitAndValidate, q.op.onResults = true := by
    intro q hq
    rcases List.mem_pair.mp hq with rfl | rfl <;> rfl
  refine ⟨hstart, ((run_evidenced_iff id capturingPoll hstart submitAndValidate hrequests).mpr ⟨?_, ?_, trivial⟩).2⟩
  all_goals
    constructor
    · intro _ _ hop
      cases hop
    · intro _ _ _ hop
      cases hop

/-- The status of each result and the type of its newest lifecycle event. -/
def statusAndEvidence (db : Tables) : List (ResultStatus × Option String) :=
  db.results.map fun r => (r.status, (newestLifecycle db r.id).map (·.eventType))

theorem not_evidenceMatches {db : Tables} {status : ResultStatus} {eventType : String}
    (h : (status, some eventType) ∈ statusAndEvidence db) (hstatus : status ∉ lifecycleStatuses eventType) :
    ¬ EvidenceMatches db := by
  intro hmatches
  obtain ⟨r, hr, heq⟩ := List.mem_map.mp h
  obtain ⟨ev, hev, hreports⟩ := hmatches r hr
  rw [hev, Option.map_some, Prod.mk.injEq, Option.some.injEq] at heq
  rw [← heq.1, ← heq.2] at hstatus
  exact hstatus hreports.1

/-- The newest event of an annulled result still says that it is validated, and so does that of a corrected
one. -/
theorem annulled_result_reported_validated :
    (¬ ∀ (sha256Hex : String → String) (d : Database) (requests : List Request), EvidenceMatches d.tables →
      (∀ q ∈ requests, q.op.onResults = true) →
      Runs.AllSteps (step sha256Hex) (fun d q => Evidenced d.tables (step sha256Hex d q).tables) d requests ∧
        ∀ d' ∈ Runs.visited (step sha256Hex) d requests, EvidenceMatches d'.tables) ∧
    ¬ EvidenceMatches (Runs.final (step id) capturingPoll (submitAndValidate ++ [correctFirst])).tables := by
  constructor
  · intro h
    have hstart : EvidenceMatches capturingPoll.tables := by
      intro r hr
      cases hr
    have hannulled : statusAndEvidence (Runs.final (step id) capturingPoll
      (submitAndValidate ++ petitionAndAnnul)).tables =
        [(.voided, some "RESULT_VALIDATED")] := by decide +kernel
    have hrequests : ∀ q ∈ submitAndValidate ++ petitionAndAnnul, q.op.onResults = true := by
      intro q hq
      simp only [submitAndValidate, petitionAndAnnul, List.cons_append, List.nil_append, List.mem_cons,
        List.not_mem_nil, or_false] at hq
      rcases hq with rfl | rfl | rfl | rfl <;> rfl
    have hgap := not_evidenceMatches (hannulled ▸ List.mem_singleton_self _) (by decide)
    exact hgap ((h id capturingPoll _ hstart hrequests).2 _ (Runs.final_mem_visited _ _))
  · have hcorrected : statusAndEvidence (Runs.final (step id) capturingPoll
      (submitAndValidate ++ [correctFirst])).tables =
        [(.superseded, some "RESULT_VALIDATED"), (.pending, some "RESULT_CORRECTED")] := by decide +kernel
    apply not_evidenceMatches (hcorrected ▸ List.mem_cons_self)
    decide

end Inec
