import Inec.Ingestion.Queue
import Inec.Lib.Runs
import Inec.Results.Effects

/-!
# Separation of duties

The officer who submitted a result may not validate or finalize it, and neither may its validator finalize it.
The submitter is read from the row, and the validator from the audit log. The audit row is appended after the
validation has committed, under the text its path has for the id, and `dbReadQueryRow` looks for it on the
reader. The submitter of an ingested row is whoever the payload names.

The desk keeps beside the tables who really acted. Nothing the code does depends on that.
-/

namespace Inec

open Checks

variable (sha256Hex : String → String)

/-! ### Paths -/

/-- The `{id:[0-9]+}` of a route. -/
structure PathId where
  text : String
  routed : (digits? text.toList).isSome = true

/-- The number a path has for an id. One beyond 64 bits is the id of no row. -/
def pathValue (text : String) : Int := (atoi text).getD 0

def PathId.value (path : PathId) : Int := pathValue path.text

def handleValidateAt (env : Env) (db : Tables) (path : PathId) : Except HttpError Tables := do
  let checked ← checkValidate env db path.value
  recordReviewAs sha256Hex path.text env db checked.1 (markValidated env) (validatedEvent env checked.1 checked.2)
    "validation evidence could not be recorded: " "RESULT_VALIDATED"

/-- `seen` is how many rows of the audit log the reader has. -/
def handleFinalizeAt (env : Env) (seen : Nat) (db : Tables) (path : PathId) : Except HttpError Tables := do
  let checked ← checkFinalizeAfter (validatorNamed (db.auditLog.take seen) path.text) env db path.value
  recordReviewAs sha256Hex path.text env db checked.1 (markFinalized env) (finalizedEvent env checked.1 checked.2)
    "finalisation evidence could not be recorded: " "RESULT_FINALIZED"

/-! ### The desk -/

/-- Who acted on a result: the validator is that of the last validation. -/
structure Actors where
  submitter : Option Int
  validator : Option Int
  finalizer : Option Int
  deriving DecidableEq, Repr

/-- Three users, pairwise different. -/
def Actors.FourEyes (a : Actors) : Prop :=
  a.submitter.isSome = true ∧ a.validator.isSome = true ∧ a.finalizer.isSome = true ∧
    a.submitter ≠ a.validator ∧ a.submitter ≠ a.finalizer ∧ a.validator ≠ a.finalizer

instance (a : Actors) : Decidable a.FourEyes := inferInstanceAs (Decidable (_ ∧ _ ∧ _ ∧ _ ∧ _ ∧ _))

/-- A payload in the queue, and the user who handed it in. -/
structure Upload where
  user : Int
  offline : Bool
  payload : Payload

/-- The result that `processOfflineSync` or `processResultIngestion` applies. -/
def Upload.result? (upload : Upload) : Option IngestedResult := do
  let res ← (parseIngestedResult upload.payload).toOption
  if upload.offline then
    guard (textField upload.payload "sync_type" = SyncType.result.text)
    return { res with source := "offline_sync", sourceRef := textField upload.payload "device_id" }
  else return if res.source = "" then { res with source := "ingestion_api" } else res

structure Desk where
  tables : Tables
  waiting : List Upload
  actors : Int → Actors

/-- The validations in an audit log. -/
def validations (log : List AuditRow) : List AuditRow :=
  log.filter fun a => a.action == "RESULT_VALIDATED" && a.entityType == "result"

/-- The other requests, which write no validation. -/
def Op.direct : Op → Bool
  | .ingest _ => false
  | .validate _ => false
  | .finalize _ => false
  | .other _ _ => false
  | _ => true

def Op.inserts : Op → Bool
  | .submit _ => true
  | .submitEC8A _ => true
  | .correct _ _ => true
  | _ => false

/-- `sync` and `enqueue` put a payload into the queue, as `handleOfflineSync` and the other endpoints do. A worker
takes up any of them, any number of times. `capture` is a result from the device gateway, where no user is known. -/
inductive DeskAct
  | sync (batch : SyncBatch) (item : SyncItem)
  | enqueue (user : Int) (payload : Payload)
  | work (work : WorkEnv) (index : Nat)
  | capture (env : Env) (res : IngestedResult)
  | validate (env : Env) (path : PathId)
  | finalize (env : Env) (path : PathId) (seen : Nat)
  | request (env : Env) (op : Op) (direct : op.direct = true)
  | other (write : Tables → Tables) (frame : ∀ db, Tables.SameCore db (write db))
      (kept : ∀ db, validations (write db).auditLog = validations db.auditLog)

/-- The id the next result gets. -/
def Desk.nextResult (s : Desk) : Int := nextSerial (s.tables.results.map (·.id))

/-- A row that may have come in, from the user. -/
def Desk.submitted (s : Desk) (db' : Tables) (user : Option Int) : Desk :=
  { s with tables := db', actors := Function.update s.actors s.nextResult ⟨user, none, none⟩ }

def captured (res : IngestedResult) : IngestedResult := { res with submittedBy := 0, source := "device_gateway" }

def deskStep (s : Desk) : DeskAct → Desk
  | .sync batch item => { s with waiting := s.waiting ++ [⟨batch.userId, true, syncPayload batch item⟩] }
  | .enqueue user payload => { s with waiting := s.waiting ++ [⟨user, false, payload⟩] }
  | .work work index =>
      match s.waiting[index]? with
      | none => s
      | some upload =>
          match upload.result? with
          | none => s
          | some res => s.submitted (applyIngestedResult sha256Hex work s.tables res).1 (some upload.user)
  | .capture env res =>
      match applyResultTx sha256Hex env s.tables (captured res) with
      | .error _ => s
      | .ok (_, _, db') => s.submitted db' none
  | .validate env path =>
      match handleValidateAt sha256Hex env s.tables path with
      | .error _ => s
      | .ok db' =>
          { s with
            tables := db'
            actors := Function.update s.actors path.value
              { s.actors path.value with validator := some env.claims.userId } }
  | .finalize env path seen =>
      match handleFinalizeAt sha256Hex env seen s.tables path with
      | .error _ => s
      | .ok db' =>
          { s with
            tables := db'
            actors := Function.update s.actors path.value
              { s.actors path.value with finalizer := some env.claims.userId } }
  | .request env op _ =>
      match op.run sha256Hex env s.tables with
      | none => s
      | some db' => if op.inserts then s.submitted db' (some env.claims.userId) else { s with tables := db' }
  | .other write _ _ => { s with tables := write s.tables }

/-- Every finalized result has three pairwise different actors. -/
def Desk.FourEyes (s : Desk) : Prop := ∀ r ∈ s.tables.results, r.status = .finalized → (s.actors r.id).FourEyes

instance (s : Desk) : Decidable s.FourEyes := inferInstanceAs (Decidable (∀ r ∈ s.tables.results, _ → _))

/-- Nobody has handed in anything yet. -/
def Desk.opening (tables : Tables) : Desk := ⟨tables, [], fun _ => ⟨none, none, none⟩⟩

/-- The user the newest validation of a result names, however its path wrote the id. -/
def newestValidator (log : List AuditRow) (id : Int) : Option Int :=
  (((validations log).filter fun a => pathValue a.entityId == id).getLast?).map (·.userId)

/-- The actors are named in the records. A payload that is inserted names the user who handed it in, and none comes
from the gateway; users have a number; the audit row of a validation is written; and a finalization finds the newest
validation of its result by the text of its path, on the reader. -/
def NamesActors (s : Desk) : DeskAct → Prop
  | .work work index =>
      ∀ upload res, s.waiting[index]? = some upload → upload.result? = some res →
        (applyResultTx sha256Hex work.env s.tables res).toOption.isSome = true →
        liveResult? s.tables res.electionId res.pollingUnitCode = none → res.submittedBy =
          upload.user ∧ 0 < upload.user
  | .capture env res =>
      (applyResultTx sha256Hex env s.tables (captured res)).toOption.isSome = true →
        liveResult? s.tables res.electionId res.pollingUnitCode ≠ none
  | .validate env path =>
      (handleValidateAt sha256Hex env s.tables path).toOption.isSome = true →
        env.auditCommits = true ∧ env.claims.userId ≠ 0
  | .finalize env path seen =>
      (handleFinalizeAt sha256Hex env seen s.tables path).toOption.isSome = true →
        validatorNamed (s.tables.auditLog.take seen) path.text =
          (newestValidator s.tables.auditLog path.value).getD 0
  | .request env op _ => op.inserts = true → (op.run sha256Hex env s.tables).isSome = true → 0 < env.claims.userId
  | _ => True

variable {sha256Hex}

/-! ### What the other handlers append to the audit log -/

section Log

variable {env : Env} {db db' : Tables}

theorem validations_logAudit {action entityType entityId : String}
    (h : (action == "RESULT_VALIDATED" && entityType == "result") = false) :
    validations (logAudit env db action entityType entityId).auditLog = validations db.auditLog := by
  unfold logAudit
  split
  · rw [validations, List.filter_append, List.filter_singleton, h]
    exact List.append_nil _
  · rfl

theorem recordIntegrityEventTx_auditLog {input : IntegrityEventInput} {record : IntegrityEventRecord}
    (h : recordIntegrityEventTx sha256Hex env db input = .ok (db', record)) : db'.auditLog = db.auditLog := by
  obtain ⟨signing, rfl⟩ := recordIntegrityEventTx_row h
  rfl

theorem applyResultTx_auditLog {res : IngestedResult} {outcome : ApplyOutcome} {id : Int}
    (h : applyResultTx sha256Hex env db res = .ok (outcome, id, db')) : db'.auditLog = db.auditLog := by
  simp only [applyResultTx, bind_eq_ok] at h
  obtain ⟨_, _, h⟩ := h
  cases hlive : liveResult? db res.electionId res.pollingUnitCode with
  | some existing =>
      simp only [hlive, pure_eq_ok, Prod.mk.injEq] at h
      rw [← h.2.2]
  | none =>
      simp only [hlive, insertIngested, bind_eq_ok, pure_eq_ok, relabel_eq_ok, Prod.mk.injEq] at h
      obtain ⟨_, ⟨_, _, _, _, recorded, hrecorded, rfl⟩, _, _, rfl⟩ := h
      rw [recordIntegrityEventTx_auditLog hrecorded]
      rfl

theorem submit_validations {req : SubmitRequest} {response : SubmitResponse}
    (h : handleSubmitResult sha256Hex env db req = .ok (db', response)) :
    validations db'.auditLog = validations db.auditLog := by
  simp only [handleSubmitResult, bind_eq_ok] at h
  obtain ⟨_, _, _, _, h⟩ := h
  cases hreplay : replayed? db req.idempotencyKey with
  | some r =>
      simp only [hreplay, pure_eq_ok, Prod.mk.injEq] at h
      rw [h.1]
  | none =>
      simp only [hreplay, submitNew, bind_eq_ok, pure_eq_ok, relabel_eq_ok, Prod.mk.injEq] at h
      obtain ⟨_, _, ⟨outcome, id, applied⟩, happlied, _, _, rfl, _⟩ := h
      rw [validations_logAudit rfl, applyResultTx_auditLog happlied]

theorem recordReviewAs_validations {entityId : String} {r : ResultRow} {f : ResultRow → ResultRow}
    {event : IntegrityEventInput} {label action : String} (hother : (action == "RESULT_VALIDATED") = false)
    (h : recordReviewAs sha256Hex entityId env db r f event label action = .ok db') :
    validations db'.auditLog = validations db.auditLog := by
  simp only [recordReviewAs, bind_eq_ok, relabel_eq_ok, pure_eq_ok] at h
  obtain ⟨recorded, hrecorded, rfl⟩ := h
  rw [validations_logAudit (by rw [hother]; rfl), recordIntegrityEventTx_auditLog hrecorded]
  rfl

theorem resolveDispute_validations {id : Int} {req : ResolveRequest} {response : ResolveResponse}
    (h : handleResolveDispute env db id req = .ok (db', response)) :
    validations db'.auditLog = validations db.auditLog := by
  simp only [handleResolveDispute, bind_eq_ok, pure_eq_ok, Prod.mk.injEq] at h
  obtain ⟨checked, _, rfl, _⟩ := h
  have hremediate : validations (remediate env db checked).auditLog = validations db.auditLog := by
    unfold remediate
    split
    · rfl
    · dsimp only
      split
      · exact validations_logAudit rfl
      · rfl
  rw [validations_logAudit (by rw [show ("dispute" == "result") = false from rfl, Bool.and_false])]
  exact hremediate

theorem addScopeEntries_auditLog {child : Int} {entries : List ScopeEntry}
    (h : addScopeEntries env child db entries = .ok db') : db'.auditLog = db.auditLog := by
  obtain ⟨scopes, -, rfl⟩ := addScopeEntries_ok h
  rfl

/-- No other request writes a validation. -/
theorem run_validations {op : Op} (hdirect : op.direct = true) (h : op.run sha256Hex env db = some db') :
    validations db'.auditLog = validations db.auditLog := by
  cases op with
  | createElection req =>
      have hrun := toOption_eq_some.mp h
      simp only [handleCreateElection, bind_eq_ok, pure_eq_ok] at hrun
      obtain ⟨_, _, _, _, _, _, _, _, rfl⟩ := hrun
      exact validations_logAudit rfl
  | createRerun parentId req =>
      have hrun := toOption_eq_some.mp h
      simp only [handleCreateRerun, bind_eq_ok, pure_eq_ok] at hrun
      obtain ⟨_, _, covered, hcovered, rfl⟩ := hrun
      rw [validations_logAudit rfl, addScopeEntries_auditLog hcovered]
      rfl
  | assignStaff req =>
      have hrun := toOption_eq_some.mp h
      simp only [handleAssignStaff, bind_eq_ok, pure_eq_ok] at hrun
      obtain ⟨_, _, rfl⟩ := hrun
      rw [validations_logAudit rfl]
      split <;> rfl
  | transition electionId event actor =>
      obtain ⟨_, _, _, _, _, _, _, rfl⟩ := transitionElection_ok.mp (toOption_eq_some.mp h)
      rfl
  | declare electionId req =>
      have hrun := toOption_eq_some.mp h
      simp only [handleDeclareResult, bind_eq_ok, pure_eq_ok] at hrun
      obtain ⟨_, _, _, _, rfl⟩ := hrun
      exact validations_logAudit rfl
  | submit req =>
      obtain ⟨⟨db'', response⟩, hrun, rfl⟩ := map_eq_ok.mp (toOption_eq_some.mp h)
      exact submit_validations hrun
  | submitEC8A form =>
      have hrun := toOption_eq_some.mp h
      simp only [handleSubmitEC8A, bind_eq_ok, relabel_eq_ok, pure_eq_ok] at hrun
      obtain ⟨_, _, _, _, _, _, recorded, hrecorded, rfl⟩ := hrun
      rw [validations_logAudit rfl, recordIntegrityEventTx_auditLog hrecorded]
      rfl
  | dispute id reason =>
      have hrun := toOption_eq_some.mp h
      simp only [handleDisputeResult, bind_eq_ok] at hrun
      obtain ⟨_, _, hrecord⟩ := hrun
      exact recordReviewAs_validations rfl hrecord
  | correct id req =>
      have hrun := toOption_eq_some.mp h
      simp only [handleCorrectResult, bind_eq_ok, relabel_eq_ok, pure_eq_ok] at hrun
      obtain ⟨_, _, _, _, recorded, hrecorded, rfl⟩ := hrun
      rw [validations_logAudit rfl, recordIntegrityEventTx_auditLog hrecorded]
      rfl
  | fileDispute req =>
      have hrun := toOption_eq_some.mp h
      simp only [handleFileDispute, bind_eq_ok, pure_eq_ok] at hrun
      obtain ⟨_, _, _, _, _, _, _, _, _, _, rfl⟩ := hrun
      rfl
  | resolveDispute id req =>
      obtain ⟨⟨db'', response⟩, hrun, rfl⟩ := map_eq_ok.mp (toOption_eq_some.mp h)
      exact resolveDispute_validations hrun
  | ingest res => cases hdirect
  | validate id => cases hdirect
  | finalize id => cases hdirect
  | other write frame => cases hdirect

end Log

/-! ### What the records tell -/

/-- A row whose actors are on record: `named` is the validator the audit log names. -/
structure OnRecord (a : Actors) (named : Option Int) (r : ResultRow) : Prop where
  submitter : a.submitter.isSome = true ∧ r.presidingOfficerId = a.submitter
  timed : r.status = .validated → r.validatedAt.isSome = true
  validator : r.validatedAt.isSome = true →
    ∃ v, v ≠ 0 ∧ a.validator = some v ∧ named = some v ∧ a.submitter ≠ some v
  finalized : r.status = .finalized → a.FourEyes

theorem OnRecord.setStatus {a : Actors} {named : Option Int} {r : ResultRow} (h : OnRecord a named r)
    {status : ResultStatus} (hvalidated : status = .validated → r.validatedAt.isSome = true)
    (hfinal : status ≠ .finalized) : OnRecord a named (setStatus status r) where
  submitter := h.submitter
  timed := hvalidated
  validator := h.validator
  finalized := fun hstatus => absurd hstatus hfinal

/-- The row as it comes in from a user. -/
structure NewFrom (user : Int) (row : ResultRow) : Prop where
  submitter : row.presidingOfficerId = some user
  unvalidated : row.validatedAt = none
  status : row.status = .pending ∨ row.status = .disputed

theorem NewFrom.onRecord {user : Int} {row : ResultRow} (h : NewFrom user row) (named : Option Int) :
    OnRecord ⟨some user, none, none⟩ named row := by
  have hstatus : row.status ≠ .validated ∧ row.status ≠ .finalized := by
    rcases h.status with hpending | hdisputed
    · rw [hpending]
      decide
    · rw [hdisputed]
      decide
  refine ⟨⟨rfl, h.submitter⟩, fun hvalidated => absurd hvalidated hstatus.1, ?_,
    fun hfinal => absurd hfinal hstatus.2⟩
  intro hat
  rw [h.unvalidated] at hat
  cases hat

structure Desk.Kept (s : Desk) : Prop where
  ids : (s.tables.results.map (·.id)).Nodup
  rows : ∀ r ∈ s.tables.results, OnRecord (s.actors r.id) (newestValidator s.tables.auditLog r.id) r

theorem newestValidator_congr {log log' : List AuditRow} (h : validations log' = validations log) (id : Int) :
    newestValidator log' id = newestValidator log id := by
  rw [newestValidator, h, newestValidator]

section Kept

variable {s : Desk} {db' : Tables}

theorem Desk.Kept.fourEyes (h : s.Kept) : s.FourEyes := fun r hr => (h.rows r hr).finalized

@[simp] theorem Desk.submitted_tables (s : Desk) (db' : Tables) (user : Option Int) :
    (s.submitted db' user).tables = db' := rfl

theorem Desk.submitted_actors_new (s : Desk) (db' : Tables) (user : Option Int) :
    (s.submitted db' user).actors s.nextResult = ⟨user, none, none⟩ := Function.update_self ..

theorem Desk.submitted_actors_old {r : ResultRow} (hr : r ∈ s.tables.results) (user : Option Int) :
    (s.submitted db' user).actors r.id = s.actors r.id := by
  have hne : r.id ≠ s.nextResult := by
    intro heq
    have hmem : r.id ∈ s.tables.results.map (·.id) := List.mem_map_of_mem hr
    rw [heq] at hmem
    exact nextSerial_notMem _ hmem
  exact Function.update_of_ne hne ..

/-- The rows are written, but their actors stay. -/
theorem Desk.Kept.rewritten (h : s.Kept) (hlog : validations db'.auditLog = validations s.tables.auditLog)
    (hids : db'.results.map (·.id) = s.tables.results.map (·.id))
    (hrows : ∀ r ∈ db'.results, OnRecord (s.actors r.id) (newestValidator s.tables.auditLog r.id) r) :
    Desk.Kept { s with tables := db' } := by
  refine ⟨?_, ?_⟩
  · rw [hids]
    exact h.ids
  · intro r hr
    rw [newestValidator_congr hlog]
    exact hrows r hr

/-- One row gets another status. -/
theorem Desk.Kept.restatused (h : s.Kept) (hlog : validations db'.auditLog = validations s.tables.auditLog)
    {r : ResultRow} (hr : r ∈ s.tables.results) {status : ResultStatus}
    (hresults : db'.results = (s.tables.updateResult r.id (setStatus status)).results)
    (hvalidated : status = .validated → r.validatedAt.isSome = true) (hfinal : status ≠ .finalized) :
    Desk.Kept { s with tables := db' } := by
  apply h.rewritten hlog
  · rw [hresults]
    exact Rows.map_update fun _ _ _ => rfl
  · intro r' hr'
    rw [hresults] at hr'
    rcases Rows.mem_update.mp hr' with ⟨old, hold, hid, rfl⟩ | ⟨hold, -⟩
    · have heq : old = r := Rows.eq_of_key_eq h.ids hold hr hid
      rw [heq]
      exact (h.rows r hr).setStatus hvalidated hfinal
    · exact h.rows r' hold

/-- A submission that inserts nothing. -/
theorem Desk.Kept.unchanged (h : s.Kept) (hlog : validations db'.auditLog = validations s.tables.auditLog)
    (hresults : db'.results = s.tables.results) (user : Option Int) : (s.submitted db' user).Kept := by
  refine ⟨?_, ?_⟩
  · rw [Desk.submitted_tables, hresults]
    exact h.ids
  · intro r hr
    rw [Desk.submitted_tables, hresults] at hr
    rw [Desk.submitted_actors_old hr, Desk.submitted_tables, newestValidator_congr hlog]
    exact h.rows r hr

/-- A submission that inserts a row, next to rows that are as before or superseded. -/
theorem Desk.Kept.inserted (h : s.Kept) (hlog : validations db'.auditLog = validations s.tables.auditLog)
    {rows : List ResultRow} {row : ResultRow} {user : Int} (hids : rows.map (·.id) = s.tables.results.map (·.id))
    (hrows : ∀ r ∈ rows, ∃ old ∈ s.tables.results, r = old ∨ r = setStatus .superseded old)
    (hid : row.id = s.nextResult) (hnew : NewFrom user row) (hresults : db'.results = rows ++ [row]) :
    (s.submitted db' (some user)).Kept := by
  refine ⟨?_, ?_⟩
  · rw [Desk.submitted_tables, hresults, List.map_append, List.map_singleton, List.nodup_append_comm, hids, hid]
    exact List.nodup_cons.mpr ⟨nextSerial_notMem _, h.ids⟩
  · intro r hr
    rw [Desk.submitted_tables, newestValidator_congr hlog]
    rw [Desk.submitted_tables, hresults] at hr
    rcases List.mem_append.mp hr with hr | hr
    · obtain ⟨old, hold, rfl | rfl⟩ := hrows r hr
      · rw [Desk.submitted_actors_old hold]
        exact h.rows r hold
      · rw [show (setStatus .superseded old).id = old.id from rfl, Desk.submitted_actors_old hold]
        exact (h.rows old hold).setStatus (fun hne => (nomatch hne)) (by decide)
    · obtain rfl := List.mem_singleton.mp hr
      rw [hid, Desk.submitted_actors_new]
      exact hnew.onRecord _

end Kept

/-! ### The steps -/

section Steps

variable {s : Desk} {db' : Tables} {env : Env}

theorem nullIntArg_of_pos {n : Int} (h : 0 < n) : nullIntArg n = some n := if_neg (by omega)

theorem newFrom_ingested {db : Tables} {res : IngestedResult} {user : Int} (h : res.submittedBy = user ∧ 0 < user) :
    NewFrom user (ingestedRow sha256Hex db res) where
  submitter := by
    rw [ingestedRow, h.1, nullIntArg_of_pos h.2]
  unvalidated := rfl
  status := initialStatus_cases res.overrideReason

theorem Inserts.inserts {db base : Tables} {op : Op} {row : ResultRow} {scores : List PartyVoteEntry}
    (h : Inserts sha256Hex env db op base row scores) (hdirect : op.direct = true) : op.inserts = true := by
  cases h with
  | ingested => cases hdirect
  | submitted => rfl
  | form => rfl
  | corrected => rfl

theorem Inserts.newFrom {db base : Tables} {op : Op} {row : ResultRow} {scores : List PartyVoteEntry}
    (h : Inserts sha256Hex env db op base row scores) (hdirect : op.direct = true) (huser : 0 < env.claims.userId) :
    NewFrom env.claims.userId row := by
  obtain ⟨hstatus, hunvalidated⟩ := h.unreviewed
  refine ⟨?_, hunvalidated, hstatus⟩
  cases h with
  | ingested => cases hdirect
  | submitted => exact nullIntArg_of_pos huser
  | form => exact nullIntArg_of_pos huser
  | corrected => rfl

/-- What a direct request marks keeps its actors. -/
theorem Desk.Kept.marked (h : s.Kept) {op : Op} {r : ResultRow} {f : ResultRow → ResultRow}
    (hdirect : op.direct = true) (hlog : validations db'.auditLog = validations s.tables.auditLog)
    (mark : Marks env s.tables op r f) (hresults : db'.results = (s.tables.updateResult r.id f).results) :
    op.inserts = false ∧ Desk.Kept { s with tables := db' } := by
  cases mark with
  | validated => cases hdirect
  | finalized => cases hdirect
  | disputed checked =>
      have hr := (Tables.mem_of_result? (checkDispute_ok checked).1).1
      exact ⟨rfl, h.restatused hlog hr hresults (fun hne => (nomatch hne)) (by decide)⟩
  | @remedied id req checked _ status accepted remedy =>
      obtain ⟨hfound, -, hstatus⟩ := remedied?_cases remedy
      have hr := (Tables.mem_of_result? hfound).1
      refine ⟨rfl, h.restatused hlog hr hresults ?_ ?_⟩
      · intro hvalidated
        rcases hstatus with ⟨rfl, -⟩ | ⟨-, -, hrestored⟩
        · cases hvalidated
        · rw [hrestored, restoredStatus] at hvalidated
          by_contra hnone
          rw [if_neg hnone] at hvalidated
          cases hvalidated
      · rcases hstatus with ⟨rfl, -⟩ | ⟨-, -, rfl⟩
        · decide
        · unfold restoredStatus
          split <;> decide

theorem Desk.Kept.request (h : s.Kept) {op : Op} (hdirect : op.direct = true)
    (hrun : op.run sha256Hex env s.tables = some db') (huser : op.inserts = true → 0 < env.claims.userId) :
    (if op.inserts then s.submitted db' (some env.claims.userId) else { s with tables := db' }).Kept := by
  have hlog := run_validations hdirect hrun
  cases run_resultEffect hrun with
  | kept results =>
      split
      · exact h.unchanged hlog results _
      · apply h.rewritten hlog (by rw [results])
        intro r hr
        exact h.rows r (results ▸ hr)
  | inserted insertion core =>
      have hinserts := insertion.inserts hdirect
      have hnew := insertion.newFrom hdirect (huser hinserts)
      rw [if_pos hinserts]
      exact h.inserted hlog insertion.base_rows.2.1 insertion.base_old insertion.id_eq hnew core.results
  | marked mark core =>
      obtain ⟨hinserts, hkept⟩ := h.marked hdirect hlog mark core.results
      rw [hinserts]
      exact hkept

theorem applyIngestedResult_validations {work : WorkEnv} {db : Tables} {res : IngestedResult} :
    validations (applyIngestedResult sha256Hex work db res).1.auditLog = validations db.auditLog := by
  unfold applyIngestedResult
  cases happly : applyResultTx sha256Hex work.env db res with
  | error err => rfl
  | ok applied =>
      obtain ⟨outcome, id, db'⟩ := applied
      have hlog := applyResultTx_auditLog happly
      dsimp only
      cases work.commit with
      | unreachable => rfl
      | lost => rw [hlog]
      | answered =>
          cases outcome with
          | applied => rw [validations_logAudit rfl, hlog]
          | duplicate => rw [hlog]
          | conflict => rw [validations_logAudit rfl, hlog]

/-- A job leaves the results as they are, or applies its payload. -/
theorem applyIngestedResult_results {work : WorkEnv} {db : Tables} {res : IngestedResult} :
    (applyIngestedResult sha256Hex work db res).1.results = db.results ∨
      ∃ outcome id db', applyResultTx sha256Hex work.env db res = .ok (outcome, id, db') ∧
        (applyIngestedResult sha256Hex work db res).1.results = db'.results := by
  unfold applyIngestedResult
  cases happly : applyResultTx sha256Hex work.env db res with
  | error err => exact Or.inl rfl
  | ok applied =>
      obtain ⟨outcome, id, db'⟩ := applied
      dsimp only
      cases work.commit with
      | unreachable => exact Or.inl rfl
      | lost => exact Or.inr ⟨outcome, id, db', rfl, rfl⟩
      | answered =>
          refine Or.inr ⟨outcome, id, db', rfl, ?_⟩
          cases outcome with
          | applied => exact (logAudit_sameCore ..).results
          | duplicate => rfl
          | conflict => exact (logAudit_sameCore ..).results

theorem Desk.Kept.work (h : s.Kept) {work : WorkEnv} {index : Nat}
    (hcond : NamesActors sha256Hex s (.work work index)) :
    (deskStep sha256Hex s (.work work index)).Kept := by
  simp only [deskStep]
  split
  · exact h
  · rename_i upload hupload
    split
    · exact h
    · rename_i res hres
      have hlog := @applyIngestedResult_validations sha256Hex work s.tables res
      rcases @applyIngestedResult_results sha256Hex work s.tables res with hsame | ⟨outcome, id,
        db', happly, hresults⟩
      · exact h.unchanged hlog hsame _
      · obtain ⟨-, rfl | ⟨hvacant, hcore⟩⟩ := applyResultTx_inserts happly
        · exact h.unchanged hlog hresults _
        · have hnamed := hcond upload res hupload hres (by rw [happly]; rfl) hvacant
          have hadded := hresults.trans hcore.results
          exact h.inserted hlog rfl (fun r hr => ⟨r, hr, Or.inl rfl⟩) rfl (newFrom_ingested hnamed) hadded

theorem Desk.Kept.capture (h : s.Kept) {res : IngestedResult} (hcond : NamesActors sha256Hex s (.capture env res)) :
    (deskStep sha256Hex s (.capture env res)).Kept := by
  simp only [deskStep]
  split
  · exact h
  · rename_i happly
    have hoccupied := hcond (by rw [happly]; rfl)
    have hlog := applyResultTx_auditLog happly
    obtain ⟨-, rfl | ⟨hvacant, -⟩⟩ := applyResultTx_inserts happly
    · exact h.unchanged rfl rfl _
    · exact absurd hvacant hoccupied

/-! ### Validation and finalization -/

theorem newestValidator_append {log log' : List AuditRow} {row : AuditRow}
    (h : validations log' = validations log ++ [row]) (id : Int) :
    newestValidator log' id = if pathValue row.entityId = id then some row.userId else newestValidator log id := by
  rw [newestValidator, h, List.filter_append, List.filter_singleton]
  by_cases hid : pathValue row.entityId = id
  · rw [if_pos hid, beq_iff_eq.mpr hid]
    exact congrArg _ List.getLast?_concat
  · rw [if_neg hid, beq_eq_false_iff_ne.mpr hid]
    exact congrArg _ (congrArg _ (List.append_nil _))

theorem checkValidate_submitter {db : Tables} {id : Int} {checked : ResultRow × Int}
    (h : checkValidate env db id = .ok checked) : checked.1.presidingOfficerId ≠ some env.claims.userId := by
  simp only [checkValidate, bind_eq_ok, fetch_eq_ok, require_eq_ok, pure_eq_ok] at h
  obtain ⟨_, _, _, _, r, _, _, _, _, hsubmitter, _, _, _, _, _, _, rfl⟩ := h
  exact bne_iff_ne.mp hsubmitter

theorem recordReviewAs_validated {entityId : String} {db : Tables} {r : ResultRow} {f : ResultRow → ResultRow}
    {event : IntegrityEventInput} {label : String} (haudit : env.auditCommits = true)
    (h : recordReviewAs sha256Hex entityId env db r f event label "RESULT_VALIDATED" = .ok db') :
    validations db'.auditLog =
      validations db.auditLog ++ [⟨"RESULT_VALIDATED", "result", entityId, env.claims.userId, env.now⟩] := by
  simp only [recordReviewAs, bind_eq_ok, relabel_eq_ok, pure_eq_ok] at h
  obtain ⟨recorded, hrecorded, rfl⟩ := h
  rw [logAudit, if_pos haudit]
  dsimp only
  rw [validations, List.filter_append, recordIntegrityEventTx_auditLog hrecorded]
  rfl

/-- A review writes one row and its actors. -/
theorem Desk.Kept.acted (h : s.Kept) {r : ResultRow} (hr : r ∈ s.tables.results) {id : Int} (hid : r.id = id)
    {f : ResultRow → ResultRow} (hresults : db'.results = (s.tables.updateResult r.id f).results)
    (hf : ∀ row, (f row).id = row.id) {a : Actors}
    (hlog : ∀ other, other ≠ id → newestValidator db'.auditLog other = newestValidator s.tables.auditLog other)
    (hrow : OnRecord a (newestValidator db'.auditLog id) (f r)) :
    Desk.Kept { s with tables := db', actors := Function.update s.actors id a } := by
  subst hid
  refine ⟨?_, ?_⟩
  · have hids : db'.results.map (·.id) = s.tables.results.map (·.id) := by
      rw [hresults]
      exact Rows.map_update fun row _ _ => hf row
    rw [hids]
    exact h.ids
  · intro r' hr'
    rw [hresults] at hr'
    dsimp only
    rcases Rows.mem_update.mp hr' with ⟨old, hold, hsame, rfl⟩ | ⟨hold, hne⟩
    · obtain rfl : old = r := Rows.eq_of_key_eq h.ids hold hr hsame
      rw [hf, Function.update_self]
      exact hrow
    · rw [Function.update_of_ne hne, hlog r'.id hne]
      exact h.rows r' hold

theorem Desk.Kept.validate (h : s.Kept) {path : PathId} (hcond : NamesActors sha256Hex s (.validate env path)) :
    (deskStep sha256Hex s (.validate env path)).Kept := by
  simp only [deskStep]
  split
  · exact h
  · rename_i db' hvalidate
    obtain ⟨haudit, huser⟩ := hcond (by rw [hvalidate]; rfl)
    simp only [handleValidateAt, bind_eq_ok] at hvalidate
    obtain ⟨⟨r, policyId⟩, hchecked, hrecord⟩ := hvalidate
    obtain ⟨hr, hid⟩ := Tables.mem_of_result? (checkValidate_ok hchecked).1
    have hnewest := newestValidator_append (recordReviewAs_validated haudit hrecord)
    have hnamed : newestValidator db'.auditLog path.value = some env.claims.userId :=
      (hnewest path.value).trans (if_pos rfl)
    refine h.acted hr hid (recordReviewAs_ok hrecord).results (fun _ => rfl) ?_ ?_
    · intro other hne
      exact (hnewest other).trans (if_neg fun heq => hne heq.symm)
    · have hold := h.rows r hr
      rw [hid] at hold
      refine ⟨hold.submitter, fun _ => rfl, fun _ => ?_, (by intro hne; cases hne)⟩
      refine ⟨env.claims.userId, huser, rfl, hnamed, ?_⟩
      rw [← hold.submitter.2]
      exact checkValidate_submitter hchecked

theorem Desk.Kept.finalize (h : s.Kept) {path : PathId} {seen : Nat}
    (hcond : NamesActors sha256Hex s (.finalize env path seen)) :
    (deskStep sha256Hex s (.finalize env path seen)).Kept := by
  simp only [deskStep]
  split
  · exact h
  · rename_i db' hfinalize
    have hfinds := hcond (by rw [hfinalize]; rfl)
    simp only [handleFinalizeAt, bind_eq_ok] at hfinalize
    obtain ⟨⟨r, policyId⟩, hchecked, hrecord⟩ := hfinalize
    obtain ⟨hfound, hvalidated, hsubmitter, hvalidator⟩ := checkFinalizeAfter_ok hchecked
    obtain ⟨hr, hid⟩ := Tables.mem_of_result? hfound
    have hnewest := newestValidator_congr (recordReviewAs_validations rfl hrecord)
    refine h.acted hr hid (recordReviewAs_ok hrecord).results (fun _ => rfl) (fun other _ => hnewest other) ?_
    have hold := h.rows r hr
    rw [hid] at hold
    obtain ⟨v, hv, hactor, hnamed, hdiffers⟩ := hold.validator (hold.timed hvalidated)
    rw [hfinds, hnamed] at hvalidator
    refine ⟨hold.submitter, (by intro hne; cases hne), fun _ => ?_, fun _ => ?_⟩
    · exact ⟨v, hv, hactor, (hnewest _).trans hnamed, hdiffers⟩
    · refine ⟨hold.submitter.1, by rw [hactor]; rfl, rfl, hactor ▸ hdiffers, ?_, ?_⟩
      · rw [← hold.submitter.2]
        exact hsubmitter
      · rw [hactor]
        exact fun heq => hvalidator hv (Option.some.inj heq)

end Steps

theorem deskStep_kept (s : Desk) (act : DeskAct) (h : s.Kept) (hcond : NamesActors sha256Hex s act) :
    (deskStep sha256Hex s act).Kept := by
  cases act with
  | sync batch item => exact ⟨h.ids, h.rows⟩
  | enqueue user payload => exact ⟨h.ids, h.rows⟩
  | work work index => exact h.work hcond
  | capture env res => exact h.capture hcond
  | validate env path => exact h.validate hcond
  | finalize env path seen => exact h.finalize hcond
  | request env op direct =>
      simp only [deskStep]
      split
      · exact h
      · rename_i db' hrun
        exact h.request direct hrun fun hinserts => hcond hinserts (by rw [hrun]; rfl)
  | other write frame kept =>
      apply h.rewritten (kept s.tables)
      · rw [(frame s.tables).results]
      · intro r hr
        exact h.rows r ((frame s.tables).results ▸ hr)

/-- In every run whose records name the actors, each finalized result was submitted, validated and finalized by
three pairwise different users. -/
theorem fourEyes_of_namesActors {start : Tables} (hnone : NoResults start) {acts : List DeskAct}
    (hnames : Runs.AllSteps (deskStep sha256Hex) (NamesActors sha256Hex) (.opening start) acts) :
    ∀ s ∈ Runs.visited (deskStep sha256Hex) (.opening start) acts, s.FourEyes := by
  have hstart : (Desk.opening start).Kept := by
    refine ⟨?_, ?_⟩
    · rw [Desk.opening, hnone.1]
      exact List.nodup_nil
    · intro r hr
      rw [Desk.opening, hnone.1] at hr
      cases hr
  intro s hs
  exact (Runs.forall_visited deskStep_kept hstart hnames s hs).fourEyes

/-! ### One user twice -/

section Twice

def firstResult : PathId := ⟨"1", by decide⟩

def deviceBatch (user : Int) : SyncBatch := ⟨"BVAS-1", .result, user, "2027-02-20T12:00:00Z", fun _ => .ok ()⟩

/-- A capture of the one unit, with whatever else the device adds. -/
def unitCapture (rest : Payload) : SyncItem :=
  ⟨some ([("election_id", .number (.ofInt 1)), ("polling_unit_code", .str "PU-1"),
    ("accredited_voters", .number (.ofInt 100)), ("party_scores",
      .arr [.obj [("party_code", .str "APC"), ("votes", .number (.ofInt 60))]])] ++ rest), "", ""⟩

def syncedCapture (user : Int) (rest : Payload) : DeskAct := .sync (deviceBatch user) (unitCapture rest)

def worker : WorkEnv where
  env := .plain 0 "worker" .admin 0
  queueRow := true
  commit := .answered
  applyOther := .ok ()
  children := .answered
  formatV _ := ""
  lettered := true
  recorded := true

def validatesAs (user : Int) (audited : Bool) : DeskAct :=
  .validate { Env.plain user "validator" .admin 0 with auditCommits := audited } firstResult

def finalizesAs (user : Int) (path : PathId) (seen : Nat) : DeskAct :=
  .finalize (.plain user "finalizer" .admin 0) path seen

/-- The run from the open poll, and where it ends. -/
def deskAfter (acts : List DeskAct) : Desk := Runs.final (deskStep id) (.opening votingPoll.tables) acts

theorem fourEyes_of_three_officers :
    NoResults votingPoll.tables ∧
      ((deskAfter [syncedCapture 7 [], .work worker 0, validatesAs 2 true, finalizesAs 3 firstResult 9]).actors 1) =
        ⟨some 7, some 2, some 3⟩ ∧
      ∀ s ∈ Runs.visited (deskStep id) (.opening votingPoll.tables)
        [syncedCapture 7 [], .work worker 0, validatesAs 2 true, finalizesAs 3 firstResult 9], s.FourEyes := by
  refine ⟨by decide, by decide +kernel, ?_⟩
  apply fourEyes_of_namesActors (by decide)
  refine ⟨trivial, ?_, fun _ => ⟨rfl, by decide⟩, fun _ => by decide +kernel, trivial⟩
  intro upload res hupload hres _ _
  obtain rfl := Option.some.inj hupload
  have hnamed : (Upload.result? ⟨(deviceBatch 7).userId, true, syncPayload (deviceBatch 7) (unitCapture [])⟩).map
      (·.submittedBy) = some 7 := by
    decide +kernel
  rw [hres] at hnamed
  exact ⟨Option.some.inj hnamed, by decide⟩

/-- The officer who submits validates when the payload names somebody else; and the validator finalizes when the
audit row was not written, when the path has the id in another spelling, and when the reader is behind. -/
theorem one_user_twice :
    NoResults votingPoll.tables ∧
      ¬(deskAfter [syncedCapture 7 [("submitted_by", .number (.ofInt 9))], .work worker 0, validatesAs 7 true,
        finalizesAs 3 firstResult 9]).FourEyes ∧
      ¬(deskAfter [syncedCapture 7 [], .work worker 0, validatesAs 2 false, finalizesAs 2 firstResult 9]).FourEyes ∧
      ¬(deskAfter [syncedCapture 7 [], .work worker 0, validatesAs 2 true,
        finalizesAs 2 ⟨"01", by decide⟩ 9]).FourEyes ∧
      ¬(deskAfter [syncedCapture 7 [], .work worker 0, validatesAs 2 true,
        finalizesAs 2 firstResult 0]).FourEyes := by
  refine ⟨by decide, ?_, ?_, ?_, ?_⟩
  · decide +kernel
  · decide +kernel
  · decide +kernel
  · decide +kernel

end Twice

end Inec
