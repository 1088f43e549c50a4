import Inec.Election.Create
import Inec.Election.Lifecycle
import Inec.Declaration.Declare
import Inec.Results.Disputes

/-!
# The system

The backend as a machine over the database: a request runs one handler in the environment it finds, and
a refused request changes nothing. Handlers lock the rows they read before they write them, so a
concurrent history is a sequence of requests.

`Effect` says once what a request can do to the tables elections and collation are computed from. Every
invariant of the runs is proved from it, never from a handler.
-/

namespace Inec

open Checks

/-- The requests. `other` is any further write that leaves the core tables alone: the reconciliation,
evidence and policy handlers are of that kind. -/
inductive Op
  | createElection (req : ElectionCreate)
  | createRerun (parentId : Int) (req : RerunRequest)
  | assignStaff (req : AssignStaffRequest)
  | transition (electionId : Int) (event : ElectionEvent) (actor : String)
  | declare (electionId : Int) (req : DeclareRequest)
  | submit (req : SubmitRequest)
  | submitEC8A (form : FormEC8A)
  | ingest (res : IngestedResult)
  | validate (id : Int)
  | finalize (id : Int)
  | dispute (id : Int) (reason : String)
  | correct (id : Int) (req : CorrectRequest)
  | fileDispute (req : FileDisputeRequest)
  | resolveDispute (id : Int) (req : ResolveRequest)
  | other (write : Tables → Tables) (frame : ∀ db, Tables.SameCore db (write db))

/-- The two requests that move an election. -/
def Op.isLifecycle : Op → Bool
  | .transition _ _ _ => true
  | .declare _ _ => true
  | _ => false

/-- The requests that write elections. All others are about results and what surrounds them. -/
def Op.onElections : Op → Bool
  | .createElection _ => true
  | .createRerun _ _ => true
  | .transition _ _ _ => true
  | .declare _ _ => true
  | _ => false

structure Request where
  env : Env
  op : Op

variable (sha256Hex : String → String)

/-- The tables after a request that is accepted. -/
def Op.run (env : Env) (db : Tables) : Op → Option Tables
  | .createElection req => (handleCreateElection env db req).toOption
  | .createRerun parentId req => (handleCreateRerun env db parentId req).toOption
  | .assignStaff req => (handleAssignStaff env db req).toOption
  | .transition electionId event actor => (transitionElection env db electionId event actor).toOption
  | .declare electionId req => (handleDeclareResult env db electionId req).toOption
  | .submit req => ((handleSubmitResult sha256Hex env db req).map (·.1)).toOption
  | .submitEC8A form => (handleSubmitEC8A sha256Hex env db form).toOption
  | .ingest res => ((applyResultTx sha256Hex env db res).map (·.2.2)).toOption
  | .validate id => (handleValidateResult sha256Hex env db id).toOption
  | .finalize id => (handleFinalizeResult sha256Hex env db id).toOption
  | .dispute id reason => (handleDisputeResult sha256Hex env db id reason).toOption
  | .correct id req => (handleCorrectResult sha256Hex env db id req).toOption
  | .fileDispute req => (handleFileDispute env db req).toOption
  | .resolveDispute id req => ((handleResolveDispute env db id req).map (·.1)).toOption
  | .other write _ => some (write db)

/-! ### What a request can do -/

/-- A new election and the areas it covers. -/
structure Creation (db db' : Tables) (e : Election) (scopes : List RerunScope) : Prop where
  id : e.id = nextSerial (db.elections.map (·.id))
  status : e.status ∈ creatableStates
  parent : ∀ p, e.parentElectionId = some p → ∃ parent, db.election? p = some parent
  undeclared : e.declaredAt = none ∧ e.winnerPayload = none
  covers : ∀ s ∈ scopes, s.electionId = e.id
  core : Tables.SameCore ((db.addElection e).addScopes scopes) db'

/-- An election takes one entry of the transition table. -/
structure Move (env : Env) (db db' : Tables) (electionId : Int) (event : ElectionEvent) (actor : String)
    (e : Election) (t : ElectionTransition) : Prop where
  found : db.election? electionId = some e
  entry : t ∈ electionFSM
  source : t.source = e.status
  named : t.event = event
  guard : runGuard env db electionId t = .ok ()
  core : Tables.SameCore (movedTables env db electionId t event actor) db'

/-- The result of an election is declared by `handleDeclareResult`. -/
structure Declaration (env : Env) (db db' : Tables) (electionId : Int) (req : DeclareRequest) (e : Election)
    (a : DeclarationAssessment) : Prop where
  declarable : checkDeclarable env db electionId = .ok e
  assessed : checkDeclaration env db electionId req = .ok a
  core : Tables.SameCore (declaredTables env db e electionId req a) db'

/-- A write to one live result that keeps its identity and does not finalize it. -/
structure Review (db db' : Tables) (r : ResultRow) (f : ResultRow → ResultRow) : Prop where
  found : db.result? r.id = some r
  identity : ∀ row, (f row).id = row.id ∧ (f row).key = row.key
  before : r.status.live = true ∧ r.status ≠ .finalized
  after : (f r).status.live = true ∧ (f r).status ≠ .finalized
  core : Tables.SameCore (db.updateResult r.id f) db'

inductive Effect (env : Env) (db db' : Tables) : Op → Prop
  | quiet {op : Op} (core : Tables.SameCore db db') : Effect env db db' op
  | created {op : Op} {e : Election} {scopes : List RerunScope} (named : op.onElections = true)
      (creation : Creation db db' e scopes) : Effect env db db' op
  | moved {electionId : Int} {event : ElectionEvent} {actor : String} {e : Election} {t : ElectionTransition}
      (move : Move env db db' electionId event actor e t) : Effect env db db' (.transition electionId event actor)
  | declared {electionId : Int} {req : DeclareRequest} {e : Election} {a : DeclarationAssessment}
      (declaration : Declaration env db db' electionId req e a) : Effect env db db' (.declare electionId req)
  | submitted {op : Op} {row : ResultRow} {scores : List (String × Int)}
      (submission : Submission db db' row scores) : Effect env db db' op
  | reviewed {op : Op} {r : ResultRow} {f : ResultRow → ResultRow} (review : Review db db' r f) :
      Effect env db db' op
  | finalized {id : Int} {r : ResultRow} {policyId : Int}
      (checked : checkFinalize env db id = .ok (r, policyId))
      (core : Tables.SameCore (db.updateResult r.id (markFinalized env)) db') :
      Effect env db db' (.finalize id)
  | annulled {id : Int} {req : ResolveRequest} {checked : Dispute × Option DisputeOutcome} {r : ResultRow}
      (accepted : checkResolve env db id req = .ok checked) (remedy : remedied? db checked = some (r, .voided))
      (core : Tables.SameCore (db.updateResult r.id (setStatus .voided)) db') :
      Effect env db db' (.resolveDispute id req)
  | corrected {id : Int} {req : CorrectRequest} {r : ResultRow} (checked : checkCorrect env db id req = .ok r)
      (core : Tables.SameCore (supersede sha256Hex env db r req) db') :
      Effect env db db' (.correct id req)

variable {sha256Hex}

theorem transition_effect {env : Env} {db db' : Tables} {electionId : Int} {event : ElectionEvent} {actor : String}
    (h : transitionElection env db electionId event actor = .ok db') :
    Effect sha256Hex env db db' (.transition electionId event actor) := by
  obtain ⟨e, t, he, ht, hsource, hevent, hguard, rfl⟩ := transitionElection_ok.mp h
  exact .moved ⟨he, ht, hsource, hevent, hguard, Tables.SameCore.refl _⟩

theorem createElection_effect {env : Env} {db db' : Tables} {req : ElectionCreate}
    (h : handleCreateElection env db req = .ok db') : Effect sha256Hex env db db' (.createElection req) := by
  obtain ⟨electionType, status, hstatus, hcore⟩ := handleCreateElection_ok h
  have hcreation : Creation db db'
      (newElection env db req.title electionType req.electionDate status .general none) [] := by
    refine ⟨rfl, hstatus, ?_, ⟨rfl, rfl⟩, by simp, ?_⟩
    · intro p hp
      cases hp
    · rw [Tables.addScopes, Tables.addElection, List.append_nil]
      exact hcore
  exact .created rfl hcreation

theorem createRerun_effect {env : Env} {db db' : Tables} {parentId : Int} {req : RerunRequest}
    (h : handleCreateRerun env db parentId req = .ok db') :
    Effect sha256Hex env db db' (.createRerun parentId req) := by
  obtain ⟨kind, parent, scopes, hchecked, hscopes, hcore⟩ := handleCreateRerun_ok h
  have hparent := (checkRerun_ok hchecked).2
  have hstatus : (rerunElection env db kind parent req).status ∈ creatableStates := by
    simp [rerunElection, newElection, creatableStates]
  refine .created rfl ⟨rfl, hstatus, ?_, ⟨rfl, rfl⟩, hscopes, hcore⟩
  intro p hp
  rw [← Option.some.inj hp, (Tables.mem_of_election? hparent).2]
  exact ⟨parent, hparent⟩

theorem validate_effect {env : Env} {db db' : Tables} {id : Int}
    (h : handleValidateResult sha256Hex env db id = .ok db') : Effect sha256Hex env db db' (.validate id) := by
  simp only [handleValidateResult, bind_eq_ok] at h
  obtain ⟨⟨r, policyId⟩, hchecked, hrecord⟩ := h
  obtain ⟨hr, hcan⟩ := checkValidate_ok hchecked
  obtain ⟨hlive, _, hnot⟩ := live_of_canTransition hcan
  exact .reviewed (f := markValidated env) ⟨Tables.result?_id hr, fun _ => ⟨rfl, rfl⟩,
    ⟨hlive, hnot⟩, ⟨rfl, by simp [markValidated]⟩, recordReview_ok hrecord⟩

theorem dispute_effect {env : Env} {db db' : Tables} {id : Int} {reason : String}
    (h : handleDisputeResult sha256Hex env db id reason = .ok db') :
    Effect sha256Hex env db db' (.dispute id reason) := by
  simp only [handleDisputeResult, bind_eq_ok] at h
  obtain ⟨⟨r, policyId⟩, hchecked, hrecord⟩ := h
  obtain ⟨hr, hcan⟩ := checkDispute_ok hchecked
  obtain ⟨hlive, _, hnot⟩ := live_of_canTransition hcan
  exact .reviewed (f := setStatus .disputed) ⟨Tables.result?_id hr, fun _ => ⟨rfl, rfl⟩,
    ⟨hlive, hnot⟩, ⟨rfl, by simp [setStatus]⟩, recordReview_ok hrecord⟩

theorem finalize_effect {env : Env} {db db' : Tables} {id : Int}
    (h : handleFinalizeResult sha256Hex env db id = .ok db') : Effect sha256Hex env db db' (.finalize id) := by
  obtain ⟨⟨r, policyId⟩, hchecked, hcore⟩ := handleFinalizeResult_ok h
  exact .finalized hchecked hcore

theorem resolveDispute_effect {env : Env} {db db' : Tables} {id : Int} {req : ResolveRequest}
    {response : ResolveResponse} (h : handleResolveDispute env db id req = .ok (db', response)) :
    Effect sha256Hex env db db' (.resolveDispute id req) := by
  obtain ⟨checked, hchecked, hcore⟩ := handleResolveDispute_ok h
  unfold remediedTables at hcore
  cases hremedy : remedied? db checked with
  | none =>
      rw [hremedy] at hcore
      exact .quiet hcore
  | some write =>
      obtain ⟨r, status⟩ := write
      rw [hremedy] at hcore
      obtain ⟨hr, hlive, hstatus⟩ := remedied?_eq_some hremedy
      rcases hstatus with rfl | ⟨hdisputed, hstatus⟩
      · exact .annulled hchecked hremedy hcore
      · refine .reviewed (f := setStatus status)
          ⟨hr, fun _ => ⟨rfl, rfl⟩, ⟨hlive, by simp [hdisputed]⟩, ?_, hcore⟩
        rcases hstatus with rfl | rfl <;> simp [setStatus, ResultStatus.live]

theorem run_effect {env : Env} {db db' : Tables} {op : Op} (h : op.run sha256Hex env db = some db') :
    Effect sha256Hex env db db' op := by
  cases op with
  | createElection req => exact createElection_effect (toOption_eq_some.mp h)
  | createRerun parentId req => exact createRerun_effect (toOption_eq_some.mp h)
  | assignStaff req => exact .quiet (handleAssignStaff_ok (toOption_eq_some.mp h))
  | transition electionId event actor => exact transition_effect (toOption_eq_some.mp h)
  | declare electionId req =>
      obtain ⟨e, a, he, ha, hcore⟩ := handleDeclareResult_ok (toOption_eq_some.mp h)
      exact .declared ⟨he, ha, hcore⟩
  | submit req =>
      obtain ⟨⟨db'', response⟩, hrun, rfl⟩ := map_eq_ok.mp (toOption_eq_some.mp h)
      rcases handleSubmitResult_ok hrun with hcore | hsubmission
      · exact .quiet hcore
      · exact .submitted hsubmission
  | submitEC8A form => exact .submitted (handleSubmitEC8A_ok (toOption_eq_some.mp h))
  | ingest res =>
      obtain ⟨⟨outcome, id, db''⟩, hrun, rfl⟩ := map_eq_ok.mp (toOption_eq_some.mp h)
      rcases applyResultTx_ok hrun with rfl | hsubmission
      · exact .quiet (Tables.SameCore.refl _)
      · exact .submitted hsubmission
  | validate id => exact validate_effect (toOption_eq_some.mp h)
  | finalize id => exact finalize_effect (toOption_eq_some.mp h)
  | dispute id reason => exact dispute_effect (toOption_eq_some.mp h)
  | correct id req =>
      obtain ⟨r, hchecked, hcore⟩ := handleCorrectResult_ok (toOption_eq_some.mp h)
      exact .corrected hchecked hcore
  | fileDispute req => exact .quiet (handleFileDispute_ok (toOption_eq_some.mp h))
  | resolveDispute id req =>
      obtain ⟨⟨db'', response⟩, hrun, rfl⟩ := map_eq_ok.mp (toOption_eq_some.mp h)
      exact resolveDispute_effect hrun
  | other write frame =>
      rw [← Option.some.inj h]
      exact .quiet (frame db)

theorem Creation.election? {db db' : Tables} {e : Election} {scopes : List RerunScope}
    (h : Creation db db' e scopes) (electionId : Int) :
    db'.election? electionId = (db.election? electionId).or (if e.id = electionId then some e else none) := by
  rw [Tables.election?, h.core.elections]
  simp only [Tables.election?, Tables.addElection, Tables.addScopes, List.find?_append, List.find?_cons,
    List.find?_nil]
  split <;> simp_all

/-- Only creations, transitions and declarations write elections or their log. -/
theorem Effect.lifecycle {env : Env} {db db' : Tables} {op : Op} (h : Effect sha256Hex env db db' op) :
    (db'.elections = db.elections ∧ db'.electionStateLog = db.electionStateLog) ∨
      (∃ e scopes, Creation db db' e scopes) ∨
      (∃ electionId event actor e t, op = .transition electionId event actor ∧
        Move env db db' electionId event actor e t) ∨
      ∃ electionId req e a, op = .declare electionId req ∧ Declaration env db db' electionId req e a := by
  cases h with
  | quiet hcore => exact Or.inl ⟨hcore.elections, hcore.electionStateLog⟩
  | created _ hcreation => exact Or.inr (Or.inl ⟨_, _, hcreation⟩)
  | moved hmove => exact Or.inr (Or.inr (Or.inl ⟨_, _, _, _, _, rfl, hmove⟩))
  | declared hdeclaration => exact Or.inr (Or.inr (Or.inr ⟨_, _, _, _, rfl, hdeclaration⟩))
  | submitted hsubmission => exact Or.inl ⟨hsubmission.core.elections, hsubmission.core.electionStateLog⟩
  | reviewed hreview => exact Or.inl ⟨hreview.core.elections, hreview.core.electionStateLog⟩
  | finalized _ hcore => exact Or.inl ⟨hcore.elections, hcore.electionStateLog⟩
  | annulled _ _ hcore => exact Or.inl ⟨hcore.elections, hcore.electionStateLog⟩
  | corrected _ hcore => exact Or.inl ⟨hcore.elections, hcore.electionStateLog⟩

/-! ### Constraints -/

theorem Submission.constraints {db db' : Tables} {row : ResultRow} {scores : List (String × Int)}
    (h : Submission db db' row scores) (hdb : db.Constraints) : db'.Constraints := by
  refine Tables.Constraints.sameCore ?_ h.core
  refine hdb.addResult ?_ h.vacant
  rw [h.id]
  exact nextSerial_notMem _

theorem constraints_supersede {env : Env} {db : Tables} {id : Int} {r : ResultRow} {req : CorrectRequest}
    (h : checkCorrect env db id req = .ok r) (hdb : db.Constraints) :
    (supersede sha256Hex env db r req).Constraints := by
  obtain ⟨hr, hlive⟩ := checkCorrect_ok h
  obtain ⟨hmem, rfl⟩ := Tables.mem_of_result? hr
  have hupdated : (db.updateResult r.id (setStatus .superseded)).Constraints :=
    hdb.updateResult (fun _ => ⟨rfl, rfl⟩) fun r' _ _ hsuperseded => by cases hsuperseded
  refine hupdated.addResult ?_ ?_
  · exact correctedRow_id_notMem env db r req
  · -- the index has room for the replacement because the row it replaces has just left it
    intro hkey
    obtain ⟨r', hr', heq⟩ := List.mem_map.mp hkey
    obtain ⟨hr', hlive'⟩ := List.mem_filter.mp hr'
    rcases Rows.mem_update.mp hr' with ⟨r₀, _, _, rfl⟩ | ⟨hr', hne⟩
    · cases hlive'
    · exact hne (congrArg ResultRow.id (Tables.eq_of_live_of_key hdb hr' hmem hlive' hlive heq))

theorem Effect.constraints {env : Env} {db db' : Tables} {op : Op} (h : Effect sha256Hex env db db' op)
    (hdb : db.Constraints) : db'.Constraints := by
  cases h with
  | quiet hcore => exact hdb.sameCore hcore
  | created _ hcreation =>
      have hadded := hdb.addElection (by rw [hcreation.id]; exact nextSerial_notMem _)
      exact (hadded.addScopes _).sameCore hcreation.core
  | moved hmove =>
      refine Tables.Constraints.sameCore (Tables.Constraints.logState ?_ _) hmove.core
      exact hdb.updateElection fun e => rfl
  | declared hdeclaration =>
      refine Tables.Constraints.sameCore (Tables.Constraints.logState ?_ _) hdeclaration.core
      exact hdb.updateElection fun e => rfl
  | submitted hsubmission => exact hsubmission.constraints hdb
  | reviewed hreview =>
      refine Tables.Constraints.sameCore ?_ hreview.core
      refine hdb.updateResult hreview.identity ?_
      intro r' hr' hid _
      rw [Rows.eq_of_key_eq hdb.resultIds hr' (Tables.mem_of_result? hreview.found).1 hid]
      exact hreview.before.1
  | finalized hchecked hcore =>
      refine Tables.Constraints.sameCore ?_ hcore
      refine hdb.updateResult (fun _ => ⟨rfl, rfl⟩) ?_
      obtain ⟨hr, hstatus⟩ := checkFinalize_ok hchecked
      intro r' hr' hid _
      rw [Rows.eq_of_key_eq hdb.resultIds hr' (Tables.mem_of_result? hr).1 hid, hstatus]
      rfl
  | annulled _ _ hcore =>
      refine Tables.Constraints.sameCore ?_ hcore
      refine hdb.updateResult (fun _ => ⟨rfl, rfl⟩) ?_
      intro r' _ _ hvoided
      cases hvoided
  | corrected hchecked hcore => exact (constraints_supersede hchecked hdb).sameCore hcore

/-! ### Steps -/

variable (sha256Hex)

/-- One request. A refused one leaves the database as it was. -/
def step (d : Database) (q : Request) : Database :=
  match h : q.op.run sha256Hex q.env d.tables with
  | some db' => ⟨db', (run_effect h).constraints d.constraints⟩
  | none => d

variable {sha256Hex}

theorem step_accepted {d : Database} {q : Request} {db' : Tables}
    (h : q.op.run sha256Hex q.env d.tables = some db') : (step sha256Hex d q).tables = db' := by
  unfold step
  split
  · rename_i db'' h'
    exact Option.some.inj (h'.symm.trans h)
  · rename_i h'
    rw [h'] at h
    cases h

/-- A request is refused and changes nothing, or it is accepted. -/
theorem step_cases (d : Database) (q : Request) :
    (step sha256Hex d q).tables = d.tables ∨
      q.op.run sha256Hex q.env d.tables = some (step sha256Hex d q).tables := by
  cases h : q.op.run sha256Hex q.env d.tables with
  | some db' =>
      rw [step_accepted h]
      exact Or.inr rfl
  | none =>
      left
      unfold step
      split
      · rename_i h'
        rw [h'] at h
        cases h
      · rfl

/-- One polling unit, counted and finalized 60 to 40, with its election in the given state. -/
def countedPoll (status : ElectionState) : Database where
  tables :=
    { Tables.empty with
      pollingUnits := [⟨"PU-1", "W-1", 200⟩]
      wards := [⟨"W-1", "L-1"⟩]
      lgas := [⟨"L-1", "S-1"⟩]
      elections := [.bare 1 .gubernatorial status]
      results := [.bare 1 1 "PU-1" .finalized]
      resultPartyScores := [⟨1, "APC", 60⟩, ⟨1, "LP", 40⟩] }
  constraints := by cases status <;> decide

/-- What a step does to elections and their log. -/
theorem step_lifecycle (d : Database) (q : Request) :
    ((step sha256Hex d q).tables.elections = d.tables.elections ∧
        (step sha256Hex d q).tables.electionStateLog = d.tables.electionStateLog) ∨
      (∃ e scopes, Creation d.tables (step sha256Hex d q).tables e scopes) ∨
      (∃ electionId event actor e t, q.op = .transition electionId event actor ∧
        Move q.env d.tables (step sha256Hex d q).tables electionId event actor e t) ∨
      ∃ electionId req e a, q.op = .declare electionId req ∧
        Declaration q.env d.tables (step sha256Hex d q).tables electionId req e a := by
  rcases step_cases d q with hsame | hrun
  · rw [hsame]
    exact Or.inl ⟨rfl, rfl⟩
  · exact (run_effect hrun).lifecycle

end Inec
