import Inec.Lib.HexText
import Inec.Lib.Runs
import Inec.System

/-!
# The election state log

`TransitionElection` and `handleDeclareResult` both write a log row next to the state they set, under
the row lock of the election. So the rows of one election form a chain that ends in its state, whatever
the order of the requests. Whether every row is an entry of the transition table is another matter: the
declaration handler has its own list of states to declare from, and `disputed` is on it.
-/

namespace Inec

open Checks

variable {sha256Hex : String → String}

/-- The log rows of one election. -/
def logOf (db : Tables) (electionId : Int) : List StateLogRow :=
  db.electionStateLog.filter fun row => row.electionId == electionId

/-- The row is an entry of the transition table. -/
def StateLogRow.allowed (row : StateLogRow) : Bool :=
  electionFSM.any fun t => t.source == row.fromState && t.target == row.toState && t.event == row.event

/-- The log follows the states of the elections. -/
structure LogTraces (db : Tables) : Prop where
  owned : ∀ row ∈ db.electionStateLog, ∃ e, db.election? row.electionId = some e
  chained : ∀ electionId, (logOf db electionId).IsChain fun row next => next.fromState = row.toState
  current : ∀ electionId e row, db.election? electionId = some e → (logOf db electionId).getLast? = some row →
    row.toState = e.status

structure LogFaithful (db : Tables) : Prop extends LogTraces db where
  allowed : ∀ row ∈ db.electionStateLog, row.allowed = true

/-- The request declares no election that is disputed. -/
def DisputedNotDeclared (d : Database) (q : Request) : Prop :=
  ∀ electionId req e a, q.op = .declare electionId req → checkDeclarable q.env d.tables electionId = .ok e →
    checkDeclaration q.env d.tables electionId req = .ok a → e.status ≠ .disputed

/-! ### Writing one row -/

theorem logOf_logState {db : Tables} {row : StateLogRow} {electionId : Int} :
    logOf (db.logState row) electionId =
      if row.electionId = electionId then logOf db electionId ++ [row] else logOf db electionId := by
  simp only [logOf, Tables.logState, List.filter_append]
  split
  · rename_i h
    simp [h]
  · rename_i h
    simp [h]

/-- One election has a new row and one more log row; the others have what they had. -/
structure Written (db db' : Tables) (electionId : Int) (e : Election) (row : StateLogRow) : Prop where
  found : db'.election? electionId = some e
  log : logOf db' electionId = logOf db electionId ++ [row]
  other : ∀ id ≠ electionId, db'.election? id = db.election? id ∧ logOf db' id = logOf db id
  rows : db'.electionStateLog = db.electionStateLog ++ [row]

theorem written_of_sameCore {db db' : Tables} {electionId : Int} {e : Election} {f : Election → Election}
    {row : StateLogRow} (hconstraints : db.Constraints) (he : db.election? electionId = some e)
    (hf : ∀ e, (f e).id = e.id) (hrow : row.electionId = electionId)
    (hcore : Tables.SameCore ((db.updateElection electionId f).logState row) db') :
    Written db db' electionId (f e) row := by
  have hlookup : ∀ {id' e'}, db'.election? id' = some e' ↔
      (id' = electionId ∧ e' = f e) ∨ (id' ≠ electionId ∧ db.election? id' = some e') := by
    intro id' e'
    rw [Tables.election?, hcore.elections]
    exact Tables.election?_updateElection hconstraints hf he
  have hlog : ∀ id', logOf db' id' = logOf ((db.updateElection electionId f).logState row) id' := by
    intro id'
    rw [logOf, hcore.electionStateLog, logOf]
  refine ⟨hlookup.mpr (Or.inl ⟨rfl, rfl⟩), ?_, ?_, hcore.electionStateLog⟩
  · rw [hlog, logOf_logState, if_pos hrow]
    rfl
  · intro id' hne
    constructor
    · apply Option.ext
      intro e'
      rw [hlookup]
      exact ⟨fun h => h.elim (fun h => absurd h.1 hne) And.right, fun h => Or.inr ⟨hne, h⟩⟩
    · rw [hlog, logOf_logState, if_neg fun h => hne (h.symm.trans hrow)]
      rfl

theorem Move.written {env : Env} {db db' : Tables} {electionId : Int} {event : ElectionEvent}
    {actor : String} {e : Election} {t : ElectionTransition} (h : Move env db db' electionId event actor e t)
    (hconstraints : db.Constraints) :
    Written db db' electionId (moveElection env t e) ⟨electionId, t.source, t.target, event, actor, env.now⟩ :=
  written_of_sameCore hconstraints h.found (moveElection_id env t) rfl h.core

theorem Declaration.written {env : Env} {db db' : Tables} {electionId : Int} {req : DeclareRequest}
    {e : Election} {a : DeclarationAssessment} (h : Declaration env db db' electionId req e a)
    (hconstraints : db.Constraints) :
    Written db db' electionId (declareElection env req (declarationPayload env electionId req a) e)
      ⟨electionId, e.status, .declared, .declare, env.claims.username, env.now⟩ :=
  written_of_sameCore hconstraints (checkDeclarable_ok h.declarable).1 (declareElection_id env req _) rfl h.core

/-- A row that names the state it leaves and the state it sets continues the trace. -/
theorem Written.logTraces {db db' : Tables} {electionId : Int} {e e' : Election} {row : StateLogRow}
    (h : Written db db' electionId e' row) (hlog : LogTraces db) (he : db.election? electionId = some e)
    (hrow : row.electionId = electionId) (hfrom : row.fromState = e.status) (hto : row.toState = e'.status) :
    LogTraces db' := by
  refine ⟨?_, ?_, ?_⟩
  · intro row' hrow'
    by_cases hid : row'.electionId = electionId
    · exact ⟨e', hid ▸ h.found⟩
    · rw [(h.other _ hid).1]
      rw [h.rows] at hrow'
      rcases List.mem_append.mp hrow' with hold | hnew
      · exact hlog.owned row' hold
      · exact absurd (List.mem_singleton.mp hnew ▸ hrow) hid
  · intro id'
    by_cases hid : id' = electionId
    · rw [hid, h.log]
      refine (hlog.chained electionId).append (List.isChain_singleton row) ?_
      intro last hlast first hfirst
      rw [List.head?_cons, Option.mem_some_iff] at hfirst
      rw [← hfirst, hfrom]
      exact (hlog.current electionId e last he hlast).symm
    · rw [(h.other id' hid).2]
      exact hlog.chained id'
  · intro id' e₀ row' he₀ hlast
    by_cases hid : id' = electionId
    · subst hid
      rw [h.log, List.getLast?_concat] at hlast
      rw [h.found] at he₀
      rw [← Option.some.inj hlast, ← Option.some.inj he₀, hto]
    · rw [(h.other id' hid).1] at he₀
      rw [(h.other id' hid).2] at hlast
      exact hlog.current id' e₀ row' he₀ hlast

theorem LogTraces.sameCore {db db' : Tables} (h : LogTraces db) (helections : db'.elections = db.elections)
    (hlog : db'.electionStateLog = db.electionStateLog) : LogTraces db' := by
  have hlookup : ∀ id', db'.election? id' = db.election? id' := fun id' => by
    rw [Tables.election?, helections, Tables.election?]
  have hrows : ∀ id', logOf db' id' = logOf db id' := fun id' => by rw [logOf, hlog, logOf]
  refine ⟨?_, ?_, ?_⟩
  · intro row hrow
    rw [hlookup]
    exact h.owned row (hlog ▸ hrow)
  · intro id'
    rw [hrows]
    exact h.chained id'
  · intro id' e row he hlast
    rw [hlookup] at he
    rw [hrows] at hlast
    exact h.current id' e row he hlast

/-! ### One step -/

theorem Creation.logTraces {db db' : Tables} {e : Election} {scopes : List RerunScope}
    (h : Creation db db' e scopes) (hlog : LogTraces db) : LogTraces db' := by
  have hrows : ∀ id', logOf db' id' = logOf db id' := fun id' => by
    rw [logOf, h.core.electionStateLog]
    rfl
  have hnew : logOf db e.id = [] := by
    -- the key of the new election is one that no logged election has
    rw [logOf, List.filter_eq_nil_iff]
    intro row hrow hid
    obtain ⟨e', he'⟩ := hlog.owned row hrow
    obtain ⟨hmem, hid'⟩ := Tables.mem_of_election? he'
    refine nextSerial_notMem (db.elections.map (·.id)) ?_
    rw [← h.id, ← beq_iff_eq.mp hid, ← hid']
    exact List.mem_map_of_mem hmem
  refine ⟨?_, ?_, ?_⟩
  · intro row hrow
    rw [h.core.electionStateLog] at hrow
    obtain ⟨e', he'⟩ := hlog.owned row hrow
    exact ⟨e', by rw [h.election?, he']; rfl⟩
  · intro id'
    rw [hrows]
    exact hlog.chained id'
  · intro id' e' row he' hlast
    rw [h.election?] at he'
    rw [hrows] at hlast
    cases hold : db.election? id' with
    | some e₀ =>
        rw [hold] at he'
        rw [← Option.some.inj he']
        exact hlog.current id' e₀ row hold hlast
    | none =>
        rw [hold, Option.none_or] at he'
        split at he'
        · rename_i hid
          subst hid
          rw [hnew] at hlast
          cases hlast
        · cases he'

/-- Chain and current state need no condition. -/
theorem step_logTraces (d : Database) (q : Request) (hd : LogTraces d.tables) :
    LogTraces (step sha256Hex d q).tables := by
  rcases step_lifecycle d q with ⟨helections, hlog⟩ | ⟨e, scopes, hcreation⟩ |
    ⟨electionId, event, actor, e, t, _, hmove⟩ | ⟨electionId, req, e, a, _, hdeclaration⟩
  · exact hd.sameCore helections hlog
  · exact hcreation.logTraces hd
  · exact (hmove.written d.constraints).logTraces hd hmove.found rfl hmove.source rfl
  · have hfound := (checkDeclarable_ok hdeclaration.declarable).1
    exact (hdeclaration.written d.constraints).logTraces hd hfound rfl rfl rfl

theorem Move.allowed {env : Env} {db db' : Tables} {electionId : Int} {event : ElectionEvent}
    {actor : String} {e : Election} {t : ElectionTransition} (h : Move env db db' electionId event actor e t) :
    (StateLogRow.mk electionId t.source t.target event actor env.now).allowed = true := by
  refine List.any_eq_true.mpr ⟨t, h.entry, ?_⟩
  simp [h.named]

/-- A declaration is an entry of the table unless it leaves `disputed`. -/
theorem declaration_allowed_iff {s : ElectionState} (h : s.declarable = true) {electionId : Int} {actor : String}
    {now : Int} :
    (StateLogRow.mk electionId s .declared .declare actor now).allowed = true ↔ s ≠ .disputed := by
  revert h
  cases s <;> simp [ElectionState.declarable, StateLogRow.allowed, electionFSM]

theorem forall_mem_append_singleton {rows : List StateLogRow} {row : StateLogRow}
    (hrows : ∀ row ∈ rows, row.allowed = true) :
    (∀ row' ∈ rows ++ [row], row'.allowed = true) ↔ row.allowed = true := by
  rw [List.forall_mem_append, List.forall_mem_singleton]
  exact ⟨And.right, fun h => ⟨hrows, h⟩⟩

theorem step_logFaithful_iff (d : Database) (q : Request) (hd : LogFaithful d.tables) :
    LogFaithful (step sha256Hex d q).tables ↔ DisputedNotDeclared d q := by
  constructor
  · intro hnext electionId req e a hop he ha
    obtain ⟨db', hrun, hcore⟩ := handleDeclareResult_of_checks he ha
    have hstep : q.op.run sha256Hex q.env d.tables = some db' := by
      rw [hop]
      exact toOption_eq_some.mpr hrun
    have hallowed := hnext.allowed
    rw [step_accepted hstep, hcore.electionStateLog] at hallowed
    have hrow := (forall_mem_append_singleton hd.allowed).mp hallowed
    exact (declaration_allowed_iff (checkDeclarable_ok he).2.2).mp hrow
  · intro hcond
    refine ⟨step_logTraces d q hd.toLogTraces, ?_⟩
    rcases step_lifecycle d q with ⟨_, hlog⟩ | ⟨e, scopes, hcreation⟩ |
      ⟨electionId, event, actor, e, t, _, hmove⟩ | ⟨electionId, req, e, a, hop, hdeclaration⟩
    · rw [hlog]
      exact hd.allowed
    · rw [hcreation.core.electionStateLog]
      exact hd.allowed
    · rw [(hmove.written d.constraints).rows]
      exact (forall_mem_append_singleton hd.allowed).mpr hmove.allowed
    · rw [(hdeclaration.written d.constraints).rows]
      refine (forall_mem_append_singleton hd.allowed).mpr ((declaration_allowed_iff ?_).mpr ?_)
      · exact (checkDeclarable_ok hdeclaration.declarable).2.2
      · exact hcond electionId req e a hop hdeclaration.declarable hdeclaration.assessed

/-! ### Runs -/

/-- In a run of any requests the log is a faithful trace in every database reached exactly if no
disputed election is declared. -/
theorem logFaithful_iff_disputedNotDeclared (d : Database) (hd : LogFaithful d.tables) (requests : List Request) :
    (∀ d' ∈ Runs.visited (step sha256Hex) d requests, LogFaithful d'.tables) ↔
      Runs.AllSteps (step sha256Hex) DisputedNotDeclared d requests :=
  Runs.forall_visited_iff_of_step step_logFaithful_iff hd requests

theorem countedPoll_logFaithful (status : ElectionState) : LogFaithful (countedPoll status).tables where
  owned := fun _ hrow => absurd hrow List.not_mem_nil
  chained := fun _ => List.IsChain.nil
  current := fun _ _ _ _ hlast => nomatch hlast
  allowed := fun _ hrow => absurd hrow List.not_mem_nil

/-- A closed election that is disputed, closed again and then declared. -/
theorem logFaithful_iff_disputedNotDeclared_resolved :
    LogFaithful (countedPoll .closed).tables ∧
      ∀ d' ∈ Runs.visited (step HexText.hexText) (countedPoll .closed)
        [⟨.plain 1 "chair" .admin 0, .transition 1 .dispute "chair"⟩,
          ⟨.plain 1 "chair" .admin 1, .transition 1 .resolveDispute "chair"⟩,
          ⟨.plain 2 "ro" .returningOfficer 2, .declare 1 ⟨"", false⟩⟩], LogFaithful d'.tables := by
  have hfaithful := countedPoll_logFaithful .closed
  refine ⟨hfaithful, (logFaithful_iff_disputedNotDeclared _ hfaithful _).mpr ⟨?_, ?_, ?_, trivial⟩⟩
  · intro electionId req e a hop
    cases hop
  · intro electionId req e a hop
    cases hop
  · intro electionId req e a hop he _
    obtain ⟨rfl, rfl⟩ := Op.declare.inj hop
    have hrow : ((step HexText.hexText (step HexText.hexText (countedPoll .closed)
        ⟨.plain 1 "chair" .admin 0, .transition 1 .dispute "chair"⟩)
        ⟨.plain 1 "chair" .admin 1, .transition 1 .resolveDispute "chair"⟩).tables.election? 1).map (·.status) =
        some .closed := by decide
    rw [(checkDeclarable_ok he).1] at hrow
    have hclosed : e.status = .closed := Option.some.inj hrow
    rw [hclosed]
    decide

/-- A disputed election that is declared leaves the row disputed → declared in its log. -/
theorem not_logFaithful_of_disputed :
    ¬ ∀ (sha256Hex : String → String) (d : Database) (requests : List Request),
      (∀ q ∈ requests, q.op.isLifecycle = true) → LogFaithful d.tables →
      ∀ d' ∈ Runs.visited (step sha256Hex) d requests, LogFaithful d'.tables := by
  intro h
  have hfinal := h HexText.hexText (countedPoll .closed)
    [⟨.plain 1 "chair" .admin 0, .transition 1 .dispute "chair"⟩,
      ⟨.plain 2 "ro" .returningOfficer 1, .declare 1 ⟨"", false⟩⟩] (by simp [Op.isLifecycle])
    (countedPoll_logFaithful .closed) _ (Runs.final_mem_visited _ _)
  have hrow := hfinal.allowed ⟨1, .disputed, .declared, .declare, "ro", 1⟩ (by decide)
  revert hrow
  decide

end Inec
