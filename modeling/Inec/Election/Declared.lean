import Inec.Lib.HexText
import Inec.Lib.Runs
import Inec.System

/-!
# Declared elections and their record

Two requests lead to the state `declared`. `handleDeclareResult` writes the winner next to the state;
the `declare` event of the transition table writes the state alone. So a database in which every
declared election has its record keeps it along a run exactly if no `declare` event is accepted.
-/

namespace Inec

open Checks

variable {sha256Hex : String → String}

/-- The state and the record of one election agree. -/
def Election.RecordAgrees (e : Election) : Prop :=
  e.status = .declared ↔ e.declaredAt.isSome = true ∧ e.winnerPayload.isSome = true

instance (e : Election) : Decidable e.RecordAgrees := inferInstanceAs (Decidable (_ ↔ _))

def DeclaredAgrees (db : Tables) : Prop := ∀ e ∈ db.elections, e.RecordAgrees

/-- The request is no `declare` event, or its table entry or its guard refuses it. -/
def DeclareEventRefused (d : Database) (q : Request) : Prop :=
  ∀ electionId actor e, q.op = .transition electionId .declare actor → d.tables.election? electionId = some e →
    e.status = .collating ∨ e.status = .closed → guardDeclare q.env d.tables electionId ≠ .ok ()

/-! ### The table -/

theorem source_ne_declared : ∀ t ∈ electionFSM, t.source ≠ .declared := by decide

theorem target_declared : ∀ t ∈ electionFSM, t.target = .declared →
    t.event = .declare ∧ (t.source = .collating ∨ t.source = .closed) ∧ t.guard = some .declare := by decide

theorem declare_entry {s : ElectionState} (h : s = .collating ∨ s = .closed) :
    ⟨s, .declared, .declare, some .declare⟩ ∈ electionFSM := by
  rcases h with rfl | rfl <;> decide

theorem declared_notMem_creatableStates : ElectionState.declared ∉ creatableStates := by decide

/-! ### One step -/

theorem recordAgrees_of_none {e : Election} (hstatus : e.status ≠ .declared) (hnone : e.declaredAt = none) :
    e.RecordAgrees := by
  simp [Election.RecordAgrees, hstatus, hnone]

theorem Creation.declaredAgrees {db db' : Tables} {e : Election} {scopes : List RerunScope}
    (h : Creation db db' e scopes) (hdb : DeclaredAgrees db) : DeclaredAgrees db' := by
  intro e' he'
  rw [h.core.elections] at he'
  rcases List.mem_append.mp he' with he' | he'
  · exact hdb e' he'
  · rw [List.mem_singleton.mp he']
    refine recordAgrees_of_none (fun hstatus => ?_) h.undeclared.1
    exact declared_notMem_creatableStates (hstatus ▸ h.status)

/-- A move to another state than `declared` keeps the record of an election that has none. -/
theorem Move.declaredAgrees {env : Env} {db db' : Tables} {electionId : Int} {event : ElectionEvent}
    {actor : String} {e : Election} {t : ElectionTransition} (h : Move env db db' electionId event actor e t)
    (hconstraints : db.Constraints) (hdb : DeclaredAgrees db) (htarget : t.target ≠ .declared) :
    DeclaredAgrees db' := by
  intro e' he'
  rw [h.core.elections] at he'
  rcases (Tables.mem_updateElection hconstraints h.found).mp he' with rfl | ⟨he', _⟩
  · have hsource : e.status ≠ .declared := h.source ▸ source_ne_declared t h.entry
    have hrecord := hdb e (Tables.mem_of_election? h.found).1
    exact ⟨fun hstatus => absurd hstatus htarget, fun hsome => absurd (hrecord.mpr hsome) hsource⟩
  · exact hdb e' he'

theorem Declaration.declaredAgrees {env : Env} {db db' : Tables} {electionId : Int} {req : DeclareRequest}
    {e : Election} {a : DeclarationAssessment} (h : Declaration env db db' electionId req e a)
    (hconstraints : db.Constraints) (hdb : DeclaredAgrees db) : DeclaredAgrees db' := by
  intro e' he'
  rw [h.core.elections] at he'
  rcases (Tables.mem_updateElection hconstraints (checkDeclarable_ok h.declarable).1).mp he' with rfl | ⟨he', _⟩
  · exact ⟨fun _ => ⟨rfl, rfl⟩, fun _ => rfl⟩
  · exact hdb e' he'

/-- An accepted `declare` event leaves a declared election without a record. -/
theorem not_declaredAgrees_of_declare {env : Env} {db : Tables} {electionId : Int} {actor : String} {e : Election}
    (hconstraints : db.Constraints) (hdb : DeclaredAgrees db) (he : db.election? electionId = some e)
    (hstatus : e.status = .collating ∨ e.status = .closed) :
    ¬ DeclaredAgrees (movedTables env db electionId ⟨e.status, .declared, .declare, some .declare⟩
      .declare actor) := by
  intro hagrees
  have hmoved := hagrees _ ((Tables.mem_updateElection hconstraints he).mpr (Or.inl rfl))
  have hsome := hmoved.mp rfl
  have hdeclared := (hdb e (Tables.mem_of_election? he).1).mpr hsome
  rcases hstatus with hstatus | hstatus <;> rw [hstatus] at hdeclared <;> cases hdeclared

theorem step_declaredAgrees_iff (d : Database) (q : Request) (hd : DeclaredAgrees d.tables) :
    DeclaredAgrees (step sha256Hex d q).tables ↔ DeclareEventRefused d q := by
  constructor
  · intro hnext electionId actor e hop he hstatus hguard
    have hrun : q.op.run sha256Hex q.env d.tables = some (movedTables q.env d.tables electionId
        ⟨e.status, .declared, .declare, some .declare⟩ .declare actor) := by
      rw [hop]
      refine toOption_eq_some.mpr (transitionElection_ok.mpr ⟨e, _, he, declare_entry hstatus, rfl, rfl, ?_, rfl⟩)
      exact relabel_eq_ok.mpr hguard
    rw [step_accepted hrun] at hnext
    exact not_declaredAgrees_of_declare d.constraints hd he hstatus hnext
  · intro hrefused
    rcases step_lifecycle d q with ⟨hsame, _⟩ | ⟨e, scopes, hcreation⟩ |
      ⟨electionId, event, actor, e, t, hop, hmove⟩ | ⟨electionId, req, e, a, _, hdeclaration⟩
    · rw [DeclaredAgrees, hsame]
      exact hd
    · exact hcreation.declaredAgrees hd
    · refine hmove.declaredAgrees d.constraints hd fun htarget => ?_
      obtain ⟨hevent, hsource, hguard⟩ := target_declared t hmove.entry htarget
      rw [← hmove.named, hevent] at hop
      refine hrefused electionId actor e hop hmove.found (hmove.source ▸ hsource) ?_
      have hrun := hmove.guard
      rw [runGuard, hguard] at hrun
      exact relabel_eq_ok.mp hrun
    · exact hdeclaration.declaredAgrees d.constraints hd

/-! ### Runs -/

/-- In a run of any requests, state and record agree in every database reached exactly if every
`declare` event is refused. -/
theorem declaredAgrees_iff_declareEventRefused (d : Database) (hd : DeclaredAgrees d.tables)
    (requests : List Request) :
    (∀ d' ∈ Runs.visited (step sha256Hex) d requests, DeclaredAgrees d'.tables) ↔
      Runs.AllSteps (step sha256Hex) DeclareEventRefused d requests :=
  Runs.forall_visited_iff_of_step step_declaredAgrees_iff hd requests

theorem countedPoll_declaredAgrees {status : ElectionState} (h : status ≠ .declared) :
    DeclaredAgrees (countedPoll status).tables := by
  intro e he
  rw [List.mem_singleton.mp he]
  exact recordAgrees_of_none h rfl

/-- A closed election declared by its returning officer. -/
theorem declaredAgrees_iff_declareEventRefused_closed :
    DeclaredAgrees (countedPoll .closed).tables ∧
      ∀ d' ∈ Runs.visited (step HexText.hexText) (countedPoll .closed)
        [⟨.plain 1 "ro" .returningOfficer 0, .declare 1 ⟨"", false⟩⟩], DeclaredAgrees d'.tables := by
  have hagrees : DeclaredAgrees (countedPoll .closed).tables := countedPoll_declaredAgrees (by decide)
  refine ⟨hagrees, (declaredAgrees_iff_declareEventRefused _ hagrees _).mpr ⟨?_, trivial⟩⟩
  intro electionId actor e hop
  cases hop

/-- The `declare` event moves a closed election to `declared` and records no winner. -/
theorem declared_without_record :
    ¬ ∀ (sha256Hex : String → String) (d : Database) (requests : List Request),
      (∀ q ∈ requests, q.op.isLifecycle = true) → DeclaredAgrees d.tables →
      ∀ d' ∈ Runs.visited (step sha256Hex) d requests, DeclaredAgrees d'.tables := by
  intro h
  have hfinal := h HexText.hexText (countedPoll .closed)
    [⟨.plain 1 "chair" .admin 0, .transition 1 .declare "chair"⟩] (by simp [Op.isLifecycle])
    (countedPoll_declaredAgrees (by decide)) _ (Runs.final_mem_visited _ _)
  have hrow := hfinal { Election.bare 1 .gubernatorial .declared with updatedAt := 0 } (by decide)
  revert hrow
  decide

end Inec
