import Inec.Election.Lifecycle
import Inec.Lib.Runs

/-!
# The lifecycle of the election service

`Service.Transition` of internal/election/service.go moves the status of the elections table that
`TransitionElection` moves too, by a table of states of its own and without the guards. It reads the state and
looks its table up, and then reads the state again under the row lock, writes it, and writes a row of
`election_lifecycle`, all in one transaction.

The row has no `phase`, which the table wants and has no default for, so that no transaction of the service is
ever committed (`transition_refused`). What keeps the service from moving an election past a guard is this
column and nothing else: where the table took the row, a step would be one of the guarded machine only if that
has the two states on an entry whose guard passes (`refined_iff`), and four entries of the table are on none.
-/

namespace Inec.ElectionService

open Checks

/-! ### The two tables -/

/-- `ValidTransitions`. -/
def validTransitions : List (ElectionState × List ElectionState) :=
  [(.draft, [.scheduled, .cancelled]),
    (.scheduled, [.active, .postponed, .suspended, .cancelled]),
    (.postponed, [.scheduled, .cancelled]),
    (.active, [.voting, .suspended, .cancelled]),
    (.voting, [.collating, .suspended]),
    (.collating, [.closed, .suspended]),
    (.closed, [.declared, .disputed]),
    (.disputed, [.closed]),
    (.suspended, [.active, .voting, .collating, .cancelled])]

/-- The check of the state that was read against the target of the request. -/
def checkTransition (current : ElectionState) (target : String) : Except String ElectionState := do
  let (_, allowed) ← fetch (validTransitions.find? fun entry => entry.1 == current)
    ("no transitions from state " ++ current.text)
  fetch (allowed.find? fun state => state.text == target)
    ("invalid transition: " ++ current.text ++ " -> " ++ target)

/-- A column of a table, by what an INSERT has to know of it. -/
structure Column where
  name : String
  notNull : Bool
  hasDefault : Bool
  deriving DecidableEq, Repr

/-- The columns of `election_lifecycle` after the migrations. -/
def lifecycleColumns : List Column :=
  [⟨"id", true, true⟩, ⟨"election_id", true, false⟩, ⟨"phase", true, false⟩, ⟨"transitioned_by", false, false⟩,
    ⟨"notes", false, false⟩, ⟨"transitioned_at", false, true⟩, ⟨"from_state", false, false⟩,
      ⟨"reason", false, false⟩,
    ⟨"started_at", false, false⟩, ⟨"status", false, false⟩, ⟨"to_state", false, false⟩]

/-- The columns that the INSERT of the service names. -/
def insertColumns : List String := ["election_id", "from_state", "to_state", "transitioned_by", "reason"]

/-- The column an INSERT is refused for: one that the table does not have, or one that is left out, takes no
NULL and has no default. -/
def refusedColumn (columns : List Column) (given : List String) : Option String :=
  (given.find? fun name => columns.all fun c => c.name != name) <|>
    (columns.find? fun c => c.notNull && !c.hasDefault && !given.contains c.name).map (·.name)

structure LifecycleRow where
  electionId : Int
  fromState : ElectionState
  toState : ElectionState
  transitionedBy : Int
  reason : String
  deriving DecidableEq, Repr

/-- The tables that the monolith shares, and the log of the service. -/
structure ServiceDb where
  tables : Tables
  lifecycle : List LifecycleRow

/-! ### Transition -/

/-- A transition between its check and its transaction. -/
structure Pending where
  electionId : Int
  source : ElectionState
  target : ElectionState
  userId : Int
  deriving DecidableEq, Repr

section Transition

variable (columns : List Column)

/-- Transition up to `BeginTx`; `fails` is an error of the query. -/
def begin (db : ServiceDb) (electionId : Int) (target : String) (userId : Int) (fails : Bool) :
    Except String Pending := do
  require (!fails) "sql: connection is already closed"
  let e ← fetch (db.tables.election? electionId) "election not found"
  let state ← checkTransition e.status target
  return ⟨electionId, e.status, state, userId⟩

def Pending.row (x : Pending) : LifecycleRow :=
  ⟨x.electionId, x.source, x.target, x.userId, "FSM: " ++ x.source.text ++ " -> " ++ x.target.text⟩

/-- The UPDATE of the status, and the one of `declared_at` behind the log. -/
def Pending.move (env : Env) (x : Pending) (e : Election) : Election :=
  { e with
    status := x.target
    updatedAt := env.now
    declaredAt := if x.target = .declared then e.declaredAt <|> some env.now else e.declaredAt }

/-- The transaction; `fails` is an error of one of its statements or of the commit. -/
def execute (env : Env) (db : ServiceDb) (x : Pending) (fails : Bool) : Except String ServiceDb := do
  let locked ← fetch (db.tables.election? x.electionId) "election not found"
  require (locked.status == x.source) ("concurrent transition: election is now " ++ locked.status.text)
  match refusedColumn columns insertColumns with
  | some name => .error ("election_lifecycle." ++ name)
  | none =>
      require (!fails) "sql: connection is already closed"
      return ⟨db.tables.updateElection x.electionId (x.move env), db.lifecycle ++ [x.row]⟩

end Transition

structure State where
  db : ServiceDb
  pending : List Pending

inductive Input
  | begin (electionId : Int) (target : String) (userId : Int) (fails : Bool)
  | execute (index : Nat) (env : Env) (fails : Bool)
  /-- The monolith writes the tables. -/
  | others (tables : Tables)

def State.step (columns : List Column) (s : State) : Input → State
  | .begin electionId target userId fails =>
      match ElectionService.begin s.db electionId target userId fails with
      | .ok x => { s with pending := s.pending ++ [x] }
      | .error _ => s
  | .execute index env fails =>
      match s.pending[index]? with
      | some x =>
          match ElectionService.execute columns env s.db x fails with
          | .ok db => ⟨db, s.pending.eraseIdx index⟩
          | .error _ => { s with pending := s.pending.eraseIdx index }
      | none => s
  | .others tables => { s with db := { s.db with tables := tables } }

/-! ### What is asked -/

/-- TransitionElection has the step on an entry, its guard passes, and it writes the target. -/
def Guarded (env : Env) (tables : Tables) (electionId : Int) (source target : ElectionState) : Prop :=
  ∃ t ∈ electionFSM, t.source = source ∧ t.target = target ∧ runGuard env tables electionId t = .ok () ∧
    ∀ actor, transitionElection env tables electionId t.event actor =
      .ok (movedTables env tables electionId t t.event actor)

/-- The step, where it performs a transition, is one of the guarded machine. -/
def State.Refined (columns : List Column) (s : State) : Input → Prop
  | .execute index env fails =>
      ∀ x ∈ s.pending[index]?, ∀ db, execute columns env s.db x fails = .ok db →
        Guarded env s.db.tables x.electionId x.source x.target
  | _ => True

/-- The service leaves the tables and its log as they are. -/
def State.Unmoved (columns : List Column) (s : State) (i : Input) : Prop :=
  (∀ tables, i ≠ .others tables) → (s.step columns i).db = s.db

variable {columns : List Column} {env : Env} {s : State} {x : Pending} {fails : Bool}

/-- What a transition that is committed has met. -/
theorem execute_ok {db db' : ServiceDb} :
    execute columns env db x fails = .ok db' ↔
      ∃ e, db.tables.election? x.electionId = some e ∧ e.status = x.source ∧
        refusedColumn columns insertColumns = none ∧ fails = false ∧
        db' = ⟨db.tables.updateElection x.electionId (x.move env), db.lifecycle ++ [x.row]⟩ := by
  rw [execute]
  cases hrefused : refusedColumn columns insertColumns with
  | some name => simp [bind_eq_ok]
  | none =>
      simp only [bind_eq_ok, fetch_eq_ok, require_eq_ok, pure_eq_ok, beq_iff_eq, Bool.not_eq_true', true_and]
      constructor
      · rintro ⟨e, he, _, hstatus, _, hworks, rfl⟩
        exact ⟨e, he, hstatus, hworks, rfl⟩
      · rintro ⟨e, he, hstatus, hworks, rfl⟩
        exact ⟨e, he, (), hstatus, (), hworks, rfl⟩

/-- The step of the guarded machine is there exactly where an entry is, and its guard passes. -/
theorem guarded_iff {tables : Tables} {electionId : Int} {e : Election} (he : tables.election? electionId = some e)
    {target : ElectionState} :
    Guarded env tables electionId e.status target ↔
      ∃ t ∈ electionFSM, t.source = e.status ∧ t.target = target ∧ runGuard env tables electionId t = .ok () := by
  constructor
  · rintro ⟨t, ht, hsource, htarget, hguard, -⟩
    exact ⟨t, ht, hsource, htarget, hguard⟩
  · rintro ⟨t, ht, hsource, htarget, hguard⟩
    refine ⟨t, ht, hsource, htarget, hguard, fun actor => ?_⟩
    exact transitionElection_ok.mpr ⟨e, t, he, ht, hsource, rfl, hguard, rfl⟩

/-- Whatever the columns are: a transaction that is committed is guarded exactly if an entry with the two states
lets it pass. -/
theorem refined_iff {index : Nat} (hx : s.pending[index]? = some x) {db : ServiceDb}
    (hdb : execute columns env s.db x fails = .ok db) :
    s.Refined columns (.execute index env fails) ↔
      ∃ t ∈ electionFSM, t.source = x.source ∧ t.target = x.target ∧
        runGuard env s.db.tables x.electionId t = .ok () := by
  obtain ⟨e, he, hstatus, -⟩ := execute_ok.mp hdb
  rw [← hstatus, ← guarded_iff he, hstatus]
  constructor
  · exact fun h => h x hx db hdb
  · intro h y hy _ _
    rw [Option.mem_def, hx, Option.some.injEq] at hy
    exact hy ▸ h

/-- Four entries of the table are on none of the guarded machine. -/
theorem unguarded_entries :
    (validTransitions.flatMap fun entry => entry.2.map fun target => (entry.1, target)).filter
        (fun edge => electionFSM.all fun t => !(t.source == edge.1 && t.target == edge.2)) =
      [(.scheduled, .suspended), (.postponed, .cancelled), (.active, .cancelled), (.suspended, .cancelled)] := by
  decide

/-! ### The table as it is -/

theorem refusedColumn_lifecycleColumns : refusedColumn lifecycleColumns insertColumns = some "phase" := by
  decide

theorem execute_refused {db db' : ServiceDb} : execute lifecycleColumns env db x fails ≠ .ok db' := by
  intro h
  obtain ⟨_, _, _, hnone, _⟩ := execute_ok.mp h
  rw [refusedColumn_lifecycleColumns] at hnone
  cases hnone

/-- In every run over the table as it is, what the service performs the guarded machine would perform, and the
service leaves the tables as they are. -/
theorem transition_refused (start : State) (inputs : List Input) :
    Runs.AllSteps (State.step lifecycleColumns)
      (fun s i => s.Refined lifecycleColumns i ∧ s.Unmoved lifecycleColumns i) start inputs := by
  have hstep : ∀ (s : State) i, s.Refined lifecycleColumns i ∧ s.Unmoved lifecycleColumns i := by
    intro s i
    cases i with
    | begin electionId target userId fails =>
        refine ⟨trivial, fun _ => ?_⟩
        rw [State.step]
        split <;> rfl
    | execute index env fails =>
        refine ⟨fun x _ db hdb => absurd hdb execute_refused, fun _ => ?_⟩
        rw [State.step]
        split
        · split
          case h_1 db hdb => exact absurd hdb execute_refused
          case h_2 => rfl
        · rfl
    | others tables => exact ⟨trivial, fun h => absurd rfl (h tables)⟩
  have hkeep : ∀ (s : State) (i : Input), True → True := fun _ _ _ => trivial
  exact @Runs.allSteps_of_inv _ _ _ _ (fun _ => True) hkeep (fun s i _ => hstep s i) start trivial inputs

end Inec.ElectionService
