import Inec.Election.Guards

/-!
# The election lifecycle

`electionFSM` and `TransitionElection` of election_fsm.go. A transition runs under the row lock of its
election, so it is one step; `transitionElection_ok` says everything it can do.
-/

namespace Inec

open Checks

/-- The guard functions by name. -/
inductive Guard
  | schedule | activate | openVoting | closeVoting | finalize | dispute | declare
  deriving DecidableEq, Repr

def Guard.run (env : Env) (db : Tables) (electionId : Int) : Guard → Except String Unit
  | .schedule => guardSchedule env db electionId
  | .activate => guardActivate env db electionId
  | .openVoting => guardOpenVoting env db electionId
  | .closeVoting => guardCloseVoting db electionId
  | .finalize => guardFinalize db electionId
  | .dispute => guardDispute db electionId
  | .declare => guardDeclare env db electionId

structure ElectionTransition where
  source : ElectionState
  target : ElectionState
  event : ElectionEvent
  guard : Option Guard
  deriving DecidableEq, Repr

def electionFSM : List ElectionTransition :=
  [⟨.draft, .scheduled, .schedule, some .schedule⟩,
    ⟨.scheduled, .active, .activate, some .activate⟩,
    ⟨.active, .voting, .openVoting, some .openVoting⟩,
    ⟨.voting, .collating, .closeVoting, some .closeVoting⟩,
    ⟨.collating, .closed, .finalize, some .finalize⟩,
    ⟨.scheduled, .cancelled, .cancel, none⟩,
    ⟨.draft, .cancelled, .cancel, none⟩,
    ⟨.closed, .disputed, .dispute, some .dispute⟩,
    ⟨.disputed, .closed, .resolveDispute, none⟩,
    ⟨.scheduled, .postponed, .postpone, none⟩,
    ⟨.postponed, .scheduled, .reschedule, some .schedule⟩,
    ⟨.active, .suspended, .suspend, none⟩,
    ⟨.voting, .suspended, .suspend, none⟩,
    ⟨.collating, .suspended, .suspend, none⟩,
    ⟨.suspended, .active, .resumeActive, none⟩,
    ⟨.suspended, .voting, .resumeVoting, none⟩,
    ⟨.suspended, .collating, .resumeCollating, none⟩,
    ⟨.collating, .declared, .declare, some .declare⟩,
    ⟨.closed, .declared, .declare, some .declare⟩]

/-- The guard of a transition, with the prefix `TransitionElection` puts before its error. -/
def runGuard (env : Env) (db : Tables) (electionId : Int) (t : ElectionTransition) : Except String Unit :=
  match t.guard with
  | none => .ok ()
  | some guard => relabel (guard.run env db electionId) fun err =>
      "guard failed for " ++ t.source.text ++ "→" ++ t.target.text ++ ": " ++ err

def invalidTransition (event : ElectionEvent) (current : ElectionState) : String :=
  "invalid transition: cannot apply event '" ++ event.text ++ "' in state '" ++ current.text ++
    "' (valid events: [" ++ String.intercalate " "
      ((electionFSM.filter fun t => t.source == current).map fun t => t.event.text) ++ "])"

/-- The UPDATE of the election row. -/
def moveElection (env : Env) (t : ElectionTransition) (e : Election) : Election :=
  { e with status := t.target, updatedAt := env.now }

@[simp] theorem moveElection_id (env : Env) (t : ElectionTransition) (e : Election) :
    (moveElection env t e).id = e.id := rfl

/-- The two writes of a transition. -/
def movedTables (env : Env) (db : Tables) (electionId : Int) (t : ElectionTransition) (event : ElectionEvent)
    (actor : String) : Tables :=
  (db.updateElection electionId (moveElection env t)).logState
    ⟨electionId, t.source, t.target, event, actor, env.now⟩

def transitionElection (env : Env) (db : Tables) (electionId : Int) (event : ElectionEvent) (actor : String) :
    Except String Tables := do
  let e ← fetch (db.election? electionId) ("election " ++ toString electionId ++ " not found")
  let t ← fetch (electionFSM.find? fun t => t.source == e.status && t.event == event)
    (invalidTransition event e.status)
  runGuard env db electionId t
  return movedTables env db electionId t event actor

/-- The request behind `POST /elections/{id}/transition`. -/
def handleElectionFSMTransition (env : Env) (db : Tables) (electionId : Int) (event : ElectionEvent) :
    Except HttpError Tables := do
  requireRole env [.admin]
  require (event.text != "") ⟨400, "validation failed: [field 'Event' failed on 'required']"⟩
  relabel (transitionElection env db electionId event env.claims.username) fun err => ⟨422, err⟩

/-- A transition takes one entry of the table from the state the election is in: it writes the new
state and logs the entry. -/
theorem transitionElection_ok {env : Env} {db db' : Tables} {electionId : Int} {event : ElectionEvent}
    {actor : String} :
    transitionElection env db electionId event actor = .ok db' ↔
      ∃ e t, db.election? electionId = some e ∧ t ∈ electionFSM ∧ t.source = e.status ∧ t.event = event ∧
        runGuard env db electionId t = .ok () ∧ db' = movedTables env db electionId t event actor := by
  -- an event has at most one entry for each source state, so the search finds the entry itself
  have hunique : ∀ t ∈ electionFSM,
      electionFSM.find? (fun t' => t'.source == t.source && t'.event == t.event) = some t := by decide
  simp only [transitionElection, bind_eq_ok, fetch_eq_ok, pure_eq_ok]
  constructor
  · rintro ⟨e, he, t, ht, u, hguard, rfl⟩
    have hmatch := List.find?_some ht
    simp only [Bool.and_eq_true, beq_iff_eq] at hmatch
    exact ⟨e, t, he, List.mem_of_find?_eq_some ht, hmatch.1, hmatch.2, hguard, rfl⟩
  · rintro ⟨e, t, he, ht, hsource, rfl, hguard, rfl⟩
    exact ⟨e, he, t, hsource ▸ hunique t ht, (), hguard, rfl⟩

end Inec
