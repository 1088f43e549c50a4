import Inec.Election.StateLog

/-!
# Suspension

A suspended election is resumed by one of three events, and the transition table offers all three
whatever the election was suspended from. The state log knows: its last row names the state that was
left. A run keeps the phase of an election exactly if every resume event names that state.
-/

namespace Inec

open Checks

variable {sha256Hex : String → String}

/-! ### The moves of an election -/

/-- The table entry a request makes an election take. -/
def taken? (electionId : Int) (d : Database) (q : Request) : Option ElectionTransition :=
  match q.op with
  | .transition id event actor =>
      if id = electionId ∧ (transitionElection q.env d.tables id event actor).toOption.isSome then
        (d.tables.election? id).bind fun e => electionFSM.find? fun t => t.source == e.status && t.event == event
      else none
  | _ => none

variable (sha256Hex) in
/-- The entries an election takes along a run. -/
def moves (electionId : Int) (d : Database) (requests : List Request) : List ElectionTransition :=
  Runs.history (step sha256Hex) (taken? electionId) d requests

/-- The phase an election was in when it was last suspended. -/
def phaseAtSuspension (past : List ElectionTransition) : Option ElectionState :=
  ((past.filter fun t => t.target == .suspended).getLast?).map (·.source)

/-- Voting was closed by the `close_voting` event. -/
def VotingClosed (past : List ElectionTransition) : Prop :=
  ∃ t ∈ past, t.source = .voting ∧ t.event = .closeVoting

/-- A move out of suspension leads back to the phase before it, and a move to `collating` has a
`close_voting` behind it. -/
def PhaseKept (past : List ElectionTransition) (t : ElectionTransition) : Prop :=
  (t.source = .suspended → phaseAtSuspension past = some t.target) ∧
    (t.target = .collating → VotingClosed (past ++ [t]))

/-- The state the last log row of an election leaves. -/
def loggedPhase (db : Tables) (electionId : Int) : Option ElectionState :=
  ((logOf db electionId).getLast?).map (·.fromState)

/-- A resume event for the suspended election names the state that the log says it was suspended from. -/
def ResumeMatchesLog (electionId : Int) (d : Database) (q : Request) : Prop :=
  ∀ event actor e t, q.op = .transition electionId event actor → d.tables.election? electionId = some e →
    e.status = .suspended → t ∈ electionFSM → t.source = .suspended → t.event = event →
    loggedPhase d.tables electionId = some t.target

/-! ### The table -/

theorem guard_of_suspended : ∀ t ∈ electionFSM, t.source = .suspended → t.guard = none := by decide

theorem target_collating : ∀ t ∈ electionFSM, t.target = .collating →
    (t.source = .voting ∧ t.event = .closeVoting) ∨ t.source = .suspended := by decide

theorem entry_unique : ∀ t ∈ electionFSM, ∀ t' ∈ electionFSM, t.source = t'.source →
      t.event = t'.event → t = t' := by
  decide

/-! ### What a step does to one election -/

/-- The move itself, without what else the request wrote. -/
theorem Move.exact {env : Env} {db db' : Tables} {electionId : Int} {event : ElectionEvent} {actor : String}
    {e : Election} {t : ElectionTransition} (h : Move env db db' electionId event actor e t) :
    Move env db (movedTables env db electionId t event actor) electionId event actor e t :=
  { h with core := Tables.SameCore.refl _ }

theorem Move.accepted {env : Env} {db db' : Tables} {electionId : Int} {event : ElectionEvent} {actor : String}
    {e : Election} {t : ElectionTransition} (h : Move env db db' electionId event actor e t) :
    transitionElection env db electionId event actor = .ok (movedTables env db electionId t event actor) :=
  transitionElection_ok.mpr ⟨e, t, h.found, h.entry, h.source, h.named, h.guard, rfl⟩

theorem taken?_eq_some {electionId : Int} {d : Database} {q : Request} {t : ElectionTransition} :
    taken? electionId d q = some t ↔ ∃ event actor e, q.op = .transition electionId event actor ∧
      Move q.env d.tables (movedTables q.env d.tables electionId t event actor) electionId event actor e t := by
  constructor
  · intro h
    unfold taken? at h
    split at h
    · rename_i id event actor hop
      split at h
      · rename_i haccepted
        obtain ⟨rfl, hsome⟩ := haccepted
        obtain ⟨e, he, hfind⟩ := Option.bind_eq_some_iff.mp h
        obtain ⟨db', hdb'⟩ := Option.isSome_iff_exists.mp hsome
        obtain ⟨e', t', he', ht', hsource, hevent, hguard, _⟩ :=
          transitionElection_ok.mp (toOption_eq_some.mp hdb')
        have hmatch := List.find?_some hfind
        simp only [Bool.and_eq_true, beq_iff_eq] at hmatch
        have hrow : e = e' := Option.some.inj (he.symm.trans he')
        have htt : t = t' := entry_unique t (List.mem_of_find?_eq_some hfind) t' ht'
          (by rw [hmatch.1, hsource, hrow]) (by rw [hmatch.2, hevent])
        subst hrow htt
        exact ⟨event, actor, e, hop, ⟨he, ht', hsource, hevent, hguard, Tables.SameCore.refl _⟩⟩
      · cases h
    · cases h
  · rintro ⟨event, actor, e, hop, hmove⟩
    simp only [taken?, hop, hmove.accepted, Except.toOption, Option.isSome_some, and_self, if_true, hmove.found,
      Option.bind_some]
    cases hfind : electionFSM.find? fun t => t.source == e.status && t.event == event with
    | none =>
        have hnone := List.find?_eq_none.mp hfind t hmove.entry
        simp [hmove.source, hmove.named] at hnone
    | some t' =>
        have hmatch := List.find?_some hfind
        simp only [Bool.and_eq_true, beq_iff_eq] at hmatch
        rw [entry_unique t hmove.entry t' (List.mem_of_find?_eq_some hfind) (by rw [hmatch.1, hmove.source])
          (by rw [hmatch.2, hmove.named])]

/-- A request that makes the election take no entry keeps its state and its log, or declares it. -/
theorem row_of_not_taken {electionId : Int} {d : Database} {q : Request} {e : Election}
    (he : d.tables.election? electionId = some e) (h : taken? electionId d q = none) :
    ((step sha256Hex d q).tables.election? electionId = some e ∧
        logOf (step sha256Hex d q).tables electionId = logOf d.tables electionId) ∨
      ∃ e', (step sha256Hex d q).tables.election? electionId = some e' ∧ e'.status = .declared := by
  rcases step_lifecycle d q with ⟨helections, hlog⟩ | ⟨e', scopes, hcreation⟩ |
    ⟨id, event, actor, e', t, hop, hmove⟩ | ⟨id, req, e', a, _, hdeclaration⟩
  · left
    rw [Tables.election?, helections, logOf, hlog]
    exact ⟨he, rfl⟩
  · left
    rw [hcreation.election?, he, logOf, hcreation.core.electionStateLog]
    exact ⟨rfl, rfl⟩
  · left
    have hne : electionId ≠ id := by
      rintro rfl
      rw [taken?_eq_some.mpr ⟨event, actor, e', hop, hmove.exact⟩] at h
      cases h
    rw [((hmove.written d.constraints).other electionId hne).1]
    exact ⟨he, ((hmove.written d.constraints).other electionId hne).2⟩
  · have hwritten := hdeclaration.written d.constraints
    by_cases hid : electionId = id
    · subst hid
      exact Or.inr ⟨_, hwritten.found, rfl⟩
    · left
      rw [(hwritten.other electionId hid).1]
      exact ⟨he, (hwritten.other electionId hid).2⟩

/-- The election after a move. -/
theorem row_of_move {electionId : Int} {d : Database} {q : Request} {event : ElectionEvent} {actor : String}
    {e : Election} {t : ElectionTransition} (hop : q.op = .transition electionId event actor)
    (h : Move q.env d.tables (movedTables q.env d.tables electionId t event actor) electionId event actor e t) :
    (step sha256Hex d q).tables.election? electionId = some (moveElection q.env t e) ∧
      loggedPhase (step sha256Hex d q).tables electionId = some t.source := by
  have hrun : q.op.run sha256Hex q.env d.tables = some (movedTables q.env d.tables electionId t event actor) := by
    rw [hop]
    exact toOption_eq_some.mpr h.accepted
  rw [step_accepted hrun]
  have hwritten := h.written d.constraints
  refine ⟨hwritten.found, ?_⟩
  rw [loggedPhase, hwritten.log, List.getLast?_concat]
  rfl

/-- Every entry out of `suspended` is taken when it is asked for: none has a guard. -/
theorem taken_of_suspended {electionId : Int} {d : Database} {q : Request} {event : ElectionEvent} {actor : String}
    {e : Election} {t : ElectionTransition} (hop : q.op = .transition electionId event actor)
    (he : d.tables.election? electionId = some e) (hstatus : e.status = .suspended) (ht : t ∈ electionFSM)
    (hsource : t.source = .suspended) (hevent : t.event = event) : taken? electionId d q = some t := by
  have hguard : runGuard q.env d.tables electionId t = .ok () := by
    rw [runGuard, guard_of_suspended t ht hsource]
  exact taken?_eq_some.mpr ⟨event, actor, e, hop,
    ⟨he, ht, hsource.trans hstatus.symm, hevent, hguard, Tables.SameCore.refl _⟩⟩

/-! ### The phase along a run -/

theorem VotingClosed.append {past rest : List ElectionTransition} (h : VotingClosed past) :
    VotingClosed (past ++ rest) := by
  obtain ⟨t, ht, hclose⟩ := h
  exact ⟨t, List.mem_append_left _ ht, hclose⟩

theorem phaseAtSuspension_append {past : List ElectionTransition} {t : ElectionTransition}
    (h : t.target = .suspended) : phaseAtSuspension (past ++ [t]) = some t.source := by
  simp [phaseAtSuspension, List.filter_append, h]

/-- What the moves taken so far say about the state the election is in. -/
structure PhaseTracked (electionId : Int) (past : List ElectionTransition) (d : Database)
    (e : Election) : Prop where
  found : d.tables.election? electionId = some e
  collating : e.status = .collating → VotingClosed past
  suspended : e.status = .suspended → loggedPhase d.tables electionId = phaseAtSuspension past ∧
    (phaseAtSuspension past = some .collating → VotingClosed past)

theorem phaseTracked_of_not_taken {electionId : Int} {past : List ElectionTransition} {d : Database} {q : Request}
    {e : Election} (h : PhaseTracked electionId past d e) (htaken : taken? electionId d q = none) :
    ResumeMatchesLog electionId d q ∧ ∃ e', PhaseTracked electionId past (step sha256Hex d q) e' := by
  constructor
  · intro event actor e' t hop he' hstatus ht hsource hevent
    rw [taken_of_suspended hop he' hstatus ht hsource hevent] at htaken
    cases htaken
  · rcases row_of_not_taken h.found htaken with ⟨hfound, hlog⟩ | ⟨e', hfound, hdeclared⟩
    · refine ⟨e, hfound, h.collating, ?_⟩
      rw [loggedPhase, hlog]
      exact h.suspended
    · refine ⟨e', hfound, fun hstatus => ?_, fun hstatus => ?_⟩
      · rw [hdeclared] at hstatus
        cases hstatus
      · rw [hdeclared] at hstatus
        cases hstatus

/-- Where the phase is tracked, a move keeps it exactly if its request matches the log. -/
theorem phaseKept_iff_of_taken {electionId : Int} {past : List ElectionTransition} {d : Database} {q : Request}
    {e : Election} {t : ElectionTransition} (h : PhaseTracked electionId past d e)
    (htaken : taken? electionId d q = some t) : PhaseKept past t ↔ ResumeMatchesLog electionId d q := by
  obtain ⟨event, actor, e', hop, hmove⟩ := taken?_eq_some.mp htaken
  have hrow : e' = e := Option.some.inj (hmove.found.symm.trans h.found)
  subst hrow
  constructor
  · intro hkept event' actor' e'' t' hop' he'' hstatus ht' hsource' hevent'
    rw [hop] at hop'
    obtain ⟨-, rfl, -⟩ := Op.transition.inj hop'
    rw [← Option.some.inj (hmove.found.symm.trans he'')] at hstatus
    have htt : t' = t := entry_unique t' ht' t hmove.entry (by rw [hsource', hmove.source, hstatus])
      (by rw [hevent', hmove.named])
    rw [(h.suspended hstatus).1, htt]
    exact hkept.1 (hmove.source.trans hstatus)
  · intro hmatch
    have hphase : t.source = .suspended → phaseAtSuspension past = some t.target := by
      intro hsource
      have hstatus : e'.status = .suspended := hmove.source.symm.trans hsource
      rw [← (h.suspended hstatus).1]
      exact hmatch event actor e' t hop hmove.found hstatus hmove.entry hsource hmove.named
    refine ⟨hphase, fun htarget => ?_⟩
    rcases target_collating t hmove.entry htarget with hclose | hsource
    · exact ⟨t, List.mem_append_right _ (List.mem_singleton_self t), hclose⟩
    · have hstatus : e'.status = .suspended := hmove.source.symm.trans hsource
      exact ((h.suspended hstatus).2 (htarget ▸ hphase hsource)).append

theorem phaseTracked_of_taken {electionId : Int} {past : List ElectionTransition} {d : Database} {q : Request}
    {e : Election} {t : ElectionTransition} (h : PhaseTracked electionId past d e)
    (htaken : taken? electionId d q = some t) (hkept : PhaseKept past t) :
    ∃ e', PhaseTracked electionId (past ++ [t]) (step sha256Hex d q) e' := by
  obtain ⟨event, actor, e', hop, hmove⟩ := taken?_eq_some.mp htaken
  obtain ⟨hfound, hlogged⟩ := row_of_move hop hmove
  refine ⟨moveElection q.env t e', hfound, hkept.2, fun hstatus => ?_⟩
  have htarget : t.target = .suspended := hstatus
  rw [hlogged, phaseAtSuspension_append htarget]
  refine ⟨rfl, fun hsource => ?_⟩
  have hrow : e' = e := Option.some.inj (hmove.found.symm.trans h.found)
  have hcollating : e.status = .collating := by
    rw [← hrow, ← hmove.source]
    exact Option.some.inj hsource
  exact (h.collating hcollating).append

/-- From `draft`, an election keeps its phase along a run of any requests exactly if every resume event
matches the log. -/
theorem phaseKept_iff_resumeMatchesLog (electionId : Int) (d : Database) {e : Election}
    (he : d.tables.election? electionId = some e) (hdraft : e.status = .draft) (requests : List Request) :
    Runs.AtEach PhaseKept [] (moves sha256Hex electionId d requests) ↔
      Runs.AllSteps (step sha256Hex) (ResumeMatchesLog electionId) d requests := by
  have hstart : PhaseTracked electionId [] d e := by
    refine ⟨he, fun hstatus => ?_, fun hstatus => ?_⟩
    · rw [hdraft] at hstatus
      cases hstatus
    · rw [hdraft] at hstatus
      cases hstatus
  refine @Runs.atEach_history_iff _ _ _ _ _ _ _ (fun past d => ∃ e, PhaseTracked electionId past d e) ?_ ?_ [] d
    ⟨e, hstart⟩ requests
  · rintro past d q ⟨e, h⟩ htaken
    exact phaseTracked_of_not_taken h htaken
  · rintro past d q t ⟨e, h⟩ htaken
    exact ⟨phaseKept_iff_of_taken h htaken, phaseTracked_of_taken h htaken⟩

/-- An election in `draft` with a date, a polling unit and a member of staff. -/
def plannedPoll : Database where
  tables :=
    { Tables.empty with
      pollingUnits := [⟨"PU-1", "W-1", 200⟩]
      elections := [{ Election.bare 1 .gubernatorial .draft with electionDate := "2027-02-20" }]
      staffAssignments := [⟨1, 7, "polling_unit", "PU-1", "assigned"⟩] }
  constraints := by decide

/-- The chair applies the events one after another. -/
def chairEvents (events : List ElectionEvent) : List Request :=
  events.map fun event => ⟨.plain 1 "chair" .admin 0, .transition 1 event "chair"⟩

/-- Suspended while active and resumed as active. -/
theorem phaseKept_iff_resumeMatchesLog_active :
    Runs.AllSteps (step HexText.hexText) (ResumeMatchesLog 1) plannedPoll
      (chairEvents [.schedule, .activate, .suspend, .resumeActive]) := by
  refine (phaseKept_iff_resumeMatchesLog 1 plannedPoll rfl rfl _).mp ?_
  have hmoves : moves HexText.hexText 1 plannedPoll (chairEvents [.schedule, .activate, .suspend, .resumeActive]) =
      [⟨.draft, .scheduled, .schedule, some .schedule⟩, ⟨.scheduled, .active, .activate, some .activate⟩,
        ⟨.active, .suspended, .suspend, none⟩, ⟨.suspended, .active, .resumeActive, none⟩] := by decide
  rw [hmoves]
  simp [PhaseKept, phaseAtSuspension]

/-- A second election is created `active`, suspended and resumed as collating. No guard stands on this
way, so what the driver answers to `guardActivate` does not matter. -/
def createdActive : List Request :=
  [⟨.plain 1 "chair" .admin 0, .createElection ⟨"Governorship", "gubernatorial", "2027-02-20", "", "active"⟩⟩,
    ⟨.plain 1 "chair" .admin 0, .transition 2 .suspend "chair"⟩,
    ⟨.plain 1 "chair" .admin 0, .transition 2 .resumeCollating "chair"⟩]

/-- Suspended while active, resumed as collating: voting never opened. -/
theorem not_phaseKept_of_resumeCollating :
    (¬ ∀ (sha256Hex : String → String) (electionId : Int) (d : Database) (e : Election) (requests : List Request),
      (∀ q ∈ requests, q.op.isLifecycle = true) → d.tables.election? electionId = some e → e.status = .draft →
      Runs.AtEach PhaseKept [] (moves sha256Hex electionId d requests)) ∧
    ¬ Runs.AtEach PhaseKept [] (moves HexText.hexText 2 plannedPoll createdActive) := by
  constructor
  · intro h
    have hkept := h HexText.hexText 1 plannedPoll _
      (chairEvents [.schedule, .activate, .suspend, .resumeCollating])
        (by simp [chairEvents, Op.isLifecycle]) rfl rfl
    have hmoves : moves HexText.hexText 1 plannedPoll
        (chairEvents [.schedule, .activate, .suspend, .resumeCollating]) =
        [⟨.draft, .scheduled, .schedule, some .schedule⟩, ⟨.scheduled, .active, .activate, some .activate⟩,
          ⟨.active, .suspended, .suspend, none⟩, ⟨.suspended, .collating, .resumeCollating, none⟩] := by decide
    rw [hmoves] at hkept
    simp [PhaseKept, phaseAtSuspension] at hkept
  · have hmoves : moves HexText.hexText 2 plannedPoll createdActive =
        [⟨.active, .suspended, .suspend, none⟩, ⟨.suspended, .collating, .resumeCollating, none⟩] := by decide
    rw [hmoves]
    simp [PhaseKept, phaseAtSuspension]

end Inec
