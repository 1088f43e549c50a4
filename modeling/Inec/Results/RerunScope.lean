import Inec.Collation.CountsOnce
import Inec.Results.Effects

/-!
# The scope of a rerun

A rerun, a supplementary or a by-election covers the areas it was ordered for. `handleSubmitResult` and
`handleSubmitEC8A` refuse a polling unit outside of them, and a correction keeps the unit of the result it
replaces. `applyResultTx` has no such check of its own, so what a queue worker applies comes in for any unit.

The scope of an election is written once, with the election: what was in scope stays in scope.
-/

namespace Inec

open Checks

variable {sha256Hex : String → String}

/-- If the election is a rerun, a supplementary or a by-election, the polling unit is in its declared scope. -/
def InScope (db : Tables) (electionId : Int) (code : String) : Prop :=
  ∀ e ∈ db.elections, e.id = electionId → e.electionKind.isChild = true → puInRerunScope db electionId code = true

instance (db : Tables) (electionId : Int) (code : String) : Decidable (InScope db electionId code) :=
  inferInstanceAs (Decidable (∀ e ∈ db.elections, _ → _ → _))

/-- Every result is of a unit in the scope of its election. -/
def ScopesKept (db : Tables) : Prop := ∀ r ∈ db.results, InScope db r.electionId r.pollingUnitCode

instance (db : Tables) : Decidable (ScopesKept db) := inferInstanceAs (Decidable (∀ r ∈ db.results, _))

variable (sha256Hex) in
/-- A payload that is applied, and for which there is no canonical row yet, is of a unit in scope. -/
def IngestsInScope (d : Database) (q : Request) : Prop :=
  ∀ res, q.op = .ingest res → (q.op.run sha256Hex q.env d.tables).isSome = true →
    liveResult? d.tables res.electionId res.pollingUnitCode = none →
      InScope d.tables res.electionId res.pollingUnitCode

/-! ### What was in scope stays in scope -/

section Kept

variable {env : Env} {db db' : Tables} {op : Op} {electionId : Int} {code : String}

/-- Scopes of other elections do not count. -/
theorem puInRerunScope_append {scopes : List RerunScope} (hunits : db'.pollingUnits = db.pollingUnits)
    (hwards : db'.wards = db.wards) (hscopes : db'.rerunScopes = db.rerunScopes ++ scopes)
    (hother : ∀ s ∈ scopes, s.electionId ≠ electionId) :
    puInRerunScope db' electionId code = puInRerunScope db electionId code := by
  have hward : wardOf db' code = wardOf db code := by
    simp only [wardOf, Tables.pollingUnit?, hunits]
  have hlga : lgaOf db' code = lgaOf db code := by
    simp only [lgaOf, hward, hwards]
  have hnone : ∀ covers : RerunScope → Bool, (scopes.any fun s => s.electionId == electionId &&
      covers s) = false := by
    intro covers
    apply List.any_eq_false.mpr
    intro s hs hcovers
    exact hother s hs (beq_iff_eq.mp (Bool.and_eq_true_iff.mp hcovers).1)
  simp only [puInRerunScope, hscopes, List.any_append, hward, hlga]
  rw [hnone, Bool.or_false]

/-- The same scopes, and elections of the same kinds. -/
theorem InScope.of_kinds (h : InScope db electionId code)
    (hscope : puInRerunScope db' electionId code = puInRerunScope db electionId code)
    (hkinds : ∀ e' ∈ db'.elections, e'.id = electionId →
      ∃ e ∈ db.elections, e.id = electionId ∧ e.electionKind = e'.electionKind) : InScope db' electionId code := by
  intro e' he' hid hchild
  obtain ⟨e, he, heid, hkind⟩ := hkinds e' he' hid
  rw [hscope]
  exact h e he heid (hkind ▸ hchild)

/-- The elections and their scopes are untouched. -/
theorem InScope.congr (h : InScope db electionId code) (helections : db'.elections = db.elections)
    (hscopes : db'.rerunScopes = db.rerunScopes) (hunits : db'.pollingUnits = db.pollingUnits)
    (hwards : db'.wards = db.wards) : InScope db' electionId code := by
  apply h.of_kinds
  · apply puInRerunScope_append hunits hwards
    · rw [hscopes, List.append_nil]
    · intro s hs
      cases hs
  · intro e' he' hid
    exact ⟨e', helections ▸ he', hid, rfl⟩

theorem InScope.sameCore (h : InScope db electionId code) (hcore : Tables.SameCore db db') :
    InScope db' electionId code :=
  h.congr hcore.elections hcore.rerunScopes hcore.pollingUnits hcore.wards

/-- A write to results. -/
theorem InScope.sameElections (h : InScope db electionId code) {results : List ResultRow} {scores : List PartyScore}
    (hcore : Tables.SameCore { db with results := results, resultPartyScores := scores } db') :
    InScope db' electionId code :=
  h.congr hcore.elections hcore.rerunScopes hcore.pollingUnits hcore.wards

/-- A write to an election keeps its kind. -/
theorem InScope.updateElection (h : InScope db electionId code) {id : Int} {f : Election → Election}
    {row : StateLogRow} (hf : ∀ e, (f e).id = e.id ∧ (f e).electionKind = e.electionKind) :
    InScope ((db.updateElection id f).logState row) electionId code := by
  refine h.of_kinds rfl ?_
  intro e' he' hid
  rcases Rows.mem_update.mp he' with ⟨e, he, -, rfl⟩ | ⟨he, -⟩
  · exact ⟨e, he, (hf e).1.symm.trans hid, (hf e).2.symm⟩
  · exact ⟨e', he, hid, rfl⟩

theorem Creation.inScope {e : Election} {scopes : List RerunScope} (h : Creation db db' e scopes)
    (hid : electionId ∈ db.elections.map (·.id)) (hscope : InScope db electionId code) :
    InScope db' electionId code := by
  have hne : e.id ≠ electionId := by
    intro heq
    rw [← heq, h.id] at hid
    exact nextSerial_notMem _ hid
  refine InScope.sameCore ?_ h.core
  apply hscope.of_kinds
  · refine puInRerunScope_append rfl rfl (show _ = db.rerunScopes ++ scopes from rfl) ?_
    intro s hs
    rw [h.covers s hs]
    exact hne
  · intro e' he' hid'
    rcases List.mem_append.mp he' with hold | hnew
    · exact ⟨e', hold, hid', rfl⟩
    · obtain rfl := List.mem_singleton.mp hnew
      exact absurd hid' hne

theorem Effect.inScope (h : Effect sha256Hex env db db' op) (hid : electionId ∈ db.elections.map (·.id))
    (hscope : InScope db electionId code) : InScope db' electionId code := by
  cases h with
  | quiet core => exact hscope.sameCore core
  | created _ creation => exact creation.inScope hid hscope
  | @moved _ event actor e t move =>
      refine InScope.sameCore (hscope.updateElection ?_) move.core
      exact fun _ => ⟨rfl, rfl⟩
  | @declared _ req e a declaration =>
      refine InScope.sameCore (hscope.updateElection ?_) declaration.core
      exact fun _ => ⟨rfl, rfl⟩
  | submitted submission => exact hscope.sameElections submission.core
  | reviewed review => exact hscope.sameElections review.core
  | finalized _ core => exact hscope.sameElections core
  | annulled _ _ core => exact hscope.sameElections core
  | corrected _ core => exact hscope.sameElections core

end Kept

/-! ### Where rows come in -/

section Doors

variable {env : Env} {db base : Tables} {op : Op} {row : ResultRow} {scores : List PartyVoteEntry}

/-- The check of the two endpoints. -/
theorem inScope_of_declared (hconstraints : db.Constraints) {electionId : Int} {e : Election} {code : String}
    (he : db.election? electionId = some e) (h : inDeclaredScope db e code = true) :
    InScope db electionId code := by
  intro e' he' hid hchild
  obtain rfl : e' = e := by
    have hfound := (Tables.election?_eq_some hconstraints).mpr ⟨he', hid⟩
    exact Option.some.inj (hfound.symm.trans he)
  rw [inDeclaredScope, Bool.or_eq_true] at h
  rcases h with hgeneral | hscope
  · rw [beq_iff_eq.mp hgeneral] at hchild
    cases hchild
  · rw [← hid]
    exact hscope

/-- A new row is in scope, or it has the key of an old one, or it comes from a queue. -/
theorem Inserts.inScope (h : Inserts sha256Hex env db op base row scores) (hconstraints : db.Constraints) :
    InScope db row.electionId row.pollingUnitCode ∨ (∃ old ∈ db.results, old.key = row.key) ∨
      ∃ res, op = .ingest res ∧ liveResult? db res.electionId res.pollingUnitCode = none ∧
        row = ingestedRow sha256Hex db res := by
  cases h with
  | @ingested res checked vacant => exact Or.inr (Or.inr ⟨res, rfl, vacant, rfl⟩)
  | submitted checked applied =>
      left
      simp only [checkSubmission, bind_eq_ok, fetch_eq_ok, require_eq_ok] at checked
      obtain ⟨_, _, _, _, e, he, _, _, _, hscope, _⟩ := checked
      exact inScope_of_declared hconstraints he hscope
  | form checked =>
      left
      simp only [checkForm, bind_eq_ok, fetch_eq_ok, require_eq_ok] at checked
      obtain ⟨_, _, _, _, _, _, e, he, _, _, _, hscope, _⟩ := checked
      exact inScope_of_declared hconstraints he hscope
  | corrected checked =>
      right
      left
      obtain ⟨hfound, -⟩ := checkCorrect_ok checked
      exact ⟨_, (Tables.mem_of_result? hfound).1, rfl⟩

theorem checkIngested_election {res : IngestedResult} (h : checkIngested db res = .ok ()) :
    res.electionId ∈ db.elections.map (·.id) := by
  simp only [checkIngested, bind_eq_ok, fetch_eq_ok] at h
  obtain ⟨_, _, e, he, _⟩ := h
  obtain ⟨hmem, hid⟩ := Tables.mem_of_election? he
  exact List.mem_map.mpr ⟨e, hmem, hid⟩

theorem Inserts.election (h : Inserts sha256Hex env db op base row scores) (howned : ResultsOwned db) :
    row.electionId ∈ db.elections.map (·.id) := by
  cases h with
  | ingested checked => exact checkIngested_election checked
  | submitted _ applied => exact checkIngested_election applied
  | form checked =>
      simp only [checkForm, bind_eq_ok, fetch_eq_ok] at checked
      obtain ⟨_, _, _, _, _, _, e, he, _⟩ := checked
      obtain ⟨hmem, hid⟩ := Tables.mem_of_election? he
      exact List.mem_map.mpr ⟨e, hmem, hid⟩
  | corrected checked =>
      have hmem := (Tables.mem_of_result? (checkCorrect_ok checked).1).1
      exact howned (List.mem_map.mpr ⟨_, hmem, rfl⟩)

end Doors

/-! ### Runs -/

/-- The background of a run: scores and results have their owners. -/
def Owned (db : Tables) : Prop := ScoresOwned db ∧ ResultsOwned db

theorem step_owned (d : Database) (q : Request) (h : Owned d.tables) : Owned (step sha256Hex d q).tables := by
  refine ⟨?_, step_resultsOwned d q h.2⟩
  rcases step_cases d q with hsame | hrun
  · rw [hsame]
    exact h.1
  · exact ((run_resultEffect hrun).sheets h.1).1

/-- The rows after a step were in scope before it, if the step ingests in scope. -/
theorem run_rows_inScope {d : Database} {q : Request} {db' : Tables}
    (hrun : q.op.run sha256Hex q.env d.tables = some db') (howned : Owned d.tables) (h : ScopesKept d.tables)
    (hcond : IngestsInScope sha256Hex d q) :
    ∀ r ∈ db'.results,
      r.electionId ∈ d.tables.elections.map (·.id) ∧ InScope d.tables r.electionId r.pollingUnitCode := by
  intro r hr
  have hold : ∀ old ∈ d.tables.results, old.key = r.key →
      r.electionId ∈ d.tables.elections.map (·.id) ∧ InScope d.tables r.electionId r.pollingUnitCode := by
    intro old hold hkey
    obtain ⟨helection, hcode⟩ := Prod.mk.inj hkey
    rw [← helection, ← hcode]
    exact ⟨howned.2 (List.mem_map.mpr ⟨old, hold, rfl⟩), h old hold⟩
  rcases ((run_resultEffect hrun).sheets howned.1).2 r hr with ⟨old, hmem, hsheet, -⟩ | ⟨base, scores, insertion, -⟩
  · apply hold old hmem
    rw [hsheet]
    rfl
  · have helection := insertion.election howned.2
    rcases insertion.inScope d.constraints with hscope | ⟨old, hmem, hkey⟩ | ⟨res, hop, hvacant, rfl⟩
    · exact ⟨helection, hscope⟩
    · exact hold old hmem hkey
    · exact ⟨helection, hcond res hop (by rw [hrun]; rfl) hvacant⟩

theorem step_scopesKept (d : Database) (q : Request) (howned : Owned d.tables) (h : ScopesKept d.tables)
    (hcond : IngestsInScope sha256Hex d q) : ScopesKept (step sha256Hex d q).tables := by
  rcases step_cases d q with hsame | hrun
  · rw [hsame]
    exact h
  · intro r hr
    obtain ⟨hid, hscope⟩ := run_rows_inScope hrun howned h hcond r hr
    exact (run_effect hrun).inScope hid hscope

/-- What a worker applied out of scope is in the table. -/
theorem ingestsInScope_of_scopesKept (d : Database) (q : Request) (h : ScopesKept (step sha256Hex d q).tables) :
    IngestsInScope sha256Hex d q := by
  intro res hop hsome hvacant
  obtain ⟨db', hrun⟩ := Option.isSome_iff_exists.mp hsome
  rw [step_accepted hrun] at h
  rw [hop] at hrun
  obtain ⟨⟨outcome, id, db''⟩, happlied, rfl⟩ := map_eq_ok.mp (toOption_eq_some.mp hrun)
  have hcore := applied_of_vacant happlied hvacant
  have hrow : ingestedRow sha256Hex d.tables res ∈ db''.results := by
    rw [hcore.results]
    exact List.mem_append_right _ (List.mem_singleton_self _)
  exact (h _ hrow).congr hcore.elections.symm hcore.rerunScopes.symm hcore.pollingUnits.symm hcore.wards.symm

/-- From a database without results, every result of every run is of a unit in the declared scope of its election
exactly if every applied payload is. -/
theorem scopesKept_iff_ingestsInScope {start : Database} (hnone : NoResults start.tables)
    (requests : List Request) :
    (∀ d ∈ Runs.visited (step sha256Hex) start requests, ScopesKept d.tables) ↔
      Runs.AllSteps (step sha256Hex) (IngestsInScope sha256Hex) start requests := by
  have howned : Owned start.tables := by
    refine ⟨(hnone.sheetsHold fun _ _ => True).owned, ?_⟩
    rw [ResultsOwned, hnone.1]
    exact List.nil_subset _
  have hstart : ScopesKept start.tables := by
    intro r hr
    rw [hnone.1] at hr
    cases hr
  apply Runs.forall_visited_iff step_owned _ howned hstart requests
  intro d q howned hkept
  exact ⟨ingestsInScope_of_scopesKept d q, step_scopesKept d q howned hkept⟩

/-! ### A rerun of one unit of two -/

/-- A rerun of `PU-1` that is voting. `PU-2` was not ordered to vote again. -/
def scopedRerun : Database where
  tables :=
    { register.tables with
      pollingUnits := [⟨"PU-1", "W-1", 200⟩, ⟨"PU-2", "W-1", 200⟩]
      elections :=
        [.bare 1 .gubernatorial .active,
          { Election.bare 2 .gubernatorial .voting with electionKind := .rerun, parentElectionId := some 1 }]
      rerunScopes := [⟨2, .pollingUnit, "PU-1", "annulled", "chair"⟩] }
  constraints := by decide

/-- A result of the rerun that a worker finds in the queue. -/
def queuedFor (code : String) : Request :=
  ⟨chair, .ingest ⟨2, code, [⟨"APC", 60⟩, ⟨"LP", 40⟩], 100, 0, 7, "device", "", "", ""⟩⟩

theorem scopesKept_iff_ingestsInScope_one_unit :
    NoResults scopedRerun.tables ∧ ((step id scopedRerun (queuedFor "PU-1")).tables.results.map
      (·.key)) = [(2, "PU-1")] ∧ ∀ d ∈ Runs.visited (step id) scopedRerun [queuedFor "PU-1"],
        ScopesKept d.tables := by
  refine ⟨by decide, by decide +kernel, ?_⟩
  apply (scopesKept_iff_ingestsInScope (by decide) _).mpr
  refine ⟨?_, trivial⟩
  intro res hop _ _ e _ _ _
  obtain rfl := Op.ingest.inj hop
  decide +kernel

/-- The worker stores a result of the unit that does not vote again. -/
theorem ingested_out_of_scope :
    NoResults scopedRerun.tables ∧ ¬ScopesKept (Runs.final (step id) scopedRerun [queuedFor "PU-2"]).tables := by
  refine ⟨by decide, ?_⟩
  decide +kernel

end Inec
