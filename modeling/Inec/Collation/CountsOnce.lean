import Inec.Collation.Overlap
import Inec.Collation.Writes
import Inec.Lib.Runs
import Inec.System

/-!
# Counting once along a run

Elections are created, moved and declared, results come in, are reviewed, corrected and annulled. Of all
these requests only the finalization of a child's result can make the collation count a unit twice, and
it does so exactly when another child of the same parent already has a finalized result for the unit:
nothing compares the scopes of two children.
-/

namespace Inec

open Checks

variable {sha256Hex : String → String}

/-- Every result belongs to an election. -/
def ResultsOwned (db : Tables) : Prop := db.results.map (·.electionId) ⊆ db.elections.map (·.id)

variable (sha256Hex) in
/-- An accepted finalization finds no other child of an election with a finalized result for the unit. -/
def FinalizesOnce (d : Database) (q : Request) : Prop :=
  ∀ id r policyId db', q.op = .finalize id → checkFinalize q.env d.tables id = .ok (r, policyId) →
    handleFinalizeResult sha256Hex q.env d.tables id = .ok db' →
    ∀ electionId child, r.key ∈ scopedPus d.tables electionId →
      Contributes d.tables electionId (child, r.pollingUnitCode) → child = r.electionId

/-! ### What contributes after a write -/

theorem contributes_sameCore {db db' : Tables} (h : Tables.SameCore db db') {electionId : Int}
    {key : Int × String} : Contributes db' electionId key ↔ Contributes db electionId key := by
  rw [Contributes, Contributes, scopedPus_sameCore h, finalizedKeys, h.results, finalizedKeys]

/-- An election that was not cancelled before the write has the children it had, or fewer. -/
theorem contributes_of_updateElection {db : Tables} (hconstraints : db.Constraints) {id : Int} {e : Election}
    {f : Election → Election} {row : StateLogRow} (he : db.election? id = some e)
    (hf : (f e).id = e.id ∧ (f e).parentElectionId = e.parentElectionId ∧ (f e).electionKind = e.electionKind)
    (hstatus : e.status ≠ .cancelled) {electionId : Int} {key : Int × String}
    (h : Contributes ((db.updateElection id f).logState row) electionId key) : Contributes db electionId key := by
  obtain ⟨hscoped, hfinalized⟩ := h
  refine ⟨?_, hfinalized⟩
  obtain ⟨hchild, hunits⟩ := mem_scopedPus.mp hscoped
  refine mem_scopedPus.mpr ⟨?_, hunits⟩
  obtain ⟨e', he', hid, hparent, hkind, hnot⟩ := mem_electionChildIDs.mp hchild
  rcases (Tables.mem_updateElection hconstraints he).mp he' with rfl | ⟨he', _⟩
  · exact mem_electionChildIDs.mpr ⟨e, (Tables.mem_of_election? he).1, hf.1 ▸ hid, hf.2.1 ▸ hparent,
      hf.2.2 ▸ hkind, hstatus⟩
  · exact mem_electionChildIDs.mpr ⟨e', he', hid, hparent, hkind, hnot⟩

theorem scopeUnits_addScopes {db : Tables} {e : Election} {scopes : List RerunScope} {child : Int}
    (hscopes : ∀ s ∈ scopes, s.electionId = e.id) (hne : child ≠ e.id) :
    scopeUnits ((db.addElection e).addScopes scopes) child = scopeUnits db child := by
  have hnone : scopes.filter (fun scope => scope.electionId == child) = [] := by
    rw [List.filter_eq_nil_iff]
    intro s hs heq
    exact hne ((beq_iff_eq.mp heq).symm.trans (hscopes s hs))
  simp only [scopeUnits, Tables.addScopes, Tables.addElection, List.filter_append, hnone, List.append_nil]
  rfl

/-- A new election has no results, so nothing new contributes. -/
theorem Creation.contributes {db db' : Tables} {e : Election} {scopes : List RerunScope}
    (h : Creation db db' e scopes) (howned : ResultsOwned db) {electionId : Int} {key : Int × String}
    (hkey : Contributes db' electionId key) : Contributes db electionId key := by
  obtain ⟨hscoped, hfinalized⟩ := (contributes_sameCore h.core).mp hkey
  refine ⟨?_, hfinalized⟩
  have hne : key.1 ≠ e.id := by
    obtain ⟨r, hr, _, rfl⟩ := mem_finalizedKeys.mp hfinalized
    intro hnew
    refine nextSerial_notMem (db.elections.map (·.id)) (h.id ▸ hnew ▸ howned ?_)
    exact List.mem_map_of_mem hr
  obtain ⟨hchild, hunits⟩ := mem_scopedPus.mp hscoped
  rw [scopeUnits_addScopes h.covers hne] at hunits
  refine mem_scopedPus.mpr ⟨?_, hunits⟩
  obtain ⟨e', he', hid, hrest⟩ := mem_electionChildIDs.mp hchild
  rcases List.mem_append.mp he' with he' | he'
  · exact mem_electionChildIDs.mpr ⟨e', he', hid, hrest⟩
  · exact absurd (List.mem_singleton.mp he' ▸ hid).symm hne

theorem mem_finalizedKeys_updateResult {db : Tables} (hconstraints : db.Constraints) {r : ResultRow}
    {f : ResultRow → ResultRow} (hr : db.result? r.id = some r) (hkey : (f r).key = r.key) {key : Int × String} :
    key ∈ finalizedKeys (db.updateResult r.id f) ↔
      ((f r).status = .finalized ∧ key = r.key) ∨ ∃ r' ∈ db.results, r'.id ≠ r.id ∧ r'.status = .finalized ∧
        r'.key = key := by
  obtain ⟨hmem, _⟩ := Tables.mem_of_result? hr
  rw [mem_finalizedKeys]
  constructor
  · rintro ⟨r', hr', hstatus, rfl⟩
    rcases Rows.mem_update.mp hr' with ⟨r₀, hr₀, hid, rfl⟩ | ⟨hr', hne⟩
    · rw [Rows.eq_of_key_eq hconstraints.resultIds hr₀ hmem hid] at hstatus ⊢
      exact Or.inl ⟨hstatus, hkey⟩
    · exact Or.inr ⟨r', hr', hne, hstatus, rfl⟩
  · rintro (⟨hstatus, rfl⟩ | ⟨r', hr', hne, hstatus, rfl⟩)
    · exact ⟨f r, Rows.mem_update.mpr (Or.inl ⟨r, hmem, rfl, rfl⟩), hstatus, hkey⟩
    · exact ⟨r', Rows.mem_update.mpr (Or.inr ⟨hr', hne⟩), hstatus, rfl⟩

/-- A write that does not finalize its result leaves no new finalized key. -/
theorem finalizedKeys_updateResult_subset {db : Tables} (hconstraints : db.Constraints) {r : ResultRow}
    {f : ResultRow → ResultRow} (hr : db.result? r.id = some r) (hkey : (f r).key = r.key)
    (hstatus : (f r).status ≠ .finalized) : finalizedKeys (db.updateResult r.id f) ⊆ finalizedKeys db := by
  intro key h
  rcases (mem_finalizedKeys_updateResult hconstraints hr hkey).mp h with ⟨hfinal, _⟩ | ⟨r', hr', _, hfinal, hkey'⟩
  · exact absurd hfinal hstatus
  · exact mem_finalizedKeys.mpr ⟨r', hr', hfinal, hkey'⟩

theorem finalizedKeys_addResult_subset {db : Tables} {row : ResultRow} {scores : List (String × Int)}
    (hstatus : row.status ≠ .finalized) : finalizedKeys (db.addResult row scores) ⊆ finalizedKeys db := by
  intro key h
  obtain ⟨r, hr, hfinal, hkey⟩ := mem_finalizedKeys.mp h
  rcases List.mem_append.mp hr with hr | hr
  · exact mem_finalizedKeys.mpr ⟨r, hr, hfinal, hkey⟩
  · exact absurd (List.mem_singleton.mp hr ▸ hfinal) hstatus

/-! ### One step -/

theorem cancelled_notMem_sources : ∀ t ∈ electionFSM, t.source ≠ .cancelled := by decide

theorem ne_cancelled_of_declarable {s : ElectionState} (h : s.declarable = true) : s ≠ .cancelled := by
  rintro rfl
  cases h

theorem contributes_of_subset {db mid db' : Tables} {electionId : Int} {key : Int × String}
    (hcore : Tables.SameCore mid db') (hscoped : scopedPus mid electionId = scopedPus db electionId)
    (hsubset : finalizedKeys mid ⊆ finalizedKeys db) (h : Contributes db' electionId key) :
    Contributes db electionId key := by
  obtain ⟨hscope, hfinal⟩ := (contributes_sameCore hcore).mp h
  exact ⟨hscoped ▸ hscope, hsubset hfinal⟩

/-- Only a finalization lets a new key contribute, and then it is the key of its result. -/
theorem Effect.contributes {env : Env} {db db' : Tables} {op : Op} (h : Effect sha256Hex env db db' op)
    (hconstraints : db.Constraints) (howned : ResultsOwned db) {electionId : Int} {key : Int × String}
    (hkey : Contributes db' electionId key) :
    Contributes db electionId key ∨
      ∃ id r policyId, op = .finalize id ∧ checkFinalize env db id = .ok (r, policyId) ∧ key = r.key ∧
        key ∈ scopedPus db electionId := by
  cases h with
  | quiet hcore => exact Or.inl ((contributes_sameCore hcore).mp hkey)
  | created _ hcreation => exact Or.inl (hcreation.contributes howned hkey)
  | moved hmove =>
      refine Or.inl (contributes_of_updateElection hconstraints hmove.found ⟨rfl, rfl, rfl⟩ ?_
        ((contributes_sameCore hmove.core).mp hkey))
      exact hmove.source ▸ cancelled_notMem_sources _ hmove.entry
  | declared hdeclaration =>
      obtain ⟨hfound, _, hstatus⟩ := checkDeclarable_ok hdeclaration.declarable
      exact Or.inl (contributes_of_updateElection hconstraints hfound ⟨rfl, rfl, rfl⟩
        (ne_cancelled_of_declarable hstatus) ((contributes_sameCore hdeclaration.core).mp hkey))
  | submitted hsubmission =>
      refine Or.inl (contributes_of_subset hsubmission.core rfl (finalizedKeys_addResult_subset ?_) hkey)
      rcases hsubmission.status with hstatus | hstatus <;> rw [hstatus] <;> decide
  | reviewed hreview =>
      exact Or.inl (contributes_of_subset hreview.core rfl (finalizedKeys_updateResult_subset hconstraints
        hreview.found (hreview.identity _).2 hreview.after.2) hkey)
  | @finalized id r policyId hchecked hcore =>
      obtain ⟨hscope, hfinal⟩ := (contributes_sameCore hcore).mp hkey
      have hr := Tables.result?_id (checkFinalize_ok hchecked).1
      rcases (mem_finalizedKeys_updateResult hconstraints hr rfl).mp hfinal with
        ⟨_, heq⟩ | ⟨r', hr', _, hstatus, heq⟩
      · exact Or.inr ⟨id, r, policyId, rfl, hchecked, heq, hscope⟩
      · exact Or.inl ⟨hscope, mem_finalizedKeys.mpr ⟨r', hr', hstatus, heq⟩⟩
  | annulled _ hremedy hcore =>
      have hr := (remedied?_eq_some hremedy).1
      exact Or.inl (contributes_of_subset hcore rfl
        (finalizedKeys_updateResult_subset hconstraints hr rfl (by simp [setStatus])) hkey)
  | @corrected id req r hchecked hcore =>
      have hr := Tables.result?_id (checkCorrect_ok hchecked).1
      have hadded : finalizedKeys (supersede sha256Hex env db r req) ⊆
          finalizedKeys (db.updateResult r.id (setStatus .superseded)) :=
        finalizedKeys_addResult_subset (by simp [correctedRow])
      have hupdated : finalizedKeys (db.updateResult r.id (setStatus .superseded)) ⊆ finalizedKeys db :=
        finalizedKeys_updateResult_subset hconstraints hr rfl (by simp [setStatus])
      exact Or.inl (contributes_of_subset hcore rfl (List.Subset.trans hadded hupdated) hkey)

/-- What contributed before a finalization still does, and its own result does if a scope covers it. -/
theorem contributes_finalized {env : Env} {db db' : Tables} {id : Int} {r : ResultRow} {policyId : Int}
    (hchecked : checkFinalize env db id = .ok (r, policyId)) (hconstraints : db.Constraints)
    (hcore : Tables.SameCore (db.updateResult r.id (markFinalized env)) db') {electionId : Int}
    {key : Int × String} (hkey : Contributes db electionId key ∨ (key = r.key ∧ key ∈ scopedPus db electionId)) :
    Contributes db' electionId key := by
  obtain ⟨hfound, hvalidated⟩ := checkFinalize_ok hchecked
  have hr := Tables.result?_id hfound
  refine (contributes_sameCore hcore).mpr ?_
  rcases hkey with ⟨hscope, hfinal⟩ | ⟨rfl, hscope⟩
  · obtain ⟨r', hr', hstatus, heq⟩ := mem_finalizedKeys.mp hfinal
    refine ⟨hscope, (mem_finalizedKeys_updateResult hconstraints hr rfl).mpr (Or.inr ⟨r', hr', ?_, hstatus, heq⟩)⟩
    intro hid
    rw [Rows.eq_of_key_eq hconstraints.resultIds hr' (Tables.mem_of_result? hr).1 hid, hvalidated] at hstatus
    cases hstatus
  · exact ⟨hscope, (mem_finalizedKeys_updateResult hconstraints hr rfl).mpr (Or.inl ⟨rfl, rfl⟩)⟩

/-! ### Results and their elections -/

theorem ResultsOwned.sameCore {db db' : Tables} (h : ResultsOwned db) (hcore : Tables.SameCore db db') :
    ResultsOwned db' := by
  rw [ResultsOwned, hcore.results, hcore.elections]
  exact h

theorem ResultsOwned.updateElection {db : Tables} (h : ResultsOwned db) {id : Int} {f : Election → Election}
    {row : StateLogRow} (hf : ∀ e, (f e).id = e.id) : ResultsOwned ((db.updateElection id f).logState row) := by
  have hids : ((db.updateElection id f).logState row).elections.map (·.id) = db.elections.map (·.id) :=
    Rows.map_update fun e _ _ => hf e
  rw [ResultsOwned, hids]
  exact h

theorem ResultsOwned.updateResult {db : Tables} (h : ResultsOwned db) {id : Int} {f : ResultRow → ResultRow}
    (hf : ∀ r, (f r).key = r.key) : ResultsOwned (db.updateResult id f) := by
  have hids : (db.updateResult id f).results.map (·.electionId) = db.results.map (·.electionId) :=
    Rows.map_update fun r _ _ => congrArg Prod.fst (hf r)
  rw [ResultsOwned, hids]
  exact h

theorem ResultsOwned.addResult {db : Tables} (h : ResultsOwned db) {row : ResultRow}
    {scores : List (String × Int)} (hrow : row.electionId ∈ db.elections.map (·.id)) :
    ResultsOwned (db.addResult row scores) := by
  intro id hid
  rw [Tables.addResult, List.map_append, List.mem_append] at hid
  rcases hid with hid | hid
  · exact h hid
  · rw [List.mem_singleton.mp hid]
    exact hrow

theorem Effect.resultsOwned {env : Env} {db db' : Tables} {op : Op} (h : Effect sha256Hex env db db' op)
    (howned : ResultsOwned db) : ResultsOwned db' := by
  cases h with
  | quiet hcore => exact howned.sameCore hcore
  | created _ hcreation =>
      refine ResultsOwned.sameCore ?_ hcreation.core
      intro id hid
      have hmem := howned hid
      rw [Tables.addScopes, Tables.addElection, List.map_append]
      exact List.mem_append_left _ hmem
  | moved hmove => exact (howned.updateElection (moveElection_id env _)).sameCore hmove.core
  | declared hdeclaration => exact (howned.updateElection (declareElection_id env _ _)).sameCore hdeclaration.core
  | submitted hsubmission =>
      obtain ⟨e, he⟩ := hsubmission.election
      obtain ⟨hmem, hid⟩ := Tables.mem_of_election? he
      exact (howned.addResult (hid ▸ List.mem_map_of_mem hmem)).sameCore hsubmission.core
  | reviewed hreview => exact (howned.updateResult fun r => (hreview.identity r).2).sameCore hreview.core
  | finalized _ hcore =>
      refine ResultsOwned.sameCore ?_ hcore
      exact howned.updateResult fun _ => rfl
  | annulled _ _ hcore =>
      refine ResultsOwned.sameCore ?_ hcore
      exact howned.updateResult fun _ => rfl
  | @corrected _ req r hchecked hcore =>
      have hmem := (Tables.mem_of_result? (checkCorrect_ok hchecked).1).1
      have hupdated : ResultsOwned (db.updateResult r.id (setStatus .superseded)) :=
        howned.updateResult fun _ => rfl
      refine ResultsOwned.sameCore (hupdated.addResult ?_) hcore
      exact howned (List.mem_map.mpr ⟨r, hmem, rfl⟩)

theorem step_resultsOwned (d : Database) (q : Request) (h : ResultsOwned d.tables) :
    ResultsOwned (step sha256Hex d q).tables := by
  rcases step_cases d q with hsame | hrun
  · rw [hsame]
    exact h
  · exact (run_effect hrun).resultsOwned h

/-! ### Runs -/

theorem step_countsOnce_iff (d : Database) (q : Request) (howned : ResultsOwned d.tables)
    (h : CountsOnce d.tables) :
    CountsOnce (step sha256Hex d q).tables ↔ FinalizesOnce sha256Hex d q := by
  rw [countsOnce_iff (step sha256Hex d q).constraints]
  rw [countsOnce_iff d.constraints] at h
  constructor
  · intro hnext id r policyId db' hop hchecked hrun electionId child hscope hchild
    have hstep : q.op.run sha256Hex q.env d.tables = some db' := by
      rw [hop]
      exact toOption_eq_some.mpr hrun
    obtain ⟨checked, hchecked', hcore⟩ := handleFinalizeResult_ok hrun
    obtain rfl : checked = (r, policyId) := Except.ok.inj (hchecked'.symm.trans hchecked)
    have hcontributes := fun {key} => @contributes_finalized _ _ _ _ _ _ hchecked d.constraints hcore electionId key
    have hoverlap := hnext electionId
    rw [step_accepted hstep] at hoverlap
    exact hoverlap child r.electionId r.pollingUnitCode (hcontributes (Or.inl hchild))
      (hcontributes (Or.inr ⟨rfl, hscope⟩))
  · intro hcond electionId child child' pu hkey hkey'
    rcases step_cases d q with hsame | hrun
    · rw [hsame] at hkey hkey'
      exact h electionId child child' pu hkey hkey'
    have heffect := run_effect hrun
    have hnew : ∀ c c', Contributes d.tables electionId (c, pu) →
        (∃ id r policyId, q.op = .finalize id ∧ checkFinalize q.env d.tables id = .ok (r, policyId) ∧
          (c', pu) = r.key ∧ (c', pu) ∈ scopedPus d.tables electionId) → c = c' := by
      rintro c c' hc ⟨id, r, policyId, hop, hchecked, heq, hscope⟩
      have hfinalized : handleFinalizeResult sha256Hex q.env d.tables id = .ok (step sha256Hex d q).tables := by
        rw [hop] at hrun
        exact toOption_eq_some.mp hrun
      obtain ⟨rfl, rfl⟩ := Prod.mk.inj heq
      exact hcond id r policyId _ hop hchecked hfinalized electionId c hscope hc
    rcases heffect.contributes d.constraints howned hkey with hold | hfinal
    · rcases heffect.contributes d.constraints howned hkey' with hold' | hfinal'
      · exact h electionId child child' pu hold hold'
      · exact hnew child child' hold hfinal'
    · rcases heffect.contributes d.constraints howned hkey' with hold' | hfinal'
      · exact (hnew child' child hold' hfinal).symm
      · obtain ⟨id, r, policyId, hop, hchecked, heq, _⟩ := hfinal
        obtain ⟨id', r', policyId', hop', hchecked', heq', _⟩ := hfinal'
        rw [hop] at hop'
        obtain rfl := Op.finalize.inj hop'
        obtain ⟨rfl, _⟩ := Prod.mk.inj (Except.ok.inj (hchecked.symm.trans hchecked'))
        exact congrArg Prod.fst (heq.trans heq'.symm)

/-- From a database without results, every database a run of any requests reaches counts each polling
unit once exactly if every finalization finds its unit free of other children's results. -/
theorem countsOnce_iff_finalizesOnce (d : Database) (hempty : d.tables.results = []) (requests : List Request) :
    (∀ d' ∈ Runs.visited (step sha256Hex) d requests, CountsOnce d'.tables) ↔
      Runs.AllSteps (step sha256Hex) (FinalizesOnce sha256Hex) d requests := by
  have howned : ResultsOwned d.tables := by
    rw [ResultsOwned, hempty]
    exact List.nil_subset _
  have hstart : CountsOnce d.tables := by
    rw [countsOnce_iff d.constraints]
    intro electionId child child' pu hkey
    rw [Contributes, finalizedKeys, hempty] at hkey
    exact absurd hkey.2 List.not_mem_nil
  exact Runs.forall_visited_iff (fun d q h => step_resultsOwned d q h)
    (fun d q howned h => step_countsOnce_iff d q howned h) howned hstart requests

/-! ### One rerun and two -/

/-- The geography of one polling unit, and no election yet. -/
def register : Database where
  tables :=
    { Tables.empty with
      states := ["S-1"]
      pollingUnits := [⟨"PU-1", "W-1", 200⟩]
      wards := [⟨"W-1", "L-1"⟩]
      lgas := [⟨"L-1", "S-1"⟩] }
  constraints := by decide

def chair : Env := .plain 1 "chair" .admin 0

/-- An active general election with id 1. -/
def createGeneral : Request :=
  ⟨chair, .createElection ⟨"Governorship", "gubernatorial", "2027-02-20", "", "active"⟩⟩

/-- A rerun of election 1 at the unit gets staff, is activated and receives a result, which is validated
by a second officer. -/
def rerunUpToValidation (rerun result : Int) : List Request :=
  [⟨chair, .createRerun 1 ⟨"rerun", "", "2027-03-20", some [⟨"polling_unit", "PU-1", "annulled"⟩]⟩⟩,
    ⟨chair, .assignStaff ⟨rerun, 7, "national", "NG"⟩⟩,
    ⟨chair, .transition rerun .activate "chair"⟩,
    ⟨chair, .submit ⟨rerun, "PU-1", [⟨"APC", 60⟩, ⟨"LP", 40⟩], 100, 0, true, "", ""⟩⟩,
    ⟨.plain 2 "clerk" .admin 0, .validate result⟩]

def finalizeBy (result : Int) : Request := ⟨.plain 3 "collator" .admin 0, .finalize result⟩

/-- With one rerun the finalization finds no other result. -/
theorem countsOnce_iff_finalizesOnce_one_rerun :
    register.tables.results = [] ∧
      ∀ d' ∈ Runs.visited (step id) register (createGeneral :: rerunUpToValidation 2 1 ++ [finalizeBy 1]),
        CountsOnce d'.tables := by
  refine ⟨rfl, (countsOnce_iff_finalizesOnce register rfl _).mpr ⟨?_, ?_, ?_, ?_, ?_, ?_, ?_, trivial⟩⟩
  case refine_7 =>
    intro _ r _ _ _ _ _ electionId child _ hchild
    have hnone : finalizedKeys (Runs.final (step id) register
        (createGeneral :: rerunUpToValidation 2 1)).tables = [] := by decide +kernel
    exact absurd (hnone ▸ hchild.2) List.not_mem_nil
  all_goals
    intro _ _ _ _ hop
    cases hop

/-- Two reruns of the unit that are open for voting, with no activation ahead of them. -/
def votingReruns : Database where
  tables :=
    { register.tables with
      elections :=
        [.bare 1 .gubernatorial .active,
          { Election.bare 2 .gubernatorial .voting with electionKind := .rerun, parentElectionId := some 1 },
          { Election.bare 3 .gubernatorial .voting with electionKind := .rerun, parentElectionId := some 1 }]
      rerunScopes := [⟨2, .pollingUnit, "PU-1", "annulled", "chair"⟩,
        ⟨3, .pollingUnit, "PU-1", "annulled", "chair"⟩] }
  constraints := by decide

/-- Two reruns of one unit are both finalized, and the parent's collation counts the unit twice: when the
whole run goes through the handlers, and also from a database where the reruns are already voting. -/
theorem counted_twice_by_two_reruns :
    (¬ ∀ (sha256Hex : String → String) (d : Database) (requests : List Request), d.tables.results = [] →
      ∀ d' ∈ Runs.visited (step sha256Hex) d requests, CountsOnce d'.tables) ∧
    ¬ CountsOnce (Runs.final (step id) votingReruns ((rerunUpToValidation 2 1).drop 3 ++
      (rerunUpToValidation 3 2).drop 3 ++ [finalizeBy 1, finalizeBy 2])).tables := by
  constructor
  · intro h
    have hfinal := (h id register (createGeneral :: rerunUpToValidation 2 1 ++ rerunUpToValidation 3 2 ++
      [finalizeBy 1, finalizeBy 2]) rfl _ (Runs.final_mem_visited _ _) 1).1
    have hcanonical : canonical (Runs.final (step id) register (createGeneral :: rerunUpToValidation 2 1 ++
        rerunUpToValidation 3 2 ++ [finalizeBy 1, finalizeBy 2])).tables 1 = [("PU-1", 1), ("PU-1", 2)] := by
      decide +kernel
    rw [hcanonical] at hfinal
    revert hfinal
    decide
  · intro h
    have hfinal := (h 1).1
    have hcanonical : canonical (Runs.final (step id) votingReruns ((rerunUpToValidation 2 1).drop 3 ++
        (rerunUpToValidation 3 2).drop 3 ++ [finalizeBy 1, finalizeBy 2])).tables 1 =
        [("PU-1", 1), ("PU-1", 2)] := by
      decide +kernel
    rw [hcanonical] at hfinal
    revert hfinal
    decide

end Inec
