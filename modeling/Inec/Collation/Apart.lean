import Inec.Collation.CountsOnce

/-!
# Contests apart

The tables hold every contest at once. What an election collates moves only by a request about it: a finalization,
a correction or the remedy of a dispute of one of its results or of its children's, a new child, or a move of a
child. A run of any other requests, declarations of every election included, leaves the collation as it was.
-/

namespace Inec

open Checks

variable {sha256Hex : String → String}

/-- The result belongs to the contest. -/
def ResultRow.inContest (db : Tables) (electionId : Int) (r : ResultRow) : Prop :=
  r.electionId ∈ electionIDsWithChildren db electionId

/-- The requests about the contest of an election. -/
def Op.about (db : Tables) (electionId : Int) : Op → Prop
  | .finalize id => ∃ r, db.result? id = some r ∧ r.inContest db electionId
  | .correct id _ => ∃ r, db.result? id = some r ∧ r.inContest db electionId
  | .resolveDispute id _ =>
      ∃ k, db.dispute? id = some k ∧
        ∃ resultId, k.resultId = some resultId ∧ ∃ r, db.result? resultId = some r ∧ r.inContest db electionId
  | .createRerun parentId _ => parentId = electionId
  | .transition id _ _ => ∃ e, db.election? id = some e ∧ e.parentElectionId = some electionId
  | _ => False

/-- The collation of an election is the same in both. -/
structure SameCollation (electionId : Int) (db db' : Tables) : Prop where
  canonical : canonical db' electionId = canonical db electionId
  totals : ∀ order level areaCode, (canonicalPartyTotals db' electionId order level areaCode).totals =
    (canonicalPartyTotals db electionId order level areaCode).totals

variable {db db' : Tables} {electionId : Int}

theorem SameCollation.refl (electionId : Int) (db : Tables) : SameCollation electionId db db :=
  ⟨rfl, fun _ _ _ => rfl⟩

theorem SameCollation.trans {db'' : Tables} (h : SameCollation electionId db db')
    (h' : SameCollation electionId db' db'') : SameCollation electionId db db'' :=
  ⟨h'.canonical.trans h.canonical,
    fun order level areaCode => (h'.totals order level areaCode).trans (h.totals order level areaCode)⟩

/-! ### Writes about other contests -/

theorem SameCollation.sameCore (h : Tables.SameCore db db') : SameCollation electionId db db' := by
  refine ⟨canonical_sameCore h electionId, canonicalPartyTotals_congr (canonical_sameCore h electionId) h.pollingUnits
    h.wards h.lgas ?_⟩
  intro c _
  rw [scoresOf, h.resultPartyScores, scoresOf]

/-- The same results, and the same units of the children. -/
theorem SameCollation.of_scopedPus (hscoped : scopedPus db' electionId = scopedPus db electionId)
    (hresults : db'.results = db.results) (hscores : db'.resultPartyScores = db.resultPartyScores)
    (hpollingUnits : db'.pollingUnits = db.pollingUnits) (hwards : db'.wards = db.wards)
    (hlgas : db'.lgas = db.lgas) : SameCollation electionId db db' := by
  have hcanonical := canonical_congr hscoped hresults
  refine ⟨hcanonical, canonicalPartyTotals_congr hcanonical hpollingUnits hwards hlgas ?_⟩
  intro c _
  rw [scoresOf, hscores, scoresOf]

theorem SameCollation.updateResult {id : Int} {f : ResultRow → ResultRow}
    (h : Inec.canonical (db.updateResult id f) electionId = Inec.canonical db electionId) :
    SameCollation electionId db (db.updateResult id f) :=
  ⟨h, canonicalPartyTotals_congr h rfl rfl rfl fun _ _ => rfl⟩

theorem SameCollation.addResult {row : ResultRow} {scores : List (String × Int)}
    (hid : row.id ∉ db.results.map (·.id)) (hstatus : row.status ≠ .finalized) :
    SameCollation electionId db (db.addResult row scores) := by
  refine ⟨canonical_addResult hstatus, canonicalPartyTotals_congr (canonical_addResult hstatus) rfl rfl rfl ?_⟩
  intro c hc
  apply scoresOf_addResult
  intro heq
  exact hid (heq ▸ id_mem_of_mem_canonical hc)

/-- A result that enters belongs to the contest. -/
theorem Enters.inContest {r : ResultRow} (h : Enters db electionId r) : r.inContest db electionId := by
  rcases h with hscoped | ⟨hown, -⟩
  · exact List.mem_cons_of_mem _ (mem_scopedPus.mp hscoped).1
  · rw [ResultRow.inContest, electionIDsWithChildren, hown]
    exact List.mem_cons_self

/-- A result of another contest may be written in any way that keeps its identity. -/
theorem canonical_updateResult_of_not_inContest (hconstraints : db.Constraints) {r : ResultRow}
    {f : ResultRow → ResultRow} (hr : db.result? r.id = some r) (hid : (f r).id = r.id) (hkey : (f r).key = r.key)
    (h : ¬r.inContest db electionId) : canonical (db.updateResult r.id f) electionId = canonical db electionId :=
  canonical_updateResult hconstraints hr hid hkey fun henters => absurd henters.inContest h

/-- An election that is no child of the contest, before and after the write. -/
theorem scopedPus_updateElection_of_parent (hconstraints : db.Constraints) {id : Int} {e : Election}
    {f : Election → Election} {row : StateLogRow} (he : db.election? id = some e)
    (hparent : e.parentElectionId ≠ some electionId) (hf : (f e).parentElectionId = e.parentElectionId) :
    scopedPus ((db.updateElection id f).logState row) electionId = scopedPus db electionId := by
  have hchildren : childElections ((db.updateElection id f).logState row) electionId =
      childElections db electionId := by
    apply Rows.filter_update
    intro e' he' hid
    rw [Rows.eq_of_key_eq hconstraints.electionIds he' (Tables.mem_of_election? he).1
      (hid.trans (Tables.mem_of_election? he).2.symm), hf]
    simp [hparent]
  unfold scopedPus electionChildIDs
  rw [hchildren]
  rfl

/-- A new election with another parent. -/
theorem scopedPus_addElection {e : Election} {scopes : List RerunScope}
    (hid : e.id ∉ db.elections.map (·.id)) (hparent : e.parentElectionId ≠ some electionId)
    (hscopes : ∀ s ∈ scopes, s.electionId = e.id) :
    scopedPus ((db.addElection e).addScopes scopes) electionId = scopedPus db electionId := by
  have hchildren : electionChildIDs ((db.addElection e).addScopes scopes) electionId =
      electionChildIDs db electionId := by
    simp [electionChildIDs, childElections, Tables.addScopes, Tables.addElection, List.filter_append, hparent]
  unfold scopedPus
  rw [hchildren]
  congr 1
  refine List.flatMap_congr fun child hchild => ?_
  obtain ⟨e', he', rfl, -⟩ := mem_electionChildIDs.mp hchild
  rw [scopeUnits_addScopes hscopes]
  rintro heq
  exact hid (heq ▸ List.mem_map_of_mem he')

theorem SameCollation.created {e : Election} {scopes : List RerunScope} (hid : e.id ∉ db.elections.map (·.id))
    (hparent : e.parentElectionId ≠ some electionId) (hscopes : ∀ s ∈ scopes, s.electionId = e.id) :
    SameCollation electionId db ((db.addElection e).addScopes scopes) :=
  .of_scopedPus (scopedPus_addElection hid hparent hscopes) rfl rfl rfl rfl rfl

/-! ### One request -/

theorem SameCollation.createElection {env : Env} {req : ElectionCreate}
    (h : handleCreateElection env db req = .ok db') : SameCollation electionId db db' := by
  obtain ⟨electionType, status, -, hcore⟩ := handleCreateElection_ok h
  refine SameCollation.trans ?_ (.sameCore hcore)
  have hnew := @SameCollation.created db electionId
    (newElection env db req.title electionType req.electionDate status .general none) []
    (nextSerial_notMem _) (by simp [newElection]) (by simp)
  rw [Tables.addScopes, Tables.addElection, List.append_nil] at hnew
  exact hnew

theorem SameCollation.createRerun {env : Env} {parentId : Int} {req : RerunRequest}
    (h : handleCreateRerun env db parentId req = .ok db') (hparent : parentId ≠ electionId) :
    SameCollation electionId db db' := by
  obtain ⟨kind, parent, scopes, hchecked, hscopes, hcore⟩ := handleCreateRerun_ok h
  have hid := (Tables.mem_of_election? (checkRerun_ok hchecked).2).2
  refine SameCollation.trans (.created (nextSerial_notMem _) ?_ hscopes) (.sameCore hcore)
  intro heq
  exact hparent (hid.symm.trans (Option.some.inj heq))

theorem SameCollation.moved {env : Env} {id : Int} {event : ElectionEvent} {actor : String} {e : Election}
    {t : ElectionTransition} (h : Move env db db' id event actor e t) (hconstraints : db.Constraints)
    (hparent : e.parentElectionId ≠ some electionId) : SameCollation electionId db db' := by
  refine SameCollation.trans ?_ (.sameCore h.core)
  exact .of_scopedPus (scopedPus_updateElection_of_parent hconstraints h.found hparent rfl) rfl rfl rfl rfl rfl

/-- A declaration neither cancels nor revives its election. -/
theorem SameCollation.declared {env : Env} {id : Int} {req : DeclareRequest} {e : Election} {a : DeclarationAssessment}
    (h : Declaration env db db' id req e a) (hconstraints : db.Constraints) : SameCollation electionId db db' := by
  obtain ⟨hfound, -, hstatus⟩ := checkDeclarable_ok h.declarable
  refine SameCollation.trans ?_ (.sameCore h.core)
  refine .of_scopedPus (scopedPus_updateElection ?_) rfl rfl rfl rfl rfl
  intro e' he' hid
  rw [Rows.eq_of_key_eq hconstraints.electionIds he' (Tables.mem_of_election? hfound).1
    (hid.trans (Tables.mem_of_election? hfound).2.symm)]
  refine ⟨rfl, rfl, rfl, fun hdeclared => ?_, fun hcancelled => ?_⟩
  · cases hdeclared
  · exact absurd hcancelled (ne_cancelled_of_declarable hstatus)

theorem checkResolve_found {env : Env} {id : Int} {req : ResolveRequest} {checked : Dispute × Option DisputeOutcome}
    (h : checkResolve env db id req = .ok checked) : db.dispute? id = some checked.1 := by
  simp only [checkResolve, bind_eq_ok, fetch_eq_ok, pure_eq_ok] at h
  obtain ⟨_, _, _, _, _, hfound, _, _, rfl⟩ := h
  exact hfound

/-- A request that is not about the contest leaves its collation as it was. -/
theorem sameCollation_of_run {env : Env} {op : Op} (h : op.run sha256Hex env db = some db')
    (hconstraints : db.Constraints) (hnot : ¬op.about db electionId) : SameCollation electionId db db' := by
  cases run_effect h with
  | quiet hcore => exact .sameCore hcore
  | created hnamed _ =>
      -- what is created says who the parent is
      cases op with
      | createElection req => exact .createElection (toOption_eq_some.mp h)
      | createRerun parentId req => exact .createRerun (toOption_eq_some.mp h) hnot
      | transition id event actor =>
          obtain ⟨e, t, hfound, hentry, hsource, hevent, hguard, rfl⟩ :=
            transitionElection_ok.mp (toOption_eq_some.mp h)
          refine .moved ⟨hfound, hentry, hsource, hevent, hguard, .refl _⟩ hconstraints ?_
          intro hparent
          exact hnot ⟨e, hfound, hparent⟩
      | declare id req =>
          obtain ⟨e, a, hdeclarable, hassessed, hcore⟩ := handleDeclareResult_ok (toOption_eq_some.mp h)
          exact .declared ⟨hdeclarable, hassessed, hcore⟩ hconstraints
      | _ => cases hnamed
  | @moved id event actor e t hmove =>
      apply SameCollation.moved hmove hconstraints
      intro hparent
      exact hnot ⟨e, hmove.found, hparent⟩
  | declared hdeclaration => exact .declared hdeclaration hconstraints
  | submitted hsubmission =>
      refine SameCollation.trans (.addResult ?_ ?_) (.sameCore hsubmission.core)
      · rw [hsubmission.id]
        exact nextSerial_notMem _
      · rcases hsubmission.status with hstatus | hstatus <;> rw [hstatus] <;> decide
  | @reviewed _ r f hreview =>
      refine SameCollation.trans (.updateResult ?_) (.sameCore hreview.core)
      refine canonical_updateResult hconstraints hreview.found (hreview.identity r).1 (hreview.identity r).2 fun _ => ?_
      exact ⟨fun hfinal => absurd hfinal hreview.after.2, fun hfinal => absurd hfinal hreview.before.2⟩
  | @finalized id r policyId hchecked hcore =>
      have hfound := (checkFinalize_ok hchecked).1
      have hapart : ¬r.inContest db electionId := fun hin => hnot ⟨r, hfound, hin⟩
      refine SameCollation.trans (.updateResult ?_) (.sameCore hcore)
      exact canonical_updateResult_of_not_inContest hconstraints (Tables.result?_id hfound) rfl rfl hapart
  | @annulled id req checked r haccepted hremedy hcore =>
      obtain ⟨hfound, hlinked, -⟩ := remedied?_cases hremedy
      have hapart : ¬r.inContest db electionId :=
        fun hin => hnot ⟨checked.1, checkResolve_found haccepted, r.id, hlinked, r, hfound, hin⟩
      refine SameCollation.trans (.updateResult ?_) (.sameCore hcore)
      exact canonical_updateResult_of_not_inContest hconstraints hfound rfl rfl hapart
  | @corrected id req r hchecked hcore =>
      have hfound := (checkCorrect_ok hchecked).1
      have hapart : ¬r.inContest db electionId := fun hin => hnot ⟨r, hfound, hin⟩
      have hold : SameCollation electionId db (db.updateResult r.id (setStatus .superseded)) :=
        .updateResult
          (canonical_updateResult_of_not_inContest hconstraints (Tables.result?_id hfound) rfl rfl hapart)
      refine (hold.trans (.addResult ?_ (by simp [correctedRow]))).trans (.sameCore hcore)
      exact correctedRow_id_notMem env db r req

/-! ### Runs -/

/-- In every run whose requests are not about the contest when they come, its collation stays what it was: the
canonical set, and the totals of every area at every level. -/
theorem sameCollation_of_apart (d : Database) (electionId : Int) (requests : List Request)
    (hapart : Runs.AllSteps (step sha256Hex) (fun d q => ¬q.op.about d.tables electionId) d requests) :
    ∀ d' ∈ Runs.visited (step sha256Hex) d requests, SameCollation electionId d.tables d'.tables := by
  refine Runs.forall_visited (fun d₁ q hsame hnot => hsame.trans ?_) (.refl electionId d.tables) hapart
  rcases step_cases d₁ q with hrefused | hrun
  · rw [hrefused]
    exact .refl electionId d₁.tables
  · exact sameCollation_of_run hrun d₁.constraints hnot

/-- Two contests at one polling unit, both counted. -/
def twoContests : Database where
  tables :=
    { Tables.empty with
      pollingUnits := [⟨"PU-1", "W-1", 200⟩]
      wards := [⟨"W-1", "L-1"⟩]
      lgas := [⟨"L-1", "S-1"⟩]
      elections := [.bare 1 .gubernatorial .collating, .bare 2 .senatorial .collating]
      results := [.bare 1 1 "PU-1" .finalized, .bare 2 2 "PU-1" .finalized]
      resultPartyScores := [⟨1, "APC", 60⟩, ⟨1, "LP", 40⟩, ⟨2, "APC", 55⟩, ⟨2, "LP", 45⟩] }
  constraints := by decide

/-- The second contest's result is withdrawn by a correction, and the first contest keeps its totals. -/
theorem sameCollation_of_apart_corrected :
    canonical (Runs.final (step id) twoContests
        [⟨.plain 1 "chair" .admin 0, .correct 2 ⟨[⟨"APC", 45⟩, ⟨"LP", 55⟩], 100, 0, "recount", none⟩⟩]).tables 2 = [] ∧
      ∀ d' ∈ Runs.visited (step id) twoContests
          [⟨.plain 1 "chair" .admin 0, .correct 2 ⟨[⟨"APC", 45⟩, ⟨"LP", 55⟩], 100, 0, "recount", none⟩⟩],
        SameCollation 1 twoContests.tables d'.tables := by
  refine ⟨by decide +kernel, sameCollation_of_apart twoContests 1 _ ⟨?_, trivial⟩⟩
  rintro ⟨r, hfound, hin⟩
  have hr : r = .bare 2 2 "PU-1" .finalized := (Option.some.inj hfound).symm
  rw [hr, ResultRow.inContest] at hin
  exact absurd hin (by decide)

end Inec
