import Inec.Collation.Writes
import Inec.Lib.Runs
import Inec.System

/-!
# A declaration and what comes after it

The winner record of a declaration holds the party totals of the canonical set at that moment. The
handlers that write results do not look at the state of the election, so the canonical set can move on
while the record stays. It stays with the record exactly as long as no finalization brings a result in
and no correction or annulment takes one out.
-/

namespace Inec

open Checks

variable {sha256Hex : String → String}

/-- The canonical set is the one declared on, and the record shows its totals. -/
structure DeclarationStands (electionId : Int) (declaredOn : List (String × Int)) (db : Tables) : Prop where
  unchanged : canonical db electionId = declaredOn
  recorded : ∃ e payload, db.election? electionId = some e ∧ e.winnerPayload = some payload ∧
    ∀ order, (canonicalPartyTotals db electionId order .national "NG").totals = payload.partyTotals

variable (sha256Hex) in
/-- What the request would have to leave alone: an accepted finalization of a result that enters the
canonical set, an accepted correction of a canonical result, an accepted annulment of one. -/
structure CanonicalUntouched (electionId : Int) (d : Database) (q : Request) : Prop where
  finalize : ∀ id r policyId db', q.op = .finalize id → checkFinalize q.env d.tables id = .ok (r, policyId) →
    handleFinalizeResult sha256Hex q.env d.tables id = .ok db' → ¬ Enters d.tables electionId r
  correct : ∀ id req r db', q.op = .correct id req → checkCorrect q.env d.tables id req = .ok r →
    handleCorrectResult sha256Hex q.env d.tables id req = .ok db' →
    (r.pollingUnitCode, r.id) ∉ canonical d.tables electionId
  annul : ∀ id req checked r, q.op = .resolveDispute id req → checkResolve q.env d.tables id req = .ok checked →
    remedied? d.tables checked = some (r, .voided) → (r.pollingUnitCode, r.id) ∉ canonical d.tables electionId

/-! ### Requests that leave the canonical set alone -/

theorem DeclarationStands.sameCore {electionId : Int} {declaredOn : List (String × Int)} {db db' : Tables}
    (h : DeclarationStands electionId declaredOn db) (hcore : Tables.SameCore db db') :
    DeclarationStands electionId declaredOn db' := by
  obtain ⟨e, payload, he, hpayload, htotals⟩ := h.recorded
  refine ⟨(canonical_sameCore hcore electionId).trans h.unchanged, e, payload, ?_, hpayload, fun order => ?_⟩
  · rw [Tables.election?, hcore.elections]
    exact he
  · rw [← htotals order]
    refine canonicalPartyTotals_congr (canonical_sameCore hcore electionId) hcore.pollingUnits hcore.wards
      hcore.lgas (fun c _ => ?_) order .national "NG"
    rw [scoresOf, hcore.resultPartyScores, scoresOf]

theorem DeclarationStands.updateResult {electionId : Int} {declaredOn : List (String × Int)} {db : Tables}
    {id : Int} {f : ResultRow → ResultRow} (h : DeclarationStands electionId declaredOn db)
    (hcanonical : canonical (db.updateResult id f) electionId = canonical db electionId) :
    DeclarationStands electionId declaredOn (db.updateResult id f) := by
  obtain ⟨e, payload, he, hpayload, htotals⟩ := h.recorded
  refine ⟨hcanonical.trans h.unchanged, e, payload, he, hpayload, fun order => ?_⟩
  rw [← htotals order]
  exact canonicalPartyTotals_congr hcanonical rfl rfl rfl (fun _ _ => rfl) order .national "NG"

theorem DeclarationStands.addResult {electionId : Int} {declaredOn : List (String × Int)} {db : Tables}
    {row : ResultRow} {scores : List (String × Int)} (h : DeclarationStands electionId declaredOn db)
    (hid : row.id ∉ db.results.map (·.id)) (hstatus : row.status ≠ .finalized) :
    DeclarationStands electionId declaredOn (db.addResult row scores) := by
  obtain ⟨e, payload, he, hpayload, htotals⟩ := h.recorded
  refine ⟨(canonical_addResult hstatus).trans h.unchanged, e, payload, he, hpayload, fun order => ?_⟩
  rw [← htotals order]
  refine canonicalPartyTotals_congr (canonical_addResult hstatus) rfl rfl rfl (fun c hc => ?_) order .national "NG"
  exact scoresOf_addResult fun heq => hid (heq ▸ id_mem_of_mem_canonical hc)

/-- A live result that is not canonical may leave the finalized ones. -/
theorem canonical_withdraw {db : Tables} {electionId : Int} {r : ResultRow} {status : ResultStatus}
    (hconstraints : db.Constraints) (hr : db.result? r.id = some r) (hstatus : status ≠ .finalized)
    (hnot : (r.pollingUnitCode, r.id) ∉ canonical db electionId) :
    canonical (db.updateResult r.id (setStatus status)) electionId = canonical db electionId := by
  refine canonical_updateResult hconstraints hr rfl rfl fun henters => ?_
  refine ⟨fun h => absurd h hstatus, fun hfinal => ?_⟩
  exact absurd ((mem_canonical_iff hconstraints (Tables.mem_of_result? hr).1).mpr ⟨hfinal, henters⟩) hnot

theorem stands_of_effect {electionId : Int} {declaredOn : List (String × Int)} {d : Database} {q : Request}
    (hop : q.op.onElections = false) (h : DeclarationStands electionId declaredOn d.tables)
    (hcond : CanonicalUntouched sha256Hex electionId d q)
    (hrun : q.op.run sha256Hex q.env d.tables = some (step sha256Hex d q).tables) :
    DeclarationStands electionId declaredOn (step sha256Hex d q).tables := by
  have hconstraints := d.constraints
  generalize hnext : (step sha256Hex d q).tables = db' at hrun ⊢
  have heffect := run_effect hrun
  rcases q with ⟨env, op⟩
  cases heffect with
  | quiet hcore => exact h.sameCore hcore
  | created hnamed _ =>
      rw [hop] at hnamed
      cases hnamed
  | moved _ => cases hop
  | declared _ => cases hop
  | submitted hsubmission =>
      refine (h.addResult ?_ ?_).sameCore hsubmission.core
      · rw [hsubmission.id]
        exact nextSerial_notMem _
      · rcases hsubmission.status with hstatus | hstatus <;> rw [hstatus] <;> decide
  | @reviewed _ r f hreview =>
      refine (h.updateResult ?_).sameCore hreview.core
      refine canonical_updateResult hconstraints hreview.found (hreview.identity r).1
        (hreview.identity r).2 fun _ => ?_
      exact ⟨fun hfinal => absurd hfinal hreview.after.2, fun hfinal => absurd hfinal hreview.before.2⟩
  | @finalized id r policyId hchecked hcore =>
      have hr := Tables.result?_id (checkFinalize_ok hchecked).1
      have hnot := hcond.finalize id r policyId _ rfl hchecked (toOption_eq_some.mp hrun)
      refine (h.updateResult ?_).sameCore hcore
      exact canonical_updateResult hconstraints hr rfl rfl fun henters => absurd henters hnot
  | @annulled id req checked r haccepted hremedy hcore =>
      have hr := (remedied?_eq_some hremedy).1
      refine (h.updateResult ?_).sameCore hcore
      exact canonical_withdraw hconstraints hr (by decide) (hcond.annul id req checked r rfl haccepted hremedy)
  | @corrected id req r hchecked hcore =>
      have hr := Tables.result?_id (checkCorrect_ok hchecked).1
      have hnot := hcond.correct id req r _ rfl hchecked (toOption_eq_some.mp hrun)
      have hcanonical : canonical (d.tables.updateResult r.id (setStatus .superseded)) electionId =
          canonical d.tables electionId := canonical_withdraw hconstraints hr (by decide) hnot
      refine ((h.updateResult hcanonical).addResult ?_ (by simp [correctedRow])).sameCore hcore
      exact correctedRow_id_notMem env d.tables r req

/-! ### Requests that do not -/

/-- A finalization of a result that enters adds it. -/
theorem canonical_ne_of_finalized {db db' : Tables} {electionId : Int} {env : Env} {id : Int} {r : ResultRow}
    {policyId : Int} (hconstraints : db.Constraints) (hchecked : checkFinalize env db id = .ok (r, policyId))
    (hcore : Tables.SameCore (db.updateResult r.id (markFinalized env)) db') (henters : Enters db electionId r) :
    canonical db' electionId ≠ canonical db electionId := by
  obtain ⟨hfound, hvalidated⟩ := checkFinalize_ok hchecked
  have hr := Tables.result?_id hfound
  have hmem := (Tables.mem_of_result? hr).1
  have henters' : Enters (db.updateResult r.id (markFinalized env)) electionId (markFinalized env r) := by
    by_cases hscope : r.key ∈ scopedPus db electionId
    · exact Or.inl hscope
    · -- the election's own result: the children's results are as they were
      have hown := henters.resolve_left hscope
      refine Or.inr ⟨hown.1, ?_⟩
      rw [childUnits, childResults_updateResult hconstraints hr rfl rfl fun h => absurd h hscope]
      exact hown.2
  have hnew : (r.pollingUnitCode, r.id) ∈ canonical (db.updateResult r.id (markFinalized env)) electionId := by
    refine mem_canonical.mpr ⟨markFinalized env r, ?_, rfl, henters', rfl⟩
    exact Rows.mem_update.mpr (Or.inl ⟨r, hmem, rfl, rfl⟩)
  intro heq
  rw [← canonical_sameCore hcore, heq, mem_canonical_iff hconstraints hmem, hvalidated] at hnew
  cases hnew.1

/-- A canonical result that is withdrawn is gone. -/
theorem canonical_ne_of_withdrawn {db db' : Tables} {electionId : Int} {r : ResultRow}
    (hcanonical : (r.pollingUnitCode, r.id) ∈ canonical db electionId)
    (hgone : ∀ r' ∈ db'.results, r'.id = r.id → r'.status ≠ .finalized) :
    canonical db' electionId ≠ canonical db electionId := by
  intro heq
  rw [← heq] at hcanonical
  obtain ⟨r', hr', hfinal, _, hpair⟩ := mem_canonical.mp hcanonical
  exact hgone r' hr' (Prod.mk.inj hpair).2.symm hfinal

theorem status_of_setStatus {db : Tables} {id : Int} {status : ResultStatus} (hstatus : status ≠ .finalized) :
    ∀ r ∈ (db.updateResult id (setStatus status)).results, r.id = id → r.status ≠ .finalized := by
  intro r hr hid
  rcases Rows.mem_update.mp hr with ⟨r₀, _, _, rfl⟩ | ⟨_, hne⟩
  · exact hstatus
  · exact absurd hid hne

theorem untouched_of_stands {electionId : Int} {declaredOn : List (String × Int)} {d : Database} {q : Request}
    (h : DeclarationStands electionId declaredOn d.tables)
    (hnext : DeclarationStands electionId declaredOn (step sha256Hex d q).tables) :
    CanonicalUntouched sha256Hex electionId d q := by
  have hconstraints := d.constraints
  have hsame : canonical (step sha256Hex d q).tables electionId = canonical d.tables electionId :=
    hnext.unchanged.trans h.unchanged.symm
  have hstep : ∀ {db'}, q.op.run sha256Hex q.env d.tables = some db' →
      canonical db' electionId = canonical d.tables electionId := fun hrun => step_accepted hrun ▸ hsame
  refine ⟨?_, ?_, ?_⟩
  · intro id r policyId db' hop hchecked hrun henters
    have hcanonical : canonical db' electionId = canonical d.tables electionId :=
      hstep (by rw [hop]; exact toOption_eq_some.mpr hrun)
    obtain ⟨checked, hchecked', hcore⟩ := handleFinalizeResult_ok hrun
    obtain rfl : checked = (r, policyId) := Except.ok.inj (hchecked'.symm.trans hchecked)
    exact canonical_ne_of_finalized hconstraints hchecked hcore henters hcanonical
  · intro id req r db' hop hchecked hrun hmem
    have hcanonical : canonical db' electionId = canonical d.tables electionId :=
      hstep (by rw [hop]; exact toOption_eq_some.mpr hrun)
    obtain ⟨r', hchecked', hcore⟩ := handleCorrectResult_ok hrun
    obtain rfl : r' = r := Except.ok.inj (hchecked'.symm.trans hchecked)
    refine canonical_ne_of_withdrawn hmem ?_ hcanonical
    rw [hcore.results]
    intro r₁ hr₁ hid
    rcases List.mem_append.mp hr₁ with hold | hnew
    · exact status_of_setStatus (by decide) r₁ hold hid
    · rw [List.mem_singleton.mp hnew]
      simp [correctedRow]
  · intro id req checked r hop hchecked hremedy hmem
    obtain ⟨db', response, hrun⟩ : ∃ db' response,
        handleResolveDispute q.env d.tables id req = .ok (db', response) := by
      simp only [handleResolveDispute, bind_eq_ok, pure_eq_ok, Prod.mk.injEq]
      exact ⟨_, _, checked, hchecked, rfl, rfl⟩
    have hcanonical : canonical db' electionId = canonical d.tables electionId := by
      refine hstep ?_
      rw [hop]
      exact toOption_eq_some.mpr (map_eq_ok.mpr ⟨_, hrun, rfl⟩)
    obtain ⟨checked', hchecked', hcore⟩ := handleResolveDispute_ok hrun
    obtain rfl : checked' = checked := Except.ok.inj (hchecked'.symm.trans hchecked)
    rw [remediedTables, hremedy] at hcore
    refine canonical_ne_of_withdrawn hmem ?_ hcanonical
    rw [hcore.results]
    exact status_of_setStatus (by decide)

theorem step_declarationStands_iff {electionId : Int} {declaredOn : List (String × Int)}
    (d : Database) (q : Request) (hop : q.op.onElections = false)
    (h : DeclarationStands electionId declaredOn d.tables) :
    DeclarationStands electionId declaredOn (step sha256Hex d q).tables ↔
      CanonicalUntouched sha256Hex electionId d q := by
  refine ⟨untouched_of_stands h, fun hcond => ?_⟩
  rcases step_cases d q with hsame | hrun
  · rw [hsame]
    exact h
  · exact stands_of_effect hop h hcond hrun

/-! ### Runs -/

/-- The declaration itself leaves the canonical set alone and records its totals. -/
theorem stands_of_declaration {d : Database} {env : Env} {electionId : Int} {req : DeclareRequest} {db' : Tables}
    (h : handleDeclareResult env d.tables electionId req = .ok db') :
    DeclarationStands electionId (canonical d.tables electionId) db' := by
  obtain ⟨e, a, he, ha, hcore⟩ := handleDeclareResult_ok h
  obtain ⟨hfound, _, hstatus⟩ := checkDeclarable_ok he
  obtain ⟨e', he', rfl⟩ := assessDeclaration_eq_ok.mp (checkDeclaration_ok ha)
  have hid := (Tables.mem_of_election? he').2
  refine DeclarationStands.sameCore ?_ hcore
  have hcanonical : canonical (declaredTables env d.tables e electionId req (assessment env.order d.tables e'))
      electionId = canonical d.tables electionId := by
    refine canonical_congr (scopedPus_updateElection ?_) rfl
    intro e₀ he₀ hid₀
    rw [Rows.eq_of_key_eq d.constraints.electionIds he₀ (Tables.mem_of_election? hfound).1
      (hid₀.trans (Tables.mem_of_election? hfound).2.symm)]
    refine ⟨rfl, rfl, rfl, ⟨fun hdeclared => ?_, fun hcancelled => ?_⟩⟩
    · cases hdeclared
    · rw [hcancelled] at hstatus
      cases hstatus
  have hrow := (Tables.election?_updateElection d.constraints (declareElection_id env req
    (declarationPayload env electionId req (assessment env.order d.tables e'))) hfound).mpr (Or.inl ⟨rfl, rfl⟩)
  refine ⟨hcanonical, _, _, hrow, rfl, fun order => ?_⟩
  refine (canonicalPartyTotals_congr hcanonical rfl rfl rfl (fun _ _ => rfl) order .national "NG").trans ?_
  rw [← hid]
  rfl

/-- After a declaration, in every run of requests that are not about elections, the canonical set and
the record agree in every database reached exactly if every request leaves the canonical set alone. -/
theorem declarationStands_iff_canonicalUntouched (d : Database) (env : Env) (electionId : Int)
    (req : DeclareRequest) {db' : Tables} (hdeclared : handleDeclareResult env d.tables electionId req = .ok db')
    (requests : List Request) (hops : ∀ q ∈ requests, q.op.onElections = false) :
    (∀ d' ∈ Runs.visited (step sha256Hex) (step sha256Hex d ⟨env, .declare electionId req⟩) requests,
        DeclarationStands electionId (canonical d.tables electionId) d'.tables) ↔
      Runs.AllSteps (step sha256Hex) (CanonicalUntouched sha256Hex electionId)
        (step sha256Hex d ⟨env, .declare electionId req⟩) requests := by
  have hstart : DeclarationStands electionId (canonical d.tables electionId)
      (step sha256Hex d ⟨env, .declare electionId req⟩).tables := by
    have hrun : Op.run sha256Hex env d.tables (.declare electionId req) = some db' :=
      toOption_eq_some.mpr hdeclared
    rw [@step_accepted _ d ⟨env, .declare electionId req⟩ _ hrun]
    exact stands_of_declaration hdeclared
  exact @Runs.forall_visited_iff_of_mem _ _ _ _ _ (fun _ => True) (fun q => q.op.onElections = false)
    (fun _ _ _ => trivial) (fun d q hop _ h => step_declarationStands_iff d q hop h) _ trivial hstart _ hops

/-- The returning officer declares the counted poll. -/
def declareCounted : Request := ⟨.plain 2 "ro" .returningOfficer 0, .declare 1 ⟨"", false⟩⟩

theorem declareCounted_accepted :
    ∃ db', handleDeclareResult declareCounted.env (countedPoll .closed).tables 1 ⟨"", false⟩ = .ok db' := by
  have haccepted : (handleDeclareResult declareCounted.env (countedPoll .closed).tables 1
      ⟨"", false⟩).toOption.isSome = true := by decide
  obtain ⟨db', hdb'⟩ := Option.isSome_iff_exists.mp haccepted
  exact ⟨db', toOption_eq_some.mp hdb'⟩

/-- An observer files a dispute about the declared result. -/
theorem declarationStands_iff_canonicalUntouched_disputed :
    (∃ db', handleDeclareResult declareCounted.env (countedPoll .closed).tables 1 ⟨"", false⟩ = .ok db') ∧
      ∀ d' ∈ Runs.visited (step id) (step id (countedPoll .closed) declareCounted)
          [⟨.plain 5 "obs" .observer 1, .fileDispute ⟨1, "PU-1", some 1, "overvoting", "more votes than voters"⟩⟩],
        DeclarationStands 1 (canonical (countedPoll .closed).tables 1) d'.tables := by
  obtain ⟨db', hdeclared⟩ := declareCounted_accepted
  refine ⟨⟨db', hdeclared⟩, (declarationStands_iff_canonicalUntouched (countedPoll .closed) declareCounted.env 1
    ⟨"", false⟩ hdeclared _ (by simp [Op.onElections])).mpr ⟨⟨?_, ?_, ?_⟩, trivial⟩⟩
  · intro _ _ _ _ hop
    cases hop
  · intro _ _ _ _ hop
    cases hop
  · intro _ _ _ _ hop
    cases hop

/-- The declared result is corrected, and the collation is empty while the record names a winner. -/
theorem declaration_outlived_by_correction :
    ¬ ∀ (sha256Hex : String → String) (d : Database) (env : Env) (electionId : Int) (req : DeclareRequest)
      (db' : Tables) (requests : List Request), handleDeclareResult env d.tables electionId req = .ok db' →
      (∀ q ∈ requests, q.op.onElections = false) →
      ∀ d' ∈ Runs.visited (step sha256Hex) (step sha256Hex d ⟨env, .declare electionId req⟩) requests,
        DeclarationStands electionId (canonical d.tables electionId) d'.tables := by
  intro h
  obtain ⟨db', hdeclared⟩ := declareCounted_accepted
  have hfinal := (h id (countedPoll .closed) declareCounted.env 1 ⟨"", false⟩ db'
    [⟨.plain 1 "chair" .admin 1, .correct 1 ⟨[⟨"APC", 40⟩, ⟨"LP", 60⟩], 100, 0, "recount", none⟩⟩] hdeclared
    (by simp [Op.onElections]) _ (Runs.final_mem_visited _ _)).unchanged
  have hcounted : canonical (countedPoll .closed).tables 1 = [("PU-1", 1)] := by decide
  have hempty : canonical (Runs.final (step id) (step id (countedPoll .closed) declareCounted)
      [⟨.plain 1 "chair" .admin 1, .correct 1 ⟨[⟨"APC", 40⟩, ⟨"LP", 60⟩], 100, 0, "recount", none⟩⟩]).tables 1 =
      [] := by decide +kernel
  rw [hcounted] at hfinal
  exact absurd (hempty.symm.trans hfinal) (by decide)

end Inec
