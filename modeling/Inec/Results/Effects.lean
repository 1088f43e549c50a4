import Inec.System

/-!
# What a request does to results

`Effect` of the system says which tables a request touches; here is what it writes to the results, with the
checks it made. A row comes in by one of four doors, and afterwards only its status and its times change.
-/

namespace Inec

open Checks

variable (sha256Hex : String → String)

/-- A new row with its scores, and the tables it is added to: a correction has superseded the old row before. -/
inductive Inserts (env : Env) (db : Tables) : Op → Tables → ResultRow → List PartyVoteEntry → Prop
  | ingested {res : IngestedResult} (checked : checkIngested db res = .ok ())
      (vacant : liveResult? db res.electionId res.pollingUnitCode = none) :
      Inserts env db (.ingest res) db (ingestedRow sha256Hex db res) res.partyScores
  | submitted {req : SubmitRequest} {violations : List String}
      (checked : checkSubmission env db req = .ok violations)
        (applied : checkIngested db (req.ingested env) = .ok ()) :
      Inserts env db (.submit req) db (ingestedRow sha256Hex db (req.ingested env)) req.partyScores
  | form {form : FormEC8A} (checked : checkForm env db form = .ok ()) :
      Inserts env db (.submitEC8A form) db (formRow sha256Hex env db form) form.partyResults
  | corrected {id : Int} {req : CorrectRequest} {r : ResultRow} (checked : checkCorrect env db id req = .ok r) :
      Inserts env db (.correct id req) (db.updateResult r.id (setStatus .superseded))
        (correctedRow sha256Hex env db r req) req.partyScores

/-- A row that gets another status. -/
inductive Marks (env : Env) (db : Tables) : Op → ResultRow → (ResultRow → ResultRow) → Prop
  | validated {id : Int} {r : ResultRow} {policyId : Int} (checked : checkValidate env db id = .ok (r, policyId)) :
      Marks env db (.validate id) r (markValidated env)
  | finalized {id : Int} {r : ResultRow} {policyId : Int} (checked : checkFinalize env db id = .ok (r, policyId)) :
      Marks env db (.finalize id) r (markFinalized env)
  | disputed {id : Int} {reason : String} {r : ResultRow} {policyId : Int}
      (checked : checkDispute env db id reason = .ok (r, policyId)) :
      Marks env db (.dispute id reason) r (setStatus .disputed)
  | remedied {id : Int} {req : ResolveRequest} {checked : Dispute × Option DisputeOutcome} {r : ResultRow}
      {status : ResultStatus} (accepted : checkResolve env db id req = .ok checked)
      (remedy : remedied? db checked = some (r, status)) :
        Marks env db (.resolveDispute id req) r (setStatus status)

inductive ResultEffect (env : Env) (db db' : Tables) (op : Op) : Prop
  | kept (results : db'.results = db.results) (scores : db'.resultPartyScores = db.resultPartyScores) :
      ResultEffect env db db' op
  | inserted {base : Tables} {row : ResultRow} {scores : List PartyVoteEntry}
      (insertion : Inserts sha256Hex env db op base row scores)
      (core : Tables.SameCore (base.addResult row (scorePairs scores)) db') : ResultEffect env db db' op
  | marked {r : ResultRow} {f : ResultRow → ResultRow} (mark : Marks env db op r f)
      (core : Tables.SameCore (db.updateResult r.id f) db') : ResultEffect env db db' op

variable {sha256Hex} {env : Env} {db db' : Tables} {op : Op}

/-- Without a canonical row, what is applied is inserted. -/
theorem applied_of_vacant {res : IngestedResult} {outcome : ApplyOutcome} {id : Int}
    (h : applyResultTx sha256Hex env db res = .ok (outcome, id, db'))
    (hvacant : liveResult? db res.electionId res.pollingUnitCode = none) :
    Tables.SameCore (db.addResult (ingestedRow sha256Hex db res) (scorePairs res.partyScores)) db' := by
  simp only [applyResultTx, bind_eq_ok, hvacant, insertIngested, pure_eq_ok, relabel_eq_ok, Prod.mk.injEq] at h
  obtain ⟨_, _, _, ⟨_, _, _, _, recorded, hrecorded, rfl⟩, _, _, rfl⟩ := h
  exact recordIntegrityEventTx_sameCore hrecorded

theorem applyResultTx_inserts {res : IngestedResult} {outcome : ApplyOutcome} {id : Int}
    (h : applyResultTx sha256Hex env db res = .ok (outcome, id, db')) :
    checkIngested db res = .ok () ∧
      (db' = db ∨ (liveResult? db res.electionId res.pollingUnitCode = none ∧
        Tables.SameCore (db.addResult (ingestedRow sha256Hex db res) (scorePairs res.partyScores)) db')) := by
  have hchecked := h
  simp only [applyResultTx, bind_eq_ok] at hchecked
  obtain ⟨_, hcheck, houtcome⟩ := hchecked
  refine ⟨hcheck, ?_⟩
  cases hlive : liveResult? db res.electionId res.pollingUnitCode with
  | some existing =>
      simp only [hlive, pure_eq_ok, Prod.mk.injEq] at houtcome
      exact Or.inl houtcome.2.2.symm
  | none => exact Or.inr ⟨rfl, applied_of_vacant h hlive⟩

theorem submit_resultEffect {req : SubmitRequest} {response : SubmitResponse}
    (h : handleSubmitResult sha256Hex env db req = .ok (db', response)) :
    ResultEffect sha256Hex env db db' (.submit req) := by
  simp only [handleSubmitResult, bind_eq_ok] at h
  obtain ⟨_, _, _, _, h⟩ := h
  cases hreplay : replayed? db req.idempotencyKey with
  | some r =>
      simp only [hreplay, pure_eq_ok, Prod.mk.injEq] at h
      rw [← h.1]
      exact .kept rfl rfl
  | none =>
      simp only [hreplay, submitNew, bind_eq_ok, pure_eq_ok, relabel_eq_ok, Prod.mk.injEq] at h
      obtain ⟨violations, hchecked, ⟨outcome, id, applied⟩, happlied, _, _, rfl, _⟩ := h
      obtain ⟨hingested, rfl | ⟨-, hcore⟩⟩ := applyResultTx_inserts happlied
      · have hsame := logAudit_sameCore env applied "RESULT_SUBMITTED" "result" (toString id)
        exact .kept hsame.results hsame.resultPartyScores
      · exact .inserted (.submitted hchecked hingested) (hcore.trans (logAudit_sameCore ..))

theorem submitEC8A_resultEffect {form : FormEC8A} (h : handleSubmitEC8A sha256Hex env db form = .ok db') :
    ResultEffect sha256Hex env db db' (.submitEC8A form) := by
  simp only [handleSubmitEC8A, bind_eq_ok, relabel_eq_ok, pure_eq_ok] at h
  obtain ⟨_, hchecked, _, _, _, _, recorded, hrecorded, rfl⟩ := h
  exact .inserted (.form hchecked) ((recordIntegrityEventTx_sameCore hrecorded).trans (logAudit_sameCore ..))

theorem resolveDispute_resultEffect {id : Int} {req : ResolveRequest} {response : ResolveResponse}
    (h : handleResolveDispute env db id req = .ok (db', response)) :
    ResultEffect sha256Hex env db db' (.resolveDispute id req) := by
  obtain ⟨checked, hchecked, hcore⟩ := handleResolveDispute_ok h
  unfold remediedTables at hcore
  cases hremedy : remedied? db checked with
  | none =>
      rw [hremedy] at hcore
      exact .kept hcore.results hcore.resultPartyScores
  | some write =>
      rw [hremedy] at hcore
      exact .marked (.remedied hchecked hremedy) hcore

theorem run_resultEffect (h : op.run sha256Hex env db = some db') : ResultEffect sha256Hex env db db' op := by
  have hquiet : Tables.SameCore db db' → ResultEffect sha256Hex env db db' op :=
    fun hcore => .kept hcore.results hcore.resultPartyScores
  cases op with
  | createElection req =>
      obtain ⟨_, _, _, hcore⟩ := handleCreateElection_ok (toOption_eq_some.mp h)
      exact .kept hcore.results hcore.resultPartyScores
  | createRerun parentId req =>
      obtain ⟨_, _, _, _, _, hcore⟩ := handleCreateRerun_ok (toOption_eq_some.mp h)
      exact .kept hcore.results hcore.resultPartyScores
  | assignStaff req => exact hquiet (handleAssignStaff_ok (toOption_eq_some.mp h))
  | transition electionId event actor =>
      obtain ⟨_, _, _, _, _, _, _, rfl⟩ := transitionElection_ok.mp (toOption_eq_some.mp h)
      exact .kept rfl rfl
  | declare electionId req =>
      obtain ⟨_, _, _, _, hcore⟩ := handleDeclareResult_ok (toOption_eq_some.mp h)
      exact .kept hcore.results hcore.resultPartyScores
  | submit req =>
      obtain ⟨⟨db'', response⟩, hrun, rfl⟩ := map_eq_ok.mp (toOption_eq_some.mp h)
      exact submit_resultEffect hrun
  | submitEC8A form => exact submitEC8A_resultEffect (toOption_eq_some.mp h)
  | ingest res =>
      obtain ⟨⟨outcome, id, db''⟩, hrun, rfl⟩ := map_eq_ok.mp (toOption_eq_some.mp h)
      obtain ⟨hchecked, rfl | ⟨hvacant, hcore⟩⟩ := applyResultTx_inserts hrun
      · exact .kept rfl rfl
      · exact .inserted (.ingested hchecked hvacant) hcore
  | validate id =>
      have hrun := toOption_eq_some.mp h
      simp only [handleValidateResult, bind_eq_ok] at hrun
      obtain ⟨⟨r, policyId⟩, hchecked, hrecord⟩ := hrun
      exact .marked (.validated hchecked) (recordReview_ok hrecord)
  | finalize id =>
      obtain ⟨⟨r, policyId⟩, hchecked, hcore⟩ := handleFinalizeResult_ok (toOption_eq_some.mp h)
      exact .marked (.finalized hchecked) hcore
  | dispute id reason =>
      have hrun := toOption_eq_some.mp h
      simp only [handleDisputeResult, bind_eq_ok] at hrun
      obtain ⟨⟨r, policyId⟩, hchecked, hrecord⟩ := hrun
      exact .marked (.disputed hchecked) (recordReview_ok hrecord)
  | correct id req =>
      obtain ⟨r, hchecked, hcore⟩ := handleCorrectResult_ok (toOption_eq_some.mp h)
      exact .inserted (.corrected hchecked) hcore
  | fileDispute req => exact hquiet (handleFileDispute_ok (toOption_eq_some.mp h))
  | resolveDispute id req =>
      obtain ⟨⟨db'', response⟩, hrun, rfl⟩ := map_eq_ok.mp (toOption_eq_some.mp h)
      exact resolveDispute_resultEffect hrun
  | other write frame =>
      rw [← Option.some.inj h]
      exact .kept (frame db).results (frame db).resultPartyScores

/-! ### The sheet of a result -/

/-- Everything but the status and its times. -/
def ResultRow.SameSheet (r r' : ResultRow) : Prop :=
  r' = { r with status := r'.status, validatedAt := r'.validatedAt, finalizedAt := r'.finalizedAt }

/-- The scores of a result, as they were inserted. -/
def partyEntries (db : Tables) (id : Int) : List PartyVoteEntry :=
  (db.resultPartyScores.filter fun s => s.resultId == id).map fun s => ⟨s.partyCode, s.votes⟩

/-- Every score belongs to a result. -/
def ScoresOwned (db : Tables) : Prop := ∀ s ∈ db.resultPartyScores, s.resultId ∈ db.results.map (·.id)

theorem ResultRow.SameSheet.refl (r : ResultRow) : r.SameSheet r := rfl

theorem ResultRow.SameSheet.id_eq {r r' : ResultRow} (h : r.SameSheet r') : r'.id = r.id := by
  rw [h]

theorem Marks.sameSheet {r : ResultRow} {f : ResultRow → ResultRow} (h : Marks env db op r f) (row : ResultRow) :
    row.SameSheet (f row) := by
  cases h with
  | validated => exact rfl
  | finalized => exact rfl
  | disputed => exact rfl
  | remedied => exact rfl

section Inserted

variable {base : Tables} {row : ResultRow} {scores : List PartyVoteEntry}

theorem Inserts.id_eq (h : Inserts sha256Hex env db op base row scores) :
    row.id = nextSerial (db.results.map (·.id)) := by
  cases h <;> rfl

/-- What the new row is added to has the rows of before, but for one that may be superseded. -/
theorem Inserts.base_old (h : Inserts sha256Hex env db op base row scores) :
    ∀ r ∈ base.results, ∃ old ∈ db.results, r = old ∨ r = setStatus .superseded old := by
  have hsame : ∀ r ∈ db.results, ∃ old ∈ db.results, r = old ∨ r = setStatus .superseded old :=
    fun r hr => ⟨r, hr, Or.inl rfl⟩
  cases h with
  | ingested => exact hsame
  | submitted => exact hsame
  | form => exact hsame
  | corrected =>
      intro r hr
      rcases Rows.mem_update.mp hr with ⟨old, hold, -, rfl⟩ | ⟨hold, -⟩
      · exact ⟨old, hold, Or.inr rfl⟩
      · exact ⟨r, hold, Or.inl rfl⟩

theorem Inserts.base_rows (h : Inserts sha256Hex env db op base row scores) :
    base.resultPartyScores = db.resultPartyScores ∧ base.results.map (·.id) = db.results.map (·.id) ∧
      ∀ r ∈ base.results, ∃ old ∈ db.results, old.SameSheet r := by
  have hsheets : ∀ r ∈ base.results, ∃ old ∈ db.results, old.SameSheet r := by
    intro r hr
    obtain ⟨old, hold, rfl | rfl⟩ := h.base_old r hr
    · exact ⟨r, hold, .refl r⟩
    · exact ⟨old, hold, rfl⟩
  cases h with
  | ingested => exact ⟨rfl, rfl, hsheets⟩
  | submitted => exact ⟨rfl, rfl, hsheets⟩
  | form => exact ⟨rfl, rfl, hsheets⟩
  | corrected => exact ⟨rfl, Rows.map_update fun _ _ _ => rfl, hsheets⟩

/-- The new row is open for review, and nobody has validated it. -/
theorem Inserts.unreviewed (h : Inserts sha256Hex env db op base row scores) :
    (row.status = .pending ∨ row.status = .disputed) ∧ row.validatedAt = none := by
  cases h with
  | ingested => exact ⟨initialStatus_cases _, rfl⟩
  | submitted => exact ⟨initialStatus_cases _, rfl⟩
  | form => exact ⟨Or.inl rfl, rfl⟩
  | corrected => exact ⟨Or.inl rfl, rfl⟩

theorem Inserts.id_notMem (h : Inserts sha256Hex env db op base row scores) : row.id ∉ db.results.map (·.id) := by
  rw [h.id_eq]
  exact nextSerial_notMem _

/-- The scores after an insertion. -/
theorem partyEntries_addResult (base : Tables) (row : ResultRow) (scores : List PartyVoteEntry) (id : Int) :
    partyEntries (base.addResult row (scorePairs scores)) id = partyEntries base id ++ if row.id =
      id then scores else [] := by
  simp only [partyEntries, Tables.addResult, scorePairs, List.map_map, List.filter_append, List.map_append]
  congr 1
  by_cases hid : row.id = id
  · have hall : ∀ scores : List PartyVoteEntry,
      (scores.map ((fun s : String × Int => (⟨row.id, s.1, s.2⟩ : PartyScore)) ∘
        fun s => (s.partyCode, s.votes))).filter (fun s => s.resultId == id) = scores.map
          ((fun s : String × Int => (⟨row.id, s.1, s.2⟩ : PartyScore)) ∘ fun s => (s.partyCode, s.votes)) := by
      intro scores
      apply List.filter_eq_self.mpr
      intro s hs
      obtain ⟨entry, -, rfl⟩ := List.mem_map.mp hs
      exact beq_iff_eq.mpr hid
    rw [hall, List.map_map, if_pos hid]
    exact List.map_id scores
  · have hnone : ∀ scores : List PartyVoteEntry,
      (scores.map ((fun s : String × Int => (⟨row.id, s.1, s.2⟩ : PartyScore)) ∘
        fun s => (s.partyCode, s.votes))).filter (fun s => s.resultId == id) = [] := by
      intro scores
      apply List.filter_eq_nil_iff.mpr
      intro s hs heq
      obtain ⟨entry, -, rfl⟩ := List.mem_map.mp hs
      exact hid (beq_iff_eq.mp heq)
    rw [hnone, List.map_nil, if_neg hid]

end Inserted

theorem partyEntries_eq_nil (h : ScoresOwned db) {id : Int} (hid : id ∉ db.results.map (·.id)) :
    partyEntries db id = [] := by
  rw [partyEntries, List.map_eq_nil_iff]
  apply List.filter_eq_nil_iff.mpr
  intro s hs heq
  exact hid (beq_iff_eq.mp heq ▸ h s hs)

theorem partyEntries_congr (h : db'.resultPartyScores = db.resultPartyScores) (id : Int) :
    partyEntries db' id = partyEntries db id := by
  rw [partyEntries, h, partyEntries]

/-- A row after the request is one of before, up to its status, or the one that was inserted, and the scores are
those it came with. -/
theorem ResultEffect.sheets (h : ResultEffect sha256Hex env db db' op) (howned : ScoresOwned db) :
    ScoresOwned db' ∧ ∀ r ∈ db'.results,
      (∃ old ∈ db.results, old.SameSheet r ∧ partyEntries db' r.id = partyEntries db old.id) ∨
        ∃ base scores, Inserts sha256Hex env db op base r scores ∧ partyEntries db' r.id = scores := by
  cases h with
  | kept results scores =>
      refine ⟨?_, ?_⟩
      · rw [ScoresOwned, results, scores]
        exact howned
      · intro r hr
        exact Or.inl ⟨r, results ▸ hr, .refl r, partyEntries_congr scores r.id⟩
  | @inserted base row scores insertion core =>
      obtain ⟨hbaseScores, hbaseIds, hbaseRows⟩ := insertion.base_rows
      have hbase : ScoresOwned base := by
        rw [ScoresOwned, hbaseScores, hbaseIds]
        exact howned
      have hentries : ∀ id, partyEntries db' id = partyEntries db id ++ if row.id = id then scores else [] := by
        intro id
        rw [partyEntries_congr core.resultPartyScores, partyEntries_addResult, partyEntries_congr hbaseScores]
      refine ⟨?_, ?_⟩
      · intro s hs
        rw [core.resultPartyScores, Tables.addResult] at hs
        rw [core.results, Tables.addResult, List.map_append, List.map_singleton]
        rcases List.mem_append.mp hs with hs | hs
        · exact List.mem_append_left _ (hbase s hs)
        · obtain ⟨pair, -, rfl⟩ := List.mem_map.mp hs
          exact List.mem_append_right _ (List.mem_singleton_self row.id)
      · intro r hr
        rw [core.results, Tables.addResult] at hr
        rcases List.mem_append.mp hr with hr | hr
        · left
          obtain ⟨old, hold, hsheet⟩ := hbaseRows r hr
          refine ⟨old, hold, hsheet, ?_⟩
          have hne : row.id ≠ r.id := by
            intro heq
            rw [hsheet.id_eq] at heq
            exact insertion.id_notMem (heq ▸ List.mem_map_of_mem hold)
          rw [hentries, if_neg hne, List.append_nil, hsheet.id_eq]
        · right
          obtain rfl := List.mem_singleton.mp hr
          refine ⟨base, scores, insertion, ?_⟩
          rw [hentries, if_pos rfl, partyEntries_eq_nil howned insertion.id_notMem, List.nil_append]
  | @marked r₀ f mark core =>
      have hids : (db.updateResult r₀.id f).results.map (·.id) = db.results.map (·.id) :=
        Rows.map_update fun row _ _ => (mark.sameSheet row).id_eq
      refine ⟨?_, ?_⟩
      · intro s hs
        rw [core.resultPartyScores] at hs
        rw [core.results, hids]
        exact howned s hs
      · intro r hr
        left
        have hscores := partyEntries_congr core.resultPartyScores r.id
        rw [core.results] at hr
        rcases Rows.mem_update.mp hr with ⟨old, hold, -, rfl⟩ | ⟨hold, -⟩
        · exact ⟨old, hold, mark.sameSheet old, by rw [hscores, (mark.sameSheet old).id_eq]; rfl⟩
        · exact ⟨r, hold, .refl r, hscores⟩

/-! ### Along a run -/

/-- What holds of every sheet and its scores. -/
structure SheetsHold (q : ResultRow → List PartyVoteEntry → Prop) (db : Tables) : Prop where
  owned : ScoresOwned db
  rows : ∀ r ∈ db.results, q r (partyEntries db r.id)

/-- No result yet. -/
def NoResults (db : Tables) : Prop := db.results = [] ∧ db.resultPartyScores = []

instance (db : Tables) : Decidable (NoResults db) := inferInstanceAs (Decidable (_ ∧ _))

theorem NoResults.sheetsHold (h : NoResults db) (q : ResultRow → List PartyVoteEntry → Prop) : SheetsHold q db := by
  refine ⟨?_, ?_⟩
  · intro s hs
    rw [h.2] at hs
    cases hs
  · intro r hr
    rw [h.1] at hr
    cases hr

/-- What only depends on the sheets has to be checked where rows come in. -/
theorem step_sheetsHold {q : ResultRow → List PartyVoteEntry → Prop} {d : Database} {request : Request}
    (h : SheetsHold q d.tables) (hsheet : ∀ r r' scores, ResultRow.SameSheet r r' → q r scores → q r' scores)
    (hinsert : ∀ base row scores,
      Inserts sha256Hex request.env d.tables request.op base row scores → q row scores) :
    SheetsHold q (step sha256Hex d request).tables := by
  rcases step_cases d request with hsame | hrun
  · rw [hsame]
    exact h
  · obtain ⟨howned, hrows⟩ := (run_resultEffect hrun).sheets h.owned
    refine ⟨howned, ?_⟩
    intro r hr
    rcases hrows r hr with ⟨old, hold, hsame, hentries⟩ | ⟨base, scores, insertion, hentries⟩
    · rw [hentries]
      exact hsheet old r _ hsame (h.rows old hold)
    · rw [hentries]
      exact hinsert base r scores insertion

/-- No request writes the register of polling units, or where they are. -/
theorem run_register (h : op.run sha256Hex env db = some db') :
    db'.pollingUnits = db.pollingUnits ∧ db'.wards = db.wards ∧ db'.lgas = db.lgas := by
  cases run_effect h with
  | quiet core => exact ⟨core.pollingUnits, core.wards, core.lgas⟩
  | created _ creation => exact ⟨creation.core.pollingUnits, creation.core.wards, creation.core.lgas⟩
  | moved move => exact ⟨move.core.pollingUnits, move.core.wards, move.core.lgas⟩
  | declared declaration => exact ⟨declaration.core.pollingUnits, declaration.core.wards, declaration.core.lgas⟩
  | submitted submission => exact ⟨submission.core.pollingUnits, submission.core.wards, submission.core.lgas⟩
  | reviewed review => exact ⟨review.core.pollingUnits, review.core.wards, review.core.lgas⟩
  | finalized _ core => exact ⟨core.pollingUnits, core.wards, core.lgas⟩
  | annulled _ _ core => exact ⟨core.pollingUnits, core.wards, core.lgas⟩
  | corrected _ core => exact ⟨core.pollingUnits, core.wards, core.lgas⟩

theorem step_register (d : Database) (q : Request) :
    (step sha256Hex d q).tables.pollingUnits = d.tables.pollingUnits ∧
      (step sha256Hex d q).tables.wards = d.tables.wards ∧ (step sha256Hex d q).tables.lgas = d.tables.lgas := by
  rcases step_cases d q with hsame | hrun
  · rw [hsame]
    exact ⟨rfl, rfl, rfl⟩
  · exact run_register hrun

/-- One polling unit of 200 voters, whose election is open for capture. -/
def votingTables : Tables :=
  { Tables.empty with
    states := ["S-1"]
    pollingUnits := [⟨"PU-1", "W-1", 200⟩]
    wards := [⟨"W-1", "L-1"⟩]
    lgas := [⟨"L-1", "S-1"⟩]
    elections := [.bare 1 .gubernatorial .voting] }

theorem constraints_votingTables : votingTables.Constraints := by decide

def votingPoll : Database := ⟨votingTables, constraints_votingTables⟩

/-- One request after the other, each by another officer. -/
def inTurn (ops : List Op) : List Request :=
  ops.zipIdx.map fun op => ⟨.plain (op.2 + 1) "officer" .admin 0, op.1⟩

end Inec
