import Inec.Results.Duplicates
import Inec.Results.SideDoors

/-!
# Results that agree with themselves

The counts, the scores and the hash of a result are in different places. A submission, an ingestion and a
correction write them together; a form EC8A brings a hash of its own, and the side doors write some of them
only. So the results agree with themselves exactly as long as no form gets in, nothing comes in by a side door,
and no offline client changes a count.
-/

namespace Inec

open Checks

variable (sha256Hex : String → String)

inductive ResultWrite
  | request (q : Request)
  | side (w : SideWrite)

/-- One write. A refused one leaves the database as it was. -/
def resultStep (d : Database) : ResultWrite → Database
  | .request q => step sha256Hex d q
  | .side w =>
      match h : w.run d.tables with
      | some db' => ⟨db', w.run_effect h |>.constraints d.constraints⟩
      | none => d

/-- The counts are those of the scores, and the hash is that of the stored figures. -/
structure ResultRow.Agrees (r : ResultRow) (scores : List PartyVoteEntry) : Prop where
  valid : r.totalValidVotes = partySumOf scores
  cast : r.totalVotesCast = r.totalValidVotes + r.rejectedVotes
  hash : r.ec8aHash = computeEC8AHash sha256Hex r.electionId r.pollingUnitCode scores r.accreditedVoters r.rejectedVotes

instance (r : ResultRow) (scores : List PartyVoteEntry) : Decidable (r.Agrees sha256Hex scores) :=
  decidable_of_iff (_ ∧ _ ∧ _) ⟨fun ⟨hvalid, hcast, hhash⟩ => ⟨hvalid, hcast, hhash⟩,
    fun h => ⟨h.valid, h.cast, h.hash⟩⟩

/-- Every result that is not superseded agrees with itself. -/
def ResultsAgree (db : Tables) : Prop :=
  ∀ r ∈ db.results, r.status ≠ .superseded → r.Agrees sha256Hex (partyEntries db r.id)

instance (db : Tables) : Decidable (ResultsAgree sha256Hex db) := inferInstanceAs (Decidable (∀ r ∈ db.results, _))

/-- What has to be in order for a form once its row is in. -/
def formEvidence (env : Env) (db : Tables) (form : FormEC8A) : Except String (Tables × IntegrityEventRecord) := do
  let row := formRow sha256Hex env db form
  let inserted := db.addResult row (scorePairs form.partyResults)
  let policyId ← requirePolicyVersion env inserted form.electionId
  recordIntegrityEventTx sha256Hex env inserted (formEvent env row policyId form)

/-- A form that fails no check: its unit has no result, and its evidence is recorded. -/
def Fileable (env : Env) (db : Tables) (form : FormEC8A) : Bool :=
  (checkForm env db form).toOption.isSome && (rejectExisting db form).toOption.isSome &&
    (formEvidence sha256Hex env db form).toOption.isSome

/-- No form is good to file, a side door finds nothing to insert, and an offline client that wins has the counts
that are there. -/
def KeptTogether (d : Database) : ResultWrite → Bool
  | .request q =>
      match q.op with
      | .submitEC8A form => !Fileable sha256Hex q.env d.tables form
      | _ => true
  | .side (.resolveOffline env body serverSubmittedAt (.ok ())) =>
      match checkOfflineConflict env d.tables body with
      | .error _ => true
      | .ok (conflict, r) =>
          !(conflict.localWins serverSubmittedAt && (conflict.counts r).Sums) ||
            decide (conflict.counts r = r.counts)
  | .side (.submitService result (.ok ())) => !result.Vacant d.tables
  | .side (.importResult payload (.ok ())) =>
      match parseImport d.tables payload with
      | .error _ => true
      | .ok (row, _) => d.tables.results.any fun r => r.key == row.key
  | .side _ => true

variable {sha256Hex} {d : Database} {db db' : Tables}

/-! ### Requests -/

theorem ResultRow.Agrees.sameSheet {r r' : ResultRow} {scores : List PartyVoteEntry} (hsheet : r.SameSheet r')
    (h : r.Agrees sha256Hex scores) : r'.Agrees sha256Hex scores := by
  rw [hsheet]
  exact ⟨h.valid, h.cast, h.hash⟩

/-- What comes in by another door than a form agrees. -/
theorem Inserts.agrees {env : Env} {op : Op} {base : Tables} {row : ResultRow} {scores : List PartyVoteEntry}
    (h : Inserts sha256Hex env db op base row scores) (hform : ∀ form, op ≠ .submitEC8A form) :
    row.Agrees sha256Hex scores := by
  cases h with
  | ingested => exact ⟨rfl, rfl, rfl⟩
  | submitted => exact ⟨rfl, rfl, rfl⟩
  | @form form => exact absurd rfl (hform form)
  | corrected => exact ⟨rfl, rfl, rfl⟩

theorem request_keeps (h : SheetsHold (ResultRow.Agrees sha256Hex) d.tables) {q : Request}
    (hform : ∀ form, q.op ≠ .submitEC8A form) : SheetsHold (ResultRow.Agrees sha256Hex)
      (step sha256Hex d q).tables := by
  apply step_sheetsHold h
  · intro r r' scores hsheet hagrees
    exact hagrees.sameSheet hsheet
  · intro base row scores insertion
    exact insertion.agrees hform

/-- A form that is accepted brings its own hash. -/
theorem form_disagrees (hinj : Function.Injective sha256Hex) {env : Env} {form : FormEC8A}
    (h : handleSubmitEC8A sha256Hex env db form = .ok db') : ¬ResultsAgree sha256Hex db' := by
  intro hagree
  have hsubmission := handleSubmitEC8A_ok h
  have hrow : formRow sha256Hex env db form ∈ db'.results := by
    rw [hsubmission.core.results]
    exact List.mem_append_right _ (List.mem_singleton_self _)
  have hhash := (hagree _ hrow (by simp [formRow])).hash
  exact formHash_ne_computeEC8AHash hinj form _ _ _ _ _ hhash

theorem handleSubmitEC8A_isSome (env : Env) (db : Tables) (form : FormEC8A) :
    (handleSubmitEC8A sha256Hex env db form).toOption.isSome = Fileable sha256Hex env db form := by
  rw [Bool.eq_iff_iff, Option.isSome_iff_exists]
  simp only [Fileable, formEvidence, handleSubmitEC8A, Bool.and_eq_true, Option.isSome_iff_exists,
    toOption_eq_some, bind_eq_ok, relabel_eq_ok, pure_eq_ok]
  constructor
  · rintro ⟨_, u, hchecked, v, hfree, policyId, hpolicy, recorded, hrecorded, _⟩
    exact ⟨⟨⟨u, hchecked⟩, v, hfree⟩, recorded, policyId, hpolicy, hrecorded⟩
  · rintro ⟨⟨⟨u, hchecked⟩, v, hfree⟩, recorded, policyId, hpolicy, hrecorded⟩
    exact ⟨_, u, hchecked, v, hfree, policyId, hpolicy, recorded, hrecorded, rfl⟩

theorem step_submitEC8A_of_not_fileable {q : Request} {form : FormEC8A} (hop : q.op = .submitEC8A form)
    (h : Fileable sha256Hex q.env d.tables form = false) : (step sha256Hex d q).tables = d.tables := by
  obtain hsame | hrun := step_cases d q
  · exact hsame
  · rw [hop] at hrun
    have hsome : (handleSubmitEC8A sha256Hex q.env d.tables form).toOption.isSome = true :=
      Option.isSome_of_eq_some hrun
    rw [handleSubmitEC8A_isSome, h] at hsome
    cases hsome

/-! ### Side doors -/

theorem unhashed_disagrees {row : ResultRow} (hhash : row.ec8aHash = "") (scores : List PartyVoteEntry) :
    ¬row.Agrees sha256Hex scores := by
  intro h
  have hchars := congrArg String.toList h.hash
  rw [hhash, computeEC8AHash, String.toList_append] at hchars
  cases hchars

theorem ResultRow.setCounts_counts (r : ResultRow) : r.setCounts r.counts = r := rfl

/-- The counts that are there leave the table as it is. -/
theorem updateResult_of_sameCounts (hdb : db.Constraints) {r : ResultRow} (hr : db.result? r.id = some r) :
    (db.updateResult r.id (·.setCounts r.counts)).results = db.results := by
  have hsame : ∀ row ∈ db.results, (if row.id = r.id then row.setCounts r.counts else row) = row := by
    intro row hrow
    split
    case isTrue hid =>
      rw [Rows.eq_of_key_eq hdb.resultIds hrow (Tables.mem_of_result? hr).1 hid, r.setCounts_counts]
    case isFalse => rfl
  show db.results.map _ = db.results
  exact (List.map_congr_left hsame).trans (List.map_id _)

theorem SheetsHold.of_same {q : ResultRow → List PartyVoteEntry → Prop} (h : SheetsHold q db)
    (hresults : db'.results = db.results) (hscores : db'.resultPartyScores = db.resultPartyScores) :
    SheetsHold q db' where
  owned := by
    rw [ScoresOwned, hresults, hscores]
    exact h.owned
  rows := by
    intro r hr
    rw [hresults] at hr
    rw [partyEntries_congr hscores]
    exact h.rows r hr

/-- Other counts in a row that agrees do not. -/
theorem sameCounts_of_agrees (hinj : Function.Injective sha256Hex) {r : ResultRow} {counts : ResultCounts}
    {scores : List PartyVoteEntry} (h : r.Agrees sha256Hex scores)
    (h' : (r.setCounts counts).Agrees sha256Hex scores) : counts = r.counts := by
  have hhash := h.hash.symm.trans h'.hash
  obtain ⟨-, haccredited, hrejected⟩ := (computeEC8AHash_inj_iff hinj _ _).mp hhash
  have hvalid : counts.totalValidVotes = r.totalValidVotes := h'.valid.trans h.valid.symm
  have hcast : counts.totalVotesCast = r.totalVotesCast := by
    have hnew : counts.totalVotesCast = counts.totalValidVotes + counts.rejectedVotes := h'.cast
    have hrejected' : r.rejectedVotes = counts.rejectedVotes := hrejected
    rw [hnew, hvalid, ← hrejected', h.cast]
  cases counts
  simp only [ResultRow.counts, ResultCounts.mk.injEq]
  exact ⟨hvalid, hrejected.symm, hcast, haccredited.symm⟩

theorem resultStep_of_run {w : SideWrite} (h : w.run d.tables = some db') :
    (resultStep sha256Hex d (.side w)).tables = db' := by
  rw [resultStep]
  split
  case h_1 db'' hrun =>
    rw [h] at hrun
    exact (Option.some.inj hrun).symm
  case h_2 hnone =>
    rw [h] at hnone
    cases hnone

theorem resultStep_of_none {w : SideWrite} (h : w.run d.tables = none) : resultStep sha256Hex d (.side w) = d := by
  rw [resultStep]
  split
  case h_1 db'' hrun =>
    rw [h] at hrun
    cases hrun
  case h_2 => rfl

/-- A row without a hash among the results. -/
theorem addResult_disagrees {row : ResultRow} (hpending : row.status = .pending) (hhash : row.ec8aHash = "")
    (scores : List (String × Int)) : ¬ResultsAgree sha256Hex (db.addResult row scores) := by
  intro hagree
  have hrow : row ∈ (db.addResult row scores).results := List.mem_append_right _ (List.mem_singleton_self row)
  have hlive : row.status ≠ .superseded := by simp [hpending]
  exact unhashed_disagrees hhash _ (hagree row hrow hlive)

theorem service_disagrees {result : ServiceResult} (h : result.Vacant d.tables = true) :
    ¬ResultsAgree sha256Hex (resultStep sha256Hex d (.side (.submitService result (.ok ())))).tables := by
  have hrun : SideWrite.run d.tables (.submitService result (.ok ())) =
      some (d.tables.addResult (result.row d.tables) []) :=
    toOption_eq_some.mpr (submitServiceResult_ok.mpr ⟨h, rfl, rfl⟩)
  rw [resultStep_of_run hrun]
  exact addResult_disagrees rfl rfl _

theorem import_disagrees {payload : Payload} {row : ResultRow} {scores : List PartyVoteEntry}
    (hparsed : parseImport d.tables payload = .ok (row, scores))
    (hvacant : d.tables.results.any (fun r => r.key == row.key) = false) :
    ¬ResultsAgree sha256Hex (resultStep sha256Hex d (.side (.importResult payload (.ok ())))).tables := by
  have hrun : SideWrite.run d.tables (.importResult payload (.ok ())) =
      some (d.tables.addResult row (scorePairs scores)) := by
    apply toOption_eq_some.mpr
    simp only [processResultImport, bind_eq_ok, relabel_eq_ok]
    refine ⟨_, hparsed, (), trivial, ?_⟩
    rw [hvacant]
    rfl
  obtain ⟨-, hpending, hhash⟩ := parseImport_ok hparsed
  rw [resultStep_of_run hrun]
  exact addResult_disagrees hpending hhash _

/-- An offline client that wins has to have the counts of a row that agrees. -/
theorem offline_counts (hinj : Function.Injective sha256Hex)
    (h : SheetsHold (ResultRow.Agrees sha256Hex) d.tables) {env : Env} {body : Option OfflineConflict}
    {serverSubmittedAt : String} {conflict : OfflineConflict} {r : ResultRow}
    (hchecked : checkOfflineConflict env d.tables body = .ok (conflict, r))
    (hwins : conflict.localWins serverSubmittedAt = true) (hsums : (conflict.counts r).Sums = true)
    (hagree : ResultsAgree sha256Hex (resultStep sha256Hex d
      (.side (.resolveOffline env body serverSubmittedAt (.ok ())))).tables) :
    conflict.counts r = r.counts := by
  obtain ⟨hr, hpending⟩ := checkOfflineConflict_ok hchecked
  have hmem : r ∈ d.tables.results := (Tables.mem_of_result? hr).1
  have hcore := logAudit_sameCore env (d.tables.updateResult r.id
    (·.setCounts (conflict.counts r))) "conflict_resolution" "result"
    (toString conflict.resultId)
  have hrun : SideWrite.run d.tables (.resolveOffline env body serverSubmittedAt (.ok ())) = some _ :=
    toOption_eq_some.mpr ((handleOfflineConflictResolve_wins hchecked hwins).mpr ⟨hsums, rfl, rfl⟩)
  rw [resultStep_of_run hrun] at hagree
  have hrow : r.setCounts (conflict.counts r) ∈
      (d.tables.updateResult r.id (·.setCounts (conflict.counts r))).results :=
    Rows.mem_update.mpr (.inl ⟨r, hmem, rfl, rfl⟩)
  have hnew := hagree (r.setCounts (conflict.counts r)) (hcore.results ▸ hrow)
    (by simp [ResultRow.setCounts, hpending])
  rw [partyEntries_congr hcore.resultPartyScores] at hnew
  exact sameCounts_of_agrees hinj (h.rows r hmem) hnew

/-! ### Every run -/

theorem together_of_resultsAgree (hinj : Function.Injective sha256Hex) (w : ResultWrite)
    (h : SheetsHold (ResultRow.Agrees sha256Hex) d.tables)
    (hagree : ResultsAgree sha256Hex (resultStep sha256Hex d w).tables) :
    KeptTogether sha256Hex d w = true := by
  match w with
  | .request ⟨env, op⟩ =>
      cases op with
      | submitEC8A form =>
          simp only [KeptTogether, Bool.not_eq_true']
          rw [Bool.eq_false_iff]
          intro hfileable
          rw [← handleSubmitEC8A_isSome, Option.isSome_iff_exists] at hfileable
          obtain ⟨db', hrun⟩ := hfileable
          have hstep : (step sha256Hex d ⟨env, .submitEC8A form⟩).tables = db' := step_accepted hrun
          have hstored := form_disagrees hinj (toOption_eq_some.mp hrun)
          rw [← hstep] at hstored
          exact hstored hagree
      | _ => rfl
  | .side (.resolveOffline env body serverSubmittedAt (.ok ())) =>
      simp only [KeptTogether]
      split
      case h_1 => rfl
      case h_2 conflict r hchecked =>
        rw [Bool.or_eq_true, Bool.not_eq_true', decide_eq_true_iff, or_iff_not_imp_left,
          Bool.not_eq_false, Bool.and_eq_true]
        intro hmet
        exact offline_counts hinj h hchecked hmet.1 hmet.2 hagree
  | .side (.submitService result (.ok ())) =>
      simp only [KeptTogether, Bool.not_eq_true']
      rw [Bool.eq_false_iff]
      intro hvacant
      exact service_disagrees hvacant hagree
  | .side (.importResult payload (.ok ())) =>
      simp only [KeptTogether]
      split
      case h_1 => rfl
      case h_2 row scores hparsed =>
        by_contra hvacant
        exact import_disagrees hparsed ((Bool.not_eq_true _).mp hvacant) hagree
  | .side (.resolveOffline _ _ _ (.error _)) => rfl
  | .side (.submitService _ (.error _)) => rfl
  | .side (.importResult _ (.error _)) => rfl

theorem resultStep_keeps (w : ResultWrite) (h : SheetsHold (ResultRow.Agrees sha256Hex) d.tables)
    (hmet : KeptTogether sha256Hex d w = true) :
    SheetsHold (ResultRow.Agrees sha256Hex) (resultStep sha256Hex d w).tables := by
  match w with
  | .request ⟨env, op⟩ =>
      by_cases hform : ∃ form, op = .submitEC8A form
      · obtain ⟨form, rfl⟩ := hform
        simp only [KeptTogether, Bool.not_eq_true'] at hmet
        have hsame : (step sha256Hex d ⟨env, .submitEC8A form⟩).tables = d.tables :=
          step_submitEC8A_of_not_fileable rfl hmet
        rw [resultStep, hsame]
        exact h
      · exact request_keeps h fun form hop => hform ⟨form, hop⟩
  | .side w =>
      cases hrun : w.run d.tables with
      | none =>
          rw [resultStep_of_none hrun]
          exact h
      | some db' =>
          rw [resultStep_of_run hrun]
          cases w.run_effect hrun with
          | quiet core => exact h.of_same core.results core.resultPartyScores
          | @recounted _ _ _ conflict r checked wins sums core =>
              have hcounts : conflict.counts r = r.counts := by simpa [KeptTogether, checked, wins, sums] using hmet
              rw [hcounts] at core
              have hresults := updateResult_of_sameCounts d.constraints (checkOfflineConflict_ok checked).1
              exact h.of_same (core.results.trans hresults) core.resultPartyScores
          | submitted vacant => simp [KeptTogether, vacant] at hmet
          | imported parsed vacant => simp [KeptTogether, parsed, vacant] at hmet

theorem SheetsHold.resultsAgree (h : SheetsHold (ResultRow.Agrees sha256Hex) db) : ResultsAgree sha256Hex db :=
  fun r hr _ => h.rows r hr

/-- From no results on, a run that keeps counts, scores and hashes together has results that agree in every
state; and unless two texts have one hash, no other run does. -/
theorem resultsAgree_of_together {start : Database} (hnone : NoResults start.tables) (writes : List ResultWrite) :
    (Runs.AllSteps (resultStep sha256Hex) (fun d w => KeptTogether sha256Hex d w = true) start writes →
        ∀ d ∈ Runs.visited (resultStep sha256Hex) start writes, ResultsAgree sha256Hex d.tables) ∧
      (Function.Injective sha256Hex →
        (∀ d ∈ Runs.visited (resultStep sha256Hex) start writes, ResultsAgree sha256Hex d.tables) →
          Runs.AllSteps (resultStep sha256Hex) (fun d w => KeptTogether sha256Hex d w = true) start writes) := by
  have hstart : SheetsHold (ResultRow.Agrees sha256Hex) start.tables := hnone.sheetsHold _
  have hkeep : ∀ (d : Database) (w : ResultWrite), SheetsHold (ResultRow.Agrees sha256Hex) d.tables →
    KeptTogether sha256Hex d w = true →
      SheetsHold (ResultRow.Agrees sha256Hex) (resultStep sha256Hex d w).tables :=
        fun d w h hmet => resultStep_keeps w h hmet
  constructor
  · intro hmet d hd
    have hsheets := Runs.forall_visited hkeep hstart hmet d hd
    exact hsheets.resultsAgree
  · intro hinj hagree
    have hexact := @Runs.forall_visited_iff_of_strong Database ResultWrite (resultStep sha256Hex)
      (fun d w => KeptTogether sha256Hex d w = true) (fun d => ResultsAgree sha256Hex d.tables)
      (fun d => SheetsHold (ResultRow.Agrees sha256Hex) d.tables) (fun d h => h.resultsAgree)
      (fun d w h h' => together_of_resultsAgree hinj w h h') hkeep start hstart writes
    exact hexact.mp hagree

section Apart

/-- The result of PU-1, with 100 valid votes and 3 rejected ones. -/
def capturedUnit : ResultWrite :=
  .request ⟨.plain 7 "officer" .admin 0, .submit ⟨1, "PU-1", [⟨"APC", 60⟩, ⟨"LP", 40⟩], 150, 3, true, "", ""⟩⟩

def offlineClient (localData : Payload) : ResultWrite :=
  .side (.resolveOffline (.plain 8 "officer" .admin 0)
    (some ⟨1, localData, "", "local_wins"⟩) "2027-02-25 18:00:00" (.ok ()))

def serviceUnit : ResultWrite := .side (.submitService ⟨1, "PU-1", 100, 3, 150⟩ (.ok ()))

def importedUnit : ResultWrite :=
  .side (.importResult [("election_id", .number (.ofInt 1)), ("polling_unit_code", .str "PU-1"),
    ("accredited_voters", .number (.ofInt 150)), ("party_scores",
      .arr [.obj [("party_code", .str "APC"), ("votes", .number (.ofInt 60))]])] (.ok ()))

/-- A client with the same counts, and a submission to a unit that has a result. -/
theorem resultsAgree_of_same_counts :
    NoResults votingPoll.tables ∧
      (Runs.final (resultStep id) votingPoll [capturedUnit, offlineClient [("rejected_votes", .number (.ofInt 3))],
        serviceUnit]).tables.results.length = 1 ∧
      ∀ d ∈ Runs.visited (resultStep id) votingPoll [capturedUnit,
        offlineClient [("rejected_votes", .number (.ofInt 3))], serviceUnit], ResultsAgree id d.tables := by
  refine ⟨by decide, by decide +kernel, ?_⟩
  exact (@resultsAgree_of_together id votingPoll (by decide) _).1 (by decide +kernel)

/-- The client's total is not that of the scores; a form has its own hash; the service and the import leave the
hash out. -/
theorem writes_apart :
    ¬ResultsAgree id (Runs.final (resultStep id) votingPoll
        [capturedUnit, offlineClient [("total_valid_votes", .number (.ofInt 90))]]).tables ∧
      ¬ResultsAgree id (Runs.final (resultStep id) votingPoll
        [.request ⟨.plain 7 "officer" .admin 0, .submitEC8A (unitForm [⟨"APC", 60⟩])⟩]).tables ∧
      ¬ResultsAgree id (Runs.final (resultStep id) votingPoll [serviceUnit]).tables ∧
      ¬ResultsAgree id (Runs.final (resultStep id) votingPoll [importedUnit]).tables := by
  refine ⟨?_, ?_, ?_, ?_⟩
  · decide +kernel
  · decide +kernel
  · decide +kernel
  · decide +kernel

end Apart

end Inec
