import Inec.Lib.Runs
import Inec.Results.Effects
import Mathlib.Logic.Relation

/-!
# The history of results

Up to its status and its times, the table of results is a log: a request appends at most one sheet with its scores,
and none is ever rewritten or removed. What a request does to the rows that are there is a step of one relation on
their statuses, so the status of a row goes along the paths of that relation.
-/

namespace Inec

open Checks

variable {sha256Hex : String → String}

/-! ### The log of sheets -/

/-- The columns no review writes; the others are blank. -/
def ResultRow.sheet (r : ResultRow) : ResultRow :=
  { r with status := .pending, validatedAt := none, finalizedAt := none }

/-- Every sheet with the scores it came with. -/
def sheetLog (db : Tables) : List (ResultRow × List PartyVoteEntry) :=
  db.results.map fun r => (r.sheet, partyEntries db r.id)

/-- A sheet that came in, and how many requests were before the one that brought it. -/
structure Entry where
  position : Nat
  row : ResultRow
  scores : List PartyVoteEntry

def Entry.line (e : Entry) : ResultRow × List PartyVoteEntry := (e.row.sheet, e.scores)

variable (sha256Hex) in
/-- The entry is what the request at its position inserts into the tables it finds. -/
def Entry.Recorded (d : Database) (requests : List Request) (e : Entry) : Prop :=
  ∃ q ∈ requests[e.position]?, ∃ base,
    Inserts sha256Hex q.env (Runs.final (step sha256Hex) d (requests.take e.position)).tables q.op base e.row e.scores

theorem ResultRow.SameSheet.sheet_eq {r r' : ResultRow} (h : r.SameSheet r') : r'.sheet = r.sheet := by
  rw [h]
  rfl

section Request

variable {env : Env} {db db' base : Tables} {op : Op} {row : ResultRow} {scores : List PartyVoteEntry}

/-- A table with the same sheets as before, and the same scores. -/
theorem sheetLog_congr (hsheets : db'.results.map ResultRow.sheet = db.results.map ResultRow.sheet)
    (hscores : db'.resultPartyScores = db.resultPartyScores) : sheetLog db' = sheetLog db := by
  have hline : ∀ db : Tables, sheetLog db =
      (db.results.map ResultRow.sheet).map fun r => (r, partyEntries db r.id) := by
    intro db
    rw [List.map_map]
    rfl
  rw [hline, hline, hsheets]
  congr 1
  funext r
  rw [partyEntries_congr hscores]

theorem Inserts.base_sheets (h : Inserts sha256Hex env db op base row scores) :
    base.results.map ResultRow.sheet = db.results.map ResultRow.sheet := by
  cases h with
  | ingested => rfl
  | submitted => rfl
  | form => rfl
  | corrected => exact Rows.map_update fun _ _ _ => rfl

/-- The new sheet comes behind the others. -/
theorem Inserts.sheetLog_eq (h : Inserts sha256Hex env db op base row scores) (howned : ScoresOwned db)
    (hcore : Tables.SameCore (base.addResult row (scorePairs scores)) db') :
    sheetLog db' = sheetLog db ++ [(row.sheet, scores)] := by
  have hbase : sheetLog base = sheetLog db := sheetLog_congr h.base_sheets h.base_rows.1
  have hids : base.results.map (·.id) = db.results.map (·.id) := h.base_rows.2.1
  have hentries : ∀ id, partyEntries db' id = partyEntries base id ++ if row.id = id then scores else [] := by
    intro id
    rw [partyEntries_congr hcore.resultPartyScores, partyEntries_addResult]
  have hnew : partyEntries db' row.id = scores := by
    rw [hentries, if_pos rfl, partyEntries_congr h.base_rows.1, partyEntries_eq_nil howned h.id_notMem,
      List.nil_append]
  rw [sheetLog, hcore.results, Tables.addResult, List.map_append, List.map_singleton, hnew, ← hbase]
  congr 1
  apply List.map_congr_left
  intro r hr
  have hne : row.id ≠ r.id := by
    intro heq
    apply h.id_notMem
    rw [heq, ← hids]
    exact List.mem_map_of_mem hr
  rw [hentries, if_neg hne, List.append_nil]

/-- What a request does to the log. -/
theorem ResultEffect.sheetLog_cases (h : ResultEffect sha256Hex env db db' op) (howned : ScoresOwned db) :
    sheetLog db' = sheetLog db ∨
      ∃ base row scores, Inserts sha256Hex env db op base row scores ∧
        sheetLog db' = sheetLog db ++ [(row.sheet, scores)] := by
  cases h with
  | kept results scores => exact Or.inl (sheetLog_congr (by rw [results]) scores)
  | @inserted base row scores insertion core =>
      exact Or.inr ⟨base, row, scores, insertion, insertion.sheetLog_eq howned core⟩
  | @marked r f mark core =>
      left
      refine sheetLog_congr ?_ core.resultPartyScores
      rw [core.results]
      exact Rows.map_update fun row _ _ => (mark.sameSheet row).sheet_eq

end Request

theorem step_scoresOwned {d : Database} (h : ScoresOwned d.tables) (q : Request) :
    ScoresOwned (step sha256Hex d q).tables := by
  rcases step_cases d q with hsame | hrun
  · rw [hsame]
    exact h
  · exact ((run_resultEffect hrun).sheets h).1

theorem step_sheetLog {d : Database} (h : ScoresOwned d.tables) (q : Request) :
    sheetLog (step sha256Hex d q).tables = sheetLog d.tables ∨
      ∃ base row scores, Inserts sha256Hex q.env d.tables q.op base row scores ∧
        sheetLog (step sha256Hex d q).tables = sheetLog d.tables ++ [(row.sheet, scores)] := by
  rcases step_cases d q with hsame | hrun
  · rw [hsame]
    exact Or.inl rfl
  · exact (run_resultEffect hrun).sheetLog_cases h

/-- The entries of a run, counted from one request later. -/
theorem Entry.Recorded.later {d : Database} {q : Request} {requests : List Request} {e : Entry}
    (h : e.Recorded sha256Hex (step sha256Hex d q) requests) :
    Entry.Recorded sha256Hex d (q :: requests) { e with position := e.position + 1 } := h

/-- One officer's report of the unit, 100 votes in all. -/
def reportsUnit (apc : Int) : Op := .submit ⟨1, "PU-1", [⟨"APC", apc⟩, ⟨"LP", 100 - apc⟩], 100, 0, true, "", ""⟩

/-- A transition the reviewers may make, an annulment or a correction. -/
inductive StatusStep : ResultStatus → ResultStatus → Prop
  | transition {current new : ResultStatus} (h : canTransition current new = true) : StatusStep current new
  | annulled {current : ResultStatus} (h : current.live = true) : StatusStep current .voided
  | superseded {current : ResultStatus} (h : current.live = true) : StatusStep current .superseded

/-- The row goes on, with its sheet, and its status has moved along the relation. -/
structure ResultRow.MovesTo (r r' : ResultRow) : Prop where
  sheet : r'.sheet = r.sheet
  path : Relation.ReflTransGen StatusStep r.status r'.status

theorem ResultRow.MovesTo.refl (r : ResultRow) : r.MovesTo r := ⟨rfl, .refl⟩

theorem ResultRow.MovesTo.trans {r r' r'' : ResultRow} (h : r.MovesTo r') (h' : r'.MovesTo r'') : r.MovesTo r'' :=
  ⟨h'.sheet.trans h.sheet, h.path.trans h'.path⟩

theorem ResultRow.MovesTo.setStatus {r : ResultRow} {status : ResultStatus} (h : StatusStep r.status status) :
    r.MovesTo (setStatus status r) := ⟨rfl, .single h⟩

section Request

variable {env : Env} {db db' base : Tables} {op : Op} {row r : ResultRow} {scores : List PartyVoteEntry}

theorem Marks.movesTo {f : ResultRow → ResultRow} (h : Marks env db op r f) : r.MovesTo (f r) := by
  cases h with
  | validated checked => exact ⟨rfl, .single (.transition (checkValidate_ok checked).2)⟩
  | finalized checked =>
      refine ⟨rfl, .single (.transition ?_)⟩
      rw [(checkFinalize_ok checked).2]
      rfl
  | disputed checked => exact .setStatus (.transition (checkDispute_ok checked).2)
  | remedied _ remedy =>
      obtain ⟨-, hlive, rfl | ⟨hdisputed, hstatus⟩⟩ := remedied?_eq_some remedy
      · exact .setStatus (.annulled hlive)
      · refine .setStatus (.transition ?_)
        rw [hdisputed]
        rcases hstatus with rfl | rfl
        · rfl
        · rfl

theorem Marks.found {f : ResultRow → ResultRow} (h : Marks env db op r f) : db.result? r.id = some r := by
  cases h with
  | validated checked => exact Tables.result?_id (checkValidate_ok checked).1
  | finalized checked => exact Tables.result?_id (checkFinalize_ok checked).1
  | disputed checked => exact Tables.result?_id (checkDispute_ok checked).1
  | remedied _ remedy => exact (remedied?_eq_some remedy).1

/-- One row is written, and moves; the others are as they were. -/
theorem movesTo_updateResult (hconstraints : db.Constraints) {f : ResultRow → ResultRow} {written : ResultRow}
    (hfound : db.result? written.id = some written) (hmoves : written.MovesTo (f written)) (hr : r ∈ db.results) :
    ∃ r' ∈ (db.updateResult written.id f).results, r.MovesTo r' := by
  by_cases hid : r.id = written.id
  · obtain rfl := Rows.eq_of_key_eq hconstraints.resultIds hr (Tables.mem_of_result? hfound).1 hid
    exact ⟨f r, Rows.mem_update.mpr (Or.inl ⟨r, hr, rfl, rfl⟩), hmoves⟩
  · exact ⟨r, Rows.mem_update.mpr (Or.inr ⟨hr, hid⟩), .refl r⟩

theorem Inserts.base_movesTo (h : Inserts sha256Hex env db op base row scores) (hconstraints : db.Constraints)
    (hr : r ∈ db.results) : ∃ r' ∈ base.results, r.MovesTo r' := by
  cases h with
  | ingested => exact ⟨r, hr, .refl r⟩
  | submitted => exact ⟨r, hr, .refl r⟩
  | form => exact ⟨r, hr, .refl r⟩
  | corrected checked =>
      obtain ⟨hfound, hlive⟩ := checkCorrect_ok checked
      exact movesTo_updateResult hconstraints (Tables.result?_id hfound) (.setStatus (.superseded hlive)) hr

theorem ResultEffect.movesTo (h : ResultEffect sha256Hex env db db' op) (hconstraints : db.Constraints)
    (hr : r ∈ db.results) : ∃ r' ∈ db'.results, r.MovesTo r' := by
  cases h with
  | kept results => exact ⟨r, results ▸ hr, .refl r⟩
  | inserted insertion core =>
      obtain ⟨r', hr', hmoves⟩ := insertion.base_movesTo hconstraints hr
      exact ⟨r', core.results ▸ List.mem_append_left _ hr', hmoves⟩
  | marked mark core =>
      obtain ⟨r', hr', hmoves⟩ := movesTo_updateResult hconstraints mark.found mark.movesTo hr
      exact ⟨r', core.results ▸ hr', hmoves⟩

end Request

theorem step_movesTo (d : Database) (q : Request) {r : ResultRow} (hr : r ∈ d.tables.results) :
    ∃ r' ∈ (step sha256Hex d q).tables.results, r.MovesTo r' := by
  rcases step_cases d q with hsame | hrun
  · rw [hsame]
    exact ⟨r, hr, .refl r⟩
  · exact (run_resultEffect hrun).movesTo d.constraints hr

theorem StatusStep.source_live {s t : ResultStatus} (h : StatusStep s t) : s.live = true := by
  cases h with
  | transition h => exact (live_of_canTransition h).1
  | annulled h => exact h
  | superseded h => exact h

/-- Nothing leads out of an annulled or superseded result. -/
theorem eq_of_path_of_not_live {s t : ResultStatus} (h : Relation.ReflTransGen StatusStep s t)
    (hs : s.live = false) : t = s := by
  induction h with
  | refl => rfl
  | tail _ hstep ih =>
      rw [ih] at hstep
      rw [hstep.source_live] at hs
      cases hs

/-- A finalized result is only ever taken out, by an annulment or by a correction. -/
theorem path_of_finalized {t : ResultStatus} (h : Relation.ReflTransGen StatusStep .finalized t) :
    t = .finalized ∨ t = .voided ∨ t = .superseded := by
  induction h with
  | refl => exact Or.inl rfl
  | @tail s t _ hstep ih =>
      cases hstep with
      | annulled => exact Or.inr (Or.inl rfl)
      | superseded => exact Or.inr (Or.inr rfl)
      | transition hcan =>
          obtain ⟨hlive, -, hopen⟩ := live_of_canTransition hcan
          rcases ih with rfl | rfl | rfl
          · exact absurd rfl hopen
          · cases hlive
          · cases hlive

/-- Every row is still there with its sheet, and its status has only gone along the paths of the review: what is
annulled or superseded stays so, and what is finalized is never open again. -/
def Tables.ResultsGoOn (db db' : Tables) : Prop :=
  ∀ r ∈ db.results, ∃ r' ∈ db'.results, r'.sheet = r.sheet ∧ Relation.ReflTransGen StatusStep r.status r'.status ∧
    (r.status.live = false → r'.status = r.status) ∧
    (r.status = .finalized → r'.status = .finalized ∨ r'.status = .voided ∨ r'.status = .superseded)

theorem ResultRow.MovesTo.resultsGoOn {db db' : Tables}
    (h : ∀ r ∈ db.results, ∃ r' ∈ db'.results, r.MovesTo r') : db.ResultsGoOn db' := by
  intro r hr
  obtain ⟨r', hr', hmoves⟩ := h r hr
  refine ⟨r', hr', hmoves.sheet, hmoves.path, eq_of_path_of_not_live hmoves.path, ?_⟩
  intro hfinalized
  exact path_of_finalized (hfinalized ▸ hmoves.path)

end Inec
