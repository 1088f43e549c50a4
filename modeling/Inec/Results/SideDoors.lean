import Inec.Ingestion.Payload
import Inec.Results.Effects

/-!
# Other writes to results

Three paths write results past `applyResultTx`: handleOfflineConflictResolve of platform_enhancements.go puts
the counts of an offline client over those of a pending result, and SubmitResult and processResultImport of the
internal services insert rows of their own. None of them computes a hash, and only the import stores scores.
-/

namespace Inec

open Checks

/-! ### handleOfflineConflictResolve -/

/-- The body, with its `submitted_at` as it is printed. -/
structure OfflineConflict where
  resultId : Int
  localData : Payload
  localSubmittedAt : String
  strategy : String

/-- What `strconv.Atoi` returns, be it with an error: the nearest number if the text is out of range. -/
def atoiValue (text : String) : Int :=
  match text.toList with
  | '-' :: rest => ((digits? rest).map fun n => max (-(n : Int)) (-2 ^ 63)).getD 0
  | '+' :: rest => ((digits? rest).map fun n => min (n : Int) (2 ^ 63 - 1)).getD 0
  | rest => ((digits? rest).map fun n => min (n : Int) (2 ^ 63 - 1)).getD 0

/-- `enhToInt` on a decoded value. -/
def enhToInt : PayloadValue → Int
  | .number n => n.truncated
  | .str text => atoiValue text
  | _ => 0

/-- The four counts. -/
structure ResultCounts where
  totalValidVotes : Int
  rejectedVotes : Int
  totalVotesCast : Int
  accreditedVoters : Int
  deriving DecidableEq, Repr

def ResultRow.counts (r : ResultRow) : ResultCounts :=
  ⟨r.totalValidVotes, r.rejectedVotes, r.totalVotesCast, r.accreditedVoters⟩

def ResultRow.setCounts (c : ResultCounts) (r : ResultRow) : ResultRow :=
  { r with
    totalValidVotes := c.totalValidVotes
    rejectedVotes := c.rejectedVotes
    totalVotesCast := c.totalVotesCast
    accreditedVoters := c.accreditedVoters }

/-- What is absent keeps the value of the server. -/
def OfflineConflict.counts (body : OfflineConflict) (r : ResultRow) : ResultCounts :=
  let field (key : String) (value : Int) : Int := ((body.localData.get? key).map enhToInt).getD value
  { totalValidVotes := field "total_valid_votes" r.totalValidVotes
    rejectedVotes := field "rejected_votes" r.rejectedVotes
    totalVotesCast := field "total_votes_cast" r.totalVotesCast
    accreditedVoters := field "accredited_voters" r.accreditedVoters }

/-- `serverSubmittedAt` is the column of the row. -/
def OfflineConflict.localWins (body : OfflineConflict) (serverSubmittedAt : String) : Bool :=
  body.strategy = "local_wins" || (body.strategy = "last_writer_wins" && serverSubmittedAt < body.localSubmittedAt)

def checkOfflineConflict (env : Env) (db : Tables) (body : Option OfflineConflict) :
    Except HttpError (OfflineConflict × ResultRow) := do
  require ([Role.admin, .presidingOfficer, .collationOfficer].contains env.claims.role)
    ⟨403, "conflict resolution requires an election officer"⟩
  let body ← fetch (body.filter fun body => 0 < body.resultId) ⟨400, "result_id and a valid strategy are required"⟩
  require (["last_writer_wins", "server_wins", "local_wins"].contains body.strategy)
    ⟨400, "strategy must be one of: last_writer_wins, server_wins, local_wins"⟩
  let r ← fetch (db.result? body.resultId) ⟨404, "result not found"⟩
  require (r.status == .pending)
    ⟨409, "result is " ++ r.status.text ++ " — immutable; open a reconciliation case (/results/" ++
      toString body.resultId ++ "/reconciliation) instead of offline conflict resolution"⟩
  return (body, r)

/-- A body that does not decode is `none`. `reply` is what the database says to the update, as it is for the
insertions below. -/
def handleOfflineConflictResolve (env : Env) (db : Tables) (body : Option OfflineConflict)
    (serverSubmittedAt : String) (reply : Except String Unit) : Except HttpError Tables := do
  let (body, r) ← checkOfflineConflict env db body
  let resolved (db : Tables) : Tables := logAudit env db "conflict_resolution" "result" (toString body.resultId)
  if body.localWins serverSubmittedAt then
    let counts := body.counts r
    require (counts.totalValidVotes + counts.rejectedVotes ≤ counts.totalVotesCast)
      ⟨422, "local_data fails EC8A arithmetic (total_votes_cast < total_valid_votes + rejected_votes) — refusing to apply"⟩
    relabel reply fun _ => ⟨500, "failed to apply conflict resolution"⟩
    return resolved (db.updateResult r.id (·.setCounts counts))
  else return resolved db

/-! ### SubmitResult of the election service -/

/-- `Result` of the election service, with what SubmitResult takes from it. -/
structure ServiceResult where
  electionId : Int
  pollingUnitCode : String
  totalVotes : Int
  rejectedVotes : Int
  accreditedVoters : Int
  deriving DecidableEq, Repr

/-- A row with no officer and no hash. -/
def sideRow (db : Tables) (electionId : Int) (code : String) (counts : ResultCounts) : ResultRow :=
  ResultRow.setCounts counts (.bare (nextSerial (db.results.map (·.id))) electionId code .pending)

/-- The total is stored as valid and as cast. -/
def ServiceResult.row (db : Tables) (result : ServiceResult) : ResultRow :=
  sideRow db result.electionId result.pollingUnitCode
    ⟨result.totalVotes, result.rejectedVotes, result.totalVotes, result.accreditedVoters⟩

def submitServiceResult (db : Tables) (result : ServiceResult) (reply : Except String Unit) :
    Except String Tables := do
  let e ← fetch (db.election? result.electionId) "election not found"
  require e.status.openForCapture ("election not open for result capture (status: " ++ e.status.text ++ ")")
  require (liveResult? db result.electionId result.pollingUnitCode).isNone
    "insert result: duplicate key value violates unique constraint \"results_canonical_pu_unique\""
  relabel reply fun err => "insert result: " ++ err
  return db.addResult (result.row db) []

/-! ### processResultImport -/

/-- `fmt.Sscanf` with `%d`: a number at the start of the text. -/
def scanInt? (text : String) : Option Int :=
  match text.toList.dropWhile (· = ' ') with
  | '-' :: rest => (digits? (rest.takeWhile Char.isDigit)).bind fun n => if n ≤ 2 ^ 63 then some (-n) else none
  | '+' :: rest => (digits? (rest.takeWhile Char.isDigit)).bind fun n => if n < 2 ^ 63 then some n else none
  | rest => (digits? (rest.takeWhile Char.isDigit)).bind fun n => if n < 2 ^ 63 then some n else none

/-- `payloadInt` of the ingestion service, without the texts of its errors, which nobody reads. -/
def importInt (payload : Payload) (key : String) : Option Int :=
  match payload.get? key with
  | some (.number n) => some n.truncated
  | some (.str text) => scanInt? text
  | _ => none

/-- `payloadStringE`. -/
def importString (payload : Payload) (key : String) : Except String String :=
  match payload.get? key with
  | none => .error (key ++ " is required")
  | some (.str text) =>
      if trimSpace text = "" then .error (key ++ " must be a non-empty string") else .ok (trimSpace text)
  | some _ => .error (key ++ " must be a non-empty string")

/-- What is no text is an empty code, and what is no number no votes. -/
def importScore : PayloadValue → Except String PartyVoteEntry
  | .obj entry => do
      let code := match Payload.get? entry "party_code" with | some (.str code) => code | _ => ""
      let votes := match Payload.get? entry "votes" with | some (.number n) => n.truncated | _ => 0
      require (code != "") "party_scores entries require party_code"
      return ⟨code, votes⟩
  | _ => .error "party_scores entries must be objects"

/-- The row and the scores of a payload. -/
def parseImport (db : Tables) (payload : Payload) : Except String (ResultRow × List PartyVoteEntry) := do
  let electionId := (importInt payload "election_id").getD 0
  require (0 < electionId) "election_id is required"
  let code ← importString payload "polling_unit_code"
  let accredited := (importInt payload "accredited_voters").getD 0
  let rejected := (importInt payload "rejected_votes").getD 0
  let submittedBy := (importInt payload "submitted_by").getD 0
  require (!(rawPartyScores payload).isEmpty) "party_scores is required"
  let scores ← (rawPartyScores payload).mapM importScore
  let row := sideRow db electionId code ⟨partySumOf scores, rejected, partySumOf scores + rejected, accredited⟩
  return ({ row with presidingOfficerId := nullIntArg submittedBy }, scores)

/-- The conflict clause names the two columns, and needs a unique index on just these. There was one up to
migration 000036; where there is none the database says no. -/
def processResultImport (db : Tables) (payload : Payload) (reply : Except String Unit) : Except String Tables := do
  let (row, scores) ← parseImport db payload
  relabel reply fun err => "insert result: " ++ err
  if db.results.any (fun r => r.key == row.key) then return db else return db.addResult row (scorePairs scores)

/-! ### Steps -/

inductive SideWrite
  | resolveOffline (env : Env) (body : Option OfflineConflict) (serverSubmittedAt : String)
      (reply : Except String Unit)
  | submitService (result : ServiceResult) (reply : Except String Unit)
  | importResult (payload : Payload) (reply : Except String Unit)

def SideWrite.run (db : Tables) : SideWrite → Option Tables
  | .resolveOffline env body serverSubmittedAt reply =>
      (handleOfflineConflictResolve env db body serverSubmittedAt reply).toOption
  | .submitService result reply => (submitServiceResult db result reply).toOption
  | .importResult payload reply => (processResultImport db payload reply).toOption

/-- An open election, and a unit that is free. -/
def ServiceResult.Vacant (db : Tables) (result : ServiceResult) : Bool :=
  (db.election? result.electionId).any (·.status.openForCapture) &&
    (liveResult? db result.electionId result.pollingUnitCode).isNone

/-- The counts get past the check of the handler. -/
def ResultCounts.Sums (c : ResultCounts) : Bool := decide (c.totalValidVotes + c.rejectedVotes ≤ c.totalVotesCast)

/-- A new row without a hash, or other counts in a pending one. -/
inductive SideEffect (db db' : Tables) : SideWrite → Prop
  | quiet {w : SideWrite} (core : Tables.SameCore db db') : SideEffect db db' w
  | recounted {env : Env} {body : Option OfflineConflict} {serverSubmittedAt : String}
      {conflict : OfflineConflict} {r : ResultRow} (checked :
        checkOfflineConflict env db body = .ok (conflict, r)) (wins : conflict.localWins serverSubmittedAt = true)
      (sums : (conflict.counts r).Sums = true) (core :
        Tables.SameCore (db.updateResult r.id (·.setCounts (conflict.counts r))) db') :
      SideEffect db db' (.resolveOffline env body serverSubmittedAt (.ok ()))
  | submitted {result : ServiceResult} (vacant : result.Vacant db = true)
      (table : db' = db.addResult (result.row db) []) :
      SideEffect db db' (.submitService result (.ok ()))
  | imported {payload : Payload} {row : ResultRow} {scores : List PartyVoteEntry}
      (parsed : parseImport db payload = .ok (row, scores))
        (vacant : db.results.any (fun r => r.key == row.key) = false)
          (table : db' = db.addResult row (scorePairs scores)) :
      SideEffect db db' (.importResult payload (.ok ()))

variable {db db' : Tables}

theorem checkOfflineConflict_ok {env : Env} {body : Option OfflineConflict}
    {conflict : OfflineConflict} {r : ResultRow} (h : checkOfflineConflict env db body = .ok (conflict, r)) :
    db.result? r.id = some r ∧ r.status = .pending := by
  simp only [checkOfflineConflict, bind_eq_ok, require_eq_ok, fetch_eq_ok, pure_eq_ok, Prod.mk.injEq] at h
  obtain ⟨_, _, _, _, _, _, found, hfound, _, hpending, rfl, rfl⟩ := h
  exact ⟨Tables.result?_id hfound, beq_iff_eq.mp hpending⟩

theorem handleOfflineConflictResolve_wins {env : Env} {body : Option OfflineConflict} {serverSubmittedAt : String}
    {reply : Except String Unit} {conflict : OfflineConflict} {r : ResultRow}
    (hchecked : checkOfflineConflict env db body = .ok (conflict, r))
    (hwins : conflict.localWins serverSubmittedAt = true) :
    handleOfflineConflictResolve env db body serverSubmittedAt reply = .ok db' ↔ (conflict.counts r).Sums =
      true ∧ reply = .ok () ∧ logAudit env (db.updateResult r.id
        (·.setCounts (conflict.counts r))) "conflict_resolution" "result"
        (toString conflict.resultId) = db' := by
  have hbind : handleOfflineConflictResolve env db body serverSubmittedAt reply = (do
      require (conflict.counts r).Sums
        ⟨422, "local_data fails EC8A arithmetic (total_votes_cast < total_valid_votes + rejected_votes) — refusing to apply"⟩
      relabel reply fun _ => ⟨500, "failed to apply conflict resolution"⟩
      return logAudit env (db.updateResult r.id (·.setCounts (conflict.counts r))) "conflict_resolution" "result"
        (toString conflict.resultId)) := by
    rw [handleOfflineConflictResolve, hchecked]
    show (if conflict.localWins serverSubmittedAt then _ else _) = _
    rw [if_pos hwins]
    rfl
  rw [hbind]
  simp only [bind_eq_ok, require_eq_ok, relabel_eq_ok, pure_eq_ok, exists_const]
  constructor
  · rintro ⟨hsums, _, hreply, hwrite⟩
    exact ⟨hsums, hreply, hwrite⟩
  · rintro ⟨hsums, hreply, hwrite⟩
    exact ⟨hsums, (), hreply, hwrite⟩

theorem submitServiceResult_ok {result : ServiceResult} {reply : Except String Unit} :
    submitServiceResult db result reply = .ok db' ↔
      result.Vacant db = true ∧ reply = .ok () ∧ db.addResult (result.row db) [] = db' := by
  simp only [submitServiceResult, bind_eq_ok, fetch_eq_ok, require_eq_ok, relabel_eq_ok, pure_eq_ok, exists_const,
    ServiceResult.Vacant, Bool.and_eq_true, Option.any_eq_true]
  constructor
  · rintro ⟨e, he, hopen, hvacant, _, hreply, hrow⟩
    exact ⟨⟨⟨e, he, hopen⟩, hvacant⟩, hreply, hrow⟩
  · rintro ⟨⟨⟨e, he, hopen⟩, hvacant⟩, hreply, hrow⟩
    exact ⟨e, he, hopen, hvacant, (), hreply, hrow⟩

theorem notMem_liveKeys_of_notAny {row : ResultRow} (h : db.results.any (fun r => r.key == row.key) = false) :
    row.key ∉ db.liveKeys := by
  intro hmem
  obtain ⟨r, hr, hkey⟩ := List.mem_map.mp hmem
  rw [List.mem_filter] at hr
  have hnone := List.any_eq_false.mp h r hr.1
  exact hnone (beq_iff_eq.mpr hkey)

theorem parseImport_ok {payload : Payload} {row : ResultRow} {scores : List PartyVoteEntry}
    (h : parseImport db payload = .ok (row, scores)) :
    row.id = nextSerial (db.results.map (·.id)) ∧ row.status = .pending ∧ row.ec8aHash = "" := by
  simp only [parseImport, bind_eq_ok, require_eq_ok, pure_eq_ok, Prod.mk.injEq] at h
  obtain ⟨_, _, _, _, _, _, _, _, rfl, rfl⟩ := h
  exact ⟨rfl, rfl, rfl⟩

theorem SideWrite.run_effect {w : SideWrite} (h : w.run db = some db') : SideEffect db db' w := by
  cases w with
  | resolveOffline env body serverSubmittedAt reply =>
      have hrun := toOption_eq_some.mp h
      have hparts := hrun
      simp only [handleOfflineConflictResolve, bind_eq_ok] at hparts
      obtain ⟨⟨conflict, r⟩, hchecked, hwrite⟩ := hparts
      split at hwrite
      case isTrue hwins =>
        obtain ⟨hsums, rfl, rfl⟩ := (handleOfflineConflictResolve_wins hchecked hwins).mp hrun
        exact .recounted hchecked hwins hsums (logAudit_sameCore ..)
      case isFalse =>
        obtain rfl := pure_eq_ok.mp hwrite
        exact .quiet (logAudit_sameCore ..)
  | submitService result reply =>
      obtain ⟨hvacant, rfl, rfl⟩ := submitServiceResult_ok.mp (toOption_eq_some.mp h)
      exact .submitted hvacant rfl
  | importResult payload reply =>
      have hrun := toOption_eq_some.mp h
      simp only [processResultImport, bind_eq_ok, relabel_eq_ok] at hrun
      obtain ⟨⟨row, scores⟩, hparsed, _, rfl, hwrite⟩ := hrun
      split at hwrite
      case isTrue =>
        obtain rfl := pure_eq_ok.mp hwrite
        exact .quiet (Tables.SameCore.refl _)
      case isFalse hvacant =>
        obtain rfl := pure_eq_ok.mp hwrite
        exact .imported hparsed (Bool.not_eq_true _ ▸ hvacant) rfl

theorem SideEffect.constraints {w : SideWrite} (h : SideEffect db db' w) (hdb : db.Constraints) :
    db'.Constraints := by
  cases h with
  | quiet core => exact hdb.sameCore core
  | @recounted _ _ _ conflict r _ _ _ core =>
      have hkeep : (db.updateResult r.id (·.setCounts (conflict.counts r))).Constraints :=
        hdb.updateResult (fun _ => ⟨rfl, rfl⟩) fun _ _ _ hlive => hlive
      exact hkeep.sameCore core
  | @submitted result vacant table =>
      have hkey : (result.row db).key ∉ db.liveKeys :=
        notMem_liveKeys (Option.isNone_iff_eq_none.mp (Bool.and_eq_true_iff.mp vacant).2)
      rw [table]
      exact hdb.addResult (nextSerial_notMem _) hkey
  | imported parsed vacant table =>
      obtain ⟨hid, _, _⟩ := parseImport_ok parsed
      rw [table]
      exact hdb.addResult (by rw [hid]; exact nextSerial_notMem _) (notMem_liveKeys_of_notAny vacant)

end Inec
