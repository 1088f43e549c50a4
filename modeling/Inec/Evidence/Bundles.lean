import Inec.Collation.Writes
import Inec.Evidence.BundleRoot
import Inec.Lib.Grouping
import Inec.Results.History

/-!
# Collation bundles

`handleBuildCollationEvidenceBundle` of evidence_integrity.go publishes what an area collates to: the results that count
and the event each of them is at, and the party totals. One query reads the canonical rows, one more for each row its
scores, a later one the last version, and the writes of all that go in with the commit. Between any two of them other
requests are served and other bundles are built.

What a bundle states is nevertheless the collation of one moment (`Sound.published`), because a sheet never changes
once it is in. And the versions of an area have no gap and no repetition (`Numbered`), because the unique index lets
only one of two builders with the same version through.
-/

namespace Inec

open Checks
open BundleRoot (Child Digest merkleRootEventHashes)

/-! ### The collected evidence -/

def CollationLevel.text : CollationLevel → String
  | .ward => "ward"
  | .lga => "lga"
  | .state => "state"
  | .national => "national"

structure BundleRequest where
  electionId : Int
  level : String
  areaCode : String

/-- The checks on the request, and the level and area it is about. -/
def checkBundleRequest (env : Env) (req : BundleRequest) : Except HttpError (CollationLevel × String) := do
  requireRole env [.admin, .collationOfficer]
  require (0 < req.electionId) ⟨400, "election_id and a valid level are required"⟩
  let level ← fetch ([.ward, .lga, .state, .national].find? fun level => level.text == req.level)
    ⟨400, "election_id and a valid level are required"⟩
  require (level == .national || !isBlank req.areaCode)
    ⟨400, "area_code is required except for national collation"⟩
  return (level, if level = .national then "NG" else req.areaCode)

section Collect

variable (db : Tables) (electionId : Int) (level : CollationLevel) (areaCode : String)

/-- The hash of the newest event of a result, empty if it has none. -/
def lastEventHash (resultId : Int) : String := ((evidenceTail db.evidenceEvents resultId).map (·.eventHash)).getD ""

/-- The first query of `collectCollationEvidence`: the canonical rows of the area by their ids. -/
def canonicalChildren : List Child :=
  (((collatedRows db electionId level areaCode).map (·.2)).insertionSort (· ≤ ·)).map fun id =>
    ⟨id, some (lastEventHash db id)⟩

/-- The query for the scores of one result, by party code. -/
def scoreEntries (resultId : Int) : List (String × Int) :=
  ((partyEntries db resultId).map fun s => (s.partyCode, s.votes)).insertionSort fun a b => a.1 ≤ b.1

/-- `sort.Slice(children, ...)`. -/
def sortChildren (children : List Child) : List Child := children.insertionSort fun a b => a.resultId ≤ b.resultId

end Collect

/-! ### What is published -/

def childrenJson (children : List Child) : Json :=
  .arr (children.map fun c => .ofMap [("result_id", .int c.resultId), ("last_event_hash", .str c.hash)])

def totalsJson (partyTotals : List (String × Int)) : Json := .ofMap (partyTotals.map fun t => (t.1, .int t.2))

def aggregateJson (partyTotals : List (String × Int)) (childCount : Nat) : Json :=
  .ofMap [("party_totals", totalsJson partyTotals), ("child_count", .int childCount)]

/-- A row of `evidence_artifacts`. -/
structure EvidenceArtifact where
  id : Int
  electionId : Int
  artifactKind : String
  contentSha256 : String
  mediaType : String
  byteSize : Nat
  metadataJson : String
  policyVersionId : Option Int
  uploadedBy : Option Int
  deriving DecidableEq, Repr

/-- A row of `collation_evidence_bundles`. -/
structure CollationBundle where
  id : Int
  electionId : Int
  level : CollationLevel
  areaCode : String
  bundleVersion : Int
  childResultsSha256 : String
  aggregateSha256 : String
  eventRootSha256 : Option String
  policyVersionId : Option Int
  artifactId : Int
  status : String
  createdBy : Option Int
  publishedAt : Int
  deriving DecidableEq, Repr

/-- The area a bundle is about. -/
def CollationBundle.area (b : CollationBundle) : Int × CollationLevel × String := (b.electionId, b.level, b.areaCode)

/-- What a request knows after its first query. -/
structure BundleJob where
  env : Env
  electionId : Int
  level : CollationLevel
  areaCode : String
  policyId : Int
  children : List Child

def BundleJob.area (job : BundleJob) : Int × CollationLevel × String := (job.electionId, job.level, job.areaCode)

section Publish

variable (sha256 : List UInt8 → Digest)

/-- `sha256Hex` of a text. -/
def textSha256 (s : String) : String := HexText.encode (sha256 (BundleRoot.utf8 s)).val

variable (job : BundleJob) (partyTotals : List (String × Int)) (version artifactId bundleId : Int)

def childSHA : String := textSha256 sha256 (canonicalJSON (childrenJson (sortChildren job.children)))

def aggregateSHA : String :=
  textSha256 sha256 (canonicalJSON (aggregateJson partyTotals (sortChildren job.children).length))

def eventRoot : String := merkleRootEventHashes sha256 (sortChildren job.children)

def bundlePayload : Json :=
  .ofMap [("election_id", .int job.electionId), ("level", .str job.level.text), ("area_code", .str job.areaCode),
    ("children", childrenJson (sortChildren job.children)), ("party_totals", totalsJson partyTotals),
    ("child_results_sha256", .str (childSHA sha256 job)),
    ("aggregate_sha256", .str (aggregateSHA sha256 job partyTotals)),
    ("event_root_sha256", .str (eventRoot sha256 job)), ("policy_version_id", .int job.policyId)]

def bundleArtifact : EvidenceArtifact :=
  let bundleJSON := canonicalJSON (bundlePayload sha256 job partyTotals)
  { id := artifactId
    electionId := job.electionId
    artifactKind := "collation_bundle"
    contentSha256 := textSha256 sha256 bundleJSON
    mediaType := "application/json"
    byteSize := (BundleRoot.utf8 bundleJSON).length
    metadataJson := bundleJSON
    policyVersionId := nullIntArg job.policyId
    uploadedBy := nullIntArg job.env.claims.userId }

def publishedBundle : CollationBundle where
  id := bundleId
  electionId := job.electionId
  level := job.level
  areaCode := job.areaCode
  bundleVersion := version
  childResultsSha256 := childSHA sha256 job
  aggregateSha256 := aggregateSHA sha256 job partyTotals
  eventRootSha256 := nullStringArg (eventRoot sha256 job)
  policyVersionId := nullIntArg job.policyId
  artifactId := artifactId
  status := "published"
  createdBy := nullIntArg job.env.claims.userId
  publishedAt := job.env.now

/-- The event each child gets. -/
def bundledEvent (resultId : Int) : IntegrityEventInput where
  resultId := resultId
  eventType := "COLLATION_BUNDLED"
  policyVersionId := job.policyId
  artifactId := artifactId
  visibility := integrityVisibilityPublic
  publicPayload := .ofMap [("bundle_id", .int bundleId), ("level", .str job.level.text),
    ("area_code", .str job.areaCode), ("aggregate_sha256", .str (aggregateSHA sha256 job partyTotals))]
  privatePayload := .ofMap [("bundle_id", .int bundleId), ("result_id", .int resultId),
    ("child_results_sha256", .str (childSHA sha256 job))]
  createdBy := job.env.claims.userId

def recordBundled (db : Tables) (child : Child) : Except HttpError Tables := do
  if child.resultId ≤ 0 then return db
  let recorded ← relabel
    (recordIntegrityEventTx (textSha256 sha256) job.env db
      (bundledEvent sha256 job partyTotals artifactId bundleId child.resultId))
    fun err => ⟨503, "collation evidence signing failed: " ++ err⟩
  return recorded.1

/-- The writes, up to the commit: the artifact, the bundle and the event of every child. -/
def publishBundle (db : Tables) (artifacts : List EvidenceArtifact) (bundles : List CollationBundle) :
    Except HttpError Tables := do
  require (artifacts.all fun a => a.contentSha256 != (bundleArtifact sha256 job partyTotals artifactId).contentSha256)
    ⟨500, "failed to store collation evidence artifact"⟩
  require (bundles.all fun b => b.area != job.area || b.bundleVersion != version)
    ⟨500, "failed to persist collation evidence bundle"⟩
  (sortChildren job.children).foldlM (recordBundled sha256 job partyTotals artifactId bundleId) db

variable {sha256 job partyTotals version artifactId bundleId}

theorem recordBundled_sameCore {db db' : Tables} {child : Child}
    (h : recordBundled sha256 job partyTotals artifactId bundleId db child = .ok db') : Tables.SameCore db db' := by
  unfold recordBundled at h
  split at h
  · rw [← pure_eq_ok.mp h]
    exact Tables.SameCore.refl db
  · simp only [bind_eq_ok, relabel_eq_ok, pure_eq_ok] at h
    obtain ⟨⟨db₁, record⟩, hrecorded, rfl⟩ := h
    exact recordIntegrityEventTx_sameCore hrecorded

/-- A publication leaves elections and results alone. -/
theorem publishBundle_sameCore {db db' : Tables} {artifacts : List EvidenceArtifact} {bundles : List CollationBundle}
    (h : publishBundle sha256 job partyTotals version artifactId bundleId db artifacts bundles = .ok db') :
    Tables.SameCore db db' := by
  simp only [publishBundle, bind_eq_ok, require_eq_ok] at h
  obtain ⟨_, _, _, _, hrecorded⟩ := h
  generalize sortChildren job.children = children at hrecorded
  induction children generalizing db with
  | nil =>
      rw [← pure_eq_ok.mp hrecorded]
      exact Tables.SameCore.refl db
  | cons child rest ih =>
      obtain ⟨db₁, hfirst, hrest⟩ := bind_eq_ok.mp hrecorded
      exact (recordBundled_sameCore hfirst).trans (ih hrest)

end Publish

/-! ### Builders among other requests -/

/-- How far a builder is: admitted with its policy, reading the scores of the children it has collected, or about to
write behind the last version it has seen. -/
inductive BundlePhase
  | idle
  | admitted (env : Env) (electionId : Int) (level : CollationLevel) (areaCode : String) (policyId : Int)
  | scanning (job : BundleJob) (rest : List Int) (partyTotals : List (String × Int))
  | numbered (job : BundleJob) (partyTotals : List (String × Int)) (previousVersion : Int)

structure Bundling where
  db : Database
  artifacts : List EvidenceArtifact
  bundles : List CollationBundle
  phase : Nat → BundlePhase

/-- A statement of a builder, the numbers its sequences hand out included, or whatever else happens to the database. -/
inductive BundleAction
  | request (q : Request)
  | storeArtifact (artifact : EvidenceArtifact)
  | accept (i : Nat) (env : Env) (req : BundleRequest)
  | collect (i : Nat)
  | readScores (i : Nat)
  | readVersion (i : Nat)
  | publish (i : Nat) (artifactId bundleId : Int)
  | abort (i : Nat)

/-- `SELECT COALESCE(MAX(bundle_version),0)` of the area. -/
def lastVersion (bundles : List CollationBundle) (area : Int × CollationLevel × String) : Int :=
  ((bundles.filter fun b => b.area == area).map (·.bundleVersion)).foldr max 0

namespace Bundling

variable (sha256 : List UInt8 → Digest) (w : Bundling)

def setPhase (i : Nat) (p : BundlePhase) : Bundling := { w with phase := Function.update w.phase i p }

/-- The checks before the first query, and the policy in force. -/
def accept (i : Nat) (env : Env) (req : BundleRequest) : Bundling :=
  match w.phase i, checkBundleRequest env req, requirePolicyVersion env w.db.tables req.electionId with
  | .idle, .ok (level, areaCode), .ok policyId => w.setPhase i (.admitted env req.electionId level areaCode policyId)
  | _, _, _ => w

def collect (i : Nat) : Bundling :=
  match w.phase i with
  | .admitted env electionId level areaCode policyId =>
      let children := canonicalChildren w.db.tables electionId level areaCode
      w.setPhase i (.scanning ⟨env, electionId, level, areaCode, policyId, children⟩ (children.map (·.resultId)) [])
  | _ => w

/-- The scores of the next child, added to the map of the totals. -/
def readScores (i : Nat) : Bundling :=
  match w.phase i with
  | .scanning job (resultId :: rest) partyTotals =>
      w.setPhase i (.scanning job rest (Grouping.addAll partyTotals (scoreEntries w.db.tables resultId)))
  | _ => w

/-- Nothing is published for an area without results. -/
def readVersion (i : Nat) : Bundling :=
  match w.phase i with
  | .scanning job [] partyTotals =>
      if job.children.isEmpty then w.setPhase i .idle
      else w.setPhase i (.numbered job partyTotals (lastVersion w.bundles job.area))
  | _ => w

/-- No row has the numbers that the sequences hand out. -/
def unusedIds (artifactId bundleId : Int) : Bool :=
  (w.artifacts.all fun a => a.id != artifactId) && w.bundles.all fun b => b.id != bundleId

/-- The writes of a builder, committed. -/
def publish (i : Nat) (artifactId bundleId : Int) : Bundling :=
  match w.phase i with
  | .numbered job partyTotals previousVersion =>
      if w.unusedIds artifactId bundleId then
        match h : publishBundle sha256 job partyTotals (previousVersion + 1) artifactId bundleId w.db.tables
            w.artifacts w.bundles with
        | .ok db' =>
            { db := ⟨db', w.db.constraints.sameCore (publishBundle_sameCore h)⟩
              artifacts := w.artifacts ++ [bundleArtifact sha256 job partyTotals artifactId]
              bundles := w.bundles ++
                [publishedBundle sha256 job partyTotals (previousVersion + 1) artifactId bundleId]
              phase := Function.update w.phase i .idle }
        | .error _ => w.setPhase i .idle
      else w
  | _ => w

/-- An artifact of another handler, under the unique indexes of the table. -/
def storeArtifact (artifact : EvidenceArtifact) : Bundling :=
  if w.artifacts.all fun a => a.id != artifact.id && a.contentSha256 != artifact.contentSha256 then
    { w with artifacts := w.artifacts ++ [artifact] }
  else w

def step : BundleAction → Bundling
  | .request q => { w with db := Inec.step (textSha256 sha256) w.db q }
  | .storeArtifact artifact => w.storeArtifact artifact
  | .accept i env req => w.accept i env req
  | .collect i => w.collect i
  | .readScores i => w.readScores i
  | .readVersion i => w.readVersion i
  | .publish i artifactId bundleId => w.publish sha256 i artifactId bundleId
  | .abort i => w.setPhase i .idle

end Bundling

/-! ### The totals -/

section Totals

variable {db t t' : Tables} {electionId : Int} {level : CollationLevel} {areaCode : String}

theorem canonicalChildren_ids (db : Tables) (electionId : Int) (level : CollationLevel) (areaCode : String) :
    (canonicalChildren db electionId level areaCode).map (·.resultId) =
      ((collatedRows db electionId level areaCode).map (·.2)).insertionSort (· ≤ ·) := by
  rw [canonicalChildren, List.map_map]
  exact List.map_id _

/-- The children are read in their order. -/
theorem sortChildren_canonicalChildren :
    sortChildren (canonicalChildren db electionId level areaCode) = canonicalChildren db electionId level areaCode := by
  apply List.Pairwise.insertionSort_eq
  have hids := List.pairwise_insertionSort (· ≤ ·) ((collatedRows db electionId level areaCode).map (·.2))
  rw [← canonicalChildren_ids, List.pairwise_map] at hids
  exact hids

/-- What the loop over the children adds up to is what `GROUP BY` computes. -/
theorem accumulate_scoreEntries (db : Tables) (electionId : Int) (order : IterationOrder) (level : CollationLevel)
    (areaCode : String) :
    Grouping.accumulate
        (((canonicalChildren db electionId level areaCode).map (·.resultId)).flatMap (scoreEntries db)) =
      (canonicalPartyTotals db electionId order level areaCode).totals := by
  let rows := collatedRows db electionId level areaCode
  let entries := rows.flatMap fun c => (scoresOf db c.2).map fun s => (s.partyCode, s.votes)
  have hperm : (((canonicalChildren db electionId level areaCode).map (·.resultId)).flatMap (scoreEntries db)).Perm
      entries := by
    rw [canonicalChildren_ids]
    refine ((List.perm_insertionSort _ _).flatMap_right _).trans ?_
    rw [List.flatMap_map]
    refine List.Perm.flatMap_left _ fun c _ => ?_
    refine (List.perm_insertionSort _ _).trans (List.Perm.of_eq ?_)
    rw [partyEntries, List.map_map]
    rfl
  have hkeys : Grouping.keys entries = partiesOf db rows := by
    rw [Grouping.keys, partiesOf, List.map_flatMap]
    simp only [List.map_map]
    rfl
  have htotal : ∀ party, Grouping.total entries party = partySum db rows party := by
    intro party
    rw [Grouping.total, List.filter_flatMap, List.map_flatMap, List.flatMap_def, List.sum_flatten, List.map_map,
      partySum]
    congr 1
    refine List.map_congr_left fun c _ => ?_
    rw [Function.comp_apply, partyScores_eq, List.filter_map, List.map_map]
    rfl
  rw [Grouping.accumulate_perm hperm, Grouping.accumulate_eq_grouped, Grouping.grouped, hkeys]
  exact List.map_congr_left fun party _ => by rw [htotal]

/-- The results are still there, each with its scores. -/
def ScoresKept (t t' : Tables) : Prop :=
  ∀ id ∈ t.results.map (·.id), id ∈ t'.results.map (·.id) ∧ partyEntries t' id = partyEntries t id

theorem ScoresKept.refl (t : Tables) : ScoresKept t t := fun _ hid => ⟨hid, rfl⟩

theorem ScoresKept.trans {t'' : Tables} (h : ScoresKept t t') (h' : ScoresKept t' t'') : ScoresKept t t'' := by
  intro id hid
  obtain ⟨hid', heq⟩ := h id hid
  obtain ⟨hid'', heq'⟩ := h' id hid'
  exact ⟨hid'', heq'.trans heq⟩

theorem ScoresKept.sameCore (h : Tables.SameCore t t') : ScoresKept t t' :=
  fun id hid => ⟨h.results ▸ hid, partyEntries_congr h.resultPartyScores id⟩

theorem scoresKept_of_prefix (h : sheetLog t <+: sheetLog t') : ScoresKept t t' := by
  intro id hid
  obtain ⟨r, hr, rfl⟩ := List.mem_map.mp hid
  have hline : (r.sheet, partyEntries t r.id) ∈ sheetLog t :=
    List.mem_map_of_mem (f := fun r : ResultRow => (r.sheet, partyEntries t r.id)) hr
  obtain ⟨r', hr', heq⟩ := List.mem_map.mp (h.subset hline)
  obtain ⟨hsheet, hentries⟩ := Prod.mk.inj heq
  have hids : r'.sheet.id = r.sheet.id := congrArg ResultRow.id hsheet
  change r'.id = r.id at hids
  rw [hids] at hentries
  exact ⟨hids ▸ List.mem_map_of_mem hr', hentries⟩

/-- No request changes the scores of a result that is there. -/
theorem step_scoresKept {sha256Hex : String → String} {d : Database} (h : ScoresOwned d.tables) (q : Request) :
    ScoresKept d.tables (step sha256Hex d q).tables := by
  apply scoresKept_of_prefix
  rcases @step_sheetLog sha256Hex d h q with hsame | ⟨base, row, scores, -, hnew⟩
  · exact hsame ▸ List.prefix_rfl
  · exact hnew ▸ List.prefix_append _ _

theorem scoreEntries_of_scoresKept (h : ScoresKept t t') {id : Int} (hid : id ∈ t.results.map (·.id)) :
    scoreEntries t' id = scoreEntries t id := by
  rw [scoreEntries, (h id hid).2, scoreEntries]

/-- The children are results. -/
theorem canonicalChildren_mem {id : Int} (h : id ∈ (canonicalChildren t electionId level areaCode).map (·.resultId)) :
    id ∈ t.results.map (·.id) := by
  rw [canonicalChildren_ids, List.mem_insertionSort] at h
  obtain ⟨c, hc, rfl⟩ := List.mem_map.mp h
  obtain ⟨c', hc', hmem⟩ := List.mem_flatMap.mp hc
  obtain ⟨_, -, rfl⟩ := List.mem_map.mp hmem
  exact id_mem_of_mem_canonical hc'

end Totals

/-! ### What a step does -/

namespace Bundling

variable (sha256 : List UInt8 → Digest) (w : Bundling)

/-- Everything a step can do. -/
inductive Moves : Bundling → Prop
  | stay : Moves w
  | served (q : Request) : Moves { w with db := Inec.step (textSha256 sha256) w.db q }
  | stored (artifact : EvidenceArtifact) : Moves { w with artifacts := w.artifacts ++ [artifact] }
  | admitted (i : Nat) (env : Env) (electionId : Int) (level : CollationLevel) (areaCode : String) (policyId : Int) :
      Moves (w.setPhase i (.admitted env electionId level areaCode policyId))
  | quit (i : Nat) : Moves (w.setPhase i .idle)
  | collected (i : Nat) (env : Env) (electionId : Int) (level : CollationLevel) (areaCode : String) (policyId : Int)
      (children : List Child) (hchildren : children = canonicalChildren w.db.tables electionId level areaCode) :
      Moves (w.setPhase i
        (.scanning ⟨env, electionId, level, areaCode, policyId, children⟩ (children.map (·.resultId)) []))
  | scanned (i : Nat) (job : BundleJob) (resultId : Int) (rest : List Int) (partyTotals : List (String × Int))
      (hphase : w.phase i = .scanning job (resultId :: rest) partyTotals) :
      Moves (w.setPhase i
        (.scanning job rest (Grouping.addAll partyTotals (scoreEntries w.db.tables resultId))))
  | numbered (i : Nat) (job : BundleJob) (partyTotals : List (String × Int))
      (hphase : w.phase i = .scanning job [] partyTotals) :
      Moves (w.setPhase i (.numbered job partyTotals (lastVersion w.bundles job.area)))
  | published (i : Nat) (job : BundleJob) (partyTotals : List (String × Int))
      (previousVersion artifactId bundleId : Int)
      (db : Database) (hphase : w.phase i = .numbered job partyTotals previousVersion)
      (hpublished : publishBundle sha256 job partyTotals (previousVersion + 1) artifactId bundleId w.db.tables
        w.artifacts w.bundles = .ok db.tables) :
      Moves
        { db := db
          artifacts := w.artifacts ++ [bundleArtifact sha256 job partyTotals artifactId]
          bundles := w.bundles ++ [publishedBundle sha256 job partyTotals (previousVersion + 1) artifactId bundleId]
          phase := Function.update w.phase i .idle }

variable {sha256 w}

theorem moves_accept (i : Nat) (env : Env) (req : BundleRequest) : w.Moves sha256 (w.accept i env req) := by
  unfold accept
  split
  · exact .admitted ..
  · exact .stay

theorem moves_collect (i : Nat) : w.Moves sha256 (w.collect i) := by
  unfold collect
  split
  · exact .collected _ _ _ _ _ _ _ rfl
  · exact .stay

theorem moves_readScores (i : Nat) : w.Moves sha256 (w.readScores i) := by
  unfold readScores
  split
  · rename_i hphase
    exact .scanned _ _ _ _ _ hphase
  · exact .stay

theorem moves_readVersion (i : Nat) : w.Moves sha256 (w.readVersion i) := by
  unfold readVersion
  split
  · rename_i hphase
    split
    · exact .quit _
    · exact .numbered _ _ _ hphase
  · exact .stay

theorem moves_publish (i : Nat) (artifactId bundleId : Int) :
    w.Moves sha256 (w.publish sha256 i artifactId bundleId) := by
  unfold publish
  split
  · rename_i hphase
    split
    · split
      · rename_i hpublished
        exact .published _ _ _ _ _ _ _ hphase hpublished
      · exact .quit _
    · exact .stay
  · exact .stay

theorem moves_step (a : BundleAction) : w.Moves sha256 (w.step sha256 a) := by
  cases a with
  | request q => exact .served q
  | storeArtifact artifact =>
      rw [step, storeArtifact]
      split
      · exact .stored artifact
      · exact .stay
  | accept i env req => exact moves_accept i env req
  | collect i => exact moves_collect i
  | readScores i => exact moves_readScores i
  | readVersion i => exact moves_readVersion i
  | publish i artifactId bundleId => exact moves_publish i artifactId bundleId
  | abort i => exact .quit i

/-! ### What a bundle states -/

variable (sha256) in
/-- The bundle and its artifact are what the collation of these tables gives. -/
structure StatesCollation (t : Tables) (artifacts : List EvidenceArtifact) (b : CollationBundle) : Prop where
  childResults : b.childResultsSha256 =
    textSha256 sha256 (canonicalJSON (childrenJson (canonicalChildren t b.electionId b.level b.areaCode)))
  aggregate : ∀ order, b.aggregateSha256 =
    textSha256 sha256 (canonicalJSON
      (aggregateJson (canonicalPartyTotals t b.electionId order b.level b.areaCode).totals
        (canonicalChildren t b.electionId b.level b.areaCode).length))
  eventRoot : b.eventRootSha256 =
    nullStringArg (merkleRootEventHashes sha256 (canonicalChildren t b.electionId b.level b.areaCode))
  artifact : ∃ a ∈ artifacts, a.id = b.artifactId ∧ a.contentSha256 = textSha256 sha256 a.metadataJson ∧
    ∃ job, job.area = b.area ∧ job.children = canonicalChildren t b.electionId b.level b.areaCode ∧ ∀ order,
      a.metadataJson = canonicalJSON
        (bundlePayload sha256 job (canonicalPartyTotals t b.electionId order b.level b.areaCode).totals)

theorem StatesCollation.mono {t : Tables} {artifacts artifacts' : List EvidenceArtifact} {b : CollationBundle}
    (h : StatesCollation sha256 t artifacts b) (hsubset : artifacts ⊆ artifacts') :
    StatesCollation sha256 t artifacts' b := by
  obtain ⟨a, ha, hstates⟩ := h.artifact
  exact ⟨h.childResults, h.aggregate, h.eventRoot, a, hsubset ha, hstates⟩

def CollectedIn (t : Tables) (job : BundleJob) : Prop :=
  job.children = canonicalChildren t job.electionId job.level job.areaCode

/-- A bundle of children and totals read from the same tables. -/
theorem statesCollation_publishedBundle {t : Tables} {job : BundleJob} {partyTotals : List (String × Int)}
    (hcollected : CollectedIn t job)
    (htotals : ∀ order, partyTotals = (canonicalPartyTotals t job.electionId order job.level job.areaCode).totals)
    (version artifactId bundleId : Int) (artifacts : List EvidenceArtifact) :
    StatesCollation sha256 t (artifacts ++ [bundleArtifact sha256 job partyTotals artifactId])
      (publishedBundle sha256 job partyTotals version artifactId bundleId) := by
  have hsorted : sortChildren job.children = canonicalChildren t job.electionId job.level job.areaCode := by
    rw [hcollected, sortChildren_canonicalChildren]
  refine ⟨?_, ?_, ?_, bundleArtifact sha256 job partyTotals artifactId, by simp, rfl, rfl, job, rfl, hcollected, ?_⟩
  · simp only [publishedBundle, childSHA, hsorted]
  · intro order
    simp only [publishedBundle, aggregateSHA, hsorted, ← htotals order]
  · simp only [publishedBundle, Inec.eventRoot, hsorted]
  · intro order
    simp only [bundleArtifact, publishedBundle, ← htotals order]

/-- What a builder has read so far is what one moment of the past had. -/
def Grounded (past : Tables → Prop) (now : Tables) : BundlePhase → Prop
  | .scanning job rest partyTotals => ∃ t, past t ∧ ScoresKept t now ∧ CollectedIn t job ∧
      ∃ read, job.children.map (·.resultId) = read ++ rest ∧
        partyTotals = Grouping.accumulate (read.flatMap (scoreEntries t))
  | .numbered job partyTotals _ => ∃ t, past t ∧ CollectedIn t job ∧
      ∀ order, partyTotals = (canonicalPartyTotals t job.electionId order job.level job.areaCode).totals
  | _ => True

/-- Every builder works on what one moment of the past had, and every bundle states it. -/
structure Sound (sha256 : List UInt8 → Digest) (past : Tables → Prop) (w : Bundling) : Prop where
  owned : ScoresOwned w.db.tables
  now : past w.db.tables
  builders : ∀ i, Grounded past w.db.tables (w.phase i)
  published : ∀ b ∈ w.bundles, ∃ t, past t ∧ StatesCollation sha256 t w.artifacts b

variable {past past' : Tables → Prop}

theorem Grounded.mono {p : BundlePhase} {now now' : Tables} (h : Grounded past now p)
    (hpast : ∀ t, past t → past' t) (hkept : ScoresKept now now') : Grounded past' now' p := by
  cases p with
  | scanning job rest partyTotals =>
      obtain ⟨t, ht, hscores, hrest⟩ := h
      exact ⟨t, hpast t ht, hscores.trans hkept, hrest⟩
  | numbered job partyTotals previousVersion =>
      obtain ⟨t, ht, hrest⟩ := h
      exact ⟨t, hpast t ht, hrest⟩
  | _ => trivial

theorem Sound.mono (h : Sound sha256 past w) (hpast : ∀ t, past t → past' t) : Sound sha256 past' w where
  owned := h.owned
  now := hpast _ h.now
  builders i := (h.builders i).mono hpast (.refl _)
  published b hb := by
    obtain ⟨t, ht, hstates⟩ := h.published b hb
    exact ⟨t, hpast t ht, hstates⟩

/-- The database goes on, and the results that are there keep their scores. -/
theorem Sound.served (h : Sound sha256 past w) {db : Database} (howned : ScoresOwned db.tables)
    (hkept : ScoresKept w.db.tables db.tables) (hnow : past db.tables) : Sound sha256 past { w with db := db } where
  owned := howned
  now := hnow
  builders i := (h.builders i).mono (fun _ ht => ht) hkept
  published := h.published

/-- A builder goes on, with what its new phase has to say. -/
theorem Sound.setPhase (h : Sound sha256 past w) {i : Nat} {p : BundlePhase} (hp : Grounded past w.db.tables p) :
    Sound sha256 past (w.setPhase i p) where
  owned := h.owned
  now := h.now
  builders := (Function.forall_update_iff w.phase fun _ => Grounded past w.db.tables).mpr
    ⟨hp, fun j _ => h.builders j⟩
  published := h.published

/-- The scores of one child more, read at whatever moment, are those of the moment the children were collected. -/
theorem Sound.scanned (h : Sound sha256 past w) {i : Nat} {job : BundleJob} {resultId : Int} {rest : List Int}
    {partyTotals : List (String × Int)} (hphase : w.phase i = .scanning job (resultId :: rest) partyTotals) :
    Sound sha256 past (w.setPhase i
      (.scanning job rest (Grouping.addAll partyTotals (scoreEntries w.db.tables resultId)))) := by
  have hgrounded := h.builders i
  rw [hphase] at hgrounded
  obtain ⟨t, ht, hkept, hcollected, read, hids, htotals⟩ := hgrounded
  have hmem : resultId ∈ (canonicalChildren t job.electionId job.level job.areaCode).map (·.resultId) := by
    rw [← hcollected, hids]
    simp
  have hentries : scoreEntries w.db.tables resultId = scoreEntries t resultId :=
    scoreEntries_of_scoresKept hkept (canonicalChildren_mem hmem)
  apply h.setPhase
  refine ⟨t, ht, hkept, hcollected, read ++ [resultId], by rw [hids, List.append_assoc]; rfl, ?_⟩
  rw [hentries, htotals, Grouping.accumulate, ← Grouping.addAll_append, List.flatMap_append, List.flatMap_singleton]
  rfl

/-- With the last child read, the totals are those of the collation. -/
theorem Sound.versionRead (h : Sound sha256 past w) {i : Nat} {job : BundleJob} {partyTotals : List (String × Int)}
    (hphase : w.phase i = .scanning job [] partyTotals) (previousVersion : Int) :
    Sound sha256 past (w.setPhase i (.numbered job partyTotals previousVersion)) := by
  have hgrounded := h.builders i
  rw [hphase] at hgrounded
  obtain ⟨t, ht, -, hcollected, read, hids, htotals⟩ := hgrounded
  apply h.setPhase
  refine ⟨t, ht, hcollected, fun order => ?_⟩
  rw [htotals, ← accumulate_scoreEntries t job.electionId order job.level job.areaCode, ← hcollected, hids,
    List.append_nil]

theorem Sound.published_step (h : Sound sha256 past w) {i : Nat} {job : BundleJob} {partyTotals : List (String × Int)}
    {previousVersion artifactId bundleId : Int} {db : Database}
    (hphase : w.phase i = .numbered job partyTotals previousVersion)
    (hpublished : publishBundle sha256 job partyTotals (previousVersion + 1) artifactId bundleId w.db.tables
      w.artifacts w.bundles = .ok db.tables) (hnow : past db.tables) :
    Sound sha256 past
      { db := db
        artifacts := w.artifacts ++ [bundleArtifact sha256 job partyTotals artifactId]
        bundles := w.bundles ++ [publishedBundle sha256 job partyTotals (previousVersion + 1) artifactId bundleId]
        phase := Function.update w.phase i .idle } := by
  have hcore := publishBundle_sameCore hpublished
  have howned : ScoresOwned db.tables := by
    intro s hs
    rw [hcore.resultPartyScores] at hs
    rw [hcore.results]
    exact h.owned s hs
  have hserved := (h.served howned (ScoresKept.sameCore hcore) hnow).setPhase (i := i) (p := .idle) trivial
  refine ⟨hserved.owned, hserved.now, hserved.builders, ?_⟩
  intro b hb
  rcases List.mem_append.mp hb with hold | hnew
  · obtain ⟨t, ht, hstates⟩ := h.published b hold
    exact ⟨t, ht, hstates.mono (List.subset_append_left _ _)⟩
  · have hgrounded := h.builders i
    rw [hphase] at hgrounded
    obtain ⟨t, ht, hcollected, htotals⟩ := hgrounded
    rw [List.mem_singleton.mp hnew]
    exact ⟨t, ht, statesCollation_publishedBundle hcollected htotals _ _ _ _⟩

theorem Sound.moves {w' : Bundling} (hmoves : w.Moves sha256 w') (h : Sound sha256 past w) (hnow : past w'.db.tables) :
    Sound sha256 past w' := by
  cases hmoves with
  | stay => exact h
  | served q => exact h.served (step_scoresOwned h.owned q) (step_scoresKept h.owned q) hnow
  | stored artifact =>
      refine ⟨h.owned, h.now, h.builders, fun b hb => ?_⟩
      obtain ⟨t, ht, hstates⟩ := h.published b hb
      exact ⟨t, ht, hstates.mono (List.subset_append_left _ _)⟩
  | admitted i => exact h.setPhase trivial
  | quit i => exact h.setPhase trivial
  | collected i env electionId level areaCode policyId children hchildren =>
      exact h.setPhase ⟨w.db.tables, h.now, .refl _, hchildren, [], rfl, rfl⟩
  | scanned i job resultId rest partyTotals hphase => exact h.scanned hphase
  | numbered i job partyTotals hphase => exact h.versionRead hphase _
  | published i job partyTotals previousVersion artifactId bundleId db hphase hpublished =>
      exact h.published_step hphase hpublished hnow

/-- The tables of the states a run visits. -/
theorem Sound.run (h : Sound sha256 past w) (actions : List BundleAction) :
    Sound sha256 (fun t => past t ∨ ∃ w' ∈ Runs.visited (step sha256) w actions, w'.db.tables = t)
      (Runs.final (step sha256) w actions) := by
  induction actions generalizing w past with
  | nil => exact h.mono fun t ht => Or.inl ht
  | cons a rest ih =>
      let reached := fun t => past t ∨ t = (w.step sha256 a).db.tables
      have hstep : Sound sha256 reached (w.step sha256 a) :=
        (h.mono fun t ht => Or.inl ht).moves (moves_step a) (Or.inr rfl)
      refine (ih hstep).mono ?_
      rintro t ((ht | rfl) | ⟨w', hw', rfl⟩)
      · exact Or.inl ht
      · exact Or.inr ⟨_, List.mem_cons_of_mem _ (Runs.start_mem_visited _ _), rfl⟩
      · exact Or.inr ⟨w', List.mem_cons_of_mem _ hw', rfl⟩

/-- No bundle is published and none is under way. -/
structure Fresh (w : Bundling) : Prop where
  bundles : w.bundles = []
  idle : ∀ i, w.phase i = .idle

theorem Fresh.sound (h : w.Fresh) (howned : ScoresOwned w.db.tables) :
    Sound sha256 (fun t => t = w.db.tables) w where
  owned := howned
  now := rfl
  builders i := by
    rw [h.idle i]
    trivial
  published b hb := by
    rw [h.bundles] at hb
    cases hb

/-- Whatever requests are served while bundles are built, a published bundle states the collation its area had at one
moment of the run: the results that counted with their newest events, and the party totals. -/
theorem bundles_state_collation (sha256 : List UInt8 → Digest) (w : Bundling) (hfresh : w.Fresh)
    (howned : ScoresOwned w.db.tables) (actions : List BundleAction) :
    ∀ b ∈ (Runs.final (step sha256) w actions).bundles, ∃ w' ∈ Runs.visited (step sha256) w actions,
      StatesCollation sha256 w'.db.tables (Runs.final (step sha256) w actions).artifacts b := by
  intro b hb
  obtain ⟨t, rfl | ⟨w', hw', rfl⟩, hstates⟩ := ((hfresh.sound howned).run actions).published b hb
  · exact ⟨w, Runs.start_mem_visited _ _, hstates⟩
  · exact ⟨w', hw', hstates⟩

/-- A stand-in for the hash, told apart by how a text begins. -/
def firstBytes (bytes : List UInt8) : Digest := ⟨(bytes ++ List.replicate 32 0).take 32, by simp⟩

/-- The counted poll, without bundles. -/
def bundlingPoll : Bundling := ⟨countedPoll .collating, [], [], fun _ => .idle⟩

/-- The result of the poll is withdrawn by a correction between the two queries of a builder. -/
def correctedMeanwhile : List BundleAction :=
  [.accept 0 (.plain 2 "officer" .collationOfficer 0) ⟨1, "national", ""⟩, .collect 0,
    .request ⟨.plain 1 "chair" .admin 0, .correct 1 ⟨[⟨"APC", 45⟩, ⟨"LP", 55⟩], 100, 0, "recount", none⟩⟩,
    .readScores 0, .readVersion 0, .publish 0 1 1]

/-- The bundle states the collation before the correction. -/
theorem bundles_state_collation_corrected :
    ((Runs.final (step firstBytes) bundlingPoll correctedMeanwhile).bundles.map
        (·.bundleVersion)) = [1] ∧
      ∀ b ∈ (Runs.final (step firstBytes) bundlingPoll correctedMeanwhile).bundles,
        ∃ w' ∈ Runs.visited (step firstBytes) bundlingPoll correctedMeanwhile,
          StatesCollation firstBytes w'.db.tables
            (Runs.final (step firstBytes) bundlingPoll correctedMeanwhile).artifacts b :=
  ⟨by decide +kernel, bundles_state_collation _ bundlingPoll ⟨rfl, fun _ => rfl⟩
    (by simp [ScoresOwned, bundlingPoll, countedPoll, ResultRow.bare]) _⟩

/-! ### Versions -/

/-- The versions of an area in the order they were published. -/
def versionsOf (bundles : List CollationBundle) (area : Int × CollationLevel × String) : List Int :=
  (bundles.filter fun b => b.area == area).map (·.bundleVersion)

/-- The numbers from 1 on. -/
def upTo (n : Nat) : List Int := (List.range n).map fun k : Nat => (k : Int) + 1

theorem upTo_succ (n : Nat) : upTo (n + 1) = upTo n ++ [(n : Int) + 1] := by
  rw [upTo, List.range_succ, List.map_append]
  rfl

theorem mem_upTo {n : Nat} {v : Int} : v ∈ upTo n ↔ 0 < v ∧ v ≤ n := by
  simp only [upTo, List.mem_map, List.mem_range]
  constructor
  · rintro ⟨k, hk, rfl⟩
    omega
  · rintro ⟨hpos, hle⟩
    exact ⟨(v - 1).toNat, by omega, by omega⟩

theorem foldr_max_upTo (n : Nat) : (upTo n).foldr max 0 = n := by
  have hle : ∀ v ∈ upTo n, v ≤ (upTo n).foldr max 0 := fun v hv => le_foldr_max hv
  have hge : ∀ (vs : List Int), (∀ v ∈ vs, v ≤ n) → vs.foldr max 0 ≤ n := by
    intro vs hvs
    induction vs with
    | nil => exact Int.natCast_nonneg n
    | cons v rest ih =>
        rw [List.forall_mem_cons] at hvs
        exact max_le hvs.1 (ih hvs.2)
  apply le_antisymm
  · exact hge _ fun v hv => (mem_upTo.mp hv).2
  · cases n with
    | zero => exact le_refl _
    | succ n => exact hle _ (mem_upTo.mpr ⟨by omega, le_refl _⟩)

/-- The version a builder has seen is one of its area, or none. -/
def Behind (bundles : List CollationBundle) : BundlePhase → Prop
  | .numbered job _ previousVersion =>
      0 ≤ previousVersion ∧ previousVersion ≤ (versionsOf bundles job.area).length
  | _ => True

/-- The versions of every area count up from 1, and no builder is ahead of them. -/
structure Numbered (w : Bundling) : Prop where
  versions : ∀ area, ∃ n, versionsOf w.bundles area = upTo n
  builders : ∀ i, Behind w.bundles (w.phase i)

theorem lastVersion_eq {bundles : List CollationBundle} {area : Int × CollationLevel × String} {n : Nat}
    (h : versionsOf bundles area = upTo n) : lastVersion bundles area = n := by
  rw [lastVersion, ← versionsOf, h, foldr_max_upTo]

theorem length_upTo (n : Nat) : (upTo n).length = n := by rw [upTo, List.length_map, List.length_range]

theorem Numbered.setPhase (h : Numbered w) {i : Nat} {p : BundlePhase} (hp : Behind w.bundles p) :
    Numbered (w.setPhase i p) where
  versions := h.versions
  builders := (Function.forall_update_iff w.phase fun _ => Behind w.bundles).mpr ⟨hp, fun j _ => h.builders j⟩

theorem versionsOf_append (bundles : List CollationBundle) (b : CollationBundle)
    (area : Int × CollationLevel × String) :
    versionsOf (bundles ++ [b]) area = versionsOf bundles area ++ if b.area = area then [b.bundleVersion] else [] := by
  rw [versionsOf, List.filter_append, List.map_append]
  congr 1
  by_cases h : b.area = area
  · simp [h]
  · simp [h]

theorem Behind.append {p : BundlePhase} {bundles : List CollationBundle} (h : Behind bundles p)
    (b : CollationBundle) : Behind (bundles ++ [b]) p := by
  cases p with
  | numbered job partyTotals previousVersion =>
      obtain ⟨hnonneg, hle⟩ := h
      refine ⟨hnonneg, hle.trans ?_⟩
      rw [versionsOf_append, List.length_append]
      omega
  | _ => trivial

/-- Of the builders that have seen one version only the first gets through, so the next version is the next number. -/
theorem Numbered.published (h : Numbered w) {i : Nat} {job : BundleJob} {partyTotals : List (String × Int)}
    {previousVersion artifactId bundleId : Int} {db : Database}
    (hphase : w.phase i = .numbered job partyTotals previousVersion)
    (hpublished : publishBundle sha256 job partyTotals (previousVersion + 1) artifactId bundleId w.db.tables
      w.artifacts w.bundles = .ok db.tables) (artifacts : List EvidenceArtifact) :
    Numbered
      { db := db
        artifacts := artifacts
        bundles := w.bundles ++ [publishedBundle sha256 job partyTotals (previousVersion + 1) artifactId bundleId]
        phase := Function.update w.phase i .idle } := by
  let b := publishedBundle sha256 job partyTotals (previousVersion + 1) artifactId bundleId
  have harea : b.area = job.area := rfl
  have hfree : previousVersion + 1 ∉ versionsOf w.bundles job.area := by
    simp only [publishBundle, bind_eq_ok, require_eq_ok, List.all_eq_true] at hpublished
    obtain ⟨-, -, -, hfree, -⟩ := hpublished
    intro hmem
    obtain ⟨b', hb', hversion⟩ := List.mem_map.mp hmem
    obtain ⟨hb', hsame⟩ := List.mem_filter.mp hb'
    have hother := hfree b' hb'
    rw [beq_iff_eq] at hsame
    simp [hsame, hversion] at hother
  have hbehind := h.builders i
  rw [hphase] at hbehind
  obtain ⟨hnonneg, hle⟩ := hbehind
  obtain ⟨n, hn⟩ := h.versions job.area
  rw [hn, length_upTo] at hle
  have hprevious : previousVersion = n := by
    rw [hn, mem_upTo] at hfree
    omega
  refine ⟨fun area => ?_, (Function.forall_update_iff w.phase fun _ => Behind (w.bundles ++ [b])).mpr
    ⟨trivial, fun j _ => (h.builders j).append b⟩⟩
  · change ∃ m, versionsOf (w.bundles ++ [b]) area = upTo m
    rw [versionsOf_append, harea]
    by_cases hsame : job.area = area
    · refine ⟨n + 1, ?_⟩
      rw [← hsame, hn, if_pos rfl, upTo_succ, ← hprevious]
      rfl
    · obtain ⟨m, hm⟩ := h.versions area
      exact ⟨m, by rw [if_neg hsame, hm, List.append_nil]⟩

theorem Numbered.moves {w' : Bundling} (hmoves : w.Moves sha256 w') (h : Numbered w) : Numbered w' := by
  cases hmoves with
  | stay => exact h
  | served q => exact ⟨h.versions, h.builders⟩
  | stored artifact => exact ⟨h.versions, h.builders⟩
  | numbered i job partyTotals hphase =>
      apply h.setPhase
      obtain ⟨n, hn⟩ := h.versions job.area
      show 0 ≤ lastVersion w.bundles job.area ∧ _
      rw [lastVersion_eq hn, hn, length_upTo]
      omega
  | published i job partyTotals previousVersion artifactId bundleId db hphase hpublished =>
      exact h.published hphase hpublished _
  | _ => exact h.setPhase trivial

theorem Fresh.numbered (h : w.Fresh) : Numbered w where
  versions _ := ⟨0, by rw [h.bundles]; rfl⟩
  builders i := by
    rw [h.idle i]
    trivial

theorem Moves.bundles_grow {w' : Bundling} (h : w.Moves sha256 w') : w.bundles <+: w'.bundles := by
  cases h with
  | published => exact List.prefix_append _ _
  | _ => exact List.prefix_rfl

/-- However builders and other requests interleave, the versions of every area are 1, 2, 3 and so on in the order they
were published, and no bundle that was published changes or goes. -/
theorem bundle_versions (sha256 : List UInt8 → Digest) (w : Bundling) (hfresh : w.Fresh)
    (actions : List BundleAction) :
    (∀ w' ∈ Runs.visited (step sha256) w actions, ∀ area, ∃ n, versionsOf w'.bundles area = upTo n) ∧
      (Runs.visited (step sha256) w actions).Pairwise fun before after => before.bundles <+: after.bundles := by
  have hkeep : ∀ (w : Bundling) (a : BundleAction), Numbered w → Numbered (w.step sha256 a) :=
    fun _ a h => h.moves (moves_step a)
  refine ⟨fun w' hw' => (Runs.forall_visited_of_step hkeep hfresh.numbered actions w' hw').versions, ?_⟩
  exact @Runs.pairwise_visited _ _ (step sha256) Numbered (fun before after => before.bundles <+: after.bundles)
    (fun _ => List.prefix_rfl) (fun _ _ _ => List.IsPrefix.trans) hkeep
    (fun _ a _ => (moves_step a).bundles_grow) w hfresh.numbered actions

/-- Two builders see no version, and the second to publish is refused. -/
def twoBuilders : List BundleAction :=
  [.accept 0 (.plain 2 "officer" .collationOfficer 0) ⟨1, "national", ""⟩,
    .accept 1 (.plain 3 "chair" .admin 0) ⟨1, "national", ""⟩, .collect 0, .collect 1, .readScores 0, .readScores 1,
    .readVersion 0, .readVersion 1, .publish 0 1 1, .publish 1 2 2]

theorem bundle_versions_two :
    versionsOf (Runs.final (step firstBytes) bundlingPoll twoBuilders).bundles
        (1, .national, "NG") = [1] ∧
      (∀ w' ∈ Runs.visited (step firstBytes) bundlingPoll twoBuilders, ∀ area,
        ∃ n, versionsOf w'.bundles area = upTo n) ∧
        (Runs.visited (step firstBytes) bundlingPoll twoBuilders).Pairwise
          fun before after => before.bundles <+: after.bundles :=
  ⟨by decide +kernel, bundle_versions _ bundlingPoll ⟨rfl, fun _ => rfl⟩ twoBuilders⟩

end Bundling

end Inec
