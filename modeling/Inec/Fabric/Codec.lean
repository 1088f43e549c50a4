import Inec.Fabric.Anchor

/-!
# The texts of the chaincode

What backend and chaincode make of each other's texts: `json.Unmarshal` of an anchor and of the
governance. Both sides give their records the same field names, so one table of fields serves both, and
a record that was written is read back as it was.
-/

namespace Inec

open JsonText

/-! ### Anchors -/

def EvidenceAnchor.zero : EvidenceAnchor := ⟨0, "", "", 0, 0, "", "", "", "", "", 0, "", "", ""⟩

def anchorTable : List (JsonText.Field EvidenceAnchor) :=
  [.int64 "schema_version" fun n a => { a with schemaVersion := n },
    .text "anchor_id" fun s a => { a with anchorId := s },
    .text "anchor_type" fun s a => { a with anchorType := s },
    .int64 "election_id" fun n a => { a with electionId := n },
    .int64 "result_id" fun n a => { a with resultId := n },
    .text "event_hash" fun s a => { a with eventHash := s },
    .text "payload_sha256" fun s a => { a with payloadSha256 := s },
    .text "prior_event_hash" fun s a => { a with priorEventHash := s },
    .text "signature" fun s a => { a with signature := s },
    .text "signer_key_id" fun s a => { a with signerKeyId := s },
    .int64 "policy_version_id" fun n a => { a with policyVersionId := n },
    .text "created_at" fun s a => { a with createdAt := s },
    .text "creator_msp" fun s a => { a with creatorMsp := s },
    .text "fabric_tx_id" fun s a => { a with fabricTxId := s }]

/-- `json.Unmarshal` into an anchor. -/
def decodeAnchor (text : String) : Option EvidenceAnchor := unmarshal anchorTable .zero text

/-- The integers of a record are those of Go. -/
structure EvidenceAnchor.InRange (a : EvidenceAnchor) : Prop where
  schemaVersion : IsInt64 a.schemaVersion
  electionId : IsInt64 a.electionId
  resultId : IsInt64 a.resultId
  policyVersionId : IsInt64 a.policyVersionId

section Fields

variable {Rec : Type} {table : List (JsonText.Field Rec)} {name : String}

theorem run_int {set : Int → Rec → Rec} (h : field? table name = some (.int64 name set)) {n : Int} (hn : IsInt64 n)
    (rest : List (String × Json)) (r : Rec) :
    (parsedFields ((name, .int n) :: rest)).foldlM (storeField table) r =
      (parsedFields rest).foldlM (storeField table) (set n r) := by
  simp only [parsedFields, Json.parsed, List.foldlM_cons, storeField_int64 h hn]
  rfl

theorem run_str {set : String → Rec → Rec} (h : field? table name = some (.text name set)) (s : String)
    (rest : List (String × Json)) (r : Rec) :
    (parsedFields ((name, .str s) :: rest)).foldlM (storeField table) r =
      (parsedFields rest).foldlM (storeField table) (set s r) := by
  simp only [parsedFields, Json.parsed, List.foldlM_cons, storeField_text h s]
  rfl

/-- A field that `omitempty` may have left out is as good as written, if it was empty before. -/
theorem run_omitEmptyInt {set : Int → Rec → Rec} (h : field? table name = some (.int64 name set)) {n : Int}
    (hn : IsInt64 n) (rest : List (String × Json)) {r : Rec} (hzero : set 0 r = r) :
    (parsedFields (omitEmptyInt name n ++ rest)).foldlM (storeField table) r =
      (parsedFields rest).foldlM (storeField table) (set n r) := by
  unfold omitEmptyInt
  split
  · rename_i heq
    rw [heq, hzero, List.nil_append]
  · exact run_int h hn rest r

theorem run_omitEmptyStr {set : String → Rec → Rec} (h : field? table name = some (.text name set)) (s : String)
    (rest : List (String × Json)) {r : Rec} (hempty : set "" r = r) :
    (parsedFields (omitEmptyStr name s ++ rest)).foldlM (storeField table) r =
      (parsedFields rest).foldlM (storeField table) (set s r) := by
  unfold omitEmptyStr
  split
  · rename_i heq
    rw [heq, hempty, List.nil_append]
  · exact run_str h s rest r

end Fields

theorem run_anchorFields {a : EvidenceAnchor} (h : a.InRange) (rest : List (String × Json)) :
    (parsedFields (anchorFields a ++ rest)).foldlM (storeField anchorTable) .zero =
      (parsedFields rest).foldlM (storeField anchorTable) { a with creatorMsp := "", fabricTxId := "" } := by
  simp only [anchorFields, List.append_assoc, List.cons_append, List.nil_append]
  rw [@run_int _ anchorTable "schema_version" _ rfl _ h.schemaVersion, @run_str _ anchorTable "anchor_id" _ rfl,
    @run_str _ anchorTable "anchor_type" _ rfl, @run_int _ anchorTable "election_id" _ rfl _ h.electionId,
    @run_omitEmptyInt _ anchorTable "result_id" _ rfl _ h.resultId _ _ rfl,
      @run_str _ anchorTable "event_hash" _ rfl,
    @run_str _ anchorTable "payload_sha256" _ rfl,
      @run_omitEmptyStr _ anchorTable "prior_event_hash" _ rfl _ _ _ rfl,
    @run_str _ anchorTable "signature" _ rfl, @run_str _ anchorTable "signer_key_id" _ rfl,
    @run_omitEmptyInt _ anchorTable "policy_version_id" _ rfl _ h.policyVersionId _ _ rfl,
    @run_str _ anchorTable "created_at" _ rfl]
  rfl

section Fit

variable {depth : Nat}

theorem fieldsFit_append (first second : List (String × Json)) :
    fieldsFit depth (parsedFields (first ++ second)) =
      (fieldsFit depth (parsedFields first) && fieldsFit depth (parsedFields second)) := by
  induction first with
  | nil => rfl
  | cons field rest ih =>
      rw [List.cons_append, parsedFields, parsedFields, fieldsFit, fieldsFit, ih, Bool.and_assoc]

theorem fits_int (n : Int) : (Json.parsed (.int n)).fits depth = true := by
  rw [Json.parsed, Value.fits]
  exact isNumber_toString n

theorem fits_str (s : String) : (Json.parsed (.str s)).fits depth = true := by
  rw [Json.parsed]
  unfold Value.fits
  rfl

theorem fieldsFit_omitEmptyInt (name : String) (n : Int) :
    fieldsFit depth (parsedFields (omitEmptyInt name n)) = true := by
  unfold omitEmptyInt
  split
  · rfl
  · rw [parsedFields, fieldsFit, fits_int]
    rfl

theorem fieldsFit_omitEmptyStr (name s : String) : fieldsFit depth (parsedFields (omitEmptyStr name s)) = true := by
  unfold omitEmptyStr
  split
  · rfl
  · rw [parsedFields, fieldsFit, fits_str]
    rfl

theorem fieldsFit_anchorFields (a : EvidenceAnchor) : fieldsFit depth (parsedFields (anchorFields a)) = true := by
  simp only [anchorFields, fieldsFit_append, fieldsFit_omitEmptyInt, fieldsFit_omitEmptyStr,
    parsedFields, fieldsFit, fits_int, fits_str, Bool.and_self]

end Fit

/-- A record whose text is an object is decoded field by field. -/
theorem unmarshal_obj {Rec : Type} {table : List (JsonText.Field Rec)} {zero : Rec} {fields : List (String × Json)}
    (hfit : fieldsFit 9999 (parsedFields fields) = true) :
    unmarshal table zero (canonicalJSON (.obj fields)) = (parsedFields fields).foldlM (storeField table) zero := by
  have hparse : parse (canonicalJSON (.obj fields)).toList = some (.obj (parsedFields fields)) := by
    apply parse_canonicalJSON
    rw [Json.parsed]
    exact hfit
  rw [unmarshal, hparse]

/-- The chaincode reads the text of the backend as the backend wrote it. -/
theorem decodeAnchor_anchorPayloadJson {a : EvidenceAnchor} (h : a.InRange) :
    decodeAnchor (anchorPayloadJson a) = some a := by
  rw [decodeAnchor, anchorPayloadJson, unmarshal_obj, List.append_assoc, run_anchorFields h,
    @run_omitEmptyStr _ anchorTable "creator_msp" _ rfl _ _ _ rfl,
    ← List.append_nil (omitEmptyStr _ _), @run_omitEmptyStr _ anchorTable "fabric_tx_id" _ rfl _ _ _ rfl]
  · rfl
  · rw [fieldsFit_append, fieldsFit_append, fieldsFit_anchorFields, fieldsFit_omitEmptyStr, fieldsFit_omitEmptyStr]
    rfl

/-- And its own. -/
theorem decodeAnchor_storedAnchorJson {a : EvidenceAnchor} (h : a.InRange) :
    decodeAnchor (storedAnchorJson a) = some a := by
  rw [decodeAnchor, storedAnchorJson, unmarshal_obj, List.append_assoc, run_anchorFields h, List.cons_append,
    @run_str _ anchorTable "creator_msp" _ rfl, List.nil_append,
    ← List.append_nil (omitEmptyStr _ _), @run_omitEmptyStr _ anchorTable "fabric_tx_id" _ rfl _ _ _ rfl]
  · rfl
  · rw [fieldsFit_append, fieldsFit_append, fieldsFit_anchorFields, fieldsFit_omitEmptyStr, parsedFields,
      fieldsFit, fits_str]
    rfl

/-- What has been decoded is in range. -/
theorem decodeAnchor_inRange {text : String} {a : EvidenceAnchor} (h : decodeAnchor text = some a) : a.InRange := by
  have hzero : EvidenceAnchor.zero.InRange := ⟨by decide, by decide, by decide, by decide⟩
  refine unmarshal_keeps hzero ?_ h
  simp only [anchorTable, List.forall_mem_cons]
  have htext : ∀ {name : String} {set : String → EvidenceAnchor → EvidenceAnchor},
      (∀ s a, a.InRange → (set s a).InRange) →
        (JsonText.Field.text name set).Keeps EvidenceAnchor.InRange := keeps_text
  refine ⟨keeps_int64 fun n a hn ha => { ha with schemaVersion := hn }, htext fun s a ha => { ha with },
    htext fun s a ha => { ha with }, keeps_int64 fun n a hn ha => { ha with electionId := hn },
    keeps_int64 fun n a hn ha => { ha with resultId := hn }, htext fun s a ha => { ha with },
    htext fun s a ha => { ha with }, htext fun s a ha => { ha with }, htext fun s a ha => { ha with },
    htext fun s a ha => { ha with }, keeps_int64 fun n a hn ha => { ha with policyVersionId := hn },
    htext fun s a ha => { ha with }, htext fun s a ha => { ha with }, htext fun s a ha => { ha with },
    List.forall_mem_nil _⟩

/-! ### Governance -/

/-- `FabricGovernanceV1`. -/
structure FabricGovernance where
  schemaVersion : Int
  consortiumMsps : List String
  createdByMsp : String
  createdAt : String
  deriving DecidableEq, Repr

def FabricGovernance.zero : FabricGovernance := ⟨0, [], "", ""⟩

def governanceTable : List (JsonText.Field FabricGovernance) :=
  [.int64 "schema_version" fun n g => { g with schemaVersion := n },
    .texts "consortium_msps" fun list g => { g with consortiumMsps := list },
    .text "created_by_msp" fun s g => { g with createdByMsp := s },
    .text "created_at" fun s g => { g with createdAt := s }]

def decodeGovernance (text : String) : Option FabricGovernance := unmarshal governanceTable .zero text

def governanceJson (g : FabricGovernance) : String :=
  canonicalJSON (.obj [("schema_version", .int g.schemaVersion),
    ("consortium_msps", .arr (g.consortiumMsps.map .str)), ("created_by_msp", .str g.createdByMsp),
      ("created_at", .str g.createdAt)])

theorem texts?_parsedItems (list : List String) : texts? (parsedItems (list.map .str)) = some list := by
  induction list with
  | nil => rfl
  | cons s rest ih => rw [List.map_cons, parsedItems, Json.parsed, texts?, ih, Option.map_some]

theorem itemsFit_str {depth : Nat} (list : List String) : itemsFit depth (parsedItems (list.map .str)) = true := by
  induction list with
  | nil => rfl
  | cons s rest ih => rw [List.map_cons, parsedItems, itemsFit, fits_str, ih, Bool.and_self]

theorem decodeGovernance_governanceJson {g : FabricGovernance} (h : IsInt64 g.schemaVersion) :
    decodeGovernance (governanceJson g) = some g := by
  have hlist : field? governanceTable "consortium_msps" =
      some (.texts "consortium_msps" fun list g => { g with consortiumMsps := list }) := rfl
  rw [decodeGovernance, governanceJson, unmarshal_obj,
    @run_int _ governanceTable "schema_version" _ rfl _ h, parsedFields, List.foldlM_cons, Json.parsed,
      storeField_texts hlist (texts?_parsedItems g.consortiumMsps)]
  · change (parsedFields _).foldlM (storeField governanceTable) _ = _
    rw [@run_str _ governanceTable "created_by_msp" _ rfl, @run_str _ governanceTable "created_at" _ rfl]
    rfl
  · simp only [parsedFields, fieldsFit, Json.parsed, Value.fits, itemsFit_str, isNumber_toString, Bool.and_self]

end Inec
