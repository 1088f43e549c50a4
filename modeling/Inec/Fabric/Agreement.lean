import Inec.Fabric.AnchorStore

/-!
# Backend and contract

An evidence event that is recorded and queued is sent to the contract as a text. The contract reads the
fields back as they were, and both sides compute the same id. It then takes the anchor if the signature
verifies over the digest of the anchor, under the key of the certificate of whoever sends it, and the key id
names the sender.

What the backend sends is the answer of the integrity service, and that was asked to sign the hash of the
event.
-/

namespace Inec

open Checks JsonText Rfc3339

/-! ### The evidence table -/

section Evidence

variable (sha256Hex : String → String)

/-- A transaction of the backend. Nothing but `recordIntegrityEventTx` writes to the evidence table. -/
inductive EvidenceWrite
  | record (env : Env) (input : IntegrityEventInput)
  | other (db : Tables)

def evidenceStep (db : Tables) : EvidenceWrite → Tables
  | .record env input =>
      match recordIntegrityEventTx sha256Hex env db input with
      | .ok done => done.1
      | .error _ => db
  | .other db' => { db' with evidenceEvents := db.evidenceEvents }

variable {sha256Hex}

/-- The hashes in the table are digests. -/
def EventsHashed (sha256Hex : String → String) (db : Tables) : Prop :=
  ∀ ev ∈ db.evidenceEvents, ∃ text, ev.eventHash = sha256Hex text

theorem evidenceStep_hashed (db : Tables) (write : EvidenceWrite) (h : EventsHashed sha256Hex db) :
    EventsHashed sha256Hex (evidenceStep sha256Hex db write) := by
  cases write with
  | other db' => exact h
  | record env input =>
      simp only [evidenceStep]
      split
      · rename_i done hdone
        obtain ⟨signing, hdb⟩ := @recordIntegrityEventTx_row sha256Hex env db done.1 input done.2 hdone
        rw [hdb]
        intro ev hev
        rcases List.mem_append.mp hev with hev | hev
        · exact h ev hev
        · rw [List.mem_singleton.mp hev]
          exact ⟨_, rfl⟩
      · exact h

theorem eventsHashed_of_run {start : Tables} (hstart : start.evidenceEvents = []) (writes : List EvidenceWrite) :
    EventsHashed sha256Hex (Runs.final (evidenceStep sha256Hex) start writes) := by
  have hempty : EventsHashed sha256Hex start := by
    intro ev hev
    rw [hstart] at hev
    cases hev
  exact Runs.forall_visited_of_step evidenceStep_hashed hempty writes _ (Runs.final_mem_visited _ writes)

/-- What a record says of the event. -/
theorem recordIntegrityEventTx_hashes {env : Env} {db db' : Tables} {input : IntegrityEventInput}
    {record : IntegrityEventRecord} (hdb : EventsHashed sha256Hex db)
    (h : recordIntegrityEventTx sha256Hex env db input = .ok (db', record)) :
    0 < input.resultId ∧ (∃ text, record.eventHash = sha256Hex text) ∧
      (∃ text, record.payloadSha256 = sha256Hex text) ∧
        (record.priorEventHash = "" ∨ ∃ text, record.priorEventHash = sha256Hex text) := by
  simp only [recordIntegrityEventTx, checkEventInput, bind_eq_ok, require_eq_ok, pure_eq_ok, Prod.mk.injEq] at h
  obtain ⟨_, hinput, _, _, _, _, signing, _, events, _, _, _, _, rfl⟩ := h
  simp only [Bool.and_eq_true, decide_eq_true_eq] at hinput
  refine ⟨hinput.1, ⟨_, rfl⟩, ⟨_, rfl⟩, ?_⟩
  cases htail : evidenceTail db.evidenceEvents input.resultId with
  | none => exact Or.inl rfl
  | some tail =>
      obtain ⟨text, htext⟩ := hdb tail (List.mem_of_mem_filter (Rows.mem_of_maxBy htail))
      exact Or.inr ⟨text, htext⟩

end Evidence

/-! ### An event on its way -/

/-- An event that `recordIntegrityEventTx` has recorded and `queueFabricAnchorForEventTx` has queued. -/
structure AnchoredEvent (sha256Hex : String → String) where
  start : Tables
  start_empty : start.evidenceEvents = []
  writes : List EvidenceWrite
  env : Env
  input : IntegrityEventInput
  db' : Tables
  record : IntegrityEventRecord
  recorded : recordIntegrityEventTx sha256Hex env
    (Runs.final (evidenceStep sha256Hex) start writes) input = .ok (db', record)
  result : ResultRow
  result_found : (Runs.final (evidenceStep sha256Hex) start writes).result? input.resultId = some result
  /-- The default of the column, in UTC. -/
  createdAt : CivilTime
  config : GatewayConfig
  id : Int
  eventId : Int
  request : AnchorRequest
  queued : queueFabricAnchorForEventTx sha256Hex config id eventId result.electionId createdAt.formatNano record input =
    .ok (some request)
  /-- The columns and fields are `int64`. -/
  inRange : IsInt64 result.electionId ∧ IsInt64 input.resultId ∧ IsInt64 input.policyVersionId

section Event

variable {sha256Hex : String → String} (e : AnchoredEvent sha256Hex)

/-- The anchor the gateway sends. -/
def AnchoredEvent.anchor : EvidenceAnchor := e.request.anchorPayload

theorem AnchoredEvent.request_eq :
    e.request = queuedRequest sha256Hex e.config e.id e.eventId
      (eventAnchor sha256Hex e.result.electionId e.createdAt.formatNano e.record e.input) := by
  have hqueued := e.queued
  unfold queueFabricAnchorForEventTx at hqueued
  split at hqueued
  · split at hqueued
    · split at hqueued
      · cases hqueued
      · cases hqueued
    · exact (Option.some.inj (Except.ok.inj hqueued)).symm
  · cases hqueued

theorem AnchoredEvent.anchor_eq :
    e.anchor = eventAnchor sha256Hex e.result.electionId e.createdAt.formatNano e.record e.input := by
  rw [AnchoredEvent.anchor, e.request_eq]
  rfl

theorem AnchoredEvent.request_anchorId : e.request.anchorId = e.anchor.anchorId := by
  rw [AnchoredEvent.anchor, e.request_eq]
  rfl

theorem AnchoredEvent.anchor_inRange : e.anchor.InRange := by
  have hversion : IsInt64 fabricAnchorSchemaVersion := by decide
  rw [e.anchor_eq]
  exact ⟨hversion, e.inRange.1, e.inRange.2.1, e.inRange.2.2⟩

/-- The text is read as it was written. -/
theorem AnchoredEvent.decoded : decodeAnchor (anchorPayloadJson e.anchor) = some e.anchor :=
  decodeAnchor_anchorPayloadJson e.anchor_inRange

end Event

/-- Both sides take the same digest. -/
theorem AnchoredEvent.anchorId_eq {env : ContractEnv} (e : AnchoredEvent env.sha256Hex) :
    e.anchor.anchorId = deterministicAnchorID env e.anchor := by
  rw [e.anchor_eq]
  exact (deterministicAnchorID_withId env _ _).symm

/-! ### What the contract wants of the signature -/

/-- A space is no letter of base64. -/
theorem value?_of_isSpace {c : Char} (h : isSpace c = true) : Base64.value? c = none := by
  have hle : ∀ a b : Char, a ≤ b ↔ a.toNat ≤ b.toNat := fun _ _ => Iff.rfl
  have hplus : c = '+' ↔ c.toNat = 43 := Char.toNat_inj.symm
  have hslash : c = '/' ↔ c.toNat = 47 := Char.toNat_inj.symm
  simp only [isSpace, List.contains_iff_mem, List.mem_cons, List.not_mem_nil, or_false,
    Bool.or_eq_true, Bool.and_eq_true, decide_eq_true_eq] at h
  simp only [Base64.value?, hle, hplus, hslash, show 'A'.toNat = 65 from rfl, show 'Z'.toNat = 90 from rfl,
    show 'a'.toNat = 97 from rfl, show 'z'.toNat = 122 from rfl, show '0'.toNat = 48 from rfl,
        show '9'.toNat = 57 from rfl]
  rw [if_neg (by omega), if_neg (by omega), if_neg (by omega), if_neg (by omega), if_neg (by omega)]

theorem trimSpace_ne_of_decode {text : String} {bytes : List UInt8} (h : Base64.decode text = some bytes)
    (hne : bytes ≠ []) :
    trimSpace text ≠ "" := by
  intro hblank
  exact hne (Base64.decode_eq_nil (fun c hc => value?_of_isSpace (Text.trim_eq_empty hblank c hc)) h)

/-- The signature verifies under the key. -/
def PublicKey.Verifies (env : ContractEnv) (digest : String) (signature : List UInt8) : PublicKey → Prop
  | .ecdsa key => env.verifyASN1 key digest signature = true
  | .rsa key => env.verifyPKCS1v15 key digest signature = none
  | .other _ => False

/-- The sender has signed the anchor, and its key id names the sender. -/
def SignedBySender (env : ContractEnv) (identity : ClientIdentity) (a : EvidenceAnchor) : Prop :=
  ∃ cert invokerId, identity.certificate = .ok cert ∧ identity.id = .ok invokerId ∧
    signerKeyIDMatches env cert invokerId a.signerKeyId = true ∧
    ∃ signature, Base64.decode a.signature = some signature ∧ signature ≠ [] ∧
      cert.publicKey.Verifies env (canonicalSigningDigest env a) signature

theorem verifySignatureOverAnchor_eq_ok {env : ContractEnv} {cert : Certificate} {a : EvidenceAnchor} :
    verifySignatureOverAnchor env cert a = .ok () ↔
      ∃ signature, Base64.decode a.signature = some signature ∧ signature ≠ [] ∧
        cert.publicKey.Verifies env (canonicalSigningDigest env a) signature := by
  simp only [verifySignatureOverAnchor, bind_eq_ok, fetch_eq_ok, require_eq_ok, Bool.not_eq_true',
    List.isEmpty_eq_false_iff]
  constructor
  · rintro ⟨signature, hdecode, _, hne, hverified⟩
    refine ⟨signature, hdecode, hne, ?_⟩
    cases hkey : cert.publicKey with
    | ecdsa key =>
        rw [hkey] at hverified
        exact require_eq_ok.mp hverified
    | rsa key =>
        rw [hkey] at hverified
        exact wrapped_eq_ok.mp hverified
    | other typeName =>
        rw [hkey] at hverified
        cases hverified
  · rintro ⟨signature, hdecode, hne, hverifies⟩
    refine ⟨signature, hdecode, (), hne, ?_⟩
    cases hkey : cert.publicKey with
    | ecdsa key =>
        rw [hkey] at hverifies
        exact require_eq_ok.mpr hverifies
    | rsa key =>
        rw [hkey] at hverifies
        exact wrapped_eq_ok.mpr hverifies
    | other typeName =>
        rw [hkey] at hverifies
        exact hverifies.elim

theorem verifyAnchorSignature_eq_ok {env : ContractEnv} {identity : ClientIdentity} {a : EvidenceAnchor} :
    verifyAnchorSignature env identity a = .ok () ↔ SignedBySender env identity a := by
  simp only [verifyAnchorSignature, bind_eq_ok, relabel_eq_ok, require_eq_ok, verifySignatureOverAnchor_eq_ok]
  constructor
  · rintro ⟨cert, hcert, id, hid, _, hmatches, hsigned⟩
    exact ⟨cert, id, hcert, hid, hmatches, hsigned⟩
  · rintro ⟨cert, id, hcert, hid, hmatches, hsigned⟩
    exact ⟨cert, hcert, id, hid, (), hmatches, hsigned⟩

/-! ### Agreement -/

section Agreement

variable {env : ContractEnv} {ctx : TxContext} {s : ContractState} {e : AnchoredEvent env.sha256Hex}

/-- The contract reads the fields back, has the same id for them, and takes the anchor. -/
structure Agrees (env : ContractEnv) (ctx : TxContext) (s : ContractState)
    (e : AnchoredEvent env.sha256Hex) : Prop where
  fields : decodeAnchor (anchorPayloadJson e.anchor) = some e.anchor
  anchorId : e.request.anchorId = deterministicAnchorID env e.anchor
  accepted : ∃ s' r, createAnchor env ctx s (anchorPayloadJson e.anchor) = .ok (s', r)

/-- The numbers and the time of the event are of the kind the contract takes. -/
structure PlainEvent (e : AnchoredEvent env.sha256Hex) : Prop where
  electionId : 0 < e.result.electionId
  policyVersionId : 0 ≤ e.input.policyVersionId
  createdAt : e.createdAt.year ≤ 9999

theorem plainEvent_of_validAnchor (h : ValidAnchor e.anchor) : PlainEvent e := by
  rw [e.anchor_eq] at h
  exact ⟨h.electionId, h.policyVersionId, (valid_formatNano_iff _).mp h.createdAt⟩

/-- The rest of the format the backend sees to, or the signature. -/
theorem validAnchor_of_plainEvent (hsha : ∀ text, isSHA256Hex (env.sha256Hex text) = true)
    {identity : ClientIdentity} (hsigned : SignedBySender env identity e.anchor) (h : PlainEvent e) :
    ValidAnchor e.anchor := by
  obtain ⟨hresult, ⟨eventText, hevent⟩, ⟨payloadText, hpayload⟩, hprior⟩ :=
    recordIntegrityEventTx_hashes (eventsHashed_of_run e.start_empty e.writes) e.recorded
  obtain ⟨cert, invokerId, -, -, hmatches, signature, hdecode, hne, -⟩ := hsigned
  have hid : isSHA256Hex e.anchor.anchorId = true := by
    rw [e.anchorId_eq]
    exact hsha _
  have hkeyId : trimSpace e.anchor.signerKeyId ≠ "" := by
    rw [signerKeyIDMatches, Bool.and_eq_true] at hmatches
    exact bne_iff_ne.mp hmatches.1
  have hsignature := trimSpace_ne_of_decode hdecode hne
  rw [e.anchor_eq] at hid hkeyId hdecode hsignature ⊢
  refine ⟨rfl, Or.inl rfl, h.electionId, fun _ => hresult, ?_, ?_, hsignature, hkeyId, ?_, h.policyVersionId,
    (valid_formatNano_iff _).mpr h.createdAt⟩
  · intro field hfield
    simp only [digestFields, List.mem_cons, List.not_mem_nil, or_false] at hfield
    rcases hfield with rfl | rfl | rfl
    · exact hid
    · show isSHA256Hex e.record.eventHash = true
      rw [hevent]
      exact hsha _
    · show isSHA256Hex e.record.payloadSha256 = true
      rw [hpayload]
      exact hsha _
  · rcases hprior with hprior | ⟨text, hprior⟩
    · exact Or.inl hprior
    · refine Or.inr ?_
      show isSHA256Hex e.record.priorEventHash = true
      rw [hprior]
      exact hsha _
  · rw [hdecode]
    rfl

/-- What the contract takes it has checked. -/
theorem Agrees.signedBySender (h : Agrees env ctx s e) :
    SignedBySender env ctx.identity e.anchor ∧ PlainEvent e := by
  obtain ⟨hfields, -, s', r, hcreated⟩ := h
  obtain ⟨_, a, haccepted, -⟩ := createAnchor_accepted hcreated
  obtain ⟨_, -, haccepted⟩ := acceptedAnchor_eq_ok.mp haccepted
  obtain rfl : e.anchor = a := Option.some.inj (hfields.symm.trans haccepted.decoded)
  exact ⟨verifyAnchorSignature_eq_ok.mp haccepted.signed, plainEvent_of_validAnchor haccepted.valid⟩

/-- An accepted anchor goes into a sound state, or is there already. -/
theorem createAnchor_of_accepted (hs : StoreSound env s) {json caller : String} {a : EvidenceAnchor}
    (haccepted : acceptedAnchor env ctx s json = .ok (caller, a)) (hworks : ctx.Works) :
    ∃ s' r, createAnchor env ctx s json = .ok (s', r) := by
  by_cases hvalue : s.value (anchorStatePrefix ++ a.anchorId) = ""
  · obtain ⟨s', r, hcreated, -⟩ := createAnchor_new haccepted hvalue hworks
    exact ⟨s', r, hcreated⟩
  · have hmem := mem_writes_of_value hvalue
    obtain ⟨g, stored, -, hstored, hid, hjson⟩ := hs.anchor_of_mem hmem
    rw [hjson, hid] at hmem
    exact ⟨s, _, createAnchor_stored hs haccepted hstored.inRange hmem hid hworks.getState⟩

/-- Backend and contract agree on an event that is sent by a member of the consortium exactly if the signature
the integrity service gave for the hash of the event is one of the sender over the digest of the anchor, the key
id names the sender, and the election, the policy and the time are plain. -/
theorem agrees_iff_signedBySender (hsha : ∀ text, isSHA256Hex (env.sha256Hex text) = true)
    (calls : List (TxContext × ContractCall)) (hworks : ctx.Works) {g : FabricGovernance} {caller : String}
    (hgovernance : readGovernance ctx (Runs.final (contractStep env) .empty calls) = .ok g)
    (hcaller : ctx.identity.mspId = .ok caller) (hmember : caller ∈ g.consortiumMsps)
    (e : AnchoredEvent env.sha256Hex) :
    Agrees env ctx (Runs.final (contractStep env) .empty calls) e ↔
      SignedBySender env ctx.identity e.anchor ∧ PlainEvent e := by
  have hsound := storeSound_of_run env calls _ (Runs.final_mem_visited _ _)
  refine ⟨Agrees.signedBySender, ?_⟩
  intro ⟨hsigned, hplain⟩
  have haccepted : Accepted env ctx.identity g (anchorPayloadJson e.anchor) caller e.anchor :=
    ⟨hcaller, hmember, e.decoded, validAnchor_of_plainEvent hsha hsigned hplain, e.anchorId_eq,
      verifyAnchorSignature_eq_ok.mpr hsigned⟩
  refine ⟨e.decoded, ?_, createAnchor_of_accepted hsound
    (acceptedAnchor_eq_ok.mpr ⟨g, hgovernance, haccepted⟩) hworks⟩
  exact e.request_anchorId.trans e.anchorId_eq

end Agreement

/-! ### Two signers -/

section Signers

/-- A database with one result. -/
def resultOnFile : Tables := { Tables.empty with results := [.bare 7 1 "37-01-01-001" .pending] }

/-- Signing is required, and the service answers with that signature and key id. -/
def signerEnv (signature keyId : String) : Env :=
  { Env.plain 1 "officer" .admin 0 with
    integritySigningRequired := true
    integrityServiceToken := "token"
    callSign := fun hash => .ok ⟨hash, signature, keyId⟩ }

def firstSubmission : IntegrityEventInput := ⟨7, "RESULT_SUBMITTED", 0, 0, "public", .obj [], .obj [], 1⟩

def gatewayConfig : GatewayConfig :=
  ⟨true, true, "peer0.org1:7051", "ca.pem", "cert.pem", "key.pem", "Org1MSP", "evidence", "evidence-anchor", ""⟩

/-- What is recorded of the event. -/
def firstSubmissionRow (signature keyId : String) : EvidenceEvent :=
  evidenceRow Sha256.hex firstSubmission none ⟨signature, keyId, "signed"⟩

def firstSubmissionRecord (signature keyId : String) : IntegrityEventRecord where
  sequenceNo := 1
  eventHash := (firstSubmissionRow signature keyId).eventHash
  priorEventHash := ""
  payloadSha256 := (firstSubmissionRow signature keyId).payloadSha256
  signature := signature
  signerKeyId := keyId
  signerStatus := "signed"

theorem firstSubmission_recorded {signature keyId : String} (hsignature : signature ≠ "") (hkeyId : keyId ≠ "") :
    recordIntegrityEventTx Sha256.hex (signerEnv signature keyId) resultOnFile firstSubmission =
      .ok ({ resultOnFile with evidenceEvents := [firstSubmissionRow signature keyId] },
        firstSubmissionRecord signature keyId) := by
  have hsigned : ∀ hash, signIntegrityHash (signerEnv signature keyId) hash = .ok ⟨signature, keyId, "signed"⟩ := by
    intro hash
    have hcomplete : (hash == hash && signature != "" && keyId != "") = true := by simp [hsignature, hkeyId]
    simp only [signIntegrityHash, signerEnv, if_true, bind_eq_ok, require_eq_ok, pure_eq_ok]
    exact ⟨(), rfl, _, rfl, (), hcomplete, rfl⟩
  simp only [recordIntegrityEventTx, hsigned, bind_eq_ok, fetch_eq_ok, pure_eq_ok]
  exact ⟨(), rfl, _, rfl, (), rfl, _, rfl, _, rfl, (), rfl, rfl⟩

/-- That event on its way. -/
def submittedAnchor (signature keyId : String) (hsignature : signature ≠ "") (hkeyId : keyId ≠ "") :
    AnchoredEvent shaEnv.sha256Hex where
  start := resultOnFile
  start_empty := rfl
  writes := []
  env := signerEnv signature keyId
  input := firstSubmission
  db' := _
  record := firstSubmissionRecord signature keyId
  recorded := firstSubmission_recorded hsignature hkeyId
  result := .bare 7 1 "37-01-01-001" .pending
  result_found := rfl
  createdAt := .ofFields 2027 2 20 15 0 0 0 (by decide)
  config := gatewayConfig
  id := 1
  eventId := 1
  request := _
  queued := by
    have hsigned : ¬(signature = "" ∨ "signed" ≠ "signed" ∨ keyId = "") := by simp [hsignature, hkeyId]
    exact (if_pos rfl).trans (if_neg hsigned)
  inRange := by decide

/-- An Ed25519 signature has 64 bytes, and they are no DER sequence. -/
def ed25519Signature : String := String.ofList ((List.replicate 21 "ERER".toList).flatten ++ "EQ==".toList)

theorem ed25519Signature_ne_empty : ed25519Signature ≠ "" := by decide

section

variable {signature keyId : String} {hsignature : signature ≠ ""} {hkeyId : keyId ≠ ""}

theorem submittedAnchor_signature :
    (submittedAnchor signature keyId hsignature hkeyId).anchor.signature = signature := rfl

theorem submittedAnchor_signerKeyId :
    (submittedAnchor signature keyId hsignature hkeyId).anchor.signerKeyId = keyId := rfl

end

theorem matches_gateway (invokerId : String) (cert : Certificate) (hcert : cert.commonName = "gateway.Org1MSP") :
    signerKeyIDMatches shaEnv cert invokerId "gateway.Org1MSP" = true := by
  have hname : trimSpace "gateway.Org1MSP" = "gateway.Org1MSP" := by decide
  rw [signerKeyIDMatches, hname, hcert]
  rfl

/-- A service that signs the anchor with the key of the gateway, under its name, is what the contract wants. -/
theorem agrees_iff_signedBySender_gateway :
    Agrees shaEnv (memberContext "Org1MSP" "tx2") (Runs.final (contractStep shaEnv) .empty governed)
      (submittedAnchor "MAY=" "gateway.Org1MSP" (by decide) (by decide)) := by
  have hmember : "Org1MSP" ∈ consortium.consortiumMsps := by decide
  have hiff := @agrees_iff_signedBySender shaEnv (memberContext "Org1MSP" "tx2") isSHA256Hex_hex governed
    (memberContext_works _ _) consortium "Org1MSP" (readGovernance_governed _ _) rfl hmember
    (submittedAnchor "MAY=" "gateway.Org1MSP" (by decide) (by decide))
  refine hiff.mpr ⟨⟨_, _, rfl, rfl, ?_, [0x30, 0x06], ?_, by decide, rfl⟩, by decide, by decide, by decide⟩
  · rw [submittedAnchor_signerKeyId]
    exact matches_gateway _ _ rfl
  · rw [submittedAnchor_signature]
    decide

/-- The integrity service signs with Ed25519, and under the name of the gateway too its signature is refused. -/
theorem integrity_signature_refused :
    ¬Agrees shaEnv (memberContext "Org1MSP" "tx2") (Runs.final (contractStep shaEnv) .empty governed)
      (submittedAnchor ed25519Signature "gateway.Org1MSP" ed25519Signature_ne_empty (by decide)) := by
  intro h
  obtain ⟨cert, invokerId, hcert, -, -, signature, hdecode, -, hverifies⟩ := h.signedBySender.1
  obtain rfl := Except.ok.inj hcert
  rw [submittedAnchor_signature] at hdecode
  have hder : signature = [0x30, 0x06] := by
    have hboth : ("Org1MSP" ++ " key" == "Org1MSP key" && signature == [0x30, 0x06]) = true := hverifies
    rw [Bool.and_eq_true] at hboth
    exact beq_iff_eq.mp hboth.2
  have hother : Base64.decode ed25519Signature ≠ some [0x30, 0x06] := by decide +kernel
  exact hother (hder ▸ hdecode)

end Signers

end Inec
