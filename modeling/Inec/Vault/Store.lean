import Inec.Lib.Rows
import Inec.Lib.Runs
import Inec.Lib.Statements
import Mathlib.Data.List.Sort

/-!
# The biometric template vault

`biometric-rust/src/vault.rs`. The vault keeps its keys, wrapped under the master key, and the templates, each
encrypted under one of the keys, in two tables. A call sends statements to the database; each of them may be
refused, and a write may also take effect and its answer be lost. A call that meets an error returns it at once,
so a crash is an error nobody hears of.

`rotate_key` is taken statement by statement: a rotation on its way is part of the state, and can be cut off
before every statement. The other calls are made while none is on its way.

AES-256-GCM, HKDF and HMAC come from crates and are parameters. The audit trail is written besides and is left
out, and so is the random master key of a development environment: the vault has the master key it was
configured with.
-/

namespace Inec.Vault

abbrev Bytes := List UInt8

/-- The crates. The key, the nonce and the associated data come before the message, the salt before the input
key. -/
structure Primitives where
  encrypt : Bytes → Bytes → Bytes → Bytes → Option Bytes
  decrypt : Bytes → Bytes → Bytes → Bytes → Option Bytes
  expand : Bytes → Bytes → Bytes → Option Bytes
  hmac : Bytes → Bytes → String

/-- The cipher decrypts what it encrypted under the same key, nonce and associated data. -/
def Primitives.DecryptsEncrypted (p : Primitives) : Prop :=
  ∀ key nonce aad msg ciphertext, p.encrypt key nonce aad msg = some ciphertext →
    p.decrypt key nonce aad ciphertext = some msg

inductive VaultError
  | encryptionFailed
  | decryptionFailed (detail : String)
  | keyNotFound (detail : String)
  | keyRevoked (keyId : String)
  | templateNotFound (templateId : String)
  | integrityCheckFailed
  | databaseError
  deriving DecidableEq, Repr

inductive KeyPurpose
  | templateEncryption
  | signing
  | keyWrapping
  deriving DecidableEq, Repr

def KeyPurpose.asStr : KeyPurpose → String
  | .templateEncryption => "template_encryption"
  | .signing => "integrity_hmac"
  | .keyWrapping => "key_wrapping"

/-- A nonce or a salt as it is drawn. -/
abbrev Drawn (n : Nat) := { bytes : Bytes // bytes.length = n }

/-- A row of `vault_keys`. -/
structure KeyRow where
  keyId : String
  purpose : KeyPurpose
  encryptedKey : Bytes
  keyVersion : Nat
  isActive : Bool
  isRevoked : Bool
  createdAt : Nat
  deriving DecidableEq, Repr

/-- A row of `vault_templates`. -/
structure TemplateRow where
  templateId : String
  voterVin : String
  modality : String
  keyId : String
  ciphertext : Bytes
  nonce : Bytes
  integrityHash : String
  version : Nat
  deriving DecidableEq, Repr

/-- A key as the vault holds it in memory. -/
structure VaultKey where
  keyId : String
  purpose : KeyPurpose
  isActive : Bool
  isRevoked : Bool
  keyVersion : Nat
  keyMaterial : Bytes
  deriving DecidableEq, Repr

structure Tables where
  keys : List KeyRow
  templates : List TemplateRow
  deriving DecidableEq, Repr

/-! ### Keys -/

namespace Primitives

variable (p : Primitives) (masterKey : Bytes)

def wrapKeyMaterial (nonce : Drawn 12) (keyMaterial : Bytes) : Except VaultError Bytes :=
  match p.encrypt masterKey nonce [] keyMaterial with
  | some encrypted => .ok (nonce.val ++ encrypted)
  | none => .error .encryptionFailed

def unwrapKeyMaterial (wrapped : Bytes) : Except VaultError Bytes :=
  if wrapped.length < 12 then .error (.decryptionFailed "wrapped key too short")
  else
    match p.decrypt masterKey (wrapped.take 12) [] (wrapped.drop 12) with
    | some material => .ok material
    | none => .error (.decryptionFailed "aead::Error")

theorem unwrap_wrap (hp : p.DecryptsEncrypted) {nonce : Drawn 12} {material wrapped : Bytes}
    (h : p.wrapKeyMaterial masterKey nonce material = .ok wrapped) :
    p.unwrapKeyMaterial masterKey wrapped = .ok material := by
  unfold wrapKeyMaterial at h
  cases hencrypt : p.encrypt masterKey nonce [] material with
  | none =>
      rw [hencrypt] at h
      cases h
  | some encrypted =>
      rw [hencrypt] at h
      cases h
      have hlength := nonce.property
      have hshort : ¬ (nonce.val ++ encrypted).length < 12 := by
        rw [List.length_append]
        omega
      have htake : (nonce.val ++ encrypted).take 12 = nonce.val := List.take_left' hlength
      have hdrop : (nonce.val ++ encrypted).drop 12 = encrypted := List.drop_left' hlength
      unfold unwrapKeyMaterial
      rw [if_neg hshort, htake, hdrop, hp _ _ _ _ _ hencrypt]

end Primitives

/-- What `generate_key` draws: the id, the salt and the nonce of the wrapping. -/
structure KeyDraw where
  uuid : String
  salt : Drawn 32
  wrapNonce : Drawn 12

/-- How the database answers the statements of a call. -/
structure Answers where
  reads : Bool
  writes : Bool
  commits : Statements.CommitReply

def Answers.good : Answers := ⟨true, true, .done⟩

namespace Tables

variable (p : Primitives) (masterKey : Bytes) (t : Tables)

def key? (keyId : String) : Option KeyRow := t.keys.find? fun k => k.keyId == keyId

def template? (templateId : String) : Option TemplateRow := t.templates.find? fun r => r.templateId == templateId

/-- `INSERT INTO vault_keys`. The id is the primary key. -/
def insertKey (row : KeyRow) : Option Tables :=
  if row.keyId ∈ t.keys.map (·.keyId) then none else some { t with keys := t.keys ++ [row] }

/-- The row that `generate_key` is about to insert. -/
def newKey (purpose : KeyPurpose) (draw : KeyDraw) (now : Nat) : Except VaultError KeyRow :=
  let keyId := "key-" ++ draw.uuid
  match p.expand draw.salt masterKey keyId.toUTF8.toList with
  | none => .error .encryptionFailed
  | some keyMaterial => do
      let encryptedKey ← p.wrapKeyMaterial masterKey draw.wrapNonce keyMaterial
      return ⟨keyId, purpose, encryptedKey, 1, true, false, now⟩

def generateKey (purpose : KeyPurpose) (draw : KeyDraw) (now : Nat) (answers : Answers) :
    Tables × Except VaultError String :=
  match newKey p masterKey purpose draw now with
  | .error e => (t, .error e)
  | .ok row =>
      let (t', told) := Statements.commit t (t.insertKey row) answers.commits
      (t', if told then .ok row.keyId else .error .databaseError)

def isActiveFor (purpose : KeyPurpose) (k : KeyRow) : Bool :=
  decide (k.purpose = purpose) && k.isActive && !k.isRevoked

/-- The rows that the queries for active keys find. -/
def activeKeys : List KeyRow := t.keys.filter (isActiveFor .templateEncryption)

/-- The row with the material it wraps. -/
def unwrapped (k : KeyRow) : Except VaultError VaultKey := do
  let keyMaterial ← p.unwrapKeyMaterial masterKey k.encryptedKey
  return ⟨k.keyId, k.purpose, k.isActive, k.isRevoked, k.keyVersion, keyMaterial⟩

def loadKey (reads : Bool) (keyId : String) : Except VaultError VaultKey :=
  if !reads then .error .databaseError
  else
    match t.key? keyId with
    | none => .error (.keyNotFound keyId)
    | some k => unwrapped p masterKey k

def getActiveKey (reads : Bool) (purpose : KeyPurpose) : Except VaultError VaultKey :=
  if !reads then .error .databaseError
  else
    match Rows.maxBy (fun k : KeyRow => (k.createdAt : Int)) (t.keys.filter (isActiveFor purpose)) with
    | none => .error (.keyNotFound ("no active key for " ++ purpose.asStr))
    | some k => unwrapped p masterKey k

/-- `init`. -/
def init (draw : KeyDraw) (now : Nat) (answers : Answers) : Tables × Except VaultError Unit :=
  if !answers.reads then (t, .error .databaseError)
  else if t.activeKeys.length = 0 then
    let (t', result) := t.generateKey p masterKey .templateEncryption draw now answers
    (t', result.map fun _ => ())
  else (t, .ok ())

/-! ### Templates -/

/-- The associated data of a template. -/
def aad (voterVin modality : String) : Bytes := (voterVin ++ ":" ++ modality).toUTF8.toList

def modalities : List String := ["fingerprint", "face", "iris"]

/-- `INSERT INTO vault_templates ... ON CONFLICT (template_id) DO UPDATE`. -/
def upsertTemplate (row : TemplateRow) : Option Tables :=
  if row.modality ∉ modalities then none
  else if row.templateId ∈ t.templates.map (·.templateId) then
    some
      { t with
        templates := Rows.update (·.templateId) row.templateId
          (fun r =>
            { r with
              ciphertext := row.ciphertext
              nonce := row.nonce
              keyId := row.keyId
              integrityHash := row.integrityHash
              version := r.version + 1 }) t.templates }
  else some { t with templates := t.templates ++ [row] }

/-- The row that `encrypt_template` is about to insert. -/
def sealTemplate (key : VaultKey) (voterVin modality : String) (templateData : Bytes) (uuid : String)
    (nonce : Drawn 12) : Except VaultError TemplateRow :=
  match p.encrypt key.keyMaterial nonce (aad voterVin modality) templateData with
  | none => .error .encryptionFailed
  | some ciphertext =>
      .ok ⟨"tmpl-" ++ uuid, voterVin, modality, key.keyId, ciphertext, nonce, p.hmac key.keyMaterial ciphertext, 1⟩

def encryptTemplate (voterVin modality : String) (templateData : Bytes) (uuid : String) (nonce : Drawn 12)
    (answers : Answers) : Tables × Except VaultError TemplateRow :=
  match t.getActiveKey p masterKey answers.reads .templateEncryption with
  | .error e => (t, .error e)
  | .ok key =>
      match sealTemplate p key voterVin modality templateData uuid nonce with
      | .error e => (t, .error e)
      | .ok row =>
          let (t', told) := Statements.commit t (t.upsertTemplate row) answers.commits
          (t', if told then .ok row else .error .databaseError)

/-- The integrity check and the decryption of a row. -/
def decryptWithKey (key : VaultKey) (row : TemplateRow) : Except VaultError Bytes :=
  if p.hmac key.keyMaterial row.ciphertext ≠ row.integrityHash then .error .integrityCheckFailed
  else if row.nonce.length ≠ 12 then .error (.decryptionFailed "invalid nonce length")
  else
    match p.decrypt key.keyMaterial row.nonce (aad row.voterVin row.modality) row.ciphertext with
    | some plaintext => .ok plaintext
    | none => .error (.decryptionFailed "aead::Error")

def decryptTemplate (reads : Bool) (templateId : String) : Except VaultError Bytes :=
  if !reads then .error .databaseError
  else
    match t.template? templateId with
    | none => .error (.templateNotFound templateId)
    | some row =>
        match t.loadKey p masterKey reads row.keyId with
        | .error e => .error e
        | .ok key => if key.isRevoked then .error (.keyRevoked row.keyId) else decryptWithKey p key row

def withoutVoter (voterVin : String) : Tables :=
  { t with templates := t.templates.filter fun r => r.voterVin != voterVin }

def eraseVoterTemplates (voterVin : String) (answers : Answers) : Tables :=
  (Statements.commit t (some (t.withoutVoter voterVin)) answers.commits).1

/-! ### Retiring keys -/

/-- The update of `rotate_key` on the old key. -/
def retireKey (keyId : String) : Tables :=
  { t with
    keys := Rows.update (·.keyId) keyId
      (fun k =>
        { k with
          isActive := false
          keyVersion := k.keyVersion + 1 }) t.keys }

def withRevoked (keyId : String) : Tables :=
  { t with
    keys := Rows.update (·.keyId) keyId
      (fun k =>
        { k with
          isRevoked := true
          isActive := false }) t.keys }

def revokeKey (keyId : String) (answers : Answers) : Tables :=
  (Statements.commit t (some (t.withRevoked keyId)) answers.commits).1

/-! ### The batches of a rotation -/

def pageSize : Nat := 500

def onKey (keyId : String) : List TemplateRow := t.templates.filter fun r => r.keyId == keyId

/-- `SELECT ... WHERE key_id = $1 ORDER BY template_id LIMIT $2`. -/
def page (keyId : String) : List TemplateRow :=
  ((t.onKey keyId).insertionSort fun a b => a.templateId ≤ b.templateId).take pageSize

/-- The row under the new key. -/
def resealed (newKey : VaultKey) (newCiphertext : Bytes) (nonce : Drawn 12) (r : TemplateRow) : TemplateRow :=
  { r with
    keyId := newKey.keyId
    ciphertext := newCiphertext
    nonce := nonce
    integrityHash := p.hmac newKey.keyMaterial newCiphertext
    version := r.version + 1 }

def withSealed (newKey : VaultKey) (templateId : String) (newCiphertext : Bytes) (nonce : Drawn 12) : Tables :=
  { t with templates := Rows.update (·.templateId) templateId (resealed p newKey newCiphertext nonce) t.templates }

/-- The transaction for one row of a page, which was read before the row was locked. -/
def rotateTemplate (oldKey newKey : VaultKey) (row : TemplateRow) (nonce : Drawn 12) (answers : Answers) :
    Tables × Except VaultError Unit :=
  if !answers.reads then (t, .error .databaseError)
  else if (t.template? row.templateId).any (fun current => current.keyId == oldKey.keyId) then
    match decryptWithKey p oldKey row with
    | .error e => (t, .error e)
    | .ok plaintext =>
        match p.encrypt newKey.keyMaterial nonce (aad row.voterVin row.modality) plaintext with
        | none => (t, .error .encryptionFailed)
        | some newCiphertext =>
            let update := fun t : Tables => some (t.withSealed p newKey row.templateId newCiphertext nonce)
            let (t', told) := Statements.commit t (Statements.exec answers.writes update (some t)) answers.commits
            (t', if told then .ok () else .error .databaseError)
  else (t, if answers.writes then .ok () else .error .databaseError)

end Tables

/-! ### Runs -/

/-- Where a rotation stands. A page whose rows are done is followed by the next `SELECT`. -/
inductive Stage
  | generate
  | loadNew (newKeyId : String)
  | retire (newKey : VaultKey)
  | page (newKey : VaultKey) (rows : List TemplateRow)
  deriving DecidableEq, Repr

structure KeyRotation where
  oldKey : VaultKey
  stage : Stage
  deriving DecidableEq, Repr

structure State where
  tables : Tables
  rotation : Option KeyRotation
  /-- The templates that were stored and not erased, with what was in them. -/
  enrolled : List (String × String × Bytes)
  /-- The keys whose rotation has returned `Ok`. -/
  rotated : List String
  deriving DecidableEq, Repr

def empty : State := ⟨⟨[], []⟩, none, [], []⟩

/-- What a statement of a rotation may need. -/
structure Turn where
  draw : KeyDraw
  nonce : Drawn 12
  now : Nat
  answers : Answers

inductive Action
  | init (draw : KeyDraw) (now : Nat) (answers : Answers)
  | generateKey (purpose : KeyPurpose) (draw : KeyDraw) (now : Nat) (answers : Answers)
  | encryptTemplate (voterVin modality : String) (templateData : Bytes) (uuid : String) (nonce : Drawn 12)
      (answers : Answers)
  | rotateKey (keyId : String) (answers : Answers)
  | carryOn (turn : Turn)
  | crash
  | revokeKey (keyId : String) (answers : Answers)
  | eraseVoterTemplates (voterVin : String) (answers : Answers)

namespace State

variable (p : Primitives) (masterKey : Bytes) (s : State)

/-- What a call of `encrypt_template` has stored: the rows that were not there before. -/
def logStored (t : Tables) (voterVin : String) (templateData : Bytes) : State :=
  { s with
    tables := t
    enrolled := s.enrolled ++
      ((t.templates.filter fun r => decide (r.templateId ∉ s.tables.templates.map (·.templateId))).map
        fun r => (r.templateId, voterVin, templateData)) }

/-- The next statement of the rotation that is on its way. -/
def carryOn (turn : Turn) : State :=
  match s.rotation with
  | none => s
  | some ⟨oldKey, .generate⟩ =>
      let (t, result) := s.tables.generateKey p masterKey .templateEncryption turn.draw turn.now turn.answers
      { s with
        tables := t
        rotation :=
          match result with
          | .ok newKeyId => some ⟨oldKey, .loadNew newKeyId⟩
          | .error _ => none }
  | some ⟨oldKey, .loadNew newKeyId⟩ =>
      { s with
        rotation :=
          match s.tables.loadKey p masterKey turn.answers.reads newKeyId with
          | .ok newKey => some ⟨oldKey, .retire newKey⟩
          | .error _ => none }
  | some ⟨oldKey, .retire newKey⟩ =>
      let (t, told) := Statements.commit s.tables (some (s.tables.retireKey oldKey.keyId)) turn.answers.commits
      { s with
        tables := t
        rotation := if told then some ⟨oldKey, .page newKey []⟩ else none }
  | some ⟨oldKey, .page newKey []⟩ =>
      if !turn.answers.reads then { s with rotation := none }
      else
        match s.tables.page oldKey.keyId with
        | [] =>
            { s with
              rotation := none
              rotated := s.rotated ++ [oldKey.keyId] }
        | rows => { s with rotation := some ⟨oldKey, .page newKey rows⟩ }
  | some ⟨oldKey, .page newKey (row :: rest)⟩ =>
      let (t, result) := s.tables.rotateTemplate p oldKey newKey row turn.nonce turn.answers
      { s with
        tables := t
        rotation :=
          match result with
          | .ok _ => some ⟨oldKey, .page newKey rest⟩
          | .error _ => none }

/-- A call that is made while no rotation is on its way. -/
def act : Action → State
  | .init draw now answers => { s with tables := (s.tables.init p masterKey draw now answers).1 }
  | .generateKey purpose draw now answers =>
      { s with tables := (s.tables.generateKey p masterKey purpose draw now answers).1 }
  | .encryptTemplate voterVin modality templateData uuid nonce answers =>
      s.logStored (s.tables.encryptTemplate p masterKey voterVin modality templateData uuid nonce answers).1 voterVin
        templateData
  | .rotateKey keyId answers =>
      match s.tables.loadKey p masterKey answers.reads keyId with
      | .error _ => s
      | .ok oldKey => if oldKey.isRevoked then s else { s with rotation := some ⟨oldKey, .generate⟩ }
  | .revokeKey keyId answers => { s with tables := s.tables.revokeKey keyId answers }
  | .eraseVoterTemplates voterVin answers =>
      { s with
        tables := s.tables.eraseVoterTemplates voterVin answers
        enrolled :=
          if answers.commits = .refused then s.enrolled else s.enrolled.filter fun e => e.2.1 != voterVin }
  | .carryOn _ => s
  | .crash => s

def step : Action → State
  | .carryOn turn => s.carryOn p masterKey turn
  | .crash => { s with rotation := none }
  | action => if s.rotation.isSome then s else s.act p masterKey action

/-- `Uuid::new_v4` does not draw the id of a stored template. -/
def Draws (s : State) : Action → Prop
  | .encryptTemplate _ _ _ uuid _ _ => "tmpl-" ++ uuid ∉ s.tables.templates.map (·.templateId)
  | _ => True

instance : (s : State) → (action : Action) → Decidable (s.Draws action)
  | s, .encryptTemplate _ _ _ uuid _ _ =>
      inferInstanceAs (Decidable ("tmpl-" ++ uuid ∉ s.tables.templates.map (·.templateId)))
  | _, .init .. | _, .generateKey .. | _, .rotateKey .. | _, .carryOn _ | _, .crash | _, .revokeKey ..
  | _, .eraseVoterTemplates .. => .isTrue trivial

/-- The statements a rotation may still need. -/
def work : Nat :=
  match s.rotation with
  | none => 0
  | some ⟨oldKey, .generate⟩ => 2 * (s.tables.onKey oldKey.keyId).length + 4
  | some ⟨oldKey, .loadNew _⟩ => 2 * (s.tables.onKey oldKey.keyId).length + 3
  | some ⟨oldKey, .retire _⟩ => 2 * (s.tables.onKey oldKey.keyId).length + 2
  | some ⟨oldKey, .page _ []⟩ => 2 * (s.tables.onKey oldKey.keyId).length + 1
  | some ⟨oldKey, .page _ (_ :: _)⟩ => 2 * (s.tables.onKey oldKey.keyId).length

end State

/-- The ciphertext, the nonce, the tag and the key of a row belong together, and `plaintext` is inside. -/
structure SealedUnder (p : Primitives) (masterKey : Bytes) (k : KeyRow) (row : TemplateRow) (plaintext : Bytes) :
    Prop where
  keyId : row.keyId = k.keyId
  sealed : ∃ material, p.unwrapKeyMaterial masterKey k.encryptedKey = .ok material ∧
    p.encrypt material row.nonce (Tables.aad row.voterVin row.modality) plaintext = some row.ciphertext ∧
    row.integrityHash = p.hmac material row.ciphertext
  nonce : row.nonce.length = 12

end Inec.Vault
