import Inec.Lib.Runs
import Inec.Lib.Statements
import Mathlib.Data.List.Nodup
import Mathlib.Logic.Function.Basic

/-!
# The keys of the software HSM

`GenerateKey`, `Encrypt`, `Decrypt` and `RotateKey` of production_upgrades.go. A key is stored wrapped under the
master key and kept in a cache of the process. Once it is rotated it is neither in the cache nor read from its
row any more, since only active rows are: what was encrypted under it stays encrypted.

AES-GCM and `strings.ToUpper` are parameters, and so is what a call draws at random, what the clock says and
which statements take effect. The table is that of the migrations, where ids may repeat. Reads are taken to
work. Labels, usage counters and the operations log, which nothing here reads, are left out.
-/

namespace Inec.Hsm

abbrev KeyBytes := List UInt8

/-- What the packages do: `Seal` and `Open` for a key, a nonce and a message, and `strings.ToUpper`. -/
structure Packages where
  gcmSeal : KeyBytes → KeyBytes → KeyBytes → KeyBytes
  gcmOpen : KeyBytes → KeyBytes → KeyBytes → Option KeyBytes
  toUpper : KeyBytes → String

/-- The key lengths of AES. -/
def aesKey (key : KeyBytes) : Bool := key.length == 16 || key.length == 24 || key.length == 32

/-- What was sealed is opened with the same key and nonce. -/
def Packages.GcmCorrect (packages : Packages) : Prop :=
  ∀ key nonce message, aesKey key = true → packages.gcmOpen key nonce
    (packages.gcmSeal key nonce message) = some message

/-- As many bytes as a nonce has. -/
abbrev Nonce := { bytes : KeyBytes // bytes.length = 12 }

/-- The 32 bytes of `HSM_MASTER_KEY`. -/
abbrev MasterKey := { bytes : KeyBytes // bytes.length = 32 }

inductive KeyStatus
  | active
  | rotated
  deriving DecidableEq, Repr

/-- A row of `hsm_keys`. -/
structure HsmKey where
  keyId : String
  purpose : String
  algorithm : String
  keySize : Int
  encryptedMaterial : KeyBytes
  status : KeyStatus
  deriving DecidableEq, Repr

inductive HsmError
  | panicked
  | failed (text : String)
  deriving DecidableEq, Repr

def invalidKeySize (key : KeyBytes) : HsmError := .failed ("crypto/aes: invalid key size " ++ toString key.length)

def authenticationFailed : HsmError := .failed "cipher: message authentication failed"

/-- Something that `Encrypt` has given out. -/
structure Sealed where
  keyId : String
  plaintext : KeyBytes
  ciphertext : KeyBytes
  nonce : Nonce
  deriving DecidableEq, Repr

/-- The process and its table. `sealed` is what has been encrypted so far. -/
structure SoftwareHSM where
  masterKey : MasterKey
  keyCache : String → Option KeyBytes
  keys : List HsmKey
  sealed : List Sealed

/-- What a call of `GenerateKey` comes by. -/
structure GenerateEnv where
  unixNano : Int
  random : Except String (Nat → UInt8)
  wrapNonce : Nonce
  insert : Statements.CommitReply
  insertError : String

namespace SoftwareHSM

variable (packages : Packages) (s : SoftwareHSM)

def keyIdOf (purpose algorithm : String) (unixNano : Int) : String :=
  "HSM-" ++ packages.toUpper (purpose.toUTF8.data.toList.take 3) ++ "-" ++ algorithm ++ "-" ++ toString unixNano

def wrapKeyAESGCM (nonce : Nonce) (rawKey : KeyBytes) : Except HsmError KeyBytes :=
  if aesKey s.masterKey.val then .ok (nonce.val ++ packages.gcmSeal s.masterKey.val nonce.val rawKey)
  else .error (invalidKeySize s.masterKey.val)

/-- The row that `key_id = ? AND status = 'active'` finds. -/
def activeKey? (keyId : String) : Option HsmKey := s.keys.find? fun k => k.keyId == keyId && k.status == .active

def unwrapStoredKey (keyId : String) : Except HsmError KeyBytes :=
  match s.activeKey? keyId with
  | none => .error (.failed ("key not found: " ++ keyId))
  | some k =>
      if aesKey s.masterKey.val then
        if k.encryptedMaterial.length < 12 then .error (.failed "invalid encrypted key material")
        else
          match packages.gcmOpen s.masterKey.val (k.encryptedMaterial.take 12) (k.encryptedMaterial.drop 12) with
          | some rawKey => .ok rawKey
          | none => .error authenticationFailed
      else .error (invalidKeySize s.masterKey.val)

/-- `purpose[:3]` and `make` panic on what they cannot do. -/
def generateKey (purpose algorithm : String) (keySize : Int) (env : GenerateEnv) :
    SoftwareHSM × Except HsmError String :=
  if purpose.utf8ByteSize < 3 ∨ keySize.tdiv 8 < 0 then (s, .error .panicked)
  else
    let keyId := keyIdOf packages purpose algorithm env.unixNano
    match env.random with
    | .error cause => (s, .error (.failed ("CSPRNG failure: " ++ cause)))
    | .ok random =>
        let rawKey := (List.range (keySize.tdiv 8).toNat).map random
        match s.wrapKeyAESGCM packages env.wrapNonce rawKey with
        | .error e => (s, .error e)
        | .ok encKey =>
            let stored := s.keys ++ [⟨keyId, purpose, algorithm, keySize, encKey, .active⟩]
            match env.insert with
            | .done =>
                ({ s with keys := stored, keyCache := Function.update s.keyCache keyId (some rawKey) }, .ok keyId)
            | .refused => (s, .error (.failed env.insertError))
            | .lost => ({ s with keys := stored }, .error (.failed env.insertError))

/-- The key of the cache, or that of the row, which goes into the cache. -/
def keyFor (keyId : String) : SoftwareHSM × Except HsmError KeyBytes :=
  match s.keyCache keyId with
  | some rawKey => (s, .ok rawKey)
  | none =>
      match s.unwrapStoredKey packages keyId with
      | .error e => (s, .error e)
      | .ok rawKey => ({ s with keyCache := Function.update s.keyCache keyId (some rawKey) }, .ok rawKey)

def encrypt (keyId : String) (plaintext : KeyBytes) (nonce : Nonce) :
    SoftwareHSM × Except HsmError (KeyBytes × Nonce) :=
  match s.keyFor packages keyId with
  | (s', .error e) => (s', .error e)
  | (s', .ok rawKey) =>
      if aesKey rawKey then
        let ciphertext := packages.gcmSeal rawKey nonce.val plaintext
        ({ s' with sealed := s'.sealed ++ [⟨keyId, plaintext, ciphertext, nonce⟩] }, .ok (ciphertext, nonce))
      else (s', .error (invalidKeySize rawKey))

/-- `Open` panics on a nonce of another length. -/
def decrypt (keyId : String) (ciphertext nonce : KeyBytes) : SoftwareHSM × Except HsmError KeyBytes :=
  match s.keyFor packages keyId with
  | (s', .error e) => (s', .error e)
  | (s', .ok rawKey) =>
      if aesKey rawKey then
        if nonce.length = 12 then
          match packages.gcmOpen rawKey nonce ciphertext with
          | some plaintext => (s', .ok plaintext)
          | none => (s', .error authenticationFailed)
        else (s', .error .panicked)
      else (s', .error (invalidKeySize rawKey))

/-- The UPDATE of `RotateKey`, whose error is only logged, and the cache after it. -/
def deactivate (keyId : String) (effective : Bool) : SoftwareHSM :=
  { s with
    keys :=
      if effective then s.keys.map fun k => if k.keyId = keyId then { k with status := .rotated } else k else s.keys
    keyCache := Function.update s.keyCache keyId none }

def rotateKey (oldKeyId : String) (updateEffective : Bool) (env : GenerateEnv) :
    SoftwareHSM × Except HsmError String :=
  match s.activeKey? oldKeyId with
  | none => (s, .error (.failed ("key not found or not active: " ++ oldKeyId)))
  | some k => (s.deactivate oldKeyId updateEffective).generateKey packages k.purpose k.algorithm k.keySize env

/-- A new process over the same table. -/
def restart (masterKey : MasterKey) : SoftwareHSM := { s with masterKey := masterKey, keyCache := fun _ => none }

end SoftwareHSM

/-- A call, or a new process with the master key that `NewProductionHSM` comes by. -/
inductive HsmAct
  | generate (purpose algorithm : String) (keySize : Int) (env : GenerateEnv)
  | encrypt (keyId : String) (plaintext : KeyBytes) (nonce : Nonce)
  | decrypt (keyId : String) (ciphertext nonce : KeyBytes)
  | rotate (oldKeyId : String) (updateEffective : Bool) (env : GenerateEnv)
  | restart (masterKey : MasterKey)

namespace SoftwareHSM

variable (packages : Packages)

def step (s : SoftwareHSM) : HsmAct → SoftwareHSM
  | .generate purpose algorithm keySize env => (s.generateKey packages purpose algorithm keySize env).1
  | .encrypt keyId plaintext nonce => (s.encrypt packages keyId plaintext nonce).1
  | .decrypt keyId ciphertext nonce => (s.decrypt packages keyId ciphertext nonce).1
  | .rotate oldKeyId updateEffective env => (s.rotateKey packages oldKeyId updateEffective env).1
  | .restart masterKey => s.restart masterKey

/-- An empty table. -/
def start (masterKey : MasterKey) : SoftwareHSM := ⟨masterKey, fun _ => none, [], []⟩

/-- Everything that was encrypted decrypts. -/
def Readable (s : SoftwareHSM) : Prop :=
  ∀ c ∈ s.sealed, (s.decrypt packages c.keyId c.ciphertext c.nonce.val).2 = .ok c.plaintext

/-- The row of the key is found as before, and calls with it answer as before. -/
structure SameKey (s t : SoftwareHSM) (keyId : String) : Prop where
  active : t.activeKey? keyId = s.activeKey? keyId
  encrypts : ∀ plaintext nonce, (t.encrypt packages keyId plaintext nonce).2 =
    (s.encrypt packages keyId plaintext nonce).2
  decrypts : ∀ ciphertext nonce,
    (t.decrypt packages keyId ciphertext nonce).2 = (s.decrypt packages keyId ciphertext nonce).2

/-- A rotation that fails leaves the old key as it was. -/
def FailsSafely (s : SoftwareHSM) : HsmAct → Prop
  | .rotate oldKeyId updateEffective env =>
      ∀ e, (s.rotateKey packages oldKeyId updateEffective env).2 = .error e →
        SameKey packages s (s.rotateKey packages oldKeyId updateEffective env).1 oldKeyId
  | _ => True

/-- No row has the id that the call makes up. -/
def FreshId (s : SoftwareHSM) (purpose algorithm : String) (env : GenerateEnv) : Prop :=
  ∀ k ∈ s.keys, k.keyId ≠ keyIdOf packages purpose algorithm env.unixNano

/-- New keys have new ids. A process with another master key starts when no key is active. A key whose row is
rotated has encrypted nothing yet and gets a successor. -/
def Careful (s : SoftwareHSM) : HsmAct → Prop
  | .generate purpose algorithm _ env => s.FreshId packages purpose algorithm env
  | .rotate oldKeyId updateEffective env =>
      ∀ k ∈ s.activeKey? oldKeyId,
        s.FreshId packages k.purpose k.algorithm env ∧
          (updateEffective = true → (∀ c ∈ s.sealed, c.keyId ≠ oldKeyId) ∧
            (s.rotateKey packages oldKeyId updateEffective env).2.isOk = true)
  | .restart masterKey => masterKey = s.masterKey ∨ ∀ k ∈ s.keys, k.status = .rotated
  | _ => True

/-! ### Lookups -/

variable {packages} {s t : SoftwareHSM}

theorem unwrapStoredKey_congr {keyId : String} (hmaster : t.masterKey = s.masterKey)
    (h : t.activeKey? keyId = s.activeKey? keyId) :
    t.unwrapStoredKey packages keyId = s.unwrapStoredKey packages keyId := by
  unfold unwrapStoredKey
  rw [h, hmaster]

theorem exists_active {keyId : String} {rawKey : KeyBytes} (h : s.unwrapStoredKey packages keyId = .ok rawKey) :
    ∃ k, s.activeKey? keyId = some k := by
  unfold unwrapStoredKey at h
  split at h
  · cases h
  · next k hk => exact ⟨k, hk⟩

theorem activeKey?_spec {keyId : String} {k : HsmKey} (h : s.activeKey? keyId = some k) :
    k ∈ s.keys ∧ k.keyId = keyId ∧ k.status = .active := by
  have hprops := List.find?_some h
  rw [Bool.and_eq_true, beq_iff_eq, beq_iff_eq] at hprops
  exact ⟨List.mem_of_find?_eq_some h, hprops⟩

/-- A row more does not hide those before it. -/
theorem activeKey?_append {keyId : String} {k row : HsmKey} (hkeys : t.keys = s.keys ++ [row])
    (h : s.activeKey? keyId = some k) : t.activeKey? keyId = some k := by
  rw [activeKey?, hkeys, List.find?_append]
  rw [activeKey?] at h
  rw [h]
  rfl

/-- A row with a new id is found under it. -/
theorem activeKey?_append_self {row : HsmKey} (hkeys : t.keys = s.keys ++ [row]) (hactive : row.status = .active)
    (hfresh : ∀ k ∈ s.keys, k.keyId ≠ row.keyId) : t.activeKey? row.keyId = some row := by
  have hnone : (s.keys.find? fun k => k.keyId == row.keyId && k.status == .active) = none := by
    rw [List.find?_eq_none]
    intro k hk
    simp [hfresh k hk]
  rw [activeKey?, hkeys, List.find?_append, hnone]
  simp [hactive]

theorem activeKey?_deactivate {keyId oldKeyId : String} {effective : Bool} (h : keyId ≠ oldKeyId) :
    (s.deactivate oldKeyId effective).activeKey? keyId = s.activeKey? keyId := by
  cases effective with
  | false => rfl
  | true =>
      rw [activeKey?, activeKey?, deactivate]
      simp only [if_true]
      induction s.keys with
      | nil => rfl
      | cons k keys ih =>
          rw [List.map_cons, List.find?_cons, List.find?_cons, ih]
          by_cases hk : k.keyId = oldKeyId
          · have hother : (k.keyId == keyId) = false := beq_false_of_ne fun heq => h (heq.symm.trans hk)
            rw [if_pos hk]
            simp only [hother, Bool.false_and]
          · rw [if_neg hk]

/-- A wrapped key is unwrapped from the row it is stored in. -/
theorem unwrapStoredKey_of_wrapped (hgcm : packages.GcmCorrect) {keyId : String} {row : HsmKey} {nonce : Nonce}
    {rawKey : KeyBytes} (hactive : s.activeKey? keyId = some row)
    (hwrap : s.wrapKeyAESGCM packages nonce rawKey = .ok row.encryptedMaterial) :
    s.unwrapStoredKey packages keyId = .ok rawKey := by
  have hmaster : aesKey s.masterKey.val = true := by
    rw [aesKey, s.masterKey.property]
    rfl
  rw [wrapKeyAESGCM, if_pos hmaster] at hwrap
  have hmaterial := (Except.ok.inj hwrap).symm
  have htake : row.encryptedMaterial.take 12 = nonce.val := by
    rw [hmaterial, List.take_left' nonce.property]
  have hdrop : row.encryptedMaterial.drop 12 = packages.gcmSeal s.masterKey.val nonce.val rawKey := by
    rw [hmaterial, List.drop_left' nonce.property]
  have hlong : ¬row.encryptedMaterial.length < 12 := by
    rw [hmaterial, List.length_append, nonce.property]
    omega
  unfold unwrapStoredKey
  rw [hactive]
  simp only [if_pos hmaster, if_neg hlong, htake, hdrop, hgcm _ _ _ hmaster]

/-! ### The invariant -/

/-- The cache agrees with the table, and what was encrypted is sealed under a key that the table still gives. -/
structure Sound (packages : Packages) (s : SoftwareHSM) : Prop where
  cached : ∀ keyId rawKey, s.keyCache keyId = some rawKey → s.unwrapStoredKey packages keyId = .ok rawKey
  readable : ∀ c ∈ s.sealed, ∃ rawKey, s.unwrapStoredKey packages c.keyId = .ok rawKey ∧ aesKey rawKey = true ∧
    packages.gcmOpen rawKey c.nonce.val c.ciphertext = some c.plaintext

theorem sound_start (masterKey : MasterKey) : Sound packages (start masterKey) where
  cached := by
    intro keyId rawKey h
    cases h
  readable := by
    intro c hc
    cases hc

/-- What is looked up is what the table has, cached or not. -/
theorem Sound.keyFor_snd (hs : Sound packages s) (keyId : String) :
    (s.keyFor packages keyId).2 = s.unwrapStoredKey packages keyId := by
  unfold keyFor
  cases hcache : s.keyCache keyId with
  | some rawKey => exact (hs.cached keyId rawKey hcache).symm
  | none =>
      cases hunwrap : s.unwrapStoredKey packages keyId with
      | error e => rfl
      | ok rawKey => rfl

theorem keyFor_fst (keyId : String) :
    ∃ keyCache, (s.keyFor packages keyId).1 = { s with keyCache := keyCache } := by
  unfold keyFor
  cases hcache : s.keyCache keyId with
  | some rawKey => exact ⟨s.keyCache, rfl⟩
  | none =>
      cases hunwrap : s.unwrapStoredKey packages keyId with
      | error e => exact ⟨s.keyCache, rfl⟩
      | ok rawKey => exact ⟨Function.update s.keyCache keyId (some rawKey), rfl⟩

/-- Another cache that agrees with the table. -/
theorem Sound.withCache (hs : Sound packages s) {keyCache : String → Option KeyBytes}
    (hcached : ∀ keyId rawKey, keyCache keyId = some rawKey → s.unwrapStoredKey packages keyId = .ok rawKey) :
    Sound packages { s with keyCache := keyCache } where
  cached := hcached
  readable := hs.readable

theorem Sound.cache_update (hs : Sound packages s) {keyId : String} {rawKey : KeyBytes}
    (h : s.unwrapStoredKey packages keyId = .ok rawKey) :
    ∀ other otherKey, Function.update s.keyCache keyId (some rawKey) other = some otherKey →
      s.unwrapStoredKey packages other = .ok otherKey := by
  intro other otherKey hother
  by_cases heq : other = keyId
  · rw [heq, Function.update_self] at hother
    rw [heq, h, Option.some.inj hother]
  · rw [Function.update_of_ne heq] at hother
    exact hs.cached other otherKey hother

theorem Sound.keyFor (hs : Sound packages s) (keyId : String) : Sound packages (s.keyFor packages keyId).1 := by
  unfold SoftwareHSM.keyFor
  cases hcache : s.keyCache keyId with
  | some rawKey => exact hs
  | none =>
      cases hunwrap : s.unwrapStoredKey packages keyId with
      | error e => exact hs
      | ok rawKey => exact hs.withCache (hs.cache_update hunwrap)

/-- Calls with one key depend on what is looked up for it. -/
theorem encrypt_snd_congr {keyId : String} (h : (t.keyFor packages keyId).2 = (s.keyFor packages keyId).2)
    (plaintext : KeyBytes) (nonce : Nonce) :
    (t.encrypt packages keyId plaintext nonce).2 = (s.encrypt packages keyId plaintext nonce).2 := by
  unfold encrypt
  rcases hs : s.keyFor packages keyId with ⟨s', result⟩
  rcases ht : t.keyFor packages keyId with ⟨t', result'⟩
  rw [hs, ht] at h
  obtain rfl : result' = result := h
  cases result' with
  | error e => rfl
  | ok rawKey =>
      simp only
      split
      · rfl
      · rfl

theorem decrypt_snd_congr {keyId : String} (h : (t.keyFor packages keyId).2 = (s.keyFor packages keyId).2)
    (ciphertext nonce : KeyBytes) :
    (t.decrypt packages keyId ciphertext nonce).2 = (s.decrypt packages keyId ciphertext nonce).2 := by
  unfold decrypt
  rcases hs : s.keyFor packages keyId with ⟨s', result⟩
  rcases ht : t.keyFor packages keyId with ⟨t', result'⟩
  rw [hs, ht] at h
  obtain rfl : result' = result := h
  cases result' with
  | error e => rfl
  | ok rawKey =>
      simp only
      split
      · split
        · split
          · rfl
          · rfl
        · rfl
      · rfl

theorem Sound.readable_all (hs : Sound packages s) : Readable packages s := by
  intro c hc
  obtain ⟨rawKey, hunwrap, haes, hopen⟩ := hs.readable c hc
  have hkey := hs.keyFor_snd c.keyId
  rw [hunwrap] at hkey
  unfold decrypt
  rcases hfor : s.keyFor packages c.keyId with ⟨s', result⟩
  rw [hfor] at hkey
  obtain rfl : result = .ok rawKey := hkey
  simp only [if_pos haes, if_pos c.nonce.property, hopen]

/-! ### Steps -/

theorem Sound.encrypt (hgcm : packages.GcmCorrect) (hs : Sound packages s) (keyId : String) (plaintext : KeyBytes)
    (nonce : Nonce) : Sound packages (s.encrypt packages keyId plaintext nonce).1 := by
  have hkey := hs.keyFor_snd keyId
  have hkept := hs.keyFor keyId
  obtain ⟨keyCache, hfst⟩ := @keyFor_fst packages s keyId
  unfold SoftwareHSM.encrypt
  rcases hfor : s.keyFor packages keyId with ⟨s', result⟩
  rw [hfor] at hkey hkept hfst
  cases result with
  | error e => exact hkept
  | ok rawKey =>
      simp only
      split
      · next haes =>
        refine ⟨hkept.cached, ?_⟩
        intro c hc
        rcases List.mem_append.mp hc with hc | hc
        · exact hkept.readable c hc
        · rw [List.mem_singleton.mp hc]
          have hunwrap : s'.unwrapStoredKey packages keyId = .ok rawKey := by
            rw [show s' = { s with keyCache := keyCache } from hfst]
            exact hkey.symm
          exact ⟨rawKey, hunwrap, haes, hgcm _ _ _ haes⟩
      · exact hkept

theorem Sound.decrypt (hs : Sound packages s) (keyId : String) (ciphertext nonce : KeyBytes) :
    Sound packages (s.decrypt packages keyId ciphertext nonce).1 := by
  have hkept := hs.keyFor keyId
  unfold SoftwareHSM.decrypt
  rcases hfor : s.keyFor packages keyId with ⟨s', result⟩
  rw [hfor] at hkept
  cases result with
  | error e => exact hkept
  | ok rawKey =>
      simp only
      split
      · split
        · split
          · exact hkept
          · exact hkept
        · exact hkept
      · exact hkept

/-- A generated key is one more row, which its caller may not hear of; only then it is cached. -/
theorem generateKey_cases (s : SoftwareHSM) (purpose algorithm : String) (keySize : Int) (env : GenerateEnv) :
    (∃ e, s.generateKey packages purpose algorithm keySize env = (s, .error e)) ∨
    ∃ row rawKey, row.keyId = keyIdOf packages purpose algorithm env.unixNano ∧ row.status = .active ∧
      s.wrapKeyAESGCM packages env.wrapNonce rawKey = .ok row.encryptedMaterial ∧
      (s.generateKey packages purpose algorithm keySize env =
          ({ s with keys := s.keys ++ [row] }, .error (.failed env.insertError)) ∨
        s.generateKey packages purpose algorithm keySize env =
          ({ s with keys := s.keys ++ [row], keyCache := Function.update s.keyCache row.keyId (some rawKey) },
            .ok row.keyId)) := by
  unfold generateKey
  split
  · exact Or.inl ⟨_, rfl⟩
  · simp only
    split
    · exact Or.inl ⟨_, rfl⟩
    · next random hrandom =>
      split
      · exact Or.inl ⟨_, rfl⟩
      · next encKey hwrap =>
        cases hinsert : env.insert with
        | done => exact Or.inr ⟨⟨_, purpose, algorithm, keySize, encKey, .active⟩, _, rfl, rfl, hwrap, Or.inr rfl⟩
        | refused => exact Or.inl ⟨_, rfl⟩
        | lost => exact Or.inr ⟨⟨_, purpose, algorithm, keySize, encKey, .active⟩, _, rfl, rfl, hwrap, Or.inl rfl⟩

theorem unwrapStoredKey_append (row : HsmKey) {keyId : String} {rawKey : KeyBytes}
    (h : s.unwrapStoredKey packages keyId = .ok rawKey) :
    unwrapStoredKey packages { s with keys := s.keys ++ [row] } keyId = .ok rawKey := by
  obtain ⟨k, hk⟩ := exists_active h
  have hfound := @activeKey?_append s { s with keys := s.keys ++ [row] } keyId k row rfl hk
  rw [← h]
  exact unwrapStoredKey_congr rfl (hfound.trans hk.symm)

theorem Sound.append (hs : Sound packages s) (row : HsmKey) :
    Sound packages { s with keys := s.keys ++ [row] } where
  cached := by
    intro keyId rawKey h
    exact unwrapStoredKey_append row (hs.cached keyId rawKey h)
  readable := by
    intro c hc
    obtain ⟨rawKey, hunwrap, hopen⟩ := hs.readable c hc
    exact ⟨rawKey, unwrapStoredKey_append row hunwrap, hopen⟩

theorem Sound.generateKey (hgcm : packages.GcmCorrect) (hs : Sound packages s) {purpose algorithm : String}
    {keySize : Int} {env : GenerateEnv} (hfresh : s.FreshId packages purpose algorithm env) :
    Sound packages (s.generateKey packages purpose algorithm keySize env).1 := by
  rcases @generateKey_cases packages s purpose algorithm keySize env with
    ⟨e, h⟩ | ⟨row, rawKey, hid, hactive, hwrap, h | h⟩
  · rw [h]
    exact hs
  · rw [h]
    exact hs.append row
  · rw [h]
    refine (hs.append row).withCache ((hs.append row).cache_update ?_)
    refine unwrapStoredKey_of_wrapped hgcm (activeKey?_append_self rfl hactive ?_) hwrap
    intro k hk
    rw [hid]
    exact hfresh k hk

/-- The cache forgets the key, and no row has changed. -/
theorem Sound.forget (hs : Sound packages s) (keyId : String) : Sound packages (s.deactivate keyId false) := by
  refine hs.withCache ?_
  intro other rawKey h
  by_cases heq : other = keyId
  · rw [heq, Function.update_self] at h
    cases h
  · rw [Function.update_of_ne heq] at h
    exact hs.cached other rawKey h

/-- The row of a key under which nothing was encrypted. -/
theorem Sound.deactivate (hs : Sound packages s) {keyId : String} (hunused : ∀ c ∈ s.sealed, c.keyId ≠ keyId) :
    Sound packages (s.deactivate keyId true) where
  cached := by
    intro other rawKey h
    have hforget := (hs.forget keyId).cached other rawKey h
    have hcache : Function.update s.keyCache keyId none other = some rawKey := h
    by_cases heq : other = keyId
    · rw [heq, Function.update_self] at hcache
      cases hcache
    · rw [← hforget]
      exact unwrapStoredKey_congr rfl (activeKey?_deactivate heq)
  readable := by
    intro c hc
    obtain ⟨rawKey, hunwrap, hopen⟩ := hs.readable c hc
    refine ⟨rawKey, ?_, hopen⟩
    rw [← hunwrap]
    exact unwrapStoredKey_congr rfl (activeKey?_deactivate (hunused c hc))

theorem freshId_deactivate {purpose algorithm keyId : String} {env : GenerateEnv} {effective : Bool}
    (h : s.FreshId packages purpose algorithm env) :
    (s.deactivate keyId effective).FreshId packages purpose algorithm env := by
  cases effective with
  | false => exact h
  | true =>
      intro k hk
      rw [deactivate] at hk
      simp only [if_true, List.mem_map] at hk
      obtain ⟨k', hk', rfl⟩ := hk
      split
      · exact h k' hk'
      · exact h k' hk'

theorem Sound.rotateKey (hgcm : packages.GcmCorrect) (hs : Sound packages s) {oldKeyId : String}
    {updateEffective : Bool} {env : GenerateEnv}
    (hcareful : s.Careful packages (.rotate oldKeyId updateEffective env)) :
    Sound packages (s.rotateKey packages oldKeyId updateEffective env).1 := by
  unfold SoftwareHSM.rotateKey
  cases hactive : s.activeKey? oldKeyId with
  | none => exact hs
  | some k =>
      obtain ⟨hfresh, heffective⟩ := hcareful k hactive
      refine Sound.generateKey hgcm ?_ (freshId_deactivate hfresh)
      cases updateEffective with
      | false => exact hs.forget oldKeyId
      | true => exact hs.deactivate (heffective rfl).1

theorem Sound.restart (hs : Sound packages s) {masterKey : MasterKey}
    (h : masterKey = s.masterKey ∨ ∀ k ∈ s.keys, k.status = .rotated) : Sound packages (s.restart masterKey) where
  cached := by
    intro keyId rawKey hcached
    cases hcached
  readable := by
    intro c hc
    obtain ⟨rawKey, hunwrap, hopen⟩ := hs.readable c hc
    rcases h with h | h
    · exact ⟨rawKey, (@unwrapStoredKey_congr packages s (s.restart masterKey) c.keyId h rfl).trans hunwrap, hopen⟩
    · obtain ⟨k, hk⟩ := exists_active hunwrap
      obtain ⟨hmem, -, hactive⟩ := activeKey?_spec hk
      rw [h k hmem] at hactive
      cases hactive

theorem Sound.step (hgcm : packages.GcmCorrect) (hs : Sound packages s) {act : HsmAct}
    (hcareful : s.Careful packages act) : Sound packages (s.step packages act) := by
  cases act with
  | generate purpose algorithm keySize env => exact hs.generateKey hgcm hcareful
  | encrypt keyId plaintext nonce => exact hs.encrypt hgcm keyId plaintext nonce
  | decrypt keyId ciphertext nonce => exact hs.decrypt keyId ciphertext nonce
  | rotate oldKeyId updateEffective env => exact hs.rotateKey hgcm hcareful
  | restart masterKey => exact hs.restart hcareful

/-! ### Failing rotations -/

theorem sameKey_of_keyFor {keyId : String} (hactive : t.activeKey? keyId = s.activeKey? keyId)
    (h : (t.keyFor packages keyId).2 = (s.keyFor packages keyId).2) : SameKey packages s t keyId where
  active := hactive
  encrypts := encrypt_snd_congr h
  decrypts := decrypt_snd_congr h

/-- What a failing `GenerateKey` leaves behind. -/
theorem sameKey_of_generateKey (hs : Sound packages s) {purpose algorithm keyId : String} {keySize : Int}
    {env : GenerateEnv} {k : HsmKey} {e : HsmError} (hactive : s.activeKey? keyId = some k)
    (h : (s.generateKey packages purpose algorithm keySize env).2 = .error e) :
    SameKey packages s (s.generateKey packages purpose algorithm keySize env).1 keyId := by
  rcases @generateKey_cases packages s purpose algorithm keySize env with
    ⟨e', hgen⟩ | ⟨row, rawKey, -, -, -, hgen | hgen⟩
  · rw [hgen]
    exact sameKey_of_keyFor rfl rfl
  · rw [hgen]
    have hfound := @activeKey?_append s { s with keys := s.keys ++ [row] } keyId k row rfl hactive
    refine sameKey_of_keyFor (hfound.trans hactive.symm) ?_
    rw [(hs.append row).keyFor_snd, hs.keyFor_snd]
    exact unwrapStoredKey_congr rfl (hfound.trans hactive.symm)
  · rw [hgen] at h
    cases h

theorem failsSafely_of_careful (hs : Sound packages s) {act : HsmAct} (hcareful : s.Careful packages act) :
    s.FailsSafely packages act := by
  cases act with
  | rotate oldKeyId updateEffective env =>
      intro e herror
      cases hactive : s.activeKey? oldKeyId with
      | none =>
          rw [rotateKey, hactive]
          exact sameKey_of_keyFor rfl rfl
      | some k =>
          obtain ⟨hfresh, heffective⟩ := hcareful k hactive
          cases updateEffective with
          | true =>
              have hok := (heffective rfl).2
              rw [herror] at hok
              cases hok
          | false =>
              have hkey : ((s.deactivate oldKeyId false).keyFor packages oldKeyId).2 =
                  (s.keyFor packages oldKeyId).2 := by
                rw [(hs.forget oldKeyId).keyFor_snd, hs.keyFor_snd]
                rfl
              have hsame : SameKey packages (s.deactivate oldKeyId false)
                  (s.rotateKey packages oldKeyId false env).1 oldKeyId := by
                rw [rotateKey, hactive] at herror ⊢
                exact sameKey_of_generateKey (hs.forget oldKeyId) hactive herror
              exact ⟨hsame.active, fun plaintext nonce => (hsame.encrypts plaintext nonce).trans
                (encrypt_snd_congr hkey plaintext nonce), fun ciphertext nonce =>
                  (hsame.decrypts ciphertext nonce).trans (decrypt_snd_congr hkey ciphertext nonce)⟩
  | generate purpose algorithm keySize env => trivial
  | encrypt keyId plaintext nonce => trivial
  | decrypt keyId ciphertext nonce => trivial
  | restart masterKey => trivial

/-! ### Runs -/

instance decidableCareful (packages : Packages) (s : SoftwareHSM) :
    (act : HsmAct) → Decidable (s.Careful packages act)
  | .generate purpose algorithm _ env =>
      inferInstanceAs (Decidable (∀ k ∈ s.keys, k.keyId ≠ keyIdOf packages purpose algorithm env.unixNano))
  | .encrypt .. => .isTrue trivial
  | .decrypt .. => .isTrue trivial
  | .rotate oldKeyId updateEffective env =>
      have (purpose algorithm : String) : Decidable (s.FreshId packages purpose algorithm env) :=
        inferInstanceAs (Decidable (∀ k ∈ s.keys, k.keyId ≠ keyIdOf packages purpose algorithm env.unixNano))
      inferInstanceAs (Decidable (∀ k ∈ s.activeKey? oldKeyId,
        s.FreshId packages k.purpose k.algorithm env ∧
          (updateEffective = true → (∀ c ∈ s.sealed, c.keyId ≠ oldKeyId) ∧
            (s.rotateKey packages oldKeyId updateEffective env).2.isOk = true)))
  | .restart masterKey => inferInstanceAs (Decidable (masterKey = s.masterKey ∨ ∀ k ∈ s.keys, k.status = .rotated))

end SoftwareHSM

open SoftwareHSM

variable {packages : Packages}

/-- Where every step is careful, what was encrypted stays readable and a failed rotation changes nothing. -/
theorem rotation_keeps_readable (hgcm : packages.GcmCorrect) (masterKey : MasterKey) (acts : List HsmAct)
    (hcareful : Runs.AllSteps (step packages) (Careful packages) (start masterKey) acts) :
    (∀ s ∈ Runs.visited (step packages) (start masterKey) acts, Readable packages s) ∧
      Runs.AllSteps (step packages) (FailsSafely packages) (start masterKey) acts := by
  have hkeep : ∀ s act, Sound packages s → Careful packages s act → Sound packages (step packages s act) :=
    fun s act hs hact => hs.step hgcm hact
  constructor
  · intro s hs
    exact (Runs.forall_visited hkeep (sound_start masterKey) hcareful s hs).readable_all
  · exact hcareful.imp_of_inv hkeep (fun s act hs hact => failsSafely_of_careful hs hact) (sound_start masterKey)

/-- A cipher that appends sixteen bytes of the nonce and the key, for the cases below. -/
def taggingPackages : Packages where
  gcmSeal := fun key nonce message => message ++ (nonce ++ key).take 16
  gcmOpen := fun key nonce ciphertext =>
    if ciphertext.drop (ciphertext.length - 16) = (nonce ++ key).take 16 then
      some (ciphertext.take (ciphertext.length - 16))
    else none
  toUpper := fun bytes => String.ofList (bytes.map fun b => (Char.ofNat b.toNat).toUpper)

theorem gcmCorrect_taggingPackages : taggingPackages.GcmCorrect := by
  intro key nonce message haes
  have hlong : 16 ≤ key.length := by
    simp only [aesKey, Bool.or_eq_true, beq_iff_eq] at haes
    omega
  have htag : ((nonce ++ key).take 16).length = 16 := by
    rw [List.length_take, List.length_append]
    omega
  have hlength : (message ++ (nonce ++ key).take 16).length - 16 = message.length := by
    rw [List.length_append, htag]
    omega
  simp only [taggingPackages]
  rw [hlength, List.drop_left, List.take_left, if_pos rfl]

/-- A master key, a nonce and a stream of bytes for the cases below. -/
def someMaster : MasterKey := ⟨List.replicate 32 7, rfl⟩

def someNonce : Nonce := ⟨List.replicate 12 1, rfl⟩

def someEnv (unixNano : Int) : GenerateEnv := ⟨unixNano, .ok fun i => UInt8.ofNat i, someNonce, .done, ""⟩

/-- Of two keys the one that has encrypted nothing is rotated; then the process starts again. -/
theorem rotation_of_unused_key :
    (∀ s ∈ Runs.visited (step taggingPackages) (start someMaster)
        [.generate "signing" "AES" 256 (someEnv 1), .generate "general" "AES" 256 (someEnv 2),
          .encrypt "HSM-GEN-AES-2" [1, 2, 3] someNonce, .rotate "HSM-SIG-AES-1" true (someEnv 3),
            .restart someMaster],
        Readable taggingPackages s) ∧
      Runs.AllSteps (step taggingPackages) (FailsSafely taggingPackages) (start someMaster)
        [.generate "signing" "AES" 256 (someEnv 1), .generate "general" "AES" 256 (someEnv 2),
          .encrypt "HSM-GEN-AES-2" [1, 2, 3] someNonce, .rotate "HSM-SIG-AES-1" true (someEnv 3),
            .restart someMaster] :=
  rotation_keeps_readable gcmCorrect_taggingPackages someMaster _ (by decide +kernel)

/-- The key that encrypted is rotated. -/
theorem rotated_key_unreadable :
    ¬∀ s ∈ Runs.visited (step taggingPackages) (start someMaster)
      [.generate "general" "AES" 256 (someEnv 1), .encrypt "HSM-GEN-AES-1" [1, 2, 3] someNonce,
        .rotate "HSM-GEN-AES-1" true (someEnv 2)], Readable taggingPackages s := by
  intro h
  have hfinal := h _ (Runs.final_mem_visited _ _)
  revert hfinal
  unfold Readable
  decide +kernel

end Inec.Hsm
