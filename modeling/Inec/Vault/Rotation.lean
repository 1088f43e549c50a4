import Inec.Vault.Store

/-!
# No template is lost

Every stored template stays sealed under the key its row names, and what is inside is what was enrolled: an
operation on the keys leaves the wrapped materials alone, a rotation opens a row under the old key and seals it
again under the new one in a single transaction. The invariant links the two tables, the list of what was
enrolled and the rotation on its way.

The page of a rotation is a copy of rows that are still on the old key. Each row that is done leaves the old
key, so every `SELECT` finds fewer of them, and a rotation returns `Ok` only when it finds none. No call puts a
template on a key that is not active, and none makes a key active again.
-/

namespace Inec.Vault

variable {p : Primitives} {masterKey : Bytes}

/-! ### Single calls -/

namespace Tables

variable {t : Tables}

theorem newKey_spec (hp : p.DecryptsEncrypted) {purpose : KeyPurpose} {draw : KeyDraw} {now : Nat} {row : KeyRow}
    (h : newKey p masterKey purpose draw now = .ok row) :
    row.purpose = purpose ∧ row.isActive = true ∧ row.isRevoked = false ∧
      ∃ material, p.unwrapKeyMaterial masterKey row.encryptedKey = .ok material := by
  unfold newKey at h
  simp only at h
  split at h
  · cases h
  · rename_i keyMaterial hexpand
    cases hwrap : p.wrapKeyMaterial masterKey draw.wrapNonce keyMaterial with
    | error e =>
        rw [hwrap] at h
        cases h
    | ok encryptedKey =>
        rw [hwrap] at h
        cases h
        exact ⟨rfl, rfl, rfl, keyMaterial, p.unwrap_wrap masterKey hp hwrap⟩

/-- A generated key is one more row, or nothing has happened; its id is told only when the row is there. -/
theorem generateKey_cases (t : Tables) (purpose : KeyPurpose) (draw : KeyDraw) (now : Nat) (answers : Answers) :
    (∃ e, t.generateKey p masterKey purpose draw now answers = (t, .error e)) ∨
    ∃ row, newKey p masterKey purpose draw now = .ok row ∧ row.keyId ∉ t.keys.map (·.keyId) ∧
      answers.commits ≠ .refused ∧ (t.generateKey p masterKey purpose draw now answers).1 =
        { t with keys := t.keys ++ [row] } ∧
      (t.generateKey p masterKey purpose draw now answers).2 =
        if answers.commits = .done then .ok row.keyId else .error .databaseError := by
  unfold generateKey
  cases hnew : newKey p masterKey purpose draw now with
  | error e => exact .inl ⟨e, rfl⟩
  | ok row =>
      by_cases hid : row.keyId ∈ t.keys.map (·.keyId)
      · left
        simp [insertKey, hid, Statements.commit]
      · cases hreply : answers.commits with
        | refused =>
            left
            simp [Statements.commit]
        | done =>
            right
            refine ⟨row, rfl, hid, by decide, ?_, ?_⟩ <;> simp [insertKey, hid, Statements.commit]
        | lost =>
            right
            refine ⟨row, rfl, hid, by decide, ?_, ?_⟩ <;> simp [insertKey, hid, Statements.commit]

theorem mem_of_key? {keyId : String} {k : KeyRow} (h : t.key? keyId = some k) : k ∈ t.keys ∧ k.keyId = keyId :=
  Rows.find?_key h

theorem unwrapped_eq_ok {k : KeyRow} {key : VaultKey} (h : unwrapped p masterKey k = .ok key) :
    p.unwrapKeyMaterial masterKey k.encryptedKey = .ok key.keyMaterial ∧ key.keyId = k.keyId ∧
      key.isActive = k.isActive ∧ key.isRevoked = k.isRevoked := by
  unfold unwrapped at h
  cases hunwrap : p.unwrapKeyMaterial masterKey k.encryptedKey with
  | error e =>
      rw [hunwrap] at h
      cases h
  | ok material =>
      rw [hunwrap] at h
      cases h
      exact ⟨rfl, rfl, rfl, rfl⟩

/-- The material of a key in memory is the one its row wraps. -/
def KeyHeld (p : Primitives) (masterKey : Bytes) (t : Tables) (key : VaultKey) : Prop :=
  ∃ k ∈ t.keys, k.keyId = key.keyId ∧ p.unwrapKeyMaterial masterKey k.encryptedKey = .ok key.keyMaterial

theorem loadKey_eq_ok {reads : Bool} {keyId : String} {key : VaultKey}
    (h : t.loadKey p masterKey reads keyId = .ok key) : key.keyId = keyId ∧ t.KeyHeld p masterKey key := by
  unfold loadKey at h
  split at h
  · cases h
  · split at h
    · cases h
    · rename_i k hk
      obtain ⟨hmem, hid⟩ := mem_of_key? hk
      obtain ⟨hmaterial, hkey, -, -⟩ := unwrapped_eq_ok h
      exact ⟨hkey.trans hid, k, hmem, hkey.symm, hmaterial⟩

theorem getActiveKey_eq_ok {reads : Bool} {purpose : KeyPurpose} {key : VaultKey}
    (h : t.getActiveKey p masterKey reads purpose = .ok key) :
    ∃ k ∈ t.keys, isActiveFor purpose k = true ∧ k.keyId = key.keyId ∧
      p.unwrapKeyMaterial masterKey k.encryptedKey = .ok key.keyMaterial := by
  unfold getActiveKey at h
  split at h
  · cases h
  · split at h
    · cases h
    · rename_i k hk
      obtain ⟨hmem, hactive⟩ := List.mem_filter.mp (Rows.mem_of_maxBy hk)
      obtain ⟨hmaterial, hkey, -, -⟩ := unwrapped_eq_ok h
      exact ⟨k, hmem, hactive, hkey.symm, hmaterial⟩

theorem sealTemplate_eq_ok {key : VaultKey} {voterVin modality : String} {data : Bytes} {uuid : String}
    {nonce : Drawn 12} {row : TemplateRow} (h : sealTemplate p key voterVin modality data uuid nonce = .ok row)
    {k : KeyRow} (hid : k.keyId = key.keyId)
    (hmaterial : p.unwrapKeyMaterial masterKey k.encryptedKey = .ok key.keyMaterial) :
    row.templateId = "tmpl-" ++ uuid ∧ row.voterVin = voterVin ∧ SealedUnder p masterKey k row data := by
  unfold sealTemplate at h
  split at h
  · cases h
  · rename_i ciphertext hencrypt
    cases h
    exact ⟨rfl, rfl, hid.symm, ⟨key.keyMaterial, hmaterial, hencrypt, rfl⟩, nonce.property⟩

/-- A template is stored under an active key, or nothing has happened. -/
theorem encryptTemplate_cases (voterVin modality : String) (data : Bytes) {uuid : String} (nonce : Drawn 12)
    (answers : Answers) (hfresh : "tmpl-" ++ uuid ∉ t.templates.map (·.templateId)) :
    (t.encryptTemplate p masterKey voterVin modality data uuid nonce answers).1 = t ∨
    ∃ k ∈ t.keys, isActiveFor .templateEncryption k = true ∧ ∃ row, row.templateId = "tmpl-" ++ uuid ∧
      row.voterVin = voterVin ∧ SealedUnder p masterKey k row data ∧
      (t.encryptTemplate p masterKey voterVin modality data uuid nonce answers).1 =
        { t with templates := t.templates ++ [row] } := by
  unfold encryptTemplate
  cases hkey : t.getActiveKey p masterKey answers.reads .templateEncryption with
  | error e => exact .inl rfl
  | ok key =>
      obtain ⟨k, hmem, hactive, hid, hmaterial⟩ := getActiveKey_eq_ok hkey
      simp only
      cases hseal : sealTemplate p key voterVin modality data uuid nonce with
      | error e => exact .inl rfl
      | ok row =>
          obtain ⟨htid, hvin, hsealed⟩ := sealTemplate_eq_ok hseal hid hmaterial
          have hinsert : t.upsertTemplate row = none ∨
              t.upsertTemplate row = some { t with templates := t.templates ++ [row] } := by
            unfold upsertTemplate
            split
            · exact .inl rfl
            · rw [if_neg (htid ▸ hfresh)]
              exact .inr rfl
          obtain hcommit | ⟨t', told, htx, hcommit⟩ := Statements.commit_cases t
            (t.upsertTemplate row) answers.commits
          · left
            simp [hcommit]
          · rcases hinsert with hinsert | hinsert
            · rw [hinsert] at htx
              cases htx
            · rw [hinsert] at htx
              cases htx
              right
              exact ⟨k, hmem, hactive, row, htid, hvin, hsealed, by simp [hcommit]⟩

/-- A row opens under the key it is sealed under. -/
theorem decryptWithKey_of_sealed (hp : p.DecryptsEncrypted) {k : KeyRow} {row : TemplateRow} {plaintext : Bytes}
    (hsealed : SealedUnder p masterKey k row plaintext) {key : VaultKey}
    (hmaterial : p.unwrapKeyMaterial masterKey k.encryptedKey = .ok key.keyMaterial) :
    decryptWithKey p key row = .ok plaintext := by
  obtain ⟨material, hunwrap, hencrypt, htag⟩ := hsealed.sealed
  rw [hmaterial] at hunwrap
  cases hunwrap
  unfold decryptWithKey
  rw [if_neg (by simp [htag]), if_neg (by simp [hsealed.nonce]), hp _ _ _ _ _ hencrypt]

theorem loadKey_of_mem (hnodup : (t.keys.map (·.keyId)).Nodup) {k : KeyRow} (hk : k ∈ t.keys) {material : Bytes}
    (hmaterial : p.unwrapKeyMaterial masterKey k.encryptedKey = .ok material) :
    t.loadKey p masterKey true k.keyId =
      .ok ⟨k.keyId, k.purpose, k.isActive, k.isRevoked, k.keyVersion, material⟩ := by
  have hfind : t.key? k.keyId = some k := (Rows.find?_key_eq_some_iff hnodup).mpr ⟨hk, rfl⟩
  unfold loadKey
  rw [if_neg (by decide), hfind]
  simp [unwrapped, hmaterial]

/-- A stored row whose key is not revoked decrypts to what is sealed in it. -/
theorem decryptTemplate_of_sealed (hp : p.DecryptsEncrypted) (hkeys : (t.keys.map (·.keyId)).Nodup)
    (htemplates : (t.templates.map (·.templateId)).Nodup) {row : TemplateRow}
    (hrow : row ∈ t.templates) {k : KeyRow} (hk : k ∈ t.keys) {plaintext : Bytes}
    (hsealed : SealedUnder p masterKey k row plaintext) (hrevoked : k.isRevoked = false) :
    t.decryptTemplate p masterKey true row.templateId = .ok plaintext := by
  have hfind : t.template? row.templateId = some row := (Rows.find?_key_eq_some_iff htemplates).mpr ⟨hrow, rfl⟩
  obtain ⟨material, hunwrap, -, -⟩ := hsealed.sealed
  unfold decryptTemplate
  rw [if_neg (by decide), hfind]
  simp only
  rw [hsealed.keyId, loadKey_of_mem hkeys hk hunwrap]
  simp only [hrevoked]
  exact decryptWithKey_of_sealed hp hsealed hunwrap

/-! ### What happens to the keys -/

/-- What the operations on keys do to the tables: rows are added, and may be retired or revoked. -/
structure KeysKept (t t' : Tables) : Prop where
  templates : t'.templates = t.templates
  nodup : (t.keys.map (·.keyId)).Nodup → (t'.keys.map (·.keyId)).Nodup
  kept : ∀ k ∈ t.keys, ∃ k' ∈ t'.keys, k'.keyId = k.keyId ∧ k'.encryptedKey = k.encryptedKey
  idle : ∀ keyId ∈ t.keys.map (·.keyId), (∀ k ∈ t.keys, k.keyId = keyId → k.isActive = false) →
    ∀ k' ∈ t'.keys, k'.keyId = keyId → k'.isActive = false

theorem KeysKept.refl (t : Tables) : KeysKept t t := ⟨rfl, id, fun k hk => ⟨k, hk, rfl, rfl⟩, fun _ _ h => h⟩

theorem KeysKept.insert {row : KeyRow} (hid : row.keyId ∉ t.keys.map (·.keyId)) :
    KeysKept t { t with keys := t.keys ++ [row] } where
  templates := rfl
  nodup := fun h => Rows.nodup_map_append_singleton h hid
  kept := fun k hk => ⟨k, List.mem_append_left _ hk, rfl, rfl⟩
  idle := by
    intro keyId hkeyId hidle k hk heq
    rcases List.mem_append.mp hk with hk | hk
    · exact hidle k hk heq
    · rw [List.mem_singleton.mp hk] at heq
      exact absurd (heq ▸ hkeyId) hid

theorem KeysKept.update {f : KeyRow → KeyRow} {keyId : String} (hid : ∀ k, (f k).keyId = k.keyId)
    (hwrapped : ∀ k, (f k).encryptedKey = k.encryptedKey) (hactive : ∀ k, (f k).isActive = false) :
    KeysKept t { t with keys := Rows.update (·.keyId) keyId f t.keys } where
  templates := rfl
  nodup := by
    intro h
    show ((Rows.update (·.keyId) keyId f t.keys).map (·.keyId)).Nodup
    rw [Rows.map_update fun k _ _ => hid k]
    exact h
  kept := by
    intro k hk
    by_cases hkey : k.keyId = keyId
    · exact ⟨f k, Rows.mem_update.mpr (.inl ⟨k, hk, hkey, rfl⟩), hid k, hwrapped k⟩
    · exact ⟨k, Rows.mem_update.mpr (.inr ⟨hk, hkey⟩), rfl, rfl⟩
  idle := by
    intro other _ hidle k hk heq
    rcases Rows.mem_update.mp hk with ⟨k₀, -, -, rfl⟩ | ⟨hk, -⟩
    · exact hactive k₀
    · exact hidle k hk heq

theorem KeysKept.held {t' : Tables} (h : KeysKept t t') {key : VaultKey} (hkey : t.KeyHeld p masterKey key) :
    t'.KeyHeld p masterKey key := by
  obtain ⟨k, hk, hid, hmaterial⟩ := hkey
  obtain ⟨k', hk', hid', hwrapped⟩ := h.kept k hk
  exact ⟨k', hk', hid'.trans hid, hwrapped ▸ hmaterial⟩

theorem KeysKept.ids {t' : Tables} (h : KeysKept t t') {keyId : String} (hmem : keyId ∈ t.keys.map (·.keyId)) :
    keyId ∈ t'.keys.map (·.keyId) := by
  obtain ⟨k, hk, rfl⟩ := List.mem_map.mp hmem
  obtain ⟨k', hk', hid, -⟩ := h.kept k hk
  exact List.mem_map.mpr ⟨k', hk', hid⟩

theorem generateKey_kept (t : Tables) (purpose : KeyPurpose) (draw : KeyDraw) (now : Nat) (answers : Answers) :
    KeysKept t (t.generateKey p masterKey purpose draw now answers).1 := by
  obtain ⟨e, heq⟩ | ⟨row, -, hid, -, heq, -⟩ := @generateKey_cases p masterKey t purpose draw now answers
  · rw [heq]
    exact .refl t
  · rw [heq]
    exact .insert hid

theorem init_kept (t : Tables) (draw : KeyDraw) (now : Nat) (answers : Answers) :
    KeysKept t (t.init p masterKey draw now answers).1 := by
  unfold init
  split
  · exact .refl t
  · split
    · exact generateKey_kept t _ draw now answers
    · exact .refl t

theorem retireKey_kept (t : Tables) (keyId : String) : KeysKept t (t.retireKey keyId) :=
  .update (fun _ => rfl) (fun _ => rfl) fun _ => rfl

theorem revokeKey_kept (t : Tables) (keyId : String) (answers : Answers) :
    KeysKept t (t.revokeKey keyId answers) := by
  unfold revokeKey
  obtain hcommit | ⟨t', told, htx, hcommit⟩ :=
    Statements.commit_cases t (some (t.withRevoked keyId)) answers.commits
  · rw [hcommit]
    exact .refl t
  · rw [hcommit, ← Option.some.inj htx]
    exact .update (fun _ => rfl) (fun _ => rfl) fun _ => rfl

theorem retireKey_idle (t : Tables) (keyId : String) :
    ∀ k ∈ (t.retireKey keyId).keys, k.keyId = keyId → k.isActive = false := by
  intro k hk heq
  rcases Rows.mem_update.mp hk with ⟨k₀, -, -, rfl⟩ | ⟨-, hne⟩
  · rfl
  · exact absurd heq hne

/-! ### One row of a page -/

/-- A row of a page that is still as it was read: it stays as it is, or it is sealed again under the new key. The
rotation goes on only in the second case. -/
theorem rotateTemplate_cases (hp : p.DecryptsEncrypted) {k k' : KeyRow} {oldKey newKey : VaultKey}
    {row : TemplateRow} {plaintext : Bytes} (hnodup : (t.templates.map (·.templateId)).Nodup)
    (hrow : row ∈ t.templates) (hold : row.keyId = oldKey.keyId) (hsealed : SealedUnder p masterKey k row plaintext)
    (hmaterial : p.unwrapKeyMaterial masterKey k.encryptedKey = .ok oldKey.keyMaterial)
    (hnew : k'.keyId = newKey.keyId) (hmaterial' :
    p.unwrapKeyMaterial masterKey k'.encryptedKey = .ok newKey.keyMaterial) (nonce : Drawn 12)
    (answers : Answers) :
    (∃ e, t.rotateTemplate p oldKey newKey row nonce answers = (t, .error e)) ∨
    ∃ f : TemplateRow → TemplateRow, SealedUnder p masterKey k' (f row) plaintext ∧
      (∀ r, (f r).templateId = r.templateId) ∧ (∀ r, (f r).voterVin = r.voterVin) ∧
      (∀ r, (f r).keyId = newKey.keyId) ∧
      (t.rotateTemplate p oldKey newKey row nonce answers).1 =
        { t with templates := Rows.update (·.templateId) row.templateId f t.templates } := by
  have hfind : t.template? row.templateId = some row := (Rows.find?_key_eq_some_iff hnodup).mpr ⟨hrow, rfl⟩
  unfold rotateTemplate
  rw [hfind, decryptWithKey_of_sealed hp hsealed hmaterial]
  by_cases hreads : answers.reads
  · simp only [hreads, Bool.not_true, Bool.false_eq_true, if_false, Option.any_some, hold,
      beq_self_eq_true, if_true]
    cases hencrypt : p.encrypt newKey.keyMaterial nonce (aad row.voterVin row.modality) plaintext with
    | none => exact .inl ⟨_, rfl⟩
    | some newCiphertext =>
        simp only
        obtain hcommit | ⟨t', told, htx, hcommit⟩ := Statements.commit_cases t (Statements.exec answers.writes
          (fun t : Tables => some (t.withSealed p newKey row.templateId newCiphertext nonce))
            (some t)) answers.commits
        · left
          simp [hcommit]
        · right
          obtain ⟨-, u, hu, ht'⟩ := Statements.exec_eq_some.mp htx
          cases hu
          cases ht'
          refine ⟨resealed p newKey newCiphertext nonce, ?_, fun _ => rfl, fun _ => rfl, fun _ => rfl, ?_⟩
          · exact ⟨hnew.symm, ⟨newKey.keyMaterial, hmaterial', hencrypt, rfl⟩, nonce.property⟩
          · rw [hcommit]
            rfl
  · left
    simp [hreads]

theorem mem_page {keyId : String} {row : TemplateRow} (h : row ∈ t.page keyId) :
    row ∈ t.templates ∧ row.keyId = keyId := by
  have hsorted := List.mem_of_mem_take h
  rw [List.mem_insertionSort, onKey, List.mem_filter] at hsorted
  exact ⟨hsorted.1, by simpa using hsorted.2⟩

theorem page_nodup (hnodup : (t.templates.map (·.templateId)).Nodup) (keyId : String) :
    ((t.page keyId).map (·.templateId)).Nodup := by
  have hkey : ((t.onKey keyId).map (·.templateId)).Nodup := (List.filter_sublist.map _).nodup hnodup
  have hsorted := ((List.perm_insertionSort (fun a b : TemplateRow => a.templateId ≤ b.templateId)
    (t.onKey keyId)).map (·.templateId)).nodup_iff.mpr hkey
  exact ((List.take_sublist _ _).map _).nodup hsorted

/-- An empty page means that the key has no template left. -/
theorem page_eq_nil {keyId : String} (h : t.page keyId = []) : ∀ row ∈ t.templates, row.keyId ≠ keyId := by
  have hempty : t.onKey keyId = [] := by
    unfold page at h
    rw [List.take_eq_nil_iff] at h
    rcases h with h | h
    · cases h
    · have hlength := (List.perm_insertionSort (fun a b : TemplateRow => a.templateId ≤ b.templateId)
        (t.onKey keyId)).length_eq
      rw [h] at hlength
      exact List.length_eq_zero_iff.mp hlength.symm
  intro row hrow heq
  have hmem : row ∈ t.onKey keyId := List.mem_filter.mpr ⟨hrow, by simpa using heq⟩
  rw [hempty] at hmem
  cases hmem

/-- A row that leaves a key is one fewer on it. -/
theorem onKey_length_lt {keyId : String} {row : TemplateRow} {f : TemplateRow → TemplateRow}
    (hrow : row ∈ t.templates) (hkey : row.keyId = keyId) (hout : ∀ r, (f r).keyId ≠ keyId) :
    (onKey { t with templates := Rows.update (·.templateId) row.templateId f t.templates } keyId).length <
      (t.onKey keyId).length := by
  unfold onKey
  rw [Rows.filter_update_of_out fun r => by simpa using hout r, List.length_filter_lt_length_iff_exists]
  exact ⟨row, List.mem_filter.mpr ⟨hrow, by simpa using hkey⟩, by simp⟩

end Tables

/-! ### The invariant -/

/-- The rotation on its way holds the materials of its two keys, the new one is not a key that was rotated away, and
its page lists rows that are on the old key. -/
def KeyRotation.Intact (p : Primitives) (masterKey : Bytes) (t : Tables) (rotated : List String) (r : KeyRotation) :
    Prop :=
  t.KeyHeld p masterKey r.oldKey ∧
    match r.stage with
    | .generate => True
    | .loadNew newKeyId => newKeyId ≠ r.oldKey.keyId ∧ newKeyId ∉ rotated
    | .retire newKey => t.KeyHeld p masterKey newKey ∧ newKey.keyId ≠ r.oldKey.keyId ∧ newKey.keyId ∉ rotated
    | .page newKey rows =>
        t.KeyHeld p masterKey newKey ∧ newKey.keyId ≠ r.oldKey.keyId ∧ newKey.keyId ∉ rotated ∧
          (∀ k ∈ t.keys, k.keyId = r.oldKey.keyId → k.isActive = false) ∧ (rows.map (·.templateId)).Nodup ∧
          ∀ row ∈ rows, row ∈ t.templates ∧ row.keyId = r.oldKey.keyId

namespace State

variable {s : State}

/-- The id and the voter of each enrolled template. -/
def enrolledIds (s : State) : List (String × String) := s.enrolled.map fun e => (e.1, e.2.1)

structure Intact (p : Primitives) (masterKey : Bytes) (s : State) : Prop where
  keys_nodup : (s.tables.keys.map (·.keyId)).Nodup
  templates_nodup : (s.tables.templates.map (·.templateId)).Nodup
  stored : s.tables.templates.map (fun r => (r.templateId, r.voterVin)) = s.enrolledIds
  sealed : ∀ row ∈ s.tables.templates, ∃ plaintext, (row.templateId, row.voterVin, plaintext) ∈ s.enrolled ∧
    ∃ k ∈ s.tables.keys, SealedUnder p masterKey k row plaintext
  rotated : ∀ old ∈ s.rotated, old ∈ s.tables.keys.map (·.keyId) ∧
    (∀ k ∈ s.tables.keys, k.keyId = old → k.isActive = false) ∧ ∀ row ∈ s.tables.templates, row.keyId ≠ old
  rotation : ∀ r, s.rotation = some r → r.Intact p masterKey s.tables s.rotated

/-- An operation on the keys, and what it leaves of the rotation. -/
theorem Intact.of_keysKept (h : s.Intact p masterKey) {t : Tables} (ht : Tables.KeysKept s.tables t)
    {rotation : Option KeyRotation} (hrotation : ∀ r, rotation = some r → r.Intact p masterKey t s.rotated) :
    ({ s with tables := t, rotation := rotation } : State).Intact p masterKey where
  keys_nodup := ht.nodup h.keys_nodup
  templates_nodup := by
    show (t.templates.map (·.templateId)).Nodup
    rw [ht.templates]
    exact h.templates_nodup
  stored := by
    show t.templates.map (fun r => (r.templateId, r.voterVin)) = s.enrolledIds
    rw [ht.templates]
    exact h.stored
  sealed := by
    intro row hrow
    obtain ⟨plaintext, henrolled, k, hk, hsealed⟩ := h.sealed row (ht.templates ▸ hrow)
    obtain ⟨k', hk', hid, hwrapped⟩ := ht.kept k hk
    refine ⟨plaintext, henrolled, k', hk', hsealed.keyId.trans hid.symm, ?_, hsealed.nonce⟩
    rw [hwrapped]
    exact hsealed.sealed
  rotated := by
    intro old hold
    obtain ⟨hmem, hidle, hgone⟩ := h.rotated old hold
    refine ⟨ht.ids hmem, ht.idle old hmem hidle, ?_⟩
    intro row hrow
    exact hgone row (ht.templates ▸ hrow)
  rotation := hrotation

/-- Only the rotation has moved on. -/
theorem Intact.of_rotation (h : s.Intact p masterKey) {rotation : Option KeyRotation}
    (hrotation : ∀ r, rotation = some r → r.Intact p masterKey s.tables s.rotated) :
    ({ s with rotation := rotation } : State).Intact p masterKey :=
  h.of_keysKept (.refl s.tables) hrotation

theorem Intact.of_keysKept_idle (h : s.Intact p masterKey) {t : Tables} (ht : Tables.KeysKept s.tables t)
    (hidle : s.rotation = none) : ({ s with tables := t } : State).Intact p masterKey := by
  have hnone : ∀ r, s.rotation = some r → r.Intact p masterKey t s.rotated := by
    intro r hr
    rw [hidle] at hr
    cases hr
  exact h.of_keysKept ht hnone

/-! ### What each call keeps -/

theorem not_rotating (hidle : s.rotation = none) {q : KeyRotation → Prop} : ∀ r, s.rotation = some r → q r := by
  intro r hr
  rw [hidle] at hr
  cases hr

theorem logStored_self (s : State) (voterVin : String) (data : Bytes) : s.logStored s.tables voterVin data = s := by
  have hnone : (s.tables.templates.filter
      fun r => decide (r.templateId ∉ s.tables.templates.map (·.templateId))) = [] := by
    rw [List.filter_eq_nil_iff]
    intro r hr
    simpa using ⟨r, hr, rfl⟩
  unfold logStored
  rw [hnone, List.map_nil, List.append_nil]

theorem logStored_append (s : State) (voterVin : String) (data : Bytes) {row : TemplateRow}
    (hfresh : row.templateId ∉ s.tables.templates.map (·.templateId)) :
    s.logStored { s.tables with templates := s.tables.templates ++ [row] } voterVin data =
      { s with
        tables := { s.tables with templates := s.tables.templates ++ [row] }
        enrolled := s.enrolled ++ [(row.templateId, voterVin, data)] } := by
  have hold : (s.tables.templates.filter
      fun r => decide (r.templateId ∉ s.tables.templates.map (·.templateId))) = [] := by
    rw [List.filter_eq_nil_iff]
    intro r hr
    simpa using ⟨r, hr, rfl⟩
  have hnew : ([row].filter fun r => decide (r.templateId ∉ s.tables.templates.map (·.templateId))) = [row] := by
    rw [List.filter_cons_of_pos (by simpa using hfresh), List.filter_nil]
  unfold logStored
  rw [List.filter_append, hold, hnew]
  rfl

theorem Intact.encryptTemplate (h : s.Intact p masterKey) (hidle : s.rotation = none) (voterVin modality : String)
    (data : Bytes) {uuid : String} (nonce : Drawn 12) (answers : Answers)
    (hfresh : "tmpl-" ++ uuid ∉ s.tables.templates.map (·.templateId)) :
    (s.logStored (s.tables.encryptTemplate p masterKey voterVin modality data uuid nonce answers).1 voterVin
      data).Intact p masterKey := by
  obtain heq | ⟨k, hk, hactive, row, hid, hvin, hsealed, heq⟩ :=
    @Tables.encryptTemplate_cases p masterKey s.tables voterVin modality data uuid nonce answers hfresh
  · rw [heq, logStored_self]
    exact h
  · rw [heq, logStored_append s voterVin data (hid ▸ hfresh)]
    refine ⟨h.keys_nodup, Rows.nodup_map_append_singleton h.templates_nodup (hid ▸ hfresh), ?_, ?_, ?_,
      not_rotating hidle⟩
    · have hstored := h.stored
      simp only [enrolledIds] at hstored ⊢
      rw [List.map_append, List.map_append, hstored, List.map_singleton, List.map_singleton, hvin]
    · intro r hr
      rcases List.mem_append.mp hr with hr | hr
      · obtain ⟨plaintext, henrolled, hkey⟩ := h.sealed r hr
        exact ⟨plaintext, List.mem_append_left _ henrolled, hkey⟩
      · rw [List.mem_singleton.mp hr]
        refine ⟨data, List.mem_append_right _ ?_, k, hk, hsealed⟩
        rw [hvin]
        exact List.mem_singleton.mpr rfl
    · intro old hold
      obtain ⟨hmem, hretired, hgone⟩ := h.rotated old hold
      refine ⟨hmem, hretired, ?_⟩
      intro r hr
      rcases List.mem_append.mp hr with hr | hr
      · exact hgone r hr
      · -- the new row is on an active key, and a key that was rotated away is not active
        rw [List.mem_singleton.mp hr, hsealed.keyId]
        intro hkey
        have hinactive := hretired k hk hkey
        simp [Tables.isActiveFor, hinactive] at hactive

theorem Intact.eraseVoterTemplates (h : s.Intact p masterKey) (hidle : s.rotation = none) (voterVin : String)
    (answers : Answers) :
    ({ s with
      tables := s.tables.eraseVoterTemplates voterVin answers
      enrolled :=
        if answers.commits = .refused then s.enrolled
        else s.enrolled.filter fun e => e.2.1 != voterVin } : State).Intact p masterKey := by
  have herased : ({ s with
      tables := s.tables.withoutVoter voterVin
      enrolled := s.enrolled.filter fun e => e.2.1 != voterVin } : State).Intact p masterKey := by
    refine ⟨h.keys_nodup, (List.filter_sublist.map _).nodup h.templates_nodup, ?_, ?_, ?_, not_rotating hidle⟩
    · have hstored := congrArg (List.filter fun e : String × String => e.2 != voterVin) h.stored
      simp only [enrolledIds, List.filter_map] at hstored
      exact hstored
    · intro r hr
      obtain ⟨hr, hvin⟩ := List.mem_filter.mp hr
      obtain ⟨plaintext, henrolled, hkey⟩ := h.sealed r hr
      exact ⟨plaintext, List.mem_filter.mpr ⟨henrolled, hvin⟩, hkey⟩
    · intro old hold
      obtain ⟨hmem, hretired, hgone⟩ := h.rotated old hold
      exact ⟨hmem, hretired, fun r hr => hgone r (List.mem_of_mem_filter hr)⟩
  unfold Tables.eraseVoterTemplates
  cases hreply : answers.commits with
  | refused =>
      simp only [Statements.commit, if_true]
      exact h
  | done => exact herased
  | lost => exact herased

theorem Intact.rotateKey (h : s.Intact p masterKey) (keyId : String) (answers : Answers) :
    (s.act p masterKey (.rotateKey keyId answers)).Intact p masterKey := by
  simp only [act]
  split
  · exact h
  · rename_i oldKey hload
    split
    · exact h
    · apply h.of_rotation
      intro r hr
      cases hr
      exact ⟨(Tables.loadKey_eq_ok hload).2, trivial⟩

theorem Intact.act (h : s.Intact p masterKey) (hidle : s.rotation = none) {action : Action}
    (hdraw : s.Draws action) :
    (s.act p masterKey action).Intact p masterKey := by
  cases action with
  | init draw now answers => exact h.of_keysKept_idle (Tables.init_kept s.tables draw now answers) hidle
  | generateKey purpose draw now answers =>
      exact h.of_keysKept_idle (Tables.generateKey_kept s.tables purpose draw now answers) hidle
  | encryptTemplate voterVin modality data uuid nonce answers =>
      exact h.encryptTemplate hidle voterVin modality data nonce answers hdraw
  | rotateKey keyId answers => exact h.rotateKey keyId answers
  | revokeKey keyId answers => exact h.of_keysKept_idle (Tables.revokeKey_kept s.tables keyId answers) hidle
  | eraseVoterTemplates voterVin answers => exact h.eraseVoterTemplates hidle voterVin answers
  | carryOn turn => exact h
  | crash => exact h

/-! ### What each statement of a rotation keeps -/

theorem Intact.resealed (h : s.Intact p masterKey) {newKey : VaultKey} {row : TemplateRow}
    {f : TemplateRow → TemplateRow} {k' : KeyRow} {plaintext : Bytes} (hk' : k' ∈ s.tables.keys)
    (hnotrotated : newKey.keyId ∉ s.rotated) (hrow : row ∈ s.tables.templates)
    (henrolled : (row.templateId, row.voterVin, plaintext) ∈ s.enrolled)
    (hsealed : SealedUnder p masterKey k' (f row) plaintext) (hid : ∀ r, (f r).templateId = r.templateId)
    (hvin : ∀ r, (f r).voterVin = r.voterVin) (hkey : ∀ r, (f r).keyId = newKey.keyId)
    {rotation : Option KeyRotation} (hrotation : ∀ r, rotation = some r → r.Intact p masterKey
      { s.tables with templates := Rows.update (·.templateId) row.templateId f s.tables.templates } s.rotated) :
    ({ s with
      tables := { s.tables with templates := Rows.update (·.templateId) row.templateId f s.tables.templates }
      rotation := rotation } : State).Intact p masterKey := by
  have hsame : ∀ r ∈ s.tables.templates, r.templateId = row.templateId → r = row :=
    fun r hr heq => Rows.eq_of_key_eq h.templates_nodup hr hrow heq
  refine ⟨h.keys_nodup, ?_, ?_, ?_, ?_, hrotation⟩
  · show ((Rows.update (·.templateId) row.templateId f s.tables.templates).map (·.templateId)).Nodup
    rw [Rows.map_update fun r _ _ => hid r]
    exact h.templates_nodup
  · show (Rows.update (·.templateId) row.templateId f s.tables.templates).map
      (fun r => (r.templateId, r.voterVin)) = s.enrolledIds
    rw [Rows.map_update fun r _ _ => by rw [hid r, hvin r]]
    exact h.stored
  · intro r hr
    rcases Rows.mem_update.mp hr with ⟨r₀, hr₀, heq, rfl⟩ | ⟨hr, -⟩
    · rw [hsame r₀ hr₀ heq]
      refine ⟨plaintext, ?_, k', hk', hsealed⟩
      rw [hid, hvin]
      exact henrolled
    · exact h.sealed r hr
  · intro old hold
    obtain ⟨hmem, hretired, hgone⟩ := h.rotated old hold
    refine ⟨hmem, hretired, ?_⟩
    intro r hr
    rcases Rows.mem_update.mp hr with ⟨r₀, -, -, rfl⟩ | ⟨hr, -⟩
    · rw [hkey]
      intro heq
      exact hnotrotated (heq ▸ hold)
    · exact hgone r hr

/-- A statement of a rotation keeps the invariant, and is one of those the rotation still needs. -/
def Forward (p : Primitives) (masterKey : Bytes) (s s' : State) : Prop :=
  s'.Intact p masterKey ∧ (s'.rotation = none ∨ s'.work < s.work)

theorem Intact.stop (h : s.Intact p masterKey) : ({ s with rotation := none } : State).Intact p masterKey := by
  apply h.of_rotation
  intro r hr
  cases hr

theorem Intact.generate (h : s.Intact p masterKey) {oldKey : VaultKey}
    (hstage : s.rotation = some ⟨oldKey, .generate⟩) (turn : Turn) :
    Forward p masterKey s (s.carryOn p masterKey turn) := by
  have hold := (h.rotation _ hstage).1
  have hkept := @Tables.generateKey_kept p masterKey s.tables .templateEncryption turn.draw turn.now turn.answers
  simp only [carryOn, hstage]
  cases hresult : (s.tables.generateKey p masterKey .templateEncryption turn.draw turn.now turn.answers).2 with
  | error e =>
      refine ⟨h.of_keysKept hkept ?_, .inl rfl⟩
      intro r hr
      cases hr
  | ok newKeyId =>
      refine ⟨h.of_keysKept hkept ?_, .inr ?_⟩
      · intro r hr
        cases hr
        refine ⟨hkept.held hold, ?_⟩
        obtain ⟨e, heq⟩ | ⟨row, -, hid, -, -, htold⟩ :=
          @Tables.generateKey_cases p masterKey s.tables .templateEncryption turn.draw turn.now turn.answers
        · rw [heq] at hresult
          cases hresult
        · have hnewKeyId : newKeyId = row.keyId := by
            rw [hresult] at htold
            split at htold
            · exact Except.ok.inj htold
            · cases htold
          rw [hnewKeyId]
          obtain ⟨k, hk, hkid, -⟩ := hold
          constructor
          · intro heq
            exact hid (heq ▸ hkid ▸ List.mem_map_of_mem hk)
          · intro hmem
            exact hid (h.rotated _ hmem).1
      · simp only [work, hstage, Tables.onKey, hkept.templates]
        omega

theorem Intact.loadNew (h : s.Intact p masterKey) {oldKey : VaultKey} {newKeyId : String}
    (hstage : s.rotation = some ⟨oldKey, .loadNew newKeyId⟩) (turn : Turn) :
    Forward p masterKey s (s.carryOn p masterKey turn) := by
  obtain ⟨hold, hne, hnotrotated⟩ := h.rotation _ hstage
  simp only [carryOn, hstage]
  split
  · rename_i newKey hload
    obtain ⟨hid, hheld⟩ := Tables.loadKey_eq_ok hload
    refine ⟨h.of_rotation ?_, .inr ?_⟩
    · intro r hr
      cases hr
      exact ⟨hold, hheld, hid ▸ hne, hid ▸ hnotrotated⟩
    · simp only [work, hstage]
      omega
  · exact ⟨h.stop, .inl rfl⟩

theorem Intact.retire (h : s.Intact p masterKey) {oldKey newKey : VaultKey}
    (hstage : s.rotation = some ⟨oldKey, .retire newKey⟩) (turn : Turn) :
    Forward p masterKey s (s.carryOn p masterKey turn) := by
  obtain ⟨hold, hnew, hne, hnotrotated⟩ := h.rotation _ hstage
  have hkept := Tables.retireKey_kept s.tables oldKey.keyId
  have hbroken : ({ s with tables := s.tables.retireKey oldKey.keyId, rotation := none } :
      State).Intact p masterKey := by
    apply h.of_keysKept hkept
    intro r hr
    cases hr
  simp only [carryOn, hstage]
  cases hreply : turn.answers.commits with
  | refused => exact ⟨h.stop, .inl rfl⟩
  | lost => exact ⟨hbroken, .inl rfl⟩
  | done =>
      refine ⟨h.of_keysKept hkept ?_, .inr ?_⟩
      · intro r hr
        cases hr
        refine ⟨hkept.held hold, hkept.held hnew, hne, hnotrotated, ?_, List.nodup_nil, ?_⟩
        · exact Tables.retireKey_idle s.tables oldKey.keyId
        · intro row hrow
          cases hrow
      · simp only [Statements.commit, if_true, work, hstage, Tables.onKey, Tables.retireKey]
        omega

theorem Intact.select (h : s.Intact p masterKey) {oldKey newKey : VaultKey}
    (hstage : s.rotation = some ⟨oldKey, .page newKey []⟩) (turn : Turn) :
    Forward p masterKey s (s.carryOn p masterKey turn) := by
  obtain ⟨hold, hnew, hne, hnotrotated, hretired, -, -⟩ := h.rotation _ hstage
  simp only [carryOn, hstage]
  split
  · exact ⟨h.stop, .inl rfl⟩
  · cases hpage : s.tables.page oldKey.keyId with
    | nil =>
        refine ⟨⟨h.keys_nodup, h.templates_nodup, h.stored, h.sealed, ?_, ?_⟩, .inl rfl⟩
        · intro old hmem
          rcases List.mem_append.mp hmem with hmem | hmem
          · exact h.rotated old hmem
          · rw [List.mem_singleton.mp hmem]
            obtain ⟨k, hk, hid, -⟩ := hold
            exact ⟨hid ▸ List.mem_map_of_mem hk, hretired, Tables.page_eq_nil hpage⟩
        · intro r hr
          cases hr
    | cons row rest =>
        refine ⟨h.of_rotation ?_, .inr ?_⟩
        · intro r hr
          cases hr
          refine ⟨hold, hnew, hne, hnotrotated, hretired, ?_, ?_⟩
          · rw [← hpage]
            exact Tables.page_nodup h.templates_nodup oldKey.keyId
          · rw [← hpage]
            intro r hr
            exact Tables.mem_page hr
        · simp only [work, hstage]
          omega

theorem Intact.row (hp : p.DecryptsEncrypted) (h : s.Intact p masterKey) {oldKey newKey : VaultKey}
    {row : TemplateRow} {rest : List TemplateRow} (hstage : s.rotation = some ⟨oldKey, .page newKey (row :: rest)⟩)
    (turn : Turn) : Forward p masterKey s (s.carryOn p masterKey turn) := by
  obtain ⟨hold, hnew, hne, hnotrotated, hretired, hnodup, hrows⟩ := h.rotation _ hstage
  obtain ⟨hrow, hrowkey⟩ := hrows row List.mem_cons_self
  obtain ⟨plaintext, henrolled, k, hk, hsealed⟩ := h.sealed row hrow
  obtain ⟨k', hk', hid', hmaterial'⟩ := hnew
  have hmaterial : p.unwrapKeyMaterial masterKey k.encryptedKey = .ok oldKey.keyMaterial := by
    obtain ⟨k₀, hk₀, hid₀, hmaterial₀⟩ := hold
    have hsame : k₀ = k := Rows.eq_of_key_eq h.keys_nodup hk₀ hk (hid₀.trans (hrowkey.symm.trans hsealed.keyId))
    exact hsame ▸ hmaterial₀
  simp only [carryOn, hstage]
  obtain ⟨e, heq⟩ | ⟨f, hresealed, hid, hvin, hkey, heq⟩ := Tables.rotateTemplate_cases hp h.templates_nodup hrow
    hrowkey hsealed hmaterial hid' hmaterial' turn.nonce turn.answers
  · rw [heq]
    exact ⟨h.stop, .inl rfl⟩
  · rw [heq]
    have hnext : ∀ rotation : Option KeyRotation, (∀ r, rotation = some r → r = ⟨oldKey, .page newKey rest⟩) →
        ({ s with
          tables := { s.tables with templates := Rows.update (·.templateId) row.templateId f s.tables.templates }
          rotation := rotation } : State).Intact p masterKey := by
      intro rotation hrotation
      apply h.resealed hk' hnotrotated hrow henrolled hresealed hid hvin hkey
      intro r hr
      rw [hrotation r hr]
      obtain ⟨hnotin, hrest⟩ := List.nodup_cons.mp hnodup
      refine ⟨hold, ⟨k', hk', hid', hmaterial'⟩, hne, hnotrotated, hretired, hrest, ?_⟩
      intro r' hr'
      obtain ⟨hmem, hon⟩ := hrows r' (List.mem_cons_of_mem _ hr')
      refine ⟨Rows.mem_update.mpr (.inr ⟨hmem, ?_⟩), hon⟩
      intro heq'
      apply hnotin
      show row.templateId ∈ rest.map (·.templateId)
      rw [← heq']
      exact List.mem_map_of_mem hr'
    have hfewer := @Tables.onKey_length_lt s.tables oldKey.keyId row f hrow hrowkey fun r => (hkey r).symm ▸ hne
    cases (s.tables.rotateTemplate p oldKey newKey row turn.nonce turn.answers).2 with
    | error e => exact ⟨hnext none (fun r hr => by cases hr), .inl rfl⟩
    | ok done =>
        refine ⟨hnext _ (fun r hr => (Option.some.inj hr).symm), .inr ?_⟩
        cases rest with
        | nil =>
            simp only [work, hstage]
            omega
        | cons next rest =>
            simp only [work, hstage]
            omega

/-- Every statement of a rotation. -/
theorem Intact.carryOn (hp : p.DecryptsEncrypted) (h : s.Intact p masterKey) {r : KeyRotation}
    (hr : s.rotation = some r) (turn : Turn) : Forward p masterKey s (s.carryOn p masterKey turn) := by
  obtain ⟨oldKey, stage⟩ := r
  cases stage with
  | generate => exact h.generate hr turn
  | loadNew newKeyId => exact h.loadNew hr turn
  | retire newKey => exact h.retire hr turn
  | page newKey rows =>
      cases rows with
      | nil => exact h.select hr turn
      | cons row rest => exact h.row hp hr turn

theorem carryOn_idle (hidle : s.rotation = none) (turn : Turn) : s.carryOn p masterKey turn = s := by
  unfold State.carryOn
  rw [hidle]

theorem Intact.step (hp : p.DecryptsEncrypted) (h : s.Intact p masterKey) {action : Action}
    (hdraw : s.Draws action) :
    (s.step p masterKey action).Intact p masterKey := by
  have hguarded : (if s.rotation.isSome then s else s.act p masterKey action).Intact p masterKey := by
    cases hidle : s.rotation with
    | some r => simpa using h
    | none => simpa using h.act hidle hdraw
  cases action with
  | carryOn turn =>
      cases hr : s.rotation with
      | none =>
          show (s.carryOn p masterKey turn).Intact p masterKey
          rw [carryOn_idle hr]
          exact h
      | some r => exact (h.carryOn hp hr turn).1
  | crash => exact h.stop
  | init draw now answers => exact hguarded
  | generateKey purpose draw now answers => exact hguarded
  | encryptTemplate voterVin modality data uuid nonce answers => exact hguarded
  | rotateKey keyId answers => exact hguarded
  | revokeKey keyId answers => exact hguarded
  | eraseVoterTemplates voterVin answers => exact hguarded

/-! ### What the vault promises -/

theorem Intact.work_pos (h : s.Intact p masterKey) {r : KeyRotation} (hr : s.rotation = some r) : 0 < s.work := by
  have hrotation := h.rotation r hr
  obtain ⟨oldKey, stage⟩ := r
  cases stage with
  | generate => simp [work, hr]
  | loadNew newKeyId => simp [work, hr]
  | retire newKey => simp [work, hr]
  | page newKey rows =>
      cases rows with
      | nil => simp [work, hr]
      | cons row rest =>
          obtain ⟨-, -, -, -, -, -, hrows⟩ := hrotation
          obtain ⟨hrow, hkey⟩ := hrows row List.mem_cons_self
          have hmem : row ∈ s.tables.onKey oldKey.keyId := List.mem_filter.mpr ⟨hrow, by simpa using hkey⟩
          have hlength := List.length_pos_of_mem hmem
          simp only [work, hr]
          omega

/-- The batched loop of a rotation ends: with as many statements as it may need, whatever the database answers
to them, the rotation has returned. -/
theorem Intact.ends (hp : p.DecryptsEncrypted) (h : s.Intact p masterKey) {turns : List Turn}
    (hwork : s.work ≤ turns.length) :
    (Runs.final (State.step p masterKey) s (turns.map .carryOn)).rotation = none := by
  induction turns generalizing s with
  | nil =>
      show s.rotation = none
      cases hr : s.rotation with
      | none => rfl
      | some r =>
          have hpos := h.work_pos hr
          rw [List.length_nil] at hwork
          omega
  | cons turn rest ih =>
      rw [List.map_cons, Runs.final_cons]
      show (Runs.final (State.step p masterKey) (s.carryOn p masterKey turn) (rest.map .carryOn)).rotation = none
      cases hr : s.rotation with
      | none =>
          rw [carryOn_idle hr]
          apply ih h
          simp [work, hr]
      | some r =>
          obtain ⟨hnext, hdone | hless⟩ := h.carryOn hp hr turn
          · apply ih hnext
            simp [work, hdone]
          · apply ih hnext
            rw [List.length_cons] at hwork
            omega

/-- No template is lost: what was enrolled is stored, a row whose key is not revoked decrypts to what was
enrolled, each row belongs to one key, the loop of a rotation ends, and a key that was rotated away has no
template left. -/
structure Kept (p : Primitives) (masterKey : Bytes) (s : State) : Prop where
  stored : s.tables.templates.map (fun r => (r.templateId, r.voterVin)) = s.enrolledIds
  decrypts : ∀ row ∈ s.tables.templates, ∀ k ∈ s.tables.keys, k.keyId = row.keyId → k.isRevoked = false →
    ∃ plaintext, (row.templateId, row.voterVin, plaintext) ∈ s.enrolled ∧
      s.tables.decryptTemplate p masterKey true row.templateId = .ok plaintext
  sealed : ∀ row ∈ s.tables.templates, ∃ k ∈ s.tables.keys, ∃ plaintext, SealedUnder p masterKey k row plaintext
  ends : ∀ turns : List Turn, s.work ≤ turns.length →
    (Runs.final (State.step p masterKey) s (turns.map .carryOn)).rotation = none
  cleared : ∀ old ∈ s.rotated, ∀ row ∈ s.tables.templates, row.keyId ≠ old

theorem Intact.kept (hp : p.DecryptsEncrypted) (h : s.Intact p masterKey) : s.Kept p masterKey where
  stored := h.stored
  decrypts := by
    intro row hrow k hk hid hrevoked
    obtain ⟨plaintext, henrolled, k', hk', hsealed⟩ := h.sealed row hrow
    have hsame : k' = k := Rows.eq_of_key_eq h.keys_nodup hk' hk (hsealed.keyId.symm.trans hid.symm)
    rw [hsame] at hsealed
    exact ⟨plaintext, henrolled,
      Tables.decryptTemplate_of_sealed hp h.keys_nodup h.templates_nodup hrow hk hsealed hrevoked⟩
  sealed := by
    intro row hrow
    obtain ⟨plaintext, -, k, hk, hsealed⟩ := h.sealed row hrow
    exact ⟨k, hk, plaintext, hsealed⟩
  ends := fun _ hwork => h.ends hp hwork
  cleared := fun old hold => (h.rotated old hold).2.2

theorem empty_intact : empty.Intact p masterKey :=
  ⟨List.nodup_nil, List.nodup_nil, rfl, fun _ h => (by cases h), fun _ h => (by cases h), fun _ h => (by cases h)⟩

/-- Whatever calls are made one after the other, and wherever one of them is cut off, the vault keeps its
templates. -/
theorem kept_of_run (hp : p.DecryptsEncrypted) (actions : List Action)
    (hdraws : Runs.AllSteps (State.step p masterKey) Draws empty actions) :
    ∀ s ∈ Runs.visited (State.step p masterKey) empty actions, s.Kept p masterKey := by
  have hintact : ∀ s ∈ Runs.visited (State.step p masterKey) empty actions, s.Intact p masterKey :=
    Runs.forall_visited (fun _ _ h hdraw => h.step hp hdraw) empty_intact hdraws
  intro s hs
  exact (hintact s hs).kept hp

/-- A cipher that puts the key, the nonce and the associated data in front of the message, and opens nothing
else. -/
def boxes : Primitives where
  encrypt key nonce aad msg := some (key ++ nonce ++ aad ++ msg)
  decrypt key nonce aad ciphertext :=
    if (key ++ nonce ++ aad).isPrefixOf ciphertext then some
      (ciphertext.drop (key ++ nonce ++ aad).length) else none
  expand salt key info := some (salt ++ key ++ info)
  hmac key data := String.ofList ((key ++ data).map fun byte => Char.ofNat byte.toNat)

theorem boxes_decryptsEncrypted : boxes.DecryptsEncrypted := by
  intro key nonce aad msg ciphertext h
  cases h
  have hopens : (key ++ nonce ++ aad).isPrefixOf (key ++ nonce ++ aad ++ msg) = true := by
    rw [List.isPrefixOf_iff_prefix]
    exact List.prefix_append _ _
  simp only [boxes, hopens, if_true, List.drop_left]

def nonceOf (byte : UInt8) : Drawn 12 := ⟨List.replicate 12 byte, List.length_replicate⟩

def drawOf (uuid : String) : KeyDraw := ⟨uuid, ⟨List.replicate 32 7, List.length_replicate⟩, nonceOf 9⟩

def turnOf (uuid : String) (byte : UInt8) (answers : Answers) : Turn := ⟨drawOf uuid, nonceOf byte, 1, answers⟩

/-- Two templates; a rotation that loses the answer of its first commit, and one that is run again and ends. -/
def resumedRotation : List Action :=
  [.init (drawOf "a") 0 .good, .encryptTemplate "V1" "face" [1, 2] "s" (nonceOf 1) .good,
    .encryptTemplate "V2" "iris" [3] "r" (nonceOf 2) .good, .rotateKey "key-a" .good,
    .carryOn (turnOf "b" 3 .good), .carryOn (turnOf "" 3 .good), .carryOn (turnOf "" 3 .good),
    .carryOn (turnOf "" 3 .good), .carryOn (turnOf "" 3 ⟨true, true, .lost⟩), .rotateKey "key-a" .good,
    .carryOn (turnOf "c" 4 .good), .carryOn (turnOf "" 4 .good), .carryOn (turnOf "" 4 .good),
    .carryOn (turnOf "" 4 .good), .carryOn (turnOf "" 4 .good), .carryOn (turnOf "" 4 .good)]

theorem kept_of_resumed_rotation :
    Runs.AllSteps (State.step boxes [1]) Draws empty resumedRotation ∧
      ∀ s ∈ Runs.visited (State.step boxes [1]) empty resumedRotation, s.Kept boxes [1] := by
  have hdraws : Runs.AllSteps (State.step boxes [1]) Draws empty resumedRotation := by decide +kernel
  exact ⟨hdraws, kept_of_run boxes_decryptsEncrypted _ hdraws⟩

end State

end Inec.Vault
