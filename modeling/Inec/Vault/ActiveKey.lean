import Inec.Vault.Rotation

/-!
# The active key

A vault is to have one active key for its templates. The schema does not say so: `generate_key` inserts an
active key whatever there is, and `rotate_key` inserts the new key before it retires the old one. A rotation
that is cut off between the two leaves both active, and so does the run that resumes it, whose old key is no
longer the active one.

What is kept is a statement about the rotation on its way: before its `INSERT` no key but the old one is active,
then no key but the old and the new one, and after its `UPDATE` no key but the new one.
-/

namespace Inec.Vault

variable {p : Primitives} {masterKey : Bytes}

namespace Tables

variable {t : Tables}

/-- The keys have different ids and can be unwrapped. -/
structure WellKept (p : Primitives) (masterKey : Bytes) (t : Tables) : Prop where
  nodup : (t.keys.map (·.keyId)).Nodup
  unwraps : ∀ k ∈ t.keys, ∃ material, p.unwrapKeyMaterial masterKey k.encryptedKey = .ok material

theorem generateKey_wellKept (hp : p.DecryptsEncrypted) (h : t.WellKept p masterKey) (purpose : KeyPurpose)
    (draw : KeyDraw) (now : Nat) (answers : Answers) :
    (t.generateKey p masterKey purpose draw now answers).1.WellKept p masterKey := by
  obtain ⟨e, heq⟩ | ⟨row, hnew, hid, -, heq, -⟩ := @generateKey_cases p masterKey t purpose draw now answers
  · rw [heq]
    exact h
  · rw [heq]
    refine ⟨Rows.nodup_map_append_singleton h.nodup hid, ?_⟩
    intro k hk
    rcases List.mem_append.mp hk with hk | hk
    · exact h.unwraps k hk
    · rw [List.mem_singleton.mp hk]
      exact (newKey_spec hp hnew).2.2.2

theorem update_wellKept {f : KeyRow → KeyRow} {keyId : String} (hid : ∀ k, (f k).keyId = k.keyId)
    (hwrapped : ∀ k, (f k).encryptedKey = k.encryptedKey) (h : t.WellKept p masterKey) :
    WellKept p masterKey { t with keys := Rows.update (·.keyId) keyId f t.keys } := by
  constructor
  · show ((Rows.update (·.keyId) keyId f t.keys).map (·.keyId)).Nodup
    rw [Rows.map_update fun k _ _ => hid k]
    exact h.nodup
  · intro k hk
    rcases Rows.mem_update.mp hk with ⟨k₀, hk₀, -, rfl⟩ | ⟨hk, -⟩
    · rw [hwrapped]
      exact h.unwraps k₀ hk₀
    · exact h.unwraps k hk

/-- Retiring and revoking make no key active. -/
theorem activeKeys_update {f : KeyRow → KeyRow} {keyId : String} (hactive : ∀ k, (f k).isActive = false) :
    ∀ k ∈ activeKeys { t with keys := Rows.update (·.keyId) keyId f t.keys }, k ∈ t.activeKeys ∧
      k.keyId ≠ keyId := by
  intro k hk
  obtain ⟨hmem, hk⟩ := List.mem_filter.mp hk
  rcases Rows.mem_update.mp hmem with ⟨k₀, -, -, rfl⟩ | ⟨hmem, hne⟩
  · simp [isActiveFor, hactive] at hk
  · exact ⟨List.mem_filter.mpr ⟨hmem, hk⟩, hne⟩

theorem activeKeys_insert (row : KeyRow) :
    ∀ k ∈ activeKeys { t with keys := t.keys ++ [row] }, k ∈ t.activeKeys ∨ k = row := by
  intro k hk
  obtain ⟨hmem, hk⟩ := List.mem_filter.mp hk
  rcases List.mem_append.mp hmem with hmem | hmem
  · exact .inl (List.mem_filter.mpr ⟨hmem, hk⟩)
  · exact .inr (List.mem_singleton.mp hmem)

/-- No template key but these is active. -/
def OnlyActive (t : Tables) (ids : List String) : Prop := ∀ k ∈ t.activeKeys, k.keyId ∈ ids

instance (ids : List String) : Decidable (t.OnlyActive ids) := inferInstanceAs (Decidable (∀ k ∈ t.activeKeys, _))

theorem OnlyActive.length_le_one {keyId : String} (h : t.OnlyActive [keyId])
    (hnodup : (t.keys.map (·.keyId)).Nodup) :
    t.activeKeys.length ≤ 1 := by
  have hactive : (t.activeKeys.map (·.keyId)).Nodup := (List.filter_sublist.map _).nodup hnodup
  rcases Rows.eq_nil_or_singleton hactive.of_map
    (fun k hk k' hk' => Rows.eq_of_key_eq hactive hk hk'
      ((List.mem_singleton.mp (h k hk)).trans (List.mem_singleton.mp (h k' hk')).symm)) with hnone | ⟨k, hone⟩
  · rw [hnone]
    exact Nat.zero_le _
  · rw [hone]
    exact Nat.le_refl _

/-- What is not active does not count. -/
theorem OnlyActive.tail {keyId keyId' : String} (h : t.OnlyActive [keyId, keyId'])
    (hidle : ¬ ∃ k ∈ t.activeKeys, k.keyId = keyId') : t.OnlyActive [keyId] := by
  intro k hk
  rcases List.mem_cons.mp (h k hk) with heq | hmem
  · rw [heq]
    exact List.mem_singleton.mpr rfl
  · exact absurd ⟨k, hk, List.mem_singleton.mp hmem⟩ hidle

theorem onlyActive_insert {ids : List String} (h : t.OnlyActive ids) (row : KeyRow) :
    OnlyActive { t with keys := t.keys ++ [row] } (row.keyId :: ids) := by
  intro k hk
  rcases activeKeys_insert row k hk with hk | rfl
  · exact List.mem_cons_of_mem _ (h k hk)
  · exact List.mem_cons_self

/-- A key for another purpose is not among the active ones. -/
theorem onlyActive_insert_other {ids : List String} (h : t.OnlyActive ids) {row : KeyRow}
    (hpurpose : row.purpose ≠ .templateEncryption) : OnlyActive { t with keys := t.keys ++ [row] } ids := by
  intro k hk
  rcases activeKeys_insert row k hk with hmem | rfl
  · exact h k hmem
  · have hfor := (List.mem_filter.mp hk).2
    simp [isActiveFor, hpurpose] at hfor

end Tables

namespace State

variable {s : State}

/-- The old key of a rotation is one of the active ones. -/
def OldActive (s : State) (oldKey : VaultKey) : Prop := ∃ k ∈ s.tables.activeKeys, k.keyId = oldKey.keyId

instance (oldKey : VaultKey) : Decidable (s.OldActive oldKey) :=
  inferInstanceAs (Decidable (∃ k ∈ s.tables.activeKeys, _))

/-- What the next statement of a rotation has to meet: the new key is inserted while no key but the old one is
active, and a rotation of an active key gets from there to the end of its `UPDATE`. -/
def MayTurn (s : State) (answers : Answers) (r : KeyRotation) : Prop :=
  match r.stage with
  | .generate =>
      answers.commits ≠ .refused →
        s.tables.OnlyActive [r.oldKey.keyId] ∧ (s.OldActive r.oldKey → answers.commits = .done)
  | .loadNew _ => s.OldActive r.oldKey → answers.reads = true
  | .retire _ => s.OldActive r.oldKey → answers.commits ≠ .refused
  | .page _ _ => True

/-- Where a rotation may be cut off. -/
def MayCrash (s : State) (r : KeyRotation) : Prop :=
  match r.stage with
  | .generate | .page _ _ => True
  | .loadNew _ | .retire _ => ¬ s.OldActive r.oldKey

instance (answers : Answers) : (r : KeyRotation) → Decidable (s.MayTurn answers r)
  | ⟨oldKey, .generate⟩ =>
      inferInstanceAs (Decidable (answers.commits ≠ .refused →
        s.tables.OnlyActive [oldKey.keyId] ∧ (s.OldActive oldKey → answers.commits = .done)))
  | ⟨oldKey, .loadNew _⟩ => inferInstanceAs (Decidable (s.OldActive oldKey → answers.reads = true))
  | ⟨oldKey, .retire _⟩ => inferInstanceAs (Decidable (s.OldActive oldKey → answers.commits ≠ .refused))
  | ⟨_, .page _ _⟩ => .isTrue trivial

instance : (r : KeyRotation) → Decidable (s.MayCrash r)
  | ⟨_, .generate⟩ | ⟨_, .page _ _⟩ => .isTrue trivial
  | ⟨oldKey, .loadNew _⟩ | ⟨oldKey, .retire _⟩ => inferInstanceAs (Decidable (¬ s.OldActive oldKey))

/-- A template key is inserted while no other is active but the one that is being rotated, and a rotation of the
active key is not broken off before it has retired it. -/
def OneAtATime (s : State) : Action → Prop
  | .generateKey purpose _ _ answers =>
      purpose = .templateEncryption → s.rotation = none → answers.commits ≠ .refused → s.tables.OnlyActive []
  | .carryOn turn => ∀ r ∈ s.rotation, s.MayTurn turn.answers r
  | .crash => ∀ r ∈ s.rotation, s.MayCrash r
  | _ => True

instance : (s : State) → (action : Action) → Decidable (s.OneAtATime action)
  | s, .generateKey purpose _ _ answers =>
      inferInstanceAs (Decidable (purpose = .templateEncryption → s.rotation = none → answers.commits ≠ .refused →
        s.tables.OnlyActive []))
  | s, .carryOn turn => inferInstanceAs (Decidable (∀ r ∈ s.rotation, s.MayTurn turn.answers r))
  | s, .crash => inferInstanceAs (Decidable (∀ r ∈ s.rotation, s.MayCrash r))
  | _, .init .. | _, .encryptTemplate .. | _, .rotateKey .. | _, .revokeKey .. | _, .eraseVoterTemplates .. =>
      .isTrue trivial

/-- The keys that may be active at this stage of the rotation. -/
def MayBeActive (s : State) : Prop :=
  match s.rotation with
  | none | some ⟨_, .generate⟩ => ∃ keyId, s.tables.OnlyActive [keyId]
  | some ⟨oldKey, .loadNew newKeyId⟩ =>
      newKeyId ∈ s.tables.keys.map (·.keyId) ∧ s.tables.OnlyActive [newKeyId, oldKey.keyId]
  | some ⟨oldKey, .retire newKey⟩ => s.tables.OnlyActive [newKey.keyId, oldKey.keyId]
  | some ⟨_, .page newKey _⟩ => s.tables.OnlyActive [newKey.keyId]

/-- One active key at most, and `encrypt_template` takes it. -/
structure SingleKey (p : Primitives) (masterKey : Bytes) (s : State) : Prop where
  single : s.tables.activeKeys.length ≤ 1
  used : ∀ voterVin modality data uuid nonce answers row,
    (s.tables.encryptTemplate p masterKey voterVin modality data uuid nonce answers).2 = .ok row →
      s.tables.activeKeys.map (·.keyId) = [row.keyId]

theorem MayBeActive.of_idle (hidle : s.rotation = none) (h : ∃ keyId, s.tables.OnlyActive [keyId]) :
    s.MayBeActive := by
  unfold MayBeActive
  rw [hidle]
  exact h

theorem MayBeActive.idle (h : s.MayBeActive) (hidle : s.rotation = none) :
    ∃ keyId, s.tables.OnlyActive [keyId] := by
  unfold MayBeActive at h
  rw [hidle] at h
  exact h

theorem encryptTemplate_keys (t : Tables) (voterVin modality : String) (data : Bytes) (uuid : String)
    (nonce : Drawn 12) (answers : Answers) :
    (t.encryptTemplate p masterKey voterVin modality data uuid nonce answers).1.keys = t.keys := by
  unfold Tables.encryptTemplate
  split
  · rfl
  · split
    · rfl
    · rename_i row hseal
      obtain hcommit | ⟨t', told, htx, hcommit⟩ := Statements.commit_cases t (t.upsertTemplate row) answers.commits
      · rw [hcommit]
      · rw [hcommit]
        unfold Tables.upsertTemplate at htx
        split at htx
        · cases htx
        · split at htx
          · cases htx
            rfl
          · cases htx
            rfl

theorem rotateTemplate_keys (t : Tables) (oldKey newKey : VaultKey) (row : TemplateRow) (nonce : Drawn 12)
    (answers : Answers) : (t.rotateTemplate p oldKey newKey row nonce answers).1.keys = t.keys := by
  unfold Tables.rotateTemplate
  split
  · rfl
  · split
    · split
      · rfl
      · split
        · rfl
        · rename_i newCiphertext hencrypt
          obtain hcommit | ⟨t', told, htx, hcommit⟩ := Statements.commit_cases t (Statements.exec answers.writes
            (fun t : Tables => some (t.withSealed p newKey row.templateId newCiphertext nonce)) (some t))
            answers.commits
          · simp only [hcommit]
          · obtain ⟨-, u, hu, ht'⟩ := Statements.exec_eq_some.mp htx
            cases hu
            cases ht'
            simp only [hcommit]
            rfl
    · rfl

/-- The keys of a state, and which of them may be active. -/
structure OneKey (p : Primitives) (masterKey : Bytes) (s : State) : Prop where
  wellKept : s.tables.WellKept p masterKey
  active : s.MayBeActive

/-- Both speak of the keys only. -/
theorem WellKept.of_keys {t t' : Tables} (h : t.WellKept p masterKey) (hkeys : t'.keys = t.keys) :
    t'.WellKept p masterKey := ⟨hkeys ▸ h.nodup, hkeys ▸ h.unwraps⟩

theorem OnlyActive.of_keys {t t' : Tables} {ids : List String} (h : t.OnlyActive ids) (hkeys : t'.keys = t.keys) :
    t'.OnlyActive ids := by
  unfold Tables.OnlyActive Tables.activeKeys
  rw [hkeys]
  exact h

theorem OneKey.act (hp : p.DecryptsEncrypted) (h : s.OneKey p masterKey)
    (hidle : s.rotation = none) {action : Action} (hone : s.OneAtATime action) :
    (s.act p masterKey action).OneKey p masterKey := by
  obtain ⟨keyId, honly⟩ := h.active.idle hidle
  cases action with
  | init draw now answers =>
      simp only [State.act, Tables.init]
      split
      · exact h
      · split
        · rename_i hnone
          refine ⟨Tables.generateKey_wellKept hp h.wellKept _ draw now answers, .of_idle hidle ?_⟩
          have hempty : s.tables.OnlyActive [] := by
            intro k hk
            rw [List.length_eq_zero_iff.mp hnone] at hk
            cases hk
          show ∃ keyId, (s.tables.generateKey p masterKey .templateEncryption draw now answers).1.OnlyActive [keyId]
          obtain ⟨e, heq⟩ | ⟨row, -, -, -, heq, -⟩ :=
            @Tables.generateKey_cases p masterKey s.tables .templateEncryption draw now answers
          · rw [heq]
            exact ⟨keyId, honly⟩
          · rw [heq]
            exact ⟨row.keyId, Tables.onlyActive_insert hempty row⟩
        · exact h
  | generateKey purpose draw now answers =>
      refine ⟨Tables.generateKey_wellKept hp h.wellKept purpose draw now answers, .of_idle hidle ?_⟩
      show ∃ keyId, (s.tables.generateKey p masterKey purpose draw now answers).1.OnlyActive [keyId]
      obtain ⟨e, heq⟩ | ⟨row, hnew, -, hrefused, heq, -⟩ :=
        @Tables.generateKey_cases p masterKey s.tables purpose draw now answers
      · rw [heq]
        exact ⟨keyId, honly⟩
      · rw [heq]
        by_cases hpurpose : purpose = .templateEncryption
        · exact ⟨row.keyId, Tables.onlyActive_insert (hone hpurpose hidle hrefused) row⟩
        · exact ⟨keyId, Tables.onlyActive_insert_other honly ((Tables.newKey_spec hp hnew).1 ▸ hpurpose)⟩
  | encryptTemplate voterVin modality data uuid nonce answers =>
      have hkeys := @encryptTemplate_keys p masterKey s.tables voterVin modality data uuid nonce answers
      exact ⟨WellKept.of_keys h.wellKept hkeys, .of_idle hidle ⟨keyId, OnlyActive.of_keys honly hkeys⟩⟩
  | rotateKey loaded answers =>
      simp only [State.act]
      split
      · exact h
      · split
        · exact h
        · exact ⟨h.wellKept, keyId, honly⟩
  | revokeKey revoked answers =>
      simp only [State.act, Tables.revokeKey]
      obtain hcommit | ⟨t', told, htx, hcommit⟩ :=
        Statements.commit_cases s.tables (some (s.tables.withRevoked revoked)) answers.commits
      · rw [hcommit]
        exact h
      · rw [hcommit, ← Option.some.inj htx]
        refine ⟨Tables.update_wellKept (fun _ => rfl) (fun _ => rfl) h.wellKept, .of_idle hidle ⟨keyId, ?_⟩⟩
        intro k hk
        exact honly k (Tables.activeKeys_update (fun _ => rfl) k hk).1
  | eraseVoterTemplates voterVin answers =>
      have hkeys : (s.tables.eraseVoterTemplates voterVin answers).keys = s.tables.keys := by
        unfold Tables.eraseVoterTemplates
        cases answers.commits <;> rfl
      exact ⟨WellKept.of_keys h.wellKept hkeys, .of_idle hidle ⟨keyId, OnlyActive.of_keys honly hkeys⟩⟩
  | carryOn turn => exact h
  | crash => exact h

theorem OneKey.generate (hp : p.DecryptsEncrypted) (h : s.OneKey p masterKey) {oldKey : VaultKey}
    (hstage : s.rotation = some ⟨oldKey, .generate⟩) {turn : Turn} (hone : s.OneAtATime (.carryOn turn)) :
    (s.carryOn p masterKey turn).OneKey p masterKey := by
  have hactive := h.active
  simp only [MayBeActive, hstage] at hactive
  have hone := hone _ hstage
  have hwell := Tables.generateKey_wellKept hp h.wellKept .templateEncryption turn.draw turn.now turn.answers
  simp only [State.carryOn, hstage]
  obtain ⟨e, heq⟩ | ⟨row, -, -, hrefused, heq, htold⟩ :=
    @Tables.generateKey_cases p masterKey s.tables .templateEncryption turn.draw turn.now turn.answers
  · rw [heq]
    exact ⟨h.wellKept, hactive⟩
  · rw [heq] at hwell
    obtain ⟨hold, hdone⟩ := hone hrefused
    by_cases hreply : turn.answers.commits = .done
    · rw [htold, heq, if_pos hreply]
      refine ⟨hwell, ?_, Tables.onlyActive_insert hold row⟩
      rw [List.map_append, List.mem_append]
      exact .inr (List.mem_singleton.mpr rfl)
    · -- the answer of the `INSERT` is lost: the old key must not be active besides
      rw [htold, heq, if_neg hreply]
      refine ⟨hwell, .of_idle rfl ⟨row.keyId, ?_⟩⟩
      have hidle : s.tables.OnlyActive [] := by
        intro k hk
        exact absurd (hdone ⟨k, hk, List.mem_singleton.mp (hold k hk)⟩) hreply
      exact Tables.onlyActive_insert hidle row

theorem OneKey.loadNew (h : s.OneKey p masterKey) {oldKey : VaultKey} {newKeyId : String}
    (hstage : s.rotation = some ⟨oldKey, .loadNew newKeyId⟩) {turn : Turn} (hone : s.OneAtATime (.carryOn turn)) :
    (s.carryOn p masterKey turn).OneKey p masterKey := by
  have hactive := h.active
  simp only [MayBeActive, hstage] at hactive
  have hone := hone _ hstage
  obtain ⟨hmem, honly⟩ := hactive
  simp only [State.carryOn, hstage]
  cases hreads : turn.answers.reads with
  | false =>
      refine ⟨h.wellKept, .of_idle rfl ⟨newKeyId, honly.tail ?_⟩⟩
      intro hold
      rw [hone hold] at hreads
      cases hreads
  | true =>
      obtain ⟨k, hk, rfl⟩ := List.mem_map.mp hmem
      obtain ⟨material, hmaterial⟩ := h.wellKept.unwraps k hk
      rw [Tables.loadKey_of_mem h.wellKept.nodup hk hmaterial]
      exact ⟨h.wellKept, honly⟩

theorem OneKey.retire (h : s.OneKey p masterKey) {oldKey newKey : VaultKey}
    (hstage : s.rotation = some ⟨oldKey, .retire newKey⟩) {turn : Turn} (hone : s.OneAtATime (.carryOn turn)) :
    (s.carryOn p masterKey turn).OneKey p masterKey := by
  have hactive := h.active
  simp only [MayBeActive, hstage] at hactive
  have hone := hone _ hstage
  have hwell : (s.tables.retireKey oldKey.keyId).WellKept p masterKey :=
    Tables.update_wellKept (fun _ => rfl) (fun _ => rfl) h.wellKept
  have honly : (s.tables.retireKey oldKey.keyId).OnlyActive [newKey.keyId] := by
    intro k hk
    obtain ⟨hmem, hne⟩ := Tables.activeKeys_update (fun _ => rfl) k hk
    rcases List.mem_cons.mp (hactive k hmem) with heq | heq
    · rw [heq]
      exact List.mem_singleton.mpr rfl
    · exact absurd (List.mem_singleton.mp heq) hne
  simp only [State.carryOn, hstage]
  cases hreply : turn.answers.commits with
  | refused =>
      refine ⟨h.wellKept, .of_idle rfl ⟨newKey.keyId, hactive.tail ?_⟩⟩
      intro hold
      exact hone hold hreply
  | lost => exact ⟨hwell, .of_idle rfl ⟨newKey.keyId, honly⟩⟩
  | done => exact ⟨hwell, honly⟩

theorem OneKey.page (h : s.OneKey p masterKey) {oldKey newKey : VaultKey} {rows : List TemplateRow}
    (hstage : s.rotation = some ⟨oldKey, .page newKey rows⟩) (turn : Turn) :
    (s.carryOn p masterKey turn).OneKey p masterKey := by
  have hactive := h.active
  simp only [MayBeActive, hstage] at hactive
  cases rows with
  | nil =>
      simp only [State.carryOn, hstage]
      split
      · exact ⟨h.wellKept, newKey.keyId, hactive⟩
      · split
        · exact ⟨h.wellKept, newKey.keyId, hactive⟩
        · exact ⟨h.wellKept, hactive⟩
  | cons row rest =>
      have hkeys := @rotateTemplate_keys p s.tables oldKey newKey row turn.nonce turn.answers
      simp only [State.carryOn, hstage]
      cases (s.tables.rotateTemplate p oldKey newKey row turn.nonce turn.answers).2 with
      | error e =>
          exact ⟨WellKept.of_keys h.wellKept hkeys, .of_idle rfl ⟨newKey.keyId, OnlyActive.of_keys hactive hkeys⟩⟩
      | ok done => exact ⟨WellKept.of_keys h.wellKept hkeys, OnlyActive.of_keys hactive hkeys⟩

theorem OneKey.carryOn (hp : p.DecryptsEncrypted) (h : s.OneKey p masterKey) {turn : Turn}
    (hone : s.OneAtATime (.carryOn turn)) : (s.carryOn p masterKey turn).OneKey p masterKey := by
  cases hr : s.rotation with
  | none =>
      rw [carryOn_idle hr]
      exact h
  | some r =>
      obtain ⟨oldKey, stage⟩ := r
      cases stage with
      | generate => exact h.generate hp hr hone
      | loadNew newKeyId => exact h.loadNew hr hone
      | retire newKey => exact h.retire hr hone
      | page newKey rows => exact h.page hr turn

theorem OneKey.crash (h : s.OneKey p masterKey) (hone : s.OneAtATime .crash) :
    (s.step p masterKey .crash).OneKey p masterKey := by
  have hactive := h.active
  refine ⟨h.wellKept, .of_idle rfl ?_⟩
  show ∃ keyId, s.tables.OnlyActive [keyId]
  cases hr : s.rotation with
  | none => exact h.active.idle hr
  | some r =>
      obtain ⟨oldKey, stage⟩ := r
      cases stage with
      | generate =>
          simp only [MayBeActive, hr] at hactive
          exact hactive
      | loadNew newKeyId =>
          simp only [MayBeActive, hr] at hactive
          have hone := hone _ hr
          exact ⟨newKeyId, hactive.2.tail hone⟩
      | retire newKey =>
          simp only [MayBeActive, hr] at hactive
          have hone := hone _ hr
          exact ⟨newKey.keyId, hactive.tail hone⟩
      | page newKey rows =>
          simp only [MayBeActive, hr] at hactive
          exact ⟨newKey.keyId, hactive⟩

theorem OneKey.step (hp : p.DecryptsEncrypted) (h : s.OneKey p masterKey) {action : Action}
    (hone : s.OneAtATime action) : (s.step p masterKey action).OneKey p masterKey := by
  have hguarded : (if s.rotation.isSome then s else s.act p masterKey action).OneKey p masterKey := by
    cases hidle : s.rotation with
    | some r => simpa using h
    | none => simpa using h.act hp hidle hone
  cases action with
  | carryOn turn => exact h.carryOn hp hone
  | crash => exact h.crash hone
  | init draw now answers => exact hguarded
  | generateKey purpose draw now answers => exact hguarded
  | encryptTemplate voterVin modality data uuid nonce answers => exact hguarded
  | rotateKey keyId answers => exact hguarded
  | revokeKey keyId answers => exact hguarded
  | eraseVoterTemplates voterVin answers => exact hguarded

/-- A template that was encrypted names an active key. -/
theorem encryptTemplate_key {t : Tables} {voterVin modality : String} {data : Bytes} {uuid : String}
    {nonce : Drawn 12} {answers : Answers} {row : TemplateRow}
    (h : (t.encryptTemplate p masterKey voterVin modality data uuid nonce answers).2 = .ok row) :
    ∃ k ∈ t.activeKeys, k.keyId = row.keyId := by
  unfold Tables.encryptTemplate at h
  split at h
  · cases h
  · rename_i key hkey
    obtain ⟨k, hk, hactive, hid, hmaterial⟩ := Tables.getActiveKey_eq_ok hkey
    split at h
    · cases h
    · rename_i sealedRow hseal
      obtain ⟨-, -, hsealed⟩ := Tables.sealTemplate_eq_ok hseal hid hmaterial
      simp only at h
      split at h
      · cases h
        exact ⟨k, List.mem_filter.mpr ⟨hk, hactive⟩, hsealed.keyId.symm⟩
      · cases h

theorem OneKey.singleKey (h : s.OneKey p masterKey) (hidle : s.rotation = none) : s.SingleKey p masterKey := by
  obtain ⟨keyId, honly⟩ := h.active.idle hidle
  have hlength := honly.length_le_one h.wellKept.nodup
  refine ⟨hlength, ?_⟩
  intro voterVin modality data uuid nonce answers row hrow
  obtain ⟨k, hk, hid⟩ := encryptTemplate_key hrow
  match hkeys : s.tables.activeKeys with
  | [] =>
      rw [hkeys] at hk
      cases hk
  | [k'] =>
      rw [hkeys, List.mem_singleton] at hk
      rw [List.map_singleton, ← hid, hk]
  | k' :: k'' :: rest =>
      rw [hkeys] at hlength
      simp at hlength

/-- A run in which template keys are inserted one at a time, and in which no rotation of the active key is
broken off before it has retired it, has one active key at most whenever no rotation is on its way. -/
theorem singleKey_of_oneAtATime (hp : p.DecryptsEncrypted) (actions : List Action)
    (hone : Runs.AllSteps (State.step p masterKey) OneAtATime empty actions) :
    ∀ s ∈ Runs.visited (State.step p masterKey) empty actions, s.rotation = none → s.SingleKey p masterKey := by
  have hstart : empty.OneKey p masterKey :=
    ⟨⟨List.nodup_nil, fun k hk => by cases hk⟩, "", fun k hk => by cases hk⟩
  have hkept : ∀ s ∈ Runs.visited (State.step p masterKey) empty actions, s.OneKey p masterKey :=
    Runs.forall_visited (fun _ _ h hstep => h.step hp hstep) hstart hone
  intro s hs hidle
  exact (hkept s hs).singleKey hidle

/-- A rotation of the active key that ends. -/
def oneRotation : List Action :=
  [.init (drawOf "a") 0 .good, .encryptTemplate "V1" "face" [1, 2] "s" (nonceOf 1) .good,
    .rotateKey "key-a" .good, .carryOn (turnOf "b" 3 .good), .carryOn (turnOf "" 3 .good),
    .carryOn (turnOf "" 3 .good), .carryOn (turnOf "" 3 .good), .carryOn (turnOf "" 3 .good),
    .carryOn (turnOf "" 3 .good), .encryptTemplate "V2" "iris" [3] "r" (nonceOf 2) .good]

theorem singleKey_of_rotation :
    Runs.AllSteps (State.step boxes [1]) OneAtATime empty oneRotation ∧
      ∀ s ∈ Runs.visited (State.step boxes [1]) empty oneRotation, s.rotation = none → s.SingleKey boxes [1] := by
  have hone : Runs.AllSteps (State.step boxes [1]) OneAtATime empty oneRotation := by decide +kernel
  exact ⟨hone, singleKey_of_oneAtATime boxes_decryptsEncrypted _ hone⟩

/-- A rotation is cut off when its new key is there and the old one is not yet retired: both are active. -/
theorem two_keys_after_crash :
    ¬ ∀ p masterKey, p.DecryptsEncrypted → ∀ actions, ∀ s ∈ Runs.visited (State.step p masterKey) empty actions,
      s.rotation = none → s.SingleKey p masterKey := by
  intro h
  have hsingle := (h boxes [1] boxes_decryptsEncrypted
    [.init (drawOf "a") 0 .good, .rotateKey "key-a" .good, .carryOn (turnOf "b" 3 .good), .crash] _
    (Runs.final_mem_visited _ _) (by decide +kernel)).single
  revert hsingle
  decide +kernel

end State

end Inec.Vault
