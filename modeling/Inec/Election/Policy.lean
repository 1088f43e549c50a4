import Inec.Lib.Runs
import Inec.Results.Controls

/-!
# Policy versions

`handleCreateElectionPolicy` of evidence_integrity.go and the version `activePolicyVersionID` finds. A new
version closes the open one at its own effective time and is approved at once. The lookup reads
`effective_until` but not `effective_from`, so a version counts as active from the moment it is created,
whenever it is meant to take effect.
-/

namespace Inec

open Checks

/-! ### Creating a version -/

/-- The field `effective_at`: left out, not RFC 3339, or the instant it names. -/
inductive EffectiveAt
  | absent
  | malformed
  | instant (t : Int)
  deriving DecidableEq, Repr

structure PolicyRequest where
  electionId : Int
  version : String
  legalBasis : String
  effectiveAt : EffectiveAt
  deriving DecidableEq, Repr

def resolveEffectiveAt (env : Env) : EffectiveAt → Except HttpError Int
  | .absent => .ok env.now
  | .malformed => .error ⟨400, "effective_at must be RFC3339"⟩
  | .instant t => .ok t

/-- The UPDATE that supersedes the open version of an election. -/
def supersedeOpen (electionId effectiveAt : Int) (v : PolicyVersion) : PolicyVersion :=
  if v.electionId = electionId ∧ v.status = .approved ∧ v.effectiveUntil = none then
    { v with status := .superseded, effectiveUntil := some effectiveAt }
  else v

def approvedVersion (env : Env) (db : Tables) (req : PolicyRequest) (effectiveAt : Int) : PolicyVersion where
  id := nextSerial (db.policyVersions.map (·.id))
  electionId := req.electionId
  version := req.version
  status := .approved
  legalBasis := req.legalBasis
  approvedBy := nullIntArg env.claims.userId
  approvedAt := some env.now
  effectiveFrom := effectiveAt
  effectiveUntil := none

/-- The checks of a creation, with the effective time. The last is `UNIQUE (election_id, version)`. -/
def checkPolicy (env : Env) (db : Tables) (req : PolicyRequest) : Except HttpError Int := do
  requireRole env [.admin]
  require (!(decide (req.electionId ≤ 0) || isBlank req.version || isBlank req.legalBasis))
    ⟨400, "election_id, version, and legal_basis are required"⟩
  let effectiveAt ← resolveEffectiveAt env req.effectiveAt
  let _ ← fetch (db.election? req.electionId) ⟨404, "election not found"⟩
  require (db.policyVersions.all fun v => v.electionId != req.electionId || v.version != req.version)
    ⟨409, "failed to create approved policy version"⟩
  return effectiveAt

def addPolicy (env : Env) (db : Tables) (req : PolicyRequest) (effectiveAt : Int) : Tables :=
  { db with
    policyVersions := db.policyVersions.map (supersedeOpen req.electionId effectiveAt) ++
      [approvedVersion env db req effectiveAt] }

structure PolicyResponse where
  id : Int
  electionId : Int
  version : String
  status : PolicyStatus
  deriving DecidableEq, Repr

def handleCreateElectionPolicy (env : Env) (db : Tables) (req : PolicyRequest) :
    Except HttpError (Tables × PolicyResponse) := do
  let effectiveAt ← checkPolicy env db req
  let row := approvedVersion env db req effectiveAt
  return (logAudit env (addPolicy env db req effectiveAt) "ELECTION_POLICY_APPROVED" "election_policy"
    (toString row.id), ⟨row.id, req.electionId, req.version, .approved⟩)

/-! ### Versions in force -/

/-- The version was approved and `[effective_from, effective_until)` contains `t`. -/
def PolicyVersion.inForce (v : PolicyVersion) (t : Int) : Bool :=
  (v.status == .approved || v.status == .superseded) && decide (v.effectiveFrom ≤ t) &&
    v.effectiveUntil.all fun until_ => decide (t < until_)

/-- The id is that of a version in force at `t`, or 0 when there is none. -/
def NamesInForce (db : Tables) (electionId t id : Int) : Prop :=
  (∃ v ∈ db.policyVersions, v.electionId = electionId ∧ v.inForce t = true ∧ v.id = id) ∨
    (id = 0 ∧ ∀ v ∈ db.policyVersions, v.electionId = electionId → v.inForce t = false)

/-- The database and the time it is. -/
structure PolicyState where
  tables : Tables
  clock : Int

/-- A call that arrives some time after the previous one. -/
structure PolicyCall where
  delay : Nat
  env : Env
  req : PolicyRequest

/-- The environment of a call, which reads the clock. -/
def PolicyCall.envAt (c : PolicyCall) (s : PolicyState) : Env := { c.env with now := s.clock + c.delay }

def policyStep (s : PolicyState) (c : PolicyCall) : PolicyState where
  tables := ((handleCreateElectionPolicy (c.envAt s) s.tables c.req).toOption.map (·.1)).getD s.tables
  clock := s.clock + c.delay

/-- At most one version of an election is in force at any time, and the lookup finds it from now on. -/
structure PolicyInForce (s : PolicyState) : Prop where
  single : ∀ t, ∀ v ∈ s.tables.policyVersions, ∀ v' ∈ s.tables.policyVersions, v.electionId = v'.electionId →
    v.inForce t = true → v'.inForce t = true → v = v'
  lookup : ∀ env electionId, s.clock ≤ env.now →
    NamesInForce s.tables electionId env.now (activePolicyVersionID env s.tables electionId)

/-- An accepted version takes effect by now, and not before the end of a version that had been in force. -/
def TakesEffectInOrder (s : PolicyState) (c : PolicyCall) : Prop :=
  ∀ effectiveAt, checkPolicy (c.envAt s) s.tables c.req = .ok effectiveAt →
    effectiveAt ≤ s.clock + c.delay ∧
      ∀ v ∈ s.tables.policyVersions, v.electionId = c.req.electionId →
        ∀ until_, v.effectiveUntil = some until_ → v.effectiveFrom < until_ → until_ ≤ effectiveAt

/-! ### What a call does -/

/-- What the handler alone keeps true of the rows: an approved version is open, a superseded one closed,
and an election has one approved version. -/
structure PolicyRows (db : Tables) : Prop where
  ids : (db.policyVersions.map (·.id)).Nodup
  closed : ∀ v ∈ db.policyVersions, (v.status = .approved ∧ v.effectiveUntil = none) ∨
    (v.status = .superseded ∧ ∃ until_, v.effectiveUntil = some until_)

theorem handleCreateElectionPolicy_ok {env : Env} {db db' : Tables} {req : PolicyRequest}
    {response : PolicyResponse} (h : handleCreateElectionPolicy env db req = .ok (db', response)) :
    ∃ effectiveAt, checkPolicy env db req = .ok effectiveAt ∧
      db'.policyVersions = (addPolicy env db req effectiveAt).policyVersions := by
  simp only [handleCreateElectionPolicy, bind_eq_ok, pure_eq_ok, Prod.mk.injEq] at h
  obtain ⟨effectiveAt, hchecked, rfl, _⟩ := h
  refine ⟨effectiveAt, hchecked, ?_⟩
  unfold logAudit
  split
  · rfl
  · rfl

/-- A call is refused and only time passes, or it adds its version. -/
theorem policyStep_cases (s : PolicyState) (c : PolicyCall) :
    ((policyStep s c).tables.policyVersions = s.tables.policyVersions ∧
        ∀ effectiveAt, checkPolicy (c.envAt s) s.tables c.req ≠ .ok effectiveAt) ∨
      ∃ effectiveAt, checkPolicy (c.envAt s) s.tables c.req = .ok effectiveAt ∧
        (policyStep s c).tables.policyVersions =
          (addPolicy (c.envAt s) s.tables c.req effectiveAt).policyVersions := by
  cases hrun : handleCreateElectionPolicy (c.envAt s) s.tables c.req with
  | error err =>
      left
      refine ⟨by rw [policyStep, hrun]; rfl, ?_⟩
      intro effectiveAt hchecked
      simp [handleCreateElectionPolicy, hchecked] at hrun
  | ok result =>
      obtain ⟨db', response⟩ := result
      obtain ⟨effectiveAt, hchecked, hrows⟩ := handleCreateElectionPolicy_ok hrun
      right
      refine ⟨effectiveAt, hchecked, ?_⟩
      rw [policyStep, hrun]
      exact hrows

section Add

variable {env : Env} {db : Tables} {req : PolicyRequest} {effectiveAt : Int}

theorem mem_addPolicy {v : PolicyVersion} :
    v ∈ (addPolicy env db req effectiveAt).policyVersions ↔
      (∃ v₀ ∈ db.policyVersions, supersedeOpen req.electionId effectiveAt v₀ = v) ∨
        v = approvedVersion env db req effectiveAt := by
  rw [addPolicy, List.mem_append, List.mem_map, List.mem_singleton]

@[simp] theorem supersedeOpen_id (electionId : Int) (v : PolicyVersion) :
    (supersedeOpen electionId effectiveAt v).id = v.id := by
  unfold supersedeOpen
  split <;> rfl

@[simp] theorem supersedeOpen_electionId (electionId : Int) (v : PolicyVersion) :
    (supersedeOpen electionId effectiveAt v).electionId = v.electionId := by
  unfold supersedeOpen
  split <;> rfl

/-- A version that is closed, or belongs to another election, stays as it is. -/
theorem supersedeOpen_eq_self {electionId : Int} {v : PolicyVersion}
    (h : v.electionId ≠ electionId ∨ v.effectiveUntil ≠ none) : supersedeOpen electionId effectiveAt v = v := by
  refine if_neg ?_
  rintro ⟨helection, -, huntil⟩
  exact h.elim (absurd helection) (absurd huntil)

/-- An approved version ends where the new one begins. -/
theorem supersedeOpen_approved {v : PolicyVersion} (hstatus : v.status = .approved)
    (huntil : v.effectiveUntil = none) :
    supersedeOpen v.electionId effectiveAt v =
      { v with status := .superseded, effectiveUntil := some effectiveAt } :=
  if_pos ⟨rfl, hstatus, huntil⟩

/-- The new version has a key of its own. -/
theorem approvedVersion_id_notMem :
    (approvedVersion env db req effectiveAt).id ∉ db.policyVersions.map (·.id) := nextSerial_notMem _

theorem approvedVersion_id_pos : 0 < (approvedVersion env db req effectiveAt).id := by
  have hpos : ∀ ids : List Int, 0 < nextSerial ids := by
    intro ids
    have hle : 0 ≤ ids.foldr max 0 := by
      induction ids with
      | nil => simp
      | cons a rest ih =>
          rw [List.foldr_cons]
          omega
    unfold nextSerial
    omega
  exact hpos _

theorem PolicyRows.addPolicy (h : PolicyRows db) : PolicyRows (addPolicy env db req effectiveAt) where
  ids := by
    have hsame : (db.policyVersions.map (supersedeOpen req.electionId effectiveAt)).map (·.id) =
        db.policyVersions.map (·.id) := by simp
    rw [Inec.addPolicy, List.map_append, List.map_singleton, hsame, List.nodup_append_comm]
    exact List.nodup_cons.mpr ⟨approvedVersion_id_notMem, h.ids⟩
  closed := by
    intro v hv
    rcases mem_addPolicy.mp hv with ⟨v₀, hv₀, rfl⟩ | rfl
    · by_cases helection : v₀.electionId = req.electionId
      · rcases h.closed v₀ hv₀ with ⟨hstatus, huntil⟩ | ⟨hstatus, until_, huntil⟩
        · rw [← helection, supersedeOpen_approved hstatus huntil]
          exact Or.inr ⟨rfl, effectiveAt, rfl⟩
        · rw [supersedeOpen_eq_self (Or.inr (by simp [huntil]))]
          exact Or.inr ⟨hstatus, until_, huntil⟩
      · rw [supersedeOpen_eq_self (Or.inl helection)]
        exact h.closed v₀ hv₀
    · exact Or.inl ⟨rfl, rfl⟩

/-- The lookup finds the version that was created last, at any time. -/
theorem activePolicyVersionID_addPolicy (h : PolicyRows db) (env' : Env) :
    activePolicyVersionID env' (addPolicy env db req effectiveAt) req.electionId =
      (approvedVersion env db req effectiveAt).id := by
  have hnone : (db.policyVersions.map (supersedeOpen req.electionId effectiveAt)).filter (fun p =>
      p.electionId == req.electionId && p.status == .approved &&
        (p.effectiveUntil.all fun until_ => decide (env'.now < until_))) = [] := by
    rw [List.filter_eq_nil_iff]
    intro v hv hactive
    obtain ⟨v₀, hv₀, rfl⟩ := List.mem_map.mp hv
    simp only [supersedeOpen_electionId, Bool.and_eq_true, beq_iff_eq] at hactive
    obtain ⟨⟨helection, hstatus⟩, -⟩ := hactive
    rcases h.closed v₀ hv₀ with ⟨hstatus₀, huntil⟩ | ⟨hstatus₀, until_, huntil⟩
    · rw [← helection, supersedeOpen_approved hstatus₀ huntil] at hstatus
      cases hstatus
    · rw [supersedeOpen_eq_self (Or.inr (by simp [huntil])), hstatus₀] at hstatus
      cases hstatus
  rw [activePolicyVersionID, addPolicy, List.filter_append, hnone]
  simp [approvedVersion, latestPolicy]

/-- Other elections see none of it. -/
theorem activePolicyVersionID_addPolicy_of_ne {electionId : Int} (hne : electionId ≠ req.electionId) (env' : Env) :
    activePolicyVersionID env' (addPolicy env db req effectiveAt) electionId =
      activePolicyVersionID env' db electionId := by
  have hnew : ((approvedVersion env db req effectiveAt).electionId == electionId) = false :=
    beq_false_of_ne hne.symm
  have hsame : ∀ rows : List PolicyVersion,
      (rows.map (supersedeOpen req.electionId effectiveAt)).filter (fun p => p.electionId == electionId &&
        p.status == .approved && (p.effectiveUntil.all fun until_ => decide (env'.now < until_))) =
      rows.filter (fun p => p.electionId == electionId && p.status == .approved &&
        (p.effectiveUntil.all fun until_ => decide (env'.now < until_))) := by
    intro rows
    induction rows with
    | nil => rfl
    | cons v rest ih =>
        rw [List.map_cons, List.filter_cons, List.filter_cons, ih]
        by_cases helection : v.electionId = electionId
        · rw [supersedeOpen_eq_self (Or.inl (helection ▸ hne))]
        · simp [helection]
  rw [activePolicyVersionID, addPolicy, List.filter_append, hsame, List.filter_singleton, hnew]
  simp [activePolicyVersionID]

/-! ### The intervals after a creation -/

theorem inForce_approvedVersion {t : Int} :
    (approvedVersion env db req effectiveAt).inForce t = true ↔ effectiveAt ≤ t := by
  have hforce : (approvedVersion env db req effectiveAt).inForce t = decide (effectiveAt ≤ t) := Bool.and_true _
  rw [hforce, decide_eq_true_iff]

/-- A version of the election that is still in force after a creation was in force before, and `t` is
before the new version begins or before the end of a version that had been closed. -/
theorem inForce_supersedeOpen (h : PolicyRows db) {v : PolicyVersion} (hv : v ∈ db.policyVersions) {t : Int}
    (helection : v.electionId = req.electionId)
    (hforce : (supersedeOpen req.electionId effectiveAt v).inForce t = true) :
    v.inForce t = true ∧ (t < effectiveAt ∨
      ∃ until_, v.effectiveUntil = some until_ ∧ v.effectiveFrom < until_ ∧ t < until_) := by
  rcases h.closed v hv with ⟨hstatus, huntil⟩ | ⟨hstatus, until_, huntil⟩
  · rw [← helection, supersedeOpen_approved hstatus huntil] at hforce
    simp only [PolicyVersion.inForce, Option.all_some, Bool.and_eq_true, decide_eq_true_eq] at hforce
    refine ⟨?_, Or.inl hforce.2⟩
    simp [PolicyVersion.inForce, hstatus, huntil, hforce.1.2]
  · rw [supersedeOpen_eq_self (Or.inr (by simp [huntil]))] at hforce
    refine ⟨hforce, Or.inr ⟨until_, huntil, ?_⟩⟩
    simp only [PolicyVersion.inForce, huntil, Option.all_some, Bool.and_eq_true, decide_eq_true_eq] at hforce
    omega

/-- A version that ended after the new one begins overlaps it. -/
theorem until_le_of_single (h : PolicyRows db)
    (hsingle : ∀ t, ∀ v ∈ (addPolicy env db req effectiveAt).policyVersions,
      ∀ v' ∈ (addPolicy env db req effectiveAt).policyVersions, v.electionId = v'.electionId →
        v.inForce t = true → v'.inForce t = true → v = v')
    {v : PolicyVersion} (hv : v ∈ db.policyVersions) (helection : v.electionId = req.electionId) {until_ : Int}
    (huntil : v.effectiveUntil = some until_) (hnonempty : v.effectiveFrom < until_) : until_ ≤ effectiveAt := by
  by_contra hlt
  have hsame : supersedeOpen req.electionId effectiveAt v = v :=
    supersedeOpen_eq_self (Or.inr (by simp [huntil]))
  have hstatus : v.status = .superseded := by
    rcases h.closed v hv with ⟨-, hopen⟩ | ⟨hstatus, -⟩
    · rw [hopen] at huntil
      cases huntil
    · exact hstatus
  -- the later of the two beginnings lies in both intervals
  have hforce : v.inForce (max v.effectiveFrom effectiveAt) = true := by
    simp only [PolicyVersion.inForce, hstatus, huntil, Option.all_some, Bool.and_eq_true, decide_eq_true_eq]
    exact ⟨⟨rfl, by omega⟩, by omega⟩
  have heq := hsingle (max v.effectiveFrom effectiveAt) v (mem_addPolicy.mpr (Or.inl ⟨v, hv, hsame⟩))
    (approvedVersion env db req effectiveAt) (mem_addPolicy.mpr (Or.inr rfl)) helection hforce
    (inForce_approvedVersion.mpr (by omega))
  have hid := @approvedVersion_id_notMem env db req effectiveAt
  rw [← heq] at hid
  exact hid (List.mem_map_of_mem hv)

/-- Once the closed versions end before the new one begins, at most one is in force again. -/
theorem single_addPolicy (h : PolicyRows db)
    (hsingle : ∀ t, ∀ v ∈ db.policyVersions, ∀ v' ∈ db.policyVersions, v.electionId = v'.electionId →
      v.inForce t = true → v'.inForce t = true → v = v')
    (hclosed : ∀ v ∈ db.policyVersions, v.electionId = req.electionId →
      ∀ until_, v.effectiveUntil = some until_ → v.effectiveFrom < until_ → until_ ≤ effectiveAt) :
    ∀ t, ∀ v ∈ (addPolicy env db req effectiveAt).policyVersions,
      ∀ v' ∈ (addPolicy env db req effectiveAt).policyVersions, v.electionId = v'.electionId →
        v.inForce t = true → v'.inForce t = true → v = v' := by
  have hbefore : ∀ t, ∀ v ∈ db.policyVersions, v.electionId = req.electionId →
      (supersedeOpen req.electionId effectiveAt v).inForce t = true → t < effectiveAt := by
    intro t v hv helection hforce
    rcases (inForce_supersedeOpen h hv helection hforce).2 with hlt | ⟨until_, huntil, hnonempty, hlt⟩
    · exact hlt
    · exact lt_of_lt_of_le hlt (hclosed v hv helection until_ huntil hnonempty)
  have hold : ∀ t, ∀ v ∈ db.policyVersions, (supersedeOpen req.electionId effectiveAt v).inForce t = true →
      v.inForce t = true := by
    intro t v hv hforce
    by_cases helection : v.electionId = req.electionId
    · exact (inForce_supersedeOpen h hv helection hforce).1
    · rwa [supersedeOpen_eq_self (Or.inl helection)] at hforce
  intro t v hv v' hv' hsame hforce hforce'
  rcases mem_addPolicy.mp hv with ⟨v₀, hv₀, rfl⟩ | rfl <;> rcases mem_addPolicy.mp hv' with ⟨v₁, hv₁, rfl⟩ | rfl
  · rw [supersedeOpen_electionId, supersedeOpen_electionId] at hsame
    rw [hsingle t v₀ hv₀ v₁ hv₁ hsame (hold t v₀ hv₀ hforce) (hold t v₁ hv₁ hforce')]
  · rw [supersedeOpen_electionId] at hsame
    have hlt := hbefore t v₀ hv₀ hsame hforce
    have hle := inForce_approvedVersion.mp hforce'
    omega
  · rw [supersedeOpen_electionId] at hsame
    have hlt := hbefore t v₁ hv₁ hsame.symm hforce'
    have hle := inForce_approvedVersion.mp hforce
    omega
  · rfl

/-- The id of the new version only names a version in force from its effective time on. -/
theorem namesInForce_approvedVersion (h : PolicyRows db) {t : Int} :
    NamesInForce (addPolicy env db req effectiveAt) req.electionId t (approvedVersion env db req effectiveAt).id ↔
      effectiveAt ≤ t := by
  constructor
  · rintro (⟨v, hv, -, hforce, hid⟩ | ⟨hzero, -⟩)
    · have hnew : v = approvedVersion env db req effectiveAt :=
        Rows.eq_of_key_eq h.addPolicy.ids hv (mem_addPolicy.mpr (Or.inr rfl)) hid
      rw [hnew] at hforce
      exact inForce_approvedVersion.mp hforce
    · have hpos := @approvedVersion_id_pos env db req effectiveAt
      omega
  · intro hle
    exact Or.inl ⟨_, mem_addPolicy.mpr (Or.inr rfl), rfl, inForce_approvedVersion.mpr hle, rfl⟩

/-- For other elections nothing changes. -/
theorem namesInForce_addPolicy_of_ne {electionId : Int} (hne : electionId ≠ req.electionId) {t id : Int} :
    NamesInForce (addPolicy env db req effectiveAt) electionId t id ↔ NamesInForce db electionId t id := by
  have hmem : ∀ v, v.electionId = electionId →
      (v ∈ (addPolicy env db req effectiveAt).policyVersions ↔ v ∈ db.policyVersions) := by
    intro v helection
    rw [mem_addPolicy]
    constructor
    · rintro (⟨v₀, hv₀, rfl⟩ | rfl)
      · rw [supersedeOpen_electionId] at helection
        rwa [supersedeOpen_eq_self (Or.inl (helection ▸ hne))]
      · exact absurd helection.symm hne
    · intro hv
      exact Or.inl ⟨v, hv, supersedeOpen_eq_self (Or.inl (helection ▸ hne))⟩
  refine or_congr ?_ (and_congr_right fun _ => ?_)
  · constructor
    · rintro ⟨v, hv, helection, hrest⟩
      exact ⟨v, (hmem v helection).mp hv, helection, hrest⟩
    · rintro ⟨v, hv, helection, hrest⟩
      exact ⟨v, (hmem v helection).mpr hv, helection, hrest⟩
  · constructor
    · intro hnone v hv helection
      exact hnone v ((hmem v helection).mpr hv) helection
    · intro hnone v hv helection
      exact hnone v ((hmem v helection).mp hv) helection

end Add

/-! ### Steps and runs -/

/-- The policy rows decide both the intervals and the lookup. -/
theorem policyInForce_congr {s s' : PolicyState} (h : s'.tables.policyVersions = s.tables.policyVersions) :
    PolicyInForce s' ↔
      (∀ t, ∀ v ∈ s.tables.policyVersions, ∀ v' ∈ s.tables.policyVersions, v.electionId = v'.electionId →
        v.inForce t = true → v'.inForce t = true → v = v') ∧
      ∀ env electionId, s'.clock ≤ env.now →
        NamesInForce s.tables electionId env.now (activePolicyVersionID env s.tables electionId) := by
  simp only [NamesInForce, activePolicyVersionID, ← h]
  exact ⟨fun ⟨hsingle, hlookup⟩ => ⟨hsingle, hlookup⟩, fun ⟨hsingle, hlookup⟩ => ⟨hsingle, hlookup⟩⟩

theorem policyRows_congr {db db' : Tables} (h : db'.policyVersions = db.policyVersions) (hdb : PolicyRows db) :
    PolicyRows db' := by
  refine ⟨?_, ?_⟩ <;> rw [h]
  · exact hdb.ids
  · exact hdb.closed

theorem policyStep_rows (s : PolicyState) (c : PolicyCall) (h : PolicyRows s.tables) :
    PolicyRows (policyStep s c).tables := by
  rcases policyStep_cases s c with ⟨hsame, -⟩ | ⟨effectiveAt, -, hrows⟩
  · exact policyRows_congr hsame h
  · exact policyRows_congr hrows h.addPolicy

/-- A call keeps the versions in order exactly when its own version takes effect in order. -/
theorem policyStep_inForce_iff (s : PolicyState) (c : PolicyCall) (hrows : PolicyRows s.tables)
    (hs : PolicyInForce s) : PolicyInForce (policyStep s c) ↔ TakesEffectInOrder s c := by
  have hclock : (policyStep s c).clock = s.clock + c.delay := rfl
  rcases policyStep_cases s c with ⟨hsame, hrefused⟩ | ⟨effectiveAt, hchecked, hadded⟩
  · rw [policyInForce_congr hsame]
    constructor
    · intro _ effectiveAt hchecked
      exact absurd hchecked (hrefused effectiveAt)
    · intro _
      refine ⟨hs.single, ?_⟩
      intro env electionId hnow
      exact hs.lookup env electionId (by omega)
  · rw [policyInForce_congr (s := ⟨addPolicy (c.envAt s) s.tables c.req effectiveAt, s.clock⟩) hadded]
    constructor
    · rintro ⟨hsingle, hlookup⟩ effectiveAt' hchecked'
      obtain rfl : effectiveAt = effectiveAt' := Except.ok.inj (hchecked.symm.trans hchecked')
      refine ⟨?_, fun v hv helection until_ => until_le_of_single hrows hsingle hv helection⟩
      have hnow := hlookup (c.envAt s) c.req.electionId (by rw [hclock, PolicyCall.envAt])
      rw [activePolicyVersionID_addPolicy hrows] at hnow
      exact (namesInForce_approvedVersion hrows).mp hnow
    · intro horder
      obtain ⟨hle, hclosed⟩ := horder effectiveAt hchecked
      refine ⟨single_addPolicy hrows hs.single hclosed, ?_⟩
      intro env electionId hnow
      by_cases helection : electionId = c.req.electionId
      · rw [helection, activePolicyVersionID_addPolicy hrows]
        exact (namesInForce_approvedVersion hrows).mpr (by omega)
      · rw [activePolicyVersionID_addPolicy_of_ne helection]
        exact (namesInForce_addPolicy_of_ne helection).mpr (hs.lookup env electionId (by omega))

/-- Along every sequence of creations the version in force is unique and is the one found, exactly when
every accepted version takes effect in order. -/
theorem policyInForce_iff (s : PolicyState) (hs : s.tables.policyVersions = []) (calls : List PolicyCall) :
    (∀ s' ∈ Runs.visited policyStep s calls, PolicyInForce s') ↔
      Runs.AllSteps policyStep TakesEffectInOrder s calls := by
  have hrows : PolicyRows s.tables := by
    refine ⟨?_, ?_⟩ <;> rw [hs]
    · exact List.nodup_nil
    · intro v hv
      cases hv
  have hstart : PolicyInForce s := by
    refine ⟨?_, ?_⟩
    · rw [hs]
      intro t v hv
      cases hv
    · intro env electionId _
      rw [NamesInForce, activePolicyVersionID, hs]
      refine Or.inr ⟨rfl, ?_⟩
      intro v hv
      cases hv
  exact Runs.forall_visited_iff (fun s c h => policyStep_rows s c h)
    (fun s c hrows hs => policyStep_inForce_iff s c hrows hs) hrows hstart calls

/-! ### Versions in order and one too early -/

/-- One election and no policy yet. -/
def unregulated : PolicyState := ⟨{ Tables.empty with elections := [.bare 1 .gubernatorial .draft] }, 100⟩

/-- A version of the policy of election 1, some time later. -/
def approvePolicy (delay : Nat) (version : String) (effectiveAt : EffectiveAt) : PolicyCall :=
  ⟨delay, .plain 1 "chair" .admin 0, ⟨1, version, "Electoral Act", effectiveAt⟩⟩

/-- A second version that replaces the first when it is created. -/
theorem policyInForce_iff_replaced :
    unregulated.tables.policyVersions = [] ∧
      ∀ s ∈ Runs.visited policyStep unregulated [approvePolicy 0 "v1" .absent,
        approvePolicy 20 "v2" (.instant 110)], PolicyInForce s := by
  refine ⟨rfl, (policyInForce_iff unregulated rfl _).mpr ⟨?_, ?_, trivial⟩⟩
  · intro effectiveAt hchecked
    have hat : checkPolicy ((approvePolicy 0 "v1" .absent).envAt unregulated) unregulated.tables
        (approvePolicy 0 "v1" .absent).req = .ok 100 := by decide +kernel
    obtain rfl : 100 = effectiveAt := Except.ok.inj (hat.symm.trans hchecked)
    refine ⟨by decide, ?_⟩
    intro v hv
    cases hv
  · intro effectiveAt hchecked
    have hat : checkPolicy ((approvePolicy 20 "v2" (.instant 110)).envAt
      (policyStep unregulated (approvePolicy 0 "v1" .absent)))
        (policyStep unregulated (approvePolicy 0 "v1" .absent)).tables (approvePolicy 20 "v2" (.instant 110)).req =
        .ok 110 := by decide +kernel
    obtain rfl : 110 = effectiveAt := Except.ok.inj (hat.symm.trans hchecked)
    refine ⟨by decide, ?_⟩
    have hopen : ∀ v ∈ (policyStep unregulated (approvePolicy 0 "v1" .absent)).tables.policyVersions,
        v.effectiveUntil = none := by decide +kernel
    intro v hv _ until_ huntil
    rw [hopen v hv] at huntil
    cases huntil

/-- A version for time 500 that is created at time 110 is the one found at time 110, although the first one
is in force until 500. And a version dated back into the interval of an earlier one is in force
together with it. -/
theorem scheduled_policy_displaces_current :
    (¬ ∀ (s : PolicyState) (calls : List PolicyCall), s.tables.policyVersions = [] →
      ∀ s' ∈ Runs.visited policyStep s calls, PolicyInForce s') ∧
    ¬ PolicyInForce (Runs.final policyStep unregulated [approvePolicy 0 "v1" (.instant 10),
      approvePolicy 0 "v2" (.instant 50), approvePolicy 0 "v3" (.instant 30)]) := by
  constructor
  · intro h
    have hend := h unregulated [approvePolicy 0 "v1" .absent, approvePolicy 10 "v2" (.instant 500)] rfl _
      (Runs.final_mem_visited _ _)
    have hnames := hend.lookup (.plain 1 "chair" .admin 110) 1 (by decide +kernel)
    have hfound : activePolicyVersionID (.plain 1 "chair" .admin 110) (Runs.final policyStep unregulated
        [approvePolicy 0 "v1" .absent, approvePolicy 10 "v2" (.instant 500)]).tables 1 = 2 := by decide +kernel
    have hforce : ∀ v ∈ (Runs.final policyStep unregulated
        [approvePolicy 0 "v1" .absent, approvePolicy 10 "v2" (.instant 500)]).tables.policyVersions,
        v.inForce 110 = true → v.id = 1 := by decide +kernel
    rw [hfound] at hnames
    rcases hnames with ⟨v, hv, -, hin, hid⟩ | ⟨hzero, -⟩
    · rw [hforce v hv hin] at hid
      cases hid
    · cases hzero
  · intro h
    have hoverlap : ¬ ∀ v ∈ (Runs.final policyStep unregulated [approvePolicy 0 "v1" (.instant 10),
        approvePolicy 0 "v2" (.instant 50), approvePolicy 0 "v3" (.instant 30)]).tables.policyVersions,
        ∀ v' ∈ (Runs.final policyStep unregulated [approvePolicy 0 "v1" (.instant 10),
          approvePolicy 0 "v2" (.instant 50), approvePolicy 0 "v3" (.instant 30)]).tables.policyVersions,
        v.electionId = v'.electionId → v.inForce 40 = true → v'.inForce 40 = true → v = v' := by
      decide +kernel
    exact hoverlap (h.single 40)

end Inec
