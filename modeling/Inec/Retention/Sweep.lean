import Inec.Ingestion.Payload
import Inec.Lib.Runs

/-!
# Data retention

`RunDataRetention` goes through its policies one after the other: it counts the expired rows of a table, looks for
a legal hold, exports the rows where the policy or a hold asks for it, and deletes what is expired in batches of
500. Each of these is a statement of its own, and the hold and the export are not looked at again when the batches
are deleted. Several replicas may sweep at once, rows are inserted and updated, and holds are placed and released
in between.

A sweep is named by its place in `sweeps`. An export in `exports` is a file that has been written to its end.
`fails` is a step that fails: a query, or the writing of the file.
-/

namespace Inec.Retention

/-! ### Policies -/

structure DataRetentionPolicy where
  name : String
  table : String
  timestampCol : String
  retentionDays : Int
  archiveFirst : Bool
  legalHold : Bool
  deriving DecidableEq, Repr

/-- `os.Getenv`, empty where the variable is not set. -/
abbrev Environment : Type := String → String

def envIntOr (env : Environment) (key : String) (fallback : Int) : Int :=
  if env key = "" then fallback else (atoi (env key)).getD fallback

def defaultRetentionPolicies (env : Environment) : List DataRetentionPolicy :=
  [⟨"biometric_verifications", "biometric_verifications", "verified_at",
      envIntOr env "RETENTION_BIOMETRIC_DAYS" 365, true, false⟩,
    ⟨"active_sessions", "active_sessions", "created_at", envIntOr env "RETENTION_SESSION_DAYS" 2555, false, false⟩,
    ⟨"official_tracking_history", "official_tracking_history", "recorded_at",
      envIntOr env "RETENTION_TRACKING_DAYS" 180, true, false⟩,
    ⟨"geo_events", "geo_events", "created_at", envIntOr env "RETENTION_GEO_EVENT_DAYS" 365, false, false⟩,
    ⟨"crowd_alerts", "crowd_alerts", "created_at", envIntOr env "RETENTION_CROWD_ALERT_DAYS" 180, false, false⟩,
    ⟨"audit_log", "audit_log", "\"timestamp\"", envIntOr env "RETENTION_AUDIT_DAYS" 2555, true, true⟩,
    ⟨"stakeholder_incidents", "stakeholder_incidents", "reported_at", envIntOr env "RETENTION_INCIDENT_DAYS" 2555,
      true, true⟩,
    ⟨"notification_log", "notifications", "created_at",
      envIntOr env "RETENTION_NOTIFICATION_DAYS" 90, false, false⟩,
    ⟨"job_logs", "background_jobs", "created_at", envIntOr env "RETENTION_JOB_LOG_DAYS" 90, false, false⟩]

/-- `time.Now().AddDate(0, 0, -days).Format("2006-01-02")`, as the midnight it is compared as. -/
def cutoffOf (p : DataRetentionPolicy) (now : Int) : Int := (now / 86400 - p.retentionDays) * 86400

/-! ### Tables -/

/-- A row of one of the tables, with the value of its timestamp column, if any, and its other columns. -/
structure TableRow where
  table : String
  id : Int
  stamp : Option Int
  body : String
  deriving DecidableEq, Repr

/-- The primary key. -/
def TableRow.key (r : TableRow) : String × Int := (r.table, r.id)

/-- The condition of the count, the export and the delete. -/
def expired (p : DataRetentionPolicy) (cutoff : Int) (r : TableRow) : Bool :=
  r.table == p.table && r.stamp.any fun stamp => decide (stamp < cutoff)

structure LegalHold where
  table : String
  released : Bool
  deriving DecidableEq, Repr

/-- An archive file. -/
structure Export where
  sweep : Nat
  table : String
  cutoff : Int
  rows : List TableRow
  deriving DecidableEq, Repr

/-! ### Sweeps -/

/-- Where a sweep is with the policy it works on. -/
inductive Phase
  | idle
  | counted (p : DataRetentionPolicy) (cutoff : Int)
  | checked (p : DataRetentionPolicy) (cutoff : Int) (held : Bool)
  | purging (p : DataRetentionPolicy) (cutoff : Int)
  deriving DecidableEq, Repr

structure Sweep where
  dryRun : Bool
  policies : List DataRetentionPolicy
  phase : Phase
  deriving DecidableEq, Repr

structure State where
  rows : List TableRow
  holds : List LegalHold
  exports : List Export
  sweeps : List Sweep
  deriving DecidableEq, Repr

inductive Input
  | startSweep (dryRun : Bool)
  | count (sweep : Nat) (now : Int) (fails : Bool)
  | lookupHold (sweep : Nat) (fails : Bool)
  | archive (sweep : Nat) (fails : Bool)
  /-- `chosen` are the ids that the inner query has come to. -/
  | purge (sweep : Nat) (chosen : List Int) (fails : Bool)
  | insert (row : TableRow)
  | update (row : TableRow)
  | placeHold (table : String)
  | releaseHold (table : String)
  deriving DecidableEq, Repr

def batchSize : Nat := 500

/-- `COUNT(*) FROM legal_holds WHERE table_name AND released_at IS NULL` is not zero. -/
def State.held (s : State) (table : String) : Bool := s.holds.any fun h => h.table == table && !h.released

/-- `legalHoldActive`. -/
def State.legalHoldActive (s : State) (p : DataRetentionPolicy) (fails : Bool) : Bool :=
  p.legalHold || (!fails && s.held p.table)

def State.expiredRows (s : State) (p : DataRetentionPolicy) (cutoff : Int) : List TableRow :=
  s.rows.filter (expired p cutoff)

/-- The ids of `SELECT id … LIMIT 500`: expired ones, as many as there are up to the limit. -/
def State.isBatch (s : State) (p : DataRetentionPolicy) (cutoff : Int) (chosen : List Int) : Bool :=
  decide chosen.Nodup && chosen.all (fun id => (s.expiredRows p cutoff).any fun r => r.id == id) &&
    chosen.length == min batchSize (s.expiredRows p cutoff).length

/-- Whether the DELETE takes a row. -/
def inBatch (p : DataRetentionPolicy) (chosen : List Int) (r : TableRow) : Bool :=
  r.table == p.table && chosen.contains r.id

def State.setPhase (s : State) (index : Nat) (sw : Sweep) (phase : Phase) : State :=
  { s with sweeps := s.sweeps.set index { sw with phase := phase } }

/-- The next policy of a sweep and the count of its expired rows. -/
def State.count (s : State) (index : Nat) (sw : Sweep) (now : Int) (fails : Bool) : State :=
  match sw.phase, sw.policies with
  | .idle, p :: rest =>
      let none := fails || (s.expiredRows p (cutoffOf p now)).isEmpty
      s.setPhase index { sw with policies := rest } (if none then .idle else .counted p (cutoffOf p now))
  | _, _ => s

def State.lookup (s : State) (index : Nat) (sw : Sweep) (fails : Bool) : State :=
  match sw.phase with
  | .counted p cutoff =>
      s.setPhase index sw (if sw.dryRun then .idle else .checked p cutoff (s.legalHoldActive p fails))
  | _ => s

/-- `archiveExpiredRows` where it is called. -/
def State.archive (s : State) (index : Nat) (sw : Sweep) (fails : Bool) : State :=
  match sw.phase with
  | .checked p cutoff held =>
      if p.archiveFirst || held then
        if fails then s.setPhase index sw .idle
        else
          { s.setPhase index sw (if held then .idle else .purging p cutoff) with
            exports := s.exports ++ [⟨index, p.table, cutoff, s.expiredRows p cutoff⟩] }
      else s.setPhase index sw (.purging p cutoff)
  | _ => s

/-- One batch of `purgeExpiredRows`; the one that is not full is the last. -/
def State.purge (s : State) (index : Nat) (sw : Sweep) (chosen : List Int) (fails : Bool) : State :=
  match sw.phase with
  | .purging p cutoff =>
      if fails then s.setPhase index sw .idle
      else if s.isBatch p cutoff chosen then
        { s.setPhase index sw (if chosen.length < batchSize then .idle else .purging p cutoff) with
          rows := s.rows.filter fun r => !inBatch p chosen r }
      else s
  | _ => s

def State.step (env : Environment) (s : State) : Input → State
  | .startSweep dryRun => { s with sweeps := s.sweeps ++ [⟨dryRun, defaultRetentionPolicies env, .idle⟩] }
  | .count index now fails => (s.sweeps[index]?).elim s fun sw => s.count index sw now fails
  | .lookupHold index fails => (s.sweeps[index]?).elim s fun sw => s.lookup index sw fails
  | .archive index fails => (s.sweeps[index]?).elim s fun sw => s.archive index sw fails
  | .purge index chosen fails => (s.sweeps[index]?).elim s fun sw => s.purge index sw chosen fails
  | .insert row => if s.rows.any fun r => r.key == row.key then s else { s with rows := s.rows ++ [row] }
  | .update row => { s with rows := Rows.update TableRow.key row.key (fun _ => row) s.rows }
  | .placeHold table => { s with holds := s.holds ++ [⟨table, false⟩] }
  | .releaseHold table =>
      { s with holds := s.holds.map fun h => if h.table = table then { h with released := true } else h }

/-! ### What is asked -/

/-- A hold placed on the table, or one of its policy. -/
def State.ActiveHold (env : Environment) (s : State) (table : String) : Prop :=
  s.held table = true ∨ ∃ p ∈ defaultRetentionPolicies env, p.table = table ∧ p.legalHold = true

def ArchiveFirst (env : Environment) (table : String) : Prop :=
  ∃ p ∈ defaultRetentionPolicies env, p.table = table ∧ p.archiveFirst = true

/-- A row that a step takes away is not under a hold, and a sweep that takes it from an ArchiveFirst table has
exported it. -/
def State.Kept (env : Environment) (s : State) (i : Input) : Prop :=
  ∀ r ∈ s.rows, r.key ∉ (s.step env i).rows.map TableRow.key →
    ¬ s.ActiveHold env r.table ∧
      (ArchiveFirst env r.table →
        ∃ index chosen, i = .purge index chosen false ∧ ∃ e ∈ s.exports, e.sweep = index ∧ r ∈ e.rows)

/-- The sweep has looked for a hold on the table, found none, and not come to the end of the table. -/
def Sweep.unheld (sw : Sweep) (table : String) : Bool :=
  match sw.phase with
  | .checked p _ held => !held && p.table == table
  | .purging p _ => p.table == table
  | _ => false

/-- The sweep has exported the table and would delete the row. -/
def Sweep.exposes (sw : Sweep) (row : TableRow) : Bool :=
  match sw.phase with
  | .purging p cutoff => p.archiveFirst && expired p cutoff row
  | _ => false

/-- The policy whose hold the sweep looks up next. -/
def Sweep.atLookup (sw : Sweep) : Option DataRetentionPolicy :=
  match sw.phase with
  | .counted p _ => if sw.dryRun then none else some p
  | _ => none

/-- A lookup fails only where there is nothing to find, no hold is placed on a table that is past its lookup, and
no row that a sweep would delete is new since the export. -/
def State.Careful (s : State) : Input → Prop
  | .lookupHold index fails =>
      fails = true → ∀ sw ∈ s.sweeps[index]?, ∀ p ∈ sw.atLookup, p.legalHold = true ∨ s.held p.table = false
  | .placeHold table => ∀ sw ∈ s.sweeps, sw.unheld table = false
  | .insert row => row.key ∉ s.rows.map TableRow.key → ∀ sw ∈ s.sweeps, sw.exposes row = false
  | .update row =>
      row.key ∈ s.rows.map TableRow.key → row ∉ s.rows → ∀ sw ∈ s.sweeps, sw.exposes row = false
  | _ => True

instance (s : State) : (i : Input) → Decidable (s.Careful i)
  | .lookupHold index fails =>
      inferInstanceAs (Decidable (fails = true → ∀ sw ∈ s.sweeps[index]?, ∀ p ∈ sw.atLookup,
        p.legalHold = true ∨ s.held p.table = false))
  | .placeHold table => inferInstanceAs (Decidable (∀ sw ∈ s.sweeps, sw.unheld table = false))
  | .insert row =>
      inferInstanceAs (Decidable (row.key ∉ s.rows.map TableRow.key → ∀ sw ∈ s.sweeps, sw.exposes row = false))
  | .update row =>
      inferInstanceAs (Decidable (row.key ∈ s.rows.map TableRow.key → row ∉ s.rows →
        ∀ sw ∈ s.sweeps, sw.exposes row = false))
  | .startSweep _ | .count .. | .archive .. | .purge .. | .releaseHold _ => .isTrue trivial

/-! ### What a sweep relies on -/

/-- No hold on the table of the policy. -/
def State.Free (s : State) (p : DataRetentionPolicy) : Prop := p.legalHold = false ∧ s.held p.table = false

/-- The sweep of that place has exported what the policy would have it delete. -/
def State.Exported (s : State) (index : Nat) (p : DataRetentionPolicy) (cutoff : Int) : Prop :=
  p.archiveFirst = true → ∃ e ∈ s.exports, e.sweep = index ∧ ∀ r ∈ s.expiredRows p cutoff, r ∈ e.rows

/-- What is known of a sweep by its phase. -/
def State.Relies (env : Environment) (s : State) (index : Nat) : Phase → Prop
  | .idle => True
  | .counted p _ => p ∈ defaultRetentionPolicies env
  | .checked p _ held => p ∈ defaultRetentionPolicies env ∧ (held = false → s.Free p)
  | .purging p cutoff => p ∈ defaultRetentionPolicies env ∧ s.Free p ∧ s.Exported index p cutoff

structure State.Inv (env : Environment) (s : State) : Prop where
  keys : (s.rows.map TableRow.key).Nodup
  policies : ∀ sw ∈ s.sweeps, ∀ p ∈ sw.policies, p ∈ defaultRetentionPolicies env
  relies : ∀ index sw, s.sweeps[index]? = some sw → s.Relies env index sw.phase

variable {env : Environment} {s s' : State}

theorem start_inv (rows : List TableRow) (holds : List LegalHold) (hkeys : (rows.map TableRow.key).Nodup) :
    State.Inv env ⟨rows, holds, [], []⟩ :=
  ⟨hkeys, nofun, nofun⟩

/-- A table has one policy. -/
theorem eq_of_table {p q : DataRetentionPolicy} (hp : p ∈ defaultRetentionPolicies env)
    (hq : q ∈ defaultRetentionPolicies env) (htable : p.table = q.table) : p = q := by
  have hnodup : ((defaultRetentionPolicies env).map (·.table)).Nodup := by
    show ["biometric_verifications", "active_sessions", "official_tracking_history", "geo_events", "crowd_alerts",
      "audit_log", "stakeholder_incidents", "notifications", "background_jobs"].Nodup
    decide
  exact List.inj_on_of_nodup_map hnodup hp hq htable

/-- What a sweep relies on outlives a step that places no hold in its way, keeps the exports and leaves the rows
that it is to delete as they are. -/
theorem State.Relies.mono {index : Nat} {sw : Sweep} (h : s.Relies env index sw.phase)
    (hheld : ∀ table, sw.unheld table = true → s.held table = false → s'.held table = false)
    (hexports : ∀ e ∈ s.exports, e ∈ s'.exports)
    (hrows : ∀ r ∈ s'.rows, r ∈ s.rows ∨ sw.exposes r = false) : s'.Relies env index sw.phase := by
  obtain ⟨dryRun, policies, phase⟩ := sw
  cases phase with
  | idle => trivial
  | counted p cutoff => exact h
  | checked p cutoff held =>
      refine ⟨h.1, ?_⟩
      rintro rfl
      obtain ⟨hstatic, hfree⟩ := h.2 rfl
      exact ⟨hstatic, hheld p.table (by simp [Sweep.unheld]) hfree⟩
  | purging p cutoff =>
      obtain ⟨hp, ⟨hstatic, hfree⟩, hexported⟩ := h
      refine ⟨hp, ⟨hstatic, hheld p.table (by simp [Sweep.unheld]) hfree⟩, ?_⟩
      intro harchive
      obtain ⟨e, he, hindex, hcovers⟩ := hexported harchive
      refine ⟨e, hexports e he, hindex, ?_⟩
      intro r hr
      obtain ⟨hr, hexpired⟩ := List.mem_filter.mp hr
      rcases hrows r hr with hold | hsafe
      · exact hcovers r (List.mem_filter.mpr ⟨hold, hexpired⟩)
      · simp [Sweep.exposes, harchive, hexpired] at hsafe

theorem State.held_eq (hholds : s'.holds = s.holds) (table : String) : s'.held table = s.held table := by
  rw [held, held, hholds]

/-- One sweep goes on, and rows are only taken away. -/
theorem State.Inv.advance (h : s.Inv env) {index : Nat} {sw : Sweep} (hsweeps : s'.sweeps = s.sweeps.set index sw)
    (hpolicies : ∀ p ∈ sw.policies, p ∈ defaultRetentionPolicies env) (hphase : s'.Relies env index sw.phase)
    (hholds : s'.holds = s.holds) (hexports : ∀ e ∈ s.exports, e ∈ s'.exports) (hrows : s'.rows.Sublist s.rows) :
    s'.Inv env := by
  refine ⟨h.keys.sublist (hrows.map _), ?_, ?_⟩
  · intro sw' hsw'
    rw [hsweeps] at hsw'
    rcases List.mem_or_eq_of_mem_set hsw' with hold | rfl
    · exact h.policies sw' hold
    · exact hpolicies
  · intro j sw' hj
    rw [hsweeps, List.getElem?_set] at hj
    split at hj
    case isTrue heq =>
      split at hj
      · obtain rfl := Option.some.inj hj
        exact heq ▸ hphase
      · cases hj
    case isFalse =>
      refine (h.relies j sw' hj).mono (fun table _ hfree => ?_) hexports fun r hr => .inl (hrows.subset hr)
      rw [held_eq hholds]
      exact hfree

/-- The holds or the rows change, and no sweep goes on. -/
theorem State.Inv.meanwhile (h : s.Inv env) (hsweeps : s'.sweeps = s.sweeps) (hexports : s'.exports = s.exports)
    (hkeys : (s'.rows.map TableRow.key).Nodup)
    (hheld : ∀ sw ∈ s.sweeps, ∀ table, sw.unheld table = true → s.held table = false → s'.held table = false)
    (hrows : ∀ sw ∈ s.sweeps, ∀ r ∈ s'.rows, r ∈ s.rows ∨ sw.exposes r = false) : s'.Inv env := by
  refine ⟨hkeys, hsweeps ▸ h.policies, ?_⟩
  intro index sw hsw
  rw [hsweeps] at hsw
  have hmem : sw ∈ s.sweeps := List.mem_of_getElem? hsw
  exact (h.relies index sw hsw).mono (hheld sw hmem) (fun e he => hexports ▸ he) (hrows sw hmem)

theorem State.Inv.startSweep (h : s.Inv env) (dryRun : Bool) : (s.step env (.startSweep dryRun)).Inv env := by
  refine ⟨h.keys, ?_, ?_⟩
  · intro sw hsw
    rcases List.mem_append.mp hsw with hold | hnew
    · exact h.policies sw hold
    · obtain rfl := List.mem_singleton.mp hnew
      exact fun p hp => hp
  · intro index sw hsw
    have hlist : (s.sweeps ++ [⟨dryRun, defaultRetentionPolicies env, .idle⟩])[index]? = some sw := hsw
    rw [List.getElem?_append] at hlist
    split at hlist
    · exact h.relies index sw hlist
    · obtain rfl := List.mem_singleton.mp (List.mem_of_getElem? hlist)
      exact trivial

theorem State.Inv.count (h : s.Inv env) {index : Nat} {sw : Sweep} (hsw : s.sweeps[index]? = some sw) (now : Int)
    (fails : Bool) : (s.count index sw now fails).Inv env := by
  obtain ⟨dryRun, policies, phase⟩ := sw
  have hpolicies := h.policies _ (List.mem_of_getElem? hsw)
  cases phase with
  | idle =>
      cases policies with
      | nil => exact h
      | cons p rest =>
          refine h.advance rfl (fun q hq => hpolicies q (List.mem_cons_of_mem _ hq)) ?_ rfl (fun e he => he)
            (List.Sublist.refl _)
          dsimp only
          split
          · exact trivial
          · exact hpolicies p List.mem_cons_self
  | counted _ _ => exact h
  | checked _ _ _ => exact h
  | purging _ _ => exact h

theorem State.Inv.lookup (h : s.Inv env) {index : Nat} {sw : Sweep}
    (hsw : s.sweeps[index]? = some sw) {fails : Bool} (hcareful : s.Careful (.lookupHold index fails)) :
    (s.lookup index sw fails).Inv env := by
  obtain ⟨dryRun, policies, phase⟩ := sw
  have hpolicies := h.policies _ (List.mem_of_getElem? hsw)
  have hrelies := h.relies index _ hsw
  cases phase with
  | counted p cutoff =>
      refine h.advance rfl hpolicies ?_ rfl (fun e he => he) (List.Sublist.refl _)
      cases dryRun with
      | true => exact trivial
      | false =>
          refine ⟨hrelies, fun hnone => ?_⟩
          rw [legalHoldActive, Bool.or_eq_false_iff] at hnone
          refine ⟨hnone.1, ?_⟩
          show s.held p.table = false
          cases fails with
          | false => exact hnone.2
          | true =>
              rcases hcareful rfl _ hsw p rfl with hstatic | hfree
              · rw [hnone.1] at hstatic
                cases hstatic
              · exact hfree
  | idle => exact h
  | checked _ _ _ => exact h
  | purging _ _ => exact h

theorem State.Inv.archive (h : s.Inv env) {index : Nat} {sw : Sweep} (hsw : s.sweeps[index]? = some sw)
    (fails : Bool) : (s.archive index sw fails).Inv env := by
  obtain ⟨dryRun, policies, phase⟩ := sw
  have hpolicies := h.policies _ (List.mem_of_getElem? hsw)
  have hrelies := h.relies index _ hsw
  cases phase with
  | checked p cutoff held =>
      obtain ⟨hp, hfree⟩ := hrelies
      simp only [State.archive]
      split
      case isTrue =>
        split
        · exact h.advance rfl hpolicies trivial rfl (fun e he => he) (List.Sublist.refl _)
        · refine h.advance rfl hpolicies ?_ rfl (fun e he => List.mem_append_left _ he) (List.Sublist.refl _)
          cases held with
          | true => exact trivial
          | false =>
              refine ⟨hp, hfree rfl, fun _ => ?_⟩
              exact ⟨_, List.mem_append_right _ (List.mem_singleton_self _), rfl, fun r hr => hr⟩
      case isFalse hneither =>
        rw [Bool.or_eq_true, not_or, Bool.not_eq_true, Bool.not_eq_true] at hneither
        refine h.advance rfl hpolicies ⟨hp, hfree hneither.2, ?_⟩ rfl (fun e he => he) (List.Sublist.refl _)
        intro harchive
        rw [hneither.1] at harchive
        cases harchive
  | idle => exact h
  | counted _ _ => exact h
  | purging _ _ => exact h

theorem State.Inv.purge (h : s.Inv env) {index : Nat} {sw : Sweep} (hsw : s.sweeps[index]? = some sw)
    (chosen : List Int) (fails : Bool) : (s.purge index sw chosen fails).Inv env := by
  obtain ⟨dryRun, policies, phase⟩ := sw
  have hpolicies := h.policies _ (List.mem_of_getElem? hsw)
  have hrelies := h.relies index _ hsw
  cases phase with
  | purging p cutoff =>
      obtain ⟨hp, hfree, hexported⟩ := hrelies
      simp only [State.purge]
      split
      · exact h.advance rfl hpolicies trivial rfl (fun e he => he) (List.Sublist.refl _)
      split
      · refine h.advance rfl hpolicies ?_ rfl (fun e he => he) List.filter_sublist
        dsimp only
        split
        · exact trivial
        · refine ⟨hp, hfree, fun harchive => ?_⟩
          obtain ⟨e, he, hindex, hcovers⟩ := hexported harchive
          refine ⟨e, he, hindex, fun r hr => hcovers r ?_⟩
          exact (List.filter_sublist.filter _).subset hr
      · exact h
  | idle => exact h
  | counted _ _ => exact h
  | checked _ _ _ => exact h

theorem State.Inv.insert (h : s.Inv env) {row : TableRow} (hcareful : s.Careful (.insert row)) :
    (s.step env (.insert row)).Inv env := by
  rw [State.step]
  split
  case isTrue => exact h
  case isFalse hnew =>
    have hkey : row.key ∉ s.rows.map TableRow.key := by
      intro hmem
      obtain ⟨r, hr, heq⟩ := List.mem_map.mp hmem
      exact hnew (List.any_eq_true.mpr ⟨r, hr, beq_iff_eq.mpr heq⟩)
    refine h.meanwhile rfl rfl (Rows.nodup_map_append_singleton h.keys hkey) (fun _ _ _ _ hfree => hfree) ?_
    intro sw hsw r hr
    rcases List.mem_append.mp hr with hold | hlast
    · exact .inl hold
    · obtain rfl := List.mem_singleton.mp hlast
      exact .inr (hcareful hkey sw hsw)

theorem update_keys (rows : List TableRow) (row : TableRow) :
    (Rows.update TableRow.key row.key (fun _ => row) rows).map TableRow.key = rows.map TableRow.key :=
  Rows.map_update fun _ _ heq => heq.symm

theorem State.Inv.update (h : s.Inv env) {row : TableRow} (hcareful : s.Careful (.update row)) :
    (s.step env (.update row)).Inv env := by
  have hkeys := h.keys
  rw [← update_keys s.rows row] at hkeys
  refine h.meanwhile rfl rfl hkeys (fun _ _ _ _ hfree => hfree) ?_
  intro sw hsw r hr
  rcases Rows.mem_update.mp hr with ⟨r₀, hr₀, hkey, rfl⟩ | ⟨hold, -⟩
  · by_cases hold : r ∈ s.rows
    · exact .inl hold
    · exact .inr (hcareful (hkey ▸ List.mem_map_of_mem hr₀) hold sw hsw)
  · exact .inl hold

theorem State.Inv.placeHold (h : s.Inv env) {table : String} (hcareful : s.Careful (.placeHold table)) :
    (s.step env (.placeHold table)).Inv env := by
  refine h.meanwhile rfl rfl h.keys ?_ fun _ _ r hr => .inl hr
  intro sw hsw other hunheld hfree
  have hne : other ≠ table := by
    rintro rfl
    rw [hcareful sw hsw] at hunheld
    cases hunheld
  show (s.holds ++ [LegalHold.mk table false]).any _ = false
  rw [List.any_append, Bool.or_eq_false_iff]
  exact ⟨hfree, by simp [hne.symm]⟩

theorem State.Inv.releaseHold (h : s.Inv env) (table : String) : (s.step env (.releaseHold table)).Inv env := by
  refine h.meanwhile rfl rfl h.keys ?_ fun _ _ r hr => .inl hr
  intro sw hsw other _ hfree
  show (s.holds.map _).any _ = false
  rw [held, List.any_eq_false] at hfree
  rw [List.any_map, List.any_eq_false]
  intro hold hmem
  have hfree := hfree hold hmem
  simp only [Function.comp_apply]
  split
  · simp
  · exact hfree

/-! The rows that go. -/

theorem State.rows_count (index : Nat) (sw : Sweep) (now : Int) (fails : Bool) :
    (s.count index sw now fails).rows = s.rows := by
  rw [count]
  split <;> rfl

theorem State.rows_lookup (index : Nat) (sw : Sweep) (fails : Bool) : (s.lookup index sw fails).rows = s.rows := by
  rw [lookup]
  split <;> rfl

theorem State.rows_archive (index : Nat) (sw : Sweep) (fails : Bool) :
    (s.archive index sw fails).rows = s.rows := by
  rw [archive]
  split
  · split
    · split <;> rfl
    · rfl
  · rfl

theorem State.rows_elim {sweep : Option Sweep} {f : Sweep → State} (h : ∀ sw, (f sw).rows = s.rows) :
    (sweep.elim s f).rows = s.rows := by
  cases sweep with
  | none => rfl
  | some sw => exact h sw

/-- A row that a batch takes is expired: the row with the id that was chosen has its key. -/
theorem State.Inv.expired_of_inBatch (h : s.Inv env) {p : DataRetentionPolicy} {cutoff : Int} {chosen : List Int}
    (hbatch : s.isBatch p cutoff chosen = true) {r : TableRow} (hr : r ∈ s.rows) (hin : inBatch p chosen r = true) :
    r ∈ s.expiredRows p cutoff := by
  rw [inBatch, Bool.and_eq_true, beq_iff_eq, List.contains_iff_mem] at hin
  obtain ⟨htable, hid⟩ := hin
  rw [isBatch, Bool.and_eq_true, Bool.and_eq_true] at hbatch
  obtain ⟨q, hq, hqid⟩ := List.any_eq_true.mp (List.all_eq_true.mp hbatch.1.2 r.id hid)
  obtain ⟨hmem, hexpired⟩ := List.mem_filter.mp hq
  have hqtable : q.table = p.table := by
    have hboth := hexpired
    rw [expired, Bool.and_eq_true, beq_iff_eq] at hboth
    exact hboth.1
  have hkey : r.key = q.key := Prod.ext (htable.trans hqtable.symm) (beq_iff_eq.mp hqid).symm
  rw [Rows.eq_of_key_eq h.keys hr hmem hkey]
  exact hq

/-- Only a batch takes rows away. -/
theorem State.Inv.deleted (h : s.Inv env) {i : Input} {r : TableRow} (hr : r ∈ s.rows)
    (hgone : r.key ∉ (s.step env i).rows.map TableRow.key) :
    ∃ index sw p cutoff chosen, i = .purge index chosen false ∧ s.sweeps[index]? = some sw ∧
      sw.phase = .purging p cutoff ∧ r ∈ s.expiredRows p cutoff := by
  have hsame : ∀ {s' : State}, s'.rows.map TableRow.key = s.rows.map TableRow.key →
      r.key ∉ s'.rows.map TableRow.key → False :=
    fun hkeys hnot => hnot (hkeys ▸ List.mem_map_of_mem hr)
  cases i with
  | startSweep dryRun => exact (hsame rfl hgone).elim
  | placeHold table => exact (hsame rfl hgone).elim
  | releaseHold table => exact (hsame rfl hgone).elim
  | update row => exact (hsame (update_keys s.rows row) hgone).elim
  | insert row =>
      rw [State.step] at hgone
      split at hgone
      · exact (hsame rfl hgone).elim
      · exact (hgone (List.mem_map_of_mem (List.mem_append_left _ hr))).elim
  | count index now fails =>
      exact (hsame (congrArg _ (rows_elim fun sw => rows_count index sw now fails)) hgone).elim
  | lookupHold index fails =>
      exact (hsame (congrArg _ (rows_elim fun sw => rows_lookup index sw fails)) hgone).elim
  | archive index fails =>
      exact (hsame (congrArg _ (rows_elim fun sw => rows_archive index sw fails)) hgone).elim
  | purge index chosen fails =>
      rw [State.step] at hgone
      cases hsw : s.sweeps[index]? with
      | none => rw [hsw] at hgone; exact (hsame rfl hgone).elim
      | some sw =>
          rw [hsw, Option.elim_some, State.purge] at hgone
          split at hgone
          case h_1 p cutoff hphase =>
            split at hgone
            case isTrue => exact (hsame rfl hgone).elim
            case isFalse hworks =>
              rw [Bool.not_eq_true] at hworks
              subst hworks
              split at hgone
              case isTrue hbatch =>
                refine ⟨index, sw, p, cutoff, chosen, rfl, hsw, hphase, h.expired_of_inBatch hbatch hr ?_⟩
                by_contra hout
                rw [Bool.not_eq_true] at hout
                exact hgone (List.mem_map_of_mem (List.mem_filter.mpr ⟨hr, by rw [hout]; rfl⟩))
              case isFalse => exact (hsame rfl hgone).elim
          case h_2 => exact (hsame rfl hgone).elim

/-! ### Runs -/

theorem State.Inv.step (h : s.Inv env) {i : Input} (hcareful : s.Careful i) : (s.step env i).Inv env := by
  cases i with
  | startSweep dryRun => exact h.startSweep dryRun
  | count index now fails =>
      rw [State.step]
      cases hsw : s.sweeps[index]? with
      | none => exact h
      | some sw => exact h.count hsw now fails
  | lookupHold index fails =>
      rw [State.step]
      cases hsw : s.sweeps[index]? with
      | none => exact h
      | some sw => exact h.lookup hsw hcareful
  | archive index fails =>
      rw [State.step]
      cases hsw : s.sweeps[index]? with
      | none => exact h
      | some sw => exact h.archive hsw fails
  | purge index chosen fails =>
      rw [State.step]
      cases hsw : s.sweeps[index]? with
      | none => exact h
      | some sw => exact h.purge hsw chosen fails
  | insert row => exact h.insert hcareful
  | update row => exact h.update hcareful
  | placeHold table => exact h.placeHold hcareful
  | releaseHold table => exact h.releaseHold table

theorem State.Inv.kept (h : s.Inv env) (i : Input) : s.Kept env i := by
  intro r hr hgone
  obtain ⟨index, sw, p, cutoff, chosen, rfl, hsw, hphase, hexpired⟩ := h.deleted hr hgone
  have hrelies := h.relies index sw hsw
  rw [hphase] at hrelies
  obtain ⟨hp, ⟨hstatic, hfree⟩, hexported⟩ := hrelies
  have htable : r.table = p.table := by
    have hboth := (List.mem_filter.mp hexpired).2
    rw [expired, Bool.and_eq_true, beq_iff_eq] at hboth
    exact hboth.1
  constructor
  · rintro (hheld | ⟨q, hq, hsame, hhold⟩)
    · rw [htable, hfree] at hheld
      cases hheld
    · rw [eq_of_table hq hp (hsame.trans htable), hstatic] at hhold
      cases hhold
  · rintro ⟨q, hq, hsame, harchive⟩
    rw [eq_of_table hq hp (hsame.trans htable)] at harchive
    obtain ⟨e, he, hindex, hcovers⟩ := hexported harchive
    exact ⟨index, chosen, rfl, e, he, hindex, hcovers r hexpired⟩

/-- Nothing is destroyed without a copy or under a hold in any run that is careful about the two. -/
theorem retention_kept_of_careful (env : Environment) (rows : List TableRow) (holds : List LegalHold)
    (hkeys : (rows.map TableRow.key).Nodup) (inputs : List Input)
    (hcareful : Runs.AllSteps (State.step env) State.Careful ⟨rows, holds, [], []⟩ inputs) :
    Runs.AllSteps (State.step env) (State.Kept env) ⟨rows, holds, [], []⟩ inputs := by
  have hstep : ∀ (s : State) i, s.Inv env → s.Careful i → (s.step env i).Inv env := fun _ _ h hi => h.step hi
  exact Runs.AllSteps.imp_of_inv hstep (fun _ i h _ => h.kept i) (start_inv rows holds hkeys) hcareful

/-- A verification of 1970, to the second 90000. -/
def oldVerification : TableRow := ⟨"biometric_verifications", 1, some 90000, "V1"⟩

/-- In 1973 a sweep comes to the first policy: it counts, finds no hold, exports and deletes. -/
def purgeOld : List Input :=
  [.startSweep false, .count 0 94694400 false, .lookupHold 0 false, .archive 0 false, .purge 0 [1] false]

theorem kept_purgeOld :
    Runs.AllSteps (State.step fun _ => "") State.Careful ⟨[oldVerification], [], [], []⟩ purgeOld ∧
      Runs.AllSteps (State.step fun _ => "") (State.Kept fun _ => "") ⟨[oldVerification], [], [], []⟩ purgeOld := by
  have hcareful : Runs.AllSteps (State.step fun _ => "") State.Careful ⟨[oldVerification], [], [],
      []⟩ purgeOld := by
    decide +kernel
  exact ⟨hcareful, retention_kept_of_careful _ _ _ (by decide) _ hcareful⟩

/-- The lookup fails while a hold is on the table. -/
def blindSweep : List Input :=
  [.startSweep false, .count 0 94694400 false, .lookupHold 0 true, .archive 0 false]

/-- The row is deleted under the hold. -/
theorem purged_under_hold :
    ¬ ∀ env rows holds, (rows.map TableRow.key).Nodup → ∀ inputs,
      Runs.AllSteps (State.step env) (State.Kept env) ⟨rows, holds, [], []⟩ inputs := by
  intro h
  have hrun := h (fun _ => "") [oldVerification] [⟨"biometric_verifications", false⟩] (by decide)
    (blindSweep ++ [.purge 0 [1] false])
  have hkept := hrun.last oldVerification (by decide +kernel) (by decide +kernel)
  exact hkept.1 (.inl (by decide +kernel))

end Inec.Retention
