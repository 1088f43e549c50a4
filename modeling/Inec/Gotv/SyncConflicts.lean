import Inec.Lib.Runs

/-!
# Sync conflicts of the mobile app

handleMobileSyncConflictsIngest and handleMobileSyncConflictResolve of cmd/gotv-svc/conflicts.go, for one row of
`gotv_sync_conflicts`. A resolution reads the row, inserts the client's record if that is what it is for, and
then closes the row if it is still pending; every statement is a step of its own, and there is no lock. The
insert does nothing when its knock id is taken.

Door knocks of all other requests, those of other conflicts among them, are stored at any time. `fails` is a
statement the database refuses. `parseKnockTimestamp` is a parameter: the time in UTC, or none for an empty
text. A coordinate is the bits of a 64-bit float.
-/

namespace Inec.SyncConflicts

/-- The CHECK of the column `status`. -/
inductive Status
  | pending
  | resolvedClient
  | resolvedServer
  | discarded
  deriving DecidableEq, Repr

inductive Resolution
  | acceptClient
  | acceptServer
  deriving DecidableEq, Repr

/-- `newStatus` -/
def Resolution.newStatus : Resolution → Status
  | acceptClient => .resolvedClient
  | acceptServer => .resolvedServer

structure ParkedConflict where
  localId : String
  contactId : String
  shiftId : String
  outcome : String
  notes : String
  latitude : UInt64
  longitude : UInt64
  timestamp : String
  serverKnockId : String
  conflictReason : String
  deriving DecidableEq, Repr

structure Conflict where
  partyId : Int
  volunteerId : String
  entityType : String
  localId : String
  serverId : Option String
  conflictReason : Option String
  clientPayload : ParkedConflict
  status : Status
  resolutionNote : Option String
  resolvedBy : Option String
  deriving DecidableEq, Repr

/-- A row of `gotv_door_knocks`, and whether it was written for the conflict. -/
structure Knock where
  partyId : Int
  volunteerId : String
  contactId : String
  knockId : Option String
  shiftId : Option String
  outcome : String
  notes : String
  latitude : UInt64
  longitude : UInt64
  knockedAt : Option String
  ofConflict : Bool
  deriving DecidableEq, Repr

/-- What a resolution does next. -/
inductive Stage
  | apply (c : ParkedConflict) (knockedAt : Option String)
  | close (resolution : Resolution)
  deriving DecidableEq, Repr

structure Request where
  partyId : Int
  user : String
  note : String
  stage : Stage
  deriving DecidableEq, Repr

structure State where
  conflict : Option Conflict
  knocks : List Knock
  /-- The resolutions that have read the row as pending. -/
  requests : List Request
  deriving DecidableEq, Repr

inductive Input
  | ingest (partyId : Int) (user : String) (c : ParkedConflict) (fails : Bool)
  | storeKnock (k : Knock) (fails : Bool)
  | resolve (partyId : Int) (user : String) (resolution : Resolution) (note : String) (fails : Bool)
  | apply (index : Nat) (knockId : String) (fails : Bool)
  | close (index : Nat) (fails : Bool)
  deriving DecidableEq, Repr

def start : State := ⟨none, [], []⟩

section Handlers

variable (parseKnockTimestamp : String → Except String (Option String))

def syncOutcomeAllowed : List String :=
  ["home", "not_home", "refused", "pledged", "already_voted", "moved", "callback"]

def validateParkedConflict (c : ParkedConflict) : Except String Unit :=
  if c.localId = "" then .error "local_id is required (device-generated idempotency key)"
  else if c.contactId = "" then .error "contact_id is required"
  else if c.outcome ≠ "" ∧ c.outcome ∉ syncOutcomeAllowed then .error "invalid outcome"
  else (parseKnockTimestamp c.timestamp).map fun _ => ()

def nullStr (s : String) : Option String := if s = "" then none else some s

/-- The row that is inserted for a conflict. -/
def park (partyId : Int) (user : String) (c : ParkedConflict) : Conflict :=
  ⟨partyId, user, "door_knock", c.localId, nullStr c.serverKnockId, nullStr c.conflictReason, c,
    .pending, none, none⟩

/-- The INSERT of a door knock: refused where the outcome breaks its CHECK, and nothing where the knock id is
taken. -/
def insertKnock (knocks : List Knock) (k : Knock) (fails : Bool) : Option (List Knock) :=
  if fails = true ∨ k.outcome ∉ syncOutcomeAllowed then none
  else if k.knockId.isSome ∧ ∃ other ∈ knocks, other.knockId = k.knockId then some knocks
  else some (knocks ++ [k])

/-- The knock a request applies. -/
def Request.knock (r : Request) (c : ParkedConflict) (knockedAt : Option String) (knockId : String) : Knock :=
  ⟨r.partyId, r.user, c.contactId, some knockId, nullStr c.shiftId, c.outcome, c.notes, c.latitude, c.longitude,
    knockedAt, true⟩

/-- What handleMobileSyncConflictResolve finds in the row, up to its first write. -/
def Conflict.stage? (c : Conflict) (partyId : Int) (user : String) : Resolution → Option Stage
  | .acceptServer =>
      if c.partyId = partyId ∧ c.volunteerId = user ∧ c.status = .pending then some (.close .acceptServer)
      else none
  | .acceptClient =>
      if c.partyId = partyId ∧ c.volunteerId = user ∧ c.status = .pending ∧ c.entityType = "door_knock" then
        match parseKnockTimestamp c.clientPayload.timestamp with
        | .ok knockedAt => some (.apply c.clientPayload knockedAt)
        | .error _ => none
      else none

/-- The last UPDATE. -/
def Conflict.close (c : Conflict) (r : Request) (resolution : Resolution) : Conflict :=
  if c.partyId = r.partyId ∧ c.status = .pending then
    { c with status := resolution.newStatus, resolutionNote := nullStr r.note, resolvedBy := some r.user }
  else c

/-- The INSERT of a resolution; refused, it is the end of the request. -/
def State.apply (s : State) (index : Nat) (r : Request) (k : Knock) (fails : Bool) : State :=
  match insertKnock s.knocks k fails with
  | some knocks =>
      { s with knocks := knocks, requests := s.requests.set index { r with stage := .close .acceptClient } }
  | none => { s with requests := s.requests.eraseIdx index }

def State.close (s : State) (index : Nat) (r : Request) (resolution : Resolution) (fails : Bool) : State :=
  { s with conflict := if fails then s.conflict else s.conflict.map fun c => c.close r resolution
           requests := s.requests.eraseIdx index }

def State.step (s : State) : Input → State
  | .ingest partyId user c fails =>
      match s.conflict, validateParkedConflict parseKnockTimestamp c with
      | none, .ok () => if fails then s else { s with conflict := some (park partyId user c) }
      | _, _ => s
  | .storeKnock k fails =>
      { s with knocks := (insertKnock s.knocks { k with ofConflict := false } fails).getD s.knocks }
  | .resolve partyId user resolution note fails =>
      match s.conflict.bind fun c => c.stage? parseKnockTimestamp partyId user resolution with
      | some stage => if fails then s else { s with requests := s.requests ++ [⟨partyId, user, note, stage⟩] }
      | none => s
  | .apply index knockId fails =>
      match s.requests[index]? with
      | some r =>
          match r.stage with
          | .apply c knockedAt => s.apply index r (r.knock c knockedAt knockId) fails
          | .close _ => s
      | none => s
  | .close index fails =>
      match s.requests[index]? with
      | some r =>
          match r.stage with
          | .apply .. => s
          | .close resolution => s.close index r resolution fails
      | none => s

end Handlers

/-! ### What is asked -/

/-- How often the client's record was stored. -/
def State.applied (s : State) : Nat := s.knocks.countP (·.ofConflict)

/-- Between its two writes. -/
def Request.inserted (r : Request) : Prop := r.stage = .close .acceptClient

instance (r : Request) : Decidable r.inserted := inferInstanceAs (Decidable (r.stage = .close .acceptClient))

/-- The client's record is stored once at most, and the row is resolved for the client exactly if it is stored,
but for a row that is still pending while a resolution stands between its two writes. -/
structure State.ResolvedOnce (s : State) : Prop where
  once : s.applied ≤ 1
  stored : ∀ c ∈ s.conflict, c.status = .resolvedClient → 0 < s.applied
  resolved : ∀ c ∈ s.conflict, 0 < s.applied →
    c.status = .resolvedClient ∨ c.status = .pending ∧ ∃ r ∈ s.requests, r.inserted

/-- The INSERT of the request stores its record. -/
def State.stores (s : State) (index : Nat) (knockId : String) (fails : Bool) : Prop :=
  ∃ r ∈ s.requests[index]?, ∃ c knockedAt, r.stage = .apply c knockedAt ∧
    insertKnock s.knocks (r.knock c knockedAt knockId) fails = some (s.knocks ++ [r.knock c knockedAt knockId])

/-- A record is stored for a pending row that has none, the UPDATE of a pending row is for the client exactly if the
record is stored, and none is refused that is the last to stand behind a stored record. -/
def State.Careful (s : State) : Input → Prop
  | .apply index knockId fails =>
      s.stores index knockId fails → s.applied = 0 ∧ ∀ c ∈ s.conflict, c.status = .pending
  | .close index fails =>
      ∀ r ∈ s.requests[index]?, ∀ resolution, r.stage = .close resolution → ∀ c ∈ s.conflict, c.status = .pending →
        if fails = true then resolution = .acceptClient → 0 < s.applied →
          ∃ r ∈ s.requests.eraseIdx index, r.inserted
        else 0 < s.applied ↔ resolution = .acceptClient
  | _ => True

/-! ### The statements -/

variable {parseKnockTimestamp : String → Except String (Option String)} {s s' : State}

/-- There are no resolutions of a row that is not there, and those there are are of its party. -/
structure State.Base (s : State) : Prop where
  empty : s.conflict = none → s.applied = 0 ∧ s.requests = []
  party : ∀ c ∈ s.conflict, ∀ r ∈ s.requests, r.partyId = c.partyId

theorem insertKnock_cases {knocks knocks' : List Knock} {k : Knock} {fails : Bool}
    (h : insertKnock knocks k fails = some knocks') : knocks' = knocks ∨ knocks' = knocks ++ [k] := by
  unfold insertKnock at h
  split at h
  · cases h
  · split at h
    · exact Or.inl (Option.some.inj h).symm
    · exact Or.inr (Option.some.inj h).symm

/-- A row that is still there, and has no more resolutions than those of its party. -/
theorem State.Base.of_some (h : s.Base) {c : Conflict} (hc : s.conflict = some c) {c' : Conflict}
    (hc' : s'.conflict = some c') (hparty : c'.partyId = c.partyId)
    (hrequests : ∀ r ∈ s'.requests, r ∈ s.requests ∨ r.partyId = c.partyId) : s'.Base where
  empty hnone := by
    rw [hc'] at hnone
    cases hnone
  party c'' hc'' r hr := by
    rw [hc', Option.mem_some] at hc''
    rw [← hc'', hparty]
    rcases hrequests r hr with hold | hnew
    · exact h.party c hc r hold
    · exact hnew

theorem exists_conflict (h : s.Base) {index : Nat} {r : Request} (hr : s.requests[index]? = some r) :
    ∃ c, s.conflict = some c := by
  cases hc : s.conflict with
  | some c => exact ⟨c, rfl⟩
  | none =>
      rw [(h.empty hc).2] at hr
      cases hr

/-- A step that neither writes the row nor stores its record. -/
theorem State.ResolvedOnce.of_eq (h : s.ResolvedOnce) (hconflict : s'.conflict = s.conflict)
    (happlied : s'.applied = s.applied) (hinserted : ∀ r ∈ s.requests, r.inserted → ∃ r ∈ s'.requests, r.inserted) :
    s'.ResolvedOnce where
  once := happlied ▸ h.once
  stored c hc hstatus := happlied ▸ h.stored c (hconflict ▸ hc) hstatus
  resolved c hc hstored := by
    rcases h.resolved c (hconflict ▸ hc) (happlied ▸ hstored) with hclient | ⟨hpending, r, hr, hins⟩
    · exact Or.inl hclient
    · exact Or.inr ⟨hpending, hinserted r hr hins⟩

theorem mem_eraseIdx_of_ne {index : Nat} {r r' : Request} (hr : s.requests[index]? = some r) (hr' : r' ∈ s.requests)
    (hne : r' ≠ r) : r' ∈ s.requests.eraseIdx index := by
  obtain ⟨i, hget⟩ := List.mem_iff_getElem?.mp hr'
  refine List.mem_eraseIdx_iff_getElem?.mpr ⟨i, ?_, hget⟩
  intro hsame
  rw [hsame, hr, Option.some.injEq] at hget
  exact hne hget.symm

theorem applied_storeKnock (s : State) (k : Knock) (fails : Bool) :
    (s.step parseKnockTimestamp (.storeKnock k fails)).applied = s.applied := by
  show ((insertKnock s.knocks _ fails).getD s.knocks).countP _ = _
  cases hinsert : insertKnock s.knocks { k with ofConflict := false } fails with
  | none => rfl
  | some knocks =>
      rcases insertKnock_cases hinsert with hsame | hnew
      · rw [hsame]
        rfl
      · rw [hnew, Option.getD_some, List.countP_append]
        rfl

theorem partyId_of_stage? {c : Conflict} {partyId : Int} {user : String} {resolution : Resolution} {stage : Stage}
    (h : c.stage? parseKnockTimestamp partyId user resolution = some stage) : partyId = c.partyId := by
  cases resolution with
  | acceptServer =>
      rw [Conflict.stage?] at h
      split at h
      case isTrue hmine => exact hmine.1.symm
      case isFalse => cases h
  | acceptClient =>
      rw [Conflict.stage?] at h
      split at h
      case isTrue hmine => exact hmine.1.symm
      case isFalse => cases h

/-! ### The insert -/

section Apply

variable {index : Nat} {r : Request} {c : ParkedConflict} {knockedAt : Option String}
    {knockId : String} {fails : Bool}

theorem base_apply (h : s.Base) (hr : s.requests[index]? = some r) {k : Knock} :
    (s.apply index r k fails).Base := by
  obtain ⟨row, hrow⟩ := exists_conflict h hr
  have hparty : r.partyId = row.partyId := h.party row hrow r (List.mem_of_getElem? hr)
  unfold State.apply
  split
  · refine h.of_some hrow hrow rfl ?_
    intro r' hr'
    rcases List.mem_or_eq_of_mem_set hr' with hold | hnew
    · exact Or.inl hold
    · exact Or.inr (by rw [hnew]; exact hparty)
  · refine h.of_some hrow hrow rfl ?_
    intro r' hr'
    exact Or.inl (List.mem_of_mem_eraseIdx hr')

theorem not_inserted_of_apply (hstage : r.stage = .apply c knockedAt) : ¬r.inserted := by
  unfold Request.inserted
  rw [hstage]
  nofun

/-- A record that is added is the only one exactly if there was none, and it is for a pending row. -/
theorem resolvedOnce_append_iff {s' : State} {k : Knock} (h : s.ResolvedOnce) (hconflict : s'.conflict = s.conflict)
    (hknocks : s'.knocks = s.knocks ++ [k]) (hk : k.ofConflict = true) (hinserted : ∃ r ∈ s'.requests, r.inserted) :
    s'.ResolvedOnce ↔ s.applied = 0 ∧ ∀ c ∈ s.conflict, c.status = .pending := by
  have happlied : s'.applied = s.applied + 1 := by
    show s'.knocks.countP _ = _
    rw [hknocks, List.countP_append, List.countP_singleton, hk]
    rfl
  constructor
  · intro h'
    have honce := h'.once
    have hzero : s.applied = 0 := by omega
    refine ⟨hzero, fun row hrow => ?_⟩
    rcases h'.resolved row (hconflict ▸ hrow) (by omega) with hclient | ⟨hpending, -⟩
    · have hbefore := h.stored row hrow hclient
      omega
    · exact hpending
  · rintro ⟨hzero, hpending⟩
    refine ⟨by omega, ?_, ?_⟩
    · intro row hrow hclient
      rw [hpending row (hconflict ▸ hrow)] at hclient
      cases hclient
    · intro row hrow _
      exact Or.inr ⟨hpending row (hconflict ▸ hrow), hinserted⟩

/-- The record is stored once and for a pending row, or it is not stored. -/
theorem resolvedOnce_apply_iff (h : s.ResolvedOnce) (hr : s.requests[index]? = some r)
    (hstage : r.stage = .apply c knockedAt) :
    (s.apply index r (r.knock c knockedAt knockId) fails).ResolvedOnce ↔
      (s.stores index knockId fails → s.applied = 0 ∧ ∀ c ∈ s.conflict, c.status = .pending) := by
  have hindex : index < s.requests.length := (List.getElem?_eq_some_iff.mp hr).1
  have hkept : ∀ r' ∈ s.requests, r'.inserted → r' ∈ s.requests.eraseIdx index := by
    intro r' hr' hins
    exact mem_eraseIdx_of_ne hr hr' fun heq => not_inserted_of_apply hstage (heq ▸ hins)
  have hset : ({ r with stage := .close .acceptClient } : Request) ∈
      s.requests.set index { r with stage := .close .acceptClient } := List.mem_set hindex _
  have hstores : s.stores index knockId fails ↔
      insertKnock s.knocks (r.knock c knockedAt knockId) fails =
        some (s.knocks ++ [r.knock c knockedAt knockId]) := by
    unfold State.stores
    rw [hr]
    constructor
    · rintro ⟨r', hr', c', knockedAt', hstage', hinsert⟩
      rw [Option.mem_some] at hr'
      subst hr'
      rw [hstage, Stage.apply.injEq] at hstage'
      rw [hstage'.1, hstage'.2]
      exact hinsert
    · intro hinsert
      exact ⟨r, rfl, c, knockedAt, hstage, hinsert⟩
  rw [hstores]
  unfold State.apply
  cases hinsert : insertKnock s.knocks (r.knock c knockedAt knockId) fails with
  | none =>
      constructor
      · intro _ hsome
        cases hsome
      · intro _
        exact h.of_eq rfl rfl fun r' hr' hins => ⟨r', hkept r' hr' hins, hins⟩
  | some knocks =>
      rcases insertKnock_cases hinsert with hsame | hnew
      · constructor
        · intro _ hsome
          have hlength := congrArg List.length (hsame.symm.trans (Option.some.inj hsome))
          simp at hlength
        · intro _
          refine h.of_eq rfl ?_ fun _ _ _ => ⟨_, hset, rfl⟩
          show knocks.countP _ = _
          rw [hsame]
          rfl
      · rw [hnew]
        simp only [forall_const]
        exact resolvedOnce_append_iff h rfl rfl rfl ⟨_, hset, rfl⟩

end Apply

/-! ### The closing update -/

section Close

variable {index : Nat} {r : Request} {resolution : Resolution} {fails : Bool}

theorem base_close (h : s.Base) (hr : s.requests[index]? = some r) : (s.close index r resolution fails).Base := by
  obtain ⟨row, hrow⟩ := exists_conflict h hr
  have hparty : (row.close r resolution).partyId = row.partyId := by
    unfold Conflict.close
    split <;> rfl
  have hrequests : ∀ r' ∈ s.requests.eraseIdx index, r' ∈ s.requests ∨ r'.partyId = row.partyId :=
    fun r' hr' => Or.inl (List.mem_of_mem_eraseIdx hr')
  unfold State.close
  cases fails with
  | true => exact h.of_some hrow hrow rfl hrequests
  | false =>
      have hclosed : s.conflict.map (fun c => c.close r resolution) = some (row.close r resolution) := by
        rw [hrow]
        rfl
      exact h.of_some hrow hclosed hparty hrequests

theorem kept_of_acceptServer (hr : s.requests[index]? = some r) (hstage : r.stage = .close resolution)
    (hserver : resolution ≠ .acceptClient) : ∀ r' ∈ s.requests, r'.inserted → r' ∈ s.requests.eraseIdx index := by
  intro r' hr' hins
  refine mem_eraseIdx_of_ne hr hr' fun heq => hserver ?_
  rw [heq, Request.inserted, hstage, Stage.close.injEq] at hins
  exact hins

/-- Refused for a pending row, it leaves another resolution behind the stored record. -/
theorem resolvedOnce_refused_iff {row : Conflict} (h : s.ResolvedOnce) (hr : s.requests[index]? = some r)
    (hstage : r.stage = .close resolution) (hrow : s.conflict = some row) (hpending : row.status = .pending) :
    (s.close index r resolution true).ResolvedOnce ↔
      (resolution = .acceptClient → 0 < s.applied → ∃ r ∈ s.requests.eraseIdx index, r.inserted) := by
  constructor
  · intro h' hclient hstored
    rcases h'.resolved row hrow hstored with hresolved | ⟨-, hother⟩
    · rw [hpending] at hresolved
      cases hresolved
    · exact hother
  · intro hother
    refine ⟨h.once, h.stored, fun c hc hstored => ?_⟩
    rcases h.resolved c hc hstored with hresolved | ⟨hstill, r', hr', hins⟩
    · exact Or.inl hresolved
    · by_cases hclient : resolution = .acceptClient
      · exact Or.inr ⟨hstill, hother hclient hstored⟩
      · exact Or.inr ⟨hstill, r', kept_of_acceptServer hr hstage hclient r' hr' hins, hins⟩

/-- A pending row is closed for whom it should be. -/
theorem resolvedOnce_closed_iff {row : Conflict} (h : s.ResolvedOnce) (hrow : s.conflict = some row)
    (hparty : row.partyId = r.partyId) (hpending : row.status = .pending) :
    (s.close index r resolution false).ResolvedOnce ↔ (0 < s.applied ↔ resolution = .acceptClient) := by
  have hclosed : (s.close index r resolution false).conflict = some (row.close r resolution) := by
    show s.conflict.map _ = _
    rw [hrow]
    rfl
  have hstatus : (row.close r resolution).status = resolution.newStatus := by
    unfold Conflict.close
    rw [if_pos ⟨hparty, hpending⟩]
  constructor
  · intro h'
    constructor
    · intro hstored
      rcases h'.resolved _ hclosed hstored with hresolved | ⟨hstill, -⟩
      · cases resolution with
        | acceptClient => rfl
        | acceptServer =>
            rw [hstatus] at hresolved
            cases hresolved
      · rw [hstatus] at hstill
        cases resolution <;> cases hstill
    · intro hclient
      exact h'.stored _ hclosed (by rw [hstatus, hclient]; rfl)
  · intro hiff
    refine ⟨h.once, ?_, ?_⟩
    · intro c hc hclient
      rw [hclosed, Option.mem_some] at hc
      rw [← hc, hstatus] at hclient
      cases resolution with
      | acceptClient => exact hiff.mpr rfl
      | acceptServer => cases hclient
    · intro c hc hstored
      rw [hclosed, Option.mem_some] at hc
      refine Or.inl ?_
      rw [← hc, hstatus, hiff.mp hstored]
      rfl

/-- A row that is closed already stays as it is. -/
theorem resolvedOnce_close_of_not_pending {row : Conflict} (h : s.ResolvedOnce) (hrow : s.conflict = some row)
    (hpending : row.status ≠ .pending) : (s.close index r resolution fails).ResolvedOnce := by
  have hsame : (s.close index r resolution fails).conflict = s.conflict := by
    have hclose : row.close r resolution = row := by
      unfold Conflict.close
      rw [if_neg fun hboth => hpending hboth.2]
    show (if fails then s.conflict else s.conflict.map _) = s.conflict
    cases fails with
    | true => rfl
    | false =>
        rw [hrow]
        show some (row.close r resolution) = some row
        rw [hclose]
  refine ⟨h.once, fun c hc => h.stored c (hsame ▸ hc), fun c hc hstored => ?_⟩
  rw [hsame] at hc
  rcases h.resolved c hc hstored with hresolved | ⟨hstill, -⟩
  · exact Or.inl hresolved
  · rw [hrow, Option.mem_some] at hc
    exact absurd (hc ▸ hstill) hpending

/-- Refused, it leaves another resolution behind the stored record, and otherwise it is for whom it should be. -/
theorem resolvedOnce_close_iff (hb : s.Base) (h : s.ResolvedOnce) (hr : s.requests[index]? = some r)
    (hstage : r.stage = .close resolution) :
    (s.close index r resolution fails).ResolvedOnce ↔
      ∀ c ∈ s.conflict, c.status = .pending →
        if fails = true then resolution = .acceptClient → 0 < s.applied →
          ∃ r ∈ s.requests.eraseIdx index, r.inserted
        else 0 < s.applied ↔ resolution = .acceptClient := by
  obtain ⟨row, hrow⟩ := exists_conflict hb hr
  have hparty : row.partyId = r.partyId := (hb.party row hrow r (List.mem_of_getElem? hr)).symm
  rw [hrow]
  simp only [Option.mem_some, forall_eq']
  by_cases hpending : row.status = .pending
  · simp only [hpending, forall_const]
    cases fails with
    | true =>
        rw [if_pos rfl]
        exact resolvedOnce_refused_iff h hr hstage hrow hpending
    | false =>
        rw [if_neg Bool.false_ne_true]
        exact resolvedOnce_closed_iff h hrow hparty hpending
  · constructor
    · intro _ hstill
      exact absurd hstill hpending
    · intro _
      exact resolvedOnce_close_of_not_pending h hrow hpending

end Close

/-! ### Every run -/

theorem start_base : start.Base where
  empty := fun _ => ⟨rfl, rfl⟩
  party := fun c hc => absurd hc (Option.not_mem_none c)

theorem start_resolvedOnce : start.ResolvedOnce :=
  ⟨Nat.zero_le _, fun c hc => absurd hc (Option.not_mem_none c), fun c hc => absurd hc (Option.not_mem_none c)⟩

theorem State.Base.step (h : s.Base) (i : Input) : (s.step parseKnockTimestamp i).Base := by
  cases i with
  | ingest partyId user c fails =>
      simp only [State.step]
      split
      case h_1 hnone hvalid =>
        split
        · exact h
        · obtain ⟨-, hnil⟩ := h.empty hnone
          refine ⟨nofun, fun row _ r hr => ?_⟩
          rw [show ({ s with conflict := some (park partyId user c) } : State).requests =
            s.requests from rfl, hnil] at hr
          cases hr
      case h_2 => exact h
  | storeKnock k fails =>
      refine ⟨fun hnone => ⟨?_, (h.empty hnone).2⟩, h.party⟩
      exact (applied_storeKnock s k fails).trans (h.empty hnone).1
  | resolve partyId user resolution note fails =>
      simp only [State.step]
      split
      case h_1 stage hstage =>
        split
        · exact h
        · obtain ⟨row, hrow, hread⟩ := Option.bind_eq_some_iff.mp hstage
          refine h.of_some hrow hrow rfl fun r hr => ?_
          rcases List.mem_append.mp hr with hold | hnew
          · exact Or.inl hold
          · rw [List.mem_singleton.mp hnew]
            exact Or.inr (partyId_of_stage? hread)
      case h_2 => exact h
  | apply index knockId fails =>
      simp only [State.step]
      split
      case h_1 r hr =>
        split
        · exact base_apply h hr
        · exact h
      case h_2 => exact h
  | close index fails =>
      simp only [State.step]
      split
      case h_1 r hr =>
        split
        · exact h
        · exact base_close h hr
      case h_2 => exact h

theorem resolvedOnce_step_iff (hb : s.Base) (h : s.ResolvedOnce) (i : Input) :
    (s.step parseKnockTimestamp i).ResolvedOnce ↔ s.Careful i := by
  cases i with
  | ingest partyId user c fails =>
      refine iff_of_true ?_ trivial
      simp only [State.step]
      split
      case h_1 hnone hvalid =>
        split
        · exact h
        · obtain ⟨hzero, -⟩ := hb.empty hnone
          refine ⟨h.once, ?_, ?_⟩
          · intro row hrow hclient
            rw [← Option.some.inj hrow] at hclient
            cases hclient
          · intro row hrow hstored
            have hnot : ¬0 < s.applied := by omega
            exact absurd hstored hnot
      case h_2 => exact h
  | storeKnock k fails =>
      exact iff_of_true (h.of_eq rfl (applied_storeKnock s k fails) fun r hr hins => ⟨r, hr, hins⟩) trivial
  | resolve partyId user resolution note fails =>
      refine iff_of_true ?_ trivial
      simp only [State.step]
      split
      · split
        · exact h
        · exact h.of_eq rfl rfl fun r hr hins => ⟨r, List.mem_append_left _ hr, hins⟩
      · exact h
  | apply index knockId fails =>
      simp only [State.step, State.Careful]
      split
      case h_1 r hr =>
        split
        case h_1 c knockedAt hstage => exact resolvedOnce_apply_iff h hr hstage
        case h_2 resolution hstage =>
          refine iff_of_true h ?_
          rintro ⟨r', hr', c, knockedAt, happly, -⟩
          rw [hr, Option.mem_some] at hr'
          rw [← hr', hstage] at happly
          cases happly
      case h_2 hr =>
        refine iff_of_true h ?_
        rintro ⟨r', hr', -⟩
        rw [hr] at hr'
        cases hr'
  | close index fails =>
      simp only [State.step, State.Careful]
      split
      case h_1 r hr =>
        rw [hr]
        split
        case h_1 c knockedAt hstage =>
          refine iff_of_true h ?_
          intro r' hr' resolution hclose
          rw [Option.mem_some] at hr'
          rw [← hr', hstage] at hclose
          cases hclose
        case h_2 resolution hstage =>
          rw [resolvedOnce_close_iff hb h hr hstage]
          constructor
          · intro hcond r' hr' resolution' hclose
            rw [Option.mem_some] at hr'
            rw [← hr', hstage, Stage.close.injEq] at hclose
            rw [← hclose]
            exact hcond
          · intro hcond
            exact hcond r rfl resolution hstage
      case h_2 hr =>
        refine iff_of_true h ?_
        intro r' hr'
        rw [hr] at hr'
        cases hr'

/-- Along a run the conflict is resolved once exactly if every statement of it finds what it needs. -/
theorem resolvedOnce_iff_careful (parseKnockTimestamp : String → Except String (Option String))
    (inputs : List Input) :
    (∀ s ∈ Runs.visited (State.step parseKnockTimestamp) start inputs, s.ResolvedOnce) ↔
      Runs.AllSteps (State.step parseKnockTimestamp) State.Careful start inputs := by
  have hbase : ∀ (s : State) i, s.Base → (s.step parseKnockTimestamp i).Base := fun s i h => h.step i
  exact Runs.forall_visited_iff hbase (fun _ i hb h =>
    resolvedOnce_step_iff hb h i) start_base start_resolvedOnce inputs

def parkedKnock : ParkedConflict :=
  ⟨"local-1", "contact-1", "", "home", "", 0, 0, "", "knock-server", "duplicate"⟩

def parkedAndRead (first second : Resolution) : List Input :=
  [.ingest 1 "vol" parkedKnock false, .resolve 1 "vol" first "" false, .resolve 1 "vol" second "" false]

/-- Two resolutions for the client, which have both read the row before either writes. -/
def acceptedTwice : List Input :=
  parkedAndRead .acceptClient .acceptClient ++
    [.apply 0 "knock-1" false, .apply 1 "knock-2" false, .close 0 false, .close 0 false]

/-- One for the server closes the row before the insert of one for the client. -/
def acceptedBothWays : List Input :=
  parkedAndRead .acceptClient .acceptServer ++ [.close 1 false, .apply 0 "knock-1" false, .close 0 false]

/-- The record is stored twice, or stored with the row resolved for the server. -/
theorem resolved_without_lock :
    (¬ ∀ parseKnockTimestamp inputs, ∀ s ∈ Runs.visited
      (State.step parseKnockTimestamp) start inputs, s.applied ≤ 1) ∧ ¬ ∀ parseKnockTimestamp inputs,
        ∀ s ∈ Runs.visited (State.step parseKnockTimestamp) start inputs, s.requests = [] → ∀ c ∈ s.conflict,
          c.status = .resolvedClient ↔ 0 < s.applied := by
  constructor
  · intro h
    have htwice := h (fun _ => .ok none) acceptedTwice _ (Runs.final_mem_visited _ _)
    revert htwice
    decide +kernel
  · intro h
    have hboth := h (fun _ => .ok none) acceptedBothWays _ (Runs.final_mem_visited _ _)
    revert hboth
    decide +kernel

end Inec.SyncConflicts
