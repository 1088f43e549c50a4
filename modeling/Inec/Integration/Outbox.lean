import Inec.Evidence.Record
import Inec.Lib.Runs

/-!
# Delivering the external outbox

external_integration_delivery.go. A worker selects the due event with the lowest id, claims it with an update
that only takes effect while the event is pending or failed, hands it to every required sink and marks it
delivered or failed. Selecting, claiming, each delivery and the marking are statements of their own, and several
workers run at a time.

A claimed event carries the attempt number that was selected, plus one; the update counts the attempts in the
row. The two differ for a worker that selected an event before another worker claimed it and failed, and claims
it after that. A pass ends at the first malformed event, and an event that has failed is due again after its
backoff, before the events behind it.

The text columns of a row are kept as what `json.Unmarshal` makes of them.
-/

namespace Inec

inductive DeliveryStatus
  | pending
  | failed
  | delivering
  | delivered
  deriving DecidableEq, Repr

structure OutboxRow where
  id : Int
  /-- Whether the payload can be read. -/
  payload : Bool
  /-- The list of sinks, if it can be read. -/
  requiredSinks : Option (List String)
  attemptCount : Nat
  status : DeliveryStatus
  nextAttemptAt : Nat
  deriving DecidableEq, Repr

/-- One turn of the loop of `parseRequiredSinks`. -/
def addSink (out : List String) (sink : String) : List String :=
  let sink := Text.lower (trimSpace sink)
  if sink = "" ∨ sink ∈ out then out else out ++ [sink]

def parseRequiredSinks (raw : Option (List String)) : List String := (raw.getD []).foldl addSink []

/-- In microseconds: one second, doubled with every attempt up to the ninth. -/
def backoffForAttempt (attempt : Nat) : Nat := 2 ^ min (max attempt 1 - 1) 8 * 1000000

namespace OutboxRow

variable (r : OutboxRow)

/-- Waiting for a worker. -/
def open? : Bool := r.status = .pending || r.status = .failed

def due (now : Nat) : Bool := r.open? && decide (r.nextAttemptAt ≤ now)

def sinks : List String := parseRequiredSinks r.requiredSinks

/-- What a claim checks after reading the row. -/
def wellFormed : Bool := r.payload && !r.sinks.isEmpty

/-- The update of a claim. -/
def claim : OutboxRow := if r.open? then { r with status := .delivering, attemptCount := r.attemptCount + 1 } else r

def finalize (now attempt : Nat) (success : Bool) : OutboxRow :=
  if success then { r with status := .delivered }
  else { r with status := .failed, nextAttemptAt := now + backoffForAttempt attempt }

end OutboxRow

theorem OutboxRow.claim_id (r : OutboxRow) : r.claim.id = r.id := by
  rw [claim]
  split
  · rfl
  · rfl

theorem OutboxRow.finalize_id (r : OutboxRow) (now attempt : Nat) (success : Bool) :
    (r.finalize now attempt success).id = r.id := by
  rw [finalize]
  split
  · rfl
  · rfl

/-- The table, in the order of the ids. -/
structure Outbox where
  rows : List OutboxRow
  ordered : (rows.map (·.id)).Pairwise (· < ·)

namespace Outbox

variable (q : Outbox)

/-- `SELECT ... WHERE due ORDER BY id LIMIT 1`. -/
def selectDue (now : Nat) : Option OutboxRow := q.rows.find? (·.due now)

def row? (id : Int) : Option OutboxRow := q.rows.find? fun r => r.id == id

/-- `UPDATE ... WHERE id = ?`. -/
def modify (id : Int) (f : OutboxRow → OutboxRow) (hf : ∀ r, (f r).id = r.id) : Outbox where
  rows := Rows.update (·.id) id f q.rows
  ordered := by
    rw [Rows.map_update fun r _ _ => hf r]
    exact q.ordered

def claim (id : Int) : Outbox := q.modify id (·.claim) OutboxRow.claim_id

def finalize (now : Nat) (id : Int) (attempt : Nat) (success : Bool) : Outbox :=
  q.modify id (·.finalize now attempt success) (·.finalize_id now attempt success)

/-- A new event gets the next id. -/
def enqueue (row : OutboxRow) : Outbox :=
  if h : ∀ r ∈ q.rows, r.id < row.id then
    { rows := q.rows ++ [row]
      ordered := by
        rw [List.map_append, List.pairwise_append]
        refine ⟨q.ordered, List.pairwise_singleton _ _, ?_⟩
        intro id hid id' hid'
        obtain ⟨r, hr, rfl⟩ := List.mem_map.mp hid
        rw [List.map_singleton, List.mem_singleton] at hid'
        exact hid' ▸ h r hr }
  else q

end Outbox

/-- The sinks `deliverExternalSink` knows; every other name is an error. -/
def externalSinks : List String := ["kafka", "dapr", "fluvio", "opensearch", "temporal"]

/-- How far a worker is with an event: the row as it was selected, and while delivering the attempt number of
the claim, the sinks that are left and whether all before them have accepted. -/
inductive WorkerPhase
  | idle
  | selected (row : OutboxRow)
  | delivering (row : OutboxRow) (attempt : Nat) (left : List String) (allDelivered : Bool)
  deriving DecidableEq

/-- A claim: a worker took an event, for what it holds to be this attempt. -/
structure OutboxClaim where
  worker : Nat
  id : Int
  attempt : Nat
  deriving DecidableEq, Repr

structure Delivery where
  now : Nat
  outbox : Outbox
  phase : Nat → WorkerPhase
  /-- The claims that were made, and what the sinks have accepted of them. -/
  claims : List OutboxClaim
  accepted : List (OutboxClaim × String)

/-- One statement of one worker; `abort` is a database error, which ends its pass. -/
inductive DeliveryAct
  | tick (elapsed : Nat)
  | enqueue (id : Int) (payload : Bool) (requiredSinks : Option (List String))
  | select (worker : Nat)
  | claim (worker : Nat)
  | deliver (worker : Nat) (accepts : Bool)
  | finalize (worker : Nat)
  | abort (worker : Nat)

namespace Delivery

def start (now : Nat) (outbox : Outbox) : Delivery := ⟨now, outbox, fun _ => .idle, [], []⟩

def setPhase (s : Delivery) (worker : Nat) (p : WorkerPhase) : Delivery :=
  { s with phase := Function.update s.phase worker p }

def step (s : Delivery) : DeliveryAct → Delivery
  | .tick elapsed => { s with now := s.now + elapsed }
  | .enqueue id payload requiredSinks =>
      { s with outbox := s.outbox.enqueue ⟨id, payload, requiredSinks, 0, .pending, s.now⟩ }
  | .select worker =>
      match s.phase worker with
      | .idle =>
          match s.outbox.selectDue s.now with
          | some row => if row.wellFormed then s.setPhase worker (.selected row) else s
          | none => s
      | _ => s
  | .claim worker =>
      match s.phase worker with
      | .selected row =>
          -- no row is affected when another worker holds the event
          if (s.outbox.row? row.id).any (·.open?) then
            { s with
              outbox := s.outbox.claim row.id
              phase := Function.update s.phase worker (.delivering row (row.attemptCount + 1) row.sinks true)
              claims := s.claims ++ [⟨worker, row.id, row.attemptCount + 1⟩] }
          else s.setPhase worker .idle
      | _ => s
  | .deliver worker accepts =>
      match s.phase worker with
      | .delivering row attempt (sink :: left) allDelivered =>
          if accepts && externalSinks.contains sink then
            { s with
              phase := Function.update s.phase worker (.delivering row attempt left allDelivered)
              accepted := s.accepted ++ [(⟨worker, row.id, attempt⟩, sink)] }
          else s.setPhase worker (.delivering row attempt left false)
      | _ => s
  | .finalize worker =>
      match s.phase worker with
      | .delivering row attempt [] allDelivered =>
          { s with
            outbox := s.outbox.finalize s.now row.id attempt allDelivered
            phase := Function.update s.phase worker .idle }
      | _ => s
  | .abort worker => s.setPhase worker .idle

end Delivery

/-- No event is claimed twice for one attempt. -/
def Exclusive (s : Delivery) : Prop := (s.claims.map fun c => (c.id, c.attempt)).Nodup

/-- An event that has become delivered was accepted by all its sinks, in one attempt of one worker. -/
def DeliveredAccepted (before : Outbox) (s : Delivery) : Prop :=
  ∀ r ∈ s.outbox.rows, r.status = .delivered →
    r ∈ before.rows ∨ ∃ c ∈ s.claims, c.id = r.id ∧ ∀ sink ∈ r.sinks, (c, sink) ∈ s.accepted

/-- A worker claims an event whose attempts are those it selected. -/
def ClaimsAsSelected (s : Delivery) (act : DeliveryAct) : Prop :=
  ∀ worker row current, act = .claim worker → s.phase worker = .selected row → s.outbox.row? row.id = some current →
    current.open? → current.attemptCount = row.attemptCount

/-! ### What the workers keep -/

namespace Outbox

variable {q : Outbox}

theorem nodup_ids (q : Outbox) : (q.rows.map (·.id)).Nodup := q.ordered.imp fun h => ne_of_lt h

theorem row?_eq_some {id : Int} {r : OutboxRow} : q.row? id = some r ↔ r ∈ q.rows ∧ r.id = id :=
  Rows.find?_key_eq_some_iff q.nodup_ids

/-- A row with an id keeps what an update of it keeps. -/
theorem exists_modify {P : OutboxRow → Prop} {id id' : Int} {f : OutboxRow → OutboxRow} (hf : ∀ r, (f r).id = r.id)
    (h : ∃ r ∈ q.rows, r.id = id ∧ P r) (hP : ∀ r, P r → P (f r)) :
    ∃ r ∈ (q.modify id' f hf).rows, r.id = id ∧ P r := by
  obtain ⟨r, hr, hid, hp⟩ := h
  by_cases hne : r.id = id'
  · exact ⟨f r, Rows.mem_update.mpr (.inl ⟨r, hr, hne, rfl⟩), (hf r).trans hid, hP r hp⟩
  · exact ⟨r, Rows.mem_update.mpr (.inr ⟨hr, hne⟩), hid, hp⟩

theorem exists_enqueue {P : OutboxRow → Prop} {id : Int} (row : OutboxRow) (h : ∃ r ∈ q.rows, r.id = id ∧ P r) :
    ∃ r ∈ (q.enqueue row).rows, r.id = id ∧ P r := by
  obtain ⟨r, hr, hp⟩ := h
  rw [enqueue]
  split
  · exact ⟨r, List.mem_append_left _ hr, hp⟩
  · exact ⟨r, hr, hp⟩

end Outbox

/-- The row a worker has in hand. -/
def WorkerPhase.row? : WorkerPhase → Option OutboxRow
  | .idle => none
  | .selected row => some row
  | .delivering row _ _ _ => some row

/-- What the sinks have said to a worker so far. -/
def WorkerPhase.Told (claims : List OutboxClaim) (accepted : List (OutboxClaim × String)) (worker : Nat) :
    WorkerPhase → Prop
  | .delivering row attempt left allDelivered =>
      ⟨worker, row.id, attempt⟩ ∈ claims ∧
        (allDelivered = true → ∀ sink ∈ row.sinks, sink ∈ left ∨ (⟨worker, row.id, attempt⟩, sink) ∈ accepted)
  | _ => True

structure Delivery.Sound (before : Outbox) (s : Delivery) : Prop where
  /-- The sinks of an event do not change. -/
  inHand : ∀ worker row, (s.phase worker).row? = some row →
    ∃ r ∈ s.outbox.rows, r.id = row.id ∧ r.requiredSinks = row.requiredSinks
  told : ∀ worker, (s.phase worker).Told s.claims s.accepted worker
  delivered : DeliveredAccepted before s

section Sound

variable {before : Outbox} {s : Delivery} {worker : Nat} {p : WorkerPhase}

theorem WorkerPhase.Told.mono {claims claims' : List OutboxClaim} {accepted accepted' : List (OutboxClaim × String)}
    (h : p.Told claims accepted worker) (hclaims : claims ⊆ claims') (haccepted : accepted ⊆ accepted') :
    p.Told claims' accepted' worker := by
  cases p with
  | idle => trivial
  | selected row => trivial
  | delivering row attempt left allDelivered =>
      refine ⟨hclaims h.1, fun hall sink hsink => ?_⟩
      exact (h.2 hall sink hsink).imp id fun hmem => haccepted hmem

theorem DeliveredAccepted.mono {t : Delivery} (h : DeliveredAccepted before s) (hrows : t.outbox = s.outbox)
    (hclaims : s.claims ⊆ t.claims) (haccepted : s.accepted ⊆ t.accepted) : DeliveredAccepted before t := by
  intro r hr hstatus
  rw [hrows] at hr
  rcases h r hr hstatus with hbefore | ⟨c, hc, hid, hall⟩
  · exact .inl hbefore
  · exact .inr ⟨c, hclaims hc, hid, fun sink hsink => haccepted (hall sink hsink)⟩

/-- One worker moves on; claims and acceptances only grow. -/
theorem Delivery.Sound.move (h : s.Sound before) {claims : List OutboxClaim}
    {accepted : List (OutboxClaim × String)} (hclaims : s.claims ⊆ claims) (haccepted : s.accepted ⊆ accepted)
    (hrow : ∀ row, p.row? = some row → ∃ r ∈ s.outbox.rows, r.id = row.id ∧ r.requiredSinks = row.requiredSinks)
    (htold : p.Told claims accepted worker) :
    Delivery.Sound before ⟨s.now, s.outbox, Function.update s.phase worker p, claims, accepted⟩ where
  inHand other row hother := by
    dsimp only at hother
    by_cases heq : other = worker
    · rw [heq, Function.update_self] at hother
      exact hrow row hother
    · rw [Function.update_of_ne heq] at hother
      exact h.inHand other row hother
  told other := by
    dsimp only
    by_cases heq : other = worker
    · rw [heq, Function.update_self]
      exact htold
    · rw [Function.update_of_ne heq]
      exact (h.told other).mono hclaims haccepted
  delivered := h.delivered.mono rfl hclaims haccepted

theorem Delivery.Sound.idle (h : s.Sound before) : (s.setPhase worker .idle).Sound before :=
  h.move (fun _ hc => hc) (fun _ ha => ha) (fun _ hne => (nomatch hne)) trivial

/-- An update of the table under the workers. -/
theorem Delivery.Sound.modify (h : s.Sound before) (id : Int) (f : OutboxRow → OutboxRow)
    (hf : ∀ r, (f r).id = r.id) (hsinks : ∀ r, (f r).requiredSinks = r.requiredSinks)
    (hdelivered : ∀ r ∈ s.outbox.rows, r.id = id → (f r).status = .delivered →
      f r = r ∨ ∃ c ∈ s.claims, c.id = r.id ∧ ∀ sink ∈ r.sinks, (c, sink) ∈ s.accepted) :
    Delivery.Sound before { s with outbox := s.outbox.modify id f hf } where
  inHand worker row hrow :=
    Outbox.exists_modify hf (h.inHand worker row hrow) fun r hr => (hsinks r).trans hr
  told := h.told
  delivered := by
    intro r hr hstatus
    rcases Rows.mem_update.mp hr with ⟨r₀, hr₀, hid, rfl⟩ | ⟨hr, -⟩
    · rcases hdelivered r₀ hr₀ hid hstatus with hsame | ⟨c, hc, hcid, hall⟩
      · rw [hsame] at hstatus ⊢
        exact h.delivered r₀ hr₀ hstatus
      · refine .inr ⟨c, hc, hcid.trans (hf r₀).symm, ?_⟩
        rw [OutboxRow.sinks, hsinks r₀]
        exact hall
    · exact h.delivered r hr hstatus

end Sound

theorem OutboxRow.claim_requiredSinks (r : OutboxRow) : r.claim.requiredSinks = r.requiredSinks := by
  rw [claim]
  split
  · rfl
  · rfl

theorem OutboxRow.finalize_requiredSinks (r : OutboxRow) (now attempt : Nat) (success : Bool) :
    (r.finalize now attempt success).requiredSinks = r.requiredSinks := by
  rw [finalize]
  split
  · rfl
  · rfl

/-- A claim leaves delivered rows alone. -/
theorem OutboxRow.claim_eq_of_delivered {r : OutboxRow} (h : r.claim.status = .delivered) : r.claim = r := by
  rw [claim] at h ⊢
  split at h
  · cases h
  case isFalse hopen => rw [if_neg hopen]

theorem deliveryStep_sound {before : Outbox} (s : Delivery) (act : DeliveryAct) (h : s.Sound before) :
    (s.step act).Sound before := by
  cases act with
  | tick elapsed => exact ⟨h.inHand, h.told, h.delivered⟩
  | enqueue id payload requiredSinks =>
      refine ⟨fun worker row hrow => Outbox.exists_enqueue _ (h.inHand worker row hrow), h.told, ?_⟩
      intro r hr hstatus
      simp only [Delivery.step, Outbox.enqueue] at hr
      split at hr
      · rcases List.mem_append.mp hr with hr | hr
        · exact h.delivered r hr hstatus
        · rw [List.mem_singleton.mp hr] at hstatus
          cases hstatus
      · exact h.delivered r hr hstatus
  | select worker =>
      simp only [Delivery.step]
      split
      · split
        case h_1 row hselect =>
          split
          · refine h.move (fun _ hc => hc) (fun _ ha => ha) ?_ trivial
            intro row' heq
            obtain rfl := Option.some.inj heq
            exact ⟨row, List.mem_of_find?_eq_some hselect, rfl, rfl⟩
          · exact h
        case h_2 => exact h
      · exact h
  | claim worker =>
      simp only [Delivery.step]
      split
      case h_1 row hphase =>
        split
        case isTrue =>
          have hinHand := h.inHand worker row (by rw [hphase]; rfl)
          have hclaimed := h.modify row.id (·.claim) OutboxRow.claim_id OutboxRow.claim_requiredSinks
            fun r _ _ hstatus => .inl (OutboxRow.claim_eq_of_delivered hstatus)
          refine hclaimed.move (List.subset_append_left _ _) (fun _ ha => ha) ?_ ?_
          · intro row' heq
            obtain rfl := Option.some.inj heq
            exact Outbox.exists_modify OutboxRow.claim_id hinHand fun r hr =>
              (OutboxRow.claim_requiredSinks r).trans hr
          · refine ⟨List.mem_append_right _ (List.mem_singleton.mpr rfl), fun _ sink hsink => .inl hsink⟩
        case isFalse => exact h.idle
      case h_2 => exact h
  | deliver worker accepts =>
      simp only [Delivery.step]
      split
      case h_1 row attempt sink left allDelivered hphase =>
        have hinHand : ∀ row', some row = some row' →
            ∃ r ∈ s.outbox.rows, r.id = row'.id ∧ r.requiredSinks = row'.requiredSinks :=
          fun row' heq => h.inHand worker row' (by rw [hphase]; exact heq)
        have htold := h.told worker
        rw [hphase] at htold
        split
        · refine h.move (fun _ hc => hc) (List.subset_append_left _ _) hinHand ⟨htold.1,
            fun hall other hother => ?_⟩
          rcases htold.2 hall other hother with hleft | hacc
          · rcases List.mem_cons.mp hleft with rfl | hleft
            · exact .inr (List.mem_append_right _ (List.mem_singleton.mpr rfl))
            · exact .inl hleft
          · exact .inr (List.mem_append_left _ hacc)
        · exact h.move (fun _ hc => hc) (fun _ ha => ha) hinHand ⟨htold.1, fun hne => (nomatch hne)⟩
      case h_2 => exact h
  | finalize worker =>
      simp only [Delivery.step]
      split
      case h_1 row attempt allDelivered hphase =>
        have htold := h.told worker
        rw [hphase] at htold
        obtain ⟨current, hcurrent, hid, hsinks⟩ := h.inHand worker row (by rw [hphase]; rfl)
        have hfinal := h.modify row.id (·.finalize s.now attempt allDelivered)
          (·.finalize_id s.now attempt allDelivered) (·.finalize_requiredSinks s.now attempt allDelivered) ?_
        · exact hfinal.idle
        · intro r hr hrid hstatus
          rw [OutboxRow.finalize] at hstatus
          split at hstatus
          case isTrue hall =>
            obtain rfl := Rows.eq_of_key_eq s.outbox.nodup_ids hr hcurrent (hrid.trans hid.symm)
            refine .inr ⟨⟨worker, row.id, attempt⟩, htold.1, hid.symm, ?_⟩
            intro sink hsink
            rw [OutboxRow.sinks, hsinks] at hsink
            exact (htold.2 hall sink hsink).resolve_left List.not_mem_nil
          case isFalse => cases hstatus
      case h_2 => exact h
  | abort worker => exact h.idle

/-! ### Attempts -/

/-- The attempts of an event that were claimed are counted in its row. -/
def Counted (s : Delivery) : Prop := ∀ c ∈ s.claims, ∃ r ∈ s.outbox.rows, r.id = c.id ∧ c.attempt ≤ r.attemptCount

theorem Counted.modify {s : Delivery} (h : Counted s) (id : Int) (f : OutboxRow → OutboxRow)
    (hf : ∀ r, (f r).id = r.id) (hcount : ∀ r, r.attemptCount ≤ (f r).attemptCount) :
    Counted { s with outbox := s.outbox.modify id f hf } := by
  intro c hc
  exact Outbox.exists_modify hf (h c hc) fun r hr => Nat.le_trans hr (hcount r)

theorem OutboxRow.attemptCount_le_claim (r : OutboxRow) : r.attemptCount ≤ r.claim.attemptCount := by
  rw [claim]
  split
  · exact Nat.le_succ _
  · exact Nat.le_refl _

theorem OutboxRow.finalize_attemptCount (r : OutboxRow) (now attempt : Nat) (success : Bool) :
    (r.finalize now attempt success).attemptCount = r.attemptCount := by
  rw [finalize]
  split
  · rfl
  · rfl

theorem deliveryStep_counted (s : Delivery) (act : DeliveryAct) (h : Counted s ∧ Exclusive s)
    (hcond : ClaimsAsSelected s act) :
    Counted (s.step act) ∧ Exclusive (s.step act) := by
  obtain ⟨hcounted, hexclusive⟩ := h
  cases act with
  | tick elapsed => exact ⟨hcounted, hexclusive⟩
  | enqueue id payload requiredSinks => exact ⟨fun c hc => Outbox.exists_enqueue _ (hcounted c hc), hexclusive⟩
  | select worker =>
      simp only [Delivery.step]
      split
      · split
        · split
          · exact ⟨hcounted, hexclusive⟩
          · exact ⟨hcounted, hexclusive⟩
        · exact ⟨hcounted, hexclusive⟩
      · exact ⟨hcounted, hexclusive⟩
  | claim worker =>
      simp only [Delivery.step]
      split
      case h_1 row hphase =>
        split
        case isTrue hopen =>
          obtain ⟨current, hcurrent, hcurrentOpen⟩ : ∃ current, s.outbox.row? row.id = some current ∧
              current.open? = true := by
            cases hrow : s.outbox.row? row.id with
            | none => simp [hrow] at hopen
            | some current => exact ⟨current, rfl, by simpa [hrow] using hopen⟩
          have hsame := hcond worker row current rfl hphase hcurrent hcurrentOpen
          obtain ⟨hmem, hid⟩ := Outbox.row?_eq_some.mp hcurrent
          have hclaim : current.claim.attemptCount = current.attemptCount + 1 := by
            rw [OutboxRow.claim, if_pos hcurrentOpen]
          refine ⟨?_, ?_⟩
          · intro c hc
            rcases List.mem_append.mp hc with hc | hc
            · exact Outbox.exists_modify OutboxRow.claim_id (hcounted c hc) fun r hr =>
                Nat.le_trans hr r.attemptCount_le_claim
            · rw [List.mem_singleton.mp hc]
              refine ⟨current.claim, Rows.mem_update.mpr (.inl ⟨current, hmem, hid, rfl⟩),
                current.claim_id.trans hid, ?_⟩
              rw [hclaim, hsame]
          · apply Rows.nodup_map_append_singleton hexclusive
            intro hused
            obtain ⟨c, hc, heq⟩ := List.mem_map.mp hused
            obtain ⟨hcid, hattempt⟩ : c.id = row.id ∧ c.attempt = row.attemptCount + 1 := Prod.mk.inj heq
            obtain ⟨r, hr, hrid, hle⟩ := hcounted c hc
            obtain rfl := Rows.eq_of_key_eq s.outbox.nodup_ids hr hmem (hrid.trans (hcid.trans hid.symm))
            omega
        case isFalse => exact ⟨hcounted, hexclusive⟩
      case h_2 => exact ⟨hcounted, hexclusive⟩
  | deliver worker accepts =>
      simp only [Delivery.step]
      split
      · split
        · exact ⟨hcounted, hexclusive⟩
        · exact ⟨hcounted, hexclusive⟩
      · exact ⟨hcounted, hexclusive⟩
  | finalize worker =>
      simp only [Delivery.step]
      split
      case h_1 row attempt allDelivered hphase =>
        exact ⟨hcounted.modify row.id _ _ fun r =>
          (r.finalize_attemptCount s.now attempt allDelivered).ge, hexclusive⟩
      case h_2 => exact ⟨hcounted, hexclusive⟩
  | abort worker => exact ⟨hcounted, hexclusive⟩

/-! ### One pass -/

/-- When the turns of a pass select their events and when they mark them. -/
structure PassClock where
  claimAt : Nat → Nat
  finishAt : Nat → Nat
  forward : ∀ i, claimAt i ≤ finishAt i ∧ finishAt i ≤ claimAt (i + 1)

/-- `deliverExternalIntegrationOutbox` for a worker that is alone: the ids of the events it attempts, `left`
being what is left of the limit and `turn` the turns before. -/
def passAttempts (clock : PassClock) (accepts : Nat → String → Bool) : (left turn : Nat) → Outbox → List Int
  | 0, _, _ => []
  | left + 1, turn, q =>
      match q.selectDue (clock.claimAt turn) with
      | none => []
      | some row =>
          if row.wellFormed then
            let allDelivered := row.sinks.all fun sink => externalSinks.contains sink && accepts turn sink
            row.id :: passAttempts clock accepts left (turn + 1)
              ((q.claim row.id).finalize (clock.finishAt turn) row.id (row.attemptCount + 1) allDelivered)
          else []

/-- Nothing becomes due while the pass is going on. -/
structure Brisk (clock : PassClock) (limit : Nat) (q : Outbox) : Prop where
  waiting : ∀ turn < limit, ∀ r ∈ q.rows, r.due (clock.claimAt turn) → r.due (clock.claimAt 0)
  backoff : ∀ turn < limit, ∀ earlier < turn, clock.claimAt turn < clock.finishAt earlier + 1000000

/-- Every well-formed event that is due when the pass begins is attempted. -/
def AttemptsAll (clock : PassClock) (accepts : Nat → String → Bool) (limit : Nat) (q : Outbox) : Prop :=
  ∀ r ∈ q.rows, r.due (clock.claimAt 0) → r.wellFormed → r.id ∈ passAttempts clock accepts limit 0 q

/-- No malformed event that is due stands before a well-formed one. -/
def MalformedLast (now : Nat) (q : Outbox) : Prop :=
  ∀ m ∈ q.rows, ∀ r ∈ q.rows, m.due now → r.due now → m.wellFormed = false → r.wellFormed → r.id < m.id

section Pass

variable {clock : PassClock} {accepts : Nat → String → Bool} {q : Outbox}

theorem second_le_backoff (attempt : Nat) : 1000000 ≤ backoffForAttempt attempt :=
  Nat.le_mul_of_pos_left _ (Nat.two_pow_pos _)

/-- A row that was attempted is not due within a second. -/
theorem OutboxRow.not_due_finalize (r : OutboxRow) {now later : Nat} (attempt : Nat) (success : Bool)
    (h : later < now + 1000000) :
    (r.finalize now attempt success).due later = false := by
  have hbackoff := second_le_backoff attempt
  rw [finalize]
  split
  · simp [due, open?]
  · have hnot : ¬now + backoffForAttempt attempt ≤ later := by omega
    simp [due, hnot]

/-- One turn changes the row it attempts and no other. -/
theorem Outbox.turn_rows (q : Outbox) (row : OutboxRow) (now attempt : Nat) (success : Bool) :
    ((q.claim row.id).finalize now row.id attempt success).rows =
      q.rows.map fun r => if r.id = row.id then r.claim.finalize now attempt success else r := by
  simp only [Outbox.finalize, Outbox.claim, Outbox.modify, Rows.update, List.map_map]
  apply List.map_congr_left
  intro r _
  rw [Function.comp_apply]
  by_cases hid : r.id = row.id
  · rw [if_pos hid, if_pos (r.claim_id.trans hid), if_pos hid]
  · rw [if_neg hid, if_neg hid, if_neg hid]

/-- After a turn the events that are due are those behind the one it took. -/
theorem Outbox.filter_due_turn {row : OutboxRow} {rest : List OutboxRow}
    {now next finish attempt : Nat} {success : Bool} (hdue : q.rows.filter (·.due now) = row :: rest)
    (hsame : ∀ r ∈ q.rows, r.due next = r.due now) (hnext : next < finish + 1000000) :
    ((q.claim row.id).finalize finish row.id attempt success).rows.filter (·.due next) = rest := by
  have hnodup : ((row :: rest).map (·.id)).Nodup := hdue ▸ (List.filter_sublist.map _).nodup q.nodup_ids
  rw [List.map_cons, List.nodup_cons] at hnodup
  have hrest : ∀ r ∈ rest, r.id ≠ row.id := fun r hr heq => hnodup.1 (heq ▸ List.mem_map_of_mem hr)
  rw [Outbox.turn_rows, List.filter_map]
  have hfilter : q.rows.filter ((fun r => r.due next) ∘ fun r => if r.id =
    row.id then r.claim.finalize finish attempt success else r) =
      (q.rows.filter (·.due now)).filter fun r => decide (r.id ≠ row.id) := by
    rw [List.filter_filter]
    apply List.filter_congr
    intro r hr
    rw [Function.comp_apply]
    by_cases hid : r.id = row.id
    · simp [hid, OutboxRow.not_due_finalize _ attempt success hnext]
    · simp [hid, hsame r hr]
  rw [hfilter, hdue, List.filter_cons_of_neg (by simp), List.filter_eq_self.mpr fun r hr =>
    by simpa using hrest r hr]
  rw [List.map_congr_left fun r hr => if_neg (hrest r hr), List.map_id']

/-- A pass attempts the due events in their order, up to the first malformed one. -/
theorem passAttempts_eq {left turn : Nat} (hlength : (q.rows.filter (·.due (clock.claimAt turn))).length ≤ left)
    (hwaiting : ∀ later, turn ≤ later → later < turn + left → ∀ r ∈ q.rows, r.due (clock.claimAt later) =
      r.due (clock.claimAt turn))
    (hbackoff : ∀ later < turn + left, ∀ earlier < later, clock.claimAt later < clock.finishAt earlier + 1000000) :
    passAttempts clock accepts left turn q = ((q.rows.filter (·.due (clock.claimAt turn))).takeWhile
      (·.wellFormed)).map (·.id) := by
  induction left generalizing turn q with
  | zero =>
      rw [List.eq_nil_of_length_eq_zero (Nat.le_zero.mp hlength)]
      rfl
  | succ left ih =>
      have hselect : q.selectDue (clock.claimAt turn) = (q.rows.filter (·.due (clock.claimAt turn))).head? :=
        List.head?_filter.symm
      rw [passAttempts]
      cases hdue : q.rows.filter (·.due (clock.claimAt turn)) with
      | nil => simp [hselect, hdue]
      | cons row rest =>
          rw [hdue, List.length_cons] at hlength
          simp only [hselect, hdue, List.head?_cons, List.takeWhile_cons]
          split
          case isFalse => rfl
          case isTrue =>
            rw [List.map_cons]
            congr 1
            -- the last turn of the limit needs nothing of the clock after it
            rcases Nat.eq_zero_or_pos left with rfl | hpos
            · rw [List.eq_nil_of_length_eq_zero (by omega : rest.length = 0)]
              rfl
            have hsame : ∀ r ∈ q.rows, r.due (clock.claimAt (turn + 1)) = r.due (clock.claimAt turn) :=
              hwaiting (turn + 1) (by omega) (by omega)
            have hnext : clock.claimAt (turn + 1) < clock.finishAt turn + 1000000 :=
              hbackoff (turn + 1) (by omega) turn (by omega)
            have hrest := @Outbox.filter_due_turn q row rest _ _ _ (row.attemptCount + 1)
              (row.sinks.all fun sink => externalSinks.contains sink && accepts turn sink) hdue hsame hnext
            rw [ih, hrest]
            · rw [hrest]
              omega
            · intro later hle hlt r hr
              rw [Outbox.turn_rows] at hr
              obtain ⟨r₀, hr₀, rfl⟩ := List.mem_map.mp hr
              split
              · rw [OutboxRow.not_due_finalize _ _ _ (hbackoff later (by omega) turn (by omega)),
                  OutboxRow.not_due_finalize _ _ _ hnext]
              · rw [hwaiting later (by omega) (by omega) r₀ hr₀, hsame r₀ hr₀]
            · intro later hlt earlier
              exact hbackoff later (by omega) earlier

theorem OutboxRow.due_mono {r : OutboxRow} {now later : Nat} (h : r.due now = true) (hle : now ≤ later) :
    r.due later = true := by
  simp only [due, Bool.and_eq_true, decide_eq_true_iff] at h ⊢
  exact ⟨h.1, Nat.le_trans h.2 hle⟩

theorem PassClock.claimAt_le (clock : PassClock) (turn : Nat) : clock.claimAt 0 ≤ clock.claimAt turn := by
  induction turn with
  | zero => exact Nat.le_refl _
  | succ turn ih => exact Nat.le_trans ih (Nat.le_trans (clock.forward turn).1 (clock.forward turn).2)

theorem attemptsAll_iff_malformedLast {limit : Nat}
    (hlimit : (q.rows.filter (·.due (clock.claimAt 0))).length ≤ limit) (hbrisk : Brisk clock limit q) :
    AttemptsAll clock accepts limit q ↔ MalformedLast (clock.claimAt 0) q := by
  have hattempts : passAttempts clock accepts limit 0 q =
      ((q.rows.filter (·.due (clock.claimAt 0))).takeWhile (·.wellFormed)).map (·.id) := by
    apply passAttempts_eq hlimit
    · intro later _ hlater r hr
      rw [Bool.eq_iff_iff]
      exact ⟨hbrisk.waiting later (by omega) r hr, fun hdue => OutboxRow.due_mono hdue (clock.claimAt_le later)⟩
    · intro later hlater
      exact hbrisk.backoff later (by omega)
  have hordered : ((q.rows.filter (·.due (clock.claimAt 0))).map (·.id)).Pairwise (· < ·) :=
    q.ordered.sublist (List.filter_sublist.map _)
  have hiff := @Rows.forall_mem_takeWhile_iff OutboxRow (·.id) (·.wellFormed) _ hordered
  simp only [List.mem_filter] at hiff
  rw [AttemptsAll, hattempts, MalformedLast]
  constructor
  · intro h m hm r hr hmdue hrdue hmalformed hwell
    refine hiff.mp ?_ m ⟨hm, hmdue⟩ r ⟨hr, hrdue⟩ hmalformed hwell
    intro r' hr' hwell'
    obtain ⟨r'', hmem, hid⟩ := List.mem_map.mp (h r' hr'.1 hr'.2 hwell')
    have hrow := (List.mem_filter.mp ((List.takeWhile_sublist _).subset hmem)).1
    exact Rows.eq_of_key_eq q.nodup_ids hrow hr'.1 hid ▸ hmem
  · intro h r hr hdue hwell
    apply List.mem_map_of_mem
    refine hiff.mpr ?_ r ⟨hr, hdue⟩ hwell
    intro m hm r' hr' hmalformed hwell'
    exact h m hm.1 r' hr'.1 hm.2 hr'.2 hmalformed hwell'

end Pass

theorem delivery_start_sound (now : Nat) (outbox : Outbox) : (Delivery.start now outbox).Sound outbox :=
  ⟨fun _ _ hne => (nomatch hne), fun _ => trivial, fun _ hr _ => .inl hr⟩

section Queues

def kafkaEvent (id : Int) (payload : Bool) : OutboxRow := ⟨id, payload, some ["kafka"], 0, .pending, 0⟩

def oneEvent : Outbox := ⟨[kafkaEvent 1 true], by decide⟩

def malformedFirst : Outbox := ⟨[kafkaEvent 1 false, kafkaEvent 2 true], by decide⟩

def twoEvents : Outbox := ⟨[kafkaEvent 1 true, kafkaEvent 2 true], by decide⟩

/-- Turns that take no time. -/
def quickClock : PassClock := ⟨fun _ => 0, fun _ => 0, fun _ => ⟨le_rfl, le_rfl⟩⟩

/-- Turns that take a second each, three seconds apart. -/
def slowClock : PassClock :=
  ⟨fun turn => turn * 4000000, fun turn => turn * 4000000 + 1000000, fun turn => ⟨by omega, by omega⟩⟩

/-- A worker takes an event to its end. -/
def wholeDelivery (worker : Nat) (accepts : Bool) : List DeliveryAct :=
  [.select worker, .claim worker, .deliver worker accepts, .finalize worker]

theorem quickClock_brisk : Brisk quickClock 1 oneEvent := by
  refine ⟨fun turn _ r _ hdue => hdue, ?_⟩
  intro turn _ earlier _
  show 0 < 0 + 1000000
  decide

/-- Both workers select the event; the second claims it when the first has failed with it. -/
def claimsLate : List DeliveryAct := [.select 0, .select 1, .claim 0, .deliver 0 false, .finalize 0, .claim 1]

end Queues

end Inec
