import Inec.Settlement.Binding

/-!
# Voiding a settlement

A void takes the reservation in the ledger back and closes the settlement. A commitment makes the
reservation and a dispatch pays out on it. Each of them reads the status, makes its call outside, and
writes the status at the end, and the last UPDATE is not told when it matches no row. So a void that
overlaps one of the other two, or any of the three that stops between its call and its UPDATE, can
leave a payout on a reservation that is gone, or a reservation nobody will take back.

The machine is safe as long as neither happens.
-/

namespace Inec

variable {lib : SettlementLib}

/-- No payout on a voided reservation, and no reservation left behind by a void. -/
structure NoPayoutOnVoided (lib : SettlementLib) (w : World) : Prop where
  payout : ∀ r, w.row = some r → w.mojaloop ≠ [] → ¬ w.ledger.Voided (ledgerTransferId lib r)
  closed : ∀ r, w.row = some r → r.status = .voided → ¬ w.ledger.LivePending (ledgerTransferId lib r)

/-! ### Requests in flight -/

inductive Flight
  | commit | dispatch | void
  deriving DecidableEq, Repr

/-- The request that is past its read and before its end. Approvals and reconciliations do not matter
here. -/
def Stage.flight? : Stage → Option Flight
  | .lookingUp _ _ _ => some .commit
  | .creatingAccount _ _ _ => some .commit
  | .recheckingAccount _ _ _ _ => some .commit
  | .creatingTransfer _ _ => some .commit
  | .recordingCommitment _ _ => some .commit
  | .lookingUpParty _ _ => some .dispatch
  | .quoting _ _ _ => some .dispatch
  | .transferring _ _ _ _ => some .dispatch
  | .recordingDispatch _ _ _ => some .dispatch
  | .markingUnavailable _ _ _ => some .dispatch
  | .voiding _ _ => some .void
  | .recordingVoid _ => some .void
  | _ => none

/-- The reservation is in the ledger and not yet in the row. -/
def Stage.owesCommitment : Stage → Bool
  | .recordingCommitment _ _ => true
  | _ => false

/-- The payout is under way and not yet in the row. -/
def Stage.owesDispatch : Stage → Bool
  | .recordingDispatch _ _ _ => true
  | _ => false

/-- The reservation is taken back and the row does not say so yet. -/
def Stage.owesVoid : Stage → Bool
  | .recordingVoid record => record.tigerBeetleTransferId.getD "" != ""
  | _ => false

/-- A call went through and its UPDATE is still to come. -/
def Stage.owesUpdate (stage : Stage) : Bool := stage.owesCommitment || stage.owesDispatch || stage.owesVoid

/-- The step does not part a call that took effect from its UPDATE. -/
def Stage.SeesThrough (lib : SettlementLib) (l : Ledger) (reply : Reply) (answer : MojaAnswer)
    (stage : Stage) : Prop :=
  match stage with
  | .creatingTransfer record cfg =>
      (createPendingTransfer l (pendingTransfer lib record cfg)).1 = .ok () → reply ≠ .lost
  | .voiding _ transferId => (TBClient.voidTransfer l transferId).1 = .ok () → reply ≠ .lost
  | .transferring _ _ _ _ => reply ≠ .unreachable → reply = .answered ∧ trimSpace answer.transferId ≠ ""
  | stage => stage.owesUpdate = true → reply ≠ .unreachable

/-- A void begins and is in flight alone, and every request sees its calls through. -/
def RunsApart (lib : SettlementLib) (s : SettlementState) : SettlementInput → Prop
  | .create _ _ _ _ => True
  | .begin _ _ _ .void => ∀ pid, (s.procs pid).flight? ≠ some .commit ∧ (s.procs pid).flight? ≠ some .dispatch
  | .begin _ _ _ .commit => ∀ pid, (s.procs pid).flight? ≠ some .void
  | .begin _ _ _ (.dispatch _) => ∀ pid, (s.procs pid).flight? ≠ some .void
  | .begin _ _ _ _ => True
  | .advance pid _ reply answer => (s.procs pid).SeesThrough lib s.world.ledger reply answer
  | .stop pid => (s.procs pid).owesUpdate = false

/-! ### The invariant -/

/-- The statuses a request in flight leaves the row in. -/
def Flight.allows : Flight → SettlementStatus → Bool
  | .commit, s => s == .approved || s == .failed || s.committed
  | .dispatch, s => s.committed
  | .void, s => s != .mojaloopPending && s != .settled

/-- While calls are seen through and voids run apart, whatever happened outside is written in the row or
will be by a request in flight. -/
structure VoidSafe (lib : SettlementLib) (s : SettlementState) : Prop where
  apart : ∀ p q, (s.procs p).flight? = some .void →
    (s.procs q).flight? ≠ some .commit ∧ (s.procs q).flight? ≠ some .dispatch
  allowed : ∀ p f r, (s.procs p).flight? = some f → s.world.row = some r → f.allows r.status = true
  backed : ∀ p record id, s.procs p = .voiding record id → record.tigerBeetleTransferId.getD "" ≠ ""
  recorded : ∀ r, s.world.row = some r → r.status.committed = true →
    r.tigerBeetleTransferId = some (ledgerTransferId lib r)
  stored : ∀ r, s.world.row = some r → s.world.ledger.HasPending (ledgerTransferId lib r) →
    r.tigerBeetleTransferId = some (ledgerTransferId lib r) ∨ ∃ p, (s.procs p).owesCommitment = true
  sent : ∀ r, s.world.row = some r → s.world.mojaloop ≠ [] →
    (r.status = .mojaloopPending ∨ r.status = .settled) ∨ ∃ p, (s.procs p).owesDispatch = true
  released : ∀ r, s.world.row = some r → s.world.ledger.Voided (ledgerTransferId lib r) →
    r.status = .voided ∨ ∃ p, (s.procs p).owesVoid = true
  closed : ∀ r, s.world.row = some r → r.status = .voided → ¬ s.world.ledger.LivePending (ledgerTransferId lib r)
  closing : ∀ p record r, s.procs p = .recordingVoid record → s.world.row = some r →
    ¬ s.world.ledger.LivePending (ledgerTransferId lib r)

theorem flight_of_owesCommitment {stage : Stage} (h : stage.owesCommitment = true) :
    stage.flight? = some .commit := by
  cases stage <;> first | rfl | cases h

theorem flight_of_owesDispatch {stage : Stage} (h : stage.owesDispatch = true) :
    stage.flight? = some .dispatch := by
  cases stage <;> first | rfl | cases h

theorem flight_of_owesVoid {stage : Stage} (h : stage.owesVoid = true) : stage.flight? = some .void := by
  cases stage <;> first | rfl | cases h

theorem VoidSafe.noPayoutOnVoided {s : SettlementState} (h : VoidSafe lib s) : NoPayoutOnVoided lib s.world := by
  refine ⟨?_, h.closed⟩
  intro r hrow hsent hvoided
  rcases h.sent r hrow hsent with hstatus | ⟨p, hp⟩
  · rcases h.released r hrow hvoided with hclosed | ⟨p, hp⟩
    · rw [hclosed] at hstatus
      simp at hstatus
    · have hallowed := h.allowed p .void r (flight_of_owesVoid hp) hrow
      rcases hstatus with hstatus | hstatus <;> rw [hstatus] at hallowed <;> cases hallowed
  · rcases h.released r hrow hvoided with hclosed | ⟨p', hp'⟩
    · have hallowed := h.allowed p .dispatch r (flight_of_owesDispatch hp) hrow
      rw [hclosed] at hallowed
      cases hallowed
    · exact (h.apart p' p (flight_of_owesVoid hp')).2 (flight_of_owesDispatch hp)

/-! ### Steps inside a request -/

section Advance

variable {s : SettlementState} {pid : Nat} {next : Stage}

/-- A request that still owes something is another one than the one that moves. -/
theorem exists_other {owes : Stage → Bool} (hpid : owes (s.procs pid) = false) (h : ∃ p, owes (s.procs p) = true) :
    ∃ p, p ≠ pid ∧ owes (s.procs p) = true := by
  obtain ⟨p, hp⟩ := h
  refine ⟨p, ?_, hp⟩
  rintro rfl
  rw [hpid] at hp
  cases hp

theorem exists_update {owes : Stage → Bool} (h : ∃ p, p ≠ pid ∧ owes (s.procs p) = true) :
    ∃ p, owes (Function.update s.procs pid next p) = true := by
  obtain ⟨p, hne, hp⟩ := h
  refine ⟨p, ?_⟩
  rw [Function.update_of_ne hne]
  exact hp

/-- A request in flight after the move was so before. -/
theorem flight_of_update (hflight : next.flight? = none ∨ next.flight? = (s.procs pid).flight?)
    {p : Nat} {f : Flight} (h : (Function.update s.procs pid next p).flight? = some f) :
    (s.procs p).flight? = some f := by
  by_cases heq : p = pid
  · subst heq
    rw [Function.update_self] at h
    rcases hflight with hnone | hsame
    · rw [hnone] at h
      cases h
    · exact hsame ▸ h
  · rwa [Function.update_of_ne heq] at h

theorem VoidSafe.apart_update (h : VoidSafe lib s)
    (hflight : next.flight? = none ∨ next.flight? = (s.procs pid).flight?) (p q : Nat)
    (hp : (Function.update s.procs pid next p).flight? = some .void) :
    (Function.update s.procs pid next q).flight? ≠ some .commit ∧
      (Function.update s.procs pid next q).flight? ≠ some .dispatch := by
  have happart := h.apart p q (flight_of_update hflight hp)
  exact ⟨fun hq => happart.1 (flight_of_update hflight hq), fun hq => happart.2 (flight_of_update hflight hq)⟩

theorem VoidSafe.backed_update (h : VoidSafe lib s) (hvoiding : ∀ record id, next ≠ .voiding record id) (p : Nat)
    (record : SettlementRow) (id : String) (hp : Function.update s.procs pid next p = .voiding record id) :
    record.tigerBeetleTransferId.getD "" ≠ "" := by
  by_cases heq : p = pid
  · rw [heq, Function.update_self] at hp
    exact absurd hp (hvoiding record id)
  · rw [Function.update_of_ne heq] at hp
    exact h.backed p record id hp

/-- The move changes nothing anyone here looks at, and the request owed nothing. -/
theorem VoidSafe.quiet (h : VoidSafe lib s) {w' : World} (hrow : w'.row = s.world.row)
    (htransfers : w'.ledger.transfers = s.world.ledger.transfers) (hmojaloop : w'.mojaloop = s.world.mojaloop)
    (hflight : next.flight? = none ∨ next.flight? = (s.procs pid).flight?)
    (howes : (s.procs pid).owesUpdate = false) (hnext : ∀ record, next ≠ .recordingVoid record)
    (hvoiding : ∀ record id, next ≠ .voiding record id) :
    VoidSafe lib ⟨w', Function.update s.procs pid next⟩ := by
  simp only [Stage.owesUpdate, Bool.or_eq_false_iff] at howes
  obtain ⟨⟨hcommitment, hdispatch⟩, hvoid⟩ := howes
  have hpending : ∀ id, w'.ledger.HasPending id ↔ s.world.ledger.HasPending id := by
    simp [Ledger.HasPending, htransfers]
  have hvoided : ∀ id, w'.ledger.Voided id ↔ s.world.ledger.Voided id := by simp [Ledger.Voided, htransfers]
  have hlive : ∀ id, w'.ledger.LivePending id ↔ s.world.ledger.LivePending id := by
    simp [Ledger.LivePending, Ledger.HasPending, Ledger.Voided, Ledger.Posted, htransfers]
  refine ⟨h.apart_update hflight, ?_, h.backed_update hvoiding, ?_, ?_, ?_, ?_, ?_, ?_⟩ <;> simp only [hrow]
  · intro p f r hp hr
    exact h.allowed p f r (flight_of_update hflight hp) hr
  · exact h.recorded
  · intro r hr hstored
    exact (h.stored r hr ((hpending _).mp hstored)).imp_right fun hex => exists_update
      (exists_other hcommitment hex)
  · intro r hr hsent
    exact (h.sent r hr (hmojaloop ▸ hsent)).imp_right fun hex => exists_update (exists_other hdispatch hex)
  · intro r hr hreleased
    exact (h.released r hr ((hvoided _).mp hreleased)).imp_right fun hex => exists_update (exists_other hvoid hex)
  · intro r hr hclosed
    rw [hlive]
    exact h.closed r hr hclosed
  · intro p record r hp hr
    rw [hlive]
    by_cases heq : p = pid
    · rw [heq, Function.update_self] at hp
      exact absurd hp (hnext record)
    · rw [Function.update_of_ne heq] at hp
      exact h.closing p record r hp hr

/-- What an UPDATE of the row by one request owes to the invariant. -/
structure StatementKeeps (lib : SettlementLib) (s : SettlementState) (pid : Nat) (r r' : SettlementRow) : Prop where
  terms : r'.terms = r.terms
  allowed : ∀ p f, p ≠ pid → (s.procs p).flight? = some f → f.allows r.status = true → f.allows r'.status = true
  recorded : r'.status.committed = true → r'.tigerBeetleTransferId = some (ledgerTransferId lib r)
  stored : s.world.ledger.HasPending (ledgerTransferId lib r) →
    r'.tigerBeetleTransferId = some (ledgerTransferId lib r) ∨ ∃ p, p ≠ pid ∧ (s.procs p).owesCommitment = true
  sent : s.world.mojaloop ≠ [] →
    (r'.status = .mojaloopPending ∨ r'.status = .settled) ∨ ∃ p, p ≠ pid ∧ (s.procs p).owesDispatch = true
  released : s.world.ledger.Voided (ledgerTransferId lib r) →
    r'.status = .voided ∨ ∃ p, p ≠ pid ∧ (s.procs p).owesVoid = true
  closed : r'.status = .voided → ¬ s.world.ledger.LivePending (ledgerTransferId lib r)

theorem VoidSafe.statement (h : VoidSafe lib s) {f : SettlementRow → SettlementRow} {result : Except HttpError Unit}
    {log : List SettlementEvent} (hf : ∀ r, s.world.row = some r → StatementKeeps lib s pid r (f r)) :
    VoidSafe lib ⟨{ s.world.update f with log := log }, Function.update s.procs pid (.finished result)⟩ := by
  have hflight : (Stage.finished result).flight? = none ∨ (Stage.finished result).flight? = (s.procs pid).flight? :=
    Or.inl rfl
  have hrow : ∀ r', s.world.row.map f = some r' → ∃ r, s.world.row = some r ∧ r' = f r ∧
      ledgerTransferId lib r' = ledgerTransferId lib r := by
    intro r' hr'
    obtain ⟨r, hr, rfl⟩ := Option.map_eq_some_iff.mp hr'
    exact ⟨r, hr, rfl, ledgerTransferId_terms (hf r hr).terms⟩
  refine ⟨h.apart_update hflight, ?_, h.backed_update (by simp), ?_, ?_, ?_, ?_, ?_, ?_⟩
  · intro p g r' hp hr'
    obtain ⟨r, hr, rfl, -⟩ := hrow r' hr'
    have hbefore := flight_of_update hflight hp
    refine (hf r hr).allowed p g ?_ hbefore (h.allowed p g r hbefore hr)
    rintro rfl
    dsimp only at hp
    rw [Function.update_self] at hp
    cases hp
  · intro r' hr' hcommitted
    obtain ⟨r, hr, rfl, hid⟩ := hrow r' hr'
    rw [hid]
    exact (hf r hr).recorded hcommitted
  · intro r' hr' hpending
    obtain ⟨r, hr, rfl, hid⟩ := hrow r' hr'
    rw [hid] at hpending ⊢
    exact ((hf r hr).stored hpending).imp_right exists_update
  · intro r' hr' hsent
    obtain ⟨r, hr, rfl, -⟩ := hrow r' hr'
    exact ((hf r hr).sent hsent).imp_right exists_update
  · intro r' hr' hvoided
    obtain ⟨r, hr, rfl, hid⟩ := hrow r' hr'
    rw [hid] at hvoided
    exact ((hf r hr).released hvoided).imp_right exists_update
  · intro r' hr' hclosed
    obtain ⟨r, hr, rfl, hid⟩ := hrow r' hr'
    rw [hid]
    exact (hf r hr).closed hclosed
  · intro p record r' hp hr'
    obtain ⟨r, hr, rfl, hid⟩ := hrow r' hr'
    rw [hid]
    dsimp only at hp
    by_cases heq : p = pid
    · rw [heq, Function.update_self] at hp
      cases hp
    · rw [Function.update_of_ne heq] at hp
      exact h.closing p record r hp hr

/-- An UPDATE that keeps the recorded transfer, by a request that owes nothing, and that neither leaves nor
enters a status the others look for. -/
theorem VoidSafe.keeps_of_status (h : VoidSafe lib s) {r r' : SettlementRow} (hrow : s.world.row = some r)
    (howes : (s.procs pid).owesUpdate = false) (hterms : r'.terms = r.terms)
    (hid : r'.tigerBeetleTransferId = r.tigerBeetleTransferId)
    (hallowed : ∀ p f, p ≠ pid → (s.procs p).flight? = some f → f.allows r.status = true →
      f.allows r'.status = true)
    (hcommitted : r'.status.committed = true → r.status.committed = true)
    (hpaid : r.status = .mojaloopPending ∨ r.status = .settled → r'.status = .mojaloopPending ∨
      r'.status = .settled)
    (hvoided : r'.status = .voided ↔ r.status = .voided) : StatementKeeps lib s pid r r' := by
  simp only [Stage.owesUpdate, Bool.or_eq_false_iff] at howes
  obtain ⟨⟨hcommitment, hdispatch⟩, hvoid⟩ := howes
  refine ⟨hterms, hallowed, ?_, ?_, ?_, ?_, ?_⟩
  · intro hc
    exact hid.trans (h.recorded r hrow (hcommitted hc))
  · intro hpending
    exact (h.stored r hrow hpending).imp hid.trans (exists_other hcommitment)
  · intro hsent
    exact (h.sent r hrow hsent).imp hpaid (exists_other hdispatch)
  · intro hreleased
    exact (h.released r hrow hreleased).imp hvoided.mpr (exists_other hvoid)
  · intro hclosed
    exact h.closed r hrow (hvoided.mp hclosed)

/-! ### The UPDATE statements -/

theorem VoidSafe.keeps_approval (h : VoidSafe lib s) {r : SettlementRow}
    (hrow : s.world.row = some r) {actor : String} (hstatus : r.status = .requested)
    (howes : (s.procs pid).owesUpdate = false) :
    StatementKeeps lib s pid r (recordApproval actor r) := by
  refine h.keeps_of_status hrow howes rfl rfl ?_ ?_ ?_ ?_
  · intro p f _ _ hallowed
    rw [hstatus] at hallowed
    cases f with
    | commit => cases hallowed
    | dispatch => cases hallowed
    | void => rfl
  · intro hc
    cases hc
  · rw [hstatus]
    simp
  · rw [hstatus]
    simp [recordApproval]

theorem VoidSafe.keeps_unavailable (h : VoidSafe lib s) {r : SettlementRow}
    (hrow : s.world.row = some r) {code : String} (howes : (s.procs pid).owesUpdate = false)
    (hflight : (s.procs pid).flight? = some .dispatch) :
    StatementKeeps lib s pid r (recordUnavailable code r) := by
  have hallowed := h.allowed pid .dispatch r hflight hrow
  unfold recordUnavailable whenStatus
  split
  · rename_i hstatus
    refine h.keeps_of_status hrow howes rfl rfl ?_ ?_ ?_ ?_
    · intro p f _ hf _
      cases f with
      | commit => rfl
      | dispatch => rfl
      | void => exact absurd hflight (h.apart p pid hf).2
    · exact fun _ => hallowed
    · intro hpaid
      rcases hpaid with hpaid | hpaid <;> rw [hpaid] at hstatus <;> cases hstatus
    · constructor
      · intro hvoided
        cases hvoided
      · intro hvoided
        rw [hvoided] at hstatus
        cases hstatus
  · exact h.keeps_of_status hrow howes rfl rfl (fun _ _ _ _ ha => ha) id id Iff.rfl

theorem VoidSafe.keeps_settled (h : VoidSafe lib s) {r : SettlementRow} (hrow : s.world.row = some r)
    {receipt : String} (howes : (s.procs pid).owesUpdate = false) :
    StatementKeeps lib s pid r (recordSettled receipt r) := by
  unfold recordSettled whenStatus
  split
  · rename_i hstatus
    rw [beq_iff_eq] at hstatus
    refine h.keeps_of_status hrow howes rfl rfl ?_ ?_ ?_ ?_
    · intro p f _ _ hallowed
      rw [hstatus] at hallowed
      cases f with
      | commit => rfl
      | dispatch => rfl
      | void => cases hallowed
    · intro _
      rw [hstatus]
      rfl
    · exact fun _ => Or.inr rfl
    · rw [hstatus]
      simp
  · exact h.keeps_of_status hrow howes rfl rfl (fun _ _ _ _ ha => ha) id id Iff.rfl

/-- The commitment is written down, by this request or by one before it. -/
theorem VoidSafe.keeps_commitment (h : VoidSafe lib s) {r record : SettlementRow} {id : String}
    (hrow : s.world.row = some r) (hstage : s.procs pid = .recordingCommitment record id)
    (hid : id = ledgerTransferId lib r) : StatementKeeps lib s pid r (recordCommitment id r) := by
  have hflight : (s.procs pid).flight? = some .commit := by rw [hstage]; rfl
  have hallowed := h.allowed pid .commit r hflight hrow
  have hdispatch : (s.procs pid).owesDispatch = false := by rw [hstage]; rfl
  have hvoid : (s.procs pid).owesVoid = false := by rw [hstage]; rfl
  unfold recordCommitment whenStatus
  split
  · rename_i hstatus
    rw [Bool.or_eq_true, beq_iff_eq, beq_iff_eq] at hstatus
    refine ⟨rfl, ?_, fun _ => by rw [hid], fun _ => Or.inl (by rw [hid]), ?_, ?_, fun hclosed => by cases hclosed⟩
    · intro p f _ hf _
      cases f with
      | commit => rfl
      | dispatch => rfl
      | void => exact absurd hflight (h.apart p pid hf).1
    · intro hsent
      refine Or.inr ((h.sent r hrow hsent).elim ?_ (exists_other hdispatch))
      intro hpaid
      rcases hstatus with hstatus | hstatus <;> rw [hstatus] at hpaid <;> simp at hpaid
    · intro hreleased
      refine Or.inr ((h.released r hrow hreleased).elim ?_ (exists_other hvoid))
      intro hvoided
      rcases hstatus with hstatus | hstatus <;> rw [hstatus] at hvoided <;> cases hvoided
  · rename_i hstatus
    have hcommitted : r.status.committed = true := by
      revert hallowed hstatus
      cases r.status <;> decide
    refine ⟨rfl, fun _ _ _ _ ha => ha, h.recorded r hrow, fun _ => Or.inl (h.recorded r hrow hcommitted), ?_, ?_,
      h.closed r hrow⟩
    · exact fun hsent => (h.sent r hrow hsent).imp_right (exists_other hdispatch)
    · exact fun hreleased => (h.released r hrow hreleased).imp_right (exists_other hvoid)

/-- The payout is written down, by this request or by one before it. -/
theorem VoidSafe.keeps_dispatch (h : VoidSafe lib s) {r record : SettlementRow} {quoteId transferId : String}
    (hrow : s.world.row = some r) (hstage : s.procs pid = .recordingDispatch record quoteId transferId) :
    StatementKeeps lib s pid r (recordDispatch quoteId transferId r) := by
  have hflight : (s.procs pid).flight? = some .dispatch := by rw [hstage]; rfl
  have hallowed := h.allowed pid .dispatch r hflight hrow
  have hcommitment : (s.procs pid).owesCommitment = false := by rw [hstage]; rfl
  have hvoid : (s.procs pid).owesVoid = false := by rw [hstage]; rfl
  unfold recordDispatch whenStatus
  split
  · rename_i hstatus
    rw [Bool.or_eq_true, beq_iff_eq, beq_iff_eq] at hstatus
    refine ⟨rfl, ?_, fun _ => h.recorded r hrow hallowed,
      fun hpending => (h.stored r hrow hpending).imp_right (exists_other hcommitment),
      fun _ => Or.inl (Or.inl rfl), ?_, fun hclosed => by cases hclosed⟩
    · intro p f _ hf _
      cases f with
      | commit => rfl
      | dispatch => rfl
      | void => exact absurd hflight (h.apart p pid hf).2
    · intro hreleased
      refine Or.inr ((h.released r hrow hreleased).elim ?_ (exists_other hvoid))
      intro hvoided
      rcases hstatus with hstatus | hstatus <;> rw [hstatus] at hvoided <;> cases hvoided
  · rename_i hstatus
    have hpaid : r.status = .mojaloopPending ∨ r.status = .settled := by
      revert hallowed hstatus
      cases r.status <;> decide
    exact ⟨rfl, fun _ _ _ _ ha => ha, h.recorded r hrow,
      fun hpending => (h.stored r hrow hpending).imp_right (exists_other hcommitment), fun _ => Or.inl hpaid,
      fun hreleased => (h.released r hrow hreleased).imp_right (exists_other hvoid), h.closed r hrow⟩

/-- The settlement is closed, and what it had reserved is gone. -/
theorem VoidSafe.keeps_void (h : VoidSafe lib s) {r record : SettlementRow} (hrow : s.world.row = some r)
    (hstage : s.procs pid = .recordingVoid record) : StatementKeeps lib s pid r (recordVoid r) := by
  have hflight : (s.procs pid).flight? = some .void := by rw [hstage]; rfl
  have hallowed := h.allowed pid .void r hflight hrow
  have hcommitment : (s.procs pid).owesCommitment = false := by rw [hstage]; rfl
  have hdispatch : (s.procs pid).owesDispatch = false := by rw [hstage]; rfl
  have hclosed : (recordVoid r).status = .voided := by
    unfold recordVoid whenStatus
    split
    · rfl
    · rename_i hstatus
      revert hallowed hstatus
      cases r.status <;> decide
  have hterms : (recordVoid r).terms = r.terms := by
    unfold recordVoid whenStatus
    split <;> rfl
  have hid : (recordVoid r).tigerBeetleTransferId = r.tigerBeetleTransferId := by
    unfold recordVoid whenStatus
    split <;> rfl
  refine ⟨hterms, ?_, ?_, ?_, ?_, fun _ => Or.inl hclosed, fun _ => h.closing pid record r hstage hrow⟩
  · intro p f _ hf _
    rw [hclosed]
    cases f with
    | commit => exact absurd hf (h.apart pid p hflight).1
    | dispatch => exact absurd hf (h.apart pid p hflight).2
    | void => rfl
  · intro hcommitted
    rw [hclosed] at hcommitted
    cases hcommitted
  · intro hpending
    rw [hid]
    exact (h.stored r hrow hpending).imp_right (exists_other hcommitment)
  · intro hsent
    refine Or.inr ((h.sent r hrow hsent).elim ?_ (exists_other hdispatch))
    intro hpaid
    rcases hpaid with hpaid | hpaid <;> rw [hpaid] at hallowed <;> cases hallowed

/-! ### The calls -/

theorem hasPending_accept {w : World} {t : LedgerTransfer} {id : String} :
    (w.accept t).ledger.HasPending id ↔ w.ledger.HasPending id ∨ (t.id = id ∧ t.flag = .pending) := by
  simp only [World.accept, Ledger.HasPending, List.mem_append, List.mem_singleton, or_and_right, exists_or,
    exists_eq_left, Ledger.completed_id, Ledger.completed_flag]

theorem voided_accept {w : World} {t : LedgerTransfer} {id : String} :
    (w.accept t).ledger.Voided id ↔ w.ledger.Voided id ∨ t.flag = .voidPending id := by
  simp only [World.accept, Ledger.Voided, List.mem_append, List.mem_singleton, or_and_right, exists_or,
    exists_eq_left, Ledger.completed_flag]

theorem posted_accept {w : World} {t : LedgerTransfer} {id : String} :
    (w.accept t).ledger.Posted id ↔ w.ledger.Posted id ∨ t.flag = .postPending id := by
  simp only [World.accept, Ledger.Posted, List.mem_append, List.mem_singleton, or_and_right, exists_or,
    exists_eq_left, Ledger.completed_flag]

/-- A transfer is stored by a request that owes nothing so far. What follows from its kind is left open. -/
theorem VoidSafe.accept (h : VoidSafe lib s) {t : LedgerTransfer} (howes : (s.procs pid).owesUpdate = false)
    (hflight : next.flight? = none ∨ next.flight? = (s.procs pid).flight?)
    (hvoiding : ∀ record id, next ≠ .voiding record id)
    (hstored : t.flag = .pending → next.owesCommitment = true)
    (hreleased : ∀ id, t.flag = .voidPending id → next.owesVoid = true)
    (hlive : ∀ r, s.world.row = some r → (s.world.accept t).ledger.LivePending (ledgerTransferId lib r) →
      (s.procs pid).flight? = some .commit)
    (hclosing : ∀ record, next = .recordingVoid record →
      ∀ r, s.world.row = some r → ¬ (s.world.accept t).ledger.LivePending (ledgerTransferId lib r)) :
    VoidSafe lib ⟨s.world.accept t, Function.update s.procs pid next⟩ := by
  simp only [Stage.owesUpdate, Bool.or_eq_false_iff] at howes
  obtain ⟨⟨hcommitment, hdispatch⟩, hvoid⟩ := howes
  have hself : ∀ {owes : Stage → Bool}, owes next = true →
      ∃ p, owes (Function.update s.procs pid next p) = true := by
    intro owes hnext
    exact ⟨pid, by rw [Function.update_self]; exact hnext⟩
  refine ⟨h.apart_update hflight, ?_, h.backed_update hvoiding, h.recorded, ?_, ?_, ?_, ?_, ?_⟩
  · intro p f r hp hr
    exact h.allowed p f r (flight_of_update hflight hp) hr
  · intro r hr hpending
    rcases hasPending_accept.mp hpending with hold | ⟨-, hflag⟩
    · exact (h.stored r hr hold).imp_right fun hex => exists_update (exists_other hcommitment hex)
    · exact Or.inr (hself (hstored hflag))
  · intro r hr hsent
    exact (h.sent r hr hsent).imp_right fun hex => exists_update (exists_other hdispatch hex)
  · intro r hr hvoided
    rcases voided_accept.mp hvoided with hold | hflag
    · exact (h.released r hr hold).imp_right fun hex => exists_update (exists_other hvoid hex)
    · exact Or.inr (hself (hreleased _ hflag))
  · -- only a commitment makes a reservation, and it keeps the settlement open
    intro r hr hclosed hpending
    have hallowed := h.allowed pid .commit r (hlive r hr hpending) hr
    rw [hclosed] at hallowed
    cases hallowed
  · intro p record r hp hr
    dsimp only at hp
    by_cases heq : p = pid
    · rw [heq, Function.update_self] at hp
      exact hclosing record hp r hr
    · rw [Function.update_of_ne heq] at hp
      intro hpending
      exact (h.apart p pid (by rw [hp]; rfl)).1 (hlive r hr hpending)

/-- The payout goes out and the request will write it down. -/
theorem VoidSafe.transferOut (h : VoidSafe lib s) {w' : World} (hrow : w'.row = s.world.row)
    (hledger : w'.ledger = s.world.ledger) (howes : (s.procs pid).owesUpdate = false)
    (hflight : next.flight? = some .dispatch) (hdispatch' : (s.procs pid).flight? = some .dispatch)
    (hnext : next.owesDispatch = true) : VoidSafe lib ⟨w', Function.update s.procs pid next⟩ := by
  simp only [Stage.owesUpdate, Bool.or_eq_false_iff] at howes
  obtain ⟨⟨hcommitment, hdispatch⟩, hvoid⟩ := howes
  have hsame : next.flight? = none ∨ next.flight? = (s.procs pid).flight? := Or.inr (hflight.trans hdispatch'.symm)
  have hvoiding : ∀ record id, next ≠ .voiding record id := by
    rintro record id rfl
    cases hflight
  refine ⟨h.apart_update hsame, ?_, h.backed_update hvoiding, ?_, ?_, ?_, ?_, ?_, ?_⟩ <;> simp only [hrow, hledger]
  · intro p f r hp hr
    exact h.allowed p f r (flight_of_update hsame hp) hr
  · exact h.recorded
  · intro r hr hpending
    exact (h.stored r hr hpending).imp_right fun hex => exists_update (exists_other hcommitment hex)
  · intro r hr _
    exact Or.inr ⟨pid, by rw [Function.update_self]; exact hnext⟩
  · intro r hr hreleased
    exact (h.released r hr hreleased).imp_right fun hex => exists_update (exists_other hvoid hex)
  · exact h.closed
  · intro p record r hp hr
    by_cases heq : p = pid
    · rw [heq, Function.update_self] at hp
      rw [hp] at hflight
      cases hflight
    · rw [Function.update_of_ne heq] at hp
      exact h.closing p record r hp hr

end Advance

/-! ### Every step -/

/-- A ledger call that is not parted from its UPDATE: refused, or stored and answered. -/
theorem ledgerStep_seen {w : World} {t : LedgerTransfer} {outcome : Except String Unit × Ledger}
    (h : Attempts w.ledger t outcome) {reply : Reply} (next : Stage) (message : String)
    (hseen : outcome.1 = .ok () → reply ≠ .lost) :
    (∃ err, ledgerStep reply outcome next message w = (w, .finished (.error err))) ∨
      ledgerStep reply outcome next message w = (w.accept t, next) := by
  rcases ledgerStep_cases h reply next message with ⟨hsame, err, herr⟩ | ⟨haccept, -, -, hok, hreply⟩
  · exact Or.inl ⟨err, Prod.ext hsame herr⟩
  · rcases hreply with ⟨-, hnext⟩ | ⟨hlost, -⟩
    · exact Or.inr (Prod.ext haccept hnext)
    · exact absurd hlost (hseen hok)

/-- A statement that is not parted from the call before it. -/
theorem VoidSafe.seen {s : SettlementState} {pid : Nat} {reply : Reply} (h : VoidSafe lib s)
    (howes : (s.procs pid).owesUpdate = true → reply ≠ .unreachable) {f : SettlementRow → SettlementRow}
    {next : Stage} (hnext : ∃ result, next = .finished result)
    (hf : ∀ r, s.world.row = some r → StatementKeeps lib s pid r (f r)) :
    VoidSafe lib ⟨s.world.statement reply f, Function.update s.procs pid next⟩ := by
  obtain ⟨result, rfl⟩ := hnext
  by_cases hreply : reply = .unreachable
  · rw [World.statement, if_pos hreply]
    refine h.quiet rfl rfl rfl (Or.inl rfl) ?_ (by simp) (by simp)
    exact Bool.eq_false_iff.mpr fun hupdate => howes hupdate hreply
  · rw [World.statement, if_neg hreply]
    exact h.statement hf

theorem afterStatement_finished (reply : Reply) (message : String) :
    ∃ result, afterStatement reply message = .finished result := by
  unfold afterStatement failed
  split
  · exact ⟨_, rfl⟩
  · exact ⟨_, rfl⟩

theorem advance_voidSafe {s : SettlementState} {pid : Nat} (env : SettlementEnv) (reply : Reply)
    (answer : MojaAnswer) (hsound : StateSound lib s) (h : VoidSafe lib s)
    (hseen : (s.procs pid).SeesThrough lib s.world.ledger reply answer) :
    VoidSafe lib ⟨(advanceStage lib env reply answer s.world (s.procs pid)).1,
      Function.update s.procs pid (advanceStage lib env reply answer s.world (s.procs pid)).2⟩ := by
  have hsoundStage := hsound.stages pid
  have hquiet : ∀ {w' : World} {next : Stage}, w'.row = s.world.row → w'.ledger.transfers =
    s.world.ledger.transfers →
      w'.mojaloop = s.world.mojaloop → (next.flight? = none ∨ next.flight? = (s.procs pid).flight?) →
      (s.procs pid).owesUpdate = false → (∀ record, next ≠ .recordingVoid record) →
      (∀ record id, next ≠ .voiding record id) → VoidSafe lib ⟨w', Function.update s.procs pid next⟩ :=
    fun hrow htransfers hmojaloop hflight howes hnext hvoiding =>
      h.quiet hrow htransfers hmojaloop hflight howes hnext hvoiding
  cases hstage : s.procs pid with
  | idle =>
      exact hquiet rfl rfl rfl (Or.inl rfl) (by rw [hstage]; rfl) (by simp [advanceStage]) (by simp [advanceStage])
  | finished result =>
      exact hquiet rfl rfl rfl (Or.inl rfl) (by rw [hstage]; rfl) (by simp [advanceStage]) (by simp [advanceStage])
  | approving actor record =>
      rcases approveStep_cases reply actor s.world with ⟨hsame, err, herr⟩ | ⟨r, result, hrow, hstatus, -, -, heq⟩
      · simp only [advanceStage, hsame, herr]
        exact hquiet rfl rfl rfl (Or.inl rfl) (by rw [hstage]; rfl) (by simp) (by simp)
      · simp only [advanceStage, heq]
        refine h.statement ?_
        intro r' hr'
        obtain rfl : r = r' := Option.some.inj (hrow.symm.trans hr')
        exact h.keeps_approval hrow hstatus (by rw [hstage]; rfl)
  | lookingUp record cfg side =>
      simp only [advanceStage, lookupStep]
      split
      · split
        · cases side <;>
            exact hquiet rfl rfl rfl (Or.inr (by rw [hstage]; rfl)) (by rw [hstage]; rfl) (by simp [afterAccount])
              (by simp [afterAccount])
        · exact hquiet rfl rfl rfl (Or.inl rfl) (by rw [hstage]; rfl) (by simp [failed]) (by simp [failed])
      · exact hquiet rfl rfl rfl (Or.inr (by rw [hstage]; rfl)) (by rw [hstage]; rfl) (by simp) (by simp)
  | creatingAccount record cfg side =>
      obtain ⟨hrow, htransfers, -, hmojaloop, -⟩ :=
        callLedger_account s.world reply ⟨record.account side, cfg.ledger, cfg.accountCode⟩
      simp only [advanceStage]
      split
      · cases side <;>
          exact hquiet hrow htransfers hmojaloop (Or.inr (by rw [hstage]; rfl)) (by rw [hstage]; rfl)
            (by simp [afterAccount]) (by simp [afterAccount])
      · exact hquiet hrow htransfers hmojaloop (Or.inr (by rw [hstage]; rfl)) (by rw [hstage]; rfl)
          (by simp) (by simp)
  | recheckingAccount record cfg side err =>
      simp only [advanceStage, recheckStep]
      split
      · split
        · cases side <;>
            exact hquiet rfl rfl rfl (Or.inr (by rw [hstage]; rfl)) (by rw [hstage]; rfl) (by simp [afterAccount])
              (by simp [afterAccount])
        · exact hquiet rfl rfl rfl (Or.inl rfl) (by rw [hstage]; rfl) (by simp [failed]) (by simp [failed])
      · exact hquiet rfl rfl rfl (Or.inl rfl) (by rw [hstage]; rfl) (by simp [failed]) (by simp [failed])
  | creatingTransfer record cfg =>
      rw [hstage] at hseen
      rcases ledgerStep_seen (attempts_createPendingTransfer s.world.ledger (pendingTransfer lib record cfg))
        (.recordingCommitment record
          (ledgerTransferId lib record)) "create pending TigerBeetle operational commitment: "
        hseen with ⟨err, heq⟩ | heq <;> simp only [advanceStage, heq]
      · exact hquiet rfl rfl rfl (Or.inl rfl) (by rw [hstage]; rfl) (by simp) (by simp)
      · refine h.accept (by rw [hstage]; rfl) (Or.inr (by rw [hstage]; rfl)) (by simp)
          (fun _ => rfl) ?_ ?_ (by simp)
        · intro id hflag
          cases hflag
        · intro r _ _
          rw [hstage]
          rfl
  | recordingCommitment record transferId =>
      simp only [advanceStage]
      refine h.seen ?_ (afterStatement_finished ..) ?_
      · rw [hstage] at hseen ⊢
        exact hseen
      · intro r hr
        exact h.keeps_commitment hr hstage (hsoundStage.transferId transferId r (by rw [hstage]; rfl) hr)
  | lookingUpParty record payerFSP =>
      simp only [advanceStage]
      split <;> exact hquiet rfl rfl rfl (Or.inr (by rw [hstage]; rfl)) (by rw [hstage]; rfl) (by simp) (by simp)
  | quoting record payerFSP payeeFSP =>
      simp only [advanceStage]
      split <;> exact hquiet rfl rfl rfl (Or.inr (by rw [hstage]; rfl)) (by rw [hstage]; rfl) (by simp) (by simp)
  | transferring record payerFSP payeeFSP quoteId =>
      rw [hstage] at hseen
      simp only [advanceStage]
      by_cases hreply : reply = .unreachable
      · have hnot : ¬ (reply = .answered ∧ trimSpace answer.transferId ≠ "") := by simp [hreply]
        rw [if_neg hnot, World.transferOut, if_pos hreply]
        exact hquiet rfl rfl rfl (Or.inr (by rw [hstage]; rfl)) (by rw [hstage]; rfl) (by simp) (by simp)
      · rw [if_pos (hseen hreply), World.transferOut, if_neg hreply]
        exact h.transferOut rfl rfl (by rw [hstage]; rfl) rfl (by rw [hstage]; rfl) rfl
  | recordingDispatch record quoteId transferId =>
      simp only [advanceStage]
      refine h.seen ?_ (afterStatement_finished ..) fun r hr => h.keeps_dispatch hr hstage
      rw [hstage] at hseen ⊢
      exact hseen
  | markingUnavailable record code err =>
      simp only [advanceStage]
      refine h.seen (by rw [hstage]; intro howes; cases howes) ⟨_, rfl⟩ fun r hr => ?_
      exact h.keeps_unavailable hr (by rw [hstage]; rfl) (by rw [hstage]; rfl)
  | gettingTransaction record =>
      simp only [advanceStage]
      split
      · split <;> exact hquiet rfl rfl rfl (Or.inl rfl) (by rw [hstage]; rfl) (by simp) (by simp)
      · exact hquiet rfl rfl rfl (Or.inl rfl) (by rw [hstage]; rfl) (by simp [failed]) (by simp [failed])
  | posting record receipt =>
      have hid : ∀ r, s.world.row = some r → record.tigerBeetleTransferId.getD "" = ledgerTransferId lib r :=
        fun r hr => hsoundStage.transferId _ r (by rw [hstage]; rfl) hr
      have hposted : ∀ next : Stage, next.flight? = none → (∀ record, next ≠ .recordingVoid record) →
          VoidSafe lib ⟨s.world.accept ⟨record.tigerBeetleTransferId.getD "" ++ "-post",
            .postPending (record.tigerBeetleTransferId.getD ""), "", "", 0, 0, 0⟩,
              Function.update s.procs pid next⟩ := by
        intro next hflight hnext
        refine h.accept (by rw [hstage]; rfl) (Or.inl hflight) ?_ (fun hflag => by cases hflag)
          (fun id hflag => by cases hflag) ?_ (fun record heq => absurd heq (hnext record))
        · rintro record id rfl
          cases hflight
        · intro r hr hlive
          refine absurd ?_ hlive.2.1
          rw [posted_accept, hid r hr]
          exact Or.inr rfl
      rcases ledgerStep_cases (attempts_native s.world.ledger ⟨record.tigerBeetleTransferId.getD "" ++ "-post",
          .postPending (record.tigerBeetleTransferId.getD ""), "", "", 0, 0, 0⟩ "post transfer failed: ") reply
          (.recordingSettled record (lib.sha256LowerHex receipt)) "post approved TigerBeetle commitment: " with
        ⟨hsame, err, herr⟩ | ⟨haccept, -, -, -, ⟨-, hnext⟩ | ⟨-, err, herr⟩⟩
      · simp only [advanceStage, TBClient.postTransfer, hsame, herr]
        exact hquiet rfl rfl rfl (Or.inl rfl) (by rw [hstage]; rfl) (by simp) (by simp)
      · simp only [advanceStage, TBClient.postTransfer, haccept, hnext]
        exact hposted _ rfl (by simp)
      · simp only [advanceStage, TBClient.postTransfer, haccept, herr]
        exact hposted _ rfl (by simp)
  | recordingSettled record receiptSha256 =>
      simp only [advanceStage]
      refine h.seen (by rw [hstage]; intro howes; cases howes) (afterStatement_finished ..) fun r hr => ?_
      exact h.keeps_settled hr (by rw [hstage]; rfl)
  | voiding record transferId =>
      rw [hstage] at hseen
      have hid : ∀ r, s.world.row = some r → transferId = ledgerTransferId lib r :=
        fun r hr => hsoundStage.transferId transferId r (by rw [hstage]; rfl) hr
      rcases ledgerStep_seen (attempts_native s.world.ledger ⟨transferId ++ "-void",
        .voidPending transferId, "", "", 0, 0, 0⟩
          "void transfer failed: ") (.recordingVoid record) "void TigerBeetle operational commitment: " hseen with
        ⟨err, heq⟩ | heq <;> simp only [advanceStage, TBClient.voidTransfer, heq]
      · exact hquiet rfl rfl rfl (Or.inl rfl) (by rw [hstage]; rfl) (by simp) (by simp)
      · have hgone : ∀ r, s.world.row = some r → ¬ (s.world.accept ⟨transferId ++ "-void", .voidPending transferId,
            "", "", 0, 0, 0⟩).ledger.LivePending (ledgerTransferId lib r) := by
          intro r hr hlive
          refine hlive.2.2 ?_
          rw [voided_accept, hid r hr]
          exact Or.inr rfl
        refine h.accept (by rw [hstage]; rfl) (Or.inr (by rw [hstage]; rfl)) (by simp)
          (fun hflag => by cases hflag) ?_
          (fun r hr hlive => absurd hlive (hgone r hr)) (fun _ _ => hgone)
        intro _ _
        exact bne_iff_ne.mpr (h.backed pid record transferId hstage)
  | recordingVoid record =>
      simp only [advanceStage]
      refine h.seen ?_ (afterStatement_finished ..) fun r hr => h.keeps_void hr hstage
      rw [hstage] at hseen ⊢
      exact hseen

/-! ### Every run -/

/-- A request begins, or ends without owing anything. -/
theorem VoidSafe.enter {s : SettlementState} {pid : Nat} {next : Stage} (h : VoidSafe lib s)
    (howes : (s.procs pid).owesUpdate = false)
    (hvoid : next.flight? = some .void →
      ∀ q, (s.procs q).flight? ≠ some .commit ∧ (s.procs q).flight? ≠ some .dispatch)
    (hother : next.flight? = some .commit ∨ next.flight? = some .dispatch → ∀ q, (s.procs q).flight? ≠ some .void)
    (hallowed : ∀ f r, next.flight? = some f → s.world.row = some r → f.allows r.status = true)
    (hbacked : ∀ record id, next = .voiding record id → record.tigerBeetleTransferId.getD "" ≠ "")
    (hclosing : ∀ record r, next = .recordingVoid record → s.world.row = some r →
      ¬ s.world.ledger.LivePending (ledgerTransferId lib r)) :
    VoidSafe lib { s with procs := Function.update s.procs pid next } := by
  simp only [Stage.owesUpdate, Bool.or_eq_false_iff] at howes
  obtain ⟨⟨hcommitment, hdispatch⟩, hvoidOwed⟩ := howes
  refine ⟨?_, ?_, ?_, h.recorded, ?_, ?_, ?_, h.closed, ?_⟩
  · intro p q hp
    dsimp only at hp ⊢
    by_cases hpid : p = pid <;> by_cases hqid : q = pid
    · subst hpid hqid
      rw [Function.update_self] at hp ⊢
      rw [hp]
      simp
    · subst hpid
      rw [Function.update_self] at hp
      rw [Function.update_of_ne hqid]
      exact hvoid hp q
    · subst hqid
      rw [Function.update_of_ne hpid] at hp
      rw [Function.update_self]
      exact ⟨fun hq => hother (Or.inl hq) p hp, fun hq => hother (Or.inr hq) p hp⟩
    · rw [Function.update_of_ne hpid] at hp
      rw [Function.update_of_ne hqid]
      exact h.apart p q hp
  · intro p f r hp hr
    dsimp only at hp
    by_cases heq : p = pid
    · rw [heq, Function.update_self] at hp
      exact hallowed f r hp hr
    · rw [Function.update_of_ne heq] at hp
      exact h.allowed p f r hp hr
  · intro p record id hp
    dsimp only at hp
    by_cases heq : p = pid
    · rw [heq, Function.update_self] at hp
      exact hbacked record id hp
    · rw [Function.update_of_ne heq] at hp
      exact h.backed p record id hp
  · intro r hr hpending
    exact (h.stored r hr hpending).imp_right fun hex => exists_update (exists_other hcommitment hex)
  · intro r hr hsent
    exact (h.sent r hr hsent).imp_right fun hex => exists_update (exists_other hdispatch hex)
  · intro r hr hreleased
    exact (h.released r hr hreleased).imp_right fun hex => exists_update (exists_other hvoidOwed hex)
  · intro p record r hp hr
    dsimp only at hp
    by_cases heq : p = pid
    · rw [heq, Function.update_self] at hp
      exact hclosing record r hp hr
    · rw [Function.update_of_ne heq] at hp
      exact h.closing p record r hp hr

/-- A settlement without a recorded transfer has none in the ledger, unless a commitment is in flight. -/
theorem VoidSafe.not_livePending_of_unrecorded {s : SettlementState} (h : VoidSafe lib s) {r : SettlementRow}
    (hrow : s.world.row = some r) (hid : r.tigerBeetleTransferId.getD "" = "")
    (hquiet : ∀ p, (s.procs p).flight? ≠ some .commit) : ¬ s.world.ledger.LivePending (ledgerTransferId lib r) := by
  intro hlive
  rcases h.stored r hrow hlive.1 with hrecorded | ⟨p, hp⟩
  · rw [hrecorded] at hid
    exact lib.uuidSHA1_ne_empty _ hid
  · exact hquiet p (flight_of_owesCommitment hp)

theorem VoidSafe.begin {s : SettlementState} {pid : Nat} {env : SettlementEnv} {actor : Actor} {op : SettlementOp}
    (h : VoidSafe lib s) (hidle : s.procs pid = .idle) (hcond : RunsApart lib s (.begin pid env actor op)) :
    VoidSafe lib { s with procs := Function.update s.procs pid (beginStage lib env actor.1 op s.world) } := by
  have howes : (s.procs pid).owesUpdate = false := by rw [hidle]; rfl
  have hover : ∀ result, VoidSafe lib { s with procs := Function.update s.procs pid (.finished result) } := by
    intro result
    exact h.enter howes (by simp [Stage.flight?]) (by simp [Stage.flight?]) (by simp [Stage.flight?])
      (by simp) (by simp)
  rcases beginStage_cases lib env actor.1 op s.world with ⟨result, heq⟩ | ⟨record, hrow, hbegins⟩
  · rw [heq]
    exact hover result
  · generalize beginStage lib env actor.1 op s.world = next at hbegins
    have hrecord : ∀ r, s.world.row = some r → record = r := fun r hr => Option.some.inj (hrow.symm.trans hr)
    cases hbegins with
    | done => exact hover _
    | approve _ =>
        exact h.enter howes (by simp [Stage.flight?]) (by simp [Stage.flight?]) (by simp [Stage.flight?]) (by simp)
          (by simp)
    | commit status _ =>
        refine h.enter howes (by simp [Stage.flight?]) (fun _ => hcond) ?_ (by simp) (by simp)
        intro f r hf hr
        obtain rfl := Option.some.inj hf
        rw [← hrecord r hr]
        rcases status with status | status <;> rw [status] <;> rfl
    | unready status =>
        refine h.enter howes (by simp [Stage.flight?]) (fun _ => hcond) ?_ (by simp) (by simp)
        intro f r hf hr
        obtain rfl := Option.some.inj hf
        rw [← hrecord r hr]
        rcases status with status | status <;> rw [status] <;> rfl
    | dispatch status =>
        refine h.enter howes (by simp [Stage.flight?]) (fun _ => hcond) ?_ (by simp) (by simp)
        intro f r hf hr
        obtain rfl := Option.some.inj hf
        rw [← hrecord r hr]
        rcases status with status | status <;> rw [status] <;> rfl
    | reconcile _ _ =>
        exact h.enter howes (by simp [Stage.flight?]) (by simp [Stage.flight?]) (by simp [Stage.flight?]) (by simp)
          (by simp)
    | voidUnbacked status transfer =>
        refine h.enter howes (fun _ => hcond) (by simp [Stage.flight?]) ?_ (by simp) ?_
        · intro f r hf hr
          obtain rfl := Option.some.inj hf
          rw [← hrecord r hr]
          simp [Flight.allows, status]
        · intro _ r _ hr
          rw [← hrecord r hr]
          exact h.not_livePending_of_unrecorded hrow transfer fun q => (hcond q).1
    | void status transfer =>
        refine h.enter howes (fun _ => hcond) (by simp [Stage.flight?]) ?_ ?_ (by simp)
        · intro f r hf hr
          obtain rfl := Option.some.inj hf
          rw [← hrecord r hr]
          simp [Flight.allows, status]
        · intro _ _ heq
          injection heq with heq
          rw [← heq]
          exact transfer

/-- A request in flight carries a copy of the row. -/
theorem record_of_flight {stage : Stage} {f : Flight} (h : stage.flight? = some f) :
    ∃ record, stage.record? = some record := by
  cases stage <;> first | exact ⟨_, rfl⟩ | cases h

theorem VoidSafe.create {s : SettlementState} (hsound : StateSound lib s) (h : VoidSafe lib s) (env : SettlementEnv)
    (id : String) (actor : Actor) (req : SettlementRequest) :
    VoidSafe lib { s with world := createWorld lib env id actor req s.world } := by
  rcases createWorld_cases lib env id actor req s.world with hsame | ⟨row, isNew, hrow, hcreated, heq⟩
  · rw [hsame]
    exact h
  · obtain ⟨valid, debit, credit, -, rfl⟩ := createOperationalSettlement_new hcreated
    obtain ⟨hempty, hunsent, -⟩ := hsound.world.fresh hrow
    -- without a row no request got past its read
    have hnone : ∀ p f, (s.procs p).flight? ≠ some f := by
      intro p f hflight
      obtain ⟨record, hrecord⟩ := record_of_flight hflight
      obtain ⟨r, hr, -⟩ := (hsound.stages p).record record hrecord
      rw [hrow] at hr
      cases hr
    rw [heq]
    refine ⟨h.apart, fun p f _ hp => absurd hp (hnone p f), h.backed, ?_, ?_, ?_, ?_, ?_, ?_⟩
    · intro r hr hcommitted
      obtain rfl := Option.some.inj hr
      cases hcommitted
    · rintro r - ⟨t, ht, -⟩
      rw [show _ = [] from hempty] at ht
      cases ht
    · intro r _ hsent
      exact absurd hunsent hsent
    · rintro r - ⟨t, ht, -⟩
      rw [show _ = [] from hempty] at ht
      cases ht
    · intro r hr hclosed
      obtain rfl := Option.some.inj hr
      cases hclosed
    · intro p record _ hp
      exact absurd (by rw [show s.procs p = _ from hp]; rfl) (hnone p .void)

theorem settlementStep_voidSafe (s : SettlementState) (i : SettlementInput) (h : StateSound lib s ∧ VoidSafe lib s)
    (hcond : RunsApart lib s i) : StateSound lib (settlementStep lib s i) ∧
      VoidSafe lib (settlementStep lib s i) := by
  refine ⟨settlementStep_sound s i h.1, ?_⟩
  cases i with
  | create env id actor req => exact h.2.create h.1 env id actor req
  | begin pid env actor op =>
      simp only [settlementStep]
      split
      · exact h.2.begin (by assumption) hcond
      · exact h.2
  | advance pid env reply answer => exact advance_voidSafe env reply answer h.1 h.2 hcond
  | stop pid =>
      exact h.2.enter hcond (by simp [Stage.flight?]) (by simp [Stage.flight?]) (by simp [Stage.flight?]) (by simp)
        (by simp)

theorem voidSafe_start (zeroPostsPending : Bool) (accounts : List TBAccount) :
    VoidSafe lib (settlementStart zeroPostsPending accounts) := by
  refine ⟨?_, ?_, ?_, ?_, ?_, ?_, ?_, ?_, ?_⟩ <;> simp [settlementStart, Stage.flight?]

/-- The request an input belongs to. -/
def SettlementInput.pid? : SettlementInput → Option Nat
  | .create _ _ _ _ => none
  | .begin pid _ _ _ => some pid
  | .advance pid _ _ _ => some pid
  | .stop pid => some pid

theorem final_procs_of_untouched {s : SettlementState} {inputs : List SettlementInput} {pid : Nat}
    (h : ∀ i ∈ inputs, i.pid? ≠ some pid) : (Runs.final (settlementStep lib) s inputs).procs pid = s.procs pid := by
  induction inputs generalizing s with
  | nil => rfl
  | cons i rest ih =>
      obtain ⟨hi, hrest⟩ := List.forall_mem_cons.mp h
      have hstep : (settlementStep lib s i).procs pid = s.procs pid := by
        cases i with
        | create env id actor req => rfl
        | begin p env actor op =>
            simp only [settlementStep]
            split
            · exact Function.update_of_ne (fun heq => hi (congrArg some heq.symm)) _ _
            · rfl
        | advance p env reply answer => exact Function.update_of_ne (fun heq => hi (congrArg some heq.symm)) _ _
        | stop p => exact Function.update_of_ne (fun heq => hi (congrArg some heq.symm)) _ _
      rw [Runs.final_cons, ih hrest, hstep]

/-- An answered call is never parted from its UPDATE. -/
theorem runsApart_answeredStep (s : SettlementState) (pid : Nat) : RunsApart lib s (answeredStep pid) := by
  change (s.procs pid).SeesThrough lib s.world.ledger .answered settledAnswer
  cases s.procs pid with
  | transferring record payerFSP payeeFSP quoteId => exact fun _ => ⟨rfl, by decide⟩
  | _ => exact fun _ => by simp

/-- The status of the row, the transfers sent to the switch, and the flags of those in the ledger. -/
def outsideView (w : World) : Option SettlementStatus × Nat × List TransferFlag :=
  (w.row.map (·.status), w.mojaloop.length, w.ledger.transfers.map (·.flag))

end Inec
