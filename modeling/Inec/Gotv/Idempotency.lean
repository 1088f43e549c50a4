import Inec.Gotv.Balances
import Inec.Lib.Sha256

/-!
# Calls with and without a key

A call that returns an identifier has either inserted its own transfer or found one under its key
(`retry_returned`). Under one key there is one transfer, and a call without a key only returns what it inserted.
A transfer that is found is the caller's where it was stored for the same accounts and amount, which nothing
compares.
-/

namespace Inec

/-- The accounts and the amount of a transfer are those of the request. -/
def GotvTransfer.isOf (t : GotvTransfer) (req : GotvRequest) : Prop :=
  t.debitAccountId = req.debitAccount ∧ t.creditAccountId = req.creditAccount ∧ t.amount = req.amountKobo

namespace GotvProcess

variable {sha256Hex : String → String} {s after : GotvProcess}

/-- Every identifier that was returned is of a stored transfer with what the caller asked for, and calls that
gave one key were returned the one transfer that has it. -/
structure Idempotent (s : GotvProcess) : Prop where
  own : ∀ n req id, s.calls n = .returned req (.transfer id) → ∃ t ∈ s.ledger.transfers, t.id = id ∧ t.isOf req
  once : ∀ n n' req req' id id', s.calls n = .returned req (.transfer id) → s.calls n' =
    .returned req' (.transfer id') → req.idempotencyKey ≠ "" → req.idempotencyKey = req'.idempotencyKey →
    id = id' ∧ (s.ledger.transfers.filter fun t => t.idempotencyKey == req.idempotencyKey).map (·.id) = [id]

/-- A call without a key that succeeds in this step adds a transfer. -/
def CreatesKeyless (s after : GotvProcess) : Prop :=
  ∀ n req id, after.calls n = .returned req (.transfer id) → s.calls n ≠ after.calls n → req.idempotencyKey = "" →
    after.ledger.transfers = s.ledger.transfers ++ [req.transfer id] ∧ id ∉ s.ledger.transfers.map (·.id)

/-- A failed call that finds its key finds its own accounts and amount under it. -/
def LookupMatches (s : GotvProcess) : GotvAct → Prop
  | .retry n (.lookup true _) =>
      ∀ req attempt err t, s.calls n = .failed req attempt err → req.idempotencyKey ≠ "" →
        s.ledger.transferByKey? req.idempotencyKey = some t → t.isOf req
  | _ => True

/-! ### What a call returns -/

theorem transferByKey?_eq_some {s : GOTVLedger} {key : String} {t : GotvTransfer} :
    s.transferByKey? key = some t ↔ t ∈ s.transfers ∧ t.idempotencyKey = key :=
  Rows.find?_key_eq_some_iff s.keys

/-- An identifier comes from the call's own insert, or from a look-up of its key. -/
theorem retry_returned {s : GOTVLedger} {act : RetryAct} {phase : RetryPhase} {req : GotvRequest} {id : String}
    (h : (s.retry sha256Hex act phase).2 = .returned req (.transfer id))
    (hnew : phase ≠ .returned req (.transfer id)) :
    ((s.retry sha256Hex act phase).1.transfers = s.transfers ++ [req.transfer id]) ∨
    ∃ attempt err cancelled t, act = .lookup true cancelled ∧ phase = .failed req attempt err ∧
      req.idempotencyKey ≠ "" ∧ s.transferByKey? req.idempotencyKey = some t ∧ t.id = id ∧
        (s.retry sha256Hex act phase).1 = s := by
  cases act with
  | attempt nanos tx =>
      cases phase with
      | trying req' attempt =>
          rw [GOTVLedger.retry] at h ⊢
          obtain ⟨err, hcreate⟩ | ⟨after, result, hcreate, hresult, htransfers, -⟩ :=
            GOTVLedger.createTransfer_spec sha256Hex s tx req' nanos
          · rw [hcreate] at h
            cases h
          · rw [hcreate] at h ⊢
            obtain rfl | rfl := hresult
            · injection h with hreq hid
              injection hid with hid
              rw [← hreq, ← hid]
              exact .inl htransfers
            · cases h
      | idle => exact absurd h hnew
      | failed req' attempt err => exact absurd h hnew
      | returned req' result => exact absurd h hnew
  | lookup works cancelled =>
      cases phase with
      | failed req' attempt err =>
          rw [GOTVLedger.retry] at h ⊢
          split at h
          case h_1 t hfound =>
            split at hfound
            case isFalse => cases hfound
            case isTrue hkey =>
              injection h with hreq hid
              injection hid with hid
              subst hreq
              refine .inr ⟨attempt, err, cancelled, t, ?_, rfl, hkey.1, hfound, hid, ?_⟩
              · rw [hkey.2]
              · rfl
          case h_2 =>
            split at h
            · cases cancelled <;> cases h
            · cases h
      | idle => exact absurd h hnew
      | trying req' attempt => exact absurd h hnew
      | returned req' result => exact absurd h hnew

theorem step_returned {act : GotvAct} {n : Nat} {req : GotvRequest} {id : String}
    (h : (s.step sha256Hex act).calls n = .returned req (.transfer id))
    (hnew : s.calls n ≠ .returned req (.transfer id)) :
    (s.step sha256Hex act).ledger.transfers = s.ledger.transfers ++ [req.transfer id] ∨
    ∃ attempt err cancelled t, act = .retry n (.lookup true cancelled) ∧ s.calls n = .failed req attempt err ∧
      req.idempotencyKey ≠ "" ∧ s.ledger.transferByKey? req.idempotencyKey = some t ∧ t.id = id ∧
      (s.step sha256Hex act).ledger = s.ledger := by
  cases act with
  | ensureAccount id partyId accountType works => exact absurd h hnew
  | post txID tx => exact absurd h hnew
  | void txID tx => exact absurd h hnew
  | call m req' =>
      rw [step] at h
      split at h
      case h_1 =>
        change Function.update s.calls m (.trying req' 0) n = _ at h
        by_cases hn : n = m
        · subst hn
          rw [Function.update_self] at h
          cases h
        · rw [Function.update_of_ne hn] at h
          exact absurd h hnew
      case h_2 => exact absurd h hnew
  | retry m act =>
      have hcalls : (s.step sha256Hex (.retry m act)).calls = Function.update s.calls m
          (s.ledger.retry sha256Hex act (s.calls m)).2 := rfl
      rw [hcalls] at h
      by_cases hn : n = m
      · subst hn
        rw [Function.update_self] at h
        obtain hown | ⟨attempt, err, cancelled, t, rfl, hphase, hkey, hfound, hid, hsame⟩ := retry_returned h hnew
        · exact .inl hown
        · exact .inr ⟨attempt, err, cancelled, t, rfl, hphase, hkey, hfound, hid, hsame⟩
      · rw [Function.update_of_ne hn] at h
        exact absurd h hnew

/-- A stored transfer stays, but for its status. -/
theorem transfer_stays (sha256Hex : String → String) (s : GotvProcess) (act : GotvAct) {t : GotvTransfer}
    (ht : t ∈ s.ledger.transfers) :
    ∃ status, { t with status := status } ∈ (s.step sha256Hex act).ledger.transfers := by
  obtain ⟨htransfers, -⟩ | ⟨t', htransfers, -⟩ | ⟨t', status, -, hmoves⟩ := step_writes sha256Hex s act
  · rw [htransfers]
    exact ⟨t.status, ht⟩
  · rw [htransfers]
    exact ⟨t.status, List.mem_append_left _ ht⟩
  · rw [hmoves.transfers]
    by_cases hid : t.id = t'.id
    · exact ⟨status, Rows.mem_update.mpr (.inl ⟨t, ht, hid, rfl⟩)⟩
    · exact ⟨t.status, Rows.mem_update.mpr (.inr ⟨ht, hid⟩)⟩

/-! ### Runs -/

/-- A call with a key was returned the transfer that is stored under it. -/
def Keyed (s : GotvProcess) : Prop :=
  ∀ n req id, s.calls n = .returned req (.transfer id) → req.idempotencyKey ≠ "" →
    ∃ t ∈ s.ledger.transfers, t.id = id ∧ t.idempotencyKey = req.idempotencyKey

theorem keyed_step (sha256Hex : String → String) (s : GotvProcess) (act : GotvAct) (hs : s.Keyed) :
    (s.step sha256Hex act).Keyed := by
  intro n req id hreturned hkey
  by_cases hold : s.calls n = .returned req (.transfer id)
  · obtain ⟨t, ht, hid, htkey⟩ := hs n req id hold hkey
    obtain ⟨status, hstays⟩ := transfer_stays sha256Hex s act ht
    exact ⟨_, hstays, hid, htkey⟩
  · obtain hown | ⟨_, _, _, t, -, -, -, hfound, hid, hsame⟩ := step_returned hreturned hold
    · rw [hown]
      exact ⟨_, List.mem_append_right _ List.mem_cons_self, rfl, rfl⟩
    · rw [hsame]
      obtain ⟨ht, htkey⟩ := transferByKey?_eq_some.mp hfound
      exact ⟨t, ht, hid, htkey⟩

/-- Keys are unique, so one key has one transfer. -/
theorem Keyed.once (hs : s.Keyed) {n n' : Nat} {req req' : GotvRequest} {id id' : String}
    (h : s.calls n = .returned req (.transfer id)) (h' : s.calls n' = .returned req' (.transfer id'))
    (hkey : req.idempotencyKey ≠ "") (hsame : req.idempotencyKey = req'.idempotencyKey) :
    id = id' ∧ (s.ledger.transfers.filter fun t => t.idempotencyKey == req.idempotencyKey).map (·.id) = [id] := by
  obtain ⟨t, ht, rfl, htkey⟩ := hs n req id h hkey
  obtain ⟨t', ht', rfl, htkey'⟩ := hs n' req' id' h' (hsame ▸ hkey)
  have heq : t = t' := Rows.eq_of_key_eq s.ledger.keys ht ht' (htkey.trans (hsame.trans htkey'.symm))
  refine ⟨congrArg (·.id) heq, ?_⟩
  have hfiltered : t ∈ s.ledger.transfers.filter fun t => t.idempotencyKey == req.idempotencyKey :=
    List.mem_filter.mpr ⟨ht, beq_iff_eq.mpr htkey⟩
  obtain hnone | ⟨t₁, hone⟩ := Rows.filter_key_eq s.ledger.keys req.idempotencyKey
  · rw [hnone] at hfiltered
    cases hfiltered
  · rw [hone] at hfiltered ⊢
    rw [List.mem_singleton.mp hfiltered, List.map_singleton]

/-- Every identifier that was returned is of a transfer with what the caller asked for. -/
def Own (s : GotvProcess) : Prop :=
  ∀ n req id, s.calls n = .returned req (.transfer id) → ∃ t ∈ s.ledger.transfers, t.id = id ∧ t.isOf req

theorem own_step_iff (sha256Hex : String → String) (s : GotvProcess) (act : GotvAct) (hs : s.Own) :
    (s.step sha256Hex act).Own ↔ s.LookupMatches act := by
  constructor
  · intro hafter
    unfold LookupMatches
    split
    case h_1 n cancelled =>
      intro req attempt err t hphase hkey hfound
      -- the call is returned what it found
      have hstep : s.step sha256Hex (.retry n (.lookup true cancelled)) =
          ⟨s.ledger, Function.update s.calls n (.returned req (.transfer t.id))⟩ := by
        rw [step, hphase, GOTVLedger.retry, if_pos ⟨hkey, rfl⟩, hfound]
      rw [hstep] at hafter
      obtain ⟨t', ht', hid, hof⟩ := hafter n req t.id (Function.update_self ..)
      have heq : t' = t := Rows.eq_of_key_eq s.ledger.transferIds ht' (transferByKey?_eq_some.mp hfound).1 hid
      exact heq ▸ hof
    case h_2 => trivial
  · intro hmatch n req id hreturned
    by_cases hold : s.calls n = .returned req (.transfer id)
    · obtain ⟨t, ht, hid, hof⟩ := hs n req id hold
      obtain ⟨status, hstays⟩ := transfer_stays sha256Hex s act ht
      exact ⟨_, hstays, hid, hof⟩
    · obtain hown | ⟨attempt, err, cancelled, t, rfl, hphase, hkey, hfound, hid, hsame⟩ :=
        step_returned hreturned hold
      · rw [hown]
        exact ⟨_, List.mem_append_right _ List.mem_cons_self, rfl, rfl, rfl, rfl⟩
      · rw [hsame]
        exact ⟨t, (transferByKey?_eq_some.mp hfound).1, hid, hmatch req attempt err t hphase hkey hfound⟩

theorem createsKeyless_step (sha256Hex : String → String) (s : GotvProcess) (act : GotvAct) :
    s.CreatesKeyless (s.step sha256Hex act) := by
  intro n req id hreturned hnew hkey
  obtain hown | ⟨_, _, _, _, -, -, hkeyed, -⟩ :=
    step_returned hreturned fun hold => hnew (hold.trans hreturned.symm)
  · refine ⟨hown, ?_⟩
    have hnodup := (s.step sha256Hex act).ledger.transferIds
    rw [hown, List.map_append, List.nodup_append] at hnodup
    intro hmem
    exact hnodup.2.2 id hmem id List.mem_cons_self rfl
  · exact absurd hkey hkeyed

/-- Calls are idempotent in the runs in which no look-up of a key finds other accounts or another amount under
it. -/
theorem idempotent_iff_lookupMatches (sha256Hex : String → String) (acts : List GotvAct) :
    ((∀ s ∈ Runs.visited (step sha256Hex) start acts, s.Idempotent) ∧
      Runs.AllSteps (step sha256Hex) (fun s act => s.CreatesKeyless (s.step sha256Hex act)) start acts) ↔
    Runs.AllSteps (step sha256Hex) LookupMatches start acts := by
  have hcreates : Runs.AllSteps (step sha256Hex)
      (fun s act => s.CreatesKeyless (s.step sha256Hex act)) start acts := by
    have hinv : ∀ (s : GotvProcess) (act : GotvAct), True → True := fun _ _ _ => trivial
    exact Runs.allSteps_of_inv hinv (fun s act _ => createsKeyless_step sha256Hex s act) trivial acts
  have hkeep : ∀ (s : GotvProcess) (act : GotvAct), s.Keyed → (s.step sha256Hex act).Keyed :=
    fun s act hs => keyed_step sha256Hex s act hs
  have hkeyed := Runs.forall_visited_of_step hkeep (s := start) (fun _ _ _ h => (nomatch h)) acts
  have hown := Runs.forall_visited_iff_of_step (fun s act hs => own_step_iff sha256Hex s act hs)
    (s := start) (fun _ _ _ h => (nomatch h)) acts
  rw [← hown]
  constructor
  · rintro ⟨hidempotent, -⟩ s hs
    exact (hidempotent s hs).own
  · intro hall
    refine ⟨fun s hs => ⟨hall s hs, ?_⟩, hcreates⟩
    intro n n' req req' id id' h h'
    exact (hkeyed s hs).once h h'

/-- Two payments of other amounts under one key. -/
def voucherTwice : List GotvAct :=
  [.ensureAccount "gotv-party-1-operations" 1 "operations" true,
    .ensureAccount "gotv-party-1-transport" 1 "transport" true, .call 0 (voucher 50000),
      .retry 0 (.attempt 1000 doneTx), .call 1 (voucher 90000), .retry 1 (.attempt 2000 doneTx),
    .retry 1 (.lookup true false)]

/-- The second payment is returned the transfer of the first. -/
theorem key_of_other_amount :
    ¬((∀ s ∈ Runs.visited (step Sha256.hex) start voucherTwice, s.Idempotent) ∧
      Runs.AllSteps (step Sha256.hex) (fun s act => s.CreatesKeyless
        (s.step Sha256.hex act)) start voucherTwice) := by
  rintro ⟨hidempotent, -⟩
  have hfinal : (Runs.final (step Sha256.hex) start voucherTwice).calls 1 =
        .returned (voucher 90000) (.transfer ((voucher 50000).txID Sha256.hex 1000)) ∧
      ∀ t ∈ (Runs.final (step Sha256.hex) start voucherTwice).ledger.transfers, t.amount ≠ 90000 := by
    decide +kernel
  obtain ⟨t, ht, -, -, -, hamount⟩ := (hidempotent _ (Runs.final_mem_visited ..)).own 1 _ _ hfinal.1
  exact hfinal.2 t ht hamount

end GotvProcess

end Inec
