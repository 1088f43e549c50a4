import Inec.Gotv.Balances
import Inec.Gotv.Requests
import Inec.Lib.Sha256

/-!
# Parties of the GOTV ledger

handleLedgerTransfer takes the accounts it is given, and EnsureAccount leaves an account that exists with its
owner, so nothing keeps a request to the accounts of its own party. Where the transfers that a request creates
or posts are between accounts of its party (`WithinParty`), the accounts of the others are left alone, and every
party reconciles: the two accounts of a transfer have one owner (`SameOwner`).
-/

namespace Inec

namespace GOTVLedger

variable {s after : GOTVLedger}

def owner? (s : GOTVLedger) (id : String) : Option Int := (s.account? id).map (·.partyId)

/-- The account is the party's, if it is there. -/
def ownedBy (s : GOTVLedger) (partyId : Int) (id : String) : Bool := (s.owner? id).all (· == partyId)

/-! ### Owners -/

theorem owner?_eq_find? (s : GOTVLedger) (id : String) :
    s.owner? id = ((s.accounts.map fun a => (a.id, a.partyId)).find? fun p => p.1 == id).map Prod.snd := by
  rw [owner?, account?, List.find?_map, Option.map_map]
  rfl

theorem owner?_of_mem {a : GotvAccount} (h : a ∈ s.accounts) : s.owner? a.id = some a.partyId := by
  rw [owner?, account?_eq_some.mpr ⟨h, rfl⟩]
  rfl

theorem eq_of_ownedBy {partyId owner : Int} {id : String} (h : s.ownedBy partyId id = true)
    (howner : s.owner? id = some owner) :
    owner = partyId := by
  rw [ownedBy, howner, Option.all_some, beq_iff_eq] at h
  exact h

theorem exists_owner? {id : String} (h : id ∈ s.accounts.map (·.id)) : ∃ owner, s.owner? id = some owner := by
  obtain ⟨a, ha, rfl⟩ := List.mem_map.mp h
  exact ⟨a.partyId, owner?_of_mem ha⟩

theorem Books.owner? {delta : String → GotvSide → GotvStatus → Int} (h : s.Books after delta) (id : String) :
    after.owner? id = s.owner? id := by
  rw [owner?_eq_find?, h.owners, owner?_eq_find?]

theorem owner?_ensureAccount (s : GOTVLedger) (new : String) (partyId : Int) (accountType : String) {id : String}
    (h : id ∈ s.accounts.map (·.id)) : (s.ensureAccount new partyId accountType).owner? id = s.owner? id := by
  rw [ensureAccount]
  split
  case isTrue => rfl
  case isFalse =>
    obtain ⟨a, ha, rfl⟩ := List.mem_map.mp h
    rw [owner?_of_mem ha]
    exact owner?_of_mem (s := { s with accounts := s.accounts ++ [_], accountIds := _, references := _ })
      (List.mem_append_left _ ha)

/-! ### Transfers between accounts of one owner -/

def SameOwner (s : GOTVLedger) : Prop := ∀ t ∈ s.transfers, s.owner? t.debitAccountId = s.owner? t.creditAccountId

theorem SameOwner.of_same (hs : s.SameOwner) (htransfers : after.transfers = s.transfers)
    (howner : ∀ id ∈ s.accounts.map (·.id), after.owner? id = s.owner? id) : after.SameOwner := by
  intro t ht
  rw [htransfers] at ht
  rw [howner t.debitAccountId (account_mem ht .debit), howner t.creditAccountId (account_mem ht .credit)]
  exact hs t ht

theorem SameOwner.created (hs : s.SameOwner) {t : GotvTransfer} (htransfers : after.transfers = s.transfers ++ [t])
    (hbooks : s.Books after t.on) {partyId : Int}
    (howned : ∀ side, s.ownedBy partyId (t.account side) = true) : after.SameOwner := by
  intro t' ht'
  have hthere := account_mem ht'
  rw [htransfers] at ht'
  rw [hbooks.owner?, hbooks.owner?]
  rcases List.mem_append.mp ht' with hold | hnew
  · exact hs t' hold
  · obtain rfl := List.mem_singleton.mp hnew
    have howner : ∀ side, s.owner? (t'.account side) = some partyId := by
      intro side
      obtain ⟨owner, howner⟩ := exists_owner? (hthere side)
      rw [hbooks.owner?] at howner
      rw [howner, eq_of_ownedBy (howned side) howner]
    exact (howner .debit).trans (howner .credit).symm

theorem SameOwner.moves (hs : s.SameOwner) {t : GotvTransfer} {status : GotvStatus}
    (h : s.Moves after t status) : after.SameOwner := by
  intro t' ht'
  rw [h.transfers] at ht'
  rw [h.books.owner?, h.books.owner?]
  rcases Rows.mem_update.mp ht' with ⟨t₀, ht₀, -, rfl⟩ | ⟨ht₀, -⟩
  · exact hs t₀ ht₀
  · exact hs t' ht₀

/-- Each of its transfers is on a debit and on a credit column of one party. -/
theorem reconcile_balanced (hkept : s.Kept) (howner : s.SameOwner) (partyId : Int) :
    (s.Reconcile partyId).balanced = true := by
  have hdebits := hkept.sum_filter (fun a => a.partyId == partyId) .debit .posted
  have hcredits := hkept.sum_filter (fun a => a.partyId == partyId) .credit .posted
  have hsame : ∀ t ∈ s.transfers, (s.account? t.debitAccountId).any (fun a => a.partyId == partyId) =
      (s.account? t.creditAccountId).any fun a => a.partyId == partyId := by
    intro t ht
    have h := congrArg (·.any (· == partyId)) (howner t ht)
    simp only [GOTVLedger.owner?, Option.any_map] at h
    exact h
  show (((s.accountsOf partyId).map (·.balance .debit .posted)).sum ==
      ((s.accountsOf partyId).map (·.balance .credit .posted)).sum) = true
  rw [beq_iff_eq, accountsOf, hdebits, hcredits]
  congr 1
  apply List.map_congr_left
  intro t ht
  rw [GotvTransfer.account, GotvTransfer.account, hsame t ht]

end GOTVLedger

namespace GotvService

open GOTVLedger

variable {sha256Hex : String → String} {s : GotvService}

/-- The step of a party's request leaves every column of the accounts of others as it is. -/
def Isolated (sha256Hex : String → String) (s : GotvService) (act : GotvServiceAct) : Prop :=
  ∀ partyId, s.actor act = some partyId → ∀ a ∈ s.ledger.accounts, a.partyId ≠ partyId →
    ∀ side status, (s.step sha256Hex act).ledger.balance a.id side status = s.ledger.balance a.id side status

/-- A transfer that a request may create, since its key is not taken, or that it posts is between accounts of
its own party. -/
def WithinParty (s : GotvService) : GotvServiceAct → Bool
  | .call n (.attempt _ _) =>
      match s.requests n with
      | .calling partyId (.trying req _) =>
          (s.ledger.transferByKey? req.idempotencyKey).isSome ||
            s.ledger.ownedBy partyId req.debitAccount && s.ledger.ownedBy partyId req.creditAccount
      | _ => true
  | .post n _ =>
      match s.requests n with
      | .posting partyId _ txID =>
          (s.ledger.transfer? txID).all fun t =>
            t.status != .pending || s.ledger.ownedBy partyId t.debitAccountId &&
              s.ledger.ownedBy partyId t.creditAccountId
      | _ => true
  | _ => true

theorem ownedBy_of_attempt {n : Nat} {nanos : Int} {tx : GotvTx} {partyId : Int} {req : GotvRequest} {attempt : Nat}
    (h : s.WithinParty (.call n (.attempt nanos tx)) = true)
    (hphase : s.requests n = .calling partyId (.trying req attempt))
    (hkey : s.ledger.transferByKey? req.idempotencyKey = none) (side : GotvSide) :
    s.ledger.ownedBy partyId (req.account side) = true := by
  rw [WithinParty, hphase] at h
  simp only [hkey, Option.isSome_none, Bool.false_or, Bool.and_eq_true] at h
  cases side with
  | debit => exact h.1
  | credit => exact h.2

theorem ownedBy_of_post {n : Nat} {tx : GotvTx} {partyId : Int} {req : GotvRequest} {txID : String}
    {t : GotvTransfer} (h : s.WithinParty (.post n tx) = true) (hphase : s.requests n = .posting partyId req txID)
    (hfound : s.ledger.transfer? txID = some t) (hpending : t.status = .pending) (side : GotvSide) :
    s.ledger.ownedBy partyId (t.account side) = true := by
  rw [WithinParty, hphase] at h
  simp only [hfound, Option.all_some, hpending, bne_self_eq_false, Bool.false_or, Bool.and_eq_true] at h
  cases side with
  | debit => exact h.1
  | credit => exact h.2

/-! ### What a step does to the ledger -/

/-- A step creates a transfer of its request, posts a transfer, or leaves the transfers and the columns alone;
accounts stay with their owners. -/
theorem step_ledger (sha256Hex : String → String) (s : GotvService) (act : GotvServiceAct) :
    ((s.step sha256Hex act).ledger.transfers = s.ledger.transfers ∧
      (∀ id side status, (s.step sha256Hex act).ledger.balance id side status = s.ledger.balance id side status) ∧
      ∀ id ∈ s.ledger.accounts.map (·.id), (s.step sha256Hex act).ledger.owner? id = s.ledger.owner? id) ∨
    (∃ n nanos tx partyId req attempt txID, act = .call n (.attempt nanos tx) ∧ s.requests n =
      .calling partyId (.trying req attempt) ∧ (s.step sha256Hex act).ledger.transfers = s.ledger.transfers ++
        [req.transfer txID] ∧
      s.ledger.Books (s.step sha256Hex act).ledger (req.transfer txID).on) ∨
    ∃ n tx partyId req txID t, act = .post n tx ∧ s.requests n = .posting partyId req txID ∧
      s.ledger.transfer? txID = some t ∧ t.status = .pending ∧
        s.ledger.Moves (s.step sha256Hex act).ledger t .posted := by
  have hensured : ∀ works id partyId accountType,
    ((s.ensured works id partyId accountType).transfers = s.ledger.transfers ∧
      (∀ id' side status, (s.ensured works id partyId accountType).balance id' side status =
        s.ledger.balance id' side status) ∧
      ∀ id' ∈ s.ledger.accounts.map (·.id), (s.ensured works id partyId accountType).owner? id' =
        s.ledger.owner? id') := by
    intro works id partyId accountType
    cases works with
    | false => exact ⟨rfl, fun _ _ _ => rfl, fun _ _ => rfl⟩
    | true =>
        obtain ⟨htransfers, hbalance⟩ := s.ledger.ensureAccount_spec id partyId accountType
        exact ⟨htransfers, hbalance, fun _ h => s.ledger.owner?_ensureAccount id partyId accountType h⟩
  cases act with
  | setup partyId suffix works => exact .inl (hensured ..)
  | transfer n partyId body =>
      rw [step]
      split <;> exact .inl ⟨rfl, fun _ _ _ => rfl, fun _ _ => rfl⟩
  | ensure n works =>
      rw [step]
      split
      · exact .inl (hensured ..)
      · exact .inl (hensured ..)
      · exact .inl ⟨rfl, fun _ _ _ => rfl, fun _ _ => rfl⟩
  | call n act =>
      rw [step]
      split
      case h_1 partyId phase hphase =>
        obtain h | ⟨req, attempt, nanos, tx, rfl, rfl, hcreated⟩ := s.ledger.retry_spec sha256Hex act phase
        · dsimp only
          rw [h]
          exact .inl ⟨rfl, fun _ _ _ => rfl, fun _ _ => rfl⟩
        · exact .inr (.inl ⟨n, nanos, tx, partyId, req, attempt, _, rfl, hphase, hcreated⟩)
      case h_2 => exact .inl ⟨rfl, fun _ _ _ => rfl, fun _ _ => rfl⟩
  | post n tx =>
      rw [step]
      split
      case h_1 partyId req txID hphase =>
        obtain h | ⟨t, hfound, hpending, hmoves⟩ := s.ledger.PostTransfer_spec tx txID
        · dsimp only
          rw [h]
          exact .inl ⟨rfl, fun _ _ _ => rfl, fun _ _ => rfl⟩
        · exact .inr (.inr ⟨n, tx, partyId, req, txID, t, rfl, hphase, hfound, hpending, hmoves⟩)
      case h_2 => exact .inl ⟨rfl, fun _ _ _ => rfl, fun _ _ => rfl⟩

theorem on_of_ne {t : GotvTransfer} {id : String} (h : ∀ side, t.account side ≠ id) (side : GotvSide)
    (status : GotvStatus) :
    t.on id side status = 0 := by
  rw [GotvTransfer.on, if_neg]
  rintro ⟨hside, -⟩
  exact h side hside

/-- The accounts of a party's own transfer are no one else's. -/
theorem account_ne {ledger : GOTVLedger} {partyId : Int} {t : GotvTransfer}
    (howned : ∀ side, ledger.ownedBy partyId (t.account side) = true) {a : GotvAccount}
    (ha : a ∈ ledger.accounts) (hother : a.partyId ≠ partyId) (side : GotvSide) : t.account side ≠ a.id := by
  intro heq
  exact hother (eq_of_ownedBy (howned side) (heq ▸ owner?_of_mem ha))

theorem isolated_step (s : GotvService) (act : GotvServiceAct) (h : s.WithinParty act = true) :
    s.Isolated sha256Hex act := by
  intro partyId hactor a ha hother side status
  obtain ⟨-, hbalance, -⟩ | ⟨n, nanos, tx, partyId', req, attempt, txID, rfl, hphase, htransfers, hbooks⟩ |
    ⟨n, tx, partyId', req, txID, t, rfl, hphase, hfound, hpending, hmoves⟩ := step_ledger sha256Hex s act
  · exact hbalance a.id side status
  · rw [actor, hphase] at hactor
    obtain rfl := Option.some.inj hactor
    have howned : ∀ side, s.ledger.ownedBy partyId' ((req.transfer txID).account side) = true := by
      intro side
      rw [GotvRequest.account_transfer]
      exact ownedBy_of_attempt h hphase (key_free htransfers) side
    rw [hbooks.balance, on_of_ne (account_ne howned ha hother), Int.add_zero]
  · rw [actor, hphase] at hactor
    obtain rfl := Option.some.inj hactor
    have hne := account_ne (ownedBy_of_post h hphase hfound hpending) ha hother
    have hposted : GotvTransfer.on { t with status := .posted } a.id side status = 0 := by
      apply on_of_ne
      intro side
      rw [GotvTransfer.account_status]
      exact hne side
    rw [hmoves.books.balance, hposted, on_of_ne hne, Int.sub_zero, Int.add_zero]

/-- The columns are those of the transfers, and the two accounts of a transfer have one owner. -/
def Separate (s : GotvService) : Prop := s.ledger.Kept ∧ s.ledger.SameOwner

theorem separate_step (s : GotvService) (act : GotvServiceAct) (hs : s.Separate) (h : s.WithinParty act = true) :
    (s.step sha256Hex act).Separate := by
  obtain ⟨hkept, howner⟩ := hs
  obtain ⟨htransfers, hbalance, howners⟩ | ⟨n, nanos, tx, partyId, req, attempt, txID, rfl, hphase,
    htransfers, hbooks⟩ |
    ⟨n, tx, partyId, req, txID, t, -, -, hfound, -, hmoves⟩ := step_ledger sha256Hex s act
  · exact ⟨hkept.of_same htransfers hbalance, howner.of_same htransfers howners⟩
  · have howned : ∀ side, s.ledger.ownedBy partyId ((req.transfer txID).account side) = true := by
      intro side
      rw [GotvRequest.account_transfer]
      exact ownedBy_of_attempt h hphase (key_free htransfers) side
    exact ⟨hkept.created htransfers hbooks, howner.created htransfers hbooks howned⟩
  · exact ⟨hkept.moves (transfer?_eq_some.mp hfound).1 hmoves, howner.moves hmoves⟩

/-- Requests that keep to the accounts of their party leave those of others alone, and every party reconciles. -/
theorem isolated_of_withinParty (sha256Hex : String → String) (acts : List GotvServiceAct)
    (h : Runs.AllSteps (step sha256Hex) (fun s act => s.WithinParty act = true) start acts) :
    Runs.AllSteps (step sha256Hex) (Isolated sha256Hex) start acts ∧
      ∀ s ∈ Runs.visited (step sha256Hex) start acts, ∀ partyId, (s.ledger.Reconcile partyId).balanced = true := by
  have hstart : start.Separate := ⟨fun _ _ _ => rfl, fun _ ht => (nomatch ht)⟩
  have hkeep : ∀ s act, Separate s → s.WithinParty act = true → (s.step sha256Hex act).Separate :=
    fun s act => separate_step s act
  constructor
  · exact h.imp_of_inv hkeep (fun s act _ => isolated_step s act) hstart
  · intro s hs partyId
    obtain ⟨hkept, howner⟩ := Runs.forall_visited hkeep hstart h s hs
    exact reconcile_balanced hkept howner partyId

/-- A transaction in which everything works. -/
def workingTx : GotvTx := ⟨fun _ => true, .done⟩

/-- The steps of one request. -/
def requestSteps (n : Nat) (partyId : Int) (req : GotvRequest) (nanos : Int) : List GotvServiceAct :=
  [.transfer n partyId (some req), .ensure n true, .ensure n true, .call n (.attempt nanos workingTx),
    .post n workingTx]

/-- Two parties, each between its own accounts. -/
def ownRequests : List GotvServiceAct :=
  [.setup 1 "operations" true, .setup 1 "transport" true, .setup 2 "operations" true, .setup 2 "campaigns" true] ++
    requestSteps 0 1 ⟨"gotv-party-1-operations", "gotv-party-1-transport", 50000, 200, "ride", "ride-1"⟩ 1000 ++
    requestSteps 1 2 ⟨"gotv-party-2-operations", "gotv-party-2-campaigns", 250000, 100, "posters", "spend-1"⟩ 2000

theorem isolated_of_ownRequests :
    Runs.AllSteps (step Sha256.hex) (Isolated Sha256.hex) start ownRequests ∧
      ∀ s ∈ Runs.visited (step Sha256.hex) start ownRequests, ∀ partyId,
        (s.ledger.Reconcile partyId).balanced = true :=
  isolated_of_withinParty Sha256.hex ownRequests (by decide +kernel)

/-- The second party debits the first. -/
def foreignDebit : List GotvServiceAct :=
  [.setup 1 "operations" true, .setup 2 "operations" true] ++
    requestSteps 0 2 ⟨"gotv-party-1-operations", "gotv-party-2-operations", 50000, 100, "posters", "spend-1"⟩ 1000

/-- The account of the first party is debited, and in the end it does not reconcile. -/
theorem foreign_account_debited :
    ¬Runs.AllSteps (step Sha256.hex) (Isolated Sha256.hex) start foreignDebit ∧
    ¬∀ s ∈ Runs.visited (step Sha256.hex) start foreignDebit, ∀ partyId,
      (s.ledger.Reconcile partyId).balanced = true := by
  have hrun : let before := Runs.final (step Sha256.hex) start (foreignDebit.take 5)
      let account : GotvAccount := ⟨"gotv-party-1-operations", 1, "operations", 0, 0, 0, 0⟩
      before.actor (foreignDebit.get ⟨5, by decide⟩) = some 2 ∧ account ∈ before.ledger.accounts ∧
      (before.step Sha256.hex (foreignDebit.get ⟨5, by decide⟩)).ledger.balance account.id .debit .pending ≠
        before.ledger.balance account.id .debit .pending ∧
      ((Runs.final (step Sha256.hex) start foreignDebit).ledger.Reconcile 1).balanced = false := by
    decide +kernel
  obtain ⟨hactor, haccount, hbalance, hunbalanced⟩ := hrun
  constructor
  · intro hisolated
    have h := hisolated.getElem 5 (by decide)
    exact hbalance (h 2 hactor _ haccount (by decide) .debit .pending)
  · intro hbalanced
    have h := hbalanced _ (Runs.final_mem_visited ..) 1
    rw [hunbalanced] at h
    cases h

end GotvService

end Inec
