import Mathlib.Data.List.Basic

/-!
# The ledger and its client

TigerBeetle as far as the settlements use it, from its documentation: accounts and transfers are
created under ids their creator chooses, an id that is taken is answered with `exists` and changes
nothing, and a pending transfer is resolved at most once, by a transfer that posts it or one that voids
it. Over it the native client of mw_tigerbeetle_native.go, which reads every result in the reply as an
error.

Ids are kept as the texts the code forms; `stringToUint128` hashes them to 128 bits.
-/

namespace Inec

structure TBAccount where
  id : String
  ledger : Int
  code : Int
  deriving DecidableEq, Repr

/-- What a transfer does: reserve an amount, or resolve a reservation. -/
inductive TransferFlag
  | pending
  | postPending (pendingId : String)
  | voidPending (pendingId : String)
  deriving DecidableEq, Repr

structure LedgerTransfer where
  id : String
  flag : TransferFlag
  debitAccountId : String
  creditAccountId : String
  amount : Int
  ledger : Int
  code : Int
  deriving DecidableEq, Repr

/-- The server. What it takes an amount of 0 in a posting transfer to mean changed with release 0.16: the
whole pending amount before it, nothing since. -/
structure Ledger where
  zeroPostsPending : Bool
  accounts : List TBAccount
  transfers : List LedgerTransfer
  deriving DecidableEq, Repr

/-- The result codes of the server, `ok` standing for an empty list of results. -/
inductive LedgerResult
  | ok
  | exists
  | existsWithDifferentFields
  | debitAccountNotFound
  | creditAccountNotFound
  | accountsMustHaveTheSameLedger
  | transferMustHaveTheSameLedgerAsAccounts
  | pendingTransferNotFound
  | pendingTransferAlreadyPosted
  | pendingTransferAlreadyVoided
  deriving DecidableEq, Repr

def LedgerResult.text : LedgerResult → String
  | .ok => "TransferOK"
  | .exists => "TransferExists"
  | .existsWithDifferentFields => "TransferExistsWithDifferentFields"
  | .debitAccountNotFound => "TransferDebitAccountNotFound"
  | .creditAccountNotFound => "TransferCreditAccountNotFound"
  | .accountsMustHaveTheSameLedger => "TransferAccountsMustHaveTheSameLedger"
  | .transferMustHaveTheSameLedgerAsAccounts => "TransferTransferMustHaveTheSameLedgerAsAccounts"
  | .pendingTransferNotFound => "TransferPendingTransferNotFound"
  | .pendingTransferAlreadyPosted => "TransferPendingTransferAlreadyPosted"
  | .pendingTransferAlreadyVoided => "TransferPendingTransferAlreadyVoided"

namespace Ledger

def account? (l : Ledger) (id : String) : Option TBAccount := l.accounts.find? fun a => a.id == id

def transfer? (l : Ledger) (id : String) : Option LedgerTransfer := l.transfers.find? fun t => t.id == id

/-- The transfers that are pending under the id. -/
def HasPending (l : Ledger) (id : String) : Prop := ∃ t ∈ l.transfers, t.id = id ∧ t.flag = .pending

def Posted (l : Ledger) (id : String) : Prop := ∃ t ∈ l.transfers, t.flag = .postPending id

def Voided (l : Ledger) (id : String) : Prop := ∃ t ∈ l.transfers, t.flag = .voidPending id

/-- A pending transfer that nothing has resolved. -/
def LivePending (l : Ledger) (id : String) : Prop := l.HasPending id ∧ ¬ l.Posted id ∧ ¬ l.Voided id

instance (l : Ledger) (id : String) : Decidable (l.HasPending id) :=
  inferInstanceAs (Decidable (∃ t ∈ l.transfers, t.id = id ∧ t.flag = .pending))

instance (l : Ledger) (id : String) : Decidable (l.Posted id) :=
  inferInstanceAs (Decidable (∃ t ∈ l.transfers, t.flag = .postPending id))

instance (l : Ledger) (id : String) : Decidable (l.Voided id) :=
  inferInstanceAs (Decidable (∃ t ∈ l.transfers, t.flag = .voidPending id))

instance (l : Ledger) (id : String) : Decidable (l.LivePending id) :=
  inferInstanceAs (Decidable (l.HasPending id ∧ ¬ l.Posted id ∧ ¬ l.Voided id))

/-- The checks on a transfer whose id is new. -/
def check (l : Ledger) (t : LedgerTransfer) : LedgerResult :=
  match t.flag with
  | .pending =>
      match l.account? t.debitAccountId, l.account? t.creditAccountId with
      | none, _ => .debitAccountNotFound
      | _, none => .creditAccountNotFound
      | some debit, some credit =>
          if debit.ledger ≠ credit.ledger then .accountsMustHaveTheSameLedger
          else if t.ledger ≠ debit.ledger then .transferMustHaveTheSameLedgerAsAccounts
          else .ok
  | .postPending id => resolving id
  | .voidPending id => resolving id
where
  resolving (id : String) : LedgerResult :=
    if l.HasPending id then
      if l.Posted id then .pendingTransferAlreadyPosted
      else if l.Voided id then .pendingTransferAlreadyVoided
      else .ok
    else .pendingTransferNotFound

/-- The transfer as it is stored: a resolving one takes over what it leaves open from the pending one. -/
def completed (l : Ledger) (t : LedgerTransfer) : LedgerTransfer :=
  match t.flag with
  | .pending => t
  | .postPending id => resolved id l.zeroPostsPending
  | .voidPending id => resolved id true
where
  resolved (id : String) (wholeAmount : Bool) : LedgerTransfer :=
    match l.transfer? id with
    | none => t
    | some p =>
        { t with
          debitAccountId := p.debitAccountId
          creditAccountId := p.creditAccountId
          amount := if t.amount = 0 ∧ wholeAmount then p.amount else t.amount
          ledger := p.ledger
          code := p.code }

/-- `create_transfers` with one transfer. -/
def createTransfers (l : Ledger) (t : LedgerTransfer) : LedgerResult × Ledger :=
  match l.transfer? t.id with
  | some t' => (if t' = l.completed t then .exists else .existsWithDifferentFields, l)
  | none =>
      match l.check t with
      | .ok => (.ok, { l with transfers := l.transfers ++ [l.completed t] })
      | result => (result, l)

/-- `create_accounts` with one account. -/
def createAccounts (l : Ledger) (a : TBAccount) : LedgerResult × Ledger :=
  match l.account? a.id with
  | some a' => (if a' = a then .exists else .existsWithDifferentFields, l)
  | none => (.ok, { l with accounts := l.accounts ++ [a] })

end Ledger

/-! ### The native client -/

/-- The transfers of one call, and whether the call is answered with an error. -/
def nativeResult (label : String) (outcome : LedgerResult × Ledger) : Except String Unit × Ledger :=
  (if outcome.1 = .ok then .ok () else .error (label ++ outcome.1.text), outcome.2)

/-- `tbNativeClient.CreateTransfer`, once account ids and amount have passed its checks. -/
def TBClient.createTransfer (l : Ledger) (t : LedgerTransfer) : Except String Unit × Ledger :=
  nativeResult "create transfer failed: " (l.createTransfers t)

/-- `tbNativeClient.PostTransfer`, which leaves the amount at 0. -/
def TBClient.postTransfer (l : Ledger) (transferId : String) : Except String Unit × Ledger :=
  nativeResult "post transfer failed: "
    (l.createTransfers ⟨transferId ++ "-post", .postPending transferId, "", "", 0, 0, 0⟩)

/-- `tbNativeClient.VoidTransfer`. -/
def TBClient.voidTransfer (l : Ledger) (transferId : String) : Except String Unit × Ledger :=
  nativeResult "void transfer failed: "
    (l.createTransfers ⟨transferId ++ "-void", .voidPending transferId, "", "", 0, 0, 0⟩)

/-- `tbNativeClient.CreateAccount`. -/
def TBClient.createAccount (l : Ledger) (a : TBAccount) : Except String Unit × Ledger :=
  nativeResult "create account failed: " (l.createAccounts a)

/-! ### What a call can do -/

namespace Ledger

variable {l : Ledger} {t : LedgerTransfer}

@[simp] theorem completed_id (l : Ledger) (t : LedgerTransfer) : (l.completed t).id = t.id := by
  unfold completed
  split
  · rfl
  all_goals
    unfold completed.resolved
    split <;> rfl

@[simp] theorem completed_flag (l : Ledger) (t : LedgerTransfer) : (l.completed t).flag = t.flag := by
  unfold completed
  split
  · rfl
  all_goals
    unfold completed.resolved
    split <;> rfl

/-- A transfer is appended under a new id when its checks pass, or the ledger answers with a reason. -/
theorem createTransfers_cases (l : Ledger) (t : LedgerTransfer) :
    (l.createTransfers t = (.ok, { l with transfers := l.transfers ++ [l.completed t] }) ∧
        l.transfer? t.id = none ∧ l.check t = .ok) ∨
      ∃ result, l.createTransfers t = (result, l) ∧ result ≠ .ok := by
  unfold createTransfers
  cases hfound : l.transfer? t.id with
  | some t' =>
      refine Or.inr ⟨_, rfl, ?_⟩
      split <;> simp
  | none =>
      cases hcheck : l.check t with
      | ok => exact Or.inl ⟨rfl, rfl, rfl⟩
      | _ => exact Or.inr ⟨_, rfl, by simp⟩

/-! ### Accounts -/

variable {a a' : TBAccount} {id : String}

@[simp] theorem createAccounts_transfers (l : Ledger) (a : TBAccount) :
    (l.createAccounts a).2.transfers = l.transfers := by
  unfold createAccounts
  split <;> rfl

theorem createAccounts_of_found (h : l.account? a.id = some a') : (l.createAccounts a).2 = l := by
  rw [createAccounts, h]

theorem createAccounts_of_missing (h : l.account? a.id = none) :
    l.createAccounts a = (.ok, { l with accounts := l.accounts ++ [a] }) := by
  rw [createAccounts, h]

/-- An account that is there stays. -/
theorem account?_createAccounts_of_some (h : l.account? id = some a') :
    (l.createAccounts a).2.account? id = some a' := by
  cases hfound : l.account? a.id with
  | some b => rwa [createAccounts_of_found hfound]
  | none =>
      rw [createAccounts_of_missing hfound]
      simp only [account?, List.find?_append]
      rw [show l.accounts.find? _ = some a' from h]
      rfl

theorem account?_createAccounts_self (l : Ledger) (a : TBAccount) :
    ∃ a', (l.createAccounts a).2.account? a.id = some a' := by
  cases hfound : l.account? a.id with
  | some b => exact ⟨b, account?_createAccounts_of_some hfound⟩
  | none =>
      rw [createAccounts_of_missing hfound]
      refine ⟨a, ?_⟩
      simp only [account?, List.find?_append]
      rw [show l.accounts.find? _ = none from hfound]
      simp

/-- An account found after a creation was there before or is the one created. -/
theorem account?_createAccounts_cases (h : (l.createAccounts a).2.account? id = some a') :
    l.account? id = some a' ∨ a' = a := by
  cases hfound : l.account? a.id with
  | some b =>
      rw [createAccounts_of_found hfound] at h
      exact Or.inl h
  | none =>
      rw [createAccounts_of_missing hfound] at h
      simp only [account?, List.find?_append, Option.or_eq_some_iff] at h
      rcases h with hold | ⟨-, hnew⟩
      · exact Or.inl hold
      · exact Or.inr (List.mem_singleton.mp (List.mem_of_find?_eq_some hnew))

/-- Creating an account again changes nothing, whatever was created in between. -/
theorem createAccounts_again (l : Ledger) (a : TBAccount) :
    ((l.createAccounts a).2.createAccounts a).2 = (l.createAccounts a).2 := by
  obtain ⟨a', h⟩ := account?_createAccounts_self l a
  exact createAccounts_of_found h

end Ledger

end Inec
