import Mathlib.Algebra.Order.BigOperators.Group.List
import Mathlib.Algebra.Order.Ring.Int
import Inec.Evidence.Record
import Inec.Lib.Runs
import Inec.Lib.Sums

/-!
# The ledger in memory

`inMemoryTigerBeetleClient` of mw_tigerbeetle.go, the ledger of test and development environments. An operation
takes copies of the two accounts of a transfer, changes one field of each and writes both copies back, the
credited one last. Where the two accounts are one, the write of the credited copy takes the debit back. Amounts
and balances are 64-bit integers that wrap around.

What the accounts hold can be read off the transfers at any time (`Booked`): the credits are the sum of the
transfers that credit the account, the debits leave out those that also credit it, and both are taken modulo the
word.
-/

namespace Inec

/-- The value of an `int64` after arithmetic. -/
def wrap64 (x : Int) : Int := Int.bmod x (2 ^ 64)

structure MemoryAccount where
  id : String
  ledger : Int
  code : Int
  creditsPosted : Int
  debitsPosted : Int
  deriving DecidableEq, Repr

inductive MemoryStatus
  | pending
  | posted
  | voided
  deriving DecidableEq, Repr

structure MemoryTransfer where
  id : String
  debitAccountId : String
  creditAccountId : String
  amount : Int
  ledger : Int
  code : Int
  status : MemoryStatus
  deriving DecidableEq, Repr

def MemoryTransfer.trimmed (t : MemoryTransfer) : MemoryTransfer :=
  { t with
    id := trimSpace t.id
    debitAccountId := trimSpace t.debitAccountId
    creditAccountId := trimSpace t.creditAccountId }

inductive MemoryError
  | cancelled
  | accountIdRequired
  | accountNotPositive
  | accountExists (id : String)
  | transferFieldsRequired
  | transferNotPositive
  | accountsMustExist
  | ledgerMismatch
  | transferNotFound (id : String)
  | transferVoided (id : String)
  deriving DecidableEq, Repr

def MemoryError.text : MemoryError → String
  | cancelled => "context canceled"
  | accountIdRequired => "TigerBeetle account ID is required"
  | accountNotPositive => "TigerBeetle account ledger and code must be positive"
  | accountExists id => "TigerBeetle account " ++ id.quote ++ " already exists"
  | transferFieldsRequired => "TigerBeetle transfer ID, debit account, and credit account are required"
  | transferNotPositive => "TigerBeetle transfer amount, ledger, and code must be positive"
  | accountsMustExist => "TigerBeetle transfer accounts must exist"
  | ledgerMismatch => "TigerBeetle transfer ledger does not match account ledger"
  | transferNotFound id => "TigerBeetle transfer " ++ id.quote ++ " not found"
  | transferVoided id => "TigerBeetle transfer " ++ id.quote ++ " is voided"

structure MemoryLedger where
  accounts : List MemoryAccount
  transfers : List MemoryTransfer
  deriving DecidableEq, Repr

namespace MemoryLedger

def empty : MemoryLedger := ⟨[], []⟩

variable (s : MemoryLedger)

def account? (id : String) : Option MemoryAccount := s.accounts.find? fun a => a.id == id

def transfer? (id : String) : Option MemoryTransfer := s.transfers.find? fun t => t.id == id

/-- Reading a key that is not there gives the zero value. -/
def account (id : String) : MemoryAccount := (s.account? id).getD ⟨"", 0, 0, 0, 0⟩

def putAccount (a : MemoryAccount) : MemoryLedger :=
  match s.account? a.id with
  | some _ => { s with accounts := Rows.update (·.id) a.id (fun _ => a) s.accounts }
  | none => { s with accounts := s.accounts ++ [a] }

def putTransfer (t : MemoryTransfer) : MemoryLedger :=
  match s.transfer? t.id with
  | some _ => { s with transfers := Rows.update (·.id) t.id (fun _ => t) s.transfers }
  | none => { s with transfers := s.transfers ++ [t] }

/-- The block that the three operations share: both copies are taken before either is written. -/
def book (debitAccountId creditAccountId : String) (amount : Int) : MemoryLedger :=
  let debit := s.account debitAccountId
  let credit := s.account creditAccountId
  (s.putAccount { debit with debitsPosted := wrap64 (debit.debitsPosted + amount) }).putAccount
    { credit with creditsPosted := wrap64 (credit.creditsPosted + amount) }

def createAccount (cancelled : Bool) (account : MemoryAccount) : MemoryLedger × Except MemoryError Unit :=
  let account := { account with id := trimSpace account.id }
  if cancelled then (s, .error .cancelled)
  else if account.id = "" then (s, .error .accountIdRequired)
  else if account.ledger ≤ 0 ∨ account.code ≤ 0 then (s, .error .accountNotPositive)
  else if (s.account? account.id).isSome then (s, .error (.accountExists account.id))
  else (s.putAccount account, .ok ())

def createTransfer (cancelled : Bool) (request : MemoryTransfer) :
    MemoryLedger × Except MemoryError MemoryTransfer :=
  let transfer := request.trimmed
  if cancelled then (s, .error .cancelled)
  else if transfer.id = "" ∨ transfer.debitAccountId = "" ∨ transfer.creditAccountId = "" then
    (s, .error .transferFieldsRequired)
  else if transfer.amount ≤ 0 ∨ transfer.ledger ≤ 0 ∨ transfer.code ≤ 0 then (s, .error .transferNotPositive)
  else
    match s.transfer? transfer.id with
    | some existing => (s, .ok existing)
    | none =>
        match s.account? transfer.debitAccountId, s.account? transfer.creditAccountId with
        | some debit, some credit =>
            if debit.ledger ≠ transfer.ledger ∨ credit.ledger ≠ transfer.ledger then (s, .error .ledgerMismatch)
            else
              ((s.book transfer.debitAccountId transfer.creditAccountId transfer.amount).putTransfer
                  { transfer with status := .posted },
                .ok { transfer with status := .posted })
        | _, _ => (s, .error .accountsMustExist)

def voidTransfer (cancelled : Bool) (transferId : String) : MemoryLedger × Except MemoryError Unit :=
  if cancelled then (s, .error .cancelled)
  else
    match s.transfer? (trimSpace transferId) with
    | none => (s, .error (.transferNotFound transferId))
    | some transfer =>
        if transfer.status = .voided then (s, .ok ())
        else
          let s :=
            if transfer.status = .posted then s.book transfer.debitAccountId transfer.creditAccountId
              (-transfer.amount) else s
          (s.putTransfer { transfer with status := .voided }, .ok ())

def postTransfer (cancelled : Bool) (transferId : String) : MemoryLedger × Except MemoryError Unit :=
  if cancelled then (s, .error .cancelled)
  else
    match s.transfer? (trimSpace transferId) with
    | none => (s, .error (.transferNotFound transferId))
    | some transfer =>
        if transfer.status = .voided then (s, .error (.transferVoided transferId))
        else if transfer.status ≠ .posted then
          ((s.book transfer.debitAccountId transfer.creditAccountId transfer.amount).putTransfer
            { transfer with status := .posted }, .ok ())
        else (s, .ok ())

end MemoryLedger

/-- The operations; an account is created with zero balances. -/
inductive MemoryAct
  | createAccount (cancelled : Bool) (id : String) (ledger code : Int)
  | createTransfer (cancelled : Bool) (transfer : MemoryTransfer)
  | voidTransfer (cancelled : Bool) (transferId : String)
  | postTransfer (cancelled : Bool) (transferId : String)

namespace MemoryLedger

variable (s : MemoryLedger)

def step (s : MemoryLedger) : MemoryAct → MemoryLedger
  | .createAccount cancelled id ledger code => (s.createAccount cancelled ⟨id, ledger, code, 0, 0⟩).1
  | .createTransfer cancelled transfer => (s.createTransfer cancelled transfer).1
  | .voidTransfer cancelled transferId => (s.voidTransfer cancelled transferId).1
  | .postTransfer cancelled transferId => (s.postTransfer cancelled transferId).1

/-- The sum of the amounts of the transfers in question, the voided ones left out. -/
def sumOf (p : MemoryTransfer → Bool) (transfers : List MemoryTransfer) : Int :=
  (transfers.map fun t => if p t && t.status ≠ .voided then t.amount else 0).sum

def debitsOf (id : String) : Int := sumOf (fun t => t.debitAccountId = id) s.transfers

def creditsOf (id : String) : Int := sumOf (fun t => t.creditAccountId = id) s.transfers

end MemoryLedger

/-- The totals agree, and every account holds the sums of its transfers. -/
def DoubleEntry (s : MemoryLedger) : Prop :=
  (s.accounts.map (·.debitsPosted)).sum = (s.accounts.map (·.creditsPosted)).sum ∧
    ∀ a ∈ s.accounts, a.debitsPosted = s.debitsOf a.id ∧ a.creditsPosted = s.creditsOf a.id

/-! ### Sums of transfers -/

namespace MemoryLedger

variable {p q : MemoryTransfer → Bool} {transfers : List MemoryTransfer}

/-- What a transfer adds to a sum. -/
def share (p : MemoryTransfer → Bool) (t : MemoryTransfer) : Int :=
  if p t && t.status ≠ .voided then t.amount else 0

theorem sumOf_append_singleton (p : MemoryTransfer → Bool) (transfers : List MemoryTransfer) (t : MemoryTransfer) :
    sumOf p (transfers ++ [t]) = sumOf p transfers + share p t := by
  rw [sumOf, List.map_append, List.sum_append, List.map_singleton, List.sum_singleton]
  rfl

theorem share_nonneg {t : MemoryTransfer} (h : 0 < t.amount) : 0 ≤ share p t := by
  rw [share]
  split
  · omega
  · exact le_rfl

theorem sumOf_nonneg (h : ∀ t ∈ transfers, 0 < t.amount) : 0 ≤ sumOf p transfers :=
  List.sum_nonneg fun _ hx => by
    obtain ⟨t, ht, rfl⟩ := List.mem_map.mp hx
    exact share_nonneg (h t ht)

theorem sumOf_eq_zero (h : ∀ t ∈ transfers, t.status ≠ .voided → p t = false) : sumOf p transfers = 0 := by
  apply List.sum_eq_zero
  intro x hx
  obtain ⟨t, ht, rfl⟩ := List.mem_map.mp hx
  by_cases hvoided : t.status = .voided
  · simp [hvoided]
  · simp [h t ht hvoided]

theorem share_le_sumOf (h : ∀ t ∈ transfers, 0 < t.amount) {t : MemoryTransfer} (ht : t ∈ transfers) :
    share p t ≤ sumOf p transfers := by
  apply List.single_le_sum
  · intro x hx
    obtain ⟨u, hu, rfl⟩ := List.mem_map.mp hx
    exact share_nonneg (h u hu)
  · exact List.mem_map_of_mem ht

/-- A sum splits along a second condition. -/
theorem sumOf_split (p q : MemoryTransfer → Bool) (transfers : List MemoryTransfer) :
    sumOf p transfers = sumOf (fun t => p t && !q t) transfers + sumOf (fun t => p t && q t) transfers := by
  rw [sumOf, sumOf, sumOf, ← List.sum_map_add]
  congr 1
  apply List.map_congr_left
  intro t _
  cases p t <;> cases q t <;> simp

/-- Every transfer is counted at one account. -/
theorem sum_accounts {accounts : List MemoryAccount} (hids : (accounts.map (·.id)).Nodup)
    {f : MemoryTransfer → String} (hknown : ∀ t ∈ transfers, f t ∈ accounts.map (·.id)) :
    (accounts.map fun a => sumOf (fun t => f t = a.id) transfers).sum = sumOf (fun _ => true) transfers := by
  induction transfers with
  | nil => simp [sumOf]
  | cons t rest ih =>
      rw [List.forall_mem_cons] at hknown
      have hcons : ∀ (p : MemoryTransfer → Bool), sumOf p (t :: rest) = share p t + sumOf p rest := by
        intro p
        rw [sumOf, List.map_cons, List.sum_cons]
        rfl
      have hshare : ∀ a : MemoryAccount, share (fun t => f t = a.id) t = if f t =
          a.id then share (fun _ => true) t else 0 := by
        intro a
        by_cases heq : f t = a.id <;> simp [share, heq]
      simp only [hcons, hshare, List.sum_map_add]
      rw [Sums.sum_map_ite_key hids hknown.1, ih hknown.2]

/-! ### What a booking does to the accounts -/

variable {s : MemoryLedger}

theorem account?_eq_some {id : String} {a : MemoryAccount} (h : s.account? id = some a) :
    a ∈ s.accounts ∧ a.id = id :=
  Rows.find?_key h

theorem exists_account? {id : String} (h : id ∈ s.accounts.map (·.id)) : ∃ a, s.account? id = some a := by
  obtain ⟨a, ha, hid⟩ := List.mem_map.mp h
  rw [← Option.isSome_iff_exists, account?, List.find?_isSome]
  exact ⟨a, ha, by simpa using hid⟩

theorem putAccount_of_known {a : MemoryAccount} (h : a.id ∈ s.accounts.map (·.id)) :
    s.putAccount a = { s with accounts := Rows.update (·.id) a.id (fun _ => a) s.accounts } := by
  obtain ⟨known, hknown⟩ := exists_account? h
  simp only [putAccount, hknown]

/-- One account after a booking. -/
def booked (debitAccountId creditAccountId : String) (amount : Int) (a : MemoryAccount) : MemoryAccount :=
  if a.id = creditAccountId then { a with creditsPosted := wrap64 (a.creditsPosted + amount) }
  else if a.id = debitAccountId then { a with debitsPosted := wrap64 (a.debitsPosted + amount) }
  else a

/-- The copy of the credited account is written last, so an account on both sides is only credited. -/
theorem book_eq (hids : (s.accounts.map (·.id)).Nodup) {debitAccountId creditAccountId : String}
    (hdebit : debitAccountId ∈ s.accounts.map (·.id))
    (hcredit : creditAccountId ∈ s.accounts.map (·.id)) (amount : Int) :
    s.book debitAccountId creditAccountId amount =
      { s with accounts := s.accounts.map (booked debitAccountId creditAccountId amount) } := by
  obtain ⟨debit, hdebitFound⟩ := exists_account? hdebit
  obtain ⟨credit, hcreditFound⟩ := exists_account? hcredit
  obtain ⟨hdebitMem, rfl⟩ := account?_eq_some hdebitFound
  obtain ⟨hcreditMem, rfl⟩ := account?_eq_some hcreditFound
  have hupdated : (Rows.update (·.id) debit.id (fun _ =>
      { debit with debitsPosted := wrap64 (debit.debitsPosted + amount) })
      s.accounts).map (·.id) = s.accounts.map (·.id) :=
    Rows.map_update fun a _ hid => hid.symm
  have hfirst := @putAccount_of_known s { debit with debitsPosted := wrap64 (debit.debitsPosted + amount) } hdebit
  rw [book, account, account, hdebitFound, hcreditFound, Option.getD_some, Option.getD_some, hfirst]
  refine (putAccount_of_known (hupdated ▸ hcredit)).trans ?_
  dsimp only
  congr 1
  rw [Rows.update, Rows.update, List.map_map]
  apply List.map_congr_left
  intro a ha
  have heq : ∀ b ∈ s.accounts, a.id = b.id → a = b := fun b hb hid => Rows.eq_of_key_eq hids ha hb hid
  rw [Function.comp_apply, booked]
  by_cases hc : a.id = credit.id
  · obtain rfl := heq credit hcreditMem hc
    by_cases hd : a.id = debit.id
    · rw [if_pos hd, if_pos hd.symm, if_pos rfl]
    · rw [if_neg hd, if_pos rfl, if_pos rfl]
  · by_cases hd : a.id = debit.id
    · obtain rfl := heq debit hdebitMem hd
      rw [if_pos rfl, if_neg hc, if_neg hc]
    · rw [if_neg hd, if_neg hc, if_neg hc, if_neg hd]

theorem booked_id (debitAccountId creditAccountId : String) (amount : Int) (a : MemoryAccount) :
    (booked debitAccountId creditAccountId amount a).id = a.id := by
  rw [booked]
  split
  · rfl
  split
  · rfl
  · rfl

/-- What an account holds, read off the transfers. -/
structure Holds (transfers : List MemoryTransfer) (a : MemoryAccount) : Prop where
  debits : a.debitsPosted = wrap64 (sumOf (fun t => t.debitAccountId = a.id &&
    !(t.creditAccountId = a.id : Bool)) transfers)
  credits : a.creditsPosted = wrap64 (sumOf (fun t => t.creditAccountId = a.id) transfers)

structure Booked (s : MemoryLedger) : Prop where
  accountIds : (s.accounts.map (·.id)).Nodup
  transferIds : (s.transfers.map (·.id)).Nodup
  known : ∀ t ∈ s.transfers, t.debitAccountId ∈ s.accounts.map (·.id) ∧ t.creditAccountId ∈ s.accounts.map (·.id)
  positive : ∀ t ∈ s.transfers, 0 < t.amount
  settled : ∀ t ∈ s.transfers, t.status ≠ .pending
  holds : ∀ a ∈ s.accounts, Holds s.transfers a

theorem wrap64_add (x y : Int) : wrap64 (wrap64 x + y) = wrap64 (x + y) := Int.bmod_add_bmod

/-- A booking follows the transfers when the sums of its two accounts change by its amount. -/
theorem Holds.booked {transfers transfers' : List MemoryTransfer} {a : MemoryAccount} (h : Holds transfers a)
    {debitAccountId creditAccountId : String} {amount : Int}
    (hsums : ∀ p : String → String → Bool, sumOf (fun t => p t.debitAccountId t.creditAccountId) transfers' =
      sumOf (fun t => p t.debitAccountId t.creditAccountId) transfers +
        if p debitAccountId creditAccountId then amount else 0) :
    Holds transfers' (booked debitAccountId creditAccountId amount a) := by
  have hdebits := hsums fun d c => d = a.id && !(c = a.id : Bool)
  have hcredits := hsums fun _ c => c = a.id
  rw [MemoryLedger.booked]
  split
  case isTrue hc =>
    refine ⟨?_, ?_⟩
    · dsimp only
      rw [hdebits, h.debits]
      simp [hc]
    · dsimp only
      rw [hcredits, h.credits, wrap64_add]
      simp [hc]
  case isFalse hc =>
  have hcredits' : a.creditsPosted = wrap64 (sumOf (fun t => t.creditAccountId = a.id) transfers') := by
    rw [hcredits, h.credits]
    simp [Ne.symm hc]
  split
  case isTrue hd =>
    refine ⟨?_, hcredits'⟩
    dsimp only
    rw [hdebits, h.debits, wrap64_add]
    simp [hd, hd ▸ Ne.symm hc]
  case isFalse hd =>
    refine ⟨?_, hcredits'⟩
    rw [hdebits, h.debits]
    simp [Ne.symm hd]

/-! ### The operations keep the accounts booked -/

/-- A booking and the transfers that account for it. -/
theorem Booked.rebook (h : s.Booked) {transfers : List MemoryTransfer}
    {debitAccountId creditAccountId : String} {amount : Int} (hids : (transfers.map (·.id)).Nodup)
    (htransfers : ∀ t ∈ transfers, (t.debitAccountId ∈ s.accounts.map (·.id) ∧
      t.creditAccountId ∈ s.accounts.map (·.id)) ∧ 0 < t.amount ∧ t.status ≠ .pending)
    (hsums : ∀ p : String → String → Bool, sumOf (fun t => p t.debitAccountId t.creditAccountId) transfers =
      sumOf (fun t => p t.debitAccountId t.creditAccountId) s.transfers +
        if p debitAccountId creditAccountId then amount else 0) :
    Booked ⟨s.accounts.map (MemoryLedger.booked debitAccountId creditAccountId amount), transfers⟩ := by
  have hkeys : (s.accounts.map (MemoryLedger.booked debitAccountId creditAccountId amount)).map (·.id) =
      s.accounts.map (·.id) := by
    rw [List.map_map]
    exact List.map_congr_left fun a _ => booked_id debitAccountId creditAccountId amount a
  refine ⟨hkeys ▸ h.accountIds, hids, ?_, fun t ht => (htransfers t ht).2.1, fun t ht => (htransfers t ht).2.2, ?_⟩
  · intro t ht
    rw [hkeys]
    exact (htransfers t ht).1
  · intro a ha
    obtain ⟨b, hb, rfl⟩ := List.mem_map.mp ha
    exact (h.holds b hb).booked hsums

theorem Booked.createAccount (h : s.Booked) (cancelled : Bool) (id : String) (ledger code : Int) :
    (s.createAccount cancelled ⟨id, ledger, code, 0, 0⟩).1.Booked := by
  rw [MemoryLedger.createAccount]
  split
  · exact h
  split
  · exact h
  split
  · exact h
  split
  case isTrue => exact h
  case isFalse hnew =>
  have hnone : s.account? (trimSpace id) = none := by simpa using hnew
  have hfresh : trimSpace id ∉ s.accounts.map (·.id) := by
    intro hmem
    obtain ⟨a, ha⟩ := exists_account? hmem
    rw [hnone] at ha
    cases ha
  simp only [putAccount, hnone]
  refine ⟨?_, h.transferIds, ?_, h.positive, h.settled, ?_⟩
  · exact Rows.nodup_map_append_singleton h.accountIds hfresh
  · intro t ht
    dsimp only
    rw [List.map_append]
    exact ⟨List.mem_append_left _ (h.known t ht).1, List.mem_append_left _ (h.known t ht).2⟩
  · intro a ha
    rcases List.mem_append.mp ha with ha | ha
    · exact h.holds a ha
    · -- no transfer names the new account
      rw [List.mem_singleton.mp ha]
      have hdebit : ∀ t ∈ s.transfers, t.debitAccountId ≠ trimSpace id :=
        fun t ht heq => hfresh (heq ▸ (h.known t ht).1)
      have hcredit : ∀ t ∈ s.transfers, t.creditAccountId ≠ trimSpace id :=
        fun t ht heq => hfresh (heq ▸ (h.known t ht).2)
      refine ⟨?_, ?_⟩
      · rw [sumOf_eq_zero fun t ht _ => by simp [hdebit t ht]]
        rfl
      · rw [sumOf_eq_zero fun t ht _ => by simp [hcredit t ht]]
        rfl

/-- Nothing stands in the way of the transfer. -/
structure Creates (s : MemoryLedger) (cancelled : Bool) (request : MemoryTransfer)
    (debit credit : MemoryAccount) : Prop where
  active : cancelled = false
  named : request.trimmed.id ≠ "" ∧ request.trimmed.debitAccountId ≠ "" ∧ request.trimmed.creditAccountId ≠ ""
  positive : 0 < request.amount ∧ 0 < request.ledger ∧ 0 < request.code
  unused : s.transfer? request.trimmed.id = none
  debitFound : s.account? request.trimmed.debitAccountId = some debit
  creditFound : s.account? request.trimmed.creditAccountId = some credit
  ledger : debit.ledger = request.ledger ∧ credit.ledger = request.ledger

/-- The ledger after a transfer. -/
def created (s : MemoryLedger) (request : MemoryTransfer) : MemoryLedger :=
  ⟨s.accounts.map (MemoryLedger.booked request.trimmed.debitAccountId request.trimmed.creditAccountId request.amount),
    s.transfers ++ [{ request.trimmed with status := .posted }]⟩

theorem Creates.createTransfer_eq (h : s.Booked) {cancelled : Bool} {request : MemoryTransfer}
    {debit credit : MemoryAccount} (hcreates : s.Creates cancelled request debit credit) :
    (s.createTransfer cancelled request).1 = s.created request := by
  have hdebit : request.trimmed.debitAccountId ∈ s.accounts.map (·.id) :=
    (account?_eq_some hcreates.debitFound).2 ▸ List.mem_map_of_mem (account?_eq_some hcreates.debitFound).1
  have hcredit : request.trimmed.creditAccountId ∈ s.accounts.map (·.id) :=
    (account?_eq_some hcreates.creditFound).2 ▸ List.mem_map_of_mem (account?_eq_some hcreates.creditFound).1
  have hpositive : ¬(request.trimmed.amount ≤ 0 ∨ request.trimmed.ledger ≤ 0 ∨ request.trimmed.code ≤ 0) := by
    have hpositive := hcreates.positive
    simp only [MemoryTransfer.trimmed]
    omega
  have hledger : ¬(debit.ledger ≠ request.trimmed.ledger ∨ credit.ledger ≠ request.trimmed.ledger) := by
    simp [MemoryTransfer.trimmed, hcreates.ledger]
  have hbook := book_eq h.accountIds hdebit hcredit request.trimmed.amount
  simp only [createTransfer, hcreates.active, hcreates.named, hpositive, hcreates.unused, hcreates.debitFound,
    hcreates.creditFound, hledger, hbook]
  simp only [putTransfer, transfer?, Bool.false_eq_true, or_self, if_false]
  have hunused := hcreates.unused
  rw [transfer?] at hunused
  simp only [hunused]
  rfl

theorem createTransfer_cases (s : MemoryLedger) (cancelled : Bool) (request : MemoryTransfer) :
    (s.createTransfer cancelled request).1 = s ∨ ∃ debit credit, s.Creates cancelled request debit credit := by
  rw [createTransfer]
  split
  · exact .inl rfl
  case isFalse hactive =>
  split
  · exact .inl rfl
  case isFalse hnamed =>
  split
  · exact .inl rfl
  case isFalse hpositive =>
  split
  · exact .inl rfl
  case h_2 hunused =>
  split
  case h_2 => exact .inl rfl
  case h_1 debit credit hdebit hcredit =>
  split
  · exact .inl rfl
  case isFalse hledger =>
  refine .inr ⟨debit, credit, by simpa using hactive, by simpa using hnamed, ?_, hunused, hdebit, hcredit, ?_⟩
  · simp only [MemoryTransfer.trimmed] at hpositive
    omega
  · simpa [MemoryTransfer.trimmed] using hledger

theorem Booked.created (h : s.Booked) {cancelled : Bool} {request : MemoryTransfer} {debit credit : MemoryAccount}
    (hcreates : s.Creates cancelled request debit credit) : (s.created request).Booked := by
  have hdebit := account?_eq_some hcreates.debitFound
  have hcredit := account?_eq_some hcreates.creditFound
  apply h.rebook
  · apply Rows.nodup_map_append_singleton h.transferIds
    intro hmem
    obtain ⟨t, ht, hid⟩ := List.mem_map.mp hmem
    have hunused := List.find?_eq_none.mp hcreates.unused t ht
    exact hunused (by simpa using hid)
  · intro t ht
    rcases List.mem_append.mp ht with ht | ht
    · exact ⟨h.known t ht, h.positive t ht, h.settled t ht⟩
    · rw [List.mem_singleton.mp ht]
      refine ⟨⟨?_, ?_⟩, hcreates.positive.1, fun hne => (nomatch hne)⟩
      · exact hdebit.2 ▸ List.mem_map_of_mem hdebit.1
      · exact hcredit.2 ▸ List.mem_map_of_mem hcredit.1
  · intro p
    rw [sumOf_append_singleton, share]
    by_cases hp : p request.trimmed.debitAccountId request.trimmed.creditAccountId
    · rw [if_pos hp, if_pos (by simp [hp])]
      rfl
    · rw [if_neg hp, if_neg (by simp [hp])]

/-- The ledger after a transfer is voided. -/
def voidedBy (s : MemoryLedger) (t : MemoryTransfer) : MemoryLedger :=
  ⟨s.accounts.map (MemoryLedger.booked t.debitAccountId t.creditAccountId (-t.amount)),
    Rows.update (·.id) t.id (fun _ => { t with status := .voided }) s.transfers⟩

theorem transfer?_eq_some {id : String} {t : MemoryTransfer} (h : s.transfer? id = some t) :
    t ∈ s.transfers ∧ t.id = id :=
  Rows.find?_key h

theorem voidTransfer_cases (h : s.Booked) (cancelled : Bool) (transferId : String) :
    (s.voidTransfer cancelled transferId).1 = s ∨
      ∃ t ∈ s.transfers, t.status = .posted ∧ (s.voidTransfer cancelled transferId).1 = s.voidedBy t := by
  rw [voidTransfer]
  split
  · exact .inl rfl
  split
  · exact .inl rfl
  case h_2 t hfound =>
  obtain ⟨ht, hid⟩ := transfer?_eq_some hfound
  split
  · exact .inl rfl
  case isFalse hvoided =>
  have hposted : t.status = .posted := by
    cases hstatus : t.status with
    | pending => exact absurd hstatus (h.settled t ht)
    | posted => rfl
    | voided => exact absurd hstatus hvoided
  refine .inr ⟨t, ht, hposted, ?_⟩
  have hfound' : s.transfers.find? (fun u => u.id == t.id) = some t := hid ▸ hfound
  simp only [hposted, if_true, book_eq h.accountIds (h.known t ht).1 (h.known t ht).2, putTransfer,
    transfer?, hfound']
  rfl

theorem postTransfer_eq (h : s.Booked) (cancelled : Bool) (transferId : String) :
    (s.postTransfer cancelled transferId).1 = s := by
  rw [postTransfer]
  split
  · rfl
  split
  · rfl
  case h_2 t hfound =>
  split
  · rfl
  case isFalse hvoided =>
  split
  case isTrue hposted =>
    cases hstatus : t.status with
    | pending => exact absurd hstatus (h.settled t (transfer?_eq_some hfound).1)
    | posted => exact absurd hstatus hposted
    | voided => exact absurd hstatus hvoided
  case isFalse => rfl

theorem sumOf_void (hids : (s.transfers.map (·.id)).Nodup) {t : MemoryTransfer} (ht : t ∈ s.transfers)
    (hposted : t.status = .posted) (p : MemoryTransfer → Bool) :
    sumOf p (Rows.update (·.id) t.id (fun _ => { t with status := .voided }) s.transfers) =
      sumOf p s.transfers + if p t then -t.amount else 0 := by
  have hsum := Sums.sum_map_update hids ht (fun _ => { t with status := .voided }) (share p)
  have hbefore : share p t = if p t then t.amount else 0 := by simp [share, hposted]
  have hafter : share p { t with status := .voided } = 0 := by simp [share]
  refine hsum.trans ?_
  rw [hbefore, hafter]
  show sumOf p s.transfers - _ + 0 = _
  split
  · omega
  · omega

theorem Booked.voidedBy (h : s.Booked) {t : MemoryTransfer} (ht : t ∈ s.transfers) (hposted : t.status = .posted) :
    (s.voidedBy t).Booked := by
  apply h.rebook
  · have hkeep : (Rows.update (·.id) t.id (fun _ =>
      { t with status := MemoryStatus.voided }) s.transfers).map (·.id) =
        s.transfers.map (·.id) := Rows.map_update fun u _ hid => hid.symm
    rw [hkeep]
    exact h.transferIds
  · intro u hu
    rcases Rows.mem_update.mp hu with ⟨-, -, -, rfl⟩ | ⟨hu, -⟩
    · exact ⟨h.known t ht, h.positive t ht, fun hne => (nomatch hne)⟩
    · exact ⟨h.known u hu, h.positive u hu, h.settled u hu⟩
  · intro p
    exact sumOf_void h.transferIds ht hposted _

end MemoryLedger

open MemoryLedger in
theorem memoryStep_booked (s : MemoryLedger) (act : MemoryAct) (h : s.Booked) : (s.step act).Booked := by
  cases act with
  | createAccount cancelled id ledger code => exact h.createAccount cancelled id ledger code
  | createTransfer cancelled request =>
      rw [MemoryLedger.step]
      rcases createTransfer_cases s cancelled request with heq | ⟨debit, credit, hcreates⟩
      · rw [heq]
        exact h
      · rw [hcreates.createTransfer_eq h]
        exact h.created hcreates
  | voidTransfer cancelled transferId =>
      rw [MemoryLedger.step]
      rcases voidTransfer_cases h cancelled transferId with heq | ⟨t, ht, hposted, heq⟩
      · rw [heq]
        exact h
      · rw [heq]
        exact h.voidedBy ht hposted
  | postTransfer cancelled transferId =>
      rw [MemoryLedger.step, postTransfer_eq h]
      exact h

/-! ### When the books balance -/

theorem wrap64_le {x : Int} (h : 0 ≤ x) : wrap64 x ≤ x := by
  rw [wrap64, Int.bmod]
  split
  · omega
  · omega

theorem wrap64_eq_self_iff {x : Int} (h : 0 ≤ x) : wrap64 x = x ↔ x < 2 ^ 63 := by
  rw [wrap64, Int.bmod]
  split
  · omega
  · omega

namespace MemoryLedger

variable {s : MemoryLedger}

/-- No transfer that stands has one account on both sides, and every sum fits its word. -/
def Apart (s : MemoryLedger) : Prop :=
  (∀ t ∈ s.transfers, t.status ≠ .voided → t.debitAccountId ≠ t.creditAccountId) ∧
    ∀ a ∈ s.accounts, s.debitsOf a.id < 2 ^ 63 ∧ s.creditsOf a.id < 2 ^ 63

/-- The debits an account holds and those that its own credit took back. -/
theorem debitsOf_eq (s : MemoryLedger) (id : String) :
    s.debitsOf id = sumOf (fun t => t.debitAccountId = id && !(t.creditAccountId = id : Bool)) s.transfers +
      sumOf (fun t => t.debitAccountId = id && (t.creditAccountId = id : Bool)) s.transfers :=
  sumOf_split (fun t => t.debitAccountId = id) (fun t => t.creditAccountId = id) s.transfers

theorem doubleEntry_iff_apart (h : s.Booked) : DoubleEntry s ↔ s.Apart := by
  have hnonneg : ∀ p, 0 ≤ sumOf p s.transfers := fun p => sumOf_nonneg h.positive
  constructor
  · rintro ⟨-, haccounts⟩
    have hdebits : ∀ a ∈ s.accounts,
        sumOf (fun t => t.debitAccountId = a.id && (t.creditAccountId = a.id : Bool)) s.transfers = 0 ∧
          s.debitsOf a.id < 2 ^ 63 := by
      intro a ha
      have heq := (h.holds a ha).debits.symm.trans (haccounts a ha).1
      have hle := wrap64_le (hnonneg fun t => t.debitAccountId = a.id && !(t.creditAccountId = a.id : Bool))
      have hboth := hnonneg fun t => t.debitAccountId = a.id && (t.creditAccountId = a.id : Bool)
      rw [debitsOf_eq] at heq ⊢
      have hself := (wrap64_eq_self_iff (hnonneg fun t => t.debitAccountId = a.id &&
        !(t.creditAccountId = a.id : Bool))).mp (by omega)
      omega
    refine ⟨?_, ?_⟩
    · intro t ht hstands hsame
      obtain ⟨a, ha, hid⟩ := List.mem_map.mp (h.known t ht).1
      have hshare := @share_le_sumOf (fun t => t.debitAccountId = a.id &&
        (t.creditAccountId = a.id : Bool)) _ h.positive t ht
      rw [(hdebits a ha).1] at hshare
      have hamount := h.positive t ht
      simp only [share, hid, ← hsame, decide_true, Bool.and_self, decide_not, hstands, decide_false, Bool.not_false,
        if_true] at hshare
      omega
    · intro a ha
      refine ⟨(hdebits a ha).2, ?_⟩
      have heq := (h.holds a ha).credits.symm.trans (haccounts a ha).2
      exact (wrap64_eq_self_iff (hnonneg _)).mp heq
  · rintro ⟨hapart, hfits⟩
    have hholds : ∀ a ∈ s.accounts, a.debitsPosted = s.debitsOf a.id ∧ a.creditsPosted = s.creditsOf a.id := by
      intro a ha
      have hnone : sumOf (fun t => t.debitAccountId = a.id &&
          (t.creditAccountId = a.id : Bool)) s.transfers = 0 := by
        apply sumOf_eq_zero
        intro t ht hstands
        have hne := hapart t ht hstands
        simp only [Bool.and_eq_false_iff, decide_eq_false_iff_not]
        by_cases hd : t.debitAccountId = a.id
        · exact .inr fun hc => hne (hd.trans hc.symm)
        · exact .inl hd
      have hdebits := debitsOf_eq s a.id
      rw [hnone, Int.add_zero] at hdebits
      refine ⟨?_, ?_⟩
      · rw [(h.holds a ha).debits, ← hdebits]
        exact (wrap64_eq_self_iff (hnonneg _)).mpr (hfits a ha).1
      · rw [(h.holds a ha).credits]
        exact (wrap64_eq_self_iff (hnonneg _)).mpr (hfits a ha).2
    refine ⟨?_, hholds⟩
    calc (s.accounts.map (·.debitsPosted)).sum
        = (s.accounts.map fun a => s.debitsOf a.id).sum := by rw [List.map_congr_left fun a ha => (hholds a ha).1]
      _ = sumOf (fun _ => true) s.transfers := sum_accounts h.accountIds fun t ht => (h.known t ht).1
      _ = (s.accounts.map fun a => s.creditsOf a.id).sum :=
        (sum_accounts h.accountIds fun t ht => (h.known t ht).2).symm
      _ = (s.accounts.map (·.creditsPosted)).sum := by rw [List.map_congr_left fun a ha => (hholds a ha).2]

end MemoryLedger

/-- A transfer that is carried out has two accounts, and room in both for its amount. -/
def BooksApart (s : MemoryLedger) : MemoryAct → Prop
  | .createTransfer cancelled request =>
      ∀ debit credit, s.Creates cancelled request debit credit →
        debit.id ≠ credit.id ∧ debit.debitsPosted + request.amount < 2 ^ 63 ∧ credit.creditsPosted +
          request.amount < 2 ^ 63
  | _ => True

namespace MemoryLedger

variable {s : MemoryLedger}

theorem apart_created_iff (h : s.Booked) (hbooks : DoubleEntry s) {cancelled : Bool} {request : MemoryTransfer}
    {debit credit : MemoryAccount} (hcreates : s.Creates cancelled request debit credit) :
    (s.created request).Apart ↔
      debit.id ≠ credit.id ∧ debit.debitsPosted + request.amount < 2 ^ 63 ∧ credit.creditsPosted +
        request.amount < 2 ^ 63 := by
  obtain ⟨hdebit, hdebitId⟩ := account?_eq_some hcreates.debitFound
  obtain ⟨hcredit, hcreditId⟩ := account?_eq_some hcreates.creditFound
  have hapart := (doubleEntry_iff_apart h).mp hbooks
  have hdebits : ∀ id, (s.created request).debitsOf id = s.debitsOf id + if debit.id =
      id then request.amount else 0 := by
    intro id
    rw [debitsOf, created, sumOf_append_singleton, debitsOf, share, hdebitId]
    simp
    rfl
  have hcredits : ∀ id, (s.created request).creditsOf id = s.creditsOf id + if credit.id =
      id then request.amount else 0 := by
    intro id
    rw [creditsOf, created, sumOf_append_singleton, creditsOf, share, hcreditId]
    simp
    rfl
  have hmem : ∀ a ∈ s.accounts, ∃ a' ∈ (s.created request).accounts, a'.id = a.id :=
    fun a ha => ⟨_, List.mem_map_of_mem ha, booked_id ..⟩
  constructor
  · rintro ⟨hstands, hfits⟩
    refine ⟨?_, ?_, ?_⟩
    · rw [hdebitId, hcreditId]
      exact hstands { request.trimmed with status := .posted }
        (List.mem_append_right _ (List.mem_singleton.mpr rfl)) (fun hne => (nomatch hne))
    · obtain ⟨a, ha, hid⟩ := hmem debit hdebit
      have hroom := (hfits a ha).1
      rw [hid, hdebits, if_pos rfl, ← (hbooks.2 debit hdebit).1] at hroom
      exact hroom
    · obtain ⟨a, ha, hid⟩ := hmem credit hcredit
      have hroom := (hfits a ha).2
      rw [hid, hcredits, if_pos rfl, ← (hbooks.2 credit hcredit).2] at hroom
      exact hroom
  · rintro ⟨hne, hdroom, hcroom⟩
    refine ⟨?_, ?_⟩
    · intro t ht hstands
      rcases List.mem_append.mp ht with ht | ht
      · exact hapart.1 t ht hstands
      · rw [List.mem_singleton.mp ht]
        exact hdebitId ▸ hcreditId ▸ hne
    · intro a' ha'
      obtain ⟨a, ha, rfl⟩ := List.mem_map.mp ha'
      rw [booked_id, hdebits, hcredits]
      refine ⟨?_, ?_⟩
      · split
        case isTrue hid =>
          rw [← hid, ← (hbooks.2 debit hdebit).1]
          exact hdroom
        case isFalse =>
          rw [Int.add_zero]
          exact (hapart.2 a ha).1
      · split
        case isTrue hid =>
          rw [← hid, ← (hbooks.2 credit hcredit).2]
          exact hcroom
        case isFalse =>
          rw [Int.add_zero]
          exact (hapart.2 a ha).2

theorem Apart.voidedBy (h : s.Booked) (hapart : s.Apart) {t : MemoryTransfer} (ht : t ∈ s.transfers)
    (hposted : t.status = .posted) :
    (s.voidedBy t).Apart := by
  have hamount := h.positive t ht
  have hle : ∀ p, sumOf p (s.voidedBy t).transfers ≤ sumOf p s.transfers := by
    intro p
    rw [MemoryLedger.voidedBy, sumOf_void h.transferIds ht hposted]
    split
    · omega
    · omega
  refine ⟨?_, ?_⟩
  · intro u hu hstands
    rcases Rows.mem_update.mp hu with ⟨-, -, -, rfl⟩ | ⟨hu, -⟩
    · exact absurd rfl hstands
    · exact hapart.1 u hu hstands
  · intro a' ha'
    obtain ⟨a, ha, rfl⟩ := List.mem_map.mp ha'
    rw [booked_id]
    exact ⟨lt_of_le_of_lt (hle _) (hapart.2 a ha).1, lt_of_le_of_lt (hle _) (hapart.2 a ha).2⟩

/-- A new account has no transfers. -/
theorem Apart.createAccount (h : s.Booked) (hapart : s.Apart) (cancelled : Bool) (id : String) (ledger code : Int) :
    (s.createAccount cancelled ⟨id, ledger, code, 0, 0⟩).1.Apart := by
  rw [MemoryLedger.createAccount]
  split
  · exact hapart
  split
  · exact hapart
  split
  · exact hapart
  split
  case isTrue => exact hapart
  case isFalse hnew =>
  have hnone : s.account? (trimSpace id) = none := by simpa using hnew
  simp only [putAccount, hnone]
  refine ⟨hapart.1, ?_⟩
  intro a ha
  rcases List.mem_append.mp ha with ha | ha
  · exact hapart.2 a ha
  · rw [List.mem_singleton.mp ha]
    have hfresh : ∀ other ∈ s.accounts.map (·.id), other ≠ trimSpace id := by
      intro other hmem heq
      obtain ⟨a, ha⟩ := exists_account? (heq ▸ hmem)
      rw [hnone] at ha
      cases ha
    refine ⟨?_, ?_⟩
    · rw [debitsOf, sumOf_eq_zero fun t ht _ => by simp [hfresh _ (h.known t ht).1]]
      decide
    · rw [creditsOf, sumOf_eq_zero fun t ht _ => by simp [hfresh _ (h.known t ht).2]]
      decide

end MemoryLedger

open MemoryLedger in
/-- An operation keeps the books balanced exactly if a transfer it carries out has two accounts with room for it. -/
theorem doubleEntry_step_iff (s : MemoryLedger) (act : MemoryAct) (h : s.Booked) (hbooks : DoubleEntry s) :
    DoubleEntry (s.step act) ↔ BooksApart s act := by
  have hapart := (doubleEntry_iff_apart h).mp hbooks
  rw [doubleEntry_iff_apart (memoryStep_booked s act h)]
  cases act with
  | createAccount cancelled id ledger code =>
      exact iff_of_true (Apart.createAccount h hapart cancelled id ledger code) trivial
  | createTransfer cancelled request =>
      rw [MemoryLedger.step, BooksApart]
      by_cases hexists : ∃ debit credit, s.Creates cancelled request debit credit
      case neg =>
        rw [(createTransfer_cases s cancelled request).resolve_right hexists]
        exact iff_of_true hapart fun debit credit hcreates => absurd ⟨debit, credit, hcreates⟩ hexists
      case pos =>
        obtain ⟨debit, credit, hcreates⟩ := hexists
        rw [hcreates.createTransfer_eq h, apart_created_iff h hbooks hcreates]
        constructor
        · intro hroom debit' credit' hcreates'
          obtain rfl := Option.some.inj (hcreates.debitFound.symm.trans hcreates'.debitFound)
          obtain rfl := Option.some.inj (hcreates.creditFound.symm.trans hcreates'.creditFound)
          exact hroom
        · intro hroom
          exact hroom debit credit hcreates
  | voidTransfer cancelled transferId =>
      refine iff_of_true ?_ trivial
      rw [MemoryLedger.step]
      rcases voidTransfer_cases h cancelled transferId with heq | ⟨t, ht, hposted, heq⟩
      · rw [heq]
        exact hapart
      · rw [heq]
        exact Apart.voidedBy h hapart ht hposted
  | postTransfer cancelled transferId =>
      refine iff_of_true ?_ trivial
      rw [MemoryLedger.step, postTransfer_eq h]
      exact hapart

/-- For every sequence of operations on the ledger in memory, the failing ones included, the books balance all
the time exactly if every transfer that is carried out has two accounts and room in both for its amount. -/
theorem doubleEntry_iff_booksApart (acts : List MemoryAct) :
    (∀ s ∈ Runs.visited MemoryLedger.step .empty acts, DoubleEntry s) ↔
      Runs.AllSteps MemoryLedger.step BooksApart .empty acts := by
  have hbooked : MemoryLedger.empty.Booked :=
    ⟨List.nodup_nil, List.nodup_nil, fun _ ht => (nomatch ht), fun _ ht => (nomatch ht), fun _ ht => (nomatch ht),
      fun _ ha => (nomatch ha)⟩
  have hempty : DoubleEntry .empty := ⟨rfl, fun _ ha => (nomatch ha)⟩
  exact Runs.forall_visited_iff memoryStep_booked doubleEntry_step_iff hbooked hempty acts

/-! ### One account on both sides -/

section BothSides

def settlementOf (id debitAccountId creditAccountId : String) (amount : Int) : MemoryTransfer :=
  ⟨id, debitAccountId, creditAccountId, amount, 1, 1, .pending⟩

def payToSelf : List MemoryAct :=
  [.createAccount false "treasury" 1 1, .createTransfer false (settlementOf "t1" "treasury" " treasury " 250)]

/-- The account is credited and not debited. -/
theorem debit_is_lost : ¬∀ s ∈ Runs.visited MemoryLedger.step .empty payToSelf, DoubleEntry s := by
  intro h
  have hbooks := (h _ (Runs.final_mem_visited _ _)).1
  revert hbooks
  decide

end BothSides

end Inec
