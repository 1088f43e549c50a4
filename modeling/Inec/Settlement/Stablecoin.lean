import Mathlib.Algebra.Order.Floor.Ring
import Mathlib.Data.Rat.Floor
import Inec.Lib.PaddedNumber
import Inec.Lib.Rounding
import Inec.Lib.Runs
import Inec.Lib.Sums

/-!
# Transfers between stablecoin wallets

`Transfer` of stablecoin_engine.go. It reads the balances of both wallets in a transaction, computes the two new
balances and writes them, each as a `DECIMAL(20,4)`. The errors of the writing statements are not looked at; in
PostgreSQL the first of them makes every later statement of the transaction fail, and the commit with them.

Amounts are exact numbers here. The column keeps ten-thousandths, so each of the two balances is rounded by
itself, halves away from zero. A transfer of an odd number of half units therefore adds a unit to the total; and
when both wallets are the same one, the credit is written over the debit.
-/

namespace Inec

/-- A `DECIMAL(20,4)`: ten-thousandths, with twenty digits. -/
abbrev Money : Type := { units : Int // -10 ^ 20 < units ∧ units < 10 ^ 20 }

namespace Money

def value (m : Money) : ℚ := m.val / 10000

/-- Rounding to a whole number, halves away from zero. -/
def halfAway (x : ℚ) : Int := if 0 ≤ x then ⌊x + 1 / 2⌋ else -⌊-x + 1 / 2⌋

/-- What the column takes: a number that has too many digits after rounding is an error. -/
def ofValue? (x : ℚ) : Option Money :=
  if h : -10 ^ 20 < halfAway (x * 10000) ∧ halfAway
    (x * 10000) < 10 ^ 20 then some ⟨halfAway (x * 10000), h⟩ else none

end Money

/-- `%.4f` of a positive number. -/
def fixed4 (x : ℚ) : String :=
  let units := Rounding.nearestEven (x.num.toNat * 10000) x.den
  String.ofList (Nat.toDigits 10 (units / 10000) ++ '.' :: PaddedNumber.padded 4 (units % 10000))

structure Wallet where
  walletId : String
  balance : Money
  active : Bool
  deriving DecidableEq

structure StablecoinTx where
  txId : String
  fromWallet : String
  toWallet : String
  amount : Money
  txType : String
  purpose : String
  deriving DecidableEq

inductive EntryType
  | debit
  | credit
  deriving DecidableEq, Repr

/-- A row of `stablecoin_ledger`. -/
structure StablecoinEntry where
  txId : String
  walletId : String
  entryType : EntryType
  amount : Money
  balanceAfter : Money
  deriving DecidableEq

structure Stablecoin where
  wallets : List Wallet
  transactions : List StablecoinTx
  ledger : List StablecoinEntry
  distinct : (wallets.map (·.walletId)).Nodup

/-- The statements of a transfer. -/
inductive TransferStatement
  | begin
  | sender
  | receiver
  | debit
  | credit
  | record
  | ledgerDebit
  | ledgerCredit
  | commit
  deriving DecidableEq, Repr

/-- A call, with the text of the clock at the time and which of its statements the database carries out. -/
structure TransferCall where
  fromWallet : String
  toWallet : String
  amount : ℚ
  purpose : String
  txType : String
  clock : String
  works : TransferStatement → Bool

inductive TransferError
  | notPositive
  | begin
  | sender
  | insufficient (has needs : ℚ)
  | receiver
  | commit
  deriving DecidableEq

/-- The messages; `begin` and `commit` go on with the error of the driver. -/
def TransferError.text : TransferError → String
  | notPositive => "amount must be positive"
  | begin => "begin tx: "
  | sender => "sender wallet not found or inactive"
  | insufficient has needs => "insufficient balance: have " ++ fixed4 has ++ ", need " ++ fixed4 needs
  | receiver => "receiver wallet not found or inactive"
  | commit => "commit: "

def hexByte (b : UInt8) : List Char := [Nat.digitChar (b.toNat / 16), Nat.digitChar (b.toNat % 16)]

/-- `Sum` appends the hash to the bytes it is given, so the first twelve bytes are those of the text itself. -/
def TransferCall.txId (call : TransferCall) : String :=
  let seed := call.fromWallet ++ call.toWallet ++ fixed4 call.amount ++ call.clock
  "TX-" ++ String.ofList ((seed.toUTF8.data.toList.take 12).flatMap hexByte)

namespace Stablecoin

variable (s : Stablecoin) (call : TransferCall)

def activeWallet? (walletId : String) : Option Wallet := s.wallets.find? fun w => w.walletId == walletId && w.active

def setBalance (walletId : String) (balance : Money) : Stablecoin :=
  { s with
    wallets := Rows.update (·.walletId) walletId (fun w => { w with balance := balance }) s.wallets
    distinct := by
      rw [Rows.map_update (by intros; rfl)]
      exact s.distinct }

/-- `UPDATE stablecoin_wallets SET balance = ...`. -/
def updateBalance (walletId : String) (balance : ℚ) : Option Stablecoin :=
  (Money.ofValue? balance).map (s.setBalance walletId)

/-- The row of the transaction, whose id is the primary key. -/
def insertTransaction : Option Stablecoin :=
  if s.transactions.any fun tx => tx.txId == call.txId then none
  else
    (Money.ofValue? call.amount).map fun amount =>
      { s with
        transactions :=
          s.transactions ++ [⟨call.txId, call.fromWallet, call.toWallet, amount, call.txType, call.purpose⟩] }

def insertEntry (walletId : String) (entryType : EntryType) (balanceAfter : ℚ) : Option Stablecoin :=
  (Money.ofValue? call.amount).bind fun amount =>
    (Money.ofValue? balanceAfter).map fun after =>
      { s with ledger := s.ledger ++ [⟨call.txId, walletId, entryType, amount, after⟩] }

/-- A statement of a transaction. `none` is a transaction that has failed: nothing works in it any more. -/
def exec (works : Bool) (statement : Stablecoin → Option Stablecoin) (tx : Option Stablecoin) : Option Stablecoin :=
  if works then tx.bind statement else none

/-- The five statements whose errors are not looked at. -/
def transferWrites (sender receiver : Wallet) : Option Stablecoin :=
  let newSenderBalance := sender.balance.value - call.amount
  let newReceiverBalance := receiver.balance.value + call.amount
  some s
    |> exec (call.works .debit) (·.updateBalance call.fromWallet newSenderBalance)
    |> exec (call.works .credit) (·.updateBalance call.toWallet newReceiverBalance)
    |> exec (call.works .record) (·.insertTransaction call)
    |> exec (call.works .ledgerDebit) (·.insertEntry call call.fromWallet .debit newSenderBalance)
    |> exec (call.works .ledgerCredit) (·.insertEntry call call.toWallet .credit newReceiverBalance)

/-- The database after the call, and the answer: the id of the transaction, the rest of it being what the caller
sent. -/
def transfer : Stablecoin × Except TransferError String :=
  if call.amount ≤ 0 then (s, .error .notPositive)
  else if !call.works .begin then (s, .error .begin)
  else
    match if call.works .sender then s.activeWallet? call.fromWallet else none with
    | none => (s, .error .sender)
    | some sender =>
        if sender.balance.value < call.amount then (s, .error (.insufficient sender.balance.value call.amount))
        else
          match if call.works .receiver then s.activeWallet? call.toWallet else none with
          | none => (s, .error .receiver)
          | some receiver =>
              match s.transferWrites call sender receiver with
              | none => (s, .error .commit)
              | some t => if call.works .commit then (t, .ok call.txId) else (s, .error .commit)

def step (s : Stablecoin) (call : TransferCall) : Stablecoin := (s.transfer call).1

/-- The sum of all balances, in units of the column. -/
def total : Int := (s.wallets.map (·.balance.val)).sum

def NonNegative : Prop := ∀ w ∈ s.wallets, 0 ≤ w.balance.val

/-- Nothing stands in the way of the transfer from the one row to the other. -/
structure Admits (sender receiver : Wallet) : Prop where
  positive : 0 < call.amount
  works : ∀ statement, call.works statement = true
  senderFound : s.activeWallet? call.fromWallet = some sender
  enough : call.amount ≤ sender.balance.value
  receiverFound : s.activeWallet? call.toWallet = some receiver
  unused : (s.transactions.any fun tx => tx.txId == call.txId) = false
  fits : (Money.ofValue? (receiver.balance.value + call.amount)).isSome

end Stablecoin

/-- The amount in units of the column. -/
def TransferCall.units (call : TransferCall) : ℚ := call.amount * 10000

/-- Two wallets, and an amount that is not half way between two units; or one wallet, and an amount that is
rounded to nothing. -/
def TransferCall.KeepsTotal (call : TransferCall) : Prop :=
  if call.fromWallet = call.toWallet then call.units < 1 / 2 else ∀ n : Int, call.units ≠ n + 1 / 2

/-! ### Rounding -/

namespace Money

variable {x : ℚ} {m : Money}

theorem halfAway_of_nonneg (h : 0 ≤ x) : halfAway x = ⌊x + 1 / 2⌋ := if_pos h

theorem val_of_ofValue? (h : ofValue? x = some m) : m.val = halfAway (x * 10000) := by
  rw [ofValue?] at h
  split at h
  · rw [← Option.some.inj h]
  · cases h

theorem exists_ofValue? (h : -10 ^ 20 < halfAway (x * 10000)) (h' : halfAway (x * 10000) < 10 ^ 20) :
    ∃ m, ofValue? x = some m :=
  ⟨_, dif_pos ⟨h, h'⟩⟩

theorem value_mul (m : Money) : m.value * 10000 = m.val := by
  rw [value]
  field_simp

/-- A debit that the balance covers leaves a balance between nothing and what there was. -/
theorem halfAway_debit {a : ℚ} {b : Int} (ha : 0 < a) (hb : a ≤ b) :
    halfAway (b - a) = b - ⌈a - 1 / 2⌉ ∧ 0 ≤ halfAway (b - a) ∧ halfAway (b - a) ≤ b := by
  have hnonneg : 0 ≤ (b : ℚ) - a := by linarith
  rw [halfAway_of_nonneg hnonneg]
  have heq : ⌊(b : ℚ) - a + 1 / 2⌋ = b - ⌈a - 1 / 2⌉ := by
    rw [show (b : ℚ) - a + 1 / 2 = b + -(a - 1 / 2) by ring, Int.floor_intCast_add, Int.floor_neg]
    ring
  refine ⟨heq, Int.floor_nonneg.mpr (by linarith), ?_⟩
  rw [heq]
  have hceil : -1 < ⌈a - 1 / 2⌉ := by
    rw [Int.lt_ceil]
    push_cast
    linarith
  omega

theorem halfAway_credit {a : ℚ} {b : Int} (ha : 0 < a) (hb : 0 ≤ b) :
    halfAway (b + a) = b + ⌊a + 1 / 2⌋ ∧ 0 ≤ halfAway (b + a) := by
  have hb' : (0 : ℚ) ≤ b := by exact_mod_cast hb
  have hnonneg : 0 ≤ (b : ℚ) + a := by linarith
  rw [halfAway_of_nonneg hnonneg]
  refine ⟨?_, Int.floor_nonneg.mpr (by linarith)⟩
  rw [add_assoc, Int.floor_intCast_add]

/-- The two roundings differ by a unit exactly at the halves. -/
theorem floor_eq_ceil_iff (a : ℚ) : ⌊a + 1 / 2⌋ = ⌈a - 1 / 2⌉ ↔ ∀ n : Int, a ≠ n + 1 / 2 := by
  have hfloor : ⌊a + 1 / 2⌋ = ⌊a - 1 / 2⌋ + 1 := by
    rw [show a + 1 / 2 = a - 1 / 2 + 1 by ring, Int.floor_add_one]
  rw [hfloor]
  constructor
  · intro h n hn
    rw [hn, show (n : ℚ) + 1 / 2 - 1 / 2 = n by ring, Int.floor_intCast, Int.ceil_intCast] at h
    omega
  · intro h
    apply le_antisymm
    · rw [Int.add_one_le_iff, Int.lt_ceil]
      apply lt_of_le_of_ne (Int.floor_le _)
      intro heq
      exact h ⌊a - 1 / 2⌋ (by linarith)
    · exact Int.ceil_le_floor_add_one _

end Money

/-! ### What a transfer does -/

namespace Stablecoin

variable {s t : Stablecoin} {call : TransferCall} {sender receiver : Wallet}

theorem exec_true (statement : Stablecoin → Option Stablecoin) (tx : Option Stablecoin) :
    exec true statement tx = tx.bind statement := rfl

theorem exec_eq_some {works : Bool} {statement : Stablecoin → Option Stablecoin} {tx : Option Stablecoin} :
    exec works statement tx = some t ↔ works = true ∧ ∃ u, tx = some u ∧ statement u = some t := by
  rw [exec]
  split
  case isTrue h => rw [Option.bind_eq_some_iff]; simp [h]
  case isFalse h => simp [h]

theorem updateBalance_eq_some {walletId : String} {balance : ℚ} :
    s.updateBalance walletId balance = some t ↔ ∃ m, Money.ofValue? balance = some m ∧
      s.setBalance walletId m = t :=
  Option.map_eq_some_iff

theorem insertTransaction_eq_some (h : s.insertTransaction call = some t) :
    (s.transactions.any fun tx => tx.txId == call.txId) = false ∧ t.wallets = s.wallets ∧
      ∃ amount, t.transactions =
        s.transactions ++ [⟨call.txId, call.fromWallet, call.toWallet, amount, call.txType, call.purpose⟩] := by
  rw [insertTransaction] at h
  split at h
  case isTrue => cases h
  case isFalse hunused =>
    obtain ⟨amount, -, rfl⟩ := Option.map_eq_some_iff.mp h
    exact ⟨eq_false_of_ne_true hunused, rfl, amount, rfl⟩

theorem insertEntry_eq_some {walletId : String} {entryType : EntryType} {balanceAfter : ℚ}
    (h : s.insertEntry call walletId entryType balanceAfter = some t) :
    t.wallets = s.wallets ∧ t.transactions = s.transactions := by
  obtain ⟨amount, -, h⟩ := Option.bind_eq_some_iff.mp h
  obtain ⟨after, -, rfl⟩ := Option.map_eq_some_iff.mp h
  exact ⟨rfl, rfl⟩

theorem insertTransaction_of_unused (hunused :
    (s.transactions.any fun tx => tx.txId == call.txId) = false) {amount : Money}
    (hamount : Money.ofValue? call.amount = some amount) : ∃ t, s.insertTransaction call = some t := by
  rw [insertTransaction, hunused, hamount]
  exact ⟨_, rfl⟩

theorem insertEntry_of_fits (walletId : String) (entryType : EntryType) {balanceAfter : ℚ} {amount after : Money}
    (hamount : Money.ofValue? call.amount = some amount) (hafter : Money.ofValue? balanceAfter = some after) :
    ∃ t, s.insertEntry call walletId entryType balanceAfter = some t := by
  rw [insertEntry, hamount, Option.bind_some, hafter]
  exact ⟨_, rfl⟩

/-- What is committed: both balances are written, the receiver's last, and one transaction. -/
theorem transferWrites_eq_some (h : s.transferWrites call sender receiver = some t) :
    ∃ debited credited, Money.ofValue? (sender.balance.value - call.amount) = some debited ∧
      Money.ofValue? (receiver.balance.value + call.amount) = some credited ∧
      t.wallets = ((s.setBalance call.fromWallet debited).setBalance call.toWallet credited).wallets ∧
      (∃ amount, t.transactions =
        s.transactions ++ [⟨call.txId, call.fromWallet, call.toWallet, amount, call.txType, call.purpose⟩]) ∧
      (s.transactions.any fun tx => tx.txId == call.txId) = false ∧
      ∀ statement ∈ [.debit, .credit, .record, .ledgerDebit, .ledgerCredit], call.works statement = true := by
  obtain ⟨hwork5, u4, h4, h5⟩ := exec_eq_some.mp h
  obtain ⟨hwork4, u3, h3, h4⟩ := exec_eq_some.mp h4
  obtain ⟨hwork3, u2, h2, h3⟩ := exec_eq_some.mp h3
  obtain ⟨hwork2, u1, h1, h2⟩ := exec_eq_some.mp h2
  obtain ⟨hwork1, u0, h0, h1⟩ := exec_eq_some.mp h1
  obtain rfl := Option.some.inj h0
  obtain ⟨debited, hdebited, rfl⟩ := updateBalance_eq_some.mp h1
  obtain ⟨credited, hcredited, rfl⟩ := updateBalance_eq_some.mp h2
  obtain ⟨hunused, hrecord, amount, hrow⟩ := insertTransaction_eq_some h3
  have hdebit := insertEntry_eq_some h4
  have hcredit := insertEntry_eq_some h5
  refine ⟨debited, credited, hdebited, hcredited, ?_, ⟨amount, ?_⟩, hunused, ?_⟩
  · rw [hcredit.1, hdebit.1, hrecord]
  · rw [hcredit.2, hdebit.2, hrow]
    rfl
  · simp [hwork1, hwork2, hwork3, hwork4, hwork5]

/-- A call is either refused, and then nothing has changed, or carried out between two active wallets. -/
theorem transfer_cases (s : Stablecoin) (call : TransferCall) :
    (∃ e, s.transfer call = (s, .error e)) ∨
      ∃ sender receiver t, s.Admits call sender receiver ∧ s.transferWrites call sender receiver = some t ∧
        s.transfer call = (t, .ok call.txId) := by
  rw [transfer]
  split
  case isTrue => exact .inl ⟨_, rfl⟩
  case isFalse hpositive =>
  split
  case isTrue => exact .inl ⟨_, rfl⟩
  case isFalse hbegin =>
  split
  case h_1 => exact .inl ⟨_, rfl⟩
  case h_2 sender hsender =>
  split
  case isTrue => exact .inl ⟨_, rfl⟩
  case isFalse henough =>
  split
  case h_1 => exact .inl ⟨_, rfl⟩
  case h_2 receiver hreceiver =>
  split
  case h_1 => exact .inl ⟨_, rfl⟩
  case h_2 t hwrites =>
  split
  case isFalse => exact .inl ⟨_, rfl⟩
  case isTrue hcommit =>
  refine .inr ⟨sender, receiver, t, ?_, hwrites, rfl⟩
  obtain ⟨debited, credited, -, hcredited, -, -, hunused, hworks⟩ := transferWrites_eq_some hwrites
  have hsender : call.works .sender = true ∧ s.activeWallet? call.fromWallet = some sender := by simpa using hsender
  have hreceiver : call.works .receiver = true ∧ s.activeWallet? call.toWallet = some receiver := by
    simpa using hreceiver
  refine ⟨not_le.mp hpositive, ?_, hsender.2, not_lt.mp henough, hreceiver.2, hunused, ?_⟩
  · have hbegin : call.works .begin = true := by simpa using hbegin
    intro statement
    cases statement with
    | begin => exact hbegin
    | sender => exact hsender.1
    | receiver => exact hreceiver.1
    | commit => exact hcommit
    | debit => exact hworks _ (by decide)
    | credit => exact hworks _ (by decide)
    | record => exact hworks _ (by decide)
    | ledgerDebit => exact hworks _ (by decide)
    | ledgerCredit => exact hworks _ (by decide)
  · rw [hcredited]
    rfl

theorem activeWallet?_eq_some {walletId : String} {w : Wallet} (h : s.activeWallet? walletId = some w) :
    w ∈ s.wallets ∧ w.walletId = walletId := by
  refine ⟨List.mem_of_find?_eq_some h, ?_⟩
  have hfound := List.find?_some h
  rw [Bool.and_eq_true, beq_iff_eq] at hfound
  exact hfound.1

theorem transfer_of_admits (h : s.Admits call sender receiver) :
    ∃ t, s.transferWrites call sender receiver = some t ∧ s.transfer call = (t, .ok call.txId) := by
  have hunits : 0 < call.amount * 10000 := by linarith [h.positive]
  have henough : call.amount * 10000 ≤ sender.balance.val := by
    rw [← Money.value_mul]
    linarith [h.enough]
  have hrange := sender.balance.property
  obtain ⟨-, hdebit0, hdebit⟩ := Money.halfAway_debit hunits henough
  obtain ⟨debited, hdebited⟩ : ∃ m, Money.ofValue? (sender.balance.value - call.amount) = some m := by
    apply Money.exists_ofValue? <;> rw [sub_mul, Money.value_mul] <;> omega
  obtain ⟨credited, hcredited⟩ := Option.isSome_iff_exists.mp h.fits
  obtain ⟨amount, hamount⟩ : ∃ m, Money.ofValue? call.amount = some m := by
    have hle : ⌊call.amount * 10000 + 1 / 2⌋ ≤ sender.balance.val := by
      rw [← Int.lt_add_one_iff, Int.floor_lt]
      push_cast
      linarith
    have hnonneg : 0 ≤ ⌊call.amount * 10000 + 1 / 2⌋ := Int.floor_nonneg.mpr (by linarith)
    apply Money.exists_ofValue? <;> rw [Money.halfAway_of_nonneg hunits.le] <;> omega
  have hwrites : ∃ t, s.transferWrites call sender receiver = some t := by
    have h1 : s.updateBalance call.fromWallet (sender.balance.value - call.amount) =
        some (s.setBalance call.fromWallet debited) :=
      updateBalance_eq_some.mpr ⟨debited, hdebited, rfl⟩
    have h2 : (s.setBalance call.fromWallet debited).updateBalance call.toWallet
      (receiver.balance.value + call.amount) =
        some ((s.setBalance call.fromWallet debited).setBalance call.toWallet credited) :=
      updateBalance_eq_some.mpr ⟨credited, hcredited, rfl⟩
    obtain ⟨u3, h3⟩ := insertTransaction_of_unused
        (s := (s.setBalance call.fromWallet debited).setBalance call.toWallet credited)
      h.unused hamount
    obtain ⟨u4, h4⟩ := insertEntry_of_fits (s := u3) call.fromWallet .debit hamount hdebited
    obtain ⟨u5, h5⟩ := insertEntry_of_fits (s := u4) call.toWallet .credit hamount hcredited
    refine ⟨u5, ?_⟩
    simp only [transferWrites, h.works, exec_true, Option.bind_some, h1, h2, h3, h4, h5]
  obtain ⟨t, ht⟩ := hwrites
  refine ⟨t, ht, ?_⟩
  simp [transfer, h.works, not_le.mpr h.positive, h.senderFound, not_lt.mpr h.enough, h.receiverFound, ht]

/-! ### The total -/

theorem total_setBalance {w : Wallet} (hw : w ∈ s.wallets) (m : Money) :
    (s.setBalance w.walletId m).total = s.total - w.balance.val + m.val :=
  Sums.sum_map_update s.distinct hw _ _

theorem mem_setBalance {walletId : String} {m : Money} {w : Wallet} (h : w ∈ (s.setBalance walletId m).wallets) :
    w.balance = m ∨ w ∈ s.wallets := by
  rcases Rows.mem_update.mp h with ⟨w₀, -, -, rfl⟩ | ⟨hw, -⟩
  · exact .inl rfl
  · exact .inr hw

/-- The receiver's row when the credit is written: the row that was read, or the debited one. -/
theorem total_setBalance_setBalance (h : s.Admits call sender receiver) (debited credited : Money) :
    ((s.setBalance call.fromWallet debited).setBalance call.toWallet credited).total =
      if call.fromWallet = call.toWallet then s.total - sender.balance.val + credited.val
      else s.total - sender.balance.val + debited.val - receiver.balance.val + credited.val := by
  obtain ⟨hsender, hfrom⟩ := activeWallet?_eq_some h.senderFound
  obtain ⟨hreceiver, hto⟩ := activeWallet?_eq_some h.receiverFound
  have hfirst := total_setBalance hsender debited
  rw [hfrom] at hfirst
  split
  case isTrue hsame =>
    have hmem : ({ sender with balance := debited } : Wallet) ∈ (s.setBalance call.fromWallet debited).wallets :=
      Rows.mem_update.mpr (.inl ⟨sender, hsender, hfrom, rfl⟩)
    have hsecond := total_setBalance hmem credited
    dsimp only at hsecond
    rw [hfrom, hsame] at hsecond
    rw [hsame] at hfirst ⊢
    rw [hsecond, hfirst]
    omega
  case isFalse hne =>
    have hmem : receiver ∈ (s.setBalance call.fromWallet debited).wallets := by
      refine Rows.mem_update.mpr (.inr ⟨hreceiver, ?_⟩)
      rw [hto]
      exact Ne.symm hne
    have hsecond := total_setBalance hmem credited
    rw [hto] at hsecond
    rw [hsecond, hfirst]

end Stablecoin

/-- What a transfer adds to the total. -/
def TransferCall.gain (call : TransferCall) : Int :=
  if call.fromWallet = call.toWallet then ⌊call.units + 1 / 2⌋ else ⌊call.units + 1 / 2⌋ - ⌈call.units - 1 / 2⌉

theorem TransferCall.gain_eq_zero_iff {call : TransferCall} (h : 0 < call.amount) :
    call.gain = 0 ↔ call.KeepsTotal := by
  have hunits : 0 < call.units := mul_pos h (by norm_num)
  rw [gain, KeepsTotal]
  split
  · rw [Int.floor_eq_zero_iff, Set.mem_Ico]
    constructor
    · intro hmem
      linarith [hmem.2]
    · intro hlt
      constructor <;> linarith
  · rw [sub_eq_zero]
    exact Money.floor_eq_ceil_iff _

namespace Stablecoin

variable {s t : Stablecoin} {call : TransferCall} {sender receiver : Wallet}

/-- The balances that a carried out transfer writes. -/
theorem written_balances (hs : s.NonNegative) (h : s.Admits call sender receiver) {debited credited : Money}
    (hdebited : Money.ofValue? (sender.balance.value - call.amount) = some debited)
    (hcredited : Money.ofValue? (receiver.balance.value + call.amount) = some credited) :
    debited.val = sender.balance.val - ⌈call.units - 1 / 2⌉ ∧ 0 ≤ debited.val ∧
      credited.val = receiver.balance.val + ⌊call.units + 1 / 2⌋ ∧ 0 ≤ credited.val := by
  have hunits : 0 < call.units := mul_pos h.positive (by norm_num)
  have henough : call.units ≤ sender.balance.val := by
    rw [← Money.value_mul]
    exact mul_le_mul_of_nonneg_right h.enough (by norm_num)
  have hnonneg := hs receiver (activeWallet?_eq_some h.receiverFound).1
  have hdebit := Money.halfAway_debit hunits henough
  have hcredit := Money.halfAway_credit hunits hnonneg
  have hd := Money.val_of_ofValue? hdebited
  have hc := Money.val_of_ofValue? hcredited
  rw [sub_mul, Money.value_mul] at hd
  rw [add_mul, Money.value_mul] at hc
  rw [hd, hc]
  exact ⟨hdebit.1, hdebit.2.1, hcredit.1, hcredit.2⟩

theorem total_step (hs : s.NonNegative) (h : s.Admits call sender receiver) :
    (s.step call).total = s.total + call.gain := by
  obtain ⟨t, hwrites, htransfer⟩ := transfer_of_admits h
  obtain ⟨debited, credited, hdebited, hcredited, hwallets, -⟩ := transferWrites_eq_some hwrites
  obtain ⟨hd, -, hc, -⟩ := written_balances hs h hdebited hcredited
  have htotal : (s.step call).total =
      ((s.setBalance call.fromWallet debited).setBalance call.toWallet credited).total := by
    rw [step, htransfer, total, total, hwallets]
  rw [htotal, total_setBalance_setBalance h, TransferCall.gain]
  split
  case isTrue hsame =>
    have hone : sender = receiver := by
      have hfound := h.senderFound
      rw [hsame, h.receiverFound] at hfound
      exact (Option.some.inj hfound).symm
    rw [hc, hone]
    omega
  case isFalse =>
    rw [hd, hc]
    omega

theorem step_nonNegative (s : Stablecoin) (call : TransferCall) (hs : s.NonNegative) :
    (s.step call).NonNegative := by
  rcases transfer_cases s call with ⟨e, he⟩ | ⟨sender, receiver, t, h, hwrites, htransfer⟩
  · rw [step, he]
    exact hs
  · obtain ⟨debited, credited, hdebited, hcredited, hwallets, -⟩ := transferWrites_eq_some hwrites
    obtain ⟨-, hd, -, hc⟩ := written_balances hs h hdebited hcredited
    intro w hw
    rw [step, htransfer, hwallets] at hw
    rcases mem_setBalance hw with hw | hw
    · rw [hw]
      exact hc
    rcases mem_setBalance hw with hw | hw
    · rw [hw]
      exact hd
    · exact hs w hw

/-- A failing call changes nothing at all. -/
theorem transfer_of_error {e : TransferError} (h : (s.transfer call).2 = .error e) : (s.transfer call).1 = s := by
  rcases transfer_cases s call with ⟨e', he⟩ | ⟨sender, receiver, t, -, -, htransfer⟩
  · rw [he]
  · rw [htransfer] at h
    cases h

end Stablecoin

/-- A call that is carried out keeps the total by its arguments. -/
def KeepsTotal (s : Stablecoin) (call : TransferCall) : Prop :=
  ∀ sender receiver, s.Admits call sender receiver → call.KeepsTotal

theorem total_step_eq_iff {s : Stablecoin} {call : TransferCall} (hs : s.NonNegative) :
    (s.step call).total = s.total ↔ KeepsTotal s call := by
  constructor
  · intro htotal sender receiver h
    rw [Stablecoin.total_step hs h] at htotal
    exact (TransferCall.gain_eq_zero_iff h.positive).mp (by omega)
  · intro hkeeps
    rcases Stablecoin.transfer_cases s call with ⟨e, he⟩ | ⟨sender, receiver, t, h, -, -⟩
    · rw [Stablecoin.step, he]
    · have hgain := (TransferCall.gain_eq_zero_iff h.positive).mpr (hkeeps sender receiver h)
      rw [Stablecoin.total_step hs h, hgain, Int.add_zero]

/-- For every set of wallets and every sequence of transfers, failures at any statement included: the total
stays what it was, no balance is negative and a failing transfer changes nothing, exactly if every transfer that
is carried out goes between two wallets and is not an odd number of half units, or stays in one wallet and is
rounded to nothing. -/
theorem conserved_iff_keepsTotal (start : Stablecoin) (hstart : start.NonNegative) (calls : List TransferCall) :
    (∀ s ∈ Runs.visited Stablecoin.step start calls, s.total = start.total ∧ s.NonNegative ∧
        ∀ call e, (s.transfer call).2 = .error e → (s.transfer call).1 = s) ↔
      Runs.AllSteps Stablecoin.step KeepsTotal start calls := by
  apply Runs.forall_visited_iff Stablecoin.step_nonNegative _ hstart
  · exact ⟨rfl, hstart, fun _ _ => Stablecoin.transfer_of_error⟩
  intro s call hs hinv
  rw [← total_step_eq_iff hs, hinv.1]
  constructor
  · exact And.left
  · intro htotal
    exact ⟨htotal, Stablecoin.step_nonNegative s call hs, fun _ _ => Stablecoin.transfer_of_error⟩

/-! ### Seeded wallets -/

section Seeded

def seededMoney (units : Int) (h : -10 ^ 20 < units ∧ units < 10 ^ 20) : Money := ⟨units, h⟩

/-- Two of the seeded wallets. -/
def seededWallets : Stablecoin where
  wallets :=
    [⟨"INEC-TREASURY-001", seededMoney 500000000000000 (by decide), true⟩,
      ⟨"INEC-LOGISTICS-001", seededMoney 50000000000000 (by decide), true⟩]
  transactions := []
  ledger := []
  distinct := by decide

def transferOf (fromWallet toWallet : String) (amount : ℚ) : TransferCall :=
  ⟨fromWallet, toWallet, amount, "logistics", "transfer", "2027-02-20 12:00:00 +0000 UTC", fun _ => true⟩

theorem seededWallets_nonNegative : seededWallets.NonNegative := by
  intro w hw
  simp only [seededWallets, List.mem_cons, List.not_mem_nil, or_false] at hw
  rcases hw with rfl | rfl
  · decide
  · decide

/-- A transfer between the two wallets. -/
theorem conserved_seededWallets :
    (seededWallets.step (transferOf "INEC-TREASURY-001" "INEC-LOGISTICS-001" 250)).wallets.map (·.balance.val) =
        [500000000000000 - 2500000, 50000000000000 + 2500000] ∧
      ∀ s ∈ Runs.visited Stablecoin.step seededWallets [transferOf "INEC-TREASURY-001" "INEC-LOGISTICS-001" 250],
        s.total = seededWallets.total ∧ s.NonNegative ∧ ∀ call e, (s.transfer call).2 = .error e →
          (s.transfer call).1 = s := by
  refine ⟨by decide +kernel, (conserved_iff_keepsTotal seededWallets seededWallets_nonNegative _).mpr ⟨?_, trivial⟩⟩
  intro _ _ _
  rw [TransferCall.KeepsTotal, if_neg (by decide)]
  intro n hn
  -- twice the amount is even
  have htwice : (5000000 : ℚ) = 2 * n + 1 := by
    have hunits : (transferOf "INEC-TREASURY-001" "INEC-LOGISTICS-001" 250).units = 2500000 := by
      norm_num [TransferCall.units, transferOf]
    linarith
  have hint : (5000000 : Int) = 2 * n + 1 := by exact_mod_cast htwice
  omega

/-- A wallet that pays itself is credited and not debited, and half a unit is added to one wallet and not taken
from the other. -/
theorem money_is_created :
    (seededWallets.step (transferOf "INEC-TREASURY-001" "INEC-TREASURY-001" 250)).total =
      seededWallets.total + 2500000 ∧ (seededWallets.step
        (transferOf "INEC-TREASURY-001" "INEC-LOGISTICS-001" (5 / 100000))).total = seededWallets.total + 1 := by
  decide +kernel

end Seeded

end Inec
