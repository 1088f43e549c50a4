import Inec.Lib.Runs
import Inec.Lib.Statements
import Inec.Lib.Sums

/-!
# The GOTV ledger

`GOTVLedger` of handlers_ledger.go: accounts with two pending and two posted columns, transfers with a unique
idempotency key, and the four calls on them. A call is one transaction each, under a mutex, but for
CreateTransferWithRetry, which tries one several times and looks the key up after every failure; between these
steps other calls may come.

The errors of the statements of PostTransfer and VoidTransfer are not looked at; in PostgreSQL the first of them
makes the later statements of the transaction fail, and the commit with them.
-/

namespace Inec

open Statements

inductive GotvStatus
  | pending
  | posted
  | voided
  deriving DecidableEq, Repr

inductive GotvSide
  | debit
  | credit
  deriving DecidableEq, Repr

/-- A row of `gotv_ledger_accounts`. -/
structure GotvAccount where
  id : String
  partyId : Int
  accountType : String
  debitsPending : Int
  debitsPosted : Int
  creditsPending : Int
  creditsPosted : Int
  deriving DecidableEq, Repr

/-- A row of `gotv_ledger_transfers`. -/
structure GotvTransfer where
  id : String
  debitAccountId : String
  creditAccountId : String
  amount : Int
  code : Int
  description : String
  idempotencyKey : String
  status : GotvStatus
  deriving DecidableEq, Repr

/-- What a caller of CreateTransferWithRetry asks for. -/
structure GotvRequest where
  debitAccount : String
  creditAccount : String
  amountKobo : Int
  code : Int
  description : String
  idempotencyKey : String
  deriving DecidableEq, Repr

def isBigint (x : Int) : Bool := -2 ^ 63 ≤ x && x < 2 ^ 63

def isInteger (x : Int) : Bool := -2 ^ 31 ≤ x && x < 2 ^ 31

namespace GotvAccount

variable (a : GotvAccount)

/-- A voided transfer is on no column. -/
def balance : GotvSide → GotvStatus → Int
  | .debit, .pending => a.debitsPending
  | .debit, .posted => a.debitsPosted
  | .credit, .pending => a.creditsPending
  | .credit, .posted => a.creditsPosted
  | _, .voided => 0

/-- `column = column + x`. -/
def add (side : GotvSide) (status : GotvStatus) (x : Int) : GotvAccount :=
  match side, status with
  | .debit, .pending => { a with debitsPending := a.debitsPending + x }
  | .debit, .posted => { a with debitsPosted := a.debitsPosted + x }
  | .credit, .pending => { a with creditsPending := a.creditsPending + x }
  | .credit, .posted => { a with creditsPosted := a.creditsPosted + x }
  | _, .voided => a

/-- The UPDATE of PostTransfer. -/
def post (side : GotvSide) (amount : Int) : GotvAccount := (a.add side .pending (-amount)).add side .posted amount

/-- A column that does not fit is an error. -/
def fits : Bool := isBigint a.debitsPending && isBigint a.debitsPosted && isBigint a.creditsPending &&
      isBigint a.creditsPosted

end GotvAccount

def GotvTransfer.account (t : GotvTransfer) : GotvSide → String
  | .debit => t.debitAccountId
  | .credit => t.creditAccountId

def GotvTransfer.fits (t : GotvTransfer) : Bool := isBigint t.amount && isInteger t.code

def GotvRequest.account (req : GotvRequest) : GotvSide → String
  | .debit => req.debitAccount
  | .credit => req.creditAccount

def GotvRequest.transfer (req : GotvRequest) (txID : String) : GotvTransfer :=
  ⟨txID, req.debitAccount, req.creditAccount, req.amountKobo, req.code, req.description,
    req.idempotencyKey, .pending⟩

/-- The tables, with the constraints of the schema. A key that is left out is stored as the empty text, which is
unique like any other. -/
structure GOTVLedger where
  accounts : List GotvAccount
  transfers : List GotvTransfer
  accountIds : (accounts.map (·.id)).Nodup
  transferIds : (transfers.map (·.id)).Nodup
  keys : (transfers.map (·.idempotencyKey)).Nodup
  references : ∀ t ∈ transfers, t.debitAccountId ∈ accounts.map (·.id) ∧ t.creditAccountId ∈ accounts.map (·.id)
  positive : ∀ t ∈ transfers, 0 < t.amount

namespace GOTVLedger

def empty : GOTVLedger :=
  ⟨[], [], List.nodup_nil, List.nodup_nil, List.nodup_nil, fun _ h => (nomatch h), fun _ h => (nomatch h)⟩

variable (s : GOTVLedger)

def account? (id : String) : Option GotvAccount := s.accounts.find? fun a => a.id == id

def transfer? (id : String) : Option GotvTransfer := s.transfers.find? fun t => t.id == id

def transferByKey? (key : String) : Option GotvTransfer := s.transfers.find? fun t => t.idempotencyKey == key

/-- What is on a column of an account. -/
def balance (id : String) (side : GotvSide) (status : GotvStatus) : Int :=
  ((s.account? id).map (·.balance side status)).getD 0

/-! ### Statements -/

/-- `ON CONFLICT (id) DO NOTHING`: whoever has the account keeps it. -/
def ensureAccount (id : String) (partyId : Int) (accountType : String) : GOTVLedger :=
  if h : id ∈ s.accounts.map (·.id) then s
  else
    { s with
      accounts := s.accounts ++ [⟨id, partyId, accountType, 0, 0, 0, 0⟩]
      accountIds := Rows.nodup_map_append_singleton s.accountIds h
      references := by
        intro t ht
        rw [List.map_append]
        exact ⟨List.mem_append_left _ (s.references t ht).1, List.mem_append_left _ (s.references t ht).2⟩ }

/-- The INSERT of a transfer. -/
def insertTransfer (t : GotvTransfer) : Option GOTVLedger :=
  if h : t.id ∉ s.transfers.map (·.id) ∧ t.idempotencyKey ∉ s.transfers.map (·.idempotencyKey) ∧
      (t.debitAccountId ∈ s.accounts.map (·.id) ∧ t.creditAccountId ∈ s.accounts.map (·.id)) ∧ 0 < t.amount ∧
        t.fits = true then
    some
      { s with
        transfers := s.transfers ++ [t]
        transferIds := Rows.nodup_map_append_singleton s.transferIds h.1
        keys := Rows.nodup_map_append_singleton s.keys h.2.1
        references := by
          intro t' ht'
          rcases List.mem_append.mp ht' with ht' | ht'
          · exact s.references t' ht'
          · rw [List.mem_singleton.mp ht']
            exact h.2.2.1
        positive := by
          intro t' ht'
          rcases List.mem_append.mp ht' with ht' | ht'
          · exact s.positive t' ht'
          · rw [List.mem_singleton.mp ht']
            exact h.2.2.2.1 }
  else none

/-- An UPDATE of an account, which fails where a column does not fit. -/
def updateAccount (id : String) (f : GotvAccount → GotvAccount) (hid : ∀ a, (f a).id = a.id) : Option GOTVLedger :=
  if (s.account? id).all fun a => (f a).fits then
    some
      { s with
        accounts := Rows.update (·.id) id f s.accounts
        accountIds := by
          rw [Rows.map_update fun a _ _ => hid a]
          exact s.accountIds
        references := by
          rw [Rows.map_update fun a _ _ => hid a]
          exact s.references }
  else none

def setStatus (id : String) (status : GotvStatus) : GOTVLedger :=
  { s with
    transfers := Rows.update (·.id) id (fun t => { t with status := status }) s.transfers
    transferIds := by
      rw [Rows.map_update (by intros; rfl)]
      exact s.transferIds
    keys := by
      rw [Rows.map_update (by intros; rfl)]
      exact s.keys
    references := by
      intro t ht
      rcases Rows.mem_update.mp ht with ⟨t₀, ht₀, -, rfl⟩ | ⟨ht, -⟩
      · exact s.references t₀ ht₀
      · exact s.references t ht
    positive := by
      intro t ht
      rcases Rows.mem_update.mp ht with ⟨t₀, ht₀, -, rfl⟩ | ⟨ht, -⟩
      · exact s.positive t₀ ht₀
      · exact s.positive t ht }

end GOTVLedger

/-! ### Calls -/

inductive GotvStatement
  | begin
  | select
  | insert
  | status
  | debit
  | credit
  deriving DecidableEq, Repr

/-- Which statements of a transaction the database carries out, and how it answers the commit. -/
structure GotvTx where
  works : GotvStatement → Bool
  reply : CommitReply

inductive GotvError
  | begin
  | insert
  | debit
  | credit
  | commit
  deriving DecidableEq, Repr

/-- The messages, which go on with the error of the driver. -/
def GotvError.text : GotvError → String
  | begin => "begin tx: "
  | insert => "insert transfer: "
  | debit => "debit pending: "
  | credit => "credit pending: "
  | commit => "commit: "

inductive PostError
  | begin
  | notFound (txID : String)
  | notPending (status : GotvStatus)
  | commit
  deriving DecidableEq, Repr

def GotvStatus.text : GotvStatus → String
  | pending => "PENDING"
  | posted => "POSTED"
  | voided => "VOIDED"

/-- The messages; `begin` and `commit` are the error of the driver. -/
def PostError.text : PostError → String
  | begin => ""
  | notFound txID => "transfer not found: " ++ txID
  | notPending status => "transfer not pending (status=" ++ status.text ++ ")"
  | commit => ""

section Calls

variable (sha256Hex : String → String)

/-- Eight bytes of the hash. -/
def GotvRequest.txID (req : GotvRequest) (nanos : Int) : String :=
  let text := toString nanos ++ "-" ++ req.debitAccount ++ "-" ++ req.creditAccount ++ "-" ++
    toString req.amountKobo ++ "-" ++ req.idempotencyKey
  "GOTV-TX-" ++ String.ofList ((sha256Hex text).toList.take 16)

namespace GOTVLedger

variable (s : GOTVLedger) (tx : GotvTx)

def updateSide (id : String) (side : GotvSide) (status : GotvStatus) (x : Int) : Option GOTVLedger :=
  s.updateAccount id (·.add side status x) (by intro a; cases side <;> cases status <;> rfl)

def createTransfer (req : GotvRequest) (nanos : Int) : GOTVLedger × Except GotvError String :=
  let txID := req.txID sha256Hex nanos
  if !tx.works .begin then (s, .error .begin)
  else
    match exec (tx.works .insert) (·.insertTransfer (req.transfer txID)) (some s) with
    | none => (s, .error .insert)
    | some inserted =>
        match exec (tx.works .debit) (·.updateSide req.debitAccount .debit .pending req.amountKobo)
          (some inserted) with
        | none => (s, .error .debit)
        | some debited =>
            match exec (tx.works .credit) (·.updateSide req.creditAccount .credit .pending req.amountKobo)
              (some debited) with
            | none => (s, .error .credit)
            | some credited =>
                match commit s (some credited) tx.reply with
                | (after, true) => (after, .ok txID)
                | (after, false) => (after, .error .commit)

def postSide (id : String) (side : GotvSide) (amount : Int) : Option GOTVLedger :=
  s.updateAccount id (·.post side amount) (by intro a; cases side <;> rfl)

/-- The statements of PostTransfer whose errors are not looked at. -/
def postWrites (t : GotvTransfer) : Option GOTVLedger :=
  some s
    |> exec (tx.works .status) (fun s => some (s.setStatus t.id .posted))
    |> exec (tx.works .debit) (·.postSide t.debitAccountId .debit t.amount)
    |> exec (tx.works .credit) (·.postSide t.creditAccountId .credit t.amount)

def PostTransfer (txID : String) : GOTVLedger × Option PostError :=
  if !tx.works .begin then (s, some .begin)
  else
    match if tx.works .select then s.transfer? txID else none with
    | none => (s, some (.notFound txID))
    | some t =>
        if t.status ≠ .pending then (s, some (.notPending t.status))
        else
          match commit s (s.postWrites tx t) tx.reply with
          | (after, true) => (after, none)
          | (after, false) => (after, some .commit)

/-- The statements of VoidTransfer. A voided transfer is on no column any more. -/
def voidWrites (t : GotvTransfer) : Option GOTVLedger :=
  let taken : Option GOTVLedger :=
    match t.status with
    | .voided => some s
    | status =>
        some s
          |> exec (tx.works .debit) (·.updateSide t.debitAccountId .debit status (-t.amount))
          |> exec (tx.works .credit) (·.updateSide t.creditAccountId .credit status (-t.amount))
  exec (tx.works .status) (fun s => some (s.setStatus t.id .voided)) taken

def VoidTransfer (txID : String) : GOTVLedger × Option PostError :=
  if !tx.works .begin then (s, some .begin)
  else
    match if tx.works .select then s.transfer? txID else none with
    | none => (s, some (.notFound txID))
    | some t =>
        match commit s (s.voidWrites tx t) tx.reply with
        | (after, true) => (after, none)
        | (after, false) => (after, some .commit)

end GOTVLedger

end Calls

/-! ### Retries -/

inductive RetryResult
  | transfer (id : String)
  | exhausted (err : GotvError)
  | cancelled
  deriving DecidableEq, Repr

def maxRetries : Nat := 3

/-- The message of a call that fails; `cancelled` is the error of the context. -/
def RetryResult.text : RetryResult → String
  | transfer _ => ""
  | exhausted err => "transfer failed after " ++ toString maxRetries ++ " retries: " ++ err.text
  | cancelled => ""

/-- How far a call of CreateTransferWithRetry is. -/
inductive RetryPhase
  | idle
  | trying (req : GotvRequest) (attempt : Nat)
  | failed (req : GotvRequest) (attempt : Nat) (err : GotvError)
  | returned (req : GotvRequest) (result : RetryResult)
  deriving DecidableEq, Repr

inductive RetryAct
  | attempt (nanos : Int) (tx : GotvTx)
  | lookup (works cancelled : Bool)

/-- The next step of CreateTransferWithRetry. -/
def GOTVLedger.retry (sha256Hex : String → String) (s : GOTVLedger) (act : RetryAct) (phase : RetryPhase) :
    GOTVLedger × RetryPhase :=
  match act, phase with
  | .attempt nanos tx, .trying req attempt =>
      match s.createTransfer sha256Hex tx req nanos with
      | (after, .ok id) => (after, .returned req (.transfer id))
      | (after, .error err) => (after, .failed req attempt err)
  | .lookup works cancelled, .failed req attempt err =>
      match if req.idempotencyKey ≠ "" ∧ works then s.transferByKey? req.idempotencyKey else none with
      | some t => (s, .returned req (.transfer t.id))
      | none =>
          if attempt < maxRetries then
            (s, if cancelled then .returned req .cancelled else .trying req (attempt + 1))
          else (s, .returned req (.exhausted err))
  | _, _ => (s, phase)

/-- The ledger and the calls of CreateTransferWithRetry in one process. -/
structure GotvProcess where
  ledger : GOTVLedger
  calls : Nat → RetryPhase

inductive GotvAct
  | ensureAccount (id : String) (partyId : Int) (accountType : String) (works : Bool)
  | call (n : Nat) (req : GotvRequest)
  | retry (n : Nat) (act : RetryAct)
  | post (txID : String) (tx : GotvTx)
  | void (txID : String) (tx : GotvTx)

namespace GotvProcess

def start : GotvProcess := ⟨.empty, fun _ => .idle⟩

def step (sha256Hex : String → String) (s : GotvProcess) : GotvAct → GotvProcess
  | .ensureAccount id partyId accountType works =>
      { s with ledger := if works then s.ledger.ensureAccount id partyId accountType else s.ledger }
  | .call n req =>
      match s.calls n with
      | .idle => { s with calls := Function.update s.calls n (.trying req 0) }
      | _ => s
  | .retry n act =>
      let (ledger, phase) := s.ledger.retry sha256Hex act (s.calls n)
      ⟨ledger, Function.update s.calls n phase⟩
  | .post txID tx => { s with ledger := (s.ledger.PostTransfer tx txID).1 }
  | .void txID tx => { s with ledger := (s.ledger.VoidTransfer tx txID).1 }

end GotvProcess

end Inec
