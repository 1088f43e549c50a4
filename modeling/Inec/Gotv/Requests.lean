import Inec.Gotv.Ledger

/-!
# Requests to the GOTV ledger

handleLedgerTransfer makes sure of the two accounts it is given, calls CreateTransferWithRetry and posts what is
small. Other requests may come between any two of these. handleLedgerReconcile answers with `Reconcile`.
-/

namespace Inec

/-- What handleLedgerTransfer answers, but for the amount in naira and two fields that are always true. -/
inductive GotvAnswer
  | refused (status : Nat) (message : String)
  | transferred (transferId : String) (status : String) (amountKobo : Int) (debitAccount creditAccount : String)
  deriving DecidableEq, Repr

/-- How far a request is. -/
inductive GotvTransferRequest
  | idle
  | debitAccount (partyId : Int) (req : GotvRequest)
  | creditAccount (partyId : Int) (req : GotvRequest)
  | calling (partyId : Int) (phase : RetryPhase)
  | posting (partyId : Int) (req : GotvRequest) (txID : String)
  | answered (partyId : Int) (answer : GotvAnswer)
  deriving DecidableEq, Repr

/-- The party of the request. -/
def GotvTransferRequest.partyId? : GotvTransferRequest → Option Int
  | idle => none
  | debitAccount partyId _ => some partyId
  | creditAccount partyId _ => some partyId
  | calling partyId _ => some partyId
  | posting partyId _ _ => some partyId
  | answered partyId _ => some partyId

structure GotvService where
  ledger : GOTVLedger
  requests : Nat → GotvTransferRequest

/-- A body that does not decode is `none`. `setup` is EnsurePartyAccounts at the start of a process. -/
inductive GotvServiceAct
  | setup (partyId : Int) (suffix : String) (works : Bool)
  | transfer (n : Nat) (partyId : Int) (body : Option GotvRequest)
  | ensure (n : Nat) (works : Bool)
  | call (n : Nat) (act : RetryAct)
  | post (n : Nat) (tx : GotvTx)

/-- Smaller transfers are posted at once. -/
def autoPostBelow : Int := 100000

def transferred (req : GotvRequest) (txID : String) : GotvAnswer :=
  .transferred txID "POSTED" req.amountKobo req.debitAccount req.creditAccount

/-- What handleLedgerTransfer does before it comes to the ledger. -/
def acceptTransfer (partyId : Int) : Option GotvRequest → GotvTransferRequest
  | none => .answered partyId (.refused 400 "invalid request body")
  | some req =>
      if req.amountKobo ≤ 0 then .answered partyId
        (.refused 400 "amount must be positive") else .debitAccount partyId req

/-- What it does after a step of CreateTransferWithRetry. -/
def afterCall (partyId : Int) : RetryPhase → GotvTransferRequest
  | .returned req (.transfer txID) =>
      if req.amountKobo < autoPostBelow then .posting partyId req txID else .answered partyId (transferred req txID)
  | .returned _ result => .answered partyId (.refused 500 result.text)
  | phase => .calling partyId phase

namespace GotvService

def start : GotvService := ⟨.empty, fun _ => .idle⟩

/-- EnsureAccount, whose error is not looked at. -/
def ensured (s : GotvService) (works : Bool) (id : String) (partyId : Int) (accountType : String) : GOTVLedger :=
  if works then s.ledger.ensureAccount id partyId accountType else s.ledger

def step (sha256Hex : String → String) (s : GotvService) : GotvServiceAct → GotvService
  | .setup partyId suffix works =>
      { s with ledger := s.ensured works ("gotv-party-" ++ toString partyId ++ "-" ++ suffix) partyId suffix }
  | .transfer n partyId body =>
      match s.requests n with
      | .idle => { s with requests := Function.update s.requests n (acceptTransfer partyId body) }
      | _ => s
  | .ensure n works =>
      match s.requests n with
      | .debitAccount partyId req =>
          ⟨s.ensured works req.debitAccount partyId "custom", Function.update s.requests n
            (.creditAccount partyId req)⟩
      | .creditAccount partyId req =>
          ⟨s.ensured works req.creditAccount partyId "custom", Function.update s.requests n
            (.calling partyId (.trying req 0))⟩
      | _ => s
  | .call n act =>
      match s.requests n with
      | .calling partyId phase =>
          let (ledger, phase) := s.ledger.retry sha256Hex act phase
          ⟨ledger, Function.update s.requests n (afterCall partyId phase)⟩
      | _ => s
  | .post n tx =>
      match s.requests n with
      | .posting partyId req txID =>
          ⟨(s.ledger.PostTransfer tx txID).1, Function.update s.requests n
            (.answered partyId (transferred req txID))⟩
      | _ => s

/-- The party whose request takes the step. -/
def actor (s : GotvService) : GotvServiceAct → Option Int
  | .setup _ _ _ => none
  | .transfer _ partyId _ => some partyId
  | .ensure n _ => (s.requests n).partyId?
  | .call n _ => (s.requests n).partyId?
  | .post n _ => (s.requests n).partyId?

end GotvService

/-! ### Reconciliation -/

/-- What Reconcile reports, but for the time and two fields that are always true. -/
structure GotvReconciliation where
  partyId : Int
  accountCount : Nat
  transferCount : Nat
  posted : Nat
  pending : Nat
  voided : Nat
  totalPosted : Int
  debitsPosted : Int
  creditsPosted : Int
  variance : Int
  balanced : Bool
  deriving DecidableEq, Repr

namespace GOTVLedger

def accountsOf (s : GOTVLedger) (partyId : Int) : List GotvAccount :=
  s.accounts.filter fun a => a.partyId == partyId

/-- The transfers that join an account of the party on the debit side. -/
def debitedFrom (s : GOTVLedger) (partyId : Int) : List GotvTransfer :=
  s.transfers.filter fun t => (s.account? t.debitAccountId).any fun a => a.partyId == partyId

def Reconcile (s : GOTVLedger) (partyId : Int) : GotvReconciliation :=
  let debits := ((s.accountsOf partyId).map (·.debitsPosted)).sum
  let credits := ((s.accountsOf partyId).map (·.creditsPosted)).sum
  let transfers := s.debitedFrom partyId
  let posted := transfers.filter fun t => t.status == .posted
  { partyId
    accountCount := (s.accountsOf partyId).length
    transferCount := transfers.length
    posted := posted.length
    pending := transfers.countP fun t => t.status == .pending
    voided := transfers.countP fun t => t.status == .voided
    totalPosted := (posted.map (·.amount)).sum
    debitsPosted := debits
    creditsPosted := credits
    variance := debits - credits
    balanced := debits == credits }

end GOTVLedger

end Inec
