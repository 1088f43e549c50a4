import Inec.Gotv.Balances
import Inec.Lib.Sha256
import Inec.Lib.Text

/-!
# Deposits of aspirants

handleAspirantDeposit makes a transfer in the ledger and then sets deposit_paid, if the aspirant is there, is of
the party and has not paid. The transfer is made before any of this is looked at, under a key with the time in
it, so a request that is refused in the end has made one all the same, and two requests of one aspirant make
two. The two agree (`Agrees`) where a transfer is only attempted for a deposit that is due and has none, and the
request comes to its end once it has one (`Orderly`).
-/

namespace Inec

open Statements

/-- A row of `aspirants`, as far as deposits go. -/
structure DepositAspirant where
  id : String
  partyCode : String
  depositPaid : Bool
  depositAmountKobo : Int
  depositTransferId : Option String
  deleted : Bool
  deriving DecidableEq, Repr

inductive DepositAnswer
  | refused (status : Nat) (error : String) (detail : Option String)
  | paid (transferId : String) (amountKobo : Int)
  deriving DecidableEq, Repr

/-- How far a request is. Whether an attempt of its own was carried out is kept beside it. -/
inductive DepositRequest
  | idle
  | transferring (partyCode id : String) (phase : RetryPhase) (wrote : Bool)
  | confirmed (partyCode id : String) (req : GotvRequest) (transferId : String) (wrote : Bool)
  | answered (answer : DepositAnswer) (wrote : Bool)
  | lost
  deriving DecidableEq, Repr

structure DepositService where
  ledger : GOTVLedger
  aspirants : List DepositAspirant
  ids : (aspirants.map (·.id)).Nodup
  requests : Nat → DepositRequest

/-- `crash` is the end of the process of a request. The reply is that of the UPDATE, which is a transaction of
its own. -/
inductive DepositAct
  | deposit (n : Nat) (partyId : Int) (id : String) (amountKobo : Int) (permitted configured : Bool) (nanos : Int)
  | attempt (n : Nat) (nanos : Int) (tx : GotvTx)
  | lookup (n : Nat) (works : Bool)
  | update (n : Nat) (reply : CommitReply)
  | crash (n : Nat)

def DepositAct.request : DepositAct → Nat
  | deposit n _ _ _ _ _ _ => n
  | attempt n _ _ => n
  | lookup n _ => n
  | update n _ => n
  | crash n => n

/-! ### recordTBTransfer -/

def transferCode (transferType : String) : Int :=
  if transferType = "aspirant_deposit" then 8
  else if transferType = "ballot_cast" then 9
  else if transferType = "remote_ballot_cast" then 10
  else 0

/-- What recordTBTransfer asks of the ledger. -/
def tbTransfer (transferType : String) (amountKobo : Int) (entityID : String) (nanos : Int) : GotvRequest :=
  ⟨"operations", "escrow", amountKobo, transferCode transferType, transferType,
    transferType ++ ":" ++ entityID ++ ":" ++ toString nanos⟩

/-- The entity in a key. -/
def keyEntity? (transferType : String) (key : String) : Option String :=
  let start := (transferType ++ ":").toList
  if start.isPrefixOf key.toList then
    some (String.ofList (((key.toList.drop start.length).reverse.dropWhile (· ≠ ':')).drop 1).reverse)
  else none

/-! ### handleAspirantDeposit -/

def unavailable (detail : String) : DepositAnswer := .refused 503 "payment ledger unavailable" (some detail)

/-- What handleAspirantDeposit does before the transfer. -/
def acceptDeposit (partyId : Int) (id : String) (amountKobo : Int) (permitted configured : Bool)
    (nanos : Int) : DepositRequest :=
  if amountKobo ≤ 0 then .answered (.refused 400 "amount_kobo must be positive" none) false
  else if !permitted then .answered (.refused 403 "insufficient permissions" none) false
  else if !configured then
    .answered (unavailable "no TigerBeetle ledger configured; refusing to mark a deposit paid without ledger confirmation") false
  else .transferring ("party_" ++ toString partyId) id
    (.trying (tbTransfer "aspirant_deposit" amountKobo id nanos) 0) false

/-- What it does after a step of CreateTransferWithRetry. -/
def afterTransfer (partyCode id : String) (wrote : Bool) : RetryPhase → DepositRequest
  | .returned req (.transfer transferId) =>
      if transferId = "" then .answered
        (unavailable "ledger transfer could not be confirmed; deposit remains unpaid") wrote
      else .confirmed partyCode id req transferId wrote
  | .returned _ _ => .answered (unavailable "ledger transfer could not be confirmed; deposit remains unpaid") wrote
  | phase => .transferring partyCode id phase wrote

/-- The condition of the UPDATE on a row of the aspirant. -/
def DepositAspirant.due (a : DepositAspirant) (partyCode : String) : Bool :=
  a.partyCode == partyCode && !a.depositPaid && !a.deleted

def DepositAspirant.pay (a : DepositAspirant) (amountKobo : Int) (transferId : String) : DepositAspirant :=
  { a with depositPaid := true, depositAmountKobo := amountKobo, depositTransferId := some transferId }

namespace DepositService

variable (s : DepositService)

def aspirant? (id : String) : Option DepositAspirant := s.aspirants.find? fun a => a.id == id

/-- There is a row for the UPDATE. -/
def due (partyCode id : String) : Bool := (s.aspirant? id).any fun a => a.due partyCode

def paid (id : String) : Bool := (s.aspirant? id).any fun a => a.depositPaid

def setRequest (n : Nat) (request : DepositRequest) : DepositService :=
  { s with requests := Function.update s.requests n request }

/-- The UPDATE, where a row matches. -/
def pay (id : String) (amountKobo : Int) (transferId : String) : DepositService :=
  { s with
    aspirants := Rows.update (·.id) id (·.pay amountKobo transferId) s.aspirants
    ids := by
      rw [Rows.map_update (by intros; rfl)]
      exact s.ids }

def step (sha256Hex : String → String) : DepositAct → DepositService
  | .deposit n partyId id amountKobo permitted configured nanos =>
      match s.requests n with
      | .idle => s.setRequest n (acceptDeposit partyId id amountKobo permitted configured nanos)
      | _ => s
  | .attempt n nanos tx =>
      match s.requests n with
      | .transferring partyCode id phase wrote =>
          let (after, phase) := s.ledger.retry sha256Hex (.attempt nanos tx) phase
          { s with ledger := after }.setRequest n (afterTransfer partyCode id
            (wrote || after.transfers != s.ledger.transfers) phase)
      | _ => s
  | .lookup n works =>
      match s.requests n with
      | .transferring partyCode id phase wrote =>
          s.setRequest n (afterTransfer partyCode id wrote (s.ledger.retry sha256Hex (.lookup works false) phase).2)
      | _ => s
  | .update n reply =>
      match s.requests n with
      | .confirmed partyCode id req transferId wrote =>
          let updated := if s.due partyCode id then s.pay id req.amountKobo transferId else s
          match reply with
          | .done =>
              let answer : DepositAnswer :=
                if s.due partyCode id then .paid transferId req.amountKobo
                else .refused 404 "aspirant not found or deposit already paid" none
              updated.setRequest n (.answered answer wrote)
          | .refused => s.setRequest n (.answered (.refused 500 "deposit recording failed" none) wrote)
          | .lost => updated.setRequest n (.answered (.refused 500 "deposit recording failed" none) wrote)
      | _ => s
  | .crash n =>
      match s.requests n with
      | .transferring _ _ _ _ => s.setRequest n .lost
      | .confirmed _ _ _ _ _ => s.setRequest n .lost
      | _ => s

/-! ### Agreement -/

/-- A transfer for the deposit of the aspirant. -/
def isDepositOf (id : String) (t : GotvTransfer) : Bool :=
  t.code == transferCode "aspirant_deposit" && keyEntity? "aspirant_deposit" t.idempotencyKey == some id

def deposits (id : String) : Nat := s.ledger.transfers.countP (isDepositOf id)

/-- A request of the aspirant is between its acceptance and its answer. -/
def underWay (n : Nat) (id : String) : Prop :=
  match s.requests n with
  | .transferring _ id' _ _ => id' = id
  | .confirmed _ id' _ _ _ => id' = id
  | _ => False

/-- An aspirant with no request under way has one deposit transfer if the deposit is paid, and none otherwise. -/
def Agrees : Prop := ∀ id, (∀ n, ¬s.underWay n id) → s.deposits id = if s.paid id then 1 else 0

/-- The request was refused. -/
def refused (n : Nat) : Prop := ∃ status error detail wrote, s.requests n =
      .answered (.refused status error detail) wrote

/-- A request that is refused in the end has left the ledger alone. -/
def RefusedUnchanged (sha256Hex : String → String) (start : DepositService) (acts : List DepositAct) : Prop :=
  ∀ n, (Runs.final (step · sha256Hex) start acts).refused n →
    Runs.AllSteps (step · sha256Hex) (fun s act => act.request = n → (s.step sha256Hex act).ledger =
      s.ledger) start acts

/-- A transfer is attempted for a deposit that is due and has none, unless its key is taken; a request whose
transfer was carried out comes to its end, and one that has none finds none. -/
def Orderly : DepositAct → Bool
  | .attempt n _ _ =>
      match s.requests n with
      | .transferring partyCode id (.trying req _) _ =>
          (s.ledger.transferByKey? req.idempotencyKey).isSome || s.due partyCode id && s.deposits id == 0
      | _ => true
  | .lookup n works =>
      match s.requests n with
      | .transferring _ _ (.failed req attempt _) wrote =>
          if wrote then works || attempt < maxRetries else !works ||
            (s.ledger.transferByKey? req.idempotencyKey).isNone
      | _ => true
  | .update n reply =>
      match s.requests n with
      | .confirmed _ _ _ _ _ => reply == .done
      | _ => true
  | .crash n =>
      match s.requests n with
      | .transferring _ _ _ wrote => !wrote
      | .confirmed _ _ _ _ _ => false
      | _ => true
  | _ => true

/-! ### Keys -/

theorem keyEntity?_tbTransfer (transferType : String) (amountKobo : Int) (entityID : String) (nanos : Int) :
    keyEntity? transferType (tbTransfer transferType amountKobo entityID nanos).idempotencyKey = some entityID := by
  have hkey : (tbTransfer transferType amountKobo entityID nanos).idempotencyKey.toList =
      (transferType ++ ":").toList ++ (entityID.toList ++ ':' :: (toString nanos).toList) := by
    simp only [tbTransfer, String.toList_append, List.append_assoc]
    rfl
  have hfree : ∀ c ∈ (toString nanos).toList.reverse, decide (c ≠ ':') = true := by
    intro c hc
    rw [List.mem_reverse] at hc
    rw [decide_eq_true_eq]
    rintro rfl
    exact Text.notMem_toString_int (by decide) (by decide) nanos hc
  simp only [keyEntity?, hkey]
  rw [if_pos (List.isPrefixOf_iff_prefix.mpr (List.prefix_append ..)), List.drop_left, List.reverse_append,
    List.reverse_cons, List.append_assoc, List.dropWhile_append_of_pos hfree]
  simp

theorem isDepositOf_tbTransfer (amountKobo : Int) (id id' : String) (nanos : Int) (txID : String) :
    isDepositOf id' ((tbTransfer "aspirant_deposit" amountKobo id nanos).transfer txID) = decide (id = id') := by
  rw [isDepositOf]
  show (transferCode "aspirant_deposit" == transferCode "aspirant_deposit" &&
    keyEntity? "aspirant_deposit"
      (tbTransfer "aspirant_deposit" amountKobo id nanos).idempotencyKey == some id') = decide (id = id')
  rw [keyEntity?_tbTransfer, beq_self_eq_true, Bool.true_and]
  by_cases h : id = id' <;> simp [h]

theorem tbTransfer_key_ne (transferType : String) (amountKobo : Int) (entityID : String) (nanos : Int) :
    (tbTransfer transferType amountKobo entityID nanos).idempotencyKey ≠ "" := by
  intro h
  have hempty := keyEntity?_tbTransfer transferType amountKobo entityID nanos
  rw [h, keyEntity?, String.toList_append] at hempty
  simp at hempty

/-! ### Requests that have a transfer -/

/-- The party, the aspirant and the key of a request whose transfer was carried out and that is not yet answered. -/
structure DepositHold where
  partyCode : String
  id : String
  key : String

def hold? : DepositRequest → Option DepositHold
  | .transferring partyCode id (.trying req _) true => some ⟨partyCode, id, req.idempotencyKey⟩
  | .transferring partyCode id (.failed req _ _) true => some ⟨partyCode, id, req.idempotencyKey⟩
  | .confirmed partyCode id req _ true => some ⟨partyCode, id, req.idempotencyKey⟩
  | _ => none

/-- A request in the ledger is trying, or looks its key up; one that goes on to the UPDATE has a transfer, and
one that was refused has none. -/
def WellFormed : DepositRequest → Prop
  | .transferring _ id phase _ =>
      ∃ amountKobo nanos, (∃ attempt, phase = .trying (tbTransfer "aspirant_deposit" amountKobo id nanos) attempt) ∨
        ∃ attempt err, phase = .failed (tbTransfer "aspirant_deposit" amountKobo id nanos) attempt err
  | .confirmed _ _ _ _ wrote => wrote = true
  | .answered (.refused _ _ _) wrote => wrote = false
  | _ => True

/-- The deposit that a request has its transfer for is due, and the transfer is the only one. -/
structure Held (s : DepositService) (hold : DepositHold) : Prop where
  due : s.due hold.partyCode hold.id = true
  one : s.deposits hold.id = 1
  stored : ∃ t, s.ledger.transferByKey? hold.key = some t ∧ t.id ≠ ""

structure Sound (s : DepositService) : Prop where
  wellFormed : ∀ n, WellFormed (s.requests n)
  held : ∀ n hold, hold? (s.requests n) = some hold → s.Held hold
  sole : ∀ n m hold hold', hold? (s.requests n) = some hold → hold? (s.requests m) = some hold' →
    hold.id = hold'.id → n = m
  free : ∀ id, (∀ n hold, hold? (s.requests n) = some hold → hold.id ≠ id) → s.deposits id =
    if s.paid id then 1 else 0

variable {sha256Hex : String → String} {s}

@[simp] theorem requests_setRequest (n : Nat) (request : DepositRequest) :
    (s.setRequest n request).requests = Function.update s.requests n request := rfl

@[simp] theorem due_setRequest (n : Nat) (request : DepositRequest) : (s.setRequest n request).due = s.due := rfl

@[simp] theorem paid_setRequest (n : Nat) (request : DepositRequest) : (s.setRequest n request).paid = s.paid := rfl

@[simp] theorem ledger_setRequest (n : Nat) (request : DepositRequest) :
    (s.setRequest n request).ledger = s.ledger := rfl

/-- A request that goes on with what it has changes nothing for the others. -/
theorem Sound.setRequest (hs : s.Sound) {n : Nat} {request : DepositRequest} (hwell : WellFormed request)
    (hhold : hold? request = hold? (s.requests n)) : (s.setRequest n request).Sound := by
  have hholds : ∀ m, hold? ((s.setRequest n request).requests m) = hold? (s.requests m) := by
    intro m
    rw [requests_setRequest]
    by_cases hm : m = n
    · subst hm
      rw [Function.update_self, hhold]
    · rw [Function.update_of_ne hm]
  constructor
  · intro m
    rw [requests_setRequest]
    by_cases hm : m = n
    · subst hm
      rw [Function.update_self]
      exact hwell
    · rw [Function.update_of_ne hm]
      exact hs.wellFormed m
  · intro m hold h
    rw [hholds] at h
    obtain ⟨hdue, hone, hstored⟩ := hs.held m hold h
    exact ⟨hdue, hone, hstored⟩
  · intro m m' hold hold' h h'
    rw [hholds] at h h'
    exact hs.sole m m' hold hold' h h'
  · intro id h
    apply hs.free id
    intro m hold hm
    rw [← hholds] at hm
    exact h m hold hm

theorem step_deposit_sound (hs : s.Sound) (n : Nat) (partyId : Int) (id : String) (amountKobo : Int)
    (permitted configured : Bool) (nanos : Int) :
    (s.step sha256Hex (.deposit n partyId id amountKobo permitted configured nanos)).Sound := by
  rw [step]
  split
  case h_1 hidle =>
    apply hs.setRequest
    · rw [acceptDeposit]
      split
      · rfl
      · split
        · rfl
        · split
          · rfl
          · exact ⟨amountKobo, nanos, .inl ⟨0, rfl⟩⟩
    · rw [hidle, acceptDeposit]
      split
      · rfl
      · split
        · rfl
        · split <;> rfl
  case h_2 => exact hs

theorem step_crash_sound (hs : s.Sound) (n : Nat) (h : s.Orderly (.crash n) = true) :
    (s.step sha256Hex (.crash n)).Sound := by
  rw [step]
  split
  case h_1 partyCode id phase wrote hphase =>
    rw [Orderly, hphase] at h
    have hwrote : wrote = false := by simpa using h
    have hlost : WellFormed .lost := trivial
    apply hs.setRequest hlost
    rw [hphase, hwrote]
    cases phase <;> rfl
  case h_2 partyCode id req transferId wrote hphase =>
    rw [Orderly, hphase] at h
    cases h
  case h_3 => exact hs

/-- Where a look-up takes a request to: on to the UPDATE with what it found, to the next attempt, or to a
refusal. -/
theorem retry_lookup_cases (sha256Hex : String → String) (ledger : GOTVLedger) (works : Bool)
    {req : GotvRequest} (hkey : req.idempotencyKey ≠ "") (attempt : Nat) (err : GotvError) :
    (∃ t, works = true ∧ ledger.transferByKey? req.idempotencyKey = some t ∧
      (ledger.retry sha256Hex (.lookup works false) (.failed req attempt err)).2 = .returned req (.transfer t.id)) ∨
    ((works = false ∨ ledger.transferByKey? req.idempotencyKey = none) ∧
      (ledger.retry sha256Hex (.lookup works false) (.failed req attempt err)).2 =
        if attempt < maxRetries then .trying req (attempt + 1) else .returned req (.exhausted err)) := by
  rw [GOTVLedger.retry]
  cases works with
  | false =>
      refine .inr ⟨.inl rfl, ?_⟩
      rw [if_neg (by simp)]
      exact apply_ite Prod.snd ..
  | true =>
      rw [if_pos ⟨hkey, rfl⟩]
      cases ledger.transferByKey? req.idempotencyKey with
      | some t => exact .inl ⟨t, rfl, rfl, rfl⟩
      | none =>
          refine .inr ⟨.inr rfl, ?_⟩
          exact apply_ite Prod.snd ..

theorem step_lookup_sound (hs : s.Sound) (n : Nat) (works : Bool) (h : s.Orderly (.lookup n works) = true) :
    (s.step sha256Hex (.lookup n works)).Sound := by
  rw [step]
  split
  case h_2 => exact hs
  case h_1 partyCode id phase wrote hphase =>
    have hwell := hs.wellFormed n
    rw [hphase] at hwell
    obtain ⟨amountKobo, nanos, ⟨attempt, rfl⟩ | ⟨attempt, err, rfl⟩⟩ := hwell
    · -- nothing to look up
      apply hs.setRequest
      · exact ⟨amountKobo, nanos, .inl ⟨attempt, rfl⟩⟩
      · rw [hphase]
        rfl
    · rw [Orderly, hphase] at h
      have hkey := tbTransfer_key_ne "aspirant_deposit" amountKobo id nanos
      obtain ⟨t, hworks, hfound, hnext⟩ | ⟨hnone, hnext⟩ :=
        retry_lookup_cases sha256Hex s.ledger works hkey attempt err
      · rw [hnext]
        cases wrote with
        | false => simp [hworks, hfound] at h
        | true =>
            have hhold : hold? (s.requests n) = some ⟨partyCode, id,
                (tbTransfer "aspirant_deposit" amountKobo id nanos).idempotencyKey⟩ := by
              rw [hphase]
              rfl
            obtain ⟨t', hfound', hid⟩ := (hs.held n _ hhold).stored
            obtain rfl := Option.some.inj (hfound.symm.trans hfound')
            rw [afterTransfer, if_neg hid]
            have hwell : WellFormed
              (.confirmed partyCode id (tbTransfer "aspirant_deposit" amountKobo id nanos) t.id true) := rfl
            apply hs.setRequest hwell
            rw [hhold]
            rfl
      · rw [hnext]
        split
        case isTrue =>
          apply hs.setRequest
          · exact ⟨amountKobo, nanos, .inl ⟨attempt + 1, rfl⟩⟩
          · rw [hphase]
            cases wrote <;> rfl
        case isFalse hlast =>
          cases wrote with
          | false =>
              apply hs.setRequest
              · rfl
              · rw [hphase]
                rfl
          | true =>
              -- the last look-up of a request that has a transfer works, and finds it
              have hworks : works = true := by simpa [hlast] using h
              have hhold : hold? (s.requests n) =
                  some ⟨partyCode, id, (tbTransfer "aspirant_deposit" amountKobo id nanos).idempotencyKey⟩ := by
                rw [hphase]
                rfl
              obtain ⟨t, hfound, -⟩ := (hs.held n _ hhold).stored
              rw [hworks, hfound] at hnone
              simp at hnone

/-! ### The UPDATE -/

theorem aspirant?_pay (id : String) (amountKobo : Int) (transferId : String) (id' : String) :
    (s.pay id amountKobo transferId).aspirant? id' =
      (s.aspirant? id').map fun a => if a.id = id then a.pay amountKobo transferId else a := by
  have hkey : ∀ a : DepositAspirant, (a.pay amountKobo transferId).id = a.id := fun _ => rfl
  exact Rows.find?_update hkey s.aspirants id'

theorem aspirant?_pay_of_ne {id id' : String} (hne : id' ≠ id) (amountKobo : Int) (transferId : String) :
    (s.pay id amountKobo transferId).aspirant? id' = s.aspirant? id' := by
  rw [aspirant?_pay]
  cases ha : s.aspirant? id' with
  | none => rfl
  | some a =>
      have hid : a.id = id' := (Rows.find?_key ha).2
      rw [Option.map_some, if_neg (hid ▸ hne)]

theorem paid_pay {partyCode id : String} (hdue : s.due partyCode id = true) (amountKobo : Int)
    (transferId : String) :
    (s.pay id amountKobo transferId).paid id = true := by
  rw [due] at hdue
  rw [paid, aspirant?_pay]
  cases ha : s.aspirant? id with
  | none =>
      rw [ha] at hdue
      cases hdue
  | some a =>
      have hid : a.id = id := (Rows.find?_key ha).2
      rw [Option.map_some, if_pos hid]
      rfl

theorem step_update_sound (hs : s.Sound) (n : Nat) (reply : CommitReply) (h : s.Orderly (.update n reply) = true) :
    (s.step sha256Hex (.update n reply)).Sound := by
  rw [step]
  split
  case h_2 => exact hs
  case h_1 partyCode id req transferId wrote hphase =>
    rw [Orderly, hphase, beq_iff_eq] at h
    subst h
    have hwell := hs.wellFormed n
    rw [hphase] at hwell
    change wrote = true at hwell
    subst hwell
    have hhold : hold? (s.requests n) = some ⟨partyCode, id, req.idempotencyKey⟩ := by
      rw [hphase]
      rfl
    obtain ⟨hdue, hone, -⟩ := hs.held n _ hhold
    change s.due partyCode id = true at hdue
    change s.deposits id = 1 at hone
    simp only [hdue, if_true]
    have hother : ∀ m hold, hold? (((s.pay id req.amountKobo transferId).setRequest n
        (.answered (.paid transferId req.amountKobo) true)).requests m) = some hold → hold? (s.requests m) =
          some hold ∧ hold.id ≠ id := by
      intro m hold hm
      rw [requests_setRequest] at hm
      by_cases hmn : m = n
      · subst hmn
        rw [Function.update_self] at hm
        cases hm
      · rw [Function.update_of_ne hmn] at hm
        exact ⟨hm, fun hid => hmn (hs.sole m n hold _ hm hhold hid)⟩
    constructor
    · intro m
      rw [requests_setRequest]
      by_cases hm : m = n
      · subst hm
        rw [Function.update_self]
        trivial
      · rw [Function.update_of_ne hm]
        exact hs.wellFormed m
    · intro m hold hm
      obtain ⟨hm, hne⟩ := hother m hold hm
      obtain ⟨hdue', hone', hstored'⟩ := hs.held m hold hm
      refine ⟨?_, hone', hstored'⟩
      rw [due_setRequest, due, aspirant?_pay_of_ne hne]
      exact hdue'
    · intro m m' hold hold' hm hm'
      exact hs.sole m m' hold hold' (hother m hold hm).1 (hother m' hold' hm').1
    · intro id' hfree
      rw [paid_setRequest]
      show s.deposits id' = _
      by_cases hid : id' = id
      · subst hid
        rw [paid_pay hdue, hone]
        rfl
      · rw [paid, aspirant?_pay_of_ne hid]
        apply hs.free id'
        intro m hold hm hid'
        by_cases hmn : m = n
        · subst hmn
          obtain rfl := Option.some.inj (hm.symm.trans hhold)
          exact hid hid'.symm
        · apply hfree m hold _ hid'
          rw [requests_setRequest, Function.update_of_ne hmn]
          exact hm

/-! ### The transfer -/

theorem deposits_append {s after : DepositService} {t : GotvTransfer}
    (h : after.ledger.transfers = s.ledger.transfers ++ [t]) (id : String) :
    after.deposits id = s.deposits id + if isDepositOf id t then 1 else 0 := by
  rw [deposits, h, List.countP_append, List.countP_singleton]
  rfl

/-- A request that stores its transfer holds it, for a deposit that had none. -/
theorem Sound.store (hs : s.Sound) {n : Nat} {partyCode id : String} {amountKobo nanos : Int} {attempt : Nat}
    {txID : String} {wrote : Bool} (hphase : s.requests n = .transferring partyCode id
      (.trying (tbTransfer "aspirant_deposit" amountKobo id nanos) attempt) wrote)
    {ledger : GOTVLedger}
    (htransfers : ledger.transfers = s.ledger.transfers ++
      [(tbTransfer "aspirant_deposit" amountKobo id nanos).transfer txID])
    (htxID : txID ≠ "") (hdue : s.due partyCode id = true) (hnone : s.deposits id = 0) {request : DepositRequest}
    (hwell : WellFormed request)
    (hhold : hold? request = some ⟨partyCode, id,
      (tbTransfer "aspirant_deposit" amountKobo id nanos).idempotencyKey⟩) :
    ({ s with ledger := ledger }.setRequest n request).Sound := by
  generalize hafter : { s with ledger := ledger }.setRequest n request = after
  have hrequests : after.requests = Function.update s.requests n request := by rw [← hafter, requests_setRequest]
  have hdues : after.due = s.due := by
    rw [← hafter]
    rfl
  have hpaid : after.paid = s.paid := by
    rw [← hafter]
    rfl
  have hledger : after.ledger = ledger := by rw [← hafter, ledger_setRequest]
  have hdeposits : ∀ id', after.deposits id' = s.deposits id' + if id = id' then 1 else 0 := by
    intro id'
    rw [deposits_append (hledger ▸ htransfers), isDepositOf_tbTransfer]
    simp
  -- the other requests hold what they held, for other aspirants
  have hother : ∀ m hold, m ≠ n → hold? (after.requests m) = some hold → hold? (s.requests m) = some hold ∧
      hold.id ≠ id := by
    intro m hold hmn hm
    rw [hrequests, Function.update_of_ne hmn] at hm
    refine ⟨hm, fun hid => ?_⟩
    have hone := (hs.held m hold hm).one
    rw [hid, hnone] at hone
    cases hone
  have hself : ∀ hold, hold? (after.requests n) = some hold →
      hold = ⟨partyCode, id, (tbTransfer "aspirant_deposit" amountKobo id nanos).idempotencyKey⟩ := by
    intro hold hn
    rw [hrequests, Function.update_self, hhold] at hn
    exact (Option.some.inj hn).symm
  have hstays : ∀ key t, s.ledger.transferByKey? key = some t → after.ledger.transferByKey? key = some t := by
    intro key t ht
    rw [hledger, GOTVLedger.transferByKey?, htransfers, List.find?_append]
    rw [GOTVLedger.transferByKey?] at ht
    rw [ht, Option.some_or]
  constructor
  · intro m
    rw [hrequests]
    by_cases hm : m = n
    · subst hm
      rw [Function.update_self]
      exact hwell
    · rw [Function.update_of_ne hm]
      exact hs.wellFormed m
  · intro m hold hm
    by_cases hmn : m = n
    · subst hmn
      obtain rfl := hself hold hm
      refine ⟨by rw [hdues]; exact hdue, by rw [hdeposits, hnone, if_pos rfl], ?_⟩
      refine ⟨(tbTransfer "aspirant_deposit" amountKobo id nanos).transfer txID, ?_, htxID⟩
      rw [GOTVLedger.transferByKey?, Rows.find?_key_eq_some_iff after.ledger.keys, hledger, htransfers]
      exact ⟨List.mem_append_right _ List.mem_cons_self, rfl⟩
    · obtain ⟨hm, hne⟩ := hother m hold hmn hm
      obtain ⟨hdue', hone', t, ht, hid⟩ := hs.held m hold hm
      refine ⟨by rw [hdues]; exact hdue', ?_, t, hstays _ t ht, hid⟩
      rw [hdeposits, hone', if_neg (Ne.symm hne)]
  · intro m m' hold hold' hm hm' hid
    by_cases hmn : m = n
    · by_cases hmn' : m' = n
      · exact hmn.trans hmn'.symm
      · subst hmn
        obtain rfl := hself hold hm
        exact absurd hid.symm (hother m' hold' hmn' hm').2
    · by_cases hmn' : m' = n
      · subst hmn'
        obtain rfl := hself hold' hm'
        exact absurd hid (hother m hold hmn hm).2
      · exact hs.sole m m' hold hold' (hother m hold hmn hm).1 (hother m' hold' hmn' hm').1 hid
  · intro id' hfree
    have hne : id ≠ id' := by
      intro hid
      apply hfree n ⟨partyCode, id, (tbTransfer "aspirant_deposit" amountKobo id nanos).idempotencyKey⟩ _ hid
      rw [hrequests, Function.update_self, hhold]
    rw [hdeposits, hpaid, if_neg hne, Nat.add_zero]
    apply hs.free id'
    intro m hold hm hid
    by_cases hmn : m = n
    · subst hmn
      rw [hphase] at hm
      cases wrote with
      | false => cases hm
      | true =>
          obtain rfl := Option.some.inj hm
          exact hne hid
    · apply hfree m hold _ hid
      rw [hrequests, Function.update_of_ne hmn]
      exact hm

theorem step_attempt_sound (hs : s.Sound) (n : Nat) (nanos : Int) (tx : GotvTx)
    (h : s.Orderly (.attempt n nanos tx) = true) :
    (s.step sha256Hex (.attempt n nanos tx)).Sound := by
  rw [step]
  split
  case h_2 => exact hs
  case h_1 partyCode id phase wrote hphase =>
    have hwell := hs.wellFormed n
    rw [hphase] at hwell
    have hunwritten : (wrote || s.ledger.transfers != s.ledger.transfers) = wrote := by simp
    obtain ⟨amountKobo, keyNanos, ⟨attempt, rfl⟩ | ⟨attempt, err, rfl⟩⟩ := hwell
    case inr =>
      show (s.setRequest n (afterTransfer partyCode id (wrote || s.ledger.transfers != s.ledger.transfers) _)).Sound
      rw [hunwritten]
      apply hs.setRequest
      · exact ⟨amountKobo, keyNanos, .inr ⟨attempt, err, rfl⟩⟩
      · rw [hphase]
        rfl
    case inl =>
      rw [GOTVLedger.retry]
      obtain ⟨err, hcreate⟩ | ⟨after, result, hcreate, hresult, htransfers, -⟩ :=
        s.ledger.createTransfer_spec sha256Hex tx (tbTransfer "aspirant_deposit" amountKobo id keyNanos) nanos
      · rw [hcreate]
        show (s.setRequest n (afterTransfer partyCode id
            (wrote || s.ledger.transfers != s.ledger.transfers) _)).Sound
        rw [hunwritten]
        apply hs.setRequest
        · exact ⟨amountKobo, keyNanos, .inr ⟨attempt, err, rfl⟩⟩
        · rw [hphase]
          cases wrote <;> rfl
      · -- the key was free, so the deposit is due and has none
        have hfree := GOTVLedger.key_free htransfers
        change s.ledger.transferByKey?
          (tbTransfer "aspirant_deposit" amountKobo id keyNanos).idempotencyKey = none at hfree
        rw [Orderly, hphase] at h
        simp only [hfree, Option.isSome_none, Bool.false_or, Bool.and_eq_true, beq_iff_eq] at h
        have hwrote : (wrote || after.transfers != s.ledger.transfers) = true := by
          rw [htransfers]
          simp
        have htxID : (tbTransfer "aspirant_deposit" amountKobo id keyNanos).txID sha256Hex nanos ≠ "" := by
          rw [GotvRequest.txID]
          simp
        rw [hcreate]
        obtain rfl | rfl := hresult
        · dsimp only
          rw [hwrote, afterTransfer, if_neg htxID]
          apply hs.store hphase htransfers htxID h.1 h.2
          · rfl
          · rfl
        · dsimp only
          rw [hwrote]
          apply hs.store hphase htransfers htxID h.1 h.2
          · exact ⟨amountKobo, keyNanos, .inr ⟨attempt, .commit, rfl⟩⟩
          · rfl

/-! ### Runs -/

theorem step_sound (hs : s.Sound) (act : DepositAct) (h : s.Orderly act = true) : (s.step sha256Hex act).Sound := by
  cases act with
  | deposit n partyId id amountKobo permitted configured nanos =>
      exact step_deposit_sound hs n partyId id amountKobo permitted configured nanos
  | attempt n nanos tx => exact step_attempt_sound hs n nanos tx h
  | lookup n works => exact step_lookup_sound hs n works h
  | update n reply => exact step_update_sound hs n reply h
  | crash n => exact step_crash_sound hs n h

theorem Sound.agrees (hs : s.Sound) : s.Agrees := by
  intro id hidle
  apply hs.free id
  rintro n hold hn rfl
  apply hidle n
  rw [underWay]
  cases hrequest : s.requests n with
  | transferring partyCode id phase wrote =>
      rw [hrequest] at hn
      cases wrote with
      | false => cases phase <;> cases hn
      | true =>
          cases phase with
          | trying req attempt => exact congrArg DepositHold.id (Option.some.inj hn)
          | failed req attempt err => exact congrArg DepositHold.id (Option.some.inj hn)
          | idle => cases hn
          | returned req result => cases hn
  | confirmed partyCode id req transferId wrote =>
      rw [hrequest] at hn
      cases wrote with
      | false => cases hn
      | true => exact congrArg DepositHold.id (Option.some.inj hn)
  | idle =>
      rw [hrequest] at hn
      cases hn
  | answered answer wrote =>
      rw [hrequest] at hn
      cases hn
  | lost =>
      rw [hrequest] at hn
      cases hn

theorem sound_of_idle (hidle : ∀ n, s.requests n = .idle) (hagrees : s.Agrees) : s.Sound := by
  have hnone : ∀ n hold, hold? (s.requests n) ≠ some hold := by
    intro n hold h
    rw [hidle] at h
    cases h
  constructor
  · intro n
    rw [hidle]
    trivial
  · intro n hold h
    exact absurd h (hnone n hold)
  · intro n m hold hold' h
    exact absurd h (hnone n hold)
  · intro id _
    apply hagrees id
    intro n h
    rw [underWay, hidle] at h
    exact h

/-- An attempt of the request was carried out. -/
def wroteOf : DepositRequest → Bool
  | .transferring _ _ _ wrote => wrote
  | .confirmed _ _ _ _ wrote => wrote
  | .answered _ wrote => wrote
  | _ => false

@[simp] theorem wroteOf_afterTransfer (partyCode id : String) (wrote : Bool) (phase : RetryPhase) :
    wroteOf (afterTransfer partyCode id wrote phase) = wrote := by
  unfold afterTransfer
  split
  · split <;> rfl
  · rfl
  · rfl

/-- A step is of one request. -/
theorem requests_step_of_ne (sha256Hex : String → String) (s : DepositService) {act : DepositAct} {n : Nat}
    (hne : n ≠ act.request) :
    (s.step sha256Hex act).requests n = s.requests n := by
  have hset : ∀ (s' : DepositService) request, (s'.setRequest act.request request).requests n = s'.requests n :=
    fun _ _ => Function.update_of_ne hne ..
  cases act with
  | deposit m partyId id amountKobo permitted configured nanos =>
      rw [step]
      split
      · exact hset ..
      · rfl
  | attempt m nanos tx =>
      rw [step]
      split
      · exact hset ..
      · rfl
  | lookup m works =>
      rw [step]
      split
      · exact hset ..
      · rfl
  | update m reply =>
      rw [step]
      split
      case h_1 partyCode id req transferId wrote hphase =>
        have hpay : ((if s.due partyCode id then s.pay id req.amountKobo transferId else s).requests) = s.requests := by
          split <;> rfl
        cases reply with
        | done => exact (hset ..).trans (congrFun hpay n)
        | refused => exact hset ..
        | lost => exact (hset ..).trans (congrFun hpay n)
      case h_2 => rfl
  | crash m =>
      rw [step]
      split
      · exact hset ..
      · exact hset ..
      · rfl

theorem wroteOf_setRequest (n : Nat) (request : DepositRequest) :
    wroteOf ((s.setRequest n request).requests n) = wroteOf request := by
  rw [requests_setRequest, Function.update_self]

/-- What was carried out stays so, as long as the process does not end. -/
theorem wroteOf_step (act : DepositAct) (h : s.Orderly act = true) {n : Nat} (hn : wroteOf (s.requests n) = true) :
    wroteOf ((s.step sha256Hex act).requests n) = true := by
  by_cases hne : n = act.request
  case neg =>
    rw [requests_step_of_ne sha256Hex s hne]
    exact hn
  case pos =>
    subst hne
    cases act with
    | deposit m partyId id amountKobo permitted configured nanos =>
        rw [step]
        split
        case h_1 hidle =>
          rw [DepositAct.request, hidle] at hn
          cases hn
        case h_2 => exact hn
    | attempt m nanos tx =>
        rw [step]
        split
        case h_1 partyCode id phase wrote hphase =>
          rw [DepositAct.request, hphase] at hn
          change wrote = true at hn
          rw [DepositAct.request, wroteOf_setRequest, wroteOf_afterTransfer, hn, Bool.true_or]
        case h_2 => exact hn
    | lookup m works =>
        rw [step]
        split
        case h_1 partyCode id phase wrote hphase =>
          rw [DepositAct.request, hphase] at hn
          rw [DepositAct.request, wroteOf_setRequest, wroteOf_afterTransfer]
          exact hn
        case h_2 => exact hn
    | update m reply =>
        rw [step]
        split
        case h_1 partyCode id req transferId wrote hphase =>
          rw [DepositAct.request, hphase] at hn
          cases reply with
          | done =>
              dsimp only
              rw [DepositAct.request, wroteOf_setRequest]
              exact hn
          | refused =>
              dsimp only
              rw [DepositAct.request, wroteOf_setRequest]
              exact hn
          | lost =>
              dsimp only
              rw [DepositAct.request, wroteOf_setRequest]
              exact hn
        case h_2 => exact hn
    | crash m =>
        rw [step]
        split
        case h_1 partyCode id phase wrote hphase =>
          rw [DepositAct.request, hphase] at hn
          rw [Orderly, hphase] at h
          change wrote = true at hn
          rw [hn] at h
          cases h
        case h_2 partyCode id req transferId wrote hphase =>
          rw [Orderly, hphase] at h
          cases h
        case h_3 => exact hn

/-- Only an attempt that is carried out changes the ledger. -/
theorem ledger_step (sha256Hex : String → String) (s : DepositService) (act : DepositAct) :
    (s.step sha256Hex act).ledger = s.ledger ∨ wroteOf ((s.step sha256Hex act).requests act.request) = true := by
  cases act with
  | deposit m partyId id amountKobo permitted configured nanos =>
      rw [step]
      split <;> exact .inl rfl
  | attempt m nanos tx =>
      rw [step]
      split
      case h_1 partyCode id phase wrote hphase =>
        obtain hsame | ⟨req, _, _, _, -, -, htransfers, -⟩ :=
          s.ledger.retry_spec sha256Hex (.attempt nanos tx) phase
        · exact .inl hsame
        · refine .inr ?_
          rw [DepositAct.request, wroteOf_setRequest, wroteOf_afterTransfer, htransfers]
          simp
      case h_2 => exact .inl rfl
  | lookup m works =>
      rw [step]
      split <;> exact .inl rfl
  | update m reply =>
      rw [step]
      split
      case h_1 partyCode id req transferId wrote hphase =>
        have hpay : ((if s.due partyCode id then s.pay id req.amountKobo transferId else s).ledger) = s.ledger := by
          split <;> rfl
        cases reply with
        | done => exact .inl hpay
        | refused => exact .inl rfl
        | lost => exact .inl hpay
      case h_2 => exact .inl rfl
  | crash m =>
      rw [step]
      split <;> exact .inl rfl

theorem wroteOf_final {acts : List DepositAct} {n : Nat} (hn : wroteOf (s.requests n) = true)
    (h : Runs.AllSteps (step · sha256Hex) (fun s act => s.Orderly act = true) s acts) :
    wroteOf ((Runs.final (step · sha256Hex) s acts).requests n) = true := by
  induction acts generalizing s with
  | nil => exact hn
  | cons act rest ih => exact ih (wroteOf_step act h.1 hn) h.2

/-- A request that has not had an attempt carried out in the end has not changed the ledger before. -/
theorem ledger_unchanged {acts : List DepositAct} {n : Nat}
    (h : Runs.AllSteps (step · sha256Hex) (fun s act => s.Orderly act = true) s acts)
    (hn : wroteOf ((Runs.final (step · sha256Hex) s acts).requests n) = false) :
    Runs.AllSteps (step · sha256Hex) (fun s act => act.request = n → (s.step sha256Hex act).ledger =
      s.ledger) s acts := by
  induction acts generalizing s with
  | nil => trivial
  | cons act rest ih =>
      refine ⟨?_, ih h.2 hn⟩
      rintro rfl
      obtain hsame | hwrote := ledger_step sha256Hex s act
      · exact hsame
      · have hfinal := wroteOf_final hwrote h.2
        rw [Runs.final_cons, hfinal] at hn
        cases hn

/-- In an orderly run the ledger and the flags agree, and refusals leave the ledger alone. -/
theorem agrees_of_orderly (sha256Hex : String → String) {start : DepositService}
    (hidle : ∀ n, start.requests n = .idle) (hagrees : start.Agrees) {acts : List DepositAct}
    (h : Runs.AllSteps (step · sha256Hex) (fun s act => s.Orderly act = true) start acts) :
    (∀ s ∈ Runs.visited (step · sha256Hex) start acts, s.Agrees) ∧ RefusedUnchanged sha256Hex start acts := by
  have hkeep : ∀ (s : DepositService) act, s.Sound → s.Orderly act = true → (s.step sha256Hex act).Sound :=
    fun _ act hs => step_sound hs act
  have hsound := Runs.forall_visited hkeep (sound_of_idle hidle hagrees) h
  constructor
  · intro s hs
    exact (hsound s hs).agrees
  · rintro n ⟨status, error, detail, wrote, hrefused⟩
    apply ledger_unchanged h
    have hwell := (hsound _ (Runs.final_mem_visited ..)).wellFormed n
    rw [hrefused] at hwell ⊢
    exact hwell

/-- Two aspirants of two parties, and the accounts of the transfers. -/
def depositStart : DepositService where
  ledger := (GOTVLedger.empty.ensureAccount "operations" 1 "custom").ensureAccount "escrow" 1 "custom"
  aspirants := [⟨"asp-1", "party_1", false, 0, none, false⟩, ⟨"asp-2", "party_2", false, 0, none, false⟩]
  ids := by decide
  requests _ := .idle

theorem depositStart_agrees : depositStart.Agrees := by
  intro id _
  have hunpaid : depositStart.paid id = false := by
    rw [paid]
    cases ha : depositStart.aspirant? id with
    | none => rfl
    | some a =>
        have hmem := (Rows.find?_key ha).1
        have hall : ∀ a ∈ depositStart.aspirants, a.depositPaid = false := by decide
        exact hall a hmem
  rw [hunpaid]
  rfl

def doneTx : GotvTx := ⟨fun _ => true, .done⟩

/-- The answer to the first commit is lost, and the insert of the second request fails once. A third is refused. -/
def orderlyDeposits : List DepositAct :=
  [.deposit 0 1 "asp-1" 5000000 true true 1000, .deposit 1 2 "asp-2" 7000000 true true 1001,
    .attempt 0 1002 ⟨fun _ => true, .lost⟩, .attempt 1 1003 ⟨(· != .insert), .done⟩, .lookup 0 true,
      .lookup 1 true, .update 0 .done, .attempt 1 1004 doneTx, .update 1 .done,
    .deposit 2 1 "asp-1" 0 true true 1005]

theorem agrees_of_orderlyDeposits :
    (∀ s ∈ Runs.visited (step · Sha256.hex) depositStart orderlyDeposits, s.Agrees) ∧
      RefusedUnchanged Sha256.hex depositStart orderlyDeposits :=
  agrees_of_orderly Sha256.hex (fun _ => rfl) depositStart_agrees (by decide +kernel)

/-- The second party deposits for the aspirant of the first. -/
def foreignDeposit : List DepositAct :=
  [.deposit 0 2 "asp-1" 5000000 true true 1000, .attempt 0 1001 doneTx, .update 0 .done]

/-- The request is refused and its transfer stays. -/
theorem refused_with_transfer :
    ¬(∀ s ∈ Runs.visited (step · Sha256.hex) depositStart foreignDeposit, s.Agrees) ∧
      ¬RefusedUnchanged Sha256.hex depositStart foreignDeposit := by
  have hrun : (Runs.final (step · Sha256.hex) depositStart foreignDeposit).requests 0 =
        .answered (.refused 404 "aspirant not found or deposit already paid" none) true ∧
      (Runs.final (step · Sha256.hex) depositStart foreignDeposit).deposits "asp-1" = 1 ∧
      (Runs.final (step · Sha256.hex) depositStart foreignDeposit).paid "asp-1" = false ∧
      ((Runs.final (step · Sha256.hex) depositStart (foreignDeposit.take 1)).step Sha256.hex
        (.attempt 0 1001 doneTx)).ledger.transfers ≠
        (Runs.final (step · Sha256.hex) depositStart (foreignDeposit.take 1)).ledger.transfers := by
    decide +kernel
  obtain ⟨hrefused, hone, hunpaid, hchanged⟩ := hrun
  constructor
  · intro hagrees
    have hfinal := hagrees _ (Runs.final_mem_visited ..) "asp-1"
    rw [hone, hunpaid] at hfinal
    refine absurd (hfinal fun n => ?_) (by decide)
    by_cases hn : n = 0
    · subst hn
      rw [underWay, hrefused]
      exact id
    · have hidle : (Runs.final (step · Sha256.hex) depositStart foreignDeposit).requests n = .idle := by
        rw [foreignDeposit, Runs.final_cons, Runs.final_cons, Runs.final_cons, Runs.final_nil,
          requests_step_of_ne _ _ hn, requests_step_of_ne _ _ hn, requests_step_of_ne _ _ hn]
        rfl
      rw [underWay, hidle]
      exact id
  · intro hunchanged
    have h := (hunchanged 0 ⟨_, _, _, _, hrefused⟩).getElem 1 (by decide)
    exact hchanged (congrArg GOTVLedger.transfers (h rfl))

end DepositService

end Inec
