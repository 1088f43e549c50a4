import Inec.Settlement.Binding

/-!
# Repeating a step that was cut off

A request that stops on its way leaves the row as it was, and whatever it did in the ledger. Its
accounts do no harm: the same request finds them the next time. Its transfer does. The ledger answers the
second creation with `exists`, the client reads that as an error like any other, and the request fails
from then on.
-/

namespace Inec

variable {lib : SettlementLib} {env : SettlementEnv} {answer : MojaAnswer}

/-! ### A request by itself -/

section Alone

variable (lib : SettlementLib) (env : SettlementEnv)

/-- A number of calls and statements of one request, with what comes back from each. -/
def runCalls (x : World × Stage) (calls : List (Reply × MojaAnswer)) : World × Stage :=
  calls.foldl (fun x call => advanceStage lib env call.1 call.2 x.1 x.2) x

/-- What a request leaves behind that is cut off after these calls. -/
def interrupted (actor : String) (op : SettlementOp) (calls : List (Reply × MojaAnswer)) (w : World) : World :=
  (runCalls lib env (w, beginStage lib env actor op w) calls).1

/-- Where a request ends that is answered every time. -/
def Ends (answer : MojaAnswer) (x : World × Stage) (w' : World) (result : Except HttpError Unit) : Prop :=
  ∃ n, runCalls lib env x (List.replicate n (.answered, answer)) = (w', .finished result)

/-- The whole request, answered every time. -/
def Performs (actor : String) (op : SettlementOp) (answer : MojaAnswer) (w w' : World)
    (result : Except HttpError Unit) : Prop :=
  Ends lib env answer (w, beginStage lib env actor op w) w' result

/-- The request goes through and makes its transfer. -/
def GoesThrough (actor : String) (op : SettlementOp) (answer : MojaAnswer) (w : World) : Prop :=
  ∃ w' t, Performs lib env actor op answer w w' (.ok ()) ∧ w'.ledger.transfers = w.ledger.transfers ++ [t]

/-- The request, repeated on what is left, goes through and ends where it would have ended at once, with one
transfer made in all. -/
def RetrySafe (actor : String) (op : SettlementOp) (answer : MojaAnswer) (w left : World) : Prop :=
  ∃ w' t, Performs lib env actor op answer w w' (.ok ()) ∧ Performs lib env actor op answer left w' (.ok ()) ∧
    w'.ledger.transfers = w.ledger.transfers ++ [t]

end Alone

@[simp] theorem runCalls_cons (x : World × Stage) (call : Reply × MojaAnswer) (rest : List (Reply × MojaAnswer)) :
    runCalls lib env x (call :: rest) = runCalls lib env (advanceStage lib env call.1 call.2 x.1 x.2) rest := rfl

theorem runCalls_finished (w : World) (result : Except HttpError Unit) (calls : List (Reply × MojaAnswer)) :
    runCalls lib env (w, .finished result) calls = (w, .finished result) := by
  induction calls with
  | nil => rfl
  | cons call rest ih => exact ih

/-- What every call keeps holds after any number of them. -/
theorem runCalls_inv {inv : World × Stage → Prop}
    (hstep : ∀ x reply answer, inv x → inv (advanceStage lib env reply answer x.1 x.2))
    {x : World × Stage} (hx : inv x) (calls : List (Reply × MojaAnswer)) : inv (runCalls lib env x calls) := by
  induction calls generalizing x with
  | nil => exact hx
  | cons call rest ih => exact ih (hstep x call.1 call.2 hx)

theorem Ends.inv (inv : World × Stage → Prop)
    (hstep : ∀ x reply answer, inv x → inv (advanceStage lib env reply answer x.1 x.2))
    {x : World × Stage} (hx : inv x) {w' : World} {result : Except HttpError Unit}
    (h : Ends lib env answer x w' result) : inv (w', .finished result) := by
  obtain ⟨n, hn⟩ := h
  rw [← hn]
  exact runCalls_inv hstep hx _

theorem ends_step {x : World × Stage} {w' : World} {result : Except HttpError Unit} :
    Ends lib env answer x w' result ↔ Ends lib env answer
      (advanceStage lib env .answered answer x.1 x.2) w' result := by
  constructor
  · rintro ⟨n, hn⟩
    cases n with
    | zero =>
        obtain rfl : x = (w', .finished result) := hn
        exact ⟨0, rfl⟩
    | succ n => exact ⟨n, hn⟩
  · rintro ⟨n, hn⟩
    exact ⟨n + 1, hn⟩

theorem not_ends_ok_failed {w w' : World} {err : HttpError} :
    ¬ Ends lib env answer (w, .finished (.error err)) w' (.ok ()) := by
  rintro ⟨n, hn⟩
  rw [runCalls_finished] at hn
  simp at hn

/-- A request only reads the row when it begins. -/
theorem beginStage_congr {w left : World} (h : left.row = w.row) (actor : String) (op : SettlementOp) :
    beginStage lib env actor op left = beginStage lib env actor op w := by
  rw [beginStage, h, beginStage]

/-! ### The transfer of a request -/

/-- The id of the transfer a request has still to make. -/
def Stage.upcoming? (lib : SettlementLib) : Stage → Option String
  | .lookingUp record _ _ => some (ledgerTransferId lib record)
  | .creatingAccount record _ _ => some (ledgerTransferId lib record)
  | .recheckingAccount record _ _ _ => some (ledgerTransferId lib record)
  | .creatingTransfer record _ => some (ledgerTransferId lib record)
  | .gettingTransaction record => some (record.tigerBeetleTransferId.getD "" ++ "-post")
  | .posting record _ => some (record.tigerBeetleTransferId.getD "" ++ "-post")
  | .voiding _ transferId => some (transferId ++ "-void")
  | _ => none

/-- A transfer is stored under the id. -/
def Ledger.Taken (l : Ledger) (id : String) : Prop := ∃ t ∈ l.transfers, t.id = id

/-- The request is still before its transfer, or it has failed. -/
def BeforeTransfer (lib : SettlementLib) (id : String) (stage : Stage) : Prop :=
  stage.upcoming? lib = some id ∨ ∃ err, stage = .finished (.error err)

/-- The transfer is in the ledger and the request goes on after it, or has failed. -/
def Made (lib : SettlementLib) (id : String) (x : World × Stage) : Prop :=
  x.1.ledger.Taken id ∧ x.2.upcoming? lib = none

theorem afterAccount_upcoming (record : SettlementRow) (cfg : SettlementConfig) (side : AccountSide) :
    (afterAccount record cfg side).upcoming? lib = some (ledgerTransferId lib record) := by
  cases side <;> rfl

theorem taken_accept {w : World} {t : LedgerTransfer} : (w.accept t).ledger.Taken t.id :=
  ⟨w.ledger.completed t, List.mem_append_right _ (List.mem_singleton_self _), Ledger.completed_id _ _⟩

theorem not_taken_of_transfer?_eq_none {l : Ledger} {id : String} (h : l.transfer? id = none) : ¬ l.Taken id := by
  rintro ⟨t, ht, hid⟩
  rw [Ledger.transfer?, List.find?_eq_none] at h
  exact h t ht (beq_iff_eq.mpr hid)

/-- A ledger call under the id of the request: it fails and leaves the world, or the id was free and is
taken. -/
theorem ledgerStep_upcoming {w : World} {t : LedgerTransfer} {outcome : Except String Unit × Ledger}
    (h : Attempts w.ledger t outcome) (reply : Reply) {next : Stage} (message : String)
    (hnext : next.upcoming? lib = none) :
    ((ledgerStep reply outcome next message w).1 = w ∧
        ∃ err, (ledgerStep reply outcome next message w).2 = .finished (.error err)) ∨
      (¬ w.ledger.Taken t.id ∧ Made lib t.id (ledgerStep reply outcome next message w)) := by
  rcases ledgerStep_cases h reply next message with hrefused | ⟨haccept, hfree, -, -, hreply⟩
  · exact Or.inl hrefused
  · refine Or.inr ⟨not_taken_of_transfer?_eq_none hfree, ?_, ?_⟩
    · rw [haccept]
      exact taken_accept
    · rcases hreply with ⟨-, heq⟩ | ⟨-, err, heq⟩
      · rw [heq]
        exact hnext
      · rw [heq]
        rfl

/-- Until its transfer is made a request leaves row and transfers alone, and its transfer is made only where
its id is free. -/
theorem advance_upcoming {w : World} {stage : Stage} {id : String} (h : stage.upcoming? lib = some id)
    (reply : Reply) (answer : MojaAnswer) :
    ((advanceStage lib env reply answer w stage).1.ledger.transfers = w.ledger.transfers ∧
        BeforeTransfer lib id (advanceStage lib env reply answer w stage).2) ∨
      (¬ w.ledger.Taken id ∧ Made lib id (advanceStage lib env reply answer w stage)) := by
  have hcalled : ∀ {x : World × Stage}, (x.1 = w ∧ ∃ err, x.2 = .finished (.error err)) →
      x.1.ledger.transfers = w.ledger.transfers ∧ BeforeTransfer lib id x.2 := by
    rintro x ⟨hsame, herr⟩
    exact ⟨by rw [hsame], Or.inr herr⟩
  cases stage with
  | lookingUp record cfg side =>
      simp only [advanceStage, lookupStep]
      split
      · split
        · exact Or.inl ⟨trivial, Or.inl ((afterAccount_upcoming record cfg side).trans h)⟩
        · exact Or.inl ⟨trivial, Or.inr ⟨_, rfl⟩⟩
      · exact Or.inl ⟨trivial, Or.inl h⟩
  | creatingAccount record cfg side =>
      have htransfers := (callLedger_account w reply ⟨record.account side, cfg.ledger, cfg.accountCode⟩).2.1
      simp only [advanceStage]
      split
      · exact Or.inl ⟨htransfers, Or.inl ((afterAccount_upcoming record cfg side).trans h)⟩
      · exact Or.inl ⟨htransfers, Or.inl h⟩
  | recheckingAccount record cfg side err =>
      simp only [advanceStage, recheckStep]
      split
      · split
        · exact Or.inl ⟨trivial, Or.inl ((afterAccount_upcoming record cfg side).trans h)⟩
        · exact Or.inl ⟨trivial, Or.inr ⟨_, rfl⟩⟩
      · exact Or.inl ⟨trivial, Or.inr ⟨_, rfl⟩⟩
  | creatingTransfer record cfg =>
      obtain rfl := Option.some.inj h
      exact (ledgerStep_upcoming (attempts_createPendingTransfer w.ledger (pendingTransfer lib record cfg)) reply _
        rfl).imp_left hcalled
  | gettingTransaction record =>
      simp only [advanceStage]
      split
      · split
        · exact Or.inl ⟨rfl, Or.inl h⟩
        · exact Or.inl ⟨rfl, Or.inr ⟨_, rfl⟩⟩
      · exact Or.inl ⟨rfl, Or.inr ⟨_, rfl⟩⟩
  | posting record receipt =>
      obtain rfl := Option.some.inj h
      exact (ledgerStep_upcoming (attempts_native w.ledger ⟨_, .postPending _, "", "", 0, 0, 0⟩ _) reply _
        rfl).imp_left hcalled
  | voiding record transferId =>
      obtain rfl := Option.some.inj h
      exact (ledgerStep_upcoming (attempts_native w.ledger ⟨_, .voidPending _, "", "", 0, 0, 0⟩ _) reply _
        rfl).imp_left hcalled
  | _ => cases h

/-- A request whose transfer is in the ledger already never succeeds. -/
theorem not_ends_ok_of_taken {w w' : World} {stage : Stage} {id : String} (h : stage.upcoming? lib = some id)
    (htaken : w.ledger.Taken id) : ¬ Ends lib env answer (w, stage) w' (.ok ()) := by
  intro hends
  have hinv := Ends.inv (fun x => x.1.ledger.Taken id ∧ BeforeTransfer lib id x.2) ?_ ⟨htaken, Or.inl h⟩ hends
  · rcases hinv.2 with hupcoming | ⟨err, herr⟩
    · cases hupcoming
    · cases herr
  · rintro ⟨w, stage⟩ reply answer ⟨htaken, hbefore⟩
    rcases hbefore with hupcoming | ⟨err, rfl⟩
    · rcases advance_upcoming hupcoming reply answer with ⟨hsame, hnext⟩ | ⟨hfree, -⟩
      · refine ⟨?_, hnext⟩
        rw [Ledger.Taken, hsame]
        exact htaken
      · exact absurd htaken hfree
    · exact ⟨htaken, Or.inr ⟨err, rfl⟩⟩

/-- A request without a transfer ahead of it leaves the transfers as they are. -/
theorem advance_no_upcoming {w : World} {stage : Stage} (h : stage.upcoming? lib = none) (reply : Reply)
    (answer : MojaAnswer) :
    (advanceStage lib env reply answer w stage).1.ledger.transfers = w.ledger.transfers ∧
      (advanceStage lib env reply answer w stage).2.upcoming? lib = none := by
  have hstatement : ∀ f, (w.statement reply f).ledger.transfers = w.ledger.transfers := by
    intro f
    rcases World.statement_cases w reply f with heq | heq <;> rw [heq]
    rfl
  have hended : ∀ message, (afterStatement reply message).upcoming? lib = none := by
    intro message
    unfold afterStatement
    split <;> rfl
  have hsent : ∀ t, (w.transferOut reply t).ledger.transfers = w.ledger.transfers := by
    intro t
    unfold World.transferOut
    split <;> rfl
  cases stage with
  | idle => exact ⟨rfl, rfl⟩
  | finished result => exact ⟨rfl, rfl⟩
  | approving actor record =>
      rcases approveStep_cases reply actor w with ⟨hsame, err, herr⟩ | ⟨r, result, -, -, -, -, heq⟩
      · simp only [advanceStage, hsame, herr]
        exact ⟨trivial, rfl⟩
      · simp only [advanceStage, heq]
        exact ⟨rfl, rfl⟩
  | recordingCommitment record transferId => exact ⟨hstatement _, hended _⟩
  | lookingUpParty record payerFSP =>
      simp only [advanceStage]
      split <;> exact ⟨rfl, rfl⟩
  | quoting record payerFSP payeeFSP =>
      simp only [advanceStage]
      split <;> exact ⟨rfl, rfl⟩
  | transferring record payerFSP payeeFSP quoteId =>
      simp only [advanceStage]
      split <;> exact ⟨hsent _, rfl⟩
  | recordingDispatch record quoteId transferId => exact ⟨hstatement _, hended _⟩
  | markingUnavailable record code err => exact ⟨hstatement _, rfl⟩
  | recordingSettled record receiptSha256 => exact ⟨hstatement _, hended _⟩
  | recordingVoid record => exact ⟨hstatement _, hended _⟩
  | _ => cases h

/-- What is made stays made. -/
theorem Made.advance {id : String} (x : World × Stage) (reply : Reply) (answer : MojaAnswer) (h : Made lib id x) :
    Made lib id (advanceStage lib env reply answer x.1 x.2) := by
  obtain ⟨hsame, hnext⟩ := advance_no_upcoming h.2 reply answer
  refine ⟨?_, hnext⟩
  rw [Ledger.Taken, hsame]
  exact h.1

/-- A request that goes through with a transfer had it ahead of it. -/
theorem GoesThrough.upcoming {actor : String} {op : SettlementOp} {w : World}
    (h : GoesThrough lib env actor op answer w) :
    ∃ id, (beginStage lib env actor op w).upcoming? lib = some id := by
  cases hupcoming : (beginStage lib env actor op w).upcoming? lib with
  | some id => exact ⟨id, rfl⟩
  | none =>
      obtain ⟨w', t, hperforms, htransfers⟩ := h
      have hinv := Ends.inv (fun x => x.1.ledger.transfers = w.ledger.transfers ∧ x.2.upcoming? lib = none) ?_
        ⟨rfl, hupcoming⟩ hperforms
      · have hlength := congrArg List.length (htransfers.symm.trans hinv.1)
        simp at hlength
      · rintro x reply answer ⟨hsame, hnone⟩
        obtain ⟨hsame', hnone'⟩ := advance_no_upcoming hnone reply answer
        exact ⟨hsame'.trans hsame, hnone'⟩

/-! ### Posts and voids

Before their one call nothing has changed at all. -/

def Stage.resolves : Stage → Bool
  | .gettingTransaction _ => true
  | .posting _ _ => true
  | .voiding _ _ => true
  | _ => false

/-- The request has changed nothing and has its call ahead of it, or has failed. -/
def Waiting (lib : SettlementLib) (w : World) (id : String) (x : World × Stage) : Prop :=
  x.1 = w ∧ ((x.2.upcoming? lib = some id ∧ x.2.resolves = true) ∨ ∃ err, x.2 = .finished (.error err))

theorem Waiting.advance {w : World} {id : String} {x : World × Stage} (h : Waiting lib w id x) (reply : Reply)
    (answer : MojaAnswer) :
    Waiting lib w id (advanceStage lib env reply answer x.1 x.2) ∨
      Made lib id (advanceStage lib env reply answer x.1 x.2) := by
  obtain ⟨w, stage⟩ := x
  obtain ⟨rfl, ⟨hid, hresolves⟩ | ⟨err, rfl⟩⟩ := h
  · cases stage with
    | gettingTransaction record =>
        simp only [advanceStage]
        split
        · split
          · exact Or.inl ⟨rfl, Or.inl ⟨hid, rfl⟩⟩
          · exact Or.inl ⟨rfl, Or.inr ⟨_, rfl⟩⟩
        · exact Or.inl ⟨rfl, Or.inr ⟨_, rfl⟩⟩
    | posting record receipt =>
        obtain rfl := Option.some.inj hid
        exact (ledgerStep_upcoming (attempts_native w.ledger ⟨_, .postPending _, "", "", 0, 0,
          0⟩ _) reply _ rfl).imp
          (fun hrefused => ⟨hrefused.1, Or.inr hrefused.2⟩) And.right
    | voiding record transferId =>
        obtain rfl := Option.some.inj hid
        exact (ledgerStep_upcoming (attempts_native w.ledger ⟨_, .voidPending _, "", "", 0, 0,
          0⟩ _) reply _ rfl).imp
          (fun hrefused => ⟨hrefused.1, Or.inr hrefused.2⟩) And.right
    | _ => cases hresolves
  · exact Or.inl ⟨rfl, Or.inr ⟨err, rfl⟩⟩

/-! ### Commitments

Before its transfer a commitment has made some of its accounts and nothing else. -/

section Accounts

variable {record : SettlementRow} {cfg : SettlementConfig} {w : World}

def requiredAccount (record : SettlementRow) (cfg : SettlementConfig) (side : AccountSide) : TBAccount :=
  ⟨record.account side, cfg.ledger, cfg.accountCode⟩

/-- The ledger with the account of that side made sure of. -/
def withAccount (record : SettlementRow) (cfg : SettlementConfig) (side : AccountSide) (l : Ledger) : Ledger :=
  (l.createAccounts (requiredAccount record cfg side)).2

/-- The ledger when a commitment comes to the account of that side. -/
def ledgerBefore (record : SettlementRow) (cfg : SettlementConfig) (l : Ledger) : AccountSide → Ledger
  | .debit => l
  | .credit => withAccount record cfg .debit l

/-- The ledger has the account of that side or not, and everything up to it. -/
def Preparing (record : SettlementRow) (cfg : SettlementConfig) (l : Ledger) (side : AccountSide)
    (l' : Ledger) : Prop :=
  l' = ledgerBefore record cfg l side ∨ l' = withAccount record cfg side (ledgerBefore record cfg l side)

/-- How far a commitment can have come in the ledger before its transfer. -/
def Prepared (record : SettlementRow) (cfg : SettlementConfig) (l l' : Ledger) : Prop :=
  ∃ side, Preparing record cfg l side l'

theorem Preparing.withAccount_eq {l l' : Ledger} {side : AccountSide} (h : Preparing record cfg l side l') :
    withAccount record cfg side l' = withAccount record cfg side (ledgerBefore record cfg l side) := by
  rcases h with rfl | rfl
  · rfl
  · exact Ledger.createAccounts_again _ _

theorem Preparing.eq_of_found {l l' : Ledger} {side : AccountSide}
    (h : Preparing record cfg l side l') {a : TBAccount} (hfound : l'.account? (record.account side) = some a) :
    l' = withAccount record cfg side (ledgerBefore record cfg l side) := by
  rw [← h.withAccount_eq]
  exact (Ledger.createAccounts_of_found hfound).symm

/-- Where a commitment can be before its transfer. -/
inductive Committing (record : SettlementRow) (cfg : SettlementConfig) (w : World) : World × Stage → Prop
  | lookingUp {side : AccountSide} {l : Ledger} (prepared : Preparing record cfg w.ledger side l) :
      Committing record cfg w ({ w with ledger := l }, .lookingUp record cfg side)
  | creatingAccount {side : AccountSide} {l : Ledger} (prepared : Preparing record cfg w.ledger side l) :
      Committing record cfg w ({ w with ledger := l }, .creatingAccount record cfg side)
  | recheckingAccount {side : AccountSide} {err : String} {l : Ledger}
      (prepared : Preparing record cfg w.ledger side l) :
      Committing record cfg w ({ w with ledger := l }, .recheckingAccount record cfg side err)
  | creatingTransfer : Committing record cfg w
      ({ w with ledger := withAccount record cfg .credit (ledgerBefore record cfg w.ledger .credit) },
        .creatingTransfer record cfg)
  | failed {err : HttpError} {l : Ledger} (prepared : Prepared record cfg w.ledger l) :
      Committing record cfg w ({ w with ledger := l }, .finished (.error err))

theorem Committing.prepared {x : World × Stage} (h : Committing record cfg w x) :
    ∃ l, x.1 = { w with ledger := l } ∧ Prepared record cfg w.ledger l := by
  cases h with
  | lookingUp prepared => exact ⟨_, rfl, _, prepared⟩
  | creatingAccount prepared => exact ⟨_, rfl, _, prepared⟩
  | recheckingAccount prepared => exact ⟨_, rfl, _, prepared⟩
  | creatingTransfer => exact ⟨_, rfl, .credit, Or.inr rfl⟩
  | failed prepared => exact ⟨_, rfl, prepared⟩

/-- With the account there the commitment goes on to the next one. -/
theorem committing_afterAccount (record : SettlementRow) (cfg : SettlementConfig) (w : World) (side : AccountSide) :
    Committing record cfg w ({ w with ledger := withAccount record cfg side (ledgerBefore record cfg w.ledger side) },
      afterAccount record cfg side) := by
  cases side with
  | debit => exact .lookingUp (Or.inl rfl)
  | credit => exact .creatingTransfer

theorem committing_of_failed {x : World × Stage} {l : Ledger} {err : HttpError}
    (hworld : x.1 = { w with ledger := l }) (hstage : x.2 = .finished (.error err))
    (hprepared : Prepared record cfg w.ledger l) : Committing record cfg w x := by
  obtain ⟨left, stage⟩ := x
  obtain rfl : left = { w with ledger := l } := hworld
  obtain rfl : stage = .finished (.error err) := hstage
  exact .failed hprepared

/-- The accounts of a call that creates one. -/
theorem callLedger_createAccount (w : World) (reply : Reply) (a : TBAccount) :
    (w.callLedger reply (TBClient.createAccount w.ledger a)).2 =
      if reply = .unreachable then w else { w with ledger := (w.ledger.createAccounts a).2 } := by
  cases reply <;> simp [World.callLedger, World.callLedger.accepted, TBClient.createAccount, nativeResult]

theorem Committing.advance {x : World × Stage} (h : Committing record cfg w x) (reply : Reply)
    (answer : MojaAnswer) :
    Committing record cfg w (advanceStage lib env reply answer x.1 x.2) ∨
      Made lib (ledgerTransferId lib record) (advanceStage lib env reply answer x.1 x.2) := by
  cases h with
  | @lookingUp side l prepared =>
      left
      simp only [advanceStage, lookupStep]
      split
      · rename_i a hfound
        split
        · rw [prepared.eq_of_found hfound]
          exact committing_afterAccount record cfg w side
        · exact .failed ⟨side, prepared⟩
      · exact .creatingAccount prepared
  | @creatingAccount side l prepared =>
      left
      have hcalled := callLedger_createAccount { w with ledger := l } reply (requiredAccount record cfg side)
      simp only [requiredAccount] at hcalled
      simp only [advanceStage]
      split
      · rename_i hok
        have hreached : reply ≠ .unreachable := by
          rintro rfl
          cases hok
        rw [hcalled, if_neg hreached]
        change Committing record cfg w ({ w with ledger := withAccount record cfg side l }, _)
        rw [prepared.withAccount_eq]
        exact committing_afterAccount record cfg w side
      · rw [hcalled]
        split
        · exact .recheckingAccount prepared
        · exact .recheckingAccount (Or.inr prepared.withAccount_eq)
  | @recheckingAccount side err l prepared =>
      left
      simp only [advanceStage, recheckStep]
      split
      · rename_i a hfound
        split
        · rw [prepared.eq_of_found hfound]
          exact committing_afterAccount record cfg w side
        · exact .failed ⟨side, prepared⟩
      · exact .failed ⟨side, prepared⟩
  | creatingTransfer =>
      refine (ledgerStep_upcoming (attempts_createPendingTransfer _
        (pendingTransfer lib record cfg)) reply _ rfl).imp
        ?_ And.right
      rintro ⟨hsame, err, herr⟩
      exact committing_of_failed hsame herr ⟨.credit, Or.inr rfl⟩
  | failed prepared => exact Or.inl (.failed prepared)

/-- The account of that side fits the configuration where it is there at all. -/
def Fits (record : SettlementRow) (cfg : SettlementConfig) (l : Ledger) (side : AccountSide) : Prop :=
  ∀ a, l.account? (record.account side) = some a → accountMatches cfg a = true

theorem accountMatches_required (record : SettlementRow) (cfg : SettlementConfig) (side : AccountSide) :
    accountMatches cfg (requiredAccount record cfg side) = true := by
  simp [accountMatches, requiredAccount]

theorem Fits.withAccount {l : Ledger} {side : AccountSide} (h : Fits record cfg l side) (side' : AccountSide) :
    Fits record cfg (withAccount record cfg side' l) side := by
  intro a ha
  rcases Ledger.account?_createAccounts_cases ha with hold | rfl
  · exact h a hold
  · exact accountMatches_required record cfg side'

/-- A commitment that is answered goes on with the account made sure of, if it fits. -/
theorem ends_lookingUp_iff {w' : World} {side : AccountSide} :
    Ends lib env answer (w, .lookingUp record cfg side) w' (.ok ()) ↔ Fits record cfg w.ledger side ∧
      Ends lib env answer ({ w with ledger := withAccount record cfg side w.ledger },
        afterAccount record cfg side) w'
        (.ok ()) := by
  rw [ends_step]
  cases hfound : w.ledger.account? (record.account side) with
  | some a =>
      have hsame : withAccount record cfg side w.ledger = w.ledger := Ledger.createAccounts_of_found hfound
      have hfits : Fits record cfg w.ledger side ↔ accountMatches cfg a = true := by
        simp [Fits, hfound]
      rw [hsame, hfits]
      simp only [advanceStage, lookupStep, hfound]
      split
      · simp_all
      · rename_i hnot
        refine ⟨fun h => absurd h not_ends_ok_failed, fun h => absurd h.1 hnot⟩
  | none =>
      have hfits : Fits record cfg w.ledger side := by
        intro a ha
        rw [hfound] at ha
        cases ha
      have hcreated : w.callLedger .answered (TBClient.createAccount w.ledger (requiredAccount record cfg side)) =
          (.ok (), { w with ledger := withAccount record cfg side w.ledger }) := by
        have hmissing := @Ledger.createAccounts_of_missing w.ledger (requiredAccount record cfg side) hfound
        refine Prod.ext ?_ (callLedger_createAccount w .answered _)
        simp only [World.callLedger, TBClient.createAccount, hmissing]
        rfl
      simp only [advanceStage, lookupStep, hfound]
      rw [ends_step]
      simp only [requiredAccount] at hcreated
      simp only [advanceStage, hcreated]
      exact ⟨fun h => ⟨hfits, h⟩, And.right⟩

/-- A commitment that goes through at once goes through the same way on whatever a cut-off one prepared. -/
theorem ends_of_prepared {w' : World} {l : Ledger}
    (h : Ends lib env answer (w, .lookingUp record cfg .debit) w' (.ok ()))
    (hprepared : Prepared record cfg w.ledger l) :
    Ends lib env answer ({ w with ledger := l }, .lookingUp record cfg .debit) w' (.ok ()) := by
  obtain ⟨hdebit, h1⟩ := ends_lookingUp_iff.mp h
  obtain ⟨hcredit, h2⟩ := ends_lookingUp_iff.mp h1
  have hagain : ∀ side l, withAccount record cfg side (withAccount record cfg side l) =
      withAccount record cfg side l :=
    fun side l => Ledger.createAccounts_again l _
  have hdone : Ends lib env answer ({ w with ledger := withAccount record cfg .debit w.ledger },
      .lookingUp record cfg .debit) w' (.ok ()) := by
    refine ends_lookingUp_iff.mpr ⟨hdebit.withAccount .debit, ?_⟩
    rw [hagain]
    exact h1
  rcases hprepared with ⟨side, hpreparing⟩
  cases side with
  | debit =>
      rcases hpreparing with rfl | rfl
      · exact h
      · exact hdone
  | credit =>
      rcases hpreparing with rfl | rfl
      · exact hdone
      · -- the debit account is still there after the credit account was made
        obtain ⟨a, ha⟩ := Ledger.account?_createAccounts_self w.ledger (requiredAccount record cfg .debit)
        have hkept : withAccount record cfg .debit (withAccount record cfg .credit
          (withAccount record cfg .debit w.ledger)) =
            withAccount record cfg .credit (withAccount record cfg .debit w.ledger) :=
          Ledger.createAccounts_of_found (Ledger.account?_createAccounts_of_some ha)
        refine ends_lookingUp_iff.mpr ⟨(hdebit.withAccount .debit).withAccount .credit, ?_⟩
        refine ends_lookingUp_iff.mpr ⟨?_, ?_⟩
        · simp only [ledgerBefore, hkept]
          exact hcredit.withAccount .credit
        · simp only [ledgerBefore, hkept, hagain]
          exact h2

end Accounts

/-! ### Repeating the request -/

/-- A cut-off request that made no transfer left something the whole request ends on as it would have at
once; or it made its transfer. -/
theorem interrupted_cases {actor : String} {op : SettlementOp} {w : World} {id : String}
    (hid : (beginStage lib env actor op w).upcoming? lib = some id) (calls : List (Reply × MojaAnswer)) :
    (interrupted lib env actor op calls w).ledger.Taken id ∨
      ((interrupted lib env actor op calls w).ledger.transfers = w.ledger.transfers ∧
        ∀ w', Performs lib env actor op answer w w' (.ok ()) →
          Performs lib env actor op answer (interrupted lib env actor op calls w) w' (.ok ())) := by
  have hwaiting : (beginStage lib env actor op w).resolves = true →
      Waiting lib w id (runCalls lib env (w, beginStage lib env actor op w) calls) ∨
        Made lib id (runCalls lib env (w, beginStage lib env actor op w) calls) := by
    intro hresolves
    refine @runCalls_inv lib env (fun x => Waiting lib w id x ∨ Made lib id x) ?_ _
      (Or.inl ⟨rfl, Or.inl ⟨hid, hresolves⟩⟩)
      calls
    rintro x reply answer (hx | hx)
    · exact hx.advance reply answer
    · exact Or.inr (hx.advance x reply answer)
  have hresolved : (beginStage lib env actor op w).resolves = true →
      (interrupted lib env actor op calls w).ledger.Taken id ∨ interrupted lib env actor op calls w = w :=
    fun hresolves => (hwaiting hresolves).symm.imp And.left And.left
  have hsame : interrupted lib env actor op calls w = w →
      (interrupted lib env actor op calls w).ledger.transfers = w.ledger.transfers ∧
        ∀ w', Performs lib env actor op answer w w' (.ok ()) →
          Performs lib env actor op answer (interrupted lib env actor op calls w) w' (.ok ()) := by
    intro heq
    rw [heq]
    exact ⟨rfl, fun _ h => h⟩
  rcases beginStage_cases lib env actor op w with ⟨result, heq⟩ | ⟨record, hrow, hbegins⟩
  · rw [heq] at hid
    cases hid
  · generalize hstage : beginStage lib env actor op w = stage at hbegins
    rw [hstage] at hid hresolved
    cases hbegins with
    | @commit cfg _ _ =>
        obtain rfl := Option.some.inj hid
        have hrun := @runCalls_inv lib env (fun x => Committing record cfg w x ∨
          Made lib (ledgerTransferId lib record) x)
          ?_ (w, .lookingUp record cfg .debit) (Or.inl (.lookingUp (Or.inl rfl))) calls
        · rw [← hstage] at hrun
          rcases hrun with hcommitting | hmade
          · obtain ⟨l, hleft, hprepared⟩ := hcommitting.prepared
            replace hleft : interrupted lib env actor .commit calls w = { w with ledger := l } := hleft
            have hrow' : (interrupted lib env actor .commit calls w).row = w.row := by rw [hleft]
            refine Or.inr ⟨?_, ?_⟩
            · rw [hleft]
              obtain ⟨side, hpreparing⟩ := hprepared
              cases side <;> rcases hpreparing with rfl | rfl <;> simp [ledgerBefore, withAccount]
            · intro w' hperforms
              rw [Performs, beginStage_congr hrow', hstage, hleft]
              rw [Performs, hstage] at hperforms
              exact ends_of_prepared hperforms hprepared
          · exact Or.inl hmade.1
        · rintro x reply answer (hx | hx)
          · exact hx.advance reply answer
          · exact Or.inr (hx.advance x reply answer)
    | reconcile _ _ => exact (hresolved rfl).imp_right hsame
    | void _ _ => exact (hresolved rfl).imp_right hsame
    | _ => cases hid

def Stage.result? : Stage → Option (Except HttpError Unit)
  | .finished result => some result
  | _ => none

theorem goesThrough_of_run {actor : String} {op : SettlementOp} {w : World} (n : Nat) (t : LedgerTransfer)
    (hresult : (runCalls lib env (w, beginStage lib env actor op w)
    (List.replicate n (.answered, answer))).2.result? =
      some (.ok ()))
    (htransfers : (runCalls lib env (w, beginStage lib env actor op w)
      (List.replicate n (.answered, answer))).1.ledger.transfers = w.ledger.transfers ++ [t]) :
    GoesThrough lib env actor op answer w := by
  refine ⟨_, t, ⟨n, Prod.ext rfl ?_⟩, htransfers⟩
  revert hresult
  generalize (runCalls lib env (w, beginStage lib env actor op w) (List.replicate n (.answered, answer))).2 = stage
  intro hresult
  cases stage with
  | finished result => exact congrArg _ (Option.some.inj hresult)
  | _ => cases hresult

def answeredCalls (n : Nat) : List (Reply × MojaAnswer) := List.replicate n (.answered, settledAnswer)

/-- The world after a number of answered calls of the operation. -/
def answeredWorld (op : SettlementOp) (calls : Nat) (w : World) : World :=
  interrupted plainLib plainSettlementEnv "approver" op (answeredCalls calls) w

/-- A settlement that was requested and approved. -/
def approvedRow : SettlementRow :=
  recordApproval "approver" (requestedRow plainLib "s-1" "requester" "treasury" "device-BVAS-1"
    ⟨1, "BVAS-1", "device_repair", 50000, "NGN", "2348000000000",
      "aaaaaaaaaaaaaaaaaaaaaaaaaaaaaaaaaaaaaaaaaaaaaaaaaaaaaaaaaaaaaaaa", "repair", "key-1"⟩)

def approvedWorld : World := ⟨some approvedRow, ⟨true, [], []⟩, [], []⟩

theorem commit_goesThrough :
    GoesThrough plainLib plainSettlementEnv "approver" .commit settledAnswer approvedWorld :=
  goesThrough_of_run 6 ⟨"uuid:inec-operational-settlement-tigerbeetle:s-1", .pending, "treasury",
    "device-BVAS-1", 50000, 1, 20⟩ (by decide +kernel) (by decide +kernel)

/-- Status, number of transfers and result of a request that is cut off after some calls and repeated. -/
def repeated (op : SettlementOp) (calls : Nat) (w : World) :
    Option SettlementStatus × Nat × Option (Except HttpError Unit) :=
  let left := answeredWorld op calls w
  let again := runCalls plainLib plainSettlementEnv
    (left, beginStage plainLib plainSettlementEnv "approver" op left) (answeredCalls 6)
  (again.1.row.map (·.status), again.1.ledger.transfers.length, again.2.result?)

end Inec
