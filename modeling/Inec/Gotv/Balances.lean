import Inec.Gotv.Ledger

/-!
# What the columns of the accounts hold

A call adds an account, adds a transfer to the pending columns of its two accounts, moves a transfer to another
status and its columns with it, or writes nothing (`step_writes`). The columns can therefore be read off the
transfers at any time (`Booked`): a column is the sum of the transfers of its status on its side of the account,
where the two accounts of a transfer may be one.
-/

namespace Inec

open Statements

/-- What a transfer puts on a column. -/
def GotvTransfer.on (t : GotvTransfer) (id : String) (side : GotvSide) (status : GotvStatus) : Int :=
  if t.account side = id ∧ t.status = status ∧ status ≠ .voided then t.amount else 0

/-- The amounts of the transfers of a status on one side of an account. -/
def GOTVLedger.held (s : GOTVLedger) (id : String) (side : GotvSide) (status : GotvStatus) : Int :=
  ((s.transfers.filter fun t => t.account side = id && t.status = status).map (·.amount)).sum

/-- Every column is the sum of its transfers, and what is debited is what is credited. -/
structure GOTVLedger.Booked (s : GOTVLedger) : Prop where
  accounts : ∀ a ∈ s.accounts, ∀ side status, status ≠ .voided → a.balance side status = s.held a.id side status
  total : ∀ status, (s.accounts.map (·.balance .debit status)).sum = (s.accounts.map (·.balance .credit status)).sum

@[simp] theorem GotvRequest.account_transfer (req : GotvRequest) (txID : String) (side : GotvSide) :
    (req.transfer txID).account side = req.account side := by cases side <;> rfl

@[simp] theorem GotvTransfer.account_status (t : GotvTransfer) (status : GotvStatus) (side : GotvSide) :
    GotvTransfer.account { t with status := status } side = t.account side := by cases side <;> rfl

/-! ### Columns after an UPDATE -/

namespace GotvAccount

theorem balance_add (a : GotvAccount) (side side' : GotvSide) (status status' : GotvStatus) (x : Int) :
    (a.add side status x).balance side' status' =
      a.balance side' status' + if side' = side ∧ status' = status ∧ status ≠ .voided then x else 0 := by
  cases side <;> cases status <;> cases side' <;> cases status' <;> simp [add, balance]

theorem balance_post (a : GotvAccount) (side side' : GotvSide) (status' : GotvStatus) (x : Int) :
    (a.post side x).balance side' status' =
      a.balance side' status' + if side' = side then
        (if status' = .pending then -x else if status' = .posted then x else 0) else 0 := by
  rw [post, balance_add, balance_add]
  cases side <;> cases side' <;> cases status' <;> simp

theorem partyId_add (a : GotvAccount) (side : GotvSide) (status : GotvStatus) (x : Int) :
    (a.add side status x).partyId = a.partyId := by
  cases side <;> cases status <;> rfl

theorem partyId_post (a : GotvAccount) (side : GotvSide) (x : Int) : (a.post side x).partyId = a.partyId := by
  rw [post, partyId_add, partyId_add]

end GotvAccount

namespace GOTVLedger

variable {s after : GOTVLedger}

theorem account_mem {t : GotvTransfer} (h : t ∈ s.transfers) (side : GotvSide) :
    t.account side ∈ s.accounts.map (·.id) := by
  cases side with
  | debit => exact (s.references t h).1
  | credit => exact (s.references t h).2

theorem account?_eq_some {id : String} {a : GotvAccount} : s.account? id = some a ↔ a ∈ s.accounts ∧ a.id = id :=
  Rows.find?_key_eq_some_iff s.accountIds

theorem transfer?_eq_some {id : String} {t : GotvTransfer} :
    s.transfer? id = some t ↔ t ∈ s.transfers ∧ t.id = id :=
  Rows.find?_key_eq_some_iff s.transferIds

theorem balance_of_mem {a : GotvAccount} (h : a ∈ s.accounts) (side : GotvSide) (status : GotvStatus) :
    s.balance a.id side status = a.balance side status := by
  rw [balance, account?_eq_some.mpr ⟨h, rfl⟩]
  rfl

/-- The accounts stay with their owners, and the columns change by this much. -/
structure Books (s after : GOTVLedger) (delta : String → GotvSide → GotvStatus → Int) : Prop where
  owners : (after.accounts.map fun a => (a.id, a.partyId)) = s.accounts.map fun a => (a.id, a.partyId)
  balance : ∀ id side status, after.balance id side status = s.balance id side status + delta id side status

theorem Books.trans {mid : GOTVLedger} {delta delta' : String → GotvSide → GotvStatus → Int} (h : s.Books mid delta)
    (h' : mid.Books after delta') : s.Books after fun id side status => delta id side status +
      delta' id side status where
  owners := h'.owners.trans h.owners
  balance id side status := by
    rw [h'.balance, h.balance]
    exact Int.add_assoc ..

theorem Books.congr {delta delta' : String → GotvSide → GotvStatus → Int} (h : s.Books after delta)
    (hdelta : ∀ id side status, delta id side status = delta' id side status) : s.Books after delta' where
  owners := h.owners
  balance id side status := by rw [h.balance, hdelta]

theorem Books.of_accounts {delta : String → GotvSide → GotvStatus → Int} (h : after.accounts = s.accounts)
    (hdelta : ∀ id side status, delta id side status = 0) : s.Books after delta where
  owners := by rw [h]
  balance id side status := by rw [GOTVLedger.balance, account?, h, hdelta, Int.add_zero,
    GOTVLedger.balance, account?]

theorem updateAccount_spec {id : String} {f : GotvAccount → GotvAccount} {hid : ∀ a, (f a).id = a.id}
    (h : s.updateAccount id f hid = some after) (howner : ∀ a, (f a).partyId = a.partyId)
    {d : GotvSide → GotvStatus → Int} (hf : ∀ a side status, (f a).balance side status =
      a.balance side status + d side status) (hthere : id ∈ s.accounts.map (·.id)) :
    after.transfers = s.transfers ∧ s.Books after fun id' side status => if id' = id then d side status else 0 := by
  rw [updateAccount] at h
  split at h
  case isFalse => cases h
  case isTrue =>
    obtain rfl := Option.some.inj h
    refine ⟨rfl, ?_, ?_⟩
    · apply Rows.map_update
      intro a _ _
      rw [hid, howner]
    · intro id' side status
      have hlookup := Rows.find?_update hid s.accounts (k := id) id'
      rw [balance, balance, account?, account?, hlookup]
      cases ha : s.accounts.find? fun a => a.id == id' with
      | none =>
          have hne : id' ≠ id := by
            rintro rfl
            obtain ⟨a, hmem, hkey⟩ := List.mem_map.mp hthere
            have hfound := account?_eq_some.mpr ⟨hmem, hkey⟩
            rw [account?, ha] at hfound
            cases hfound
          rw [if_neg hne]
          rfl
      | some a =>
          obtain rfl := (Rows.find?_key ha).2
          rw [Option.map_some, Option.map_some, Option.map_some, Option.getD_some, Option.getD_some]
          by_cases hid' : a.id = id
          · rw [if_pos hid', if_pos hid', hf]
          · rw [if_neg hid', if_neg hid', Int.add_zero]

theorem updateSide_spec {id : String} {side : GotvSide} {status : GotvStatus} {x : Int}
    (h : s.updateSide id side status x = some after) (hthere : id ∈ s.accounts.map (·.id)) :
    after.transfers = s.transfers ∧
      s.Books after fun id' side' status' => if id' =
        id then (if side' = side ∧ status' = status ∧ status ≠ .voided then x else 0) else 0 :=
  updateAccount_spec h (fun a => a.partyId_add side status x)
    (fun a side' status' => a.balance_add side side' status status' x) hthere

theorem postSide_spec {id : String} {side : GotvSide} {x : Int} (h : s.postSide id side x = some after)
    (hthere : id ∈ s.accounts.map (·.id)) :
    after.transfers = s.transfers ∧
      s.Books after fun id' side' status' =>
        if id' = id then (if side' = side then (if status' = .pending then -x else if status' =
          .posted then x else 0) else 0) else 0 :=
  updateAccount_spec h (fun a => a.partyId_post side x)
    (fun a side' status' => a.balance_post side side' status' x) hthere

theorem Books.ids {delta : String → GotvSide → GotvStatus → Int} (h : s.Books after delta) :
    after.accounts.map (·.id) = s.accounts.map (·.id) := by
  have howners := congrArg (List.map Prod.fst) h.owners
  rw [List.map_map, List.map_map] at howners
  exact howners

theorem insertTransfer_eq_some {t : GotvTransfer} (h : s.insertTransfer t = some after) :
    after.accounts = s.accounts ∧ after.transfers = s.transfers ++ [t] := by
  rw [insertTransfer] at h
  split at h
  case isFalse => cases h
  case isTrue =>
    obtain rfl := Option.some.inj h
    exact ⟨rfl, rfl⟩

/-- The key of a transfer that was added was not taken. -/
theorem key_free {t : GotvTransfer} (h : after.transfers = s.transfers ++ [t]) :
    s.transferByKey? t.idempotencyKey = none := by
  have hkeys := after.keys
  rw [h, List.map_append, List.nodup_append] at hkeys
  rw [transferByKey?, List.find?_eq_none]
  intro t' ht'
  rw [beq_iff_eq]
  exact hkeys.2.2 _ (List.mem_map_of_mem ht') _ List.mem_cons_self

/-! ### What a call writes -/

/-- The transfer of the INSERT is on the columns of the two updates, which may be of one account. -/
theorem createWrites_spec {t : GotvTransfer} {inserted debited : GOTVLedger} (hpending : t.status = .pending)
    (hinsert : s.insertTransfer t = some inserted)
    (hdebit : inserted.updateSide t.debitAccountId .debit .pending t.amount = some debited)
    (hcredit : debited.updateSide t.creditAccountId .credit .pending t.amount = some after) :
    after.transfers = s.transfers ++ [t] ∧ s.Books after t.on := by
  obtain ⟨haccounts, htransfers⟩ := insertTransfer_eq_some hinsert
  have ht : t ∈ inserted.transfers := by
    rw [htransfers]
    exact List.mem_append_right _ List.mem_cons_self
  have hinsertBooks : s.Books inserted fun _ _ _ => 0 := .of_accounts haccounts fun _ _ _ => rfl
  obtain ⟨hdebitRows, hdebitBooks⟩ := updateSide_spec hdebit (account_mem ht .debit)
  have hcreditThere : t.creditAccountId ∈ debited.accounts.map (·.id) := by
    rw [hdebitBooks.ids]
    exact account_mem ht .credit
  obtain ⟨hcreditRows, hcreditBooks⟩ := updateSide_spec hcredit hcreditThere
  refine ⟨by rw [hcreditRows, hdebitRows, htransfers], ?_⟩
  apply ((hinsertBooks.trans hdebitBooks).trans hcreditBooks).congr
  intro id side status
  rw [GotvTransfer.on, hpending]
  cases side <;> cases status <;> simp [GotvTransfer.account, eq_comm]

/-- A transfer is created on its two pending columns, or not at all. -/
theorem createTransfer_spec (sha256Hex : String → String) (s : GOTVLedger) (tx : GotvTx)
    (req : GotvRequest) (nanos : Int) :
    (∃ err, s.createTransfer sha256Hex tx req nanos = (s, .error err)) ∨
    ∃ after result, s.createTransfer sha256Hex tx req nanos = (after, result) ∧
      (result = .ok (req.txID sha256Hex nanos) ∨ result = .error .commit) ∧
      after.transfers = s.transfers ++ [req.transfer (req.txID sha256Hex nanos)] ∧
      s.Books after (req.transfer (req.txID sha256Hex nanos)).on := by
  rw [createTransfer]
  cases tx.works .begin with
  | false => exact .inl ⟨.begin, rfl⟩
  | true =>
      simp only [Bool.not_true, Bool.false_eq_true, if_false]
      cases hinserted : exec (tx.works .insert) (·.insertTransfer
        (req.transfer (req.txID sha256Hex nanos))) (some s) with
      | none => exact .inl ⟨.insert, rfl⟩
      | some inserted =>
          cases hdebited : exec (tx.works .debit)
            (·.updateSide req.debitAccount .debit .pending req.amountKobo) (some inserted) with
          | none => exact .inl ⟨.debit, by simp only [hdebited]⟩
          | some debited =>
              cases hcredited : exec (tx.works .credit)
                (·.updateSide req.creditAccount .credit .pending req.amountKobo) (some debited) with
              | none => exact .inl ⟨.credit, by simp only [hdebited, hcredited]⟩
              | some credited =>
                  simp only [hdebited, hcredited]
                  obtain ⟨-, _, ⟨rfl⟩, hinsert⟩ := exec_eq_some.mp hinserted
                  obtain ⟨-, _, ⟨rfl⟩, hdebit⟩ := exec_eq_some.mp hdebited
                  obtain ⟨-, _, ⟨rfl⟩, hcredit⟩ := exec_eq_some.mp hcredited
                  have hwritten := createWrites_spec rfl hinsert hdebit hcredit
                  cases tx.reply with
                  | done => exact .inr ⟨credited, _, rfl, .inl rfl, hwritten⟩
                  | refused => exact .inl ⟨.commit, rfl⟩
                  | lost => exact .inr ⟨credited, _, rfl, .inr rfl, hwritten⟩

/-- A post or a void that takes effect moves one transfer, and its columns with it. -/
structure Moves (s after : GOTVLedger) (t : GotvTransfer) (status : GotvStatus) : Prop where
  transfers : after.transfers = Rows.update (·.id) t.id (fun t => { t with status := status }) s.transfers
  books : s.Books after fun id side status' => GotvTransfer.on
    { t with status := status } id side status' - t.on id side status'

theorem setStatus_books (s : GOTVLedger) (id : String) (status : GotvStatus) :
    s.Books (s.setStatus id status) fun _ _ _ => 0 :=
  .of_accounts rfl fun _ _ _ => rfl

theorem postWrites_spec {tx : GotvTx} {t : GotvTransfer} (ht : t ∈ s.transfers) (hpending : t.status = .pending)
    (h : s.postWrites tx t = some after) : s.Moves after t .posted := by
  obtain ⟨-, debited, hdebited, hcredit⟩ := exec_eq_some.mp h
  obtain ⟨-, marked, hmarked, hdebit⟩ := exec_eq_some.mp hdebited
  obtain ⟨-, _, ⟨rfl⟩, ⟨rfl⟩⟩ := exec_eq_some.mp hmarked
  have hmarkedBooks := setStatus_books s t.id .posted
  obtain ⟨hdebitRows, hdebitBooks⟩ := postSide_spec hdebit (account_mem ht .debit)
  have hcreditThere : t.creditAccountId ∈ debited.accounts.map (·.id) := by
    rw [hdebitBooks.ids]
    exact account_mem ht .credit
  obtain ⟨hcreditRows, hcreditBooks⟩ := postSide_spec hcredit hcreditThere
  refine ⟨hcreditRows.trans hdebitRows, ?_⟩
  apply ((hmarkedBooks.trans hdebitBooks).trans hcreditBooks).congr
  intro id side status'
  cases side <;> cases status' <;> grind [GotvTransfer.on, GotvTransfer.account]

/-- The two updates of a void take the transfer off the columns it is on. -/
theorem voidSides_spec {tx : GotvTx} {t : GotvTransfer} (ht : t ∈ s.transfers) {status : GotvStatus}
    (hstatus : t.status = status) (h : (some s
      |> exec (tx.works .debit) (·.updateSide t.debitAccountId .debit status (-t.amount))
      |> exec (tx.works .credit) (·.updateSide t.creditAccountId .credit status (-t.amount))) = some after) :
    after.transfers = s.transfers ∧ s.Books after fun id side status => -t.on id side status := by
  obtain ⟨-, debited, hdebited, hcredit⟩ := exec_eq_some.mp h
  obtain ⟨-, _, ⟨rfl⟩, hdebit⟩ := exec_eq_some.mp hdebited
  obtain ⟨hdebitRows, hdebitBooks⟩ := updateSide_spec hdebit (account_mem ht .debit)
  have hcreditThere : t.creditAccountId ∈ debited.accounts.map (·.id) := by
    rw [hdebitBooks.ids]
    exact account_mem ht .credit
  obtain ⟨hcreditRows, hcreditBooks⟩ := updateSide_spec hcredit hcreditThere
  refine ⟨hcreditRows.trans hdebitRows, ?_⟩
  apply (hdebitBooks.trans hcreditBooks).congr
  intro id side status'
  subst hstatus
  cases side <;> cases status' <;> grind [GotvTransfer.on, GotvTransfer.account]

theorem voidWrites_spec {tx : GotvTx} {t : GotvTransfer} (ht : t ∈ s.transfers)
    (h : s.voidWrites tx t = some after) :
    s.Moves after t .voided := by
  obtain ⟨-, taken, htaken, ⟨rfl⟩⟩ := exec_eq_some.mp h
  have hsides : taken.transfers = s.transfers ∧ s.Books taken fun id side status => -t.on id side status := by
    cases hstatus : t.status with
    | voided =>
        rw [hstatus] at htaken
        obtain rfl := Option.some.inj htaken
        refine ⟨rfl, .of_accounts rfl fun id side status => ?_⟩
        rw [GotvTransfer.on, hstatus, if_neg, Int.neg_zero]
        rintro ⟨-, rfl, h⟩
        exact h rfl
    | pending =>
        rw [hstatus] at htaken
        exact voidSides_spec ht hstatus htaken
    | posted =>
        rw [hstatus] at htaken
        exact voidSides_spec ht hstatus htaken
  constructor
  · exact congrArg _ hsides.1
  · apply (hsides.2.trans (setStatus_books taken t.id .voided)).congr
    intro id side status
    have hvoided : GotvTransfer.on { t with status := .voided } id side status = 0 := by
      rw [GotvTransfer.on, if_neg]
      rintro ⟨-, rfl, h⟩
      exact h rfl
    rw [hvoided]
    omega

theorem PostTransfer_spec (s : GOTVLedger) (tx : GotvTx) (txID : String) :
    (s.PostTransfer tx txID).1 = s ∨
      ∃ t, s.transfer? txID = some t ∧ t.status = .pending ∧ s.Moves (s.PostTransfer tx txID).1 t .posted := by
  rw [PostTransfer]
  split
  case isTrue => exact .inl rfl
  case isFalse =>
    split
    case h_1 => exact .inl rfl
    case h_2 t hfound =>
      have hfound : s.transfer? txID = some t := by
        split at hfound
        · exact hfound
        · cases hfound
      by_cases hpending : t.status = .pending
      case neg =>
        rw [if_pos hpending]
        exact .inl rfl
      case pos =>
        rw [if_neg (not_not_intro hpending)]
        obtain hcommit | ⟨after, told, hwrites, hcommit⟩ := commit_cases s (s.postWrites tx t) tx.reply
        · rw [hcommit]
          exact .inl rfl
        · refine .inr ⟨t, hfound, hpending, ?_⟩
          rw [hcommit]
          have hmoves := postWrites_spec (transfer?_eq_some.mp hfound).1 hpending hwrites
          cases told <;> exact hmoves

theorem VoidTransfer_spec (s : GOTVLedger) (tx : GotvTx) (txID : String) :
    (s.VoidTransfer tx txID).1 = s ∨
      ∃ t, s.transfer? txID = some t ∧ s.Moves (s.VoidTransfer tx txID).1 t .voided := by
  rw [VoidTransfer]
  split
  case isTrue => exact .inl rfl
  case isFalse =>
    split
    case h_1 => exact .inl rfl
    case h_2 t hfound =>
      have hfound : s.transfer? txID = some t := by
        split at hfound
        · exact hfound
        · cases hfound
      obtain hcommit | ⟨after, told, hwrites, hcommit⟩ := commit_cases s (s.voidWrites tx t) tx.reply
      · rw [hcommit]
        exact .inl rfl
      · refine .inr ⟨t, hfound, ?_⟩
        rw [hcommit]
        have hmoves := voidWrites_spec (transfer?_eq_some.mp hfound).1 hwrites
        cases told <;> exact hmoves

theorem ensureAccount_spec (s : GOTVLedger) (id : String) (partyId : Int) (accountType : String) :
    (s.ensureAccount id partyId accountType).transfers = s.transfers ∧
      ∀ id' side status, (s.ensureAccount id partyId accountType).balance id' side status =
        s.balance id' side status := by
  rw [ensureAccount]
  split
  case isTrue => exact ⟨rfl, fun _ _ _ => rfl⟩
  case isFalse hnew =>
    refine ⟨rfl, fun id' side status => ?_⟩
    rw [balance, balance, account?, account?, List.find?_append]
    cases s.accounts.find? fun a => a.id == id' with
    | some a => rfl
    | none =>
        rw [Option.none_or, List.find?_singleton]
        split
        · cases side <;> cases status <;> rfl
        · rfl

theorem retry_spec (sha256Hex : String → String) (s : GOTVLedger) (act : RetryAct) (phase : RetryPhase) :
    (s.retry sha256Hex act phase).1 = s ∨
      ∃ req attempt nanos tx, phase = .trying req attempt ∧ act = .attempt nanos tx ∧
        (s.retry sha256Hex act phase).1.transfers = s.transfers ++ [req.transfer (req.txID sha256Hex nanos)] ∧
        s.Books (s.retry sha256Hex act phase).1 (req.transfer (req.txID sha256Hex nanos)).on := by
  cases act with
  | attempt nanos tx =>
      cases phase with
      | trying req attempt =>
          rw [retry]
          obtain ⟨err, hcreate⟩ | ⟨after, result, hcreate, -, htransfers, hbooks⟩ :=
            createTransfer_spec sha256Hex s tx req nanos
          · rw [hcreate]
            exact .inl rfl
          · refine .inr ⟨req, attempt, nanos, tx, rfl, rfl, ?_⟩
            rw [hcreate]
            cases result <;> exact ⟨htransfers, hbooks⟩
      | idle => exact .inl rfl
      | failed req attempt err => exact .inl rfl
      | returned req result => exact .inl rfl
  | lookup works cancelled =>
      refine .inl ?_
      cases phase with
      | failed req attempt err =>
          rw [retry]
          split
          · rfl
          · split <;> rfl
      | idle => rfl
      | trying req attempt => rfl
      | returned req result => rfl

/-! ### Runs -/

/-- The columns can be read off the transfers. -/
def Kept (s : GOTVLedger) : Prop := ∀ id side status, s.balance id side status =
      (s.transfers.map (·.on id side status)).sum

theorem Kept.of_same (hs : s.Kept) (htransfers : after.transfers = s.transfers)
    (hbalance : ∀ id side status, after.balance id side status = s.balance id side status) : after.Kept := by
  intro id side status
  rw [hbalance, hs, htransfers]

theorem Kept.created (hs : s.Kept) {t : GotvTransfer} (htransfers : after.transfers = s.transfers ++ [t])
    (hbooks : s.Books after t.on) : after.Kept := by
  intro id side status
  rw [hbooks.balance, hs, htransfers, List.map_append, List.sum_append, List.map_singleton, List.sum_singleton]

theorem Kept.moves (hs : s.Kept) {t : GotvTransfer} (ht : t ∈ s.transfers) {status : GotvStatus}
    (h : s.Moves after t status) :
    after.Kept := by
  intro id side status'
  rw [h.books.balance, hs, h.transfers, Sums.sum_map_update s.transferIds ht]
  omega

/-- Some of the accounts together hold each transfer once on a side, if its account there is among them. -/
theorem sum_accounts_on (s : GOTVLedger) (p : GotvAccount → Bool) (side : GotvSide) (status : GotvStatus)
    {rows : List GotvTransfer} (hrows : ∀ t ∈ rows, t ∈ s.transfers) :
    ((s.accounts.filter p).map fun a => (rows.map (·.on a.id side status)).sum).sum =
      (rows.map fun t => if (s.account? (t.account side)).any p ∧ t.status = status ∧
        status ≠ .voided then t.amount else 0).sum := by
  induction rows with
  | nil =>
      apply List.sum_eq_zero
      intro x hx
      obtain ⟨a, -, rfl⟩ := List.mem_map.mp hx
      rfl
  | cons t rest ih =>
      simp only [List.map_cons, List.sum_cons]
      rw [List.sum_map_add, ih fun t' ht' => hrows t' (List.mem_cons_of_mem _ ht')]
      congr 1
      obtain ⟨a, ha, hid⟩ := List.mem_map.mp (account_mem (hrows t List.mem_cons_self) side)
      have hshare := Sums.sum_map_at_key s.accountIds ha fun a => if p a ∧ t.status = status ∧
        status ≠ .voided then t.amount else 0
      rw [account?_eq_some.mpr ⟨ha, hid⟩, Option.any_some, ← hshare, Sums.sum_map_filter]
      congr 1
      apply List.map_congr_left
      intro a' _
      rw [GotvTransfer.on, hid]
      by_cases hside : t.account side = a'.id
      · simp [hside, ite_and]
      · simp [hside]

/-- What some of the accounts hold on a column, read off the transfers. -/
theorem Kept.sum_filter (hs : s.Kept) (p : GotvAccount → Bool) (side : GotvSide) (status : GotvStatus) :
    ((s.accounts.filter p).map (·.balance side status)).sum =
      (s.transfers.map fun t =>
        if (s.account? (t.account side)).any p ∧ t.status = status ∧
          status ≠ .voided then t.amount else 0).sum := by
  rw [← s.sum_accounts_on p side status fun _ ht => ht]
  congr 1
  apply List.map_congr_left
  intro a ha
  rw [← balance_of_mem (List.mem_of_mem_filter ha), hs]

theorem Kept.booked (hs : s.Kept) : s.Booked where
  accounts a ha side status hstatus := by
    rw [← balance_of_mem ha, hs, held, Sums.sum_map_filter]
    congr 1
    apply List.map_congr_left
    intro t _
    rw [GotvTransfer.on]
    simp [hstatus]
  total status := by
    have hcolumn : ∀ side, (s.accounts.map (·.balance side status)).sum =
        (s.transfers.map fun t => if t.status = status ∧ status ≠ .voided then t.amount else 0).sum := by
      intro side
      have hall := hs.sum_filter (fun _ => true) side status
      rw [List.filter_true] at hall
      rw [hall]
      congr 1
      apply List.map_congr_left
      intro t ht
      obtain ⟨a, ha, hid⟩ := List.mem_map.mp (account_mem ht side)
      rw [account?_eq_some.mpr ⟨ha, hid⟩]
      simp
    rw [hcolumn, hcolumn]

end GOTVLedger

namespace GotvProcess

open GOTVLedger

/-- A step creates a transfer, moves one to another status, or leaves the transfers and the columns alone. -/
theorem step_writes (sha256Hex : String → String) (s : GotvProcess) (act : GotvAct) :
    ((s.step sha256Hex act).ledger.transfers = s.ledger.transfers ∧
      ∀ id side status, (s.step sha256Hex act).ledger.balance id side status = s.ledger.balance id side status) ∨
    (∃ t, (s.step sha256Hex act).ledger.transfers = s.ledger.transfers ++ [t] ∧
      s.ledger.Books (s.step sha256Hex act).ledger t.on) ∨
    ∃ t status, t ∈ s.ledger.transfers ∧ s.ledger.Moves (s.step sha256Hex act).ledger t status := by
  cases act with
  | ensureAccount id partyId accountType works =>
      cases works with
      | false => exact .inl ⟨rfl, fun _ _ _ => rfl⟩
      | true => exact .inl (s.ledger.ensureAccount_spec id partyId accountType)
  | call n req =>
      rw [step]
      split <;> exact .inl ⟨rfl, fun _ _ _ => rfl⟩
  | retry n act =>
      have hledger : (s.step sha256Hex (.retry n act)).ledger = (s.ledger.retry sha256Hex act (s.calls n)).1 := rfl
      rw [hledger]
      obtain h | ⟨req, _, nanos, _, -, -, hcreated⟩ := s.ledger.retry_spec sha256Hex act (s.calls n)
      · rw [h]
        exact .inl ⟨rfl, fun _ _ _ => rfl⟩
      · exact .inr (.inl ⟨_, hcreated⟩)
  | post txID tx =>
      obtain h | ⟨t, hfound, -, hmoves⟩ := s.ledger.PostTransfer_spec tx txID
      · rw [step, h]
        exact .inl ⟨rfl, fun _ _ _ => rfl⟩
      · exact .inr (.inr ⟨t, .posted, (transfer?_eq_some.mp hfound).1, hmoves⟩)
  | void txID tx =>
      obtain h | ⟨t, hfound, hmoves⟩ := s.ledger.VoidTransfer_spec tx txID
      · rw [step, h]
        exact .inl ⟨rfl, fun _ _ _ => rfl⟩
      · exact .inr (.inr ⟨t, .voided, (transfer?_eq_some.mp hfound).1, hmoves⟩)

theorem kept_step (sha256Hex : String → String) (s : GotvProcess) (act : GotvAct) (hs : s.ledger.Kept) :
    (s.step sha256Hex act).ledger.Kept := by
  obtain ⟨htransfers, hbalance⟩ | ⟨t, htransfers, hbooks⟩ | ⟨t, status, ht, hmoves⟩ := step_writes sha256Hex s act
  · exact hs.of_same htransfers hbalance
  · exact hs.created htransfers hbooks
  · exact hs.moves ht hmoves

/-- The columns of the accounts are the sums of their transfers after any calls, however they end. -/
theorem booked_of_calls (sha256Hex : String → String) (acts : List GotvAct) :
    ∀ s ∈ Runs.visited (step sha256Hex) start acts, s.ledger.Booked := by
  intro s hs
  have hkeep : ∀ (s : GotvProcess) (act : GotvAct), s.ledger.Kept → (s.step sha256Hex act).ledger.Kept :=
    fun s act hs => kept_step sha256Hex s act hs
  have hkept := Runs.forall_visited_of_step hkeep (fun _ _ _ => rfl) acts s hs
  exact hkept.booked

/-- A transaction in which everything works. -/
def doneTx : GotvTx := ⟨fun _ => true, .done⟩

/-- A payment under a key. -/
def voucher (amountKobo : Int) : GotvRequest :=
  ⟨"gotv-party-1-operations", "gotv-party-1-transport", amountKobo, 200, "ride", "voucher-7"⟩

def postedVoucher : List GotvAct :=
  [.ensureAccount "gotv-party-1-operations" 1 "operations" true,
    .ensureAccount "gotv-party-1-transport" 1 "transport" true, .call 0 (voucher 50000),
      .retry 0 (.attempt 1000 doneTx), .post ((voucher 50000).txID id 1000) doneTx]

/-- A payment that is posted. -/
theorem booked_of_postedVoucher :
    (Runs.final (step id) start postedVoucher).ledger.balance "gotv-party-1-transport" .credit .posted = 50000 ∧
      (Runs.final (step id) start postedVoucher).ledger.Booked := by
  refine ⟨by decide +kernel, ?_⟩
  exact booked_of_calls id postedVoucher _ (Runs.final_mem_visited ..)

end GotvProcess

end Inec
