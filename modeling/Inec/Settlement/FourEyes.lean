import Inec.Settlement.Binding

/-!
# Four eyes

A settlement past its request was approved by somebody other than its requester, it still has the amount,
recipient and evidence it was requested with, and money only moved after the approval and in that amount.
The last part is where the code can fall short: the Mojaloop client is given a `float64`, which has no
room for every amount, and the ledger client posts an amount of 0, which newer ledgers take at its word.
-/

namespace Inec

variable {lib : SettlementLib}

/-- The amount of a transfer event. -/
def SettlementEvent.amount? : SettlementEvent → Option Int
  | .created _ _ _ => none
  | .approved _ => none
  | .ledgerTransfer t => some t.amount
  | .mojaloopTransfer t => some t.amount

/-- Approval, binding and transfers of the settlement. -/
structure FourEyes (lib : SettlementLib) (w : World) : Prop where
  approval : ∀ r, w.row = some r → r.status ≠ .requested → r.status ≠ .voided →
    ∃ a, r.approvedBy = some a ∧ a ≠ "" ∧ a ≠ r.requestedBy
  binding : ∀ r, w.row = some r → ∃ ev ∈ w.log, BoundTo lib r ev
  /-- Every transfer in the log comes after the approval and has the amount of the row. -/
  transfers : ∀ past ev amount, past ++ [ev] <+: w.log → ev.amount? = some amount →
    ∃ r a, w.row = some r ∧ r.approvedBy = some a ∧ .approved a ∈ past ∧ amount = r.amountMinor

/-- The next call moves no money, or the amount the other side books is the amount of the settlement. -/
def Stage.MovesExactAmount (l : Ledger) (reply : Reply) : Stage → Prop
  | .transferring record _ _ _ => reply ≠ .unreachable → wireAmount record.amountMinor = record.amountMinor
  | .posting record _ => reply ≠ .unreachable →
      (TBClient.postTransfer l (record.tigerBeetleTransferId.getD "")).1 = .ok () → l.zeroPostsPending = true
  | _ => True

def MovesExactAmount (s : SettlementState) : SettlementInput → Prop
  | .advance pid _ reply _ => (s.procs pid).MovesExactAmount s.world.ledger reply
  | _ => True

/-! ### Steps without money -/

/-- The first two parts hold in every reachable state. -/
theorem WorldSound.approval {w : World} (h : WorldSound lib w) {r : SettlementRow} (hrow : w.row = some r)
    (hrequested : r.status ≠ .requested) (hvoided : r.status ≠ .voided) :
    ∃ a, r.approvedBy = some a ∧ a ≠ "" ∧ a ≠ r.requestedBy := by
  obtain ⟨a, ha⟩ := (h.row r hrow).approvedBy_of_status ⟨hrequested, hvoided⟩
  obtain ⟨hne, hother, -⟩ := (h.row r hrow).approved a ha
  exact ⟨a, ha, hne, hother⟩

theorem fourEyes_iff {w : World} (h : WorldSound lib w) :
    FourEyes lib w ↔ ∀ past ev amount, past ++ [ev] <+: w.log → ev.amount? = some amount →
      ∃ r a, w.row = some r ∧ r.approvedBy = some a ∧ .approved a ∈ past ∧ amount = r.amountMinor := by
  refine ⟨FourEyes.transfers, ?_⟩
  intro htransfers
  exact ⟨fun r hrow => h.approval hrow, fun r hrow => (h.row r hrow).created, htransfers⟩

/-- What was logged before stays in order while the row keeps its terms and its approval. -/
theorem FourEyes.transfers_kept {w w' : World} (h : FourEyes lib w) (hgrows : Grows w w')
    {past : List SettlementEvent} {ev : SettlementEvent} {amount : Int} (hlog : past ++ [ev] <+: w.log)
    (hamount : ev.amount? = some amount) :
    ∃ r a, w'.row = some r ∧ r.approvedBy = some a ∧ .approved a ∈ past ∧ amount = r.amountMinor := by
  obtain ⟨r, a, hrow, happroved, hbefore, heq⟩ := h.transfers past ev amount hlog hamount
  obtain ⟨r', hrow', hterms, hkept⟩ := hgrows r hrow
  refine ⟨r', a, hrow', hkept a happroved, hbefore, ?_⟩
  rw [heq]
  exact (eq_of_terms (·.amountMinor) (fun _ => rfl) hterms).symm

theorem FourEyes.of_log_eq {w w' : World} (h : FourEyes lib w) (hstep : StepSound lib w w')
    (hlog : w'.log = w.log) :
    FourEyes lib w' := by
  rw [fourEyes_iff hstep.world, hlog]
  intro past ev amount hgrown hamount
  exact h.transfers_kept hstep.grows hgrown hamount

/-- One more event: it is no transfer, or it comes after the approval and has the right amount. -/
theorem FourEyes.append_iff {w w' : World} (h : FourEyes lib w) (hstep : StepSound lib w w') {ev : SettlementEvent}
    (hlog : w'.log = w.log ++ [ev]) :
    FourEyes lib w' ↔ ∀ amount, ev.amount? = some amount →
      ∃ r a, w'.row = some r ∧ r.approvedBy = some a ∧ .approved a ∈ w.log ∧ amount = r.amountMinor := by
  rw [fourEyes_iff hstep.world, hlog]
  constructor
  · intro htransfers amount hamount
    exact htransfers w.log ev amount (List.prefix_refl _) hamount
  · intro hlast past ev' amount hgrown hamount
    rcases List.prefix_concat_iff.mp hgrown with heq | hold
    · obtain ⟨rfl, rfl⟩ := List.concat_inj.mp (by simpa using heq)
      exact hlast amount hamount
    · exact h.transfers_kept hstep.grows hold hamount

/-! ### Steps with money -/

theorem ne_append_of_ne_empty {id suffix : String} (h : suffix ≠ "") : id ≠ id ++ suffix := by
  intro heq
  apply h
  have hlist := congrArg String.toList heq
  rw [String.toList_append, List.self_eq_append_right] at hlist
  exact String.toList_inj.mp hlist

/-- The transfer under the id of the settlement is its pending one. -/
theorem RowSound.pending_amount {w : World} {r : SettlementRow} (h : RowSound lib w r) {p : LedgerTransfer}
    (hp : w.ledger.transfer? (ledgerTransferId lib r) = some p) : p.amount = r.amountMinor := by
  have hid : p.id = ledgerTransferId lib r := by simpa using List.find?_some hp
  rcases h.transfers p (List.mem_of_find?_eq_some hp) with ⟨-, -, hamount⟩ | ⟨-, hpost⟩ | ⟨-, hvoid⟩
  · exact hamount
  · exact absurd (hid.symm.trans hpost) (ne_append_of_ne_empty (by decide))
  · exact absurd (hid.symm.trans hvoid) (ne_append_of_ne_empty (by decide))

theorem transfer?_of_hasPending {l : Ledger} {id : String} (h : l.HasPending id) :
    ∃ p, l.transfer? id = some p := by
  obtain ⟨t, ht, hid, -⟩ := h
  rw [← Option.isSome_iff_exists, Ledger.transfer?, List.find?_isSome]
  exact ⟨t, ht, beq_iff_eq.mpr hid⟩

/-- The amount a resolving transfer is stored with. -/
theorem RowSound.resolved_amount {w : World} {r : SettlementRow} (h : RowSound lib w r) {t : LedgerTransfer}
    (hamount : t.amount = 0) (wholeAmount : Bool)
    (hresolving : Ledger.check.resolving w.ledger (ledgerTransferId lib r) = .ok) :
    (Ledger.completed.resolved w.ledger t (ledgerTransferId lib r) wholeAmount).amount =
      if wholeAmount then r.amountMinor else 0 := by
  have hpending : w.ledger.HasPending (ledgerTransferId lib r) := by
    unfold Ledger.check.resolving at hresolving
    split at hresolving
    · assumption
    · cases hresolving
  obtain ⟨p, hp⟩ := transfer?_of_hasPending hpending
  rw [Ledger.completed.resolved, hp]
  cases wholeAmount with
  | true => simp [hamount, h.pending_amount hp]
  | false => simp [hamount]

theorem RowSound.amount_pos {w : World} {r : SettlementRow} (h : RowSound lib w r) : 0 < r.amountMinor := by
  obtain ⟨ev, -, env, raw, req, -, hvalid, hamount, -⟩ := h.created
  rw [hamount]
  simp only [validateOperationalSettlementRequest, Checks.bind_eq_ok, Checks.require_eq_ok, Checks.pure_eq_ok,
    Bool.and_eq_true, decide_eq_true_eq] at hvalid
  obtain ⟨-, ⟨-, hpos⟩, -, -, -, -, -, -, -, -, -, -, evidence, -, -, -, rfl⟩ := hvalid
  exact hpos

/-- A transfer event of a request that relies on the approval is in order exactly if its amount is. -/
theorem fourEyes_transfer_iff {w w' : World} {stage : Stage} (h : FourEyes lib w) (hworld : WorldSound lib w)
    (hstage : StageSound lib w stage) (hcleared : stage.cleared = true) (hstep : StepSound lib w w')
    (hrow : w'.row = w.row) {ev : SettlementEvent} (hlog : w'.log = w.log ++ [ev]) {amount : Int}
    (hamount : ev.amount? = some amount) :
    FourEyes lib w' ↔ ∀ r, w.row = some r → amount = r.amountMinor := by
  obtain ⟨r, a, hr, ha⟩ := hstage.cleared hcleared
  rw [h.append_iff hstep hlog]
  constructor
  · intro hlast r' hr'
    obtain ⟨r'', a', hr'', -, -, heq⟩ := hlast amount hamount
    rw [hrow, hr'] at hr''
    rw [heq, Option.some.inj hr'']
  · intro hexact amount' hamount'
    obtain rfl : amount = amount' := Option.some.inj (hamount.symm.trans hamount')
    exact ⟨r, a, hrow.trans hr, ha, ((hworld.row r hr).approved a ha).2.2.1, hexact r hr⟩

/-- A ledger call keeps the order exactly if a transfer it stores has the right amount. -/
theorem fourEyes_ledger_iff {w : World} {stage next : Stage} {t : LedgerTransfer}
    {outcome : Except String Unit × Ledger} (h : FourEyes lib w) (hworld : WorldSound lib w)
    (hstage : StageSound lib w stage) (hcleared : stage.cleared = true)
    (hattempts : Attempts w.ledger t outcome) (reply : Reply) (message : String)
    (hstep : StepSound lib w (ledgerStep reply outcome next message w).1) :
    FourEyes lib (ledgerStep reply outcome next message w).1 ↔
      (reply ≠ .unreachable → outcome.1 = .ok () → w.ledger.check t = .ok →
        ∀ r, w.row = some r → (w.ledger.completed t).amount = r.amountMinor) := by
  have hreach : ∀ hok : outcome.1 = .ok (), reply ≠ .unreachable →
      (ledgerStep reply outcome next message w).1 = w.accept t := by
    intro hok hreply
    rcases hattempts with ⟨-, err, herr⟩ | ⟨rfl, -, -⟩
    · rw [herr] at hok
      cases hok
    · cases reply with
      | unreachable => exact absurd rfl hreply
      | answered => simp [ledgerStep, World.callLedger, World.callLedger.accepted, World.accept]
      | lost => simp [ledgerStep, World.callLedger, World.callLedger.accepted, World.accept]
  rcases ledgerStep_cases hattempts reply next message with ⟨hsame, -⟩ | ⟨haccept, -, hcheck, hok, hreply⟩
  · rw [hsame]
    refine ⟨?_, fun _ => h⟩
    intro _ hreply hok hcheck r hr
    -- a call that stores nothing was not carried out
    have hlength := congrArg (fun v : World => v.log.length) (hsame.symm.trans (hreach hok hreply))
    simp [World.accept] at hlength
  · rw [haccept] at hstep ⊢
    have hnot : reply ≠ .unreachable := by
      rcases hreply with ⟨rfl, -⟩ | ⟨rfl, -⟩ <;> simp
    rw [fourEyes_transfer_iff h hworld hstage hcleared hstep rfl rfl rfl]
    exact ⟨fun hexact _ _ _ => hexact, fun hexact => hexact hnot hok hcheck⟩

/-! ### Every step and every run -/

theorem advance_fourEyes_iff (env : SettlementEnv) (reply : Reply) (answer : MojaAnswer) {w : World} {stage : Stage}
    (hworld : WorldSound lib w) (hstage : StageSound lib w stage) (h : FourEyes lib w) :
    FourEyes lib (advanceStage lib env reply answer w stage).1 ↔ stage.MovesExactAmount w.ledger reply := by
  have hstep := (advance_sound env reply answer hworld hstage).step
  have hquiet : (advanceStage lib env reply answer w stage).1.log = w.log →
      FourEyes lib (advanceStage lib env reply answer w stage).1 := h.of_log_eq hstep
  have hstatement : ∀ f, (w.statement reply f).log = w.log := by
    intro f
    rcases w.statement_cases reply f with heq | heq <;> rw [heq]
    rfl
  have hrecord : ∀ record, stage.record? = some record → ∀ r, w.row = some r →
      record.amountMinor = r.amountMinor := by
    intro record hrecord r hr
    obtain ⟨r', hr', hterms⟩ := hstage.record record hrecord
    obtain rfl : r = r' := Option.some.inj (hr.symm.trans hr')
    exact eq_of_terms (·.amountMinor) (fun _ => rfl) hterms
  cases stage with
  | idle => exact ⟨fun _ => trivial, fun _ => h⟩
  | finished result => exact ⟨fun _ => trivial, fun _ => h⟩
  | approving actor record =>
      refine ⟨fun _ => trivial, fun _ => ?_⟩
      simp only [advanceStage] at hstep hquiet ⊢
      rcases approveStep_cases reply actor w with ⟨hsame, -⟩ | ⟨r, result, -, -, -, -, heq⟩
      · exact hquiet (by rw [hsame])
      · rw [heq] at hstep ⊢
        refine (h.append_iff hstep rfl).mpr ?_
        intro amount hamount
        cases hamount
  | lookingUp record cfg side => exact ⟨fun _ => trivial, fun _ => hquiet rfl⟩
  | creatingAccount record cfg side =>
      refine ⟨fun _ => trivial, fun _ => hquiet ?_⟩
      have hlog := (callLedger_account w reply ⟨record.account side, cfg.ledger, cfg.accountCode⟩).2.2.2.2
      simp only [advanceStage]
      split <;> exact hlog
  | recheckingAccount record cfg side err => exact ⟨fun _ => trivial, fun _ => hquiet rfl⟩
  | creatingTransfer record cfg =>
      refine ⟨fun _ => trivial, fun _ => ?_⟩
      refine (fourEyes_ledger_iff h hworld hstage rfl (attempts_createPendingTransfer _ _) reply _ hstep).mpr ?_
      intro _ _ _ r hr
      exact hrecord record rfl r hr
  | recordingCommitment record transferId => exact ⟨fun _ => trivial, fun _ => hquiet (hstatement _)⟩
  | lookingUpParty record payerFSP =>
      refine ⟨fun _ => trivial, fun _ => hquiet ?_⟩
      simp only [advanceStage]
      split <;> rfl
  | quoting record payerFSP payeeFSP =>
      refine ⟨fun _ => trivial, fun _ => hquiet ?_⟩
      simp only [advanceStage]
      split <;> rfl
  | transferring record payerFSP payeeFSP quoteId =>
      have hsent : (advanceStage lib env reply answer w (.transferring record payerFSP payeeFSP quoteId)).1 =
          w.transferOut reply (mojaTransfer lib record payerFSP payeeFSP quoteId) := by
        simp only [advanceStage]
        split <;> rfl
      rw [hsent] at hstep ⊢
      by_cases hreply : reply = .unreachable
      · rw [World.transferOut, if_pos hreply]
        exact ⟨fun _ hne => absurd hreply hne, fun _ => h⟩
      · rw [World.transferOut, if_neg hreply] at hstep ⊢
        rw [fourEyes_transfer_iff h hworld hstage rfl hstep rfl rfl rfl]
        obtain ⟨r, a, hr, -⟩ := hstage.cleared rfl
        constructor
        · intro hexact _
          exact (hexact r hr).trans (hrecord record rfl r hr).symm
        · intro hexact r' hr'
          exact (hexact hreply).trans (hrecord record rfl r' hr')
  | recordingDispatch record quoteId transferId => exact ⟨fun _ => trivial, fun _ => hquiet (hstatement _)⟩
  | markingUnavailable record code err => exact ⟨fun _ => trivial, fun _ => hquiet (hstatement _)⟩
  | gettingTransaction record =>
      refine ⟨fun _ => trivial, fun _ => hquiet ?_⟩
      simp only [advanceStage]
      split
      · split <;> rfl
      · rfl
  | posting record receipt =>
      obtain ⟨r, a, hr, -⟩ := hstage.cleared rfl
      have hid := hstage.transferId _ r rfl hr
      have hattempts := attempts_native w.ledger ⟨record.tigerBeetleTransferId.getD "" ++ "-post",
        .postPending (record.tigerBeetleTransferId.getD ""), "", "", 0, 0, 0⟩ "post transfer failed: "
      refine (fourEyes_ledger_iff h hworld hstage rfl hattempts reply _ hstep).trans ?_
      have hamount : w.ledger.check ⟨record.tigerBeetleTransferId.getD "" ++ "-post",
          .postPending (record.tigerBeetleTransferId.getD ""), "", "", 0, 0, 0⟩ = .ok →
          (w.ledger.completed ⟨record.tigerBeetleTransferId.getD "" ++ "-post",
            .postPending (record.tigerBeetleTransferId.getD ""), "", "", 0, 0, 0⟩).amount =
          if w.ledger.zeroPostsPending then r.amountMinor else 0 := by
        rw [hid]
        exact fun hcheck => (hworld.row r hr).resolved_amount rfl _ hcheck
      have hpos := (hworld.row r hr).amount_pos
      constructor
      · intro hexact hreply hok
        have hcheck := (hattempts.resolve_left
          (by rintro ⟨-, err, herr⟩; rw [TBClient.postTransfer, herr] at hok; cases hok)).2.2
        have heq := hexact hreply hok hcheck r hr
        rw [hamount hcheck] at heq
        cases hzero : w.ledger.zeroPostsPending with
        | true => rfl
        | false =>
            rw [hzero, if_neg (by simp)] at heq
            omega
      · intro hexact hreply hok hcheck r' hr'
        obtain rfl : r = r' := Option.some.inj (hr.symm.trans hr')
        rw [hamount hcheck, if_pos (hexact hreply hok)]
  | recordingSettled record receiptSha256 => exact ⟨fun _ => trivial, fun _ => hquiet (hstatement _)⟩
  | voiding record transferId =>
      refine ⟨fun _ => trivial, fun _ => ?_⟩
      refine (fourEyes_ledger_iff h hworld hstage rfl (attempts_native _ _ _) reply _ hstep).mpr ?_
      intro _ _ hcheck r hr
      obtain rfl := hstage.transferId transferId r rfl hr
      exact (hworld.row r hr).resolved_amount rfl true hcheck
  | recordingVoid record => exact ⟨fun _ => trivial, fun _ => hquiet (hstatement _)⟩

/-- A step keeps the four eyes exactly if it moves no other amount than that of the settlement. -/
theorem settlementStep_fourEyes_iff (s : SettlementState) (i : SettlementInput) (hsound : StateSound lib s)
    (h : FourEyes lib s.world) : FourEyes lib (settlementStep lib s i).world ↔ MovesExactAmount s i := by
  cases i with
  | create env id actor req =>
      refine ⟨fun _ => trivial, fun _ => ?_⟩
      have hstep := stepSound_create hsound.world env id actor req
      rcases createWorld_cases lib env id actor req s.world with hsame | ⟨row, isNew, -, -, heq⟩
      · exact h.of_log_eq hstep (congrArg World.log hsame)
      · refine (h.append_iff hstep (congrArg World.log heq)).mpr ?_
        intro amount hamount
        cases hamount
  | begin pid env actor op =>
      have hsame : (settlementStep lib s (.begin pid env actor op)).world = s.world := by
        simp only [settlementStep]
        split <;> rfl
      rw [hsame]
      exact ⟨fun _ => trivial, fun _ => h⟩
  | advance pid env reply answer => exact advance_fourEyes_iff env reply answer hsound.world (hsound.stages pid) h
  | stop pid => exact ⟨fun _ => trivial, fun _ => h⟩

/-- The status of the row and the amounts that were moved, in order. -/
def movedAmounts (w : World) : Option SettlementStatus × List Int :=
  (w.row.map (·.status), w.log.filterMap SettlementEvent.amount?)

theorem FourEyes.amount_eq {w : World} (h : FourEyes lib w) {amount : Int} (hamount : amount ∈ (movedAmounts w).2) :
    ∃ r, w.row = some r ∧ amount = r.amountMinor := by
  obtain ⟨ev, hev, hsome⟩ := List.mem_filterMap.mp hamount
  obtain ⟨past, rest, hlog⟩ := List.append_of_mem hev
  obtain ⟨r, a, hrow, -, -, heq⟩ := h.transfers past ev amount ⟨rest, by simp [hlog]⟩ hsome
  exact ⟨r, hrow, heq⟩

end Inec
