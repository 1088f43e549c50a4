import Inec.Lib.Interference
import Inec.Lib.Runs
import Inec.Lib.Transactions
import Inec.Fabric.Anchor

/-!
# Attempts at an anchor

The worker and the retries of an operator run `submitFabricAnchorRequest` on one request, any number of
them at a time. Each reads the row, submits, and writes the outcome in a transaction of its own: an
UPDATE of the row unless it is committed, which is not told when it matches nothing, and an INSERT of
the attempt under the number after the one that was read. The number is unique, and that alone keeps the
account: whoever read an old row finds its number taken.
-/

namespace Inec

open Transactions

variable (sha256Hex : String → String)

/-! ### One attempt -/

/-- A row of `fabric_anchor_attempts`. -/
structure AnchorAttempt where
  requestId : Int
  attemptNo : Nat
  gatewayEndpoint : Option String
  channelId : Option String
  chaincodeId : Option String
  transactionId : Option String
  commitStatus : AnchorStatus
  receiptJson : Option String
  diagnostic : Option String
  deriving DecidableEq, Repr

/-- What comes back from the gateway: no client at all, an error of `SubmitAnchor`, or a receipt. -/
inductive GatewayReply
  | noClient (err : String)
  | refused (err : String)
  | answered (receipt : AnchorReceipt)

/-- What `recordFabricAnchorOutcome` is called with. -/
structure AnchorOutcome where
  status : AnchorStatus
  receipt : AnchorReceipt
  diagnostic : String
  deriving DecidableEq, Repr

def emptyReceipt : AnchorReceipt := ⟨"", "", "", "", "", "", false⟩

/-- The second half of `submitFabricAnchorRequest`. -/
def submissionOutcome (request : AnchorRequest) : GatewayReply → AnchorOutcome
  | .noClient err => ⟨.unavailable, emptyReceipt, err⟩
  | .refused err => ⟨.failed, emptyReceipt, err⟩
  | .answered receipt =>
      if receipt.anchorId = request.anchorId then ⟨.committed, receipt, ""⟩
      else ⟨.failed, emptyReceipt, "Fabric receipt anchor ID does not match queued commitment"⟩

/-- The UPDATE, on a row that is not committed. -/
def recordOutcome (config : GatewayConfig) (attemptNo : Nat) (outcome : AnchorOutcome) (row : AnchorRequest) :
    AnchorRequest :=
  if outcome.status = .committed then
    { row with
      status := outcome.status
      fabricChannel := some outcome.receipt.channelId
      chaincodeId := some outcome.receipt.chaincodeName
      contractName := some config.contract
      transactionId := some outcome.receipt.fabricTxId
      commitStatus := some "VALID"
      receiptJson := some (Inec.receiptJson outcome.receipt)
      receiptSha256 := some (sha256Hex (Inec.receiptJson outcome.receipt))
      lastError := none
      attemptCount := attemptNo }
  else
    { row with
      status := outcome.status
      lastError := some outcome.diagnostic
      attemptCount := attemptNo }

/-- The row the INSERT writes. -/
def attemptRow (config : GatewayConfig) (request : AnchorRequest) (outcome : AnchorOutcome) : AnchorAttempt where
  requestId := request.id
  attemptNo := request.attemptCount + 1
  gatewayEndpoint := nullStringArg config.endpoint
  channelId := nullStringArg config.channel
  chaincodeId := nullStringArg config.chaincode
  transactionId := nullStringArg outcome.receipt.fabricTxId
  commitStatus := outcome.status
  receiptJson := if outcome.status = .committed then some (Inec.receiptJson outcome.receipt) else none
  diagnostic := nullStringArg outcome.diagnostic

/-! ### The machine -/

/-- Where a call of `submitFabricAnchorRequest` stands, with the row as it was read. `written` is the row
its UPDATE wrote, if it matched. -/
inductive AnchorPhase
  | idle
  | read (request : AnchorRequest)
  | submitted (request : AnchorRequest) (outcome : AnchorOutcome)
  | updated (config : GatewayConfig) (request : AnchorRequest) (outcome : AnchorOutcome)
      (written : Option AnchorRequest)
  | inserted (attempt : AnchorAttempt) (written : Option AnchorRequest)

/-- The request, its attempts with the lock on the request, and the calls. -/
structure AnchorState where
  request : AnchorRequest
  attempts : Store AnchorAttempt Int
  procs : Nat → AnchorPhase

/-- One statement or call. `rollback` is any end without a commit: an error, a timeout, a crash. -/
inductive AnchorInput
  | read (pid : Nat)
  | submit (pid : Nat) (submission : GatewayReply)
  | update (pid : Nat) (config : GatewayConfig)
  | insert (pid : Nat)
  | commit (pid : Nat)
  | rollback (pid : Nat)

namespace AnchorState

variable (s : AnchorState)

def setPhase (pid : Nat) (phase : AnchorPhase) : AnchorState :=
  { s with procs := Function.update s.procs pid phase }

/-- The transaction ends without a trace. -/
def rollback (pid : Nat) : AnchorState :=
  { s with attempts := Transactions.rollback s.attempts pid, procs := Function.update s.procs pid .idle }

/-- `getFabricAnchorRequest`, and nothing more when the request is committed. -/
def read (pid : Nat) : AnchorState :=
  match s.procs pid with
  | .idle => if s.request.status = .committed then s else s.setPhase pid (.read s.request)
  | _ => s

def submit (pid : Nat) (submission : GatewayReply) : AnchorState :=
  match s.procs pid with
  | .read request => s.setPhase pid (.submitted request (submissionOutcome request submission))
  | _ => s

/-- The UPDATE with `status <> 'committed'`. It waits while another transaction has written the row, and the
trigger of Postgres refuses a count that goes down. -/
def update (postgres : Bool) (pid : Nat) (config : GatewayConfig) : AnchorState :=
  match s.procs pid with
  | .submitted request outcome =>
      if s.request.status = .committed then s.setPhase pid (.updated config request outcome none)
      else
        match acquire s.attempts pid s.request.id with
        | none => s
        | some attempts =>
            if postgres ∧ request.attemptCount + 1 < s.request.attemptCount then s.rollback pid
            else
              { s with
                attempts := attempts
                procs := Function.update s.procs pid (.updated config request outcome
                  (some (recordOutcome sha256Hex config (request.attemptCount + 1) outcome s.request))) }
  | _ => s

/-- The INSERT. It waits for another transaction that inserted the number, and fails on a committed one. -/
def insert (pid : Nat) : AnchorState :=
  match s.procs pid with
  | .updated config request outcome written =>
      let attempt := attemptRow config request outcome
      if s.attempts.pending.any (fun p => p.1 != pid && p.2.attemptNo == attempt.attemptNo) then s
      else if s.attempts.committed.any (fun a => a.attemptNo == attempt.attemptNo) then s.rollback pid
      else
        { s with
          attempts := append s.attempts pid attempt
          procs := Function.update s.procs pid (.inserted attempt written) }
  | _ => s

def commit (pid : Nat) : AnchorState :=
  match s.procs pid with
  | .inserted _ written =>
      { request := written.getD s.request
        attempts := Transactions.commit s.attempts pid
        procs := Function.update s.procs pid .idle }
  | _ => s

end AnchorState

def anchorStep (postgres : Bool) (s : AnchorState) : AnchorInput → AnchorState
  | .read pid => s.read pid
  | .submit pid submission => s.submit pid submission
  | .update pid config => s.update sha256Hex postgres pid config
  | .insert pid => s.insert pid
  | .commit pid => s.commit pid
  | .rollback pid => s.rollback pid

/-- A request as it was queued. -/
def anchorStart (config : GatewayConfig) (id eventId : Int) (anchor : EvidenceAnchor) : AnchorState where
  request := queuedRequest sha256Hex config id eventId anchor
  attempts := ⟨[], [], fun _ => none⟩
  procs _ := .idle

/-! ### The invariant -/

/-- What a call may rely on, as long as it has only read: the row has moved on since or is still open. -/
def ReadBefore (current request : AnchorRequest) : Prop :=
  request.attemptCount ≤ current.attemptCount ∧
    (current.status = .committed → request.attemptCount < current.attemptCount)

/-- What holds of a call, given the committed row. -/
def AnchorPhase.Sound (current : AnchorRequest) : AnchorPhase → Prop
  | .idle => True
  | .read request => ReadBefore current request
  | .submitted request _ => ReadBefore current request
  | .updated _ request _ none => ReadBefore current request ∧ current.status = .committed
  | .updated _ request _ (some row) =>
      ReadBefore current request ∧ current.status ≠ .committed ∧ row.attemptCount = request.attemptCount + 1 ∧
        row.id = current.id
  | .inserted _ none => False
  | .inserted attempt (some row) =>
      current.status ≠ .committed ∧ row.attemptCount = current.attemptCount + 1 ∧ row.id = current.id ∧
        attempt.attemptNo = current.attemptCount + 1

/-- The row a call has written and not committed. -/
def AnchorPhase.written? : AnchorPhase → Option AnchorRequest
  | .updated _ _ _ written => written
  | .inserted _ written => written
  | _ => none

/-- The attempt a call has inserted and not committed. -/
def AnchorPhase.attempt? : AnchorPhase → Option AnchorAttempt
  | .inserted attempt _ => some attempt
  | _ => none

structure AttemptsSound (s : AnchorState) : Prop where
  numbered : s.attempts.committed.map (·.attemptNo) = List.range' 1 s.request.attemptCount
  own : ∀ pid, own s.attempts pid = (s.procs pid).attempt?.toList
  holder : ∀ pid, (s.procs pid).written?.isSome = true → s.attempts.holder s.request.id = some pid
  phases : ∀ pid, (s.procs pid).Sound s.request

variable {sha256Hex} {s : AnchorState} {pid : Nat}

@[simp] theorem recordOutcome_attemptCount (config : GatewayConfig) (n : Nat) (outcome : AnchorOutcome)
    (row : AnchorRequest) : (recordOutcome sha256Hex config n outcome row).attemptCount = n := by
  unfold recordOutcome
  split <;> rfl

@[simp] theorem recordOutcome_id (config : GatewayConfig) (n : Nat) (outcome : AnchorOutcome)
    (row : AnchorRequest) :
    (recordOutcome sha256Hex config n outcome row).id = row.id := by
  unfold recordOutcome
  split <;> rfl

/-- A number is taken exactly up to the count. -/
theorem AttemptsSound.taken_iff (h : AttemptsSound s) (n : Nat) :
    (s.attempts.committed.any fun a => a.attemptNo == n + 1) = true ↔ n < s.request.attemptCount := by
  have hmem : n + 1 ∈ s.attempts.committed.map (·.attemptNo) ↔ n < s.request.attemptCount := by
    rw [h.numbered, List.mem_range'_1]
    omega
  rw [← hmem, List.any_eq_true, List.mem_map]
  simp only [beq_iff_eq]

/-! ### Steps that commit nothing -/

/-- The call enters another phase without a row of its own or a lock. -/
theorem AttemptsSound.setPhase (h : AttemptsSound s) {next : AnchorPhase} (hnext : next.Sound s.request)
    (hwritten : next.written? = none) (hattempt : next.attempt? = none) (hbefore : (s.procs pid).attempt? = none) :
    AttemptsSound (s.setPhase pid next) where
  numbered := h.numbered
  own := by
    intro p
    simp only [AnchorState.setPhase]
    by_cases heq : p = pid
    · rw [heq, Function.update_self, hattempt, ← hbefore]
      exact h.own pid
    · rw [Function.update_of_ne heq]
      exact h.own p
  holder := by
    intro p hp
    simp only [AnchorState.setPhase] at hp ⊢
    by_cases heq : p = pid
    · rw [heq, Function.update_self, hwritten] at hp
      cases hp
    · rw [Function.update_of_ne heq] at hp
      exact h.holder p hp
  phases := Interference.forall_update hnext (fun _ hp => hp) h.phases

theorem AttemptsSound.rollback (h : AttemptsSound s) (pid : Nat) : AttemptsSound (s.rollback pid) where
  numbered := h.numbered
  own := by
    intro p
    simp only [AnchorState.rollback]
    by_cases heq : p = pid
    · rw [heq, Function.update_self, own_rollback_self]
      rfl
    · rw [Function.update_of_ne heq, own_rollback_of_ne heq]
      exact h.own p
  holder := by
    intro p hp
    simp only [AnchorState.rollback] at hp ⊢
    by_cases heq : p = pid
    · rw [heq, Function.update_self] at hp
      cases hp
    · rw [Function.update_of_ne heq] at hp
      exact release_of_ne (h.holder p hp) heq
  phases := Interference.forall_update trivial (fun _ hp => hp) h.phases

theorem AttemptsSound.read (h : AttemptsSound s) (pid : Nat) : AttemptsSound (s.read pid) := by
  unfold AnchorState.read
  split
  · rename_i hidle
    split
    · exact h
    · rename_i hopen
      exact h.setPhase ⟨le_refl _, fun hc => absurd hc hopen⟩ rfl rfl (by rw [hidle]; rfl)
  · exact h

theorem AttemptsSound.submit (h : AttemptsSound s) (pid : Nat) (submission : GatewayReply) :
    AttemptsSound (s.submit pid submission) := by
  unfold AnchorState.submit
  split
  · rename_i request hread
    have hsound := h.phases pid
    rw [hread] at hsound
    exact h.setPhase hsound rfl rfl (by rw [hread]; rfl)
  · exact h

/-- The UPDATE matched: the call holds the lock and has written the row. -/
theorem AttemptsSound.lock (h : AttemptsSound s) {attempts : Store AnchorAttempt Int} {config : GatewayConfig}
    {request row : AnchorRequest} {outcome : AnchorOutcome}
    (hacquire : acquire s.attempts pid s.request.id = some attempts)
    (hsubmitted : s.procs pid = .submitted request outcome) (hopen : s.request.status ≠ .committed)
    (hcount : row.attemptCount = request.attemptCount + 1) (hid : row.id = s.request.id) :
    AttemptsSound { s with
      attempts := attempts
      procs := Function.update s.procs pid (.updated config request outcome (some row)) } := by
  obtain ⟨hcommitted, hpending, hheld, hkeep⟩ := acquire_eq_some hacquire
  have hread := h.phases pid
  rw [hsubmitted] at hread
  refine ⟨by rw [hcommitted]; exact h.numbered, ?_, ?_, ?_⟩
  · intro p
    have hown : Transactions.own attempts p = Transactions.own s.attempts p := by
      rw [Transactions.own, hpending, Transactions.own]
    dsimp only
    rw [hown, h.own p]
    by_cases heq : p = pid
    · rw [heq, Function.update_self, hsubmitted]
      rfl
    · rw [Function.update_of_ne heq]
  · intro p hp
    dsimp only at hp ⊢
    by_cases heq : p = pid
    · rw [heq]
      exact hheld
    · rw [Function.update_of_ne heq] at hp
      exact hkeep _ _ (h.holder p hp)
  · exact Interference.forall_update ⟨hread, hopen, hcount, hid⟩ (fun _ hp => hp) h.phases

theorem AttemptsSound.update (h : AttemptsSound s) (postgres : Bool) (pid : Nat) (config : GatewayConfig) :
    AttemptsSound (s.update sha256Hex postgres pid config) := by
  unfold AnchorState.update
  split
  · rename_i request outcome hsubmitted
    have hread := h.phases pid
    rw [hsubmitted] at hread
    split
    · rename_i hcommitted
      exact h.setPhase ⟨hread, hcommitted⟩ rfl rfl (by rw [hsubmitted]; rfl)
    · rename_i hopen
      split
      · exact h
      · rename_i attempts hacquire
        split
        · exact h.rollback pid
        · exact h.lock hacquire hsubmitted hopen (recordOutcome_attemptCount ..) (recordOutcome_id ..)
  · exact h

/-- Whoever finds the number free has read the row as it is, and holds it. -/
theorem AttemptsSound.insert (h : AttemptsSound s) (pid : Nat) : AttemptsSound (s.insert pid) := by
  unfold AnchorState.insert
  split
  · rename_i config request outcome written hupdated
    have hsound := h.phases pid
    rw [hupdated] at hsound
    simp only
    split
    · exact h
    split
    · exact h.rollback pid
    · rename_i hfree
      have hcurrent : s.request.attemptCount ≤ request.attemptCount := by
        rw [attemptRow, h.taken_iff] at hfree
        omega
      cases written with
      | none =>
          obtain ⟨⟨-, hbehind⟩, hcommitted⟩ := hsound
          have hlt := hbehind hcommitted
          omega
      | some row =>
          obtain ⟨⟨hle, -⟩, hopen, hcount, hid⟩ := hsound
          have heq : request.attemptCount = s.request.attemptCount := by omega
          refine ⟨h.numbered, ?_, ?_, ?_⟩
          · intro p
            dsimp only
            by_cases hp : p = pid
            · rw [hp, Function.update_self, own_append_self, h.own pid, hupdated]
              rfl
            · rw [Function.update_of_ne hp, own_append_of_ne hp]
              exact h.own p
          · intro p hp
            dsimp only at hp ⊢
            by_cases hpid : p = pid
            · rw [hpid]
              exact h.holder pid (by rw [hupdated]; rfl)
            · rw [Function.update_of_ne hpid] at hp
              exact h.holder p hp
          · refine Interference.forall_update ⟨hopen, by rw [hcount, heq], hid, ?_⟩ (fun _ hp => hp) h.phases
            rw [attemptRow, heq]
  · exact h

/-! ### Commits -/

/-- What the row of a committed attempt does to the calls that read an earlier one. -/
theorem AnchorPhase.Sound.moveOn {phase : AnchorPhase} {current row : AnchorRequest} (h : phase.Sound current)
    (hopen : current.status ≠ .committed) (hcount : row.attemptCount = current.attemptCount + 1)
    (hwritten : phase.written? = none) : phase.Sound row := by
  have hread : ∀ request, ReadBefore current request → ReadBefore row request := by
    rintro request ⟨hle, -⟩
    exact ⟨by omega, fun _ => by omega⟩
  cases phase with
  | idle => trivial
  | read request => exact hread request h
  | submitted request outcome => exact hread request h
  | updated config request outcome written =>
      obtain rfl : written = none := hwritten
      exact absurd h.2 hopen
  | inserted attempt written =>
      obtain rfl : written = none := hwritten
      exact h.elim

theorem AttemptsSound.commit (h : AttemptsSound s) (pid : Nat) : AttemptsSound (s.commit pid) := by
  unfold AnchorState.commit
  split
  · rename_i attempt written hinserted
    have hsound := h.phases pid
    have hown := h.own pid
    rw [hinserted] at hsound hown
    cases written with
    | none => exact hsound.elim
    | some row =>
        obtain ⟨hopen, hcount, hid, hno⟩ := hsound
        have hheld := h.holder pid (by rw [hinserted]; rfl)
        -- nobody else has written the row, the lock is ours
        have hothers : ∀ p, p ≠ pid → (s.procs p).written? = none := by
          intro p hne
          by_contra hsome
          have hp := h.holder p (Option.isSome_iff_ne_none.mpr hsome)
          exact hne (Option.some.inj (hp.symm.trans hheld))
        refine ⟨?_, ?_, ?_, ?_⟩
        · simp only [Transactions.commit, List.map_append, h.numbered, hown, AnchorPhase.attempt?,
            Option.toList_some, List.map_cons, List.map_nil, Option.getD_some, hcount, hno]
          rw [List.range'_1_concat, Nat.add_comm]
        · intro p
          dsimp only
          by_cases hp : p = pid
          · rw [hp, Function.update_self, own_commit_self]
            rfl
          · rw [Function.update_of_ne hp, own_commit_of_ne hp]
            exact h.own p
        · intro p hp
          dsimp only at hp
          by_cases hpid : p = pid
          · rw [hpid, Function.update_self] at hp
            cases hp
          · rw [Function.update_of_ne hpid, hothers p hpid] at hp
            cases hp
        · intro p
          dsimp only
          by_cases hp : p = pid
          · rw [hp, Function.update_self]
            trivial
          · rw [Function.update_of_ne hp]
            exact (h.phases p).moveOn hopen hcount (hothers p hp)
  · exact h

theorem anchorStep_sound (postgres : Bool) (s : AnchorState) (i : AnchorInput) (h : AttemptsSound s) :
    AttemptsSound (anchorStep sha256Hex postgres s i) := by
  cases i with
  | read pid => exact h.read pid
  | submit pid submission => exact h.submit pid submission
  | update pid config => exact h.update postgres pid config
  | insert pid => exact h.insert pid
  | commit pid => exact h.commit pid
  | rollback pid => exact h.rollback pid

theorem attemptsSound_start (config : GatewayConfig) (id eventId : Int) (anchor : EvidenceAnchor) :
    AttemptsSound (anchorStart sha256Hex config id eventId anchor) := by
  refine ⟨rfl, fun _ => rfl, ?_, fun _ => trivial⟩
  intro pid hp
  cases hp

/-! ### Every run -/

/-- Only a commit touches the request or the committed attempts. Every other end of an attempt leaves both
as they were. -/
theorem anchorStep_of_not_commit (postgres : Bool) (s : AnchorState) (i : AnchorInput)
    (hi : ∀ pid, i ≠ .commit pid) :
    (anchorStep sha256Hex postgres s i).request = s.request ∧
      (anchorStep sha256Hex postgres s i).attempts.committed = s.attempts.committed := by
  cases i with
  | read pid =>
      simp only [anchorStep, AnchorState.read]
      split
      · split <;> exact ⟨rfl, rfl⟩
      · exact ⟨rfl, rfl⟩
  | submit pid submission =>
      simp only [anchorStep, AnchorState.submit]
      split <;> exact ⟨rfl, rfl⟩
  | update pid config =>
      simp only [anchorStep, AnchorState.update]
      split
      · split
        · exact ⟨rfl, rfl⟩
        split
        · exact ⟨rfl, rfl⟩
        · rename_i attempts hacquire
          split
          · exact ⟨rfl, rfl⟩
          · exact ⟨rfl, (acquire_eq_some hacquire).1⟩
      · exact ⟨rfl, rfl⟩
  | insert pid =>
      simp only [anchorStep, AnchorState.insert]
      split
      · split
        · exact ⟨rfl, rfl⟩
        split <;> exact ⟨rfl, rfl⟩
      · exact ⟨rfl, rfl⟩
  | commit pid => exact absurd rfl (hi pid)
  | rollback pid => exact ⟨rfl, rfl⟩

/-- A committed request is not written any more. -/
theorem anchorStep_of_committed (postgres : Bool) (s : AnchorState) (i : AnchorInput) (h : AttemptsSound s)
    (hcommitted : s.request.status = .committed) : (anchorStep sha256Hex postgres s i).request = s.request := by
  by_cases hi : ∃ pid, i = .commit pid
  · obtain ⟨pid, rfl⟩ := hi
    simp only [anchorStep, AnchorState.commit]
    split
    · rename_i attempt written hinserted
      have hsound := h.phases pid
      rw [hinserted] at hsound
      cases written with
      | none => rfl
      | some row => exact absurd hcommitted hsound.1
    · rfl
  · exact (anchorStep_of_not_commit postgres s i (not_exists.mp hi)).1

/-- In every interleaving of any number of calls the committed attempts are numbered from 1 to the count, a
committed request stays as it is, and an attempt that does not commit leaves no trace. -/
theorem attempts_accounted (sha256Hex : String → String) (postgres : Bool) (config : GatewayConfig)
    (id eventId : Int) (anchor : EvidenceAnchor) (inputs : List AnchorInput) :
    (∀ s ∈ Runs.visited (anchorStep sha256Hex postgres) (anchorStart sha256Hex config id eventId anchor) inputs,
      s.attempts.committed.map (·.attemptNo) = List.range' 1 s.request.attemptCount) ∧
    (Runs.visited (anchorStep sha256Hex postgres) (anchorStart sha256Hex config id eventId anchor) inputs).Pairwise
      (fun s t => s.request.status = .committed → t.request = s.request) ∧
    Runs.AllSteps (anchorStep sha256Hex postgres)
      (fun s i => (∀ pid, i ≠ .commit pid) →
        (anchorStep sha256Hex postgres s i).request = s.request ∧
          (anchorStep sha256Hex postgres s i).attempts.committed = s.attempts.committed)
      (anchorStart sha256Hex config id eventId anchor) inputs := by
  have hstart := @attemptsSound_start sha256Hex config id eventId anchor
  refine ⟨?_, ?_, ?_⟩
  · intro s hs
    exact (Runs.forall_visited_of_step (anchorStep_sound postgres) hstart inputs s hs).numbered
  · refine Runs.pairwise_visited (fun _ _ => rfl) ?_ (anchorStep_sound postgres) ?_ hstart inputs
    · intro s t u hst htu hcommitted
      have heq := hst hcommitted
      exact (htu (heq ▸ hcommitted)).trans heq
    · intro s i hs hcommitted
      exact anchorStep_of_committed postgres s i hs hcommitted
  · exact Runs.allSteps_of_inv (anchorStep_sound postgres)
      (fun s i _ hi => anchorStep_of_not_commit postgres s i hi)
      hstart inputs

end Inec
