import Inec.Lib.HexText
import Inec.Settlement.Stablecoin

/-!
# The ids of wallets and transfers

`CreateWallet` and `Transfer` of stablecoin_engine.go make the id of what they store from a text that ends in
the reading of the clock: `sha256.New().Sum([]byte(text))[:8]`, and twelve bytes for a transfer. `Sum` writes
the hash of nothing behind the bytes it is given, and the cut leaves the first bytes of the text. So the ids
are those bytes in hex, and neither the hash nor, behind a long text, the clock has a part in them.
-/

namespace Inec

/-! ### Ids -/

/-- A call of `CreateWallet`, with the text of the clock, whether a key pair was made and whether the database
carries the INSERT out. -/
structure WalletCall where
  ownerId : String
  clock : String
  keyGenerated : Bool
  works : Bool

inductive WalletError
  | key
  | insert
  deriving DecidableEq, Repr

/-- The messages; both go on with the error below. -/
def WalletError.text : WalletError → String
  | key => "generate key: "
  | insert => "create wallet: "

/-- What the id of a wallet is made from. -/
def WalletCall.seed (call : WalletCall) : List UInt8 := (call.ownerId ++ call.clock).toUTF8.data.toList

def WalletCall.walletId (call : WalletCall) : String := "W-" ++ HexText.encode (call.seed.take 8)

/-- What the id of a transfer is made from. -/
def TransferCall.seed (call : TransferCall) : List UInt8 :=
  (call.fromWallet ++ call.toWallet ++ fixed4 call.amount ++ call.clock).toUTF8.data.toList

theorem TransferCall.txId_eq (call : TransferCall) : call.txId = "TX-" ++ HexText.encode (call.seed.take 12) := rfl

inductive StablecoinOp
  | createWallet (call : WalletCall)
  | transfer (call : TransferCall)

namespace StablecoinOp

def id : StablecoinOp → String
  | createWallet call => call.walletId
  | transfer call => call.txId

def clock : StablecoinOp → String
  | createWallet call => call.clock
  | transfer call => call.clock

/-- The part of the texts that gets into the ids is not the same. -/
def HeadsDiffer : StablecoinOp → StablecoinOp → Prop
  | createWallet call, createWallet call' => call.seed.take 8 ≠ call'.seed.take 8
  | transfer call, transfer call' => call.seed.take 12 ≠ call'.seed.take 12
  | _, _ => True

instance : DecidableRel HeadsDiffer
  | createWallet call, createWallet call' => inferInstanceAs (Decidable (call.seed.take 8 ≠ call'.seed.take 8))
  | transfer call, transfer call' => inferInstanceAs (Decidable (call.seed.take 12 ≠ call'.seed.take 12))
  | createWallet _, transfer _ => .isTrue trivial
  | transfer _, createWallet _ => .isTrue trivial

theorem id_ne_iff (a b : StablecoinOp) : a.id ≠ b.id ↔ HeadsDiffer a b := by
  -- the prefixes already differ in their first letters
  have hkinds (xs ys : List UInt8) : "W-" ++ HexText.encode xs ≠ "TX-" ++ HexText.encode ys := by
    intro h
    have hlist := congrArg String.toList h
    rw [String.toList_append, String.toList_append] at hlist
    exact absurd (List.cons.inj hlist).1 (by decide)
  have hsame (pre : String) (xs ys : List UInt8) :
      pre ++ HexText.encode xs ≠ pre ++ HexText.encode ys ↔ xs ≠ ys := by
    apply not_congr
    constructor
    · intro h
      have hlist := congrArg String.toList h
      rw [String.toList_append, String.toList_append] at hlist
      exact HexText.encode_inj (String.toList_inj.mp (List.append_cancel_left hlist))
    · intro h
      rw [h]
  cases a with
  | createWallet call =>
      cases b with
      | createWallet call' => exact hsame "W-" _ _
      | transfer call' => exact iff_of_true (hkinds _ _) trivial
  | transfer call =>
      cases b with
      | createWallet call' => exact iff_of_true (hkinds _ _).symm trivial
      | transfer call' =>
          show call.txId ≠ call'.txId ↔ _
          rw [call.txId_eq, call'.txId_eq]
          exact hsame "TX-" _ _

end StablecoinOp

/-! ### The engine -/

namespace Stablecoin

/-- `CreateWallet`: the database after it, and the id of the wallet. The id is the primary key. -/
def createWallet (s : Stablecoin) (call : WalletCall) : Stablecoin × Except WalletError String :=
  if !call.keyGenerated then (s, .error .key)
  else if hfree : call.works = true ∧ call.walletId ∉ s.wallets.map (·.walletId) then
    ({ s with
        wallets := s.wallets ++ [⟨call.walletId, ⟨0, by decide⟩, true⟩]
        distinct := by
          rw [List.map_append, List.nodup_append]
          refine ⟨s.distinct, List.nodup_singleton _, ?_⟩
          intro walletId hold walletId' hnew
          rw [List.mem_singleton.mp hnew]
          rintro rfl
          exact hfree.2 hold }, .ok call.walletId)
  else (s, .error .insert)

/-- The transfer gets to the line that makes its id. -/
def passes (s : Stablecoin) (call : TransferCall) : Bool :=
  decide (0 < call.amount) && call.works .begin && call.works .sender && call.works .receiver &&
    (s.activeWallet? call.fromWallet).any (fun sender => decide (call.amount ≤ sender.balance.value)) &&
    (s.activeWallet? call.toWallet).isSome

def run (s : Stablecoin) : StablecoinOp → Stablecoin
  | .createWallet call => (s.createWallet call).1
  | .transfer call => s.step call

/-- The operation makes an id. -/
def generates (s : Stablecoin) : StablecoinOp → Bool
  | .createWallet call => call.keyGenerated
  | .transfer call => s.passes call

variable {s : Stablecoin} {call : TransferCall}

theorem passes_iff : s.passes call = true ↔
    0 < call.amount ∧ call.works .begin = true ∧ call.works .sender = true ∧ call.works .receiver = true ∧
      (∃ sender, s.activeWallet? call.fromWallet = some sender ∧ call.amount ≤ sender.balance.value) ∧
      ∃ receiver, s.activeWallet? call.toWallet = some receiver := by
  simp only [passes, Bool.and_eq_true, decide_eq_true_eq, Option.any_eq_true, Option.isSome_iff_exists, and_assoc]

/-- Only an operation that makes an id adds to the transactions, a row with that id. -/
theorem mem_transactions_run {op : StablecoinOp} {tx : StablecoinTx} (htx : tx ∈ (s.run op).transactions) :
    tx ∈ s.transactions ∨ (s.generates op = true ∧ tx.txId = op.id) := by
  cases op with
  | createWallet call =>
      have hsame : (s.createWallet call).1.transactions = s.transactions := by
        rw [createWallet]
        split
        · rfl
        · split
          · rfl
          · rfl
      rw [run, hsame] at htx
      exact .inl htx
  | transfer call =>
      rw [run, step] at htx
      rcases transfer_cases s call with ⟨e, he⟩ | ⟨sender, receiver, t, hadmits, hwrites, htransfer⟩
      · rw [he] at htx
        exact .inl htx
      · obtain ⟨-, -, -, -, -, ⟨amount, hrows⟩, -⟩ := transferWrites_eq_some hwrites
        rw [htransfer, hrows, List.mem_append, List.mem_singleton] at htx
        rcases htx with hold | rfl
        · exact .inl hold
        · refine .inr ⟨?_, rfl⟩
          exact passes_iff.mpr ⟨hadmits.positive, hadmits.works _, hadmits.works _, hadmits.works _,
            ⟨sender, hadmits.senderFound, hadmits.enough⟩, receiver, hadmits.receiverFound⟩

end Stablecoin

/-! ### Runs -/

/-- The engine, with the operations so far that made an id. -/
structure Issuer where
  engine : Stablecoin
  issued : List StablecoinOp

namespace Issuer

def new (engine : Stablecoin) : Issuer := ⟨engine, []⟩

def step (s : Issuer) (op : StablecoinOp) : Issuer where
  engine := s.engine.run op
  issued := if s.engine.generates op then s.issued ++ [op] else s.issued

def ids (s : Issuer) : List String := s.issued.map (·.id)

/-- The operation is a transfer that fails because its id is that of a transaction. -/
def FailsByRepeat (s : Issuer) : StablecoinOp → Prop
  | .createWallet _ => False
  | .transfer call =>
      s.engine.passes call = true ∧ (s.engine.transactions.any fun tx => tx.txId == call.txId) = true

/-- Every transaction has an id that was made in the run. -/
def Recorded (s : Issuer) : Prop := ∀ tx ∈ s.engine.transactions, tx.txId ∈ s.ids

theorem ids_step {s : Issuer} {op : StablecoinOp} (h : s.engine.generates op = true) :
    (s.step op).ids = s.ids ++ [op.id] := by
  rw [ids, step, if_pos h, List.map_append]
  rfl

theorem issued_prefix_step (s : Issuer) (op : StablecoinOp) : s.issued <+: (s.step op).issued := by
  rw [step]
  split
  · exact List.prefix_append _ _
  · exact List.prefix_rfl

theorem Recorded.step {s : Issuer} (h : s.Recorded) (op : StablecoinOp) : (s.step op).Recorded := by
  intro tx htx
  rcases Stablecoin.mem_transactions_run htx with hold | ⟨hgenerates, hid⟩
  · exact ((issued_prefix_step s op).map _).subset (h tx hold)
  · rw [ids_step hgenerates, hid]
    exact List.mem_append_right _ (List.mem_singleton.mpr rfl)

theorem issued_prefix_final (s : Issuer) (ops : List StablecoinOp) :
    s.issued <+: (Runs.final step s ops).issued := by
  induction ops generalizing s with
  | nil => exact List.prefix_rfl
  | cons op ops ih => exact (issued_prefix_step s op).trans (ih (s.step op))

theorem issued_sublist_final (s : Issuer) (ops : List StablecoinOp) :
    (Runs.final step s ops).issued.Sublist (s.issued ++ ops) := by
  induction ops generalizing s with
  | nil =>
      rw [List.append_nil]
      exact List.Sublist.refl _
  | cons op ops ih =>
      refine (ih (s.step op)).trans ?_
      rw [List.append_cons, step]
      split
      · exact List.Sublist.refl _
      · exact (List.sublist_append_left s.issued [op]).append_right ops

/-- While the ids of a whole run are different, no transfer of it meets its own. -/
theorem not_failsByRepeat_of_nodup {s : Issuer} (h : s.Recorded) (op : StablecoinOp)
    (hnodup : (s.step op).ids.Nodup) : ¬s.FailsByRepeat op := by
  cases op with
  | createWallet call => exact id
  | transfer call =>
      rintro ⟨hpasses, hused⟩
      obtain ⟨tx, htx, hid⟩ := List.any_eq_true.mp hused
      have hmem := h tx htx
      rw [beq_iff_eq.mp hid] at hmem
      have hgenerates : s.engine.generates (.transfer call) = true := hpasses
      rw [ids_step hgenerates, List.nodup_append] at hnodup
      exact hnodup.2.2 _ hmem _ (List.mem_singleton.mpr rfl) rfl

theorem allSteps_of_nodup {s : Issuer} (h : s.Recorded) {ops : List StablecoinOp}
    (hnodup : (Runs.final step s ops).ids.Nodup) : Runs.AllSteps step (fun s op => ¬s.FailsByRepeat op) s ops := by
  induction ops generalizing s with
  | nil => trivial
  | cons op ops ih =>
      have hprefix := (issued_prefix_final (s.step op) ops).map (·.id)
      exact ⟨not_failsByRepeat_of_nodup h op (hnodup.sublist hprefix.sublist), ih (h.step op) hnodup⟩

/-- For every engine without transactions and every sequence of creations and transfers: the ids that are made
are different, and no transfer fails because its id is taken, exactly if no two of the operations that make an
id agree in the first bytes of the texts it is made from. -/
theorem distinct_iff_headsDiffer (engine : Stablecoin) (hnew : engine.transactions = [])
    (ops : List StablecoinOp) :
    ((Runs.final step (new engine) ops).ids.Nodup ∧
        Runs.AllSteps step (fun s op => ¬s.FailsByRepeat op) (new engine) ops) ↔
      (Runs.final step (new engine) ops).issued.Pairwise StablecoinOp.HeadsDiffer := by
  have hrecorded : (new engine).Recorded := by
    intro tx htx
    rw [new, hnew] at htx
    cases htx
  have hnodup : (Runs.final step (new engine) ops).ids.Nodup ↔
      (Runs.final step (new engine) ops).issued.Pairwise StablecoinOp.HeadsDiffer := by
    rw [ids, List.Nodup, List.pairwise_map]
    simp only [StablecoinOp.id_ne_iff]
  constructor
  · intro h
    exact hnodup.mp h.1
  · intro h
    exact ⟨hnodup.mpr h, allSteps_of_nodup hrecorded (hnodup.mpr h)⟩

/-! ### Two transfers from the treasury -/

section Treasury

def payAt (clock : String) : StablecoinOp :=
  .transfer { transferOf "INEC-TREASURY-001" "INEC-LOGISTICS-001" 250 with clock := clock }

def walletAt (ownerId clock : String) : StablecoinOp := .createWallet ⟨ownerId, clock, true, true⟩

/-- One transfer, and wallets of two owners. -/
theorem distinct_payOnce : (Runs.final step (new seededWallets)
      [payAt "2027-02-20 12:00:00 +0000 UTC", walletAt "officer1" "2027-02-20 12:00:01 +0000 UTC",
        walletAt "officer2" "2027-02-20 12:00:02 +0000 UTC"]).ids.Nodup ∧
    Runs.AllSteps step (fun s op => ¬s.FailsByRepeat op) (new seededWallets)
      [payAt "2027-02-20 12:00:00 +0000 UTC", walletAt "officer1" "2027-02-20 12:00:01 +0000 UTC",
        walletAt "officer2" "2027-02-20 12:00:02 +0000 UTC"] := by
  apply (distinct_iff_headsDiffer seededWallets rfl _).mpr
  refine List.Pairwise.sublist (issued_sublist_final (new seededWallets) _) ?_
  decide +kernel

/-- The second transfer from one wallet has the id of the first. -/
theorem ids_repeat : ¬ ∀ (engine : Stablecoin) (ops : List StablecoinOp), engine.transactions = [] →
    (ops.map (·.clock)).Nodup →
      (Runs.final step (new engine) ops).ids.Nodup ∧
        Runs.AllSteps step (fun s op => ¬s.FailsByRepeat op) (new engine) ops := by
  intro h
  have hnodup := (h seededWallets
    [payAt "2027-02-20 12:00:00 +0000 UTC", payAt "2027-02-20 12:00:01 +0000 UTC"] rfl (by decide)).1
  revert hnodup
  decide +kernel

end Treasury

end Issuer

end Inec
