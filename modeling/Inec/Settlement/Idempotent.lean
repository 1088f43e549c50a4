import Inec.Lib.UniqueIndex
import Inec.Settlement.Machine

/-!
# Repeated settlement requests

The tables behind `createOperationalSettlement` and the whole of the function, with its INSERT and what it
does when the idempotency key is taken: it compares the request with the settlement of that key and answers
with that settlement or with a conflict. The comparison names six of the eight fields that say what is paid
for what. The kind of the commitment and the currency are not among them.

No statement fails but for what the rows themselves make of it.
-/

namespace Inec

open Checks

/-! ### The tables -/

/-- A row of `operational_settlement_audit` that says `requested`, its details taken apart. -/
structure SettlementAudit where
  commitmentId : String
  action : String
  actor : String
  evidenceSha256 : String
  commitmentKind : String
  deviceId : String
  deriving DecidableEq, Repr

/-- The unique constraints of `operational_settlement_commitments`. NULLs are not equal. -/
def settlementIndexes : List (UniqueIndex SettlementRow) :=
  [⟨"operational_settlement_commitments_pkey", ["id"], none, fun r r' => r.id == r'.id⟩,
    ⟨"operational_settlement_commitments_idempotency_key_key", ["idempotency_key"], none,
      fun r r' => r.idempotencyKey == r'.idempotencyKey⟩,
    ⟨"operational_settlement_commitments_tigerbeetle_transfer_id_key", ["tigerbeetle_transfer_id"], none,
      fun r r' => r.tigerBeetleTransferId.isSome && r.tigerBeetleTransferId == r'.tigerBeetleTransferId⟩]

structure SettlementStore where
  commitments : List SettlementRow
  kept : UniqueIndex.Kept settlementIndexes commitments
  audit : List SettlementAudit
  /-- `external_integration_outbox`: the type of an event and the record its payload is made of. -/
  outbox : List (String × SettlementRow)

namespace SettlementStore

variable (lib : SettlementLib) (env : SettlementEnv)

/-! ### Creation -/

/-- `getOperationalSettlementByIdempotency`. -/
def byIdempotency (s : SettlementStore) (key : String) : Except HttpError SettlementRow :=
  fetch (s.commitments.find? fun r => r.idempotencyKey == key)
    ⟨404, "operational settlement commitment not found"⟩

/-- `createOperationalSettlement` on the tables. `column` is what the key's column makes of a text: the UUID
in its own spelling, or an error. -/
def create (column : String → Except String String) (s : SettlementStore) (id actor : String)
    (raw : SettlementRequest) : SettlementStore × Except HttpError (SettlementRow × Bool) :=
  match createOperationalSettlement lib env none id actor raw with
  | .error err => (s, .error err)
  | .ok (row, _) =>
      match column row.idempotencyKey with
      | .error err => (s, .error ⟨503, "store operational settlement request: " ++ err⟩)
      | .ok key =>
          let row := { row with idempotencyKey := key }
          match hins : UniqueIndex.insertOnConflict settlementIndexes ["idempotency_key"] s.commitments row with
          | .error err => (s, .error ⟨503, "store operational settlement request: " ++ err⟩)
          -- no row affected: the settlement that holds the key decides
          | .ok (_, 0) =>
              (s, do
                let existing ← s.byIdempotency key
                createOperationalSettlement lib env (some existing) id actor raw)
          | .ok (rows, _ + 1) =>
              ({ commitments := rows
                 kept := s.kept.insertOnConflict hins
                 audit := s.audit ++
                   [⟨id, "requested", actor, row.evidenceSha256, row.commitmentKind, row.deviceId⟩]
                 outbox := s.outbox ++ [("operational_settlement.requested.v1", row)] }, .ok (row, true))

/-! ### What it is to answer by content -/

/-- The request passes its validation, as `req`, and every check that comes before the INSERT. -/
structure Passes (raw req : SettlementRequest) : Prop where
  valid : validateOperationalSettlementRequest lib env raw = .ok req
  configured : ∃ cfg, env.configuration = .ok cfg
  ready : env.tigerBeetleReady = .ok ()
  device : loadActiveSettlementDevice env req.electionId req.deviceId = .ok ()
  account : ∃ credit, settlementDeviceAccount lib env req.deviceId = .ok credit

/-- Every field that says what is paid for what is that of the settlement. The references are only kept as
hashes. -/
structure SameContent (stored : SettlementRow) (req : SettlementRequest) : Prop where
  election : stored.electionId = req.electionId
  device : stored.deviceId = req.deviceId
  kind : stored.commitmentKind = req.commitmentKind
  amount : stored.amountMinor = req.amountMinor
  currency : stored.currency = req.currency
  recipient : stored.recipientReferenceSha256 = lib.sha256LowerHex req.recipientReference
  evidence : stored.evidenceSha256 = req.evidenceSha256
  purpose : stored.purposeReferenceSha256 = lib.sha256LowerHex req.purposeReference

/-- The fields that the code compares agree. -/
structure Compared (stored : SettlementRow) (req : SettlementRequest) : Prop where
  election : stored.electionId = req.electionId
  device : stored.deviceId = req.deviceId
  amount : stored.amountMinor = req.amountMinor
  evidence : stored.evidenceSha256 = req.evidenceSha256
  recipient : stored.recipientReferenceSha256 = lib.sha256LowerHex req.recipientReference
  purpose : stored.purposeReferenceSha256 = lib.sha256LowerHex req.purposeReference

def conflict : HttpError := ⟨409, "idempotency_key is already bound to a different operational commitment"⟩

/-- The request is answered with the settlement exactly when it has its content, and with a conflict
otherwise, and leaves the tables as they were. -/
structure AnswersByContent (column : String → Except String String) (s : SettlementStore) (id actor : String)
    (raw req : SettlementRequest) (stored : SettlementRow) : Prop where
  unchanged : (s.create lib env column id actor raw).1 = s
  existing : (s.create lib env column id actor raw).2 = .ok (stored, false) ↔ SameContent lib stored req
  refused : (s.create lib env column id actor raw).2 = .error conflict ↔ ¬SameContent lib stored req

variable {lib env}

theorem sameContent_iff {stored : SettlementRow} {req : SettlementRequest} : SameContent lib stored req ↔
    Compared lib stored req ∧ stored.commitmentKind = req.commitmentKind ∧ stored.currency = req.currency := by
  constructor
  · intro h
    exact ⟨⟨h.election, h.device, h.amount, h.evidence, h.recipient, h.purpose⟩, h.kind, h.currency⟩
  · rintro ⟨h, hkind, hcurrency⟩
    exact ⟨h.election, h.device, hkind, h.amount, hcurrency, h.recipient, h.evidence, h.purpose⟩

/-! ### A key that is taken -/

theorem sameCommitment_iff {stored : SettlementRow} {id actor debit credit : String} {req : SettlementRequest} :
    sameCommitment stored (requestedRow lib id actor debit credit req) = true ↔ Compared lib stored req := by
  simp only [sameCommitment, requestedRow, Bool.and_eq_true, beq_iff_eq]
  constructor
  · rintro ⟨⟨⟨⟨⟨helection, hdevice⟩, hamount⟩, hevidence⟩, hrecipient⟩, hpurpose⟩
    exact ⟨helection, hdevice, hamount, hevidence, hrecipient, hpurpose⟩
  · intro h
    exact ⟨⟨⟨⟨⟨h.election, h.device⟩, h.amount⟩, h.evidence⟩, h.recipient⟩, h.purpose⟩

/-- A request that passes is only judged by the settlement that holds its key. -/
theorem Passes.create_eq {raw req : SettlementRequest} (h : Passes lib env raw req) (id actor : String) :
    ∃ debit credit, createOperationalSettlement lib env none id actor raw =
        .ok (requestedRow lib id actor debit credit req, true) ∧
      ∀ stored, createOperationalSettlement lib env (some stored) id actor raw =
        if sameCommitment stored (requestedRow lib id actor debit credit req) then .ok (stored, false)
        else .error conflict := by
  obtain ⟨cfg, hcfg⟩ := h.configured
  obtain ⟨credit, hcredit⟩ := h.account
  refine ⟨cfg.treasuryAccount, credit, ?_, ?_⟩
  · simp only [createOperationalSettlement, bind, Except.bind, h.valid, hcfg, h.ready, h.device, hcredit]
    rfl
  · intro stored
    simp only [createOperationalSettlement, bind, Except.bind, h.valid, hcfg, h.ready, h.device, hcredit]
    cases sameCommitment stored (requestedRow lib id actor cfg.treasuryAccount credit req) with
    | true => rfl
    | false => rfl

theorem arbiter?_idempotencyKey : UniqueIndex.arbiter? settlementIndexes ["idempotency_key"] =
    some ⟨"operational_settlement_commitments_idempotency_key_key", ["idempotency_key"], none,
      fun r r' => r.idempotencyKey == r'.idempotencyKey⟩ := rfl

variable {column : String → Except String String} {s : SettlementStore} {stored : SettlementRow}
  {raw req : SettlementRequest}

theorem byIdempotency_of_mem (hstored : stored ∈ s.commitments) :
    s.byIdempotency stored.idempotencyKey = .ok stored := by
  have hdistinct := s.kept _ (List.mem_of_find?_eq_some arbiter?_idempotencyKey)
  have hkeys : (s.commitments.map (·.idempotencyKey)).Nodup := by
    rw [List.Nodup, List.pairwise_map]
    apply hdistinct.imp
    intro r r' hne
    simpa using hne
  have hfind := (Rows.find?_key_eq_some_iff hkeys).mpr ⟨hstored, rfl⟩
  rw [byIdempotency, hfind]
  rfl

/-- Under a key that is taken nothing is inserted, and the six compared fields decide. -/
theorem create_of_stored (hstored : stored ∈ s.commitments) (hpass : Passes lib env raw req)
    (hkey : column req.idempotencyKey = .ok stored.idempotencyKey) (id actor : String) :
    (s.create lib env column id actor raw).1 = s ∧
      (Compared lib stored req → (s.create lib env column id actor raw).2 = .ok (stored, false)) ∧
      (¬Compared lib stored req → (s.create lib env column id actor raw).2 = .error conflict) := by
  obtain ⟨debit, credit, hnew, hagain⟩ := hpass.create_eq id actor
  have hcolumn : column (requestedRow lib id actor debit credit req).idempotencyKey =
      .ok stored.idempotencyKey := hkey
  have hins (row : SettlementRow) (hrow : row.idempotencyKey = stored.idempotencyKey) :
      UniqueIndex.insertOnConflict settlementIndexes ["idempotency_key"] s.commitments row =
        .ok (s.commitments, 0) := by
    apply UniqueIndex.insertOnConflict_of_hit arbiter?_idempotencyKey
    apply List.any_eq_true.mpr
    refine ⟨stored, hstored, ?_⟩
    show (stored.idempotencyKey == row.idempotencyKey) = true
    rw [hrow, beq_self_eq_true]
  have hcreate : s.create lib env column id actor raw =
      (s, createOperationalSettlement lib env (some stored) id actor raw) := by
    rw [create]
    simp only [hnew, hcolumn]
    split
    · next err hins' => cases (hins _ (by rfl)).symm.trans hins'
    · rw [byIdempotency_of_mem hstored]
      rfl
    · next rows n hins' => cases (hins _ (by rfl)).symm.trans hins'
  rw [hcreate, hagain stored]
  refine ⟨rfl, ?_, ?_⟩
  · intro hsame
    exact if_pos (sameCommitment_iff.mpr hsame)
  · intro hdiffers
    exact if_neg fun hsame => hdiffers (sameCommitment_iff.mp hsame)

/-- Requests under a stored key are answered by their content exactly when those that agree with the settlement
in the six compared fields also agree with it in kind and currency. -/
theorem answersByContent_iff (hstored : stored ∈ s.commitments) (hpass : Passes lib env raw req)
    (hkey : column req.idempotencyKey = .ok stored.idempotencyKey) (id actor : String) :
    AnswersByContent lib env column s id actor raw req stored ↔
      (Compared lib stored req →
        stored.commitmentKind = req.commitmentKind ∧ stored.currency = req.currency) := by
  obtain ⟨hunchanged, hsame, hdiffers⟩ := create_of_stored hstored hpass hkey id actor
  constructor
  · intro h hcompared
    exact (sameContent_iff.mp (h.existing.mp (hsame hcompared))).2
  · intro h
    have hcontent : SameContent lib stored req ↔ Compared lib stored req := by
      rw [sameContent_iff]
      exact ⟨fun hcontent => hcontent.1, fun hcompared => ⟨hcompared, h hcompared⟩⟩
    by_cases hcompared : Compared lib stored req
    · refine ⟨hunchanged, ⟨fun _ => hcontent.mpr hcompared, fun _ => hsame hcompared⟩, ?_⟩
      rw [hsame hcompared, hcontent]
      exact ⟨nofun, fun hno => absurd hcompared hno⟩
    · refine ⟨hunchanged, ?_, ⟨fun _ => mt hcontent.mp hcompared, fun _ => hdiffers hcompared⟩⟩
      rw [hdiffers hcompared, hcontent]
      exact ⟨nofun, fun hyes => absurd hyes hcompared⟩

/-! ### A repair in dollars that is answered with a delivery in naira -/

def storedRequest : SettlementRequest :=
  ⟨1, "BVAS-1", "device_logistics", 250000, "NGN", "2348000000000",
    "aaaaaaaaaaaaaaaaaaaaaaaaaaaaaaaaaaaaaaaaaaaaaaaaaaaaaaaaaaaaaaaa", "delivery to the ward", "key-1"⟩

def storedRow : SettlementRow := requestedRow plainLib "s-1" "requester" "treasury" "device-BVAS-1" storedRequest

def oneStored : SettlementStore where
  commitments := [storedRow]
  kept _ _ := List.pairwise_singleton _ _
  audit := []
  outbox := []

theorem storedRequest_passes : Passes plainLib plainSettlementEnv storedRequest storedRequest where
  valid := by decide +kernel
  configured := ⟨_, rfl⟩
  ready := rfl
  device := by decide +kernel
  account := ⟨"device-BVAS-1", by decide +kernel⟩

/-- The same request again. -/
theorem answersByContent_again :
    AnswersByContent plainLib plainSettlementEnv .ok oneStored "s-2" "requester" storedRequest storedRequest
      storedRow :=
  (answersByContent_iff (List.mem_singleton.mpr rfl) storedRequest_passes rfl "s-2" "requester").mpr
    fun _ => ⟨rfl, rfl⟩

/-- A request for another kind of commitment in another currency is answered with the settlement. -/
theorem answered_by_other_kind : ¬ ∀ (lib : SettlementLib) (env : SettlementEnv)
    (column : String → Except String String) (s : SettlementStore) (id actor : String)
    (raw req : SettlementRequest) (stored : SettlementRow), stored ∈ s.commitments → Passes lib env raw req →
      column req.idempotencyKey = .ok stored.idempotencyKey →
      AnswersByContent lib env column s id actor raw req stored := by
  intro h
  have hpasses : Passes plainLib plainSettlementEnv
      { storedRequest with commitmentKind := "device_repair", currency := "USD" }
      { storedRequest with commitmentKind := "device_repair", currency := "USD" } :=
    ⟨by decide +kernel, ⟨_, rfl⟩, rfl, by decide +kernel, "device-BVAS-1", by decide +kernel⟩
  have hanswers := h plainLib plainSettlementEnv .ok oneStored "s-2" "requester" _ _ storedRow
    (List.mem_singleton.mpr rfl) hpasses rfl
  have hexisting := hanswers.existing.mp
    ((create_of_stored (List.mem_singleton.mpr rfl) hpasses rfl "s-2" "requester").2.1
      ⟨rfl, rfl, rfl, rfl, rfl, rfl⟩)
  exact absurd hexisting.currency (by decide)

end SettlementStore

end Inec
