import Mathlib.Data.List.Sort
import Inec.Lib.HashChain
import Inec.Lib.Rfc3339
import Inec.Lib.Rows

/-!
# The audit log

The rows `logAuditCtx` of handlers.go appends to `audit_log`. Each one has the hash of the row that was the
tail when it was written, and its own hash is taken over that, the action, the entity, the user, the time as
it is stored and the details.
-/

namespace Inec

open Rfc3339

/-- A row of `audit_log`. The time is stored to the second. -/
structure AuditEntry where
  id : Int
  action : String
  entityType : String
  entityId : String
  userId : Int
  details : String
  blockHash : String
  prevBlockHash : String
  timestamp : CivilTime

/-- The arguments of `logAuditCtx`, the details as `json.Marshal` writes them. -/
structure AuditInput where
  action : String
  entityType : String
  entityId : String
  userId : Int
  details : String
  deriving DecidableEq, Repr

/-- `strings.Repeat("0", 64)`. -/
def genesisHash : String := String.ofList (List.replicate 64 '0')

/-- `blockData`. -/
def blockData (prev : String) (input : AuditInput) (ts : CivilTime) : String :=
  prev ++ "|" ++ input.action ++ "|" ++ input.entityType ++ "|" ++ input.entityId ++ "|" ++
    toString input.userId ++ "|" ++ ts.format ++ "|" ++ input.details

/-- The hash a new row refers to: that of the tail, or zeros in an empty log. -/
def prevOf (tail : Option AuditEntry) : String := (tail.map (·.blockHash)).getD genesisHash

/-- The tail read: `ORDER BY id DESC LIMIT 1`. -/
def auditTail (rows : List AuditEntry) : Option AuditEntry := Rows.maxBy (·.id) rows

section Writing

variable (sha256Hex : String → String)

/-- The row that is inserted behind a tail. -/
def auditEntry (id : Int) (tail : Option AuditEntry) (input : AuditInput) (ts : CivilTime) : AuditEntry where
  id := id
  action := input.action
  entityType := input.entityType
  entityId := input.entityId
  userId := input.userId
  details := input.details
  blockHash := sha256Hex (blockData (prevOf tail) input ts)
  prevBlockHash := prevOf tail
  timestamp := ts

end Writing

/-- What the chain is made of. The position is the row's id, which may skip numbers. -/
def auditView : HashChain.View AuditEntry String AuditInput where
  position := (·.id)
  prior := (·.prevBlockHash)
  body e := ⟨e.action, e.entityType, e.entityId, e.userId, e.details⟩
  hash := (·.blockHash)

/-- The rows by id. -/
def byId (rows : List AuditEntry) : List AuditEntry := rows.insertionSort fun a b => a.id ≤ b.id

/-- One chain: each row refers to the one with the next smaller id, and the first one to none. -/
def LinearLog (rows : List AuditEntry) : Prop := HashChain.Chained auditView genesisHash (byId rows)

instance (rows : List AuditEntry) : Decidable (LinearLog rows) := inferInstanceAs (Decidable (HashChain.Chained ..))

/-- Rows that were appended in the order of their ids. -/
def InOrder (rows : List AuditEntry) : Prop := rows.Pairwise fun a b => a.id < b.id

theorem InOrder.byId_eq {rows : List AuditEntry} (h : InOrder rows) : byId rows = rows :=
  List.Pairwise.insertionSort_eq (h.imp Int.le_of_lt)

/-- The tail of rows in order is the last one. -/
theorem InOrder.auditTail_eq {rows : List AuditEntry} (h : InOrder rows) : auditTail rows = rows.getLast? := by
  induction rows using List.reverseRecOn with
  | nil => rfl
  | append_singleton rest last _ =>
      rw [List.getLast?_concat]
      apply Rows.maxBy_append_singleton
      intro r hr
      exact (List.pairwise_append.mp h).2.2 r hr last (List.mem_singleton_self last)

theorem InOrder.lastHash_eq {rows : List AuditEntry} (h : InOrder rows) :
    HashChain.lastHash auditView genesisHash rows = prevOf (auditTail rows) := by
  rw [h.auditTail_eq]
  rfl

/-- A row behind the tail continues the chain. -/
theorem LinearLog.append {rows : List AuditEntry} (horder : InOrder rows) (h : LinearLog rows) {row : AuditEntry}
    (hid : ∀ r ∈ rows, r.id < row.id) (hprev : row.prevBlockHash = prevOf (auditTail rows)) :
    InOrder (rows ++ [row]) ∧ LinearLog (rows ++ [row]) := by
  have hordered : InOrder (rows ++ [row]) := by
    refine List.pairwise_append.mpr ⟨horder, List.pairwise_singleton _ _, ?_⟩
    intro r hr last hlast
    rw [List.mem_singleton.mp hlast]
    exact hid r hr
  refine ⟨hordered, ?_⟩
  rw [LinearLog, hordered.byId_eq, HashChain.chained_append_singleton, horder.lastHash_eq]
  rw [LinearLog, horder.byId_eq] at h
  exact ⟨h, hprev⟩

end Inec
