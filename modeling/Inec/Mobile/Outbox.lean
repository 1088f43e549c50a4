import Mathlib.Data.List.Sort
import Mathlib.Data.String.Basic
import Inec.Lib.Raising
import Inec.Lib.Rows
import Inec.Lib.Runs

/-!
# The outbox of the mobile app

`syncPendingResults` of offline.ts with the decisions of outbox.ts: a drain sends the results of each polling unit
as a batch where a device is registered, and one by one where none is or the batch failed. A statement on the
local database can throw, and the app can be killed before it; in either case the rows stay as they are by then.

A batch that throws while its outcomes are being written down is sent again one by one, also the rows whose
outcome is written down already. A parking is two statements, and a handler that throws ends the drain. These are
the ways in which a result is kept badly; none is lost, and none is taken for received that is not.

The columns that only go into the payload (the counts and the coordinates) are left out.
-/

namespace Inec.MobileOutbox

/-! ### outbox.ts -/

/-- An entry of `items`. The index is that of an entry that has an integer one. -/
structure SyncItemOutcome where
  index : Option Int
  status : String
  error : Option String
  deriving DecidableEq, Repr

inductive OutboxActionType
  | markSynced | markDuplicate | markFailed | markConflict
  deriving DecidableEq, Repr

structure OutboxAction where
  index : Nat
  action : OutboxActionType
  error : Option String
  deriving DecidableEq, Repr

/-- The index, if it is one of the batch. -/
def SyncItemOutcome.place (item : SyncItemOutcome) (batchSize : Nat) : Option Nat :=
  item.index.bind fun i => if 0 ≤ i ∧ i < batchSize then some i.toNat else none

def SyncItemOutcome.toAction (item : SyncItemOutcome) (index : Nat) : OutboxAction :=
  if item.status = "queued" then ⟨index, .markSynced, none⟩
  else if item.status = "duplicate" then ⟨index, .markDuplicate, none⟩
  else if item.status = "conflict" then ⟨index, .markConflict, item.error⟩
  else ⟨index, .markFailed, some (item.error.getD "rejected")⟩

/-- The loop, with the indices it has seen. -/
def mapOutcomes (batchSize : Nat) : List Nat → List SyncItemOutcome → List OutboxAction
  | _, [] => []
  | seen, item :: items =>
      match item.place batchSize with
      | none => mapOutcomes batchSize seen items
      | some index =>
          if seen.contains index then mapOutcomes batchSize seen items
          else item.toAction index :: mapOutcomes batchSize (index :: seen) items

def mapItemOutcomes (items : Option (List SyncItemOutcome)) (batchSize : Nat) : List OutboxAction :=
  mapOutcomes batchSize [] (items.getD [])

structure RetryState where
  attempts : Int
  exhausted : Bool
  deriving DecidableEq, Repr

def nextRetryState (currentAttempts : Option Int) (maxAttempts : Int) : RetryState :=
  let attempts := max 0 (currentAttempts.getD 0) + 1
  ⟨attempts, maxAttempts ≤ attempts⟩

def shouldAttempt (attempts : Option Int) (maxAttempts : Int) : Bool := attempts.getD 0 < maxAttempts

/-- `MAX_ATTEMPTS`. -/
def maxAttempts : Int := 10

/-! ### The local database -/

/-- A row of `pending_results`. `synced` is 0 for a row that is waiting, 1 for one that is done and 2 for one that
is parked. -/
structure PendingResult where
  id : Int
  electionId : Int
  pollingUnitCode : String
  partyScores : String
  idempotencyKey : String
  createdAt : String
  attempts : Option Int
  lastError : Option String
  synced : Int
  deriving DecidableEq, Repr

/-- What the officer entered: the row without the columns a drain writes. -/
def PendingResult.captured (r : PendingResult) : PendingResult :=
  { r with attempts := none, lastError := none, synced := 0 }

/-- A row of `conflict_log`. -/
structure ConflictLog where
  tableName : String
  localId : Int
  localTimestamp : String
  resolution : String
  details : String
  deriving DecidableEq, Repr

structure ResultSyncSummary where
  synced : Nat
  duplicates : Nat
  conflicts : Nat
  failed : Nat
  deriving DecidableEq, Repr

/-- The database of the phone, with what the drains have come to know. `acked` are the rows the server has
answered queued, duplicate or success for, and `parked` those that have been parked. The last four are about the
last drain: the rows it had to try, those it tried, its summary, and whether the app was killed in it. -/
structure World where
  pending : List PendingResult
  conflictLog : List ConflictLog
  distinct : (pending.map (·.id)).Nodup
  acked : List Int
  parked : List Int
  eligible : List Int
  attempted : List Int
  summary : ResultSyncSummary
  killed : Bool

namespace World

variable (w : World)

/-- `UPDATE pending_results SET ... WHERE id = ?`. -/
def update (id : Int) (f : PendingResult → PendingResult) (hf : ∀ r, (f r).id = r.id) : World :=
  { w with
    pending := Rows.update (·.id) id f w.pending
    distinct := by
      rw [Rows.map_update fun r _ _ => hf r]
      exact w.distinct }

def markSynced (id : Int) (note : Option String) : World :=
  w.update id (fun r => { r with synced := 1, lastError := note.or r.lastError }) fun _ => rfl

def park (id : Int) (message : String) : World :=
  { w.update id (fun r => { r with synced := 2, lastError := some message }) fun _ => rfl with
    parked := id :: w.parked }

def logConflict (row : PendingResult) (error : Option String) : World :=
  { w with
    conflictLog := w.conflictLog ++ [⟨"pending_results", row.id, row.createdAt, "pending_review",
      "PU " ++ row.pollingUnitCode ++ ", election " ++ toString row.electionId ++
        if error.getD "" = "" then "" else " — " ++ error.getD ""⟩] }

/-- The number of attempts is counted from the copy of the row the drain has read. -/
def recordFailure (row : PendingResult) (message : String) : World :=
  let retry := nextRetryState row.attempts maxAttempts
  w.update row.id (fun r =>
    { r with
      attempts := some retry.attempts
      lastError := some (if retry.exhausted then "EXHAUSTED: " ++ message else message) }) fun _ => rfl

def acknowledge (ids : List Int) : World := { w with acked := ids ++ w.acked }

def attempt (ids : List Int) : World := { w with attempted := ids ++ w.attempted }

def count (f : ResultSyncSummary → ResultSyncSummary) : World := { w with summary := f w.summary }

/-- `getPendingResults`, and the rows of it that are still to be tried. SQLite promises no order of rows captured at
one time. -/
def eligibleRows : List PendingResult :=
  let rows := w.pending.filter fun r => r.synced == 0
  (rows.insertionSort fun a b => a.createdAt ≤ b.createdAt).filter fun r => shouldAttempt r.attempts maxAttempts

theorem ids_markSynced (id : Int) (note : Option String) :
    (w.markSynced id note).pending.map (·.id) = w.pending.map (·.id) := Rows.map_update fun _ _ _ => rfl

theorem ids_park (id : Int) (message : String) : (w.park id message).pending.map (·.id) = w.pending.map (·.id) :=
  Rows.map_update fun _ _ _ => rfl

theorem ids_recordFailure (row : PendingResult) (message : String) :
    (w.recordFailure row message).pending.map (·.id) = w.pending.map (·.id) := Rows.map_update fun _ _ _ => rfl

end World

/-! ### A drain -/

/-- What comes of something the drain waits for. -/
inductive Outcome (α : Type) where
  | done (answer : α)
  | thrown (message : String)
  | killed
  deriving DecidableEq, Repr

def Outcome.throws {α : Type} : Outcome α → Bool
  | .thrown _ => true
  | _ => false

def Outcome.answer? {α : Type} : Outcome α → Option α
  | .done a => some a
  | _ => none

def Outcome.answers {α : Type} (outcome : Outcome α) : Bool := outcome.answer?.isSome

/-- Where in a drain a statement stands. -/
inductive Path
  | batch | refused | item
  deriving DecidableEq, Repr

inductive Statement
  | mark | park | log | failure
  deriving DecidableEq, Repr

/-- The surroundings of one drain. A drain comes to each statement for a row once at most, so that what becomes of
it is a matter of the statement and the row. -/
structure SyncEnv where
  isConnected : Bool
  hasToken : Bool
  /-- Opening the database and reading the rows. -/
  opens : Outcome Unit
  /-- Whether `JSON.parse` takes the text. -/
  parses : String → Bool
  /-- `resolveSyncDeviceId`. -/
  deviceId : Int → String → Option String
  /-- The `items` of the answer to a batch; `none` stands for anything that is not an array. -/
  offlineSync : Int → String → Outcome (Option (List SyncItemOutcome))
  /-- The `duplicate` of the answer for one row. -/
  submit : Int → Outcome Bool
  write : Path → Statement → Int → Outcome Unit

/-- Why a drain ends early. Only what was thrown can be caught. -/
inductive Halt
  | thrown (message : String)
  | killed
  deriving DecidableEq, Repr

abbrev Sync : Type → Type := ExceptT Halt (StateM World)

def await {α : Type} : Outcome α → Sync α
  | .done a => pure a
  | .thrown message => throw (.thrown message)
  | .killed => throw .killed

/-- A statement on the database. -/
def runAsync (outcome : Outcome Unit) (write : World → World) : Sync Unit := do
  await outcome
  modify write

/-- `try` and `catch`. -/
def catching {α : Type} (body : Sync α) (handler : String → Sync α) : Sync α :=
  tryCatch body fun
    | .thrown message => handler message
    | .killed => throw .killed

/-- `JSON.parse`. -/
def parseJson (ok : Bool) : Sync Unit := if ok then pure () else throw (.thrown "SyntaxError: JSON Parse error")

/-- `startsWith`. -/
def startsWith (s start : String) : Bool := start.toList.isPrefixOf s.toList

section Drain

variable (env : SyncEnv)

def parkConflict (path : Path) (row : PendingResult) (error : Option String) : Sync Unit := do
  runAsync (env.write path .park row.id) (·.park row.id ("conflict: " ++ error.getD "server has a newer version"))
  runAsync (env.write path .log row.id) (·.logConflict row error)

def recordFailure (path : Path) (row : PendingResult) (message : String) : Sync Unit :=
  runAsync (env.write path .failure row.id) (·.recordFailure row message)

/-- The body of the loop over the actions. -/
def applyAction (row : PendingResult) (action : OutboxAction) : Sync Unit :=
  match action.action with
  | .markSynced => do
      runAsync (env.write .batch .mark row.id) (·.markSynced row.id none)
      modify (·.count fun s => { s with synced := s.synced + 1 })
  | .markDuplicate => do
      runAsync (env.write .batch .mark row.id) (·.markSynced row.id (some "duplicate (already on server)"))
      modify (·.count fun s => { s with duplicates := s.duplicates + 1 })
  | .markConflict => do
      parkConflict env .batch row action.error
      modify (·.count fun s => { s with conflicts := s.conflicts + 1 })
  | .markFailed => do
      modify (·.count fun s => { s with failed := s.failed + 1 })
      recordFailure env .batch row (action.error.getD "rejected")

/-- Reading a property of a row that is not there throws. -/
def applyActions (group : List PendingResult) (actions : List OutboxAction) : Sync Unit :=
  actions.forM fun action =>
    match group[action.index]? with
    | some row => applyAction env row action
    | none => throw (.thrown "TypeError: Cannot read property 'id' of undefined")

/-- The rows an answer to a batch reports as received. -/
def receivedRows (group : List PendingResult) (items : List SyncItemOutcome) : List Int :=
  items.filterMap fun item =>
    if item.status = "queued" ∨ item.status = "duplicate" then
      (item.place group.length).bind fun index => group[index]?.map (·.id)
    else none

def refused (message : String) : Bool := startsWith message "Error: 401" || startsWith message "Error: 403"

/-- The batch of a polling unit. The answer is whether the group is dealt with. -/
def submitBatch (electionId : Int) (pollingUnitCode : String) (group : List PendingResult) : Sync Bool :=
  catching
    (do
      parseJson (group.all fun row => env.parses row.partyScores)
      let items ← await (env.offlineSync electionId pollingUnitCode)
      modify (·.acknowledge (receivedRows group (items.getD [])))
      applyActions env group (mapItemOutcomes items group.length)
      return true)
    (fun message => do
      if refused message then
        modify (·.count fun s => { s with failed := s.failed + group.length })
        group.forM fun row => recordFailure env .refused row message
        return true
      else return false)

/-- The body of the loop of the fallback. -/
def submitItem (row : PendingResult) : Sync Unit := do
  modify (·.attempt [row.id])
  catching
    (do
      parseJson (env.parses row.partyScores)
      let duplicate ← await (env.submit row.id)
      modify (·.acknowledge [row.id])
      if duplicate then
        runAsync (env.write .item .mark row.id) (·.markSynced row.id (some "duplicate (already on server)"))
        modify (·.count fun s => { s with duplicates := s.duplicates + 1 })
      else
        runAsync (env.write .item .mark row.id) (·.markSynced row.id none)
        modify (·.count fun s => { s with synced := s.synced + 1 }))
    (fun message => do
      if startsWith message "Error: 409" then
        parkConflict env .item row (some message)
        modify (·.count fun s => { s with conflicts := s.conflicts + 1 })
      else
        modify (·.count fun s => { s with failed := s.failed + 1 })
        recordFailure env .item row message)

/-- There is a batch where there is a device. -/
def tryBatch (key : Int × String) (group : List PendingResult) : Sync Bool :=
  if (env.deviceId key.1 key.2).getD "" = "" then return false
  else do
    modify (·.attempt (group.map (·.id)))
    submitBatch env key.1 key.2 group

/-- The body of the loop over the groups. -/
def syncGroup (key : Int × String) (group : List PendingResult) : Sync Unit := do
  let dealt ← tryBatch env key group
  if !dealt then group.forM (submitItem env)

def PendingResult.key (r : PendingResult) : Int × String := (r.electionId, r.pollingUnitCode)

/-- The keys of the groups, in the order the map has them. -/
def groupKeys (rows : List PendingResult) : List (Int × String) := (rows.map PendingResult.key).eraseDups

def groupOf (rows : List PendingResult) (key : Int × String) : List PendingResult :=
  rows.filter fun r => r.key == key

def syncPendingResults : Sync Unit := do
  if env.isConnected && env.hasToken then
    await env.opens
    let w ← get
    let rows := w.eligibleRows
    modify fun w => { w with eligible := rows.map (·.id) }
    (groupKeys rows).forM fun key => syncGroup env key (groupOf rows key)

end Drain

def World.fresh (w : World) : World :=
  { w with eligible := [], attempted := [], summary := ⟨0, 0, 0, 0⟩, killed := false }

/-- A drain from its start to its end, or to the death of the app. -/
def step (w : World) (env : SyncEnv) : World :=
  let (answer, after) := Raising.exec (syncPendingResults env) w.fresh
  { after with killed := match answer with | .error .killed => true | _ => false }

/-- The outbox before the first drain. Rows that are done or parked by then are taken as acknowledged and parked. -/
def opened (pending : List PendingResult) (conflictLog : List ConflictLog)
    (distinct : (pending.map (·.id)).Nodup) : World where
  pending := pending
  conflictLog := conflictLog
  distinct := distinct
  acked := (pending.filter fun r => r.synced == 1).map (·.id)
  parked := (pending.filter fun r => r.synced == 2).map (·.id)
  eligible := []
  attempted := []
  summary := ⟨0, 0, 0, 0⟩
  killed := false

/-! ### The property -/

/-- The conflict log has an entry for the row. -/
def Logged (w : World) (id : Int) : Prop :=
  ∃ entry ∈ w.conflictLog, entry.tableName = "pending_results" ∧ entry.localId = id

instance (w : World) (id : Int) : Decidable (Logged w id) := by
  unfold Logged
  infer_instance

/-- What the outbox owes its rows. -/
structure Kept (start w : World) : Prop where
  /-- No row is gone, and none is another result than it was. -/
  present : w.pending.map PendingResult.captured = start.pending.map PendingResult.captured
  acknowledged : ∀ r ∈ w.pending, r.synced = 1 → r.id ∈ w.acked
  logged : ∀ r ∈ w.pending, r.synced = 2 → Logged w r.id ∨ r.id ∈ start.parked
  stays : ∀ id ∈ w.parked, ∃ r ∈ w.pending, r.id = id ∧ r.synced = 2
  /-- A drain that tries a row tries all it has to, unless the app is killed. -/
  attempted : w.killed = true ∨ w.attempted = [] ∨ ∀ id ∈ w.eligible, id ∈ w.attempted

/-- The statement an action begins with. -/
def OutboxAction.statement (action : OutboxAction) : Statement :=
  match action.action with
  | .markSynced => .mark
  | .markDuplicate => .mark
  | .markConflict => .park
  | .markFailed => .failure

/-- After a conflict of the batch either every outcome is written down, or the fallback has no success for the
row. -/
def SettlesConflicts (env : SyncEnv) (key : Int × String) (group : List PendingResult) : Prop :=
  ∀ items ∈ (env.offlineSync key.1 key.2).answer?,
    (mapItemOutcomes items group.length).Pairwise fun conflict later =>
      conflict.action = .markConflict →
        (∀ row ∈ group[later.index]?, (env.write .batch later.statement row.id).throws = false) ∨
          ∀ row ∈ group[conflict.index]?, (env.submit row.id).answers = false

instance (env : SyncEnv) (key : Int × String) (group : List PendingResult) :
    Decidable (SettlesConflicts env key group) := by
  unfold SettlesConflicts
  infer_instance

/-- A conflict is logged if it is parked; a handler does not throw; and a batch with a conflict settles. -/
structure Careful (w : World) (env : SyncEnv) : Prop where
  logs : ∀ row ∈ w.eligibleRows, ∀ path ∈ [Path.batch, Path.item],
    (env.write path .park row.id).answers = true → (env.write path .log row.id).answers = true
  handles : ∀ row ∈ w.eligibleRows, (env.write .refused .failure row.id).throws = false ∧
    (env.write .item .failure row.id).throws = false ∧ (env.write .item .park row.id).throws = false
  settles : ∀ key ∈ groupKeys w.eligibleRows, SettlesConflicts env key (groupOf w.eligibleRows key)

instance (w : World) (env : SyncEnv) : Decidable (Careful w env) :=
  decidable_of_iff
    ((∀ row ∈ w.eligibleRows, ∀ path ∈ [Path.batch, Path.item],
      (env.write path .park row.id).answers = true → (env.write path .log row.id).answers = true) ∧
      (∀ row ∈ w.eligibleRows, (env.write .refused .failure row.id).throws = false ∧
        (env.write .item .failure row.id).throws = false ∧ (env.write .item .park row.id).throws = false) ∧
      ∀ key ∈ groupKeys w.eligibleRows, SettlesConflicts env key (groupOf w.eligibleRows key))
    ⟨fun ⟨hlogs, hhandles, hsettles⟩ => ⟨hlogs, hhandles, hsettles⟩, fun h => ⟨h.logs, h.handles, h.settles⟩⟩

/-! ### The mapping of outcomes -/

theorem place_eq_some {item : SyncItemOutcome} {n index : Nat} (h : item.place n = some index) : index < n := by
  rw [SyncItemOutcome.place, Option.bind_eq_some_iff] at h
  obtain ⟨i, -, hi⟩ := h
  split at hi
  · cases hi
    omega
  · cases hi

/-- Every action is about an index of the batch, has been read off an outcome for it, and is the only one. -/
theorem mapOutcomes_spec (n : Nat) (seen : List Nat) (items : List SyncItemOutcome) :
    (∀ action ∈ mapOutcomes n seen items, action.index ∉ seen ∧
      ∃ item ∈ items, item.place n = some action.index ∧ action = item.toAction action.index) ∧
      ((mapOutcomes n seen items).map (·.index)).Nodup := by
  have hindex : ∀ (item : SyncItemOutcome) (index : Nat), (item.toAction index).index = index := by
    intro item index
    unfold SyncItemOutcome.toAction
    split_ifs <;> rfl
  fun_induction mapOutcomes n seen items with
  | case1 seen => exact ⟨fun _ h => absurd h List.not_mem_nil, List.nodup_nil⟩
  | case2 seen item items hplace ih =>
      refine ⟨?_, ih.2⟩
      intro action haction
      obtain ⟨hseen, other, hother, hread⟩ := ih.1 action haction
      exact ⟨hseen, other, List.mem_cons_of_mem _ hother, hread⟩
  | case3 seen item items index hplace hseen ih =>
      refine ⟨?_, ih.2⟩
      intro action haction
      obtain ⟨hseen, other, hother, hread⟩ := ih.1 action haction
      exact ⟨hseen, other, List.mem_cons_of_mem _ hother, hread⟩
  | case4 seen item items index hplace hseen ih =>
      rw [List.contains_iff_mem] at hseen
      constructor
      · intro action haction
        cases haction with
        | head =>
            rw [hindex]
            exact ⟨hseen, item, List.mem_cons_self, hplace, rfl⟩
        | tail _ haction =>
            obtain ⟨hother, other, hmem, hread⟩ := ih.1 action haction
            exact ⟨fun h => hother (List.mem_cons_of_mem _ h), other, List.mem_cons_of_mem _ hmem, hread⟩
      · rw [List.map_cons, List.nodup_cons, hindex]
        refine ⟨?_, ih.2⟩
        intro hmem
        obtain ⟨action, haction, hsame⟩ := List.mem_map.mp hmem
        exact (ih.1 action haction).1 (hsame ▸ List.mem_cons_self)

/-- A row is only marked on an outcome that reports it as received. -/
theorem mem_receivedRows {group : List PendingResult} {items : Option (List SyncItemOutcome)}
    {action : OutboxAction} {row : PendingResult} (haction : action ∈ mapItemOutcomes items group.length)
    (hmark : action.statement = .mark) (hrow : group[action.index]? = some row) :
    row.id ∈ receivedRows group (items.getD []) := by
  obtain ⟨-, item, hitem, hplace, hread⟩ := (mapOutcomes_spec _ _ _).1 action haction
  refine List.mem_filterMap.mpr ⟨item, hitem, ?_⟩
  have hstatus : item.status = "queued" ∨ item.status = "duplicate" := by
    by_contra hother
    rw [not_or] at hother
    rw [hread, SyncItemOutcome.toAction, if_neg hother.1, if_neg hother.2] at hmark
    split at hmark <;> cases hmark
  rw [if_pos hstatus, hplace, Option.bind_some, hrow]
  rfl

/-! ### What holds of every drain -/

/-- The rows are those of the start, those that are done have been received, and so have the ones named. -/
structure Honest (start : World) (received : List Int) (w : World) : Prop where
  present : w.pending.map PendingResult.captured = start.pending.map PendingResult.captured
  acknowledged : ∀ r ∈ w.pending, r.synced = 1 → r.id ∈ w.acked
  received : ∀ id ∈ received, id ∈ w.acked

section Honest

variable {start : World} {received : List Int} {w : World} {env : SyncEnv}

/-- A write may set a row to done if it has been received. -/
theorem Honest.update (h : Honest start received w) {id : Int} {f : PendingResult → PendingResult}
    {hf : ∀ r, (f r).id = r.id} (hcaptured : ∀ r, (f r).captured = r.captured)
    (hsynced : ∀ r, (f r).synced = 1 → r.synced = 1 ∨ id ∈ w.acked) : Honest start received (w.update id f hf) where
  present := by
    rw [← h.present, World.update, Rows.map_update fun r _ _ => hcaptured r]
  acknowledged := by
    intro r hr hdone
    obtain ⟨r₀, hr₀, hid, rfl⟩ | ⟨hr, -⟩ := Rows.mem_update.mp hr
    · rw [hf]
      rcases hsynced r₀ hdone with hbefore | hacked
      · exact h.acknowledged r₀ hr₀ hbefore
      · exact hid ▸ hacked
    · exact h.acknowledged r hr hdone
  received := h.received

theorem keeps_await {α : Type} {inv : World → Prop} (outcome : Outcome α) : Raising.Keeps inv (await outcome) := by
  cases outcome with
  | done a => exact Raising.keeps_pure a
  | thrown message => exact Raising.keeps_throw _
  | killed => exact Raising.keeps_throw _

theorem keeps_runAsync {inv : World → Prop} {outcome : Outcome Unit} {write : World → World}
    (h : ∀ w, inv w → inv (write w)) : Raising.Keeps inv (runAsync outcome write) :=
  Raising.keeps_bind (keeps_await outcome) fun _ => Raising.keeps_modify h

theorem keeps_catching {α : Type} {inv : World → Prop} {body : Sync α} {handler : String → Sync α}
    (hbody : Raising.Keeps inv body) (hhandler : ∀ message, Raising.Keeps inv (handler message)) :
    Raising.Keeps inv (catching body handler) := by
  refine Raising.keeps_tryCatch hbody fun halt => ?_
  cases halt with
  | thrown message => exact hhandler message
  | killed => exact Raising.keeps_throw _

theorem keeps_parseJson {inv : World → Prop} (ok : Bool) : Raising.Keeps inv (parseJson ok) := by
  unfold parseJson
  split
  · exact Raising.keeps_pure _
  · exact Raising.keeps_throw _

theorem keeps_markSynced {outcome : Outcome Unit} {id : Int} {note : Option String} (hid : id ∈ received) :
    Raising.Keeps (Honest start received) (runAsync outcome (·.markSynced id note)) := by
  refine keeps_runAsync fun w h => h.update (fun _ => rfl) fun r _ => ?_
  exact Or.inr (h.received id hid)

theorem keeps_recordFailure {path : Path} {row : PendingResult} {message : String} :
    Raising.Keeps (Honest start received) (recordFailure env path row message) := by
  refine keeps_runAsync fun w h => ?_
  unfold World.recordFailure
  exact h.update (fun _ => rfl) fun _ hdone => Or.inl hdone

theorem keeps_parkConflict {path : Path} {row : PendingResult} {error : Option String} :
    Raising.Keeps (Honest start received) (parkConflict env path row error) := by
  refine Raising.keeps_bind (keeps_runAsync fun w h => ?_) fun _ => keeps_runAsync fun w h => ?_
  · have hparked : ∀ message, Honest start received (w.park row.id message) := by
      intro message
      have h := @Honest.update start received w h row.id
        (fun r => { r with synced := 2, lastError := some message }) (fun _ => rfl) (fun _ => rfl)
        fun r hdone => absurd (show (2 : Int) = 1 from hdone) (by decide)
      exact ⟨h.present, h.acknowledged, h.received⟩
    exact hparked _
  · exact ⟨h.present, h.acknowledged, h.received⟩

/-- Counting and noting what is tried is not a write. -/
theorem keeps_count {f : ResultSyncSummary → ResultSyncSummary} :
    Raising.Keeps (Honest start received) (modify (·.count f) : Sync Unit) :=
  Raising.keeps_modify fun _ h => ⟨h.present, h.acknowledged, h.received⟩

theorem keeps_attempt {ids : List Int} :
    Raising.Keeps (Honest start received) (modify (·.attempt ids) : Sync Unit) :=
  Raising.keeps_modify fun _ h => ⟨h.present, h.acknowledged, h.received⟩

theorem keeps_applyAction {row : PendingResult} {action : OutboxAction}
    (hmark : action.statement = .mark → row.id ∈ received) :
    Raising.Keeps (Honest start received) (applyAction env row action) := by
  unfold applyAction OutboxAction.statement at *
  cases haction : action.action with
  | markSynced => exact Raising.keeps_bind (keeps_markSynced (hmark (by rw [haction]))) fun _ => keeps_count
  | markDuplicate => exact Raising.keeps_bind (keeps_markSynced (hmark (by rw [haction]))) fun _ => keeps_count
  | markConflict => exact Raising.keeps_bind keeps_parkConflict fun _ => keeps_count
  | markFailed => exact Raising.keeps_bind keeps_count fun _ => keeps_recordFailure

theorem keeps_applyActions {group : List PendingResult} {items : Option (List SyncItemOutcome)}
    (hreceived : ∀ id ∈ receivedRows group (items.getD []), id ∈ received) :
    Raising.Keeps (Honest start received) (applyActions env group (mapItemOutcomes items group.length)) := by
  refine Raising.keeps_forM fun action haction => ?_
  cases hrow : group[action.index]? with
  | none => exact Raising.keeps_throw _
  | some row => exact keeps_applyAction fun hmark => hreceived _ (mem_receivedRows haction hmark hrow)

/-- What the server reports is noted before anything is done about it. -/
theorem ensures_acknowledge {ids : List Int} :
    Raising.Ensures (Honest start []) (modify (·.acknowledge ids) : Sync Unit) (fun _ => Honest start ids)
      fun _ => Honest start [] := by
  refine Raising.ensures_modify _ fun w h => ⟨h.present, ?_, ?_⟩
  · intro r hr hdone
    exact List.mem_append_right _ (h.acknowledged r hr hdone)
  · intro id hid
    exact List.mem_append_left _ hid

theorem Honest.forget (h : Honest start received w) : Honest start [] w :=
  ⟨h.present, h.acknowledged, fun _ hid => absurd hid List.not_mem_nil⟩

/-- A program that relies on what was reported, after the report. -/
theorem keeps_acknowledge_bind {α : Type} {ids : List Int} {x : Sync α} (hx : Raising.Keeps (Honest start ids) x) :
    Raising.Keeps (Honest start []) (modify (·.acknowledge ids) >>= fun _ => x) :=
  Raising.ensures_bind _ ensures_acknowledge fun _ =>
    hx.imp (fun _ h => h) (fun _ _ h => h.forget) fun _ _ h => h.forget

theorem keeps_submitBatch {electionId : Int} {code : String} {group : List PendingResult} :
    Raising.Keeps (Honest start []) (submitBatch env electionId code group) := by
  refine keeps_catching ?_ fun message => ?_
  · refine Raising.keeps_bind (keeps_parseJson _) fun _ => Raising.keeps_bind (keeps_await _) fun items => ?_
    refine keeps_acknowledge_bind ?_
    exact Raising.keeps_bind (keeps_applyActions fun _ h => h) fun _ => Raising.keeps_pure _
  · split
    · refine Raising.keeps_bind keeps_count fun _ => Raising.keeps_bind ?_ fun _ => Raising.keeps_pure _
      exact Raising.keeps_forM fun row _ => keeps_recordFailure
    · exact Raising.keeps_pure _

theorem keeps_submitItem {row : PendingResult} : Raising.Keeps (Honest start []) (submitItem env row) := by
  refine Raising.keeps_bind keeps_attempt fun _ => keeps_catching ?_ fun message => ?_
  · refine Raising.keeps_bind (keeps_parseJson _) fun _ => Raising.keeps_bind (keeps_await _) fun duplicate => ?_
    refine keeps_acknowledge_bind ?_
    split
    · exact Raising.keeps_bind (keeps_markSynced List.mem_cons_self) fun _ => keeps_count
    · exact Raising.keeps_bind (keeps_markSynced List.mem_cons_self) fun _ => keeps_count
  · split
    · exact Raising.keeps_bind keeps_parkConflict fun _ => keeps_count
    · exact Raising.keeps_bind keeps_count fun _ => keeps_recordFailure

theorem keeps_syncGroup {key : Int × String} {group : List PendingResult} :
    Raising.Keeps (Honest start []) (syncGroup env key group) := by
  refine Raising.keeps_bind ?_ fun dealt => ?_
  · unfold tryBatch
    split
    · exact Raising.keeps_pure _
    · exact Raising.keeps_bind keeps_attempt fun _ => keeps_submitBatch
  · split
    · exact Raising.keeps_forM fun row _ => keeps_submitItem
    · exact Raising.keeps_pure _

theorem keeps_syncPendingResults : Raising.Keeps (Honest start []) (syncPendingResults env) := by
  unfold syncPendingResults
  split
  · refine Raising.keeps_bind (keeps_await _) fun _ => Raising.ensures_get_bind fun w h => ?_
    refine Raising.Ensures.imp ?_ (fun s hs => (hs ▸ h : Honest start [] s)) (fun _ _ h => h) fun _ _ h => h
    refine Raising.keeps_bind (Raising.keeps_modify fun _ h => ⟨h.present, h.acknowledged, h.received⟩) fun _ => ?_
    exact Raising.keeps_forM fun key _ => keeps_syncGroup
  · exact Raising.keeps_pure _

theorem honest_step (env : SyncEnv) (h : Honest start [] w) : Honest start [] (step w env) := by
  have hfresh : Honest start [] w.fresh := ⟨h.present, h.acknowledged, h.received⟩
  have h := (@keeps_syncPendingResults start env).exec hfresh
  exact ⟨h.present, h.acknowledged, h.received⟩

end Honest

end Inec.MobileOutbox
