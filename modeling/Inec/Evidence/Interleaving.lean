import Inec.Lib.Runs
import Inec.Lib.Transactions
import Inec.Lib.HexText
import Inec.Evidence.Verify

/-!
# Concurrent recorders

Any number of transactions call `recordIntegrityEventTx`, each for any results and any number of
times, and their statements interleave freely. A transaction is a number; what it has done of its
current call is its `Phase`. The row lock on the result is taken before the tail is read and kept to
the end of the transaction, so the tail a recorder builds on is still the tail when its row goes in:
that is `Recording.fresh`, and it keeps every chain linked.

Whether the chain verifies is a second question. The hash takes the artifact and policy ids as given,
but a negative id is stored as NULL and read back as 0, so the verifier rebuilds another preimage.
-/

namespace Inec

open Transactions

variable (sha256Hex : String → String)

/-- How far a transaction is in its current call of `recordIntegrityEventTx`. `aborted` is a
transaction that PostgreSQL only lets roll back. -/
inductive Phase
  | idle
  | called (input : IntegrityEventInput)
  | locked (input : IntegrityEventInput)
  | tailRead (input : IntegrityEventInput) (tail : Option EvidenceEvent)
  | aborted

def Phase.input? : Phase → Option IntegrityEventInput
  | .called input => some input
  | .locked input => some input
  | .tailRead input _ => some input
  | .idle => none
  | .aborted => none

structure Recording where
  store : Store EvidenceEvent Int
  phase : Nat → Phase

def Recording.start : Recording where
  store := ⟨[], [], fun _ => none⟩
  phase _ := .idle

/-- One statement of one transaction. `found` is whether the result row is visible to it, and `env`
answers the signer. -/
inductive TxAction
  | call (tx : Nat) (input : IntegrityEventInput)
  | lock (tx : Nat) (found : Bool)
  | readTail (tx : Nat)
  | insert (tx : Nat) (env : Env)
  | commit (tx : Nat)
  | rollback (tx : Nat)

namespace Recording

variable (w : Recording)

def setPhase (i : Nat) (p : Phase) : Recording := { w with phase := Function.update w.phase i p }

def call (i : Nat) (input : IntegrityEventInput) : Recording :=
  match w.phase i, checkEventInput input with
  | .idle, .ok _ => w.setPhase i (.called input)
  | _, _ => w

/-- `lockResultForIntegrity` and the visibility check behind it. The statement waits while another
transaction holds the row. -/
def lock (i : Nat) (found : Bool) : Recording :=
  match w.phase i with
  | .called input =>
      if found then
        match acquire w.store i input.resultId, checkVisibility input with
        | none, _ => w
        | some store, .ok _ => { store := store, phase := Function.update w.phase i (.locked input) }
        | some store, .error _ => { store := store, phase := Function.update w.phase i .idle }
      else w.setPhase i .idle
  | _ => w

def readTail (i : Nat) : Recording :=
  match w.phase i with
  | .locked input =>
      w.setPhase i (.tailRead input (evidenceTail (visible w.store i) input.resultId))
  | _ => w

/-- A unique index makes the INSERT wait for an uncommitted row of another transaction. -/
def mustWait (i : Nat) (row : EvidenceEvent) : Bool :=
  w.store.pending.any fun p => p.1 != i &&
    (p.2.eventHash == row.eventHash || (p.2.resultId == row.resultId && p.2.sequenceNo == row.sequenceNo))

/-- Signing and the INSERT. Whether the anchor is queued afterwards only matters for what the caller
does next, and the caller's rollback is an action of its own. -/
def insert (i : Nat) (env : Env) : Recording :=
  match w.phase i with
  | .tailRead input tail =>
      match signIntegrityHash env (evidenceRow sha256Hex input tail ⟨"", "", ""⟩).eventHash with
      | .error _ => w.setPhase i .idle
      | .ok signing =>
          let row := evidenceRow sha256Hex input tail signing
          if w.mustWait i row then w
          else
            match insertEvidenceEvent (visible w.store i) row with
            | .error _ => w.setPhase i .aborted
            | .ok _ => { store := append w.store i row, phase := Function.update w.phase i .idle }
  | _ => w

def commit (i : Nat) : Recording :=
  match w.phase i with
  | .idle => { w with store := Transactions.commit w.store i }
  | .aborted => { store := Transactions.rollback w.store i, phase := Function.update w.phase i .idle }
  | _ => w

def rollback (i : Nat) : Recording :=
  { store := Transactions.rollback w.store i, phase := Function.update w.phase i .idle }

def step : TxAction → Recording
  | .call i input => w.call i input
  | .lock i found => w.lock i found
  | .readTail i => w.readTail i
  | .insert i env => w.insert sha256Hex i env
  | .commit i => w.commit i
  | .rollback i => w.rollback i

/-- The committed events of a result, as the verifier reads them. -/
def events (resultId : Int) : List PublicEvent :=
  listResultEvidenceEvents w.store.committed resultId

/-- Everything a step can do. -/
inductive Moves (a : TxAction) : Recording → Prop
  | stay : Moves a w
  | quit (i : Nat) (p : Phase) (hp : p = .idle ∨ p = .aborted) : Moves a (w.setPhase i p)
  | called (i : Nat) (input : IntegrityEventInput) (ha : a = .call i input) :
      Moves a (w.setPhase i (.called input))
  | locked (i : Nat) (input : IntegrityEventInput) (store : Store EvidenceEvent Int) (p : Phase)
      (hphase : w.phase i = .called input) (hstore : acquire w.store i input.resultId = some store)
      (hp : p = .locked input ∨ p = .idle) :
      Moves a { store := store, phase := Function.update w.phase i p }
  | tailRead (i : Nat) (input : IntegrityEventInput) (hphase : w.phase i = .locked input) :
      Moves a (w.setPhase i
        (.tailRead input (evidenceTail (visible w.store i) input.resultId)))
  | appended (i : Nat) (input : IntegrityEventInput) (tail : Option EvidenceEvent) (signing : Signing)
      (hphase : w.phase i = .tailRead input tail) :
      Moves a { store := append w.store i (evidenceRow sha256Hex input tail signing)
                phase := Function.update w.phase i .idle }
  | committed (i : Nat) (hphase : w.phase i = .idle) :
      Moves a { w with store := Transactions.commit w.store i }
  | rolledBack (i : Nat) :
      Moves a { store := Transactions.rollback w.store i, phase := Function.update w.phase i .idle }

variable {sha256Hex} {w}

theorem moves_insert {a : TxAction} (i : Nat) (env : Env) :
    w.Moves sha256Hex a (w.insert sha256Hex i env) := by
  unfold insert
  split
  · rename_i input tail hphase
    split
    · exact .quit i .idle (.inl rfl)
    · rename_i signing _
      dsimp only
      split
      · exact .stay
      · split
        · exact .quit i .aborted (.inr rfl)
        · exact .appended i input tail signing hphase
  · exact .stay

theorem moves_lock {a : TxAction} (i : Nat) (found : Bool) : w.Moves sha256Hex a (w.lock i found) := by
  unfold lock
  split
  · rename_i input hphase
    split
    · split
      · exact .stay
      · rename_i store _ hstore _
        exact .locked i input store _ hphase hstore (.inl rfl)
      · rename_i store _ hstore _
        exact .locked i input store _ hphase hstore (.inr rfl)
    · exact .quit i .idle (.inl rfl)
  · exact .stay

theorem moves_step (a : TxAction) : w.Moves sha256Hex a (w.step sha256Hex a) := by
  cases a with
  | call i input =>
      change w.Moves sha256Hex _ (w.call i input)
      unfold call
      split
      · exact .called i input rfl
      · exact .stay
  | lock i found => exact moves_lock i found
  | readTail i =>
      change w.Moves sha256Hex _ (w.readTail i)
      unfold readTail
      split
      · rename_i input hphase
        exact .tailRead i input hphase
      · exact .stay
  | insert i env => exact moves_insert i env
  | commit i =>
      change w.Moves sha256Hex _ (w.commit i)
      unfold commit
      split
      · rename_i hphase
        exact .committed i hphase
      · exact .rolledBack i
      · exact .stay
  | rollback i => exact .rolledBack i

/-! ### The lock keeps every chain linked -/

/-- The invariant of the recorders: uncommitted rows and read tails belong to the holder of the result
row, a read tail is still the tail, and every chain is linked. -/
structure Serial (w : Recording) : Prop where
  owned : Owned (·.resultId) w.store
  held : ∀ i input, w.phase i = .locked input ∨ (∃ tail, w.phase i = .tailRead input tail) →
    w.store.holder input.resultId = some i
  fresh : ∀ i input tail, w.phase i = .tailRead input tail →
    tail = Rows.maxBy (·.sequenceNo) (chain (·.resultId) w.store input.resultId)
  linked : ∀ r, HashChain.Linked eventView "" 1 ((chain (·.resultId) w.store r).map PublicEvent.ofRow)

theorem serial_start : Serial start where
  owned := by simp [Owned, start]
  held := by simp [start]
  fresh := by simp [start]
  linked := by simp [start, chain, HashChain.Linked]

/-- In a linked chain the row of highest sequence number is the last one. -/
theorem maxBy_of_linked {rows : List EvidenceEvent}
    (h : HashChain.Linked eventView "" 1 (rows.map PublicEvent.ofRow)) :
    Rows.maxBy (·.sequenceNo) rows = rows.getLast? := by
  rcases List.eq_nil_or_concat rows with rfl | ⟨init, last, rfl⟩
  · rfl
  · rw [List.concat_eq_append] at h ⊢
    rw [List.getLast?_concat]
    apply Rows.maxBy_append_singleton
    intro r hr
    have hpairwise := HashChain.pairwise_of_linked h
    rw [List.map_append, List.pairwise_append] at hpairwise
    exact hpairwise.2.2 _ (List.mem_map_of_mem hr) _ (List.mem_map_of_mem (List.mem_singleton_self last))

theorem nullStringArg_getD (s : String) : (nullStringArg s).getD "" = s := by
  unfold nullStringArg
  split <;> simp_all

/-- The row a recorder builds on the tail of a linked chain extends it. -/
theorem linked_append_evidenceRow {rows : List EvidenceEvent} {input : IntegrityEventInput}
    {signing : Signing} (h : HashChain.Linked eventView "" 1 (rows.map PublicEvent.ofRow)) :
    HashChain.Linked eventView "" 1 ((rows ++ [evidenceRow sha256Hex input
      (Rows.maxBy (·.sequenceNo) rows) signing]).map PublicEvent.ofRow) := by
  rw [List.map_append, List.map_singleton, HashChain.linked_append_singleton, maxBy_of_linked h]
  refine ⟨h, ?_, ?_⟩
  · rcases List.eq_nil_or_concat rows with rfl | ⟨init, last, rfl⟩
    · rfl
    · rw [List.concat_eq_append, List.map_append, List.map_singleton,
        HashChain.linked_append_singleton] at h
      have hlast : last.sequenceNo = 1 + ((init.map PublicEvent.ofRow).length : Int) := h.2.1
      rw [List.length_map] at hlast
      rw [List.concat_eq_append, List.getLast?_concat, List.length_map, List.length_append,
        List.length_singleton]
      change last.sequenceNo + 1 = _
      omega
  · change (nullStringArg ((rows.getLast?.map (·.eventHash)).getD "")).getD "" = _
    rw [nullStringArg_getD, HashChain.lastHash, List.getLast?_map, Option.map_map]
    rfl

/-- Only the moved transaction has a new phase. -/
theorem update_phase_cases {p q : Phase} {i j : Nat} (h : Function.update w.phase i p j = q) :
    (j = i ∧ p = q) ∨ (j ≠ i ∧ w.phase j = q) := by
  by_cases hj : j = i
  · subst hj
    rw [Function.update_self] at h
    exact .inl ⟨rfl, h⟩
  · rw [Function.update_of_ne hj] at h
    exact .inr ⟨hj, h⟩

/-- A phase that records nothing about the chain can be set freely. -/
theorem Serial.setPhase (h : Serial w) {i : Nat} {p : Phase}
    (hp : ∀ input, p ≠ .locked input ∧ ∀ tail, p ≠ .tailRead input tail) : Serial (w.setPhase i p) where
  owned := h.owned
  held j input hj := by
    rcases hj with hj | ⟨tail, hj⟩
    · rcases update_phase_cases hj with ⟨-, hj⟩ | ⟨-, hj⟩
      · exact absurd hj (hp input).1
      · exact h.held j input (.inl hj)
    · rcases update_phase_cases hj with ⟨-, hj⟩ | ⟨-, hj⟩
      · exact absurd hj ((hp input).2 tail)
      · exact h.held j input (.inr ⟨tail, hj⟩)
  fresh j input tail hj := by
    rcases update_phase_cases hj with ⟨-, hj⟩ | ⟨-, hj⟩
    · exact absurd hj ((hp input).2 tail)
    · exact h.fresh j input tail hj
  linked := h.linked

theorem Serial.locked (h : Serial w) {i : Nat} {input : IntegrityEventInput}
    {store : Store EvidenceEvent Int} {p : Phase}
    (hstore : acquire w.store i input.resultId = some store) (hp : p = .locked input ∨ p = .idle) :
    Serial { store := store, phase := Function.update w.phase i p } := by
  obtain ⟨hcommitted, hpending, hholder, hkeep⟩ := acquire_eq_some hstore
  have hchain : ∀ r, chain (·.resultId) store r = chain (·.resultId) w.store r :=
    fun r => chain_of_eq hcommitted hpending
  refine ⟨owned_acquire h.owned hstore, ?_, ?_, ?_⟩
  · rintro j input' (hj | ⟨tail, hj⟩)
    · rcases update_phase_cases hj with ⟨hji, hq⟩ | ⟨-, hj⟩
      · rcases hp with rfl | rfl
        · rw [← Phase.locked.inj hq, hji]
          exact hholder
        · exact absurd hq (by simp)
      · exact hkeep _ _ (h.held j input' (.inl hj))
    · rcases update_phase_cases hj with ⟨-, hj⟩ | ⟨-, hj⟩
      · rcases hp with rfl | rfl <;> exact absurd hj (by simp)
      · exact hkeep _ _ (h.held j input' (.inr ⟨tail, hj⟩))
  · intro j input' tail hj
    rw [hchain]
    rcases update_phase_cases hj with ⟨-, hj⟩ | ⟨-, hj⟩
    · rcases hp with rfl | rfl <;> exact absurd hj (by simp)
    · exact h.fresh j input' tail hj
  · intro r
    rw [hchain]
    exact h.linked r

theorem Serial.tailRead (h : Serial w) {i : Nat} {input : IntegrityEventInput}
    (hphase : w.phase i = .locked input) :
    Serial (w.setPhase i (.tailRead input (evidenceTail (visible w.store i) input.resultId))) := by
  have hheld := h.held i input (.inl hphase)
  refine ⟨h.owned, ?_, ?_, h.linked⟩
  · rintro j input' (hj | ⟨tail, hj⟩)
    · rcases update_phase_cases hj with ⟨-, hj⟩ | ⟨-, hj⟩
      · exact absurd hj (by simp)
      · exact h.held j input' (.inl hj)
    · rcases update_phase_cases hj with ⟨hji, hq⟩ | ⟨-, hj⟩
      · rw [← (Phase.tailRead.inj hq).1, hji]
        exact hheld
      · exact h.held j input' (.inr ⟨tail, hj⟩)
  · intro j input' tail hj
    rcases update_phase_cases hj with ⟨-, hj⟩ | ⟨-, hj⟩
    · obtain ⟨rfl, rfl⟩ := Phase.tailRead.inj hj
      -- the holder of the row reads the whole chain
      exact congrArg (Rows.maxBy (·.sequenceNo)) (visible_filter h.owned hheld)
    · exact h.fresh j input' tail hj

theorem Serial.appended (h : Serial w) {i : Nat} {input : IntegrityEventInput}
    {tail : Option EvidenceEvent} {signing : Signing} (hphase : w.phase i = .tailRead input tail) :
    Serial { store := append w.store i (evidenceRow sha256Hex input tail signing)
             phase := Function.update w.phase i .idle } := by
  have hheld := h.held i input (.inr ⟨tail, hphase⟩)
  have htail := h.fresh i input tail hphase
  have hself : chain (·.resultId) (append w.store i (evidenceRow sha256Hex input tail signing))
      input.resultId = chain (·.resultId) w.store input.resultId ++
        [evidenceRow sha256Hex input tail signing] := chain_append_self
  have hne : ∀ r, input.resultId ≠ r →
      chain (·.resultId) (append w.store i (evidenceRow sha256Hex input tail signing)) r =
        chain (·.resultId) w.store r := fun r hr => chain_append_of_ne hr
  -- another transaction that has read a tail holds another result
  have hother : ∀ j input' tail', j ≠ i → w.phase j = .tailRead input' tail' →
      input.resultId ≠ input'.resultId := by
    intro j input' tail' hj hphase' heq
    have hheld' := h.held j input' (.inr ⟨tail', hphase'⟩)
    rw [← heq, hheld] at hheld'
    exact hj (Option.some.inj hheld').symm
  refine ⟨owned_append h.owned hheld, ?_, ?_, ?_⟩
  · rintro j input' (hj | ⟨tail', hj⟩)
    · rcases update_phase_cases hj with ⟨-, hj⟩ | ⟨-, hj⟩
      · exact absurd hj (by simp)
      · exact h.held j input' (.inl hj)
    · rcases update_phase_cases hj with ⟨-, hj⟩ | ⟨-, hj⟩
      · exact absurd hj (by simp)
      · exact h.held j input' (.inr ⟨tail', hj⟩)
  · intro j input' tail' hj
    rcases update_phase_cases hj with ⟨-, hj⟩ | ⟨hji, hj⟩
    · exact absurd hj (by simp)
    · dsimp only
      rw [hne _ (hother j input' tail' hji hj)]
      exact h.fresh j input' tail' hj
  · intro r
    by_cases hr : input.resultId = r
    · subst hr
      dsimp only
      rw [hself, htail]
      exact linked_append_evidenceRow (h.linked input.resultId)
    · dsimp only
      rw [hne r hr]
      exact h.linked r

theorem Serial.committed (h : Serial w) {i : Nat} (hphase : w.phase i = .idle) :
    Serial { w with store := Transactions.commit w.store i } := by
  refine ⟨owned_commit h.owned, ?_, ?_, ?_⟩
  · intro j input hj
    have hne : j ≠ i := by
      rintro rfl
      rw [hphase] at hj
      simp at hj
    exact release_of_ne (h.held j input hj) hne
  · intro j input tail hj
    rw [chain_commit h.owned]
    exact h.fresh j input tail hj
  · intro r
    rw [chain_commit h.owned]
    exact h.linked r

theorem Serial.rolledBack (h : Serial w) {i : Nat} :
    Serial { store := Transactions.rollback w.store i, phase := Function.update w.phase i .idle } := by
  refine ⟨owned_rollback h.owned, ?_, ?_, ?_⟩
  · rintro j input (hj | ⟨tail, hj⟩)
    · rcases update_phase_cases hj with ⟨-, hj⟩ | ⟨hne, hj⟩
      · exact absurd hj (by simp)
      · exact release_of_ne (h.held j input (.inl hj)) hne
    · rcases update_phase_cases hj with ⟨-, hj⟩ | ⟨hne, hj⟩
      · exact absurd hj (by simp)
      · exact release_of_ne (h.held j input (.inr ⟨tail, hj⟩)) hne
  · intro j input tail hj
    rcases update_phase_cases hj with ⟨-, hj⟩ | ⟨hne, hj⟩
    · exact absurd hj (by simp)
    · have hheld := h.held j input (.inr ⟨tail, hj⟩)
      have hholder : w.store.holder input.resultId ≠ some i := by
        rw [hheld]
        exact fun heq => hne (Option.some.inj heq)
      rw [chain_rollback_of_ne h.owned hholder]
      exact h.fresh j input tail hj
  · intro r
    by_cases hholder : w.store.holder r = some i
    · rw [chain_rollback_of_held h.owned hholder]
      have hlinked := h.linked r
      rw [chain, List.map_append, HashChain.linked_append] at hlinked
      exact hlinked.1
    · rw [chain_rollback_of_ne h.owned hholder]
      exact h.linked r

theorem Serial.moves (h : Serial w) {w' : Recording} {a : TxAction} (hmoves : w.Moves sha256Hex a w') :
    Serial w' := by
  cases hmoves with
  | stay => exact h
  | quit i p hp => exact h.setPhase fun input => by rcases hp with rfl | rfl <;> simp
  | called i input => exact h.setPhase fun input => by simp
  | locked i input store p hphase hstore hp => exact h.locked hstore hp
  | tailRead i input hphase => exact h.tailRead hphase
  | appended i input tail signing hphase => exact h.appended hphase
  | committed i hphase => exact h.committed hphase
  | rolledBack i => exact h.rolledBack

/-- The committed events of a result are the committed part of its chain, in the order they were
written. -/
theorem Serial.events_eq (h : Serial w) (r : Int) :
    w.events r = (w.store.committed.filter fun e => e.resultId == r).map PublicEvent.ofRow ∧
      HashChain.Linked eventView "" 1 (w.events r) := by
  have hlinked := h.linked r
  rw [chain, List.map_append, HashChain.linked_append] at hlinked
  have hsorted : (w.store.committed.filter fun e => e.resultId == r).Pairwise
      fun a b => a.sequenceNo ≤ b.sequenceNo :=
    (List.pairwise_map.mp (HashChain.pairwise_of_linked hlinked.1)).imp fun h => Int.le_of_lt h
  have hevents : w.events r =
      (w.store.committed.filter fun e => e.resultId == r).map PublicEvent.ofRow := by
    rw [events, listResultEvidenceEvents, hsorted.insertionSort_eq]
  exact ⟨hevents, hevents ▸ hlinked.1⟩

/-! ### What the verifier rebuilds -/

/-- The sequence numbers are 1 to n and every event names its predecessor, the first one none. -/
structure ChainIntact (events : List PublicEvent) : Prop where
  sequence : ∀ i (hi : i < events.length), events[i].sequenceNo = i + 1
  first : ∀ hi : 0 < events.length, events[0].priorEventHash = ""
  prior : ∀ i (hi : i + 1 < events.length), events[i + 1].priorEventHash = events[i].eventHash

theorem chainIntact_of_linked {events : List PublicEvent}
    (h : HashChain.Linked eventView "" 1 events) : ChainIntact events where
  sequence i hi := by
    have hposition : events[i].sequenceNo = 1 + (i : Int) := HashChain.position_of_linked h i hi
    omega
  first hi := by
    cases events with
    | nil => simp at hi
    | cons e rest => exact h.2.1
  prior i hi := HashChain.prior_succ_of_linked h i hi

/-- The ids an event can be stored with. -/
def IdsStorable (input : IntegrityEventInput) : Prop :=
  0 ≤ input.policyVersionId ∧ 0 ≤ input.artifactId

/-- A call passes ids that can be stored. -/
def CallsStorable (_ : Recording) (a : TxAction) : Prop :=
  ∀ i input, a = .call i input → IdsStorable input

theorem nullIntArg_getD {n : Int} (h : 0 ≤ n) : (nullIntArg n).getD 0 = n := by
  unfold nullIntArg
  split
  · rw [Option.getD_none]
    omega
  · rfl

/-- A row with storable ids carries the digest of the fields the verifier reads back. -/
theorem evidenceRow_sealed {input : IntegrityEventInput} {tail : Option EvidenceEvent}
    {signing : Signing} (h : IdsStorable input) :
    HashChain.Sealed eventView (eventDigest sha256Hex input.resultId)
      (.ofRow (evidenceRow sha256Hex input tail signing)) := by
  have hprior : (nullStringArg ((tail.map (·.eventHash)).getD "")).getD "" =
      (tail.map (·.eventHash)).getD "" := nullStringArg_getD _
  simp only [HashChain.Sealed, eventView, eventDigest, PublicEvent.ofRow, evidenceRow,
    nullIntArg_getD h.1, nullIntArg_getD h.2, hprior]

/-- Every row is sealed, and every call under way will write one that is. -/
structure Sealing (sha256Hex : String → String) (w : Recording) : Prop where
  committed : ∀ e ∈ w.store.committed, HashChain.Sealed eventView (eventDigest sha256Hex e.resultId) (.ofRow e)
  pending : ∀ p ∈ w.store.pending,
    HashChain.Sealed eventView (eventDigest sha256Hex p.2.resultId) (.ofRow p.2)
  inputs : ∀ i input, (w.phase i).input? = some input → IdsStorable input

theorem sealing_start : Sealing sha256Hex start where
  committed := by simp [start]
  pending := by simp [start]
  inputs := by simp [start, Phase.input?]

theorem Sealing.inputs_update (h : Sealing sha256Hex w) {i : Nat} {p : Phase}
    (hp : ∀ input, p.input? = some input → IdsStorable input) :
    ∀ j input, (Function.update w.phase i p j).input? = some input → IdsStorable input := by
  intro j input hj
  by_cases hji : j = i
  · subst hji
    rw [Function.update_self] at hj
    exact hp input hj
  · rw [Function.update_of_ne hji] at hj
    exact h.inputs j input hj

theorem Sealing.moves (h : Sealing sha256Hex w) {w' : Recording} {a : TxAction}
    (ha : CallsStorable w a) (hmoves : w.Moves sha256Hex a w') : Sealing sha256Hex w' := by
  have hidle : ∀ input, Phase.input? .idle = some input → IdsStorable input := by
    simp [Phase.input?]
  have hremain : ∀ i, ∀ p ∈ w.store.pending.filter (fun p => p.1 != i),
      HashChain.Sealed eventView (eventDigest sha256Hex p.2.resultId) (.ofRow p.2) :=
    fun i p hp => h.pending p (List.mem_of_mem_filter hp)
  cases hmoves with
  | stay => exact h
  | quit i p hp =>
      refine ⟨h.committed, h.pending, h.inputs_update ?_⟩
      rcases hp with rfl | rfl <;> simp [Phase.input?]
  | called i input hcall =>
      refine ⟨h.committed, h.pending, h.inputs_update ?_⟩
      intro input' hinput
      rw [← Option.some.inj hinput]
      exact ha i input hcall
  | locked i input store p hphase hstore hp =>
      obtain ⟨hcommitted, hpending, -, -⟩ := acquire_eq_some hstore
      refine ⟨hcommitted ▸ h.committed, hpending ▸ h.pending, h.inputs_update ?_⟩
      intro input' hinput
      rcases hp with rfl | rfl
      · rw [← Option.some.inj hinput]
        exact h.inputs i input (by rw [hphase]; rfl)
      · exact hidle input' hinput
  | tailRead i input hphase =>
      refine ⟨h.committed, h.pending, h.inputs_update ?_⟩
      intro input' hinput
      rw [← Option.some.inj hinput]
      exact h.inputs i input (by rw [hphase]; rfl)
  | appended i input tail signing hphase =>
      refine ⟨h.committed, ?_, h.inputs_update hidle⟩
      intro p hp
      rcases List.mem_append.mp hp with hp | hp
      · exact h.pending p hp
      · rw [List.mem_singleton.mp hp]
        exact evidenceRow_sealed (h.inputs i input (by rw [hphase]; rfl))
  | committed i hphase =>
      refine ⟨?_, hremain i, h.inputs⟩
      intro e he
      rcases List.mem_append.mp he with he | he
      · exact h.committed e he
      · obtain ⟨p, hp, rfl⟩ := List.mem_map.mp he
        exact h.pending p (List.mem_of_mem_filter hp)
  | rolledBack i => exact ⟨h.committed, hremain i, h.inputs_update hidle⟩

/-- A serial, sealed state verifies. -/
theorem chainValid_of_sealing (hserial : Serial w) (hsealing : Sealing sha256Hex w) (env : Env)
    (r : Int) : (verifyEvidenceChain sha256Hex env r (w.events r)).chainValid = true := by
  obtain ⟨hevents, hlinked⟩ := hserial.events_eq r
  rw [verifyEvidenceChain_chainValid]
  refine ⟨hlinked, ?_⟩
  intro e he
  rw [hevents] at he
  obtain ⟨row, hrow, rfl⟩ := List.mem_map.mp he
  rw [List.mem_filter, beq_iff_eq] at hrow
  exact hrow.2 ▸ hsealing.committed row hrow.1

/-- Whatever the interleaving and whatever the ids, the committed events of a result are numbered from
1 and name their predecessors. -/
theorem chainIntact_of_interleaving (actions : List TxAction) :
    ∀ w ∈ Runs.visited (step sha256Hex) start actions, ∀ r, ChainIntact (w.events r) := by
  intro w hw r
  have hstep : ∀ (w : Recording) (a : TxAction), Serial w → Serial (w.step sha256Hex a) :=
    fun w a h => h.moves (moves_step a)
  have hserial := Runs.forall_visited_of_step hstep serial_start actions w hw
  exact chainIntact_of_linked (hserial.events_eq r).2

/-- In every interleaving whose calls pass storable ids, the committed events of every result are
numbered from 1, name their predecessors, and verify. -/
theorem chainValid_of_interleaving {actions : List TxAction}
    (hcalls : Runs.AllSteps (step sha256Hex) CallsStorable start actions) :
    ∀ w ∈ Runs.visited (step sha256Hex) start actions, ∀ r env,
      ChainIntact (w.events r) ∧
        (verifyEvidenceChain sha256Hex env r (w.events r)).chainValid = true := by
  intro w hw r env
  have hstep : ∀ (w : Recording) (a : TxAction), Serial w ∧ Sealing sha256Hex w →
      CallsStorable w a → Serial (w.step sha256Hex a) ∧ Sealing sha256Hex (w.step sha256Hex a) :=
    fun w a h ha => ⟨h.1.moves (moves_step a), h.2.moves ha (moves_step a)⟩
  obtain ⟨hserial, hsealing⟩ :=
    Runs.forall_visited hstep ⟨serial_start, sealing_start⟩ hcalls w hw
  exact ⟨chainIntact_of_interleaving actions w hw r, chainValid_of_sealing hserial hsealing env r⟩

/-- An event of the first result, with an artifact id as a request supplies it. -/
def caseEvent (artifactId : Int) : IntegrityEventInput where
  resultId := 1
  eventType := "RECONCILIATION_CASE_OPENED"
  policyVersionId := 0
  artifactId := artifactId
  visibility := "restricted"
  publicPayload := .obj []
  privatePayload := .obj []
  createdBy := 4

/-- One transaction that records one event and commits. -/
def recordOnce (i : Nat) (input : IntegrityEventInput) : List TxAction :=
  [.call i input, .lock i true, .readTail i, .insert i (.plain 4 "ro" .returningOfficer 0), .commit i]

/-- Two transactions, the second waiting for the row lock of the first. -/
def waitingForLock : List TxAction :=
  [.call 1 (caseEvent 7), .lock 1 true] ++ [.call 2 (caseEvent 0), .lock 2 true] ++
    [.readTail 1, .insert 1 (.plain 4 "ro" .returningOfficer 0), .commit 1] ++ recordOnce 2 (caseEvent 0)

theorem chainValid_of_interleaving_two :
    Runs.AllSteps (step HexText.hexText) CallsStorable start waitingForLock ∧
      ∀ w ∈ Runs.visited (step HexText.hexText) start waitingForLock, ∀ r env, ChainIntact (w.events r) ∧
        (verifyEvidenceChain HexText.hexText env r (w.events r)).chainValid = true := by
  have hcalls : Runs.AllSteps (step HexText.hexText) CallsStorable start waitingForLock := by
    simp [waitingForLock, CallsStorable, IdsStorable, caseEvent, recordOnce]
  exact ⟨hcalls, chainValid_of_interleaving hcalls⟩

/-- Artifact id -1 goes into the hash and comes back as 0. -/
theorem caseEvent_not_sealed (hinj : Function.Injective sha256Hex) {signing : Signing} :
    ¬ HashChain.Sealed eventView (eventDigest sha256Hex 1)
      (.ofRow (evidenceRow sha256Hex (caseEvent (-1)) none signing)) := by
  intro h
  have hpreimage := hinj h
  have hartifact : (toString (-1 : Int)) = toString (0 : Int) :=
    (String.append_right_inj _).mp hpreimage
  exact absurd hartifact (by decide)

theorem not_chainValid_of_negative_artifact :
    ¬ ∀ (sha256Hex : String → String) (actions : List TxAction),
      Function.Injective sha256Hex → ∀ w ∈ Runs.visited (step sha256Hex) start actions, ∀ r env,
        ChainIntact (w.events r) ∧
          (verifyEvidenceChain sha256Hex env r (w.events r)).chainValid = true := by
  intro h
  have hend := (h HexText.hexText (recordOnce 1 (caseEvent (-1))) HexText.hexText_injective _
    (Runs.final_mem_visited _ _) 1 (.plain 4 "ro" .returningOfficer 0)).2
  have hevents : (Runs.final (step HexText.hexText) start (recordOnce 1 (caseEvent (-1)))).events 1 =
      [.ofRow (evidenceRow HexText.hexText (caseEvent (-1)) none ⟨"", "", "not_required"⟩)] := rfl
  rw [hevents, verifyEvidenceChain_chainValid] at hend
  exact caseEvent_not_sealed HexText.hexText_injective (hend.2 _ (List.mem_singleton_self _))

end Recording

end Inec
