import Inec.Audit.Log
import Inec.Lib.Runs

/-!
# The audit log of several servers

`logAuditCtx` runs in a transaction of its own, and a mutex lets one call of a server through at a time. Servers
share the database. The tail is read by `SELECT ... ORDER BY id DESC LIMIT 1 FOR UPDATE`: at READ COMMITTED the
statement chooses its row first, waits for the lock on it, and then returns the row it chose. Nobody changes that
row, so the lock does not notice that another row has been appended in the meantime; and an empty log has no row
to lock. The id of the new row comes from a sequence when it is inserted.

A call that commits while the row it chose is still the tail appends to the chain. For one server the mutex sees
to that.
-/

namespace Inec

open Rfc3339

variable (sha256Hex : String → String)

/-- How far a server is in its current call. -/
inductive AppendPhase
  | idle
  | called (input : AuditInput)
  | chosen (input : AuditInput) (tail : AuditEntry)
  | tailRead (input : AuditInput) (tail : Option AuditEntry)
  | inserted (tail : Option AuditEntry) (row : AuditEntry)

structure AuditDb where
  committed : List AuditEntry
  /-- `audit_log_id_seq`, which a rollback does not turn back. -/
  nextId : Int
  /-- The server whose transaction has locked the row. -/
  holder : Int → Option Nat
  phase : Nat → AppendPhase

def AuditDb.empty : AuditDb := ⟨[], 1, fun _ => none, fun _ => .idle⟩

/-- One statement of one server. `abort` is any failure: the transaction is rolled back. -/
inductive AuditAct
  | call (server : Nat) (input : AuditInput)
  | select (server : Nat)
  | lock (server : Nat)
  | insert (server : Nat) (ts : CivilTime)
  | commit (server : Nat)
  | abort (server : Nat)

def AuditAct.server : AuditAct → Nat
  | .call server _ => server
  | .select server => server
  | .lock server => server
  | .insert server _ => server
  | .commit server => server
  | .abort server => server

namespace AuditDb

variable (s : AuditDb)

def setPhase (server : Nat) (p : AppendPhase) : AuditDb := { s with phase := Function.update s.phase server p }

/-- The end of a transaction lets its locks go. -/
def ended (server : Nat) (rows : List AuditEntry) : AuditDb where
  committed := rows
  nextId := s.nextId
  holder id := if s.holder id = some server then none else s.holder id
  phase := Function.update s.phase server .idle

def step (s : AuditDb) : AuditAct → AuditDb
  | .call server input =>
      match s.phase server with
      | .idle => s.setPhase server (.called input)
      | _ => s
  | .select server =>
      match s.phase server with
      | .called input =>
          match auditTail s.committed with
          | some tail => s.setPhase server (.chosen input tail)
          | none => s.setPhase server (.tailRead input none)
      | _ => s
  | .lock server =>
      match s.phase server with
      | .chosen input tail =>
          match s.holder tail.id with
          | some _ => s
          | none =>
              { s with
                holder := Function.update s.holder tail.id (some server)
                phase := Function.update s.phase server (.tailRead input (some tail)) }
      | _ => s
  | .insert server ts =>
      match s.phase server with
      | .tailRead input tail =>
          { s with
            nextId := s.nextId + 1
            phase := Function.update s.phase server (.inserted tail (auditEntry sha256Hex s.nextId tail input ts)) }
      | _ => s
  | .commit server =>
      match s.phase server with
      | .inserted _ row => s.ended server (s.committed ++ [row])
      | _ => s
  | .abort server => s.ended server s.committed

end AuditDb

/-- What commits was written behind the row that is still the tail. -/
def TailStands (s : AuditDb) (act : AuditAct) : Prop :=
  ∀ server tail row, act = .commit server → s.phase server = .inserted tail row → auditTail s.committed = tail

variable {sha256Hex}

/-! ### What each server has in hand -/

/-- The rows a server has in hand, below the next id of the sequence. -/
def AppendPhase.Fits (next : Int) : AppendPhase → Prop
  | .chosen _ tail => tail.id < next
  | .tailRead _ tail => ∀ t ∈ tail, t.id < next
  | .inserted tail row => row.id < next ∧ row.prevBlockHash = prevOf tail ∧ ∀ t ∈ tail, t.id < row.id
  | _ => True

theorem AppendPhase.Fits.succ {next : Int} {p : AppendPhase} (h : p.Fits next) : p.Fits (next + 1) := by
  cases p with
  | idle => trivial
  | called input => trivial
  | chosen input tail => exact Int.lt_add_one_of_le (Int.le_of_lt h)
  | tailRead input tail => exact fun t ht => Int.lt_add_one_of_le (Int.le_of_lt (h t ht))
  | inserted tail row => exact ⟨Int.lt_add_one_of_le (Int.le_of_lt h.1), h.2⟩

structure AuditDb.Sound (s : AuditDb) : Prop where
  order : InOrder s.committed
  linear : LinearLog s.committed
  below : ∀ r ∈ s.committed, r.id < s.nextId
  phases : ∀ server, (s.phase server).Fits s.nextId

section Sound

variable {s : AuditDb} {server : Nat}

theorem fits_update (h : ∀ server, (s.phase server).Fits s.nextId) {p : AppendPhase} {next : Int} (hp : p.Fits next)
    (hmono : ∀ {p : AppendPhase}, p.Fits s.nextId → p.Fits next) :
    ∀ other, (Function.update s.phase server p other).Fits next := by
  intro other
  by_cases hother : other = server
  · rw [hother, Function.update_self]
    exact hp
  · rw [Function.update_of_ne hother]
    exact hmono (h other)

theorem AuditDb.Sound.setPhase (h : s.Sound) {p : AppendPhase} (hp : p.Fits s.nextId) :
    (s.setPhase server p).Sound :=
  ⟨h.order, h.linear, h.below, fits_update h.phases hp fun hfits => hfits⟩

/-- A call that ends without a row. -/
theorem AuditDb.Sound.aborted (h : s.Sound) : (s.ended server s.committed).Sound :=
  ⟨h.order, h.linear, h.below, fits_update h.phases trivial fun hfits => hfits⟩

/-- A row that was written behind the tail goes to the end of the chain. -/
theorem AuditDb.Sound.committed (h : s.Sound) {row : AuditEntry}
    (hphase : s.phase server = .inserted (auditTail s.committed) row) :
    (s.ended server (s.committed ++ [row])).Sound := by
  obtain ⟨hnext, hprev, hbehind⟩ : (AppendPhase.inserted (auditTail s.committed) row).Fits s.nextId :=
    hphase ▸ h.phases server
  have hid : ∀ r ∈ s.committed, r.id < row.id := by
    intro r hr
    obtain ⟨tail, htail, hle⟩ := Rows.le_maxBy (·.id) hr
    exact Int.lt_of_le_of_lt hle (hbehind tail htail)
  obtain ⟨horder, hlinear⟩ := h.linear.append h.order hid hprev
  refine ⟨horder, hlinear, ?_, fits_update h.phases trivial fun hfits => hfits⟩
  intro r hr
  rcases List.mem_append.mp hr with hr | hr
  · exact h.below r hr
  · rw [List.mem_singleton.mp hr]
    exact hnext

end Sound

theorem auditStep_sound (s : AuditDb) (act : AuditAct) (h : s.Sound) (hcond : TailStands s act) :
    (s.step sha256Hex act).Sound := by
  cases act with
  | call server input =>
      simp only [AuditDb.step]
      split
      · exact h.setPhase trivial
      · exact h
  | select server =>
      simp only [AuditDb.step]
      split
      · split
        · rename_i tail htail
          exact h.setPhase (h.below tail (Rows.mem_of_maxBy htail))
        · exact h.setPhase fun t ht => (nomatch ht)
      · exact h
  | lock server =>
      simp only [AuditDb.step]
      split
      · rename_i input tail hphase
        split
        · exact h
        · have htail : (AppendPhase.chosen input tail).Fits s.nextId := hphase ▸ h.phases server
          refine ⟨h.order, h.linear, h.below, fits_update h.phases ?_ fun hfits => hfits⟩
          intro t ht
          rw [← Option.some.inj ht]
          exact htail
      · exact h
  | insert server ts =>
      simp only [AuditDb.step]
      split
      · rename_i input tail hphase
        have htail : (AppendPhase.tailRead input tail).Fits s.nextId := hphase ▸ h.phases server
        refine ⟨h.order, h.linear, ?_, fits_update h.phases ?_ AppendPhase.Fits.succ⟩
        · intro r hr
          exact Int.lt_add_one_of_le (Int.le_of_lt (h.below r hr))
        · exact ⟨Int.lt_succ s.nextId, rfl, htail⟩
      · exact h
  | commit server =>
      simp only [AuditDb.step]
      split
      · rename_i tail row hphase
        have hstands := hcond server tail row rfl hphase
        exact h.committed (hstands ▸ hphase)
      · exact h
  | abort server => exact h.aborted

theorem AuditDb.empty_sound : AuditDb.empty.Sound :=
  ⟨List.Pairwise.nil, trivial, fun _ hr => (nomatch hr), fun _ => trivial⟩

/-- In every interleaving of any number of servers in which each call commits while the row it chose is still
the tail, the committed rows are one chain all the time. -/
theorem linearLog_of_tailStands {acts : List AuditAct}
    (h : Runs.AllSteps (AuditDb.step sha256Hex) TailStands .empty acts) :
    ∀ s ∈ Runs.visited (AuditDb.step sha256Hex) .empty acts, LinearLog s.committed := by
  intro s hs
  exact (Runs.forall_visited auditStep_sound AuditDb.empty_sound h s hs).linear

/-! ### One server -/

/-- The tail a server has in hand. -/
def AppendPhase.tail? : AppendPhase → Option (Option AuditEntry)
  | .chosen _ tail => some (some tail)
  | .tailRead _ tail => some tail
  | .inserted tail _ => some tail
  | _ => none

/-- No other server is in a call, and what this one has in hand is the tail. -/
structure AuditDb.Alone (server : Nat) (s : AuditDb) : Prop where
  others : ∀ other, other ≠ server → s.phase other = .idle
  tail : ∀ tail, (s.phase server).tail? = some tail → auditTail s.committed = tail

section Alone

variable {s : AuditDb} {server : Nat}

theorem AuditDb.Alone.update (h : s.Alone server) {p : AppendPhase} {rows : List AuditEntry} {next : Int}
    {holder : Int → Option Nat} (hp : ∀ tail, p.tail? = some tail → auditTail rows = tail) :
    AuditDb.Alone server ⟨rows, next, holder, Function.update s.phase server p⟩ := by
  refine ⟨?_, ?_⟩
  · intro other hother
    exact (Function.update_of_ne hother ..).trans (h.others other hother)
  · intro tail htail
    dsimp only at htail
    rw [Function.update_self] at htail
    exact hp tail htail

theorem AuditDb.Alone.step (act : AuditAct) (hact : act.server = server) (h : s.Alone server) :
    (s.step sha256Hex act).Alone server := by
  subst hact
  cases act with
  | call server input =>
      simp only [AuditDb.step]
      split
      · exact h.update fun _ hne => (nomatch hne)
      · exact h
  | select server =>
      simp only [AuditDb.step]
      split
      · split
        · rename_i tail htail
          exact h.update fun _ heq => htail.trans (Option.some.inj heq)
        · rename_i htail
          exact h.update fun _ heq => htail.trans (Option.some.inj heq)
      · exact h
  | lock server =>
      simp only [AuditDb.step]
      split
      · rename_i input tail hphase
        have htail := h.tail (some tail)
        rw [AuditAct.server, hphase] at htail
        split
        · exact h
        · exact h.update fun _ heq => (htail rfl).trans (Option.some.inj heq)
      · exact h
  | insert server ts =>
      simp only [AuditDb.step]
      split
      · rename_i input tail hphase
        have htail := h.tail tail
        rw [AuditAct.server, hphase] at htail
        exact h.update fun _ heq => (htail rfl).trans (Option.some.inj heq)
      · exact h
  | commit server =>
      simp only [AuditDb.step]
      split
      · exact h.update fun _ hne => (nomatch hne)
      · exact h
  | abort server => exact h.update fun _ hne => (nomatch hne)

theorem AuditDb.Alone.tailStands (act : AuditAct) (hact : act.server = server) (h : s.Alone server) :
    TailStands s act := by
  intro committer tail row hcommit hphase
  rw [hcommit] at hact
  apply h.tail tail
  rw [← hact, AuditAct.server, hphase]
  rfl

end Alone

/-- The calls of one server keep one chain: its mutex lets no other call come in between. -/
theorem linearLog_of_one_server (server : Nat) {acts : List AuditAct} (hacts : ∀ act ∈ acts, act.server = server) :
    ∀ s ∈ Runs.visited (AuditDb.step sha256Hex) .empty acts, LinearLog s.committed := by
  apply linearLog_of_tailStands
  have halone : AuditDb.empty.Alone server := ⟨fun _ _ => rfl, fun _ hne => (nomatch hne)⟩
  exact @Runs.allSteps_of_inv_of_mem AuditDb AuditAct _ _ (AuditDb.Alone server) _
    (fun _ act hact h => h.step act hact) (fun _ act hact h => h.tailStands act hact) _ halone _ hacts

/-! ### Two servers -/

section Fork

def electionDay : CivilTime :=
  ⟨2027, 2, 20, 12, 0, 0, 0, by decide, by decide, by decide, by decide, by decide, by decide⟩

def submissionOf (entityId : String) : AuditInput := ⟨"RESULT_SUBMITTED", "result", entityId, 7, "null"⟩

/-- A call of one server, from beginning to end. -/
def wholeCall (server : Nat) (input : AuditInput) : List AuditAct :=
  [.call server input, .select server, .lock server, .insert server electionDay, .commit server]

/-- Two servers read the tail before either has appended; then one appends, and the other. -/
def bothChoose : List AuditAct :=
  [.call 0 (submissionOf "1"), .call 1 (submissionOf "2"), .select 0, .select 1, .lock 0, .lock 1,
    .insert 0 electionDay, .commit 0, .lock 1, .insert 1 electionDay, .commit 1]

theorem linearLog_of_calls_in_turn :
    (Runs.final (AuditDb.step id) .empty (wholeCall 0 (submissionOf "1") ++
      wholeCall 1 (submissionOf "2"))).committed.map (·.id) =
        [1, 2] ∧
      ∀ s ∈ Runs.visited (AuditDb.step id) .empty (wholeCall 0 (submissionOf "1") ++
        wholeCall 1 (submissionOf "2")), LinearLog s.committed := by
  refine ⟨by decide +kernel, linearLog_of_tailStands ?_⟩
  refine ⟨?_, ?_, ?_, ?_, ?_, ?_, ?_, ?_, ?_, ?_, trivial⟩
  case refine_5 =>
    intro server tail row hcommit hphase
    obtain rfl := AuditAct.commit.inj hcommit
    obtain ⟨rfl, -⟩ := AppendPhase.inserted.inj hphase
    rfl
  case refine_10 =>
    intro server tail row hcommit hphase
    obtain rfl := AuditAct.commit.inj hcommit
    obtain ⟨rfl, -⟩ := AppendPhase.inserted.inj hphase
    rfl
  all_goals
    intro _ _ _ hcommit
    cases hcommit

/-- The log forks, from an empty one and from one with a row. -/
theorem audit_log_forks :
    ¬LinearLog (Runs.final (AuditDb.step id) .empty bothChoose).committed ∧
      ¬LinearLog (Runs.final (AuditDb.step id) .empty
        (wholeCall 0 (submissionOf "1") ++ bothChoose)).committed := by
  constructor
  · decide +kernel
  · decide +kernel

end Fork

end Inec
