import Inec.Lib.Runs

/-!
# The circuit breaker

`internal/circuit/breaker.go`. A call through the breaker is admitted or refused at once; an admitted call runs
for as long as it likes and is recorded when it returns, whatever has become of the breaker meanwhile.
`HalfOpen` is never stored: an open breaker counts as half-open once the cooldown since the last failure is
over.

The counter of the probes goes back only when the breaker changes its state. A failed probe that does not reach
the failure threshold leaves it where it is, and the probe it counted is gone.

Instants and durations are in nanoseconds. An instant is counted from the zero time, so that a breaker without a
failure has `lastFailure = 0`.
-/

namespace Inec.Circuit

inductive State
  | closed
  | opened
  | halfOpen
  deriving DecidableEq, Repr

def State.string : State → String
  | .closed => "closed"
  | .opened => "open"
  | .halfOpen => "half-open"

structure Config where
  name : String
  maxFailures : Int
  cooldownDuration : Int
  halfOpenMax : Int
  deriving DecidableEq, Repr

def nanosPerSecond : Nat := 1000000000

def defaultConfig (name : String) : Config := ⟨name, 5, 30 * nanosPerSecond, 1⟩

structure Breaker where
  cfg : Config
  state : State
  failures : Nat
  successes : Nat
  lastFailure : Nat
  halfOpenUsed : Nat
  /-- What `OnStateChange` has been told. -/
  changes : List (State × State)
  deriving DecidableEq, Repr

/-- `New`. -/
def new (cfg : Config) : Breaker where
  cfg :=
    { cfg with
      maxFailures := if cfg.maxFailures ≤ 0 then 5 else cfg.maxFailures
      cooldownDuration := if cfg.cooldownDuration ≤ 0 then 30 * nanosPerSecond else cfg.cooldownDuration
      halfOpenMax := if cfg.halfOpenMax ≤ 0 then 1 else cfg.halfOpenMax }
  state := .closed
  failures := 0
  successes := 0
  lastFailure := 0
  halfOpenUsed := 0
  changes := []

def errOpen : String := "circuit breaker is open"

/-- A duration of whole seconds as `Duration.String` writes it. -/
def durationString (seconds : Nat) : String :=
  let h := seconds / 3600
  let m := seconds / 60 % 60
  let s := toString (seconds % 60) ++ "s"
  if 0 < h then toString h ++ "h" ++ toString m ++ "m" ++ s
  else if 0 < m then toString m ++ "m" ++ s
  else s

namespace Breaker

variable (b : Breaker)

/-- The cooldown since the last failure is over. -/
def Cooled (now : Nat) : Prop := b.cfg.cooldownDuration ≤ (now : Int) - b.lastFailure

instance (now : Nat) : Decidable (b.Cooled now) := inferInstanceAs (Decidable (_ ≤ _))

def currentState (now : Nat) : State := if b.state = .opened ∧ b.Cooled now then .halfOpen else b.state

def allow (now : Nat) : Except String Unit × Breaker :=
  match b.currentState now with
  | .closed => (.ok (), b)
  | .halfOpen =>
      if (b.halfOpenUsed : Int) < b.cfg.halfOpenMax then (.ok (), { b with halfOpenUsed := b.halfOpenUsed + 1 })
      else (.error (errOpen ++ ": " ++ b.cfg.name ++ " (half-open probe limit reached)"), b)
  | .opened =>
      let remaining := (b.cfg.cooldownDuration - ((now : Int) - b.lastFailure)).toNat
      (.error (errOpen ++ ": " ++ b.cfg.name ++ " (cooldown " ++ durationString (remaining / nanosPerSecond) ++
        " remaining)"), b)

def transition (next : State) : Breaker :=
  { b with
    state := next
    halfOpenUsed := 0
    changes := b.changes ++ [(b.state, next)] }

def failed (now : Nat) : Breaker :=
  { b with
    failures := b.failures + 1
    successes := 0
    lastFailure := now }

def succeeded : Breaker :=
  { b with
    successes := b.successes + 1
    failures := 0 }

/-- The clock is read twice: at `since` for the state before, and for a failure again at `now`. -/
def record (err : Bool) (since now : Nat) : Breaker :=
  let prev := b.currentState since
  if err then
    if b.cfg.maxFailures ≤ (b.failed now).failures ∧ prev ≠ .opened then (b.failed now).transition .opened
    else b.failed now
  else if prev = .halfOpen then b.succeeded.transition .closed
  else b.succeeded

end Breaker

/-- A call of `Do` that was admitted and has not returned: whether the breaker was half-open then, and how often
it had changed its state. -/
structure Call where
  id : Nat
  probe : Bool
  period : Nat
  deriving DecidableEq, Repr

structure Service where
  breaker : Breaker
  clock : Nat
  calls : List Call
  nextId : Nat
  deriving Repr

/-- `fn` of the call returns, and `pause` passes between the two looks at the clock. -/
inductive Action
  | wait (elapsed : Nat)
  | call
  | finish (id : Nat) (err : Bool) (pause : Nat)
  deriving Repr

namespace Service

variable (s : Service)

def start (cfg : Config) (clock : Nat) : Service := ⟨new cfg, clock, [], 0⟩

/-- The first half of `Do`. -/
def call : Service :=
  match s.breaker.allow s.clock with
  | (.ok _, b) =>
      { s with
        breaker := b
        calls := s.calls ++ [⟨s.nextId, decide (b.currentState s.clock = .halfOpen), b.changes.length⟩]
        nextId := s.nextId + 1 }
  | (.error _, b) => { s with breaker := b }

/-- The second half of `Do`. -/
def finish (id : Nat) (err : Bool) (pause : Nat) : Service :=
  if s.calls.any (fun c => c.id == id) then
    { s with
      breaker := s.breaker.record err s.clock (s.clock + pause)
      clock := s.clock + pause
      calls := s.calls.filter fun c => c.id != id }
  else s

def step : Action → Service
  | .wait elapsed => { s with clock := s.clock + elapsed }
  | .call => s.call
  | .finish id err pause => s.finish id err pause

/-- The probes that are running. -/
def probes : List Call := s.calls.filter (·.probe)

/-- Those admitted since the breaker last changed its state. -/
def periodProbes : List Call := s.probes.filter fun c => c.period == s.breaker.changes.length

/-- What a caller may rely on: a breaker that has cooled down and has nothing running lets the next call
through, one that is open and has not cooled down lets none through, and a half-open one has at most
`HalfOpenMax` probes running. -/
structure Reliable : Prop where
  admits : s.calls = [] → s.breaker.Cooled s.clock → (s.breaker.allow s.clock).1 = .ok ()
  refuses : s.breaker.state = .opened → ¬ s.breaker.Cooled s.clock → (s.breaker.allow s.clock).1 ≠ .ok ()
  bounded : s.breaker.currentState s.clock = .halfOpen → (s.probes.length : Int) ≤ s.breaker.cfg.halfOpenMax

end Service

namespace Breaker

variable {b : Breaker}

@[simp] theorem transition_cfg (b : Breaker) (next : State) : (b.transition next).cfg = b.cfg := rfl

@[simp] theorem transition_halfOpenUsed (b : Breaker) (next : State) : (b.transition next).halfOpenUsed = 0 := rfl

@[simp] theorem transition_changes_length (b : Breaker) (next : State) :
    (b.transition next).changes.length = b.changes.length + 1 := by
  simp [transition]

theorem currentState_eq_halfOpen (hstate : b.state ≠ .halfOpen) {now : Nat} :
    b.currentState now = .halfOpen ↔ b.state = .opened ∧ b.Cooled now := by
  unfold currentState
  split
  · rename_i h
    exact ⟨fun _ => h, fun _ => rfl⟩
  · rename_i h
    exact ⟨fun heq => absurd heq hstate, fun hopen => absurd hopen h⟩

theorem currentState_eq_opened {now : Nat} :
    b.currentState now = .opened ↔ b.state = .opened ∧ ¬ b.Cooled now := by
  unfold currentState
  split
  · rename_i h
    constructor
    · intro heq
      cases heq
    · intro hopen
      exact absurd h.2 hopen.2
  · rename_i h
    constructor
    · intro heq
      exact ⟨heq, fun hcooled => h ⟨heq, hcooled⟩⟩
    · intro hopen
      exact hopen.1

theorem currentState_eq_closed {now : Nat} : b.currentState now = .closed ↔ b.state = .closed := by
  unfold currentState
  split
  · rename_i h
    rw [h.1]
    simp
  · exact Iff.rfl

theorem Cooled.mono {now later : Nat} (h : b.Cooled now) (hle : now ≤ later) : b.Cooled later := by
  unfold Cooled at h ⊢
  omega

/-- What `allow` can do: let a call through a closed breaker, count a probe, or refuse and change nothing. -/
theorem allow_cases (b : Breaker) (now : Nat) :
    (b.currentState now = .closed ∧ b.allow now = (.ok (), b)) ∨
    (b.currentState now = .halfOpen ∧ (b.halfOpenUsed : Int) < b.cfg.halfOpenMax ∧
      b.allow now = (.ok (), { b with halfOpenUsed := b.halfOpenUsed + 1 })) ∨
    (∃ refusal, b.allow now = (.error refusal, b)) := by
  unfold allow
  cases hstate : b.currentState now with
  | closed => exact .inl ⟨rfl, rfl⟩
  | opened => exact .inr (.inr ⟨_, rfl⟩)
  | halfOpen =>
      by_cases hused : (b.halfOpenUsed : Int) < b.cfg.halfOpenMax
      · rw [if_pos hused]
        exact .inr (.inl ⟨rfl, hused, rfl⟩)
      · rw [if_neg hused]
        exact .inr (.inr ⟨_, rfl⟩)

/-- What `record` can do: change the state and clear the probes, or note a failure or a success and leave both
as they are. The state is left as it is by every failure of an open breaker and by one that the threshold does
not see. -/
theorem record_cases (b : Breaker) (err : Bool) (since now : Nat) :
    (b.currentState since ≠ .opened ∧ ∃ (b' : Breaker) (next : State), next ≠ .halfOpen ∧
      b'.cfg = b.cfg ∧ b'.changes = b.changes ∧ b.record err since now = b'.transition next) ∨
    (err = true ∧ (b.currentState since = .opened ∨ (b.failures : Int) + 1 < b.cfg.maxFailures) ∧
      b.record err since now = b.failed now) ∨
    (err = false ∧ b.currentState since ≠ .halfOpen ∧
      b.record err since now = b.succeeded) := by
  cases err with
  | true =>
      by_cases hopen : b.cfg.maxFailures ≤ (b.failed now).failures ∧ b.currentState since ≠ .opened
      · exact .inl ⟨hopen.2, b.failed now, .opened, by decide, rfl, rfl, if_pos hopen⟩
      · refine .inr (.inl ⟨rfl, ?_, if_neg hopen⟩)
        by_cases hstate : b.currentState since = .opened
        · exact .inl hstate
        · have hfew : ¬ b.cfg.maxFailures ≤ (b.failures + 1 : Nat) := fun h => hopen ⟨h, hstate⟩
          right
          omega
  | false =>
      by_cases hstate : b.currentState since = .halfOpen
      · refine .inl ⟨?_, b.succeeded, .closed, by decide, rfl, rfl, if_pos hstate⟩
        rw [hstate]
        decide
      · exact .inr (.inr ⟨rfl, hstate, if_neg hstate⟩)

end Breaker

namespace Service

/-! ### Every run -/

/-- What every state of every run has. The counter has seen every probe admitted since the last change of state,
so the probes of that period are never more. -/
structure Sound (cfg : Config) (s : Service) : Prop where
  cfg_eq : s.breaker.cfg = cfg
  stored : s.breaker.state ≠ .halfOpen
  closed : s.breaker.state = .closed → s.breaker.halfOpenUsed = 0
  periods : ∀ c ∈ s.calls, c.period ≤ s.breaker.changes.length
  counted : s.periodProbes.length ≤ s.breaker.halfOpenUsed
  limited : (s.breaker.halfOpenUsed : Int) ≤ cfg.halfOpenMax

variable {cfg : Config} {s : Service}

theorem periodProbes_eq_nil (h : ∀ c ∈ s.calls, c.period < s.breaker.changes.length) : s.periodProbes = [] := by
  rw [periodProbes, List.filter_eq_nil_iff]
  intro c hc heq
  have hlt := h c (List.mem_of_mem_filter hc)
  rw [beq_iff_eq] at heq
  omega

/-- A call that `allow` has let through. -/
theorem call_cases (s : Service) :
    (s.breaker.state = .closed ∧ s.call =
      { s with
        calls := s.calls ++ [⟨s.nextId, false, s.breaker.changes.length⟩]
        nextId := s.nextId + 1 }) ∨
    (s.breaker.currentState s.clock = .halfOpen ∧
      (s.breaker.halfOpenUsed : Int) < s.breaker.cfg.halfOpenMax ∧ s.call =
      { s with
        breaker := { s.breaker with halfOpenUsed := s.breaker.halfOpenUsed + 1 }
        calls := s.calls ++ [⟨s.nextId, true, s.breaker.changes.length⟩]
        nextId := s.nextId + 1 }) ∨
    s.call = s := by
  unfold call
  obtain ⟨hstate, hallow⟩ | ⟨hstate, hused, hallow⟩ | ⟨refusal, hallow⟩ := s.breaker.allow_cases s.clock
  · left
    rw [hallow]
    refine ⟨Breaker.currentState_eq_closed.mp hstate, ?_⟩
    simp [hstate]
  · right
    left
    rw [hallow]
    refine ⟨hstate, hused, ?_⟩
    have hafter : ({ s.breaker with halfOpenUsed := s.breaker.halfOpenUsed + 1 } : Breaker).currentState s.clock =
        .halfOpen := hstate
    simp [hafter]
  · right
    right
    rw [hallow]

theorem Sound.call (h : s.Sound cfg) : s.call.Sound cfg := by
  obtain ⟨hstate, heq⟩ | ⟨hstate, hused, heq⟩ | heq := s.call_cases
  · rw [heq]
    refine ⟨h.cfg_eq, h.stored, h.closed, ?_, ?_, h.limited⟩
    · intro c hc
      rcases List.mem_append.mp hc with hc | hc
      · exact h.periods c hc
      · obtain rfl := List.mem_singleton.mp hc
        exact Nat.le_refl _
    · simpa [periodProbes, probes] using h.counted
  · rw [heq]
    obtain ⟨hopen, -⟩ := (Breaker.currentState_eq_halfOpen h.stored).mp hstate
    refine ⟨h.cfg_eq, h.stored, ?_, ?_, ?_, ?_⟩
    · intro hclosed
      exact absurd (hopen.symm.trans hclosed) (by decide)
    · intro c hc
      rcases List.mem_append.mp hc with hc | hc
      · exact h.periods c hc
      · obtain rfl := List.mem_singleton.mp hc
        exact Nat.le_refl _
    · simpa [periodProbes, probes] using h.counted
    · rw [h.cfg_eq] at hused
      show ((s.breaker.halfOpenUsed + 1 : Nat) : Int) ≤ cfg.halfOpenMax
      omega
  · rw [heq]
    exact h

/-- The calls that are left when one returns. -/
theorem finish_cases (s : Service) (id : Nat) (err : Bool) (pause : Nat) :
    s.finish id err pause = s ∨
    ((∃ c ∈ s.calls, c.id = id) ∧ s.finish id err pause =
      { s with
        breaker := s.breaker.record err s.clock (s.clock + pause)
        clock := s.clock + pause
        calls := s.calls.filter fun c => c.id != id }) := by
  unfold finish
  split
  · rename_i hany
    right
    simpa using hany
  · exact .inl rfl

theorem probes_filter_length_le (breaker : Breaker) (clock nextId : Nat) (calls : List Call) (p : Call → Bool) :
    (Service.mk breaker clock (calls.filter p) nextId).probes.length ≤
      (Service.mk breaker clock calls nextId).probes.length :=
  (List.filter_sublist.filter _).length_le

theorem periodProbes_filter_length_le (breaker : Breaker) (clock nextId : Nat) (calls : List Call)
    (p : Call → Bool) :
    (Service.mk breaker clock (calls.filter p) nextId).periodProbes.length ≤
      (Service.mk breaker clock calls nextId).periodProbes.length :=
  ((List.filter_sublist.filter _).filter _).length_le

theorem Sound.finish (hpos : 0 ≤ cfg.halfOpenMax) (h : s.Sound cfg) (id : Nat) (err : Bool) (pause : Nat) :
    (s.finish id err pause).Sound cfg := by
  obtain heq | ⟨-, heq⟩ := s.finish_cases id err pause
  · rw [heq]
    exact h
  rw [heq]
  have hperiods : ∀ c ∈ s.calls.filter (fun c => c.id != id), c.period ≤ s.breaker.changes.length := by
    intro c hc
    exact h.periods c (List.mem_of_mem_filter hc)
  have hcounted := Nat.le_trans
    (periodProbes_filter_length_le s.breaker s.clock s.nextId s.calls fun c => c.id != id) h.counted
  obtain ⟨-, b', next, hnext, hcfg, hchanges, hrecord⟩ | ⟨-, -, hrecord⟩ | ⟨-, -, hrecord⟩ :=
    s.breaker.record_cases err s.clock (s.clock + pause)
  · rw [hrecord]
    refine ⟨hcfg.trans h.cfg_eq, hnext, fun _ => rfl, ?_, ?_, ?_⟩
    · intro c hc
      show c.period ≤ (b'.transition next).changes.length
      have hle := hperiods c hc
      rw [Breaker.transition_changes_length, hchanges]
      omega
    · rw [periodProbes_eq_nil]
      · exact Nat.zero_le _
      · intro c hc
        show c.period < (b'.transition next).changes.length
        have hle := hperiods c hc
        rw [Breaker.transition_changes_length, hchanges]
        omega
    · simpa using hpos
  · rw [hrecord]
    exact ⟨h.cfg_eq, h.stored, h.closed, hperiods, hcounted, h.limited⟩
  · rw [hrecord]
    exact ⟨h.cfg_eq, h.stored, h.closed, hperiods, hcounted, h.limited⟩

theorem Sound.step (hpos : 0 ≤ cfg.halfOpenMax) (h : s.Sound cfg) (action : Action) :
    (s.step action).Sound cfg := by
  cases action with
  | wait elapsed => exact ⟨h.cfg_eq, h.stored, h.closed, h.periods, h.counted, h.limited⟩
  | call => exact h.call
  | finish id err pause => exact h.finish hpos id err pause

theorem new_halfOpenMax_pos (cfg : Config) : 0 < (new cfg).cfg.halfOpenMax := by
  simp only [new]
  split <;> omega

theorem start_sound (cfg : Config) (clock : Nat) : (start cfg clock).Sound (new cfg).cfg where
  cfg_eq := rfl
  stored := State.noConfusion
  closed := fun _ => rfl
  periods := fun _ hc => by cases hc
  counted := Nat.le_refl _
  limited := Int.le_of_lt (new_halfOpenMax_pos cfg)

/-- Since the breaker last changed its state it has let no more than `HalfOpenMax` probes start that still run,
whatever comes back late. -/
theorem periodProbes_le (cfg : Config) (clock : Nat) (actions : List Action) :
    ∀ s ∈ Runs.visited step (start cfg clock) actions,
      (s.periodProbes.length : Int) ≤ s.breaker.cfg.halfOpenMax := by
  have hsound : ∀ s ∈ Runs.visited step (start cfg clock) actions, s.Sound (new cfg).cfg := by
    apply Runs.forall_visited_of_step
    · intro s action h
      exact h.step (Int.le_of_lt (new_halfOpenMax_pos cfg)) action
    · exact start_sound cfg clock
  intro s hs
  have h := hsound s hs
  have hcounted := h.counted
  have hlimited := h.limited
  rw [h.cfg_eq]
  omega

/-! ### Runs without the slip -/

/-- No failure comes back while probes are counted that would leave the half-open breaker below its threshold,
and no probe starts while one of an earlier half-open period is still running. -/
def Clean (s : Service) : Action → Prop
  | .wait _ => True
  | .call => s.breaker.currentState s.clock = .halfOpen → s.periodProbes = s.probes
  | .finish _ err _ =>
      err = true → s.breaker.currentState s.clock = .halfOpen → 0 < s.breaker.halfOpenUsed →
        s.breaker.cfg.maxFailures ≤ (s.breaker.failures : Int) + 1

instance : (s : Service) → (action : Action) → Decidable (s.Clean action)
  | _, .wait _ => .isTrue trivial
  | s, .call => inferInstanceAs (Decidable (s.breaker.currentState s.clock = .halfOpen → s.periodProbes = s.probes))
  | s, .finish _ err _ => inferInstanceAs (Decidable (err = true → s.breaker.currentState s.clock = .halfOpen →
      0 < s.breaker.halfOpenUsed → s.breaker.cfg.maxFailures ≤ (s.breaker.failures : Int) + 1))

/-- The counter counts the probes of the period that run, and nothing else: none while the breaker cools down. -/
structure Counted (cfg : Config) (s : Service) : Prop where
  sound : s.Sound cfg
  used_le : s.breaker.halfOpenUsed ≤ s.periodProbes.length
  cold : s.breaker.state = .opened → ¬ s.breaker.Cooled s.clock → s.breaker.halfOpenUsed = 0
  bounded : (s.probes.length : Int) ≤ cfg.halfOpenMax

/-- With no probe counted it does not matter which calls of the period are left. -/
theorem Counted.of_unused (hsound : s.Sound cfg) (hused : s.breaker.halfOpenUsed = 0)
    (hbounded : (s.probes.length : Int) ≤ cfg.halfOpenMax) :
    s.Counted cfg where
  sound := hsound
  used_le := by
    rw [hused]
    exact Nat.zero_le _
  cold := fun _ _ => hused
  bounded := hbounded

/-- A breaker that is not half-open has no probe counted. -/
theorem Counted.used_eq_zero (h : s.Counted cfg) (hstate : s.breaker.currentState s.clock ≠ .halfOpen) :
    s.breaker.halfOpenUsed = 0 := by
  cases hcurrent : s.breaker.currentState s.clock with
  | closed => exact h.sound.closed (Breaker.currentState_eq_closed.mp hcurrent)
  | opened =>
      obtain ⟨hopen, hcold⟩ := Breaker.currentState_eq_opened.mp hcurrent
      exact h.cold hopen hcold
  | halfOpen => exact absurd hcurrent hstate

theorem Counted.wait (h : s.Counted cfg) (elapsed : Nat) : (s.step (.wait elapsed)).Counted cfg where
  sound := ⟨h.sound.cfg_eq, h.sound.stored, h.sound.closed, h.sound.periods, h.sound.counted, h.sound.limited⟩
  used_le := h.used_le
  cold := by
    intro hopen hcold
    apply h.cold hopen
    intro hcooled
    exact hcold (hcooled.mono (Nat.le_add_right _ _))
  bounded := h.bounded

theorem Counted.call (h : s.Counted cfg) (hclean : s.Clean .call) : s.call.Counted cfg := by
  have hsound := h.sound.call
  obtain ⟨hstate, heq⟩ | ⟨hstate, hused, heq⟩ | heq := s.call_cases
  · rw [heq] at hsound ⊢
    refine ⟨hsound, ?_, h.cold, ?_⟩
    · simpa [periodProbes, probes] using h.used_le
    · simpa [probes] using h.bounded
  · rw [heq] at hsound ⊢
    obtain ⟨-, hcooled⟩ := (Breaker.currentState_eq_halfOpen h.sound.stored).mp hstate
    refine ⟨hsound, ?_, ?_, ?_⟩
    · simpa [periodProbes, probes] using h.used_le
    · intro _ hcold
      exact absurd hcooled hcold
    · -- the probes that run are the counted ones, and the counter was below the limit
      have hcounted := h.sound.counted
      rw [hclean hstate] at hcounted
      rw [h.sound.cfg_eq] at hused
      have hlength : (Service.mk { s.breaker with halfOpenUsed := s.breaker.halfOpenUsed + 1 } s.clock
          (s.calls ++ [⟨s.nextId, true, s.breaker.changes.length⟩]) (s.nextId + 1)).probes.length =
          s.probes.length + 1 := by
        simp [probes]
      rw [hlength]
      omega
  · rw [heq]
    exact h

theorem Counted.finish (hpos : 0 ≤ cfg.halfOpenMax) (h : s.Counted cfg) {id : Nat} {err : Bool} {pause : Nat}
    (hclean : s.Clean (.finish id err pause)) : (s.finish id err pause).Counted cfg := by
  have hsound := h.sound.finish hpos id err pause
  obtain heq | ⟨-, heq⟩ := s.finish_cases id err pause
  · rw [heq]
    exact h
  rw [heq] at hsound ⊢
  apply Counted.of_unused hsound
  · -- a breaker that stays as it is has no probe to forget
    obtain ⟨-, b', next, -, -, -, hrecord⟩ | ⟨herr, hprev, hrecord⟩ | ⟨-, hprev, hrecord⟩ :=
      s.breaker.record_cases err s.clock (s.clock + pause)
    · rw [hrecord]
      rfl
    · rw [hrecord]
      show s.breaker.halfOpenUsed = 0
      by_cases hstate : s.breaker.currentState s.clock = .halfOpen
      · have hfew : (s.breaker.failures : Int) + 1 < s.breaker.cfg.maxFailures := by
          rcases hprev with hprev | hprev
          · rw [hstate] at hprev
            cases hprev
          · exact hprev
        by_contra hused
        have hmany := hclean herr hstate (Nat.pos_of_ne_zero hused)
        omega
      · exact h.used_eq_zero hstate
    · rw [hrecord]
      show s.breaker.halfOpenUsed = 0
      exact h.used_eq_zero hprev
  · have hle := probes_filter_length_le s.breaker s.clock s.nextId s.calls fun c => c.id != id
    have hbounded := h.bounded
    show (((Service.mk s.breaker s.clock (s.calls.filter fun c =>
        c.id != id) s.nextId).probes.length : Nat) : Int) ≤
      cfg.halfOpenMax
    exact Int.le_trans (Int.ofNat_le.mpr hle) hbounded

theorem Counted.reliable (hpos : 0 < cfg.halfOpenMax) (h : s.Counted cfg) : s.Reliable where
  admits := by
    intro hcalls hcooled
    have hnone : s.periodProbes = [] := by
      simp [periodProbes, probes, hcalls]
    have hused : s.breaker.halfOpenUsed = 0 := by
      have hle := h.used_le
      rw [hnone] at hle
      exact Nat.le_zero.mp hle
    unfold Breaker.allow
    cases hstate : s.breaker.currentState s.clock with
    | closed => rfl
    | opened => exact absurd hcooled (Breaker.currentState_eq_opened.mp hstate).2
    | halfOpen =>
        have hfree : (s.breaker.halfOpenUsed : Int) < s.breaker.cfg.halfOpenMax := by
          rw [hused, h.sound.cfg_eq]
          exact hpos
        simp [hfree]
  refuses := by
    intro hopen hcold
    have hstate := Breaker.currentState_eq_opened.mpr ⟨hopen, hcold⟩
    simp [Breaker.allow, hstate]
  bounded := by
    intro _
    rw [h.sound.cfg_eq]
    exact h.bounded

/-- A run that nowhere takes the failure of a probe for one below the threshold, and nowhere lets a probe start
beside one of an earlier period, never shuts its callers out. -/
theorem reliable_of_clean (cfg : Config) (clock : Nat) (actions : List Action)
    (hclean : Runs.AllSteps step Clean (start cfg clock) actions) :
    ∀ s ∈ Runs.visited step (start cfg clock) actions, s.Reliable := by
  have hpos := new_halfOpenMax_pos cfg
  have hcounted : ∀ s ∈ Runs.visited step (start cfg clock) actions, s.Counted (new cfg).cfg := by
    have hstart : (start cfg clock).Counted (new cfg).cfg :=
      Counted.of_unused (start_sound cfg clock) rfl (Int.le_of_lt hpos)
    refine Runs.forall_visited ?_ hstart hclean
    intro s action h hstep
    cases action with
    | wait elapsed => exact h.wait elapsed
    | call => exact h.call hstep
    | finish id err pause => exact h.finish (Int.le_of_lt hpos) hstep
  intro s hs
  exact (hcounted s hs).reliable hpos

/-- Five failures open the breaker, the probe fails and opens it again, the next probe succeeds. -/
def cleanRecovery : List Action :=
  [.call, .finish 0 true 0, .call, .finish 1 true 0, .call, .finish 2 true 0, .call, .finish 3 true 0,
    .call, .finish 4 true 0, .wait 30000000000, .call, .finish 5 true 0, .wait 30000000000, .call,
    .finish 6 false 0]

theorem reliable_of_clean_recovery :
    Runs.AllSteps step Clean (start (defaultConfig "ledger") 1) cleanRecovery ∧
      ∀ s ∈ Runs.visited step (start (defaultConfig "ledger") 1) cleanRecovery, s.Reliable := by
  have hclean : Runs.AllSteps step Clean (start (defaultConfig "ledger") 1) cleanRecovery := by decide +kernel
  exact ⟨hclean, reliable_of_clean _ _ _ hclean⟩

/-- Six calls run and five of them fail. The sixth succeeds while the breaker cools down and clears the count of the
failures, so that the failure of the only probe does not reach the threshold: nothing runs any more, the cooldown is
over, and the next call is refused. -/
theorem shut_after_late_success :
    ¬ ∀ cfg clock actions, ∀ s ∈ Runs.visited step (start cfg clock) actions, s.Reliable := by
  intro h
  have hlast := h (defaultConfig "ledger") 1
    [.call, .call, .call, .call, .call, .call, .finish 0 true 0, .finish 1 true 0,
      .finish 2 true 0, .finish 3 true 0, .finish 4 true 0, .finish 5 false 0, .wait 30000000000, .call,
        .finish 6 true 0, .wait 30000000000] _
    (Runs.final_mem_visited _ _)
  have hadmits := hlast.admits (by decide +kernel) (by decide +kernel)
  revert hadmits
  decide +kernel

end Service

end Inec.Circuit
