import Mathlib.Logic.Function.Basic
import Mathlib.Data.List.Basic

/-!
# Transactions over keyed row locks

Concurrent transactions append rows to one table at READ COMMITTED. A transaction sees the committed
rows and its own, a row lock is held until the transaction ends, and the rows of one key are only
appended by the transaction that holds that key (`Owned`).

`chain` is the list of all rows of a key, the uncommitted ones of its holder included. A commit leaves
every chain as it is, a rollback cuts the chains of its transaction back to their committed part, and
the holder of a key sees the whole chain. Invariants of a chain are therefore only at risk in the
appending step.
-/

namespace Transactions

structure Store (Row Key : Type) where
  committed : List Row
  /-- Rows not committed yet, with the transaction that wrote them. -/
  pending : List (Nat × Row)
  /-- The transaction that holds the row lock of a key. -/
  holder : Key → Option Nat

variable {Row Key : Type}

def own (s : Store Row Key) (i : Nat) : List Row :=
  (s.pending.filter fun p => p.1 == i).map Prod.snd

/-- What a statement of the transaction reads. -/
def visible (s : Store Row Key) (i : Nat) : List Row := s.committed ++ own s i

def append (s : Store Row Key) (i : Nat) (row : Row) : Store Row Key :=
  { s with pending := s.pending ++ [(i, row)] }

/-- The locks left when a transaction has ended. -/
def release (s : Store Row Key) (i : Nat) (k : Key) : Option Nat :=
  if s.holder k = some i then none else s.holder k

def commit (s : Store Row Key) (i : Nat) : Store Row Key where
  committed := s.committed ++ own s i
  pending := s.pending.filter fun p => p.1 != i
  holder := release s i

def rollback (s : Store Row Key) (i : Nat) : Store Row Key where
  committed := s.committed
  pending := s.pending.filter fun p => p.1 != i
  holder := release s i

variable (key : Row → Key)

/-- Every uncommitted row belongs to the transaction that holds its key. -/
def Owned (s : Store Row Key) : Prop := ∀ p ∈ s.pending, s.holder (key p.2) = some p.1

variable {key} {s s' : Store Row Key} {i j : Nat} {k : Key} {row : Row}

/-! ### The rows of one transaction -/

theorem own_append_self : own (append s i row) i = own s i ++ [row] := by simp [own, append]

theorem own_append_of_ne (h : j ≠ i) : own (append s i row) j = own s j := by
  simp [own, append, Ne.symm h]

private theorem own_ended {t : Store Row Key} (h : t.pending = s.pending.filter fun p => p.1 != i) :
    own t i = [] ∧ (j ≠ i → own t j = own s j) := by
  constructor
  · rw [own, h, List.map_eq_nil_iff, List.filter_filter, List.filter_eq_nil_iff]
    simp
  · intro hne
    rw [own, own, h, List.filter_filter]
    congr 1
    apply List.filter_congr
    intro p _
    by_cases hp : p.1 = j
    · simp [hp, hne]
    · simp [hp]

theorem own_commit_self : own (commit s i) i = [] := (@own_ended _ _ s i i _ rfl).1

theorem own_commit_of_ne (h : j ≠ i) : own (commit s i) j = own s j := (own_ended rfl).2 h

theorem own_rollback_self : own (rollback s i) i = [] := (@own_ended _ _ s i i _ rfl).1

theorem own_rollback_of_ne (h : j ≠ i) : own (rollback s i) j = own s j := (own_ended rfl).2 h

/-! ### Ownership -/

theorem release_of_ne (hk : s.holder k = some j) (hj : j ≠ i) : release s i k = some j := by
  rw [release, if_neg]
  · exact hk
  · rw [hk]
    exact fun h => hj (Option.some.inj h)

theorem owned_append (hown : Owned key s) (hi : s.holder (key row) = some i) :
    Owned key (append s i row) := by
  intro p hp
  rcases List.mem_append.mp hp with hp | hp
  · exact hown p hp
  · rw [List.mem_singleton.mp hp]
    exact hi

private theorem owned_of_released (hown : Owned key s) :
    ∀ p ∈ s.pending.filter fun p => p.1 != i, release s i (key p.2) = some p.1 := by
  intro p hp
  rw [List.mem_filter, bne_iff_ne] at hp
  exact release_of_ne (hown p hp.1) hp.2

theorem owned_commit (hown : Owned key s) : Owned key (commit s i) := owned_of_released hown

theorem owned_rollback (hown : Owned key s) : Owned key (rollback s i) := owned_of_released hown

/-! ### Locks -/

variable [DecidableEq Key]

/-- `SELECT ... FOR UPDATE`: no answer while another transaction holds the key. -/
def acquire (s : Store Row Key) (i : Nat) (k : Key) : Option (Store Row Key) :=
  match s.holder k with
  | none => some { s with holder := Function.update s.holder k (some i) }
  | some j => if j = i then some s else none

theorem acquire_eq_some (h : acquire s i k = some s') :
    s'.committed = s.committed ∧ s'.pending = s.pending ∧ s'.holder k = some i ∧
      ∀ k' j, s.holder k' = some j → s'.holder k' = some j := by
  unfold acquire at h
  cases hk : s.holder k with
  | none =>
      rw [hk] at h
      obtain rfl := Option.some.inj h
      refine ⟨rfl, rfl, Function.update_self .., ?_⟩
      intro k' j hk'
      have hne : k' ≠ k := by
        rintro rfl
        rw [hk] at hk'
        exact absurd hk' (by simp)
      exact (Function.update_of_ne hne ..).trans hk'
  | some j =>
      rw [hk] at h
      by_cases hj : j = i
      · simp only [if_pos hj] at h
        obtain rfl := Option.some.inj h
        exact ⟨rfl, rfl, hj ▸ hk, fun _ _ h => h⟩
      · simp [hj] at h

theorem owned_acquire (hown : Owned key s) (h : acquire s i k = some s') : Owned key s' := by
  obtain ⟨-, hpending, -, hkeep⟩ := acquire_eq_some h
  intro p hp
  exact hkeep _ _ (hown p (hpending ▸ hp))

/-! ### Chains -/

variable (key) in
/-- All rows of a key, the uncommitted ones of its holder included. -/
def chain (s : Store Row Key) (k : Key) : List Row :=
  (s.committed.filter fun r => key r == k) ++
    (s.pending.filter fun p => key p.2 == k).map Prod.snd

theorem chain_of_eq (hcommitted : s'.committed = s.committed) (hpending : s'.pending = s.pending) :
    chain key s' k = chain key s k := by
  rw [chain, chain, hcommitted, hpending]

theorem chain_append_self : chain key (append s i row) (key row) = chain key s (key row) ++ [row] := by
  simp [chain, append]

theorem chain_append_of_ne (hk : key row ≠ k) : chain key (append s i row) k = chain key s k := by
  simp [chain, append, hk]

/-- The uncommitted rows of a held key are exactly its holder's. -/
private theorem own_filter (hown : Owned key s) (hk : s.holder k = some i) :
    (own s i).filter (fun r => key r == k) =
      (s.pending.filter fun p => key p.2 == k).map Prod.snd := by
  rw [own, List.filter_map, List.filter_filter]
  congr 1
  apply List.filter_congr
  intro p hp
  cases hkey : key p.2 == k with
  | false => simp [hkey]
  | true =>
      have hp := hown p hp
      rw [beq_iff_eq.mp hkey, hk] at hp
      simp [hkey, (Option.some.inj hp).symm]

private theorem own_filter_of_ne (hown : Owned key s) (hk : s.holder k ≠ some i) :
    (own s i).filter (fun r => key r == k) = [] := by
  rw [List.filter_eq_nil_iff]
  intro r hr hkey
  obtain ⟨p, hp, rfl⟩ := List.mem_map.mp hr
  rw [List.mem_filter, beq_iff_eq] at hp
  apply hk
  rw [← beq_iff_eq.mp hkey, hown p hp.1, hp.2]

/-- The holder of a key sees its whole chain. -/
theorem visible_filter (hown : Owned key s) (hk : s.holder k = some i) :
    (visible s i).filter (fun r => key r == k) = chain key s k := by
  rw [visible, List.filter_append, own_filter hown hk, chain]

private theorem pending_filter (hown : Owned key s) (hk : s.holder k = some i) :
    (s.pending.filter fun p => p.1 != i).filter (fun p => key p.2 == k) = [] := by
  rw [List.filter_eq_nil_iff]
  intro p hp hkey
  rw [List.mem_filter, bne_iff_ne] at hp
  have hp' := hown p hp.1
  rw [beq_iff_eq.mp hkey, hk] at hp'
  exact hp.2 (Option.some.inj hp').symm

private theorem pending_filter_of_ne (hown : Owned key s) (hk : s.holder k ≠ some i) :
    (s.pending.filter fun p => p.1 != i).filter (fun p => key p.2 == k) =
      s.pending.filter fun p => key p.2 == k := by
  rw [List.filter_filter]
  apply List.filter_congr
  intro p hp
  cases hkey : key p.2 == k with
  | false => simp
  | true =>
      have hp := hown p hp
      rw [beq_iff_eq.mp hkey] at hp
      have hne : p.1 ≠ i := fun h => hk (h ▸ hp)
      simp [hne]

theorem chain_commit (hown : Owned key s) : chain key (commit s i) k = chain key s k := by
  by_cases hk : s.holder k = some i
  · simp only [chain, commit, List.filter_append, own_filter hown hk, pending_filter hown hk,
      List.map_nil, List.append_nil]
  · simp only [chain, commit, List.filter_append, own_filter_of_ne hown hk,
      pending_filter_of_ne hown hk, List.append_nil]

theorem chain_rollback_of_held (hown : Owned key s) (hk : s.holder k = some i) :
    chain key (rollback s i) k = s.committed.filter fun r => key r == k := by
  simp only [chain, rollback, pending_filter hown hk, List.map_nil, List.append_nil]

theorem chain_rollback_of_ne (hown : Owned key s) (hk : s.holder k ≠ some i) :
    chain key (rollback s i) k = chain key s k := by
  simp only [chain, rollback, pending_filter_of_ne hown hk]

end Transactions
