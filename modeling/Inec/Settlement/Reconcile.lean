import Mathlib.Algebra.BigOperators.Group.List.Basic
import Mathlib.Data.Nat.ModEq
import Mathlib.Tactic.Ring

/-!
# Reconciliation of ledger accounts

`ReconcileAccounts` of internal/ledger/tigerbeetle.go. A posted balance is a word of 128 bits. The loop takes it to a
big integer, of which it keeps the low word, and adds that up in words of 64 bits. So it compares the totals modulo
`2 ^ 64`, and misses a difference of a multiple of that.
-/

namespace Inec.Reconcile

/-- What is read of an account. -/
structure Account where
  creditsPosted : BitVec 128
  debitsPosted : BitVec 128
  deriving DecidableEq, Repr

/-- The running totals. -/
structure Totals where
  credits : UInt64
  debits : UInt64
  deriving DecidableEq, Repr

/-- `Uint64()` of a big integer: its low word. -/
def low64 (x : Nat) : UInt64 := UInt64.ofNat x

/-- One round of the loop. -/
def Totals.add (t : Totals) (a : Account) : Totals where
  credits := t.credits + low64 a.creditsPosted.toNat
  debits := t.debits + low64 a.debitsPosted.toNat

def totals (accounts : List Account) : Totals := accounts.foldl Totals.add ⟨0, 0⟩

/-- `ReconcileAccounts`, for what the client answers to a lookup. -/
def reconcileAccounts (lookupAccounts : List (BitVec 128) → Except String (List Account))
    (accountIDs : List (BitVec 128)) : Except String Bool := do
  let accounts ← lookupAccounts accountIDs
  return decide ((totals accounts).credits = (totals accounts).debits)

def exactCredits (accounts : List Account) : Nat := (accounts.map (·.creditsPosted.toNat)).sum

def exactDebits (accounts : List Account) : Nat := (accounts.map (·.debitsPosted.toNat)).sum

/-- Accounts that were looked up are reported balanced exactly if they are. -/
def ReconcilesExactly (lookupAccounts : List (BitVec 128) → Except String (List Account))
    (accountIDs : List (BitVec 128)) : Prop :=
  ∀ accounts, lookupAccounts accountIDs = .ok accounts →
    (reconcileAccounts lookupAccounts accountIDs = .ok true ↔ exactCredits accounts = exactDebits accounts)

/-- The sums differ, by a multiple of `2 ^ 64`. -/
def DiffersByWords (accounts : List Account) : Prop :=
  exactCredits accounts ≠ exactDebits accounts ∧ exactCredits accounts ≡ exactDebits accounts [MOD 2 ^ 64]

/-- The loop carries the sums modulo the word. -/
theorem foldl_add (accounts : List Account) (t : Totals) :
    (accounts.foldl Totals.add t).credits = t.credits + low64 (exactCredits accounts) ∧
      (accounts.foldl Totals.add t).debits = t.debits + low64 (exactDebits accounts) := by
  induction accounts generalizing t with
  | nil => exact ⟨(UInt64.add_zero _).symm, (UInt64.add_zero _).symm⟩
  | cons a rest ih =>
      obtain ⟨hcredits, hdebits⟩ := ih (t.add a)
      rw [List.foldl_cons, hcredits, hdebits]
      constructor
      · rw [exactCredits, exactCredits, List.map_cons, List.sum_cons, low64, low64, UInt64.ofNat_add,
          ← UInt64.add_assoc]
        rfl
      · rw [exactDebits, exactDebits, List.map_cons, List.sum_cons, low64, low64, UInt64.ofNat_add,
          ← UInt64.add_assoc]
        rfl

theorem low64_eq_iff {x y : Nat} : low64 x = low64 y ↔ x ≡ y [MOD 2 ^ 64] := by
  rw [low64, low64, ← UInt64.toNat_inj, UInt64.toNat_ofNat', UInt64.toNat_ofNat']
  rfl

theorem totals_eq_iff (accounts : List Account) :
    (totals accounts).credits = (totals accounts).debits ↔
      exactCredits accounts ≡ exactDebits accounts [MOD 2 ^ 64] := by
  obtain ⟨hcredits, hdebits⟩ := foldl_add accounts ⟨0, 0⟩
  rw [totals, hcredits, hdebits, UInt64.zero_add, UInt64.zero_add, low64_eq_iff]

/-- The report is exact unless the sums differ by whole words. -/
theorem reconcilesExactly_iff (lookupAccounts : List (BitVec 128) → Except String (List Account))
    (accountIDs : List (BitVec 128)) :
    ReconcilesExactly lookupAccounts accountIDs ↔
      ∀ accounts, lookupAccounts accountIDs = .ok accounts → ¬DiffersByWords accounts := by
  apply forall_congr'
  intro accounts
  apply imp_congr_right
  intro hlookup
  have hreport : reconcileAccounts lookupAccounts accountIDs = .ok true ↔
      exactCredits accounts ≡ exactDebits accounts [MOD 2 ^ 64] := by
    rw [← totals_eq_iff, reconcileAccounts, hlookup]
    show Except.ok (decide _) = Except.ok true ↔ _
    rw [Except.ok.injEq, decide_eq_true_eq]
  rw [hreport, DiffersByWords]
  constructor
  · rintro hexact ⟨hne, hmod⟩
    exact hne (hexact.mp hmod)
  · intro hfree
    constructor
    · intro hmod
      by_contra hne
      exact hfree ⟨hne, hmod⟩
    · intro heq
      rw [heq]

/-- A credit of `2 ^ 64` without any debit is taken for balanced. -/
theorem credit_of_a_word :
    ¬ReconcilesExactly (fun _ => .ok [⟨BitVec.ofNat 128 (2 ^ 64), 0⟩]) [1] := by
  intro hexact
  have hreport := hexact _ rfl
  exact absurd (hreport.mp rfl) (by decide)

/-- The sum wraps around as well. -/
example : reconcileAccounts (fun _ => .ok [⟨BitVec.ofNat 128 (2 ^ 63), 0⟩, ⟨BitVec.ofNat 128 (2 ^ 63), 0⟩]) [1, 2] =
    .ok true := by decide +kernel

end Inec.Reconcile
