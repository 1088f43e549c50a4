import Mathlib.Data.Option.Basic

/-!
# Transactions statement by statement

A transaction runs its statements one after the other on its own copy of the tables. `none` is a transaction
that has failed: no later statement works in it any more, and its commit does not either. A commit whose answer
is lost has taken effect all the same.
-/

namespace Statements

variable {State : Type}

/-- A statement of a transaction. -/
def exec (works : Bool) (statement : State → Option State) (tx : Option State) : Option State :=
  if works then tx.bind statement else none

inductive CommitReply
  | done
  | refused
  | lost
  deriving DecidableEq, Repr

/-- The tables after the commit, and whether the caller hears that it worked. -/
def commit (s : State) (tx : Option State) (reply : CommitReply) : State × Bool :=
  match tx, reply with
  | some t, .done => (t, true)
  | some t, .lost => (t, false)
  | _, _ => (s, false)

theorem exec_eq_some {works : Bool} {statement : State → Option State} {tx : Option State} {t : State} :
    exec works statement tx = some t ↔ works = true ∧ ∃ u, tx = some u ∧ statement u = some t := by
  cases works with
  | false => simp [exec]
  | true => simp [exec, Option.bind_eq_some_iff]

/-- A commit takes effect as a whole or not at all. -/
theorem commit_cases (s : State) (tx : Option State) (reply : CommitReply) :
    commit s tx reply = (s, false) ∨ ∃ t told, tx = some t ∧ commit s tx reply = (t, told) := by
  cases tx with
  | none => exact .inl rfl
  | some t =>
      cases reply with
      | done => exact .inr ⟨t, true, rfl, rfl⟩
      | refused => exact .inl rfl
      | lost => exact .inr ⟨t, false, rfl, rfl⟩

end Statements
