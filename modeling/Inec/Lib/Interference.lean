import Mathlib.Logic.Function.Basic

/-!
# Processes on a shared state

Processes that work on one shared state, each in a phase of its own. A phase carries an assertion about
the shared state. The assertion of the process that moves is proved for the phase it enters; those of
the others have to survive what the move did to the shared state.
-/

namespace Interference

variable {Pid World Phase : Type} [DecidableEq Pid]

/-- One process entered a phase whose assertion holds, and the assertions of the others are stable. -/
theorem forall_update {holds : World → Phase → Prop} {w w' : World} {procs : Pid → Phase} {pid : Pid} {next : Phase}
    (hnext : holds w' next) (hstable : ∀ other, holds w (procs other) → holds w' (procs other))
    (h : ∀ other, holds w (procs other)) : ∀ other, holds w' (Function.update procs pid next other) := by
  intro other
  by_cases heq : other = pid
  · rw [heq, Function.update_self]
    exact hnext
  · rw [Function.update_of_ne heq]
    exact hstable other (h other)

end Interference
