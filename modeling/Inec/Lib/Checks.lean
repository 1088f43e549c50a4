import Mathlib.Init

/-!
# Checked computations

A request handler is a straight line of checks: each one either answers with an error or hands a
value to the rest. `require` and `fetch` are the two kinds of check, and the lemmas below peel a
successful run apart into the facts its checks established, so no later proof unfolds a handler's
control flow.
-/

namespace Checks

variable {ε α β : Type}

/-- Answer with `err` unless the condition holds. -/
def require (ok : Bool) (err : ε) : Except ε Unit :=
  if ok then .ok () else .error err

/-- Answer with `err` unless the value is there. -/
def fetch (found : Option α) (err : ε) : Except ε α :=
  match found with
  | some value => .ok value
  | none => .error err

/-- Replace the error of a failed computation. -/
def relabel {ε' : Type} (result : Except ε α) (label : ε → ε') : Except ε' α :=
  match result with
  | .ok value => .ok value
  | .error err => .error (label err)

@[simp] theorem bind_eq_ok {result : Except ε α} {next : α → Except ε β} {value : β} :
    (result >>= next) = .ok value ↔ ∃ mid, result = .ok mid ∧ next mid = .ok value := by
  cases result with
  | error err => simp [bind, Except.bind]
  | ok mid => simp [bind, Except.bind]

@[simp] theorem require_eq_ok {ok : Bool} {err : ε} {u : Unit} :
    require ok err = .ok u ↔ ok = true := by
  cases ok <;> simp [require]

@[simp] theorem fetch_eq_ok {found : Option α} {err : ε} {value : α} :
    fetch found err = .ok value ↔ found = some value := by
  cases found <;> simp [fetch]

@[simp] theorem relabel_eq_ok {ε' : Type} {result : Except ε α} {label : ε → ε'} {value : α} :
    relabel result label = .ok value ↔ result = .ok value := by
  cases result <;> simp [relabel]

theorem bind_eq_error {result : Except ε α} {next : α → Except ε β} {err : ε} :
    (result >>= next) = .error err ↔ result = .error err ∨ ∃ mid, result = .ok mid ∧ next mid = .error err := by
  cases result with
  | error err => simp [bind, Except.bind]
  | ok mid => simp [bind, Except.bind]

theorem require_eq_error {ok : Bool} {err err' : ε} :
    require ok err = .error err' ↔ ok = false ∧ err = err' := by
  cases ok <;> simp [require]

theorem fetch_eq_error {found : Option α} {err err' : ε} :
    fetch found err = .error err' ↔ found = none ∧ err = err' := by
  cases found <;> simp [fetch]

@[simp] theorem pure_eq_ok {value value' : α} :
    (pure value : Except ε α) = .ok value' ↔ value = value' := by
  simp [pure, Except.pure]

@[simp] theorem toOption_eq_some {result : Except ε α} {value : α} :
    result.toOption = some value ↔ result = .ok value := by
  cases result <;> simp [Except.toOption]

@[simp] theorem map_eq_ok {result : Except ε α} {f : α → β} {value : β} :
    result.map f = .ok value ↔ ∃ mid, result = .ok mid ∧ f mid = value := by
  cases result <;> simp [Except.map]

end Checks
