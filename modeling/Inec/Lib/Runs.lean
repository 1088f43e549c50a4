import Mathlib.Data.List.Basic

/-!
# Runs of a machine

A machine is a total step function: a refused input leaves the state as it was. `visited` is the list
of every state a run passes through, the start and the end included, so "in every reachable state" is
a statement about the members of that list.

Two rules carry every run theorem of the development. `forall_visited` is the invariant rule, with a
side condition the steps have to meet. `forall_visited_iff` is its exact form: when a step keeps the
invariant exactly if it meets the condition, a run keeps it exactly if all its steps do.
-/

namespace Runs

variable {State Input : Type}

/-- The states a run passes through, the start included. -/
def visited (step : State → Input → State) : State → List Input → List State
  | s, [] => [s]
  | s, i :: rest => s :: visited step (step s i) rest

/-- The state a run ends in. -/
def final (step : State → Input → State) (s : State) (inputs : List Input) : State :=
  inputs.foldl step s

/-- Every step of the run meets the condition, judged in the state before the step. -/
def AllSteps (step : State → Input → State) (cond : State → Input → Prop) :
    State → List Input → Prop
  | _, [] => True
  | s, i :: rest => cond s i ∧ AllSteps step cond (step s i) rest

variable {step : State → Input → State} {cond : State → Input → Prop} {inv : State → Prop}

instance decidableAllSteps [∀ s i, Decidable (cond s i)] :
    (s : State) → (inputs : List Input) → Decidable (AllSteps step cond s inputs)
  | _, [] => .isTrue trivial
  | s, i :: rest =>
      have := decidableAllSteps (step s i) rest
      inferInstanceAs (Decidable (cond s i ∧ AllSteps step cond (step s i) rest))

@[simp] theorem visited_nil (s : State) : visited step s [] = [s] := rfl

@[simp] theorem visited_cons (s : State) (i : Input) (rest : List Input) :
    visited step s (i :: rest) = s :: visited step (step s i) rest := rfl

@[simp] theorem final_nil (s : State) : final step s [] = s := rfl

@[simp] theorem final_cons (s : State) (i : Input) (rest : List Input) :
    final step s (i :: rest) = final step (step s i) rest := rfl

@[simp] theorem allSteps_nil (s : State) : AllSteps step cond s [] := trivial

@[simp] theorem allSteps_cons (s : State) (i : Input) (rest : List Input) :
    AllSteps step cond s (i :: rest) ↔ cond s i ∧ AllSteps step cond (step s i) rest := Iff.rfl

theorem start_mem_visited (s : State) (inputs : List Input) : s ∈ visited step s inputs := by
  cases inputs <;> simp

theorem final_append (s : State) (first second : List Input) :
    final step s (first ++ second) = final step (final step s first) second := List.foldl_append

theorem final_mem_visited (s : State) (inputs : List Input) :
    final step s inputs ∈ visited step s inputs := by
  induction inputs generalizing s with
  | nil => simp
  | cons i rest ih => exact List.mem_cons_of_mem _ (ih (step s i))

/-- A run passes through the ends of its beginnings. -/
theorem final_mem_visited_append (s : State) (first second : List Input) :
    final step s first ∈ visited step s (first ++ second) := by
  induction first generalizing s with
  | nil => exact start_mem_visited s second
  | cons i rest ih => exact List.mem_cons_of_mem _ (ih (step s i))

/-- The last step of a run meets what every step meets. -/
theorem AllSteps.last {s : State} {inputs : List Input} {i : Input} (h : AllSteps step cond s (inputs ++ [i])) :
    cond (final step s inputs) i := by
  induction inputs generalizing s with
  | nil => exact h.1
  | cons first rest ih => exact ih h.2

/-- The steps of a run, by how many were taken before. -/
theorem allSteps_of_getElem {s : State} {inputs : List Input}
    (h : ∀ n (hn : n < inputs.length), cond (final step s (inputs.take n)) inputs[n]) :
    AllSteps step cond s inputs := by
  induction inputs generalizing s with
  | nil => trivial
  | cons i rest ih => exact ⟨h 0 (Nat.zero_lt_succ _), ih fun n hn => h (n + 1) (Nat.succ_lt_succ hn)⟩

theorem AllSteps.getElem {s : State} {inputs : List Input} (h : AllSteps step cond s inputs) (n : Nat)
    (hn : n < inputs.length) :
    cond (final step s (inputs.take n)) inputs[n] := by
  induction inputs generalizing s n with
  | nil => cases hn
  | cons i rest ih =>
      cases n with
      | zero => exact h.1
      | succ n => exact ih h.2 n (Nat.lt_of_succ_lt_succ hn)

/-- One step more, while there is one. -/
theorem final_take_succ (s : State) (inputs : List Input) (n : Nat) :
    final step s (inputs.take (n + 1)) = final step s (inputs.take n) ∨
      ∃ hn : n < inputs.length, final step s (inputs.take (n + 1)) =
        step (final step s (inputs.take n)) inputs[n] := by
  by_cases hn : n < inputs.length
  · refine .inr ⟨hn, ?_⟩
    rw [List.take_succ_eq_append_getElem hn, final_append]
    rfl
  · rw [List.take_of_length_le (by omega), List.take_of_length_le (by omega)]
    exact .inl rfl

/-- What every step does to the state behind it, a stretch of the run does to its start. -/
theorem AllSteps.rel_final_take {rel : State → State → Prop} (hrefl : ∀ s, rel s s)
    (htrans : ∀ s t u, rel s t → rel t u → rel s u) {s : State} {inputs : List Input}
    (h : AllSteps step (fun s i => rel s (step s i)) s inputs) {m n : Nat} (hmn : m ≤ n) :
    rel (final step s (inputs.take m)) (final step s (inputs.take n)) := by
  induction hmn with
  | refl => exact hrefl _
  | @step n _ ih =>
      rcases @final_take_succ _ _ step s inputs n with heq | ⟨hn, heq⟩
      · rw [heq]
        exact ih
      · rw [heq]
        exact htrans _ _ _ ih (h.getElem n hn)

/-- What holds of the inputs holds of the steps. -/
theorem AllSteps.and_of_mem {allowed : Input → Prop} {s : State} {inputs : List Input}
    (h : AllSteps step cond s inputs) (hinputs : ∀ i ∈ inputs, allowed i) :
    AllSteps step (fun s i => allowed i ∧ cond s i) s inputs := by
  induction inputs generalizing s with
  | nil => trivial
  | cons i rest ih =>
      rw [List.forall_mem_cons] at hinputs
      exact ⟨⟨hinputs.1, h.1⟩, ih h.2 hinputs.2⟩

/-- The invariant rule: a run whose steps all meet the condition stays inside an invariant that such
steps keep. -/
theorem forall_visited (hstep : ∀ s i, inv s → cond s i → inv (step s i)) {s : State}
    (hs : inv s) {inputs : List Input} (hcond : AllSteps step cond s inputs) :
    ∀ t ∈ visited step s inputs, inv t := by
  induction inputs generalizing s with
  | nil =>
      intro t ht
      rw [visited_nil, List.mem_singleton] at ht
      exact ht ▸ hs
  | cons i rest ih =>
      obtain ⟨hi, hrest⟩ := hcond
      intro t ht
      rw [visited_cons, List.mem_cons] at ht
      rcases ht with rfl | ht
      · exact hs
      · exact ih (hstep s i hs hi) hrest t ht

/-- Inside an invariant that the steps keep, a condition may be traded for what it implies there. -/
theorem AllSteps.imp_of_inv {cond' : State → Input → Prop} (hstep : ∀ s i, inv s → cond s i → inv (step s i))
    (himp : ∀ s i, inv s → cond s i → cond' s i) {s : State} (hs : inv s) {inputs : List Input}
    (h : AllSteps step cond s inputs) : AllSteps step cond' s inputs := by
  induction inputs generalizing s with
  | nil => trivial
  | cons i rest ih => exact ⟨himp s i hs h.1, ih (hstep s i hs h.1) h.2⟩

/-- An invariant every step keeps holds along every run. -/
theorem forall_visited_of_step (hstep : ∀ s i, inv s → inv (step s i)) {s : State} (hs : inv s)
    (inputs : List Input) : ∀ t ∈ visited step s inputs, inv t := by
  have hcond : ∀ (s : State) (inputs : List Input), AllSteps step (fun _ _ => True) s inputs := by
    intro s inputs
    induction inputs generalizing s with
    | nil => trivial
    | cons i rest ih => exact ⟨trivial, ih _⟩
  exact forall_visited (fun s i h _ => hstep s i h) hs (hcond s inputs)

section Related

variable {rel : State → State → Prop} (hrefl : ∀ s, rel s s) (htrans : ∀ s t u, rel s t → rel t u → rel s u)
  (hkeep : ∀ s i, inv s → inv (step s i)) (hstep : ∀ s i, inv s → rel s (step s i))

include hrefl htrans hkeep hstep

/-- What every step does to the state behind it, the run does to its start. -/
theorem rel_of_mem_visited {s : State} (hs : inv s) {inputs : List Input} :
    ∀ t ∈ visited step s inputs, rel s t := by
  induction inputs generalizing s with
  | nil =>
      intro t ht
      rw [visited_nil, List.mem_singleton] at ht
      exact ht ▸ hrefl s
  | cons i rest ih =>
      intro t ht
      rw [visited_cons, List.mem_cons] at ht
      rcases ht with rfl | ht
      · exact hrefl t
      · exact htrans s _ t (hstep s i hs) (ih (hkeep s i hs) t ht)

/-- And so does every stretch of the run. -/
theorem pairwise_visited {s : State} (hs : inv s) (inputs : List Input) : (visited step s inputs).Pairwise rel := by
  induction inputs generalizing s with
  | nil => exact List.pairwise_singleton rel s
  | cons i rest ih =>
      rw [visited_cons, List.pairwise_cons]
      refine ⟨?_, ih (hkeep s i hs)⟩
      intro t ht
      exact htrans s _ t (hstep s i hs) (rel_of_mem_visited hrefl htrans hkeep hstep (hkeep s i hs) t ht)

end Related

/-- A condition that the inputs in question meet in every state of an invariant is met along their runs. -/
theorem allSteps_of_inv_of_mem {allowed : Input → Prop} (hkeep : ∀ s i, allowed i → inv s → inv (step s i))
    (hcond : ∀ s i, allowed i → inv s → cond s i) {s : State} (hs : inv s) {inputs : List Input}
    (hinputs : ∀ i ∈ inputs, allowed i) : AllSteps step cond s inputs := by
  induction inputs generalizing s with
  | nil => trivial
  | cons i rest ih =>
      rw [List.forall_mem_cons] at hinputs
      exact ⟨hcond s i hinputs.1 hs, ih (hkeep s i hinputs.1 hs) hinputs.2⟩

/-- A condition every step meets in every state of an invariant is met along every run. -/
theorem allSteps_of_inv (hkeep : ∀ s i, inv s → inv (step s i)) (hcond : ∀ s i, inv s → cond s i) {s : State}
    (hs : inv s) (inputs : List Input) : AllSteps step cond s inputs :=
  allSteps_of_inv_of_mem (fun s i _ => hkeep s i) (fun s i _ => hcond s i) hs fun _ _ => trivial

/-- Two conditions that agree in every state of an invariant agree along every run. -/
theorem allSteps_congr {cond' : State → Input → Prop} (hkeep : ∀ s i, inv s → inv (step s i))
    (hcond : ∀ s i, inv s → (cond s i ↔ cond' s i)) {s : State} (hs : inv s) (inputs : List Input) :
    AllSteps step cond s inputs ↔ AllSteps step cond' s inputs := by
  induction inputs generalizing s with
  | nil => exact Iff.rfl
  | cons i rest ih =>
      rw [allSteps_cons, allSteps_cons, hcond s i hs]
      exact and_congr_right fun _ => ih (hkeep s i hs)

/-- The exact form of the invariant rule, for runs of the inputs in question and relative to a
background invariant `base` that their steps keep. -/
theorem forall_visited_iff_of_mem {base : State → Prop} {allowed : Input → Prop}
    (hbase : ∀ s i, base s → base (step s i))
    (hstep : ∀ s i, allowed i → base s → inv s → (inv (step s i) ↔ cond s i)) {s : State}
    (hb : base s) (hs : inv s) {inputs : List Input} (hinputs : ∀ i ∈ inputs, allowed i) :
    (∀ t ∈ visited step s inputs, inv t) ↔ AllSteps step cond s inputs := by
  induction inputs generalizing s with
  | nil => simpa using hs
  | cons i rest ih =>
      rw [visited_cons, List.forall_mem_cons, allSteps_cons]
      rw [List.forall_mem_cons] at hinputs
      have hi := hstep s i hinputs.1 hb hs
      have hnext : inv (step s i) →
          ((∀ t ∈ visited step (step s i) rest, inv t) ↔ AllSteps step cond (step s i) rest) :=
        fun h => ih (hbase s i hb) h hinputs.2
      constructor
      · rintro ⟨-, hrest⟩
        have hmid : inv (step s i) := hrest _ (start_mem_visited _ _)
        exact ⟨hi.mp hmid, (hnext hmid).mp hrest⟩
      · rintro ⟨hcond, hrest⟩
        have hmid : inv (step s i) := hi.mpr hcond
        exact ⟨hs, (hnext hmid).mpr hrest⟩

/-- The exact form for runs of any inputs. -/
theorem forall_visited_iff {base : State → Prop} (hbase : ∀ s i, base s → base (step s i))
    (hstep : ∀ s i, base s → inv s → (inv (step s i) ↔ cond s i)) {s : State}
    (hb : base s) (hs : inv s) (inputs : List Input) :
    (∀ t ∈ visited step s inputs, inv t) ↔ AllSteps step cond s inputs :=
  forall_visited_iff_of_mem hbase (fun s i _ => hstep s i) hb hs (fun _ _ => trivial)

/-- The exact form without a background invariant. -/
theorem forall_visited_iff_of_step (hstep : ∀ s i, inv s → (inv (step s i) ↔ cond s i)) {s : State}
    (hs : inv s) (inputs : List Input) :
    (∀ t ∈ visited step s inputs, inv t) ↔ AllSteps step cond s inputs :=
  @forall_visited_iff _ _ _ _ _ (fun _ => True) (fun _ _ _ => trivial) (fun s i _ h => hstep s i h) s trivial hs
    inputs

/-- The exact form for a property that is weaker than what carries it from step to step. -/
theorem forall_visited_iff_of_strong {weak strong : State → Prop} (hweak : ∀ s, strong s → weak s)
    (honly : ∀ s i, strong s → weak (step s i) → cond s i)
    (hkeep : ∀ s i, strong s → cond s i → strong (step s i)) {s : State} (hs : strong s)
    (inputs : List Input) : (∀ t ∈ visited step s inputs, weak t) ↔ AllSteps step cond s inputs := by
  induction inputs generalizing s with
  | nil => simpa using hweak s hs
  | cons i rest ih =>
      rw [visited_cons, List.forall_mem_cons, allSteps_cons]
      constructor
      · rintro ⟨-, hrest⟩
        have hcond : cond s i := honly s i hs (hrest _ (start_mem_visited _ _))
        exact ⟨hcond, (ih (hkeep s i hs hcond)).mp hrest⟩
      · rintro ⟨hcond, hrest⟩
        exact ⟨hweak s hs, (ih (hkeep s i hs hcond)).mpr hrest⟩

/-- The exact form for a condition on the steps: where the invariant holds a step meets `cond` exactly if
it meets `cond'`, and such a step keeps the invariant. -/
theorem allSteps_and_forall_visited_iff {cond' : State → Input → Prop} {allowed : Input → Prop}
    (hstep : ∀ s i, allowed i → inv s → (cond s i ↔ cond' s i))
    (hkeep : ∀ s i, allowed i → inv s → cond' s i → inv (step s i)) {s : State} (hs : inv s)
    {inputs : List Input} (hinputs : ∀ i ∈ inputs, allowed i) :
    (AllSteps step cond s inputs ∧ ∀ t ∈ visited step s inputs, inv t) ↔ AllSteps step cond' s inputs := by
  induction inputs generalizing s with
  | nil => simpa using hs
  | cons i rest ih =>
      rw [List.forall_mem_cons] at hinputs
      rw [visited_cons, List.forall_mem_cons, allSteps_cons, allSteps_cons, hstep s i hinputs.1 hs]
      constructor
      · rintro ⟨⟨hcond, hrest⟩, -, hvisited⟩
        exact ⟨hcond, (ih (hkeep s i hinputs.1 hs hcond) hinputs.2).mp ⟨hrest, hvisited⟩⟩
      · rintro ⟨hcond, hrest⟩
        obtain ⟨hsteps, hvisited⟩ := (ih (hkeep s i hinputs.1 hs hcond) hinputs.2).mpr hrest
        exact ⟨⟨hcond, hsteps⟩, hs, hvisited⟩

/-- The exact form for a condition on the steps and an invariant that only together are as good as `cond'`. -/
theorem allSteps_and_forall_visited_iff_of_step {cond' : State → Input → Prop}
    (hstep : ∀ s i, inv s → (cond s i ∧ inv (step s i) ↔ cond' s i)) {s : State} (hs : inv s)
    (inputs : List Input) :
    (AllSteps step cond s inputs ∧ ∀ t ∈ visited step s inputs, inv t) ↔ AllSteps step cond' s inputs := by
  induction inputs generalizing s with
  | nil => simpa using hs
  | cons i rest ih =>
      rw [visited_cons, List.forall_mem_cons, allSteps_cons, allSteps_cons, ← hstep s i hs]
      constructor
      · rintro ⟨⟨hcond, hrest⟩, -, hvisited⟩
        have hmid : inv (step s i) := hvisited _ (start_mem_visited _ _)
        exact ⟨⟨hcond, hmid⟩, (ih hmid).mp ⟨hrest, hvisited⟩⟩
      · rintro ⟨⟨hcond, hmid⟩, hrest⟩
        obtain ⟨hsteps, hvisited⟩ := (ih hmid).mpr hrest
        exact ⟨⟨hcond, hsteps⟩, hs, hvisited⟩

/-! ### What was taken before -/

section History

variable {Act : Type}

/-- Every act of a history meets a condition on it and on the acts before it. -/
def AtEach (p : List Act → Act → Prop) : List Act → List Act → Prop
  | _, [] => True
  | past, a :: rest => p past a ∧ AtEach p (past ++ [a]) rest

variable {p : List Act → Act → Prop}

@[simp] theorem atEach_nil (past : List Act) : AtEach p past [] := trivial

@[simp] theorem atEach_cons (past : List Act) (a : Act) (rest : List Act) :
    AtEach p past (a :: rest) ↔ p past a ∧ AtEach p (past ++ [a]) rest := Iff.rfl

/-- The acts a run takes, where a step takes one or none. -/
def history (step : State → Input → State) (taken : State → Input → Option Act) : State → List Input → List Act
  | _, [] => []
  | s, i :: rest => (taken s i).toList ++ history step taken (step s i) rest

/-- A history meets a condition exactly if the steps of its run meet theirs. `inv` links the acts taken
so far with the state they led to. -/
theorem atEach_history_iff {taken : State → Input → Option Act} {inv : List Act → State → Prop}
    (hnone : ∀ past s i, inv past s → taken s i = none → cond s i ∧ inv past (step s i))
    (hsome : ∀ past s i a, inv past s → taken s i = some a →
      (p past a ↔ cond s i) ∧ (p past a → inv (past ++ [a]) (step s i)))
    {past : List Act} {s : State} (hs : inv past s) (inputs : List Input) :
    AtEach p past (history step taken s inputs) ↔ AllSteps step cond s inputs := by
  induction inputs generalizing past s with
  | nil => exact Iff.rfl
  | cons i rest ih =>
      rw [history, allSteps_cons]
      cases htaken : taken s i with
      | none =>
          obtain ⟨hcond, hnext⟩ := hnone past s i hs htaken
          rw [Option.toList_none, List.nil_append, ih hnext]
          exact ⟨fun h => ⟨hcond, h⟩, And.right⟩
      | some a =>
          obtain ⟨hiff, hnext⟩ := hsome past s i a hs htaken
          rw [Option.toList_some, List.singleton_append, atEach_cons, hiff]
          exact and_congr_right fun hcond => ih (hnext (hiff.mpr hcond))

end History

end Runs
