import Mathlib.Data.List.Nodup
import Mathlib.Logic.Function.Basic

/-!
# Maps whose entries expire

A map from keys to the instant at which the entry of the key ends. Writing a key replaces its entry, whichever
of the two ends later; a sweep drops the entries that have ended.
-/

namespace Expiring

variable {Key : Type} [DecidableEq Key]

/-- Write a key. -/
def put (m : Key → Option Nat) (k : Key) (expiry : Nat) : Key → Option Nat := Function.update m k (some expiry)

/-- Write keys one after the other. -/
def putAll (m : Key → Option Nat) (entries : List (Key × Nat)) : Key → Option Nat :=
  entries.foldl (fun m e => put m e.1 e.2) m

/-- Drop what ended before an instant. -/
def sweep (m : Key → Option Nat) (now : Nat) : Key → Option Nat :=
  fun k => (m k).filter fun expiry => decide (now ≤ expiry)

/-- `after` is `before` with the given entries written over it. -/
structure Overwrites (before after : Key → Option Nat) (entries : List (Key × Nat)) : Prop where
  written : ∀ e ∈ entries, after e.1 = some e.2
  kept : ∀ k, k ∉ entries.map Prod.fst → after k = before k

variable {m : Key → Option Nat} {k : Key} {expiry : Nat} {entries : List (Key × Nat)}

@[simp] theorem put_self (m : Key → Option Nat) (k : Key) (expiry : Nat) : put m k expiry k = some expiry :=
  Function.update_self ..

theorem put_of_ne {k' : Key} (h : k' ≠ k) : put m k expiry k' = m k' := Function.update_of_ne h ..

theorem putAll_of_not_mem (h : k ∉ entries.map Prod.fst) : putAll m entries k = m k := by
  induction entries generalizing m with
  | nil => rfl
  | cons e rest ih =>
      rw [List.map_cons, List.mem_cons, not_or] at h
      exact (ih h.2).trans (put_of_ne h.1)

theorem putAll_of_mem (hnodup : (entries.map Prod.fst).Nodup) {e : Key × Nat} (h : e ∈ entries) :
    putAll m entries e.1 = some e.2 := by
  induction entries generalizing m with
  | nil => cases h
  | cons first rest ih =>
      rw [List.map_cons, List.nodup_cons] at hnodup
      rcases List.mem_cons.mp h with rfl | h
      · exact (putAll_of_not_mem hnodup.1).trans (put_self ..)
      · exact ih hnodup.2 h

theorem overwrites_putAll (hnodup : (entries.map Prod.fst).Nodup) : Overwrites m (putAll m entries) entries :=
  ⟨fun _ he => putAll_of_mem hnodup he, fun _ hk => putAll_of_not_mem hk⟩

theorem overwrites_put (m : Key → Option Nat) (k : Key) (expiry : Nat) :
    Overwrites m (put m k expiry) [(k, expiry)] := by
  have hnodup : (List.map Prod.fst [(k, expiry)]).Nodup := List.nodup_singleton k
  exact overwrites_putAll hnodup

/-- A key that is written twice keeps what is written last. -/
theorem overwrites_putAll_put (m : Key → Option Nat) (k : Key) (expiry : Nat)
    (hnodup : (entries.map Prod.fst).Nodup) :
    Overwrites m (putAll (put m k expiry) entries)
      (entries ++ if k ∈ entries.map Prod.fst then [] else [(k, expiry)]) := by
  have hall := @overwrites_putAll _ _ (put m k expiry) _ hnodup
  split
  case isTrue hk =>
    rw [List.append_nil]
    refine ⟨hall.written, fun k' hk' => (hall.kept k' hk').trans (put_of_ne ?_)⟩
    intro heq
    exact hk' (heq ▸ hk)
  case isFalse hk =>
    refine ⟨?_, ?_⟩
    · intro e he
      rcases List.mem_append.mp he with he | he
      · exact hall.written e he
      · rw [List.mem_singleton.mp he]
        exact (hall.kept k hk).trans (put_self ..)
    · intro k' hk'
      rw [List.map_append, List.mem_append, not_or] at hk'
      refine (hall.kept k' hk'.1).trans (put_of_ne ?_)
      intro heq
      exact hk'.2 (List.mem_singleton.mpr heq)

omit [DecidableEq Key] in
theorem sweep_eq_some {now : Nat} : sweep m now k = some expiry ↔ m k = some expiry ∧ now ≤ expiry := by
  rw [sweep, Option.filter_eq_some_iff, decide_eq_true_iff]

end Expiring
