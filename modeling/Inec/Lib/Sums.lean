import Inec.Lib.Rows
import Mathlib.Algebra.BigOperators.Group.List.Basic
import Mathlib.Algebra.Ring.Int.Defs
import Mathlib.Algebra.Ring.Nat

/-!
# Sums over lists

Counting a weight once per row and once per key: `sum_weights_eq` turns a join of rows with weighted
keys into a sum over the keys, and `sum_map_eq_iff_of_le` compares two such sums term by term. An update of
one row changes a column's sum by what it changes in that row.
-/

namespace Sums

variable {α β : Type}

theorem sum_map_filter {M : Type} [AddMonoid M] (p : α → Bool) (f : α → M) (l : List α) :
    ((l.filter p).map f).sum = (l.map fun x => if p x then f x else 0).sum := by
  induction l with
  | nil => rfl
  | cons x rest ih =>
      rw [List.filter_cons, List.map_cons, List.sum_cons, ← ih]
      split <;> simp

/-- The weights of the keys that the rows match, summed row by row, is each weight times the number of
rows that match its key. -/
theorem sum_weights_eq (related : α → β → Bool) (weight : β → Nat) (rows : List α) (keys : List β) :
    (rows.map fun r => ((keys.filter (related r)).map weight).sum).sum =
      (keys.map fun k => weight k * rows.countP fun r => related r k).sum := by
  induction rows with
  | nil => simp
  | cons r rest ih =>
      rw [List.map_cons, List.sum_cons, ih, sum_map_filter, ← List.sum_map_add]
      congr 1
      apply List.map_congr_left
      intro k _
      rw [List.countP_cons]
      split
      · rw [Nat.mul_add, Nat.mul_one, Nat.add_comm]
      · rw [Nat.zero_add, Nat.add_zero]

/-- Parts that take each item exactly once, if it belongs to the whole, and not at all otherwise: the sums of the
parts are the sum of the whole. -/
theorem sum_parts_eq {ι : Type} {part : ι → α → Bool} {whole : α → Bool} {parts : List ι} {items : List α}
    (weight : α → Int) (h : ∀ x ∈ items, parts.countP (fun i => part i x) = if whole x then 1 else 0) :
    (parts.map fun i => ((items.filter (part i)).map weight).sum).sum = ((items.filter whole).map weight).sum := by
  induction items with
  | nil =>
      apply List.sum_eq_zero
      intro n hn
      obtain ⟨i, -, rfl⟩ := List.mem_map.mp hn
      rfl
  | cons x rest ih =>
      have ih := ih fun y hy => h y (List.mem_cons_of_mem _ hy)
      have hpart (i : ι) : (((x :: rest).filter (part i)).map weight).sum =
          (if part i x then weight x else 0) + ((rest.filter (part i)).map weight).sum := by
        rw [List.filter_cons]
        split
        · rw [List.map_cons, List.sum_cons]
        · rw [Int.zero_add]
      have hcount : (parts.map fun i => if part i x then weight x else 0).sum =
          parts.countP (fun i => part i x) • weight x := by
        rw [← sum_map_filter, List.map_const', List.sum_replicate, List.countP_eq_length_filter]
      simp only [hpart]
      rw [List.sum_map_add, hcount, ih, h x List.mem_cons_self, List.filter_cons]
      split
      · rw [one_nsmul, List.map_cons, List.sum_cons]
      · rw [zero_nsmul, Int.zero_add]

theorem sum_map_le {f g : α → Nat} {l : List α} (h : ∀ x ∈ l, f x ≤ g x) :
    (l.map f).sum ≤ (l.map g).sum := by
  induction l with
  | nil => exact Nat.le_refl _
  | cons x rest ih =>
      have hx := h x List.mem_cons_self
      have hrest := ih fun y hy => h y (List.mem_cons_of_mem _ hy)
      simp only [List.map_cons, List.sum_cons]
      omega

/-- Sums of terms that are ordered one by one are equal exactly when the terms are. -/
theorem sum_map_eq_iff_of_le {f g : α → Nat} {l : List α} (h : ∀ x ∈ l, f x ≤ g x) :
    (l.map f).sum = (l.map g).sum ↔ ∀ x ∈ l, f x = g x := by
  induction l with
  | nil => simp
  | cons x rest ih =>
      have hx := h x List.mem_cons_self
      have hrest : ∀ y ∈ rest, f y ≤ g y := fun y hy => h y (List.mem_cons_of_mem _ hy)
      have hle := sum_map_le hrest
      rw [List.forall_mem_cons, ← ih hrest, List.map_cons, List.map_cons, List.sum_cons, List.sum_cons]
      omega

/-- A column that is read at the one row with a key. -/
theorem sum_map_at_key {Row Key : Type} [DecidableEq Key] {key : Row → Key} {rows : List Row}
    (hnodup : (rows.map key).Nodup) {r : Row} (hr : r ∈ rows) (f : Row → Int) :
    (rows.map fun r' => if key r = key r' then f r' else 0).sum = f r := by
  induction rows with
  | nil => cases hr
  | cons first rest ih =>
      rw [List.map_cons, List.nodup_cons] at hnodup
      rw [List.map_cons, List.sum_cons]
      rcases List.mem_cons.mp hr with rfl | hr
      · have hrest : (rest.map fun r' => if key r = key r' then f r' else 0).sum = 0 := by
          apply List.sum_eq_zero
          intro y hy
          obtain ⟨r', hr', rfl⟩ := List.mem_map.mp hy
          rw [if_neg]
          intro heq
          exact hnodup.1 (heq ▸ List.mem_map_of_mem hr')
        rw [hrest, if_pos rfl]
        omega
      · rw [ih hnodup.2 hr, if_neg]
        · omega
        · intro heq
          exact hnodup.1 (heq ▸ List.mem_map_of_mem hr)

/-- A weight that is given to the one row with a key. -/
theorem sum_map_ite_key {Row Key : Type} [DecidableEq Key] {key : Row → Key} {rows : List Row}
    (hnodup : (rows.map key).Nodup) {k : Key} (hk : k ∈ rows.map key) (x : Int) :
    (rows.map fun r => if k = key r then x else 0).sum = x := by
  obtain ⟨r, hr, rfl⟩ := List.mem_map.mp hk
  exact sum_map_at_key hnodup hr fun _ => x

/-- An update of the one row with a key changes the sum of a column by what it changes there. -/
theorem sum_map_update {Row Key : Type} [DecidableEq Key] {key : Row → Key} {rows : List Row}
    (hnodup : (rows.map key).Nodup) {r : Row} (hr : r ∈ rows) (f : Row → Row) (col : Row → Int) :
    ((Rows.update key (key r) f rows).map col).sum = (rows.map col).sum - col r + col (f r) := by
  induction rows with
  | nil => cases hr
  | cons first rest ih =>
      rw [List.map_cons, List.nodup_cons] at hnodup
      rw [Rows.update, List.map_cons, ← Rows.update, List.map_cons, List.map_cons, List.sum_cons, List.sum_cons]
      rcases List.mem_cons.mp hr with rfl | hr
      · -- no other row has the key
        have hrest : (Rows.update key (key r) f rest).map col = rest.map col := by
          apply Rows.map_update
          intro r' hr' hkey
          exact absurd (hkey ▸ List.mem_map_of_mem hr') hnodup.1
        rw [hrest, if_pos rfl]
        omega
      · have hne : key first ≠ key r := by
          intro heq
          exact hnodup.1 (heq ▸ List.mem_map_of_mem hr)
        rw [ih hnodup.2 hr, if_neg hne]
        omega

end Sums
