import Mathlib.Data.List.Induction

/-!
# Rows by their owner

Rows that name their owner by its place in a list: counted owner by owner they are all counted, in another order.
-/

namespace Owned

variable {α ρ β : Type} {p : ρ → Bool} {value : ρ → β} {values : α → List β}

/-- The values of the rows are those of their owners, one owner after the other. -/
theorem perm_flatMap (owner : ρ → Nat) {rows : List ρ} {owners : List α}
    (howner : ∀ r ∈ rows, owner r < owners.length)
    (hvalues : ∀ i x, owners[i]? = some x → ((rows.filter (owner · == i)).filter p).map value = values x) :
    ((rows.filter p).map value).Perm (owners.flatMap values) := by
  induction owners using List.reverseRecOn generalizing rows with
  | nil =>
      have hnil : rows = [] := List.eq_nil_iff_forall_not_mem.mpr fun r hr => absurd (howner r hr)
        (Nat.not_lt_zero _)
      rw [hnil]
      exact List.Perm.nil
  | append_singleton init last ih =>
      rw [List.flatMap_append, List.flatMap_singleton]
      have hlast : ((rows.filter (owner · == init.length)).filter p).map value = values last :=
        hvalues init.length last (by rw [List.getElem?_append_right (Nat.le_refl _), Nat.sub_self]; rfl)
      have hinit : (((rows.filter (!owner · == init.length)).filter p).map value).Perm (init.flatMap values) := by
        apply ih
        · intro r hr
          obtain ⟨hr, hne⟩ := List.mem_filter.mp hr
          have hlt := howner r hr
          rw [List.length_append, List.length_singleton] at hlt
          have hne' : owner r ≠ init.length := by simpa using hne
          omega
        · intro i x hx
          have hlt : i < init.length := (List.getElem?_eq_some_iff.mp hx).1
          have hsame : (rows.filter (!owner · == init.length)).filter (owner · == i) =
              rows.filter (owner · == i) := by
            rw [List.filter_filter]
            apply List.filter_congr
            intro r _
            by_cases hi : owner r = i
            · have hne : (owner r == init.length) = false := by
                rw [beq_eq_false_iff_ne]
                omega
              rw [hne, Bool.not_false, Bool.and_true]
            · rw [beq_eq_false_iff_ne.mpr hi, Bool.false_and]
          rw [hsame]
          exact hvalues i x (by rw [List.getElem?_append_left hlt]; exact hx)
      have hsplit := ((List.filter_append_perm (owner · == init.length) rows).filter p).map value
      rw [List.filter_append, List.map_append, hlast] at hsplit
      exact hsplit.symm.trans ((List.perm_append_comm).trans (hinit.append_right _))

end Owned
