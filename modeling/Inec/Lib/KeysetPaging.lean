import Mathlib.Data.List.Sort

/-!
# Keyset paging

`SELECT ... WHERE key > cursor ORDER BY key LIMIT size`: the first rows past the cursor, in the order of their
keys. The next page starts from the last key of the one before. As keys are unique, a page takes up every row
up to its last key, and a page that is not full takes up every row there is.
-/

namespace KeysetPaging

variable {Row Key : Type} [LinearOrder Key] (key : Row → Key)

def page (size : Nat) (cursor : Key) (rows : List Row) : List Row :=
  ((rows.filter fun row => cursor < key row).insertionSort fun a b => key a ≤ key b).take size

variable {key} {size : Nat} {cursor : Key} {rows : List Row} {row : Row}

theorem mem_of_mem_page (h : row ∈ page key size cursor rows) : row ∈ rows ∧ cursor < key row := by
  have hmem := (List.mem_insertionSort _).mp (List.mem_of_mem_take h)
  obtain ⟨hrow, hlt⟩ := List.mem_filter.mp hmem
  exact ⟨hrow, of_decide_eq_true hlt⟩

section Sorted

/-- The rows past the cursor, in order. -/
private theorem sorted_le :
    ((rows.filter fun row => cursor < key row).insertionSort fun a b => key a ≤ key b).Pairwise
      fun a b => key a ≤ key b := by
  have htotal : Std.Total fun a b : Row => key a ≤ key b := ⟨fun a b => le_total (key a) (key b)⟩
  have htrans : IsTrans Row fun a b => key a ≤ key b := ⟨fun _ _ _ => le_trans⟩
  exact List.pairwise_insertionSort _ _

/-- A page goes upwards, with no key twice. -/
theorem page_increasing (hkeys : (rows.map key).Nodup) :
    (page key size cursor rows).Pairwise fun a b => key a < key b := by
  have hnodup : (((rows.filter fun row => cursor < key row).insertionSort fun a b =>
      key a ≤ key b).map key).Nodup := by
    rw [((List.perm_insertionSort _ _).map key).nodup_iff]
    exact (List.filter_sublist.map key).nodup hkeys
  have hstrict := sorted_le.and (List.pairwise_map.mp hnodup)
  exact (hstrict.imp fun h => lt_of_le_of_ne h.1 h.2).sublist (List.take_sublist _ _)

/-- A row past the cursor is on the page, or the page is full and ends before it. -/
theorem mem_page_or (hrow : row ∈ rows) (hlt : cursor < key row) :
    row ∈ page key size cursor rows ∨
      (page key size cursor rows).length = size ∧ ∀ other ∈ page key size cursor rows, key other ≤ key row := by
  have hmem : row ∈ (rows.filter fun row => cursor < key row).insertionSort fun a b => key a ≤ key b :=
    (List.mem_insertionSort _).mpr (List.mem_filter.mpr ⟨hrow, decide_eq_true hlt⟩)
  have hsorted := @sorted_le Row Key _ key cursor rows
  rw [page]
  revert hmem hsorted
  generalize ((rows.filter fun row => cursor < key row).insertionSort fun a b => key a ≤ key b) = sorted
  intro hmem hsorted
  rw [← List.take_append_drop size sorted, List.mem_append] at hmem
  rcases hmem with hmem | hmem
  · exact Or.inl hmem
  · right
    rw [← List.take_append_drop size sorted, List.pairwise_append] at hsorted
    refine ⟨?_, fun other hother => hsorted.2.2 other hother row hmem⟩
    have hlong : (sorted.drop size).length ≠ 0 :=
      fun hzero => List.ne_nil_of_mem hmem (List.length_eq_zero_iff.mp hzero)
    rw [List.length_drop] at hlong
    rw [List.length_take]
    omega

end Sorted

end KeysetPaging
