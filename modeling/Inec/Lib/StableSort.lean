import Mathlib.Data.List.Sort

/-!
# Sorting by a key

Insertion sort by a key leaves elements of one key in their order, so two lists are sorted into one and the
same list exactly if they hold the same elements of every key in the same order. Lists that only are
permutations of each other agree in the keys once they are sorted, and no more.
-/

namespace StableSort

variable {α κ : Type} [LinearOrder κ] (key : α → κ)

def sort (l : List α) : List α := l.insertionSort fun a b => key a ≤ key b

instance total_key : Std.Total fun a b : α => key a ≤ key b := ⟨fun a b => le_total (key a) (key b)⟩

instance isTrans_key : IsTrans α fun a b => key a ≤ key b := ⟨fun _ _ _ => le_trans⟩

variable {key}

theorem sort_perm (l : List α) : (sort key l).Perm l := List.perm_insertionSort _ l

theorem pairwise_sort (l : List α) : (sort key l).Pairwise fun a b => key a ≤ key b :=
  List.pairwise_insertionSort _ l

/-- The elements of one key keep their order. -/
theorem filter_sort (k : κ) (l : List α) :
    (sort key l).filter (fun a => key a = k) = l.filter fun a => key a = k := by
  have hone : (l.filter fun a => key a = k).Pairwise fun a b => key a ≤ key b := by
    apply List.pairwise_of_forall_mem_list
    intro a ha b hb
    rw [List.mem_filter, decide_eq_true_eq] at ha hb
    rw [ha.2, hb.2]
  have hsublist : (l.filter fun a => key a = k).Sublist (sort key l) :=
    List.sublist_insertionSort hone List.filter_sublist
  have hkept := hsublist.filter fun a => key a = k
  rw [List.filter_filter] at hkept
  simp only [Bool.and_self] at hkept
  exact (hkept.eq_of_length ((sort_perm l).filter _).length_eq.symm).symm

/-- Sorted lists with the same elements of every key are the same. -/
theorem eq_of_filter_eq {l m : List α} (hl : l.Pairwise fun a b => key a ≤ key b)
    (hm : m.Pairwise fun a b => key a ≤ key b)
    (h : ∀ k, l.filter (fun a => key a = k) = m.filter fun a => key a = k) : l = m := by
  have hsubset {l m : List α} (h : ∀ k, l.filter (fun a => key a = k) = m.filter fun a => key a = k) :
      l ⊆ m := by
    intro a ha
    have hfiltered : a ∈ l.filter fun b => key b = key a := by
      rw [List.mem_filter]
      exact ⟨ha, decide_eq_true rfl⟩
    rw [h] at hfiltered
    exact List.mem_of_mem_filter hfiltered
  induction l generalizing m with
  | nil => exact (List.eq_nil_of_subset_nil (hsubset fun k => (h k).symm)).symm
  | cons a l ih =>
      cases m with
      | nil => exact List.eq_nil_of_subset_nil (hsubset h)
      | cons b m =>
          rw [List.pairwise_cons] at hl hm
          -- each head has the least key of its list, and both lists have the same keys
          have hkeys : key a = key b := by
            apply le_antisymm
            · rcases List.mem_cons.mp (hsubset (fun k => (h k).symm) List.mem_cons_self) with heq | hmem
              · rw [heq]
              · exact hl.1 b hmem
            · rcases List.mem_cons.mp (hsubset h List.mem_cons_self) with heq | hmem
              · rw [heq]
              · exact hm.1 a hmem
          have hheads := h (key a)
          simp only [List.filter_cons, hkeys, decide_true, if_true] at hheads
          obtain ⟨rfl, -⟩ := List.cons.inj hheads
          rw [ih hl.2 hm.2]
          intro k
          have hk := h k
          rw [List.filter_cons, List.filter_cons] at hk
          split at hk
          · exact (List.cons.inj hk).2
          · exact hk

theorem sort_eq_iff {l m : List α} :
    sort key l = sort key m ↔ ∀ k, l.filter (fun a => key a = k) = m.filter fun a => key a = k := by
  constructor
  · intro h k
    rw [← filter_sort, h, filter_sort]
  · intro h
    apply eq_of_filter_eq (pairwise_sort l) (pairwise_sort m)
    intro k
    rw [filter_sort, filter_sort, h]

/-- A sorted list is made of what is below a key, what is at it and what is above it. -/
theorem eq_append_of_pairwise {l : List α} (h : l.Pairwise fun a b => key a ≤ key b) (k : κ) :
    l = (l.filter fun a => key a < k) ++ (l.filter fun a => key a = k) ++ l.filter fun a => k < key a := by
  induction l with
  | nil => rfl
  | cons a l ih =>
      rw [List.pairwise_cons] at h
      have hl := ih h.2
      rw [List.filter_cons, List.filter_cons, List.filter_cons]
      obtain hlt | heq | hgt := lt_trichotomy (key a) k
      · rw [if_pos (by simpa using hlt), if_neg (by simpa using hlt.ne),
          if_neg (by simpa using hlt.le), List.cons_append, List.cons_append, ← hl]
      · have hbelow : l.filter (fun b => key b < k) = [] :=
          List.filter_eq_nil_iff.mpr fun b hb => by simpa using heq ▸ h.1 b hb
        rw [hbelow, List.nil_append] at hl
        rw [if_neg (by simpa using heq.ge), if_pos (by simpa using heq), if_neg (by simpa using heq.le), hbelow,
          List.nil_append, List.cons_append, ← hl]
      · have hbelow : l.filter (fun b => key b < k) = [] :=
          List.filter_eq_nil_iff.mpr fun b hb => by simpa using hgt.le.trans (h.1 b hb)
        have hat : l.filter (fun b => key b = k) = [] :=
          List.filter_eq_nil_iff.mpr fun b hb => by simpa using (hgt.trans_le (h.1 b hb)).ne'
        rw [hbelow, hat, List.nil_append, List.nil_append] at hl
        rw [if_neg (by simpa using hgt.le), if_neg (by simpa using hgt.ne'),
          if_pos (by simpa using hgt), hbelow, hat, List.nil_append, List.nil_append, ← hl]

/-- Sorted, permutations have their keys in one order. -/
theorem map_sort_eq_of_perm {l m : List α} (h : l.Perm m) : (sort key l).map key = (sort key m).map key := by
  have hperm : ((sort key l).map key).Perm ((sort key m).map key) :=
    ((sort_perm l).trans (h.trans (sort_perm m).symm)).map key
  have hpairwise (l : List α) : ((sort key l).map key).Pairwise (· ≤ ·) := List.pairwise_map.mpr (pairwise_sort l)
  exact hperm.eq_of_pairwise (fun _ _ _ _ => le_antisymm) (hpairwise l) (hpairwise m)

end StableSort
