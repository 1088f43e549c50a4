import Mathlib.Algebra.BigOperators.Group.List.Basic
import Mathlib.Data.List.Dedup
import Mathlib.Data.List.Sort

/-!
# Grouping

Two ways to sum values by key. `accumulate` goes through the entries and adds each value to what a map holds for its
key; the map is a list in the order of its keys. `grouped` is the set based reading: the distinct keys, each with the
sum of its values. They agree (`accumulate_eq_grouped`).
-/

namespace Grouping

variable {Key M : Type} [LinearOrder Key] [AddCommMonoid M]

/-- `m[k] += v`, where a missing key counts as zero. -/
def add (k : Key) (v : M) : List (Key × M) → List (Key × M)
  | [] => [(k, v)]
  | (k', v') :: rest =>
      if k < k' then (k, v) :: (k', v') :: rest
      else if k = k' then (k', v' + v) :: rest
      else (k', v') :: add k v rest

/-- Add the entries to a map one after the other. -/
def addAll (m entries : List (Key × M)) : List (Key × M) := entries.foldl (fun m e => add e.1 e.2 m) m

def accumulate (entries : List (Key × M)) : List (Key × M) := addAll [] entries

/-- `SUM(v)` over the entries of one key. -/
def total (entries : List (Key × M)) (k : Key) : M := ((entries.filter fun e => e.1 = k).map Prod.snd).sum

/-- The keys of `GROUP BY`, in order. -/
def keys (entries : List (Key × M)) : List Key := ((entries.map Prod.fst).dedup).insertionSort (· ≤ ·)

def grouped (entries : List (Key × M)) : List (Key × M) := (keys entries).map fun k => (k, total entries k)

@[simp] theorem addAll_nil (m : List (Key × M)) : addAll m [] = m := rfl

@[simp] theorem addAll_cons (m : List (Key × M)) (e : Key × M) (entries : List (Key × M)) :
    addAll m (e :: entries) = addAll (add e.1 e.2 m) entries := rfl

theorem addAll_append (m first second : List (Key × M)) :
    addAll m (first ++ second) = addAll (addAll m first) second := List.foldl_append

theorem total_cons (e : Key × M) (entries : List (Key × M)) (k : Key) :
    total (e :: entries) k = (if e.1 = k then e.2 else 0) + total entries k := by
  rw [total, List.filter_cons]
  by_cases h : e.1 = k
  · simp [h, total]
  · simp [h, total]

/-! ### Adding one entry -/

theorem total_add (k : Key) (v : M) (m : List (Key × M)) (k' : Key) :
    total (add k v m) k' = total m k' + if k = k' then v else 0 := by
  induction m with
  | nil =>
      rw [add, total_cons]
      exact add_comm _ _
  | cons e rest ih =>
      obtain ⟨k₀, v₀⟩ := e
      unfold add
      split
      · rw [total_cons, add_comm]
      · split
        · rename_i heq
          subst heq
          rw [total_cons, total_cons]
          by_cases h : k = k'
          · simp only [h, if_true]
            exact add_right_comm _ _ _
          · simp only [h, if_false, add_zero]
        · rw [total_cons, ih, total_cons, add_assoc]

theorem mem_keys_add (k : Key) (v : M) (m : List (Key × M)) (k' : Key) :
    k' ∈ (add k v m).map Prod.fst ↔ k' = k ∨ k' ∈ m.map Prod.fst := by
  induction m with
  | nil => simp [add]
  | cons e rest ih =>
      obtain ⟨k₀, v₀⟩ := e
      unfold add
      split
      · simp
      · split
        · rename_i heq
          simp [heq]
        · simp only [List.map_cons, List.mem_cons, ih]
          exact or_left_comm

theorem sorted_add (k : Key) (v : M) {m : List (Key × M)} (h : (m.map Prod.fst).Pairwise (· < ·)) :
    ((add k v m).map Prod.fst).Pairwise (· < ·) := by
  induction m with
  | nil => exact List.pairwise_singleton _ _
  | cons e rest ih =>
      obtain ⟨k₀, v₀⟩ := e
      obtain ⟨hfirst, hrest⟩ := List.pairwise_cons.mp h
      unfold add
      split
      · rename_i hlt
        refine List.pairwise_cons.mpr ⟨?_, h⟩
        intro k' hk'
        rcases List.mem_cons.mp hk' with rfl | hk'
        · exact hlt
        · exact hlt.trans (hfirst k' hk')
      · rename_i hge
        split
        · exact h
        · rename_i hne
          refine List.pairwise_cons.mpr ⟨?_, ih hrest⟩
          intro k' hk'
          rcases (mem_keys_add k v rest k').mp hk' with rfl | hk'
          · exact lt_of_le_of_ne (not_lt.mp hge) (Ne.symm hne)
          · exact hfirst k' hk'

/-! ### Adding all -/

theorem total_addAll (m entries : List (Key × M)) (k : Key) :
    total (addAll m entries) k = total m k + total entries k := by
  induction entries generalizing m with
  | nil => simp [total]
  | cons e rest ih => rw [addAll_cons, ih, total_add, total_cons, add_assoc]

theorem mem_keys_addAll (m entries : List (Key × M)) (k : Key) :
    k ∈ (addAll m entries).map Prod.fst ↔ k ∈ m.map Prod.fst ∨ k ∈ entries.map Prod.fst := by
  induction entries generalizing m with
  | nil => simp
  | cons e rest ih =>
      rw [addAll_cons, ih, mem_keys_add, List.map_cons, List.mem_cons]
      tauto

theorem sorted_addAll {m : List (Key × M)} (h : (m.map Prod.fst).Pairwise (· < ·)) (entries : List (Key × M)) :
    ((addAll m entries).map Prod.fst).Pairwise (· < ·) := by
  induction entries generalizing m with
  | nil => exact h
  | cons e rest ih => exact ih (sorted_add e.1 e.2 h)

/-- A map says of each of its keys what it adds up to. -/
theorem eq_map_total {m : List (Key × M)} (h : (m.map Prod.fst).Nodup) :
    m = (m.map Prod.fst).map fun k => (k, total m k) := by
  induction m with
  | nil => rfl
  | cons e rest ih =>
      obtain ⟨hfresh, hrest⟩ := List.nodup_cons.mp h
      have hnone : total rest e.1 = 0 := by
        have hfilter : (rest.filter fun e' => e'.1 = e.1) = [] := by
          rw [List.filter_eq_nil_iff]
          intro e' he' heq
          exact hfresh ((of_decide_eq_true heq : e'.1 = e.1) ▸ List.mem_map_of_mem he')
        rw [total, hfilter]
        rfl
      have htail : rest = (rest.map Prod.fst).map fun k => (k, total (e :: rest) k) := by
        refine (ih hrest).trans (List.map_congr_left fun k hk => ?_)
        have hne : e.1 ≠ k := by
          rintro rfl
          exact hfresh hk
        rw [total_cons, if_neg hne, zero_add]
      rw [List.map_cons, List.map_cons, total_cons, if_pos rfl, hnone, add_zero, ← htail]

theorem accumulate_keys (entries : List (Key × M)) : (accumulate entries).map Prod.fst = keys entries := by
  have hsorted : ((accumulate entries).map Prod.fst).Pairwise (· < ·) :=
    sorted_addAll List.Pairwise.nil entries
  have hnodup : ((accumulate entries).map Prod.fst).Nodup := hsorted.imp fun h => ne_of_lt h
  have hperm : ((accumulate entries).map Prod.fst).Perm (keys entries) := by
    refine (List.perm_ext_iff_of_nodup hnodup ?_).mpr fun k => ?_
    · exact (List.perm_insertionSort _ _).nodup_iff.mpr (List.nodup_dedup _)
    · rw [keys, List.mem_insertionSort, List.mem_dedup, accumulate, mem_keys_addAll]
      simp
  have hle : ((accumulate entries).map Prod.fst).Pairwise (· ≤ ·) := hsorted.imp le_of_lt
  exact List.Perm.eq_of_pairwise' hle (List.pairwise_insertionSort _ _) hperm

/-- Going through the entries gives the sums of the groups. -/
theorem accumulate_eq_grouped (entries : List (Key × M)) : accumulate entries = grouped entries := by
  have hsorted : ((accumulate entries).map Prod.fst).Pairwise (· < ·) :=
    sorted_addAll List.Pairwise.nil entries
  rw [eq_map_total (hsorted.imp fun h => ne_of_lt h), accumulate_keys, grouped]
  refine List.map_congr_left fun k _ => ?_
  rw [accumulate, total_addAll]
  simp [total]

theorem total_perm {entries entries' : List (Key × M)} (h : entries.Perm entries') (k : Key) :
    total entries k = total entries' k := ((h.filter _).map _).sum_eq

omit [AddCommMonoid M] in
theorem keys_perm {entries entries' : List (Key × M)} (h : entries.Perm entries') : keys entries = keys entries' := by
  have hdedup : (entries.map Prod.fst).dedup.Perm (entries'.map Prod.fst).dedup := (h.map _).dedup
  have hsort : (keys entries).Perm (keys entries') :=
    ((List.perm_insertionSort _ _).trans hdedup).trans (List.perm_insertionSort _ _).symm
  exact List.Perm.eq_of_pairwise' (List.pairwise_insertionSort _ _) (List.pairwise_insertionSort _ _) hsort

/-- The order of the entries does not matter. -/
theorem accumulate_perm {entries entries' : List (Key × M)} (h : entries.Perm entries') :
    accumulate entries = accumulate entries' := by
  rw [accumulate_eq_grouped, accumulate_eq_grouped, grouped, grouped, keys_perm h]
  exact List.map_congr_left fun k _ => by rw [total_perm h]

end Grouping
