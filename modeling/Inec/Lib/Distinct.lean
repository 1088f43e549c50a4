import Inec.Lib.Sums
import Mathlib.Data.List.Dedup
import Mathlib.Data.Nat.Cast.Basic

/-!
# Counting distinct entries

`COUNT(DISTINCT ...)` is the length of a list without its duplicates. Summed over the groups of a grouped query,
the counts of distinct keys are not the number of keys: a key counts once for every value it has
(`sum_group_counts`).
-/

namespace Distinct

variable {α : Type} [DecidableEq α] {l m : List α}

/-- Part of a list has as many distinct entries as the whole exactly if it has all of them. -/
theorem length_dedup_eq_iff (h : l ⊆ m) : l.dedup.length = m.dedup.length ↔ m ⊆ l := by
  have hsubset {l m : List α} (h : l ⊆ m) : l.dedup.Subperm m.dedup := by
    apply List.subperm_of_subset (List.nodup_dedup l)
    intro a ha
    rw [List.mem_dedup] at ha ⊢
    exact h ha
  constructor
  · intro hlength a ha
    have hperm := (hsubset h).perm_of_length_le (Nat.le_of_eq hlength.symm)
    exact List.mem_dedup.mp (hperm.mem_iff.mpr (List.mem_dedup.mpr ha))
  · intro h'
    exact Nat.le_antisymm (hsubset h).length_le (hsubset h').length_le

/-- Lists with the same entries have as many distinct ones. -/
theorem length_eq_of_mem_iff (hl : l.Nodup) (h : ∀ a, a ∈ l ↔ a ∈ m) : l.length = m.dedup.length := by
  have hsubset : l ⊆ m := fun a ha => (h a).mp ha
  rw [← (length_dedup_eq_iff hsubset).mpr fun a ha => (h a).mpr ha, hl.dedup]

theorem length_dedup_pos (hne : l ≠ []) : 0 < l.dedup.length := by
  obtain ⟨a, ha⟩ := List.exists_mem_of_ne_nil l hne
  exact List.length_pos_of_mem (List.mem_dedup.mpr ha)

theorem length_dedup_eq_one_iff (hne : l ≠ []) : l.dedup.length = 1 ↔ ∀ a ∈ l, ∀ b ∈ l, a = b := by
  obtain ⟨a, ha⟩ := List.exists_mem_of_ne_nil l hne
  have hsubset : [a] ⊆ l := by
    intro b hb
    rw [List.mem_singleton.mp hb]
    exact ha
  have hlength := length_dedup_eq_iff hsubset
  rw [List.dedup_eq_self.mpr (List.nodup_singleton a), List.length_singleton] at hlength
  rw [eq_comm, hlength]
  constructor
  · intro h b hb c hc
    rw [List.mem_singleton.mp (h hb), List.mem_singleton.mp (h hc)]
  · intro h b hb
    exact List.mem_singleton.mpr (h b hb a ha)

section Groups

variable {Entity Code Value : Type}

/-- The rows of a join of units with their values. -/
def joined (code : Entity → Code) (values : Entity → List Value) (units : List Entity) : List (Code × Value) :=
  units.flatMap fun u => (values u).map fun v => (code u, v)

variable {code : Entity → Code} {values : Entity → List Value} {units : List Entity}

theorem mem_joined {row : Code × Value} :
    row ∈ joined code values units ↔ ∃ u ∈ units, code u = row.1 ∧ row.2 ∈ values u := by
  simp only [joined, List.mem_flatMap, List.mem_map]
  constructor
  · rintro ⟨u, hu, v, hv, rfl⟩
    exact ⟨u, hu, rfl, hv⟩
  · rintro ⟨u, hu, hcode, hv⟩
    exact ⟨u, hu, row.2, hv, by rw [hcode]⟩

variable [DecidableEq Code] [DecidableEq Value]

/-- The distinct keys of the group of a value are the units that have it. -/
theorem length_group (hcodes : (units.map code).Nodup) (v : Value) :
    (((joined code values units).filter fun row => row.2 = v).map (·.1)).dedup.length =
      units.countP fun u => (values u).contains v := by
  have hnodup : ((units.filter fun u => (values u).contains v).map code).Nodup :=
    hcodes.sublist (List.filter_sublist.map code)
  rw [List.countP_eq_length_filter, ← List.length_map code]
  refine (length_eq_of_mem_iff hnodup ?_).symm
  intro c
  simp only [List.mem_map, List.mem_filter, mem_joined, List.contains_iff_mem, decide_eq_true_eq]
  constructor
  · rintro ⟨u, ⟨hu, hv⟩, rfl⟩
    exact ⟨(code u, v), ⟨⟨u, hu, rfl, hv⟩, rfl⟩, rfl⟩
  · rintro ⟨row, ⟨⟨u, hu, hcode, hv⟩, rfl⟩, rfl⟩
    exact ⟨u, ⟨hu, hv⟩, hcode⟩

/-- Over all groups, a unit counts once for each of its distinct values. -/
theorem sum_group_counts (hcodes : (units.map code).Nodup) :
    ((((joined code values units).map (·.2)).dedup.map fun v =>
      (((joined code values units).filter fun row => row.2 = v).map (·.1)).dedup.length)).sum =
        (units.map fun u => (values u).dedup.length).sum := by
  have hweights := Sums.sum_weights_eq (fun u v => (values u).contains v) (fun _ => 1) units
    ((joined code values units).map (·.2)).dedup
  simp only [Nat.one_mul] at hweights
  simp only [length_group hcodes]
  rw [← hweights]
  congr 1
  apply List.map_congr_left
  intro u hu
  have hones (vs : List Value) : (vs.map fun _ => 1).sum = vs.length := by simp
  rw [hones]
  refine length_eq_of_mem_iff ((List.nodup_dedup _).filter _) ?_
  intro v
  simp only [List.mem_filter, List.mem_dedup, List.mem_map, mem_joined, List.contains_iff_mem]
  constructor
  · intro h
    exact h.2
  · intro hv
    exact ⟨⟨(code u, v), ⟨u, hu, rfl, hv⟩, rfl⟩, hv⟩

end Groups

end Distinct
