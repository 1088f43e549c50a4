import Mathlib.Data.List.Dedup
import Mathlib.Data.List.Nodup
import Mathlib.Data.List.Perm.Subperm
import Mathlib.Logic.Function.Basic

/-!
# Dictionaries of distinct items

An item gets the place it has in the list, or a new one at the end if no item with its key is there yet. A map from
keys to places says which. Places that were given stay right while the list grows.
-/

namespace Interning

variable {Item Key : Type}

structure Dictionary (Item Key : Type) where
  items : List Item
  index : Key → Option Nat

def empty : Dictionary Item Key := ⟨[], fun _ => none⟩

/-- A place in the beginning of a list is a place in the list. -/
theorem getElem?_of_prefix {items more : List Item} (h : items <+: more) {place : Nat} {item : Item}
    (hitem : items[place]? = some item) : more[place]? = some item := by
  obtain ⟨rest, rfl⟩ := h
  obtain ⟨hlt, -⟩ := List.getElem?_eq_some_iff.mp hitem
  rw [List.getElem?_append_left hlt, hitem]

variable [DecidableEq Key]

/-- The item at the end, and its key at that place. -/
def Dictionary.add (key : Item → Key) (d : Dictionary Item Key) (item : Item) : Dictionary Item Key :=
  ⟨d.items ++ [item], Function.update d.index (key item) (some d.items.length)⟩

/-- The place of an item, and the dictionary with it. -/
def intern (key : Item → Key) (d : Dictionary Item Key) (item : Item) : Nat × Dictionary Item Key :=
  match d.index (key item) with
  | some place => (place, d)
  | none => (d.items.length, d.add key item)

/-- The map knows the places of all items, and no two of them have one key. -/
structure Valid (key : Item → Key) (d : Dictionary Item Key) : Prop where
  found : ∀ k place, d.index k = some place → ∃ item, d.items[place]? = some item ∧ key item = k
  known : ∀ item ∈ d.items, d.index (key item) ≠ none
  nodup : (d.items.map key).Nodup

variable {key : Item → Key} {d : Dictionary Item Key}

omit [DecidableEq Key] in
theorem valid_empty : Valid key (empty : Dictionary Item Key) where
  found := by
    intro k place h
    cases h
  known := by
    intro item h
    cases h
  nodup := List.nodup_nil

theorem Valid.add (hd : Valid key d) {item : Item} (hnew : d.index (key item) = none) :
    Valid key (d.add key item) where
  found := by
    intro k place h
    have hindex : Function.update d.index (key item) (some d.items.length) k = some place := h
    by_cases hk : k = key item
    · rw [hk, Function.update_self, Option.some.injEq] at hindex
      refine ⟨item, ?_, hk.symm⟩
      rw [← hindex]
      exact List.getElem?_concat_length
    · rw [Function.update_of_ne hk] at hindex
      obtain ⟨same, hsame, hkey⟩ := hd.found k place hindex
      exact ⟨same, getElem?_of_prefix (List.prefix_append _ _) hsame, hkey⟩
  known := by
    intro other hother
    show Function.update d.index (key item) (some d.items.length) (key other) ≠ none
    by_cases hk : key other = key item
    · rw [hk, Function.update_self]
      exact Option.some_ne_none _
    · rw [Function.update_of_ne hk]
      rcases List.mem_append.mp hother with hother | hother
      · exact hd.known other hother
      · exact absurd (congrArg key (List.mem_singleton.mp hother)) hk
  nodup := by
    rw [Dictionary.add, List.map_append, List.nodup_append]
    refine ⟨hd.nodup, List.nodup_singleton _, ?_⟩
    intro k hk k' hk' heq
    obtain ⟨other, hother, rfl⟩ := List.mem_map.mp hk
    rw [List.map_singleton, List.mem_singleton] at hk'
    rw [hk'] at heq
    exact hd.known other hother (heq ▸ hnew)

theorem Valid.intern (hd : Valid key d) (item : Item) : Valid key (intern key d item).2 := by
  unfold Interning.intern
  cases hindex : d.index (key item) with
  | some place => exact hd
  | none => exact hd.add hindex

/-- Nothing moves. -/
theorem prefix_intern (item : Item) : d.items <+: (intern key d item).2.items := by
  unfold Interning.intern
  cases d.index (key item) with
  | some place => exact List.prefix_rfl
  | none => exact List.prefix_append _ _

/-- At the place that is given there is an item with the key. -/
theorem Valid.exists_getElem?_intern (hd : Valid key d) (item : Item) :
    ∃ same, (Interning.intern key d item).2.items[(Interning.intern key d item).1]? = some same ∧
      key same = key item := by
  unfold Interning.intern
  cases hindex : d.index (key item) with
  | some place => exact hd.found _ _ hindex
  | none => exact ⟨item, List.getElem?_concat_length, rfl⟩

theorem mem_intern {item other : Item} (h : other ∈ (intern key d item).2.items) :
    other ∈ d.items ∨ other = item := by
  unfold Interning.intern at h
  cases hindex : d.index (key item) with
  | some place =>
      rw [hindex] at h
      exact Or.inl h
  | none =>
      rw [hindex] at h
      rcases List.mem_append.mp h with h | h
      · exact Or.inl h
      · exact Or.inr (List.mem_singleton.mp h)

/-- After these items: the places that were given stay right, and nothing else came in. -/
structure After (key : Item → Key) (d more : Dictionary Item Key) (items : List Item) : Prop where
  valid : Valid key more
  grown : d.items <+: more.items
  within : ∀ item ∈ more.items, item ∈ d.items ∨ item ∈ items

theorem Valid.after_intern (hd : Valid key d) (item : Item) :
    After key d (Interning.intern key d item).2 [item] where
  valid := hd.intern item
  grown := prefix_intern item
  within := by
    intro other hother
    rw [List.mem_singleton]
    exact mem_intern hother

omit [DecidableEq Key]

theorem Valid.after_nil (hd : Valid key d) : After key d d [] := ⟨hd, List.prefix_rfl, fun _ h => Or.inl h⟩

theorem After.trans {e f : Dictionary Item Key} {items more : List Item} (h : After key d e items)
    (h' : After key e f more) : After key d f (items ++ more) where
  valid := h'.valid
  grown := h.grown.trans h'.grown
  within := by
    intro item hitem
    rw [List.mem_append]
    rcases h'.within item hitem with hmem | hmem
    · exact (h.within item hmem).imp_right Or.inl
    · exact Or.inr (Or.inr hmem)

/-- The order of the items does not matter for this. -/
theorem After.perm {e : Dictionary Item Key} {items more : List Item} (h : After key d e items)
    (hperm : items.Perm more) : After key d e more where
  valid := h.valid
  grown := h.grown
  within := by
    intro item hitem
    exact (h.within item hitem).imp_right hperm.mem_iff.mp

/-- A dictionary of items is at most as long as there are different ones of them. -/
theorem After.length_le [DecidableEq Item] {items : List Item} (h : After key empty d items) :
    d.items.length ≤ items.dedup.length := by
  apply List.Subperm.length_le
  apply List.subperm_of_subset (List.Nodup.of_map key h.valid.nodup)
  intro item hitem
  exact List.mem_dedup.mpr ((h.within item hitem).resolve_left List.not_mem_nil)

end Interning
