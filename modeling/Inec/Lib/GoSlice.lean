import Mathlib.Data.List.Basic

/-!
# Slices over shared arrays

A slice is a header over an array that lies in a memory: other headers and pointers to single slots may go to
the same array. An append writes behind the last element while there is room and moves the slice to an array of
its own when there is none; taking an element out shifts the elements behind it down by one slot, in place, and
leaves the last slot as it was.

To the holder of the slice these are the operations on lists (`contents_append`, `contents_removeAt`,
`contents_modify`). To the holder of a pointer they are not: the second half says which slots keep what they
hold.

An array is listed as far as it has been written.
-/

namespace GoSlice

variable {α β : Type}

structure Slice where
  array : Nat
  len : Nat
  cap : Nat
  deriving DecidableEq, Repr

/-- The address of a slot. -/
structure Pointer where
  array : Nat
  index : Nat
  deriving DecidableEq, Repr

abbrev Memory (α : Type) := List (List α)

namespace Memory

variable (m : Memory α)

def cells (array : Nat) : List α := (m[array]?).getD []

def load (p : Pointer) : Option α := (m.cells p.array)[p.index]?

def contents (s : Slice) : List α := (m.cells s.array).take s.len

/-- The header goes to a written part of an array of the memory. -/
structure Holds (s : Slice) : Prop where
  array : s.array < m.length
  len : s.len ≤ (m.cells s.array).length
  cap : s.len ≤ s.cap

/-- `append(s, x)`. An array that is full is replaced by one of at least one slot more, by `grow` of its size. -/
def append (grow : Nat → Nat) (s : Slice) (x : α) : Memory α × Slice :=
  if s.len < s.cap then
    (m.set s.array ((m.cells s.array).take s.len ++ x :: (m.cells s.array).drop (s.len + 1)),
      { s with len := s.len + 1 })
  else (m ++ [m.contents s ++ [x]], ⟨m.length, s.len + 1, max (s.len + 1) (grow s.cap)⟩)

/-- `append(s[:i], s[i+1:]...)`. -/
def removeAt (s : Slice) (i : Nat) : Memory α × Slice :=
  (m.set s.array ((m.contents s).eraseIdx i ++ (m.cells s.array).drop (s.len - 1)), { s with len := s.len - 1 })

/-- An assignment to fields of `s[i]`. -/
def modify (s : Slice) (i : Nat) (f : α → α) : Memory α := m.set s.array ((m.cells s.array).modify i f)

end Memory

variable {m : Memory α} {s : Slice}

open Memory

theorem cells_set_self {xs : List α} {a : Nat} (ha : a < m.length) : cells (m.set a xs) a = xs := by
  rw [cells, List.getElem?_set_self ha]
  rfl

theorem cells_set_ne {xs : List α} {a b : Nat} (hab : a ≠ b) : cells (m.set a xs) b = m.cells b := by
  rw [cells, List.getElem?_set_ne hab]
  rfl

theorem cells_append_left {xs : List α} {a : Nat} (ha : a < m.length) : cells (m ++ [xs]) a = m.cells a := by
  rw [cells, List.getElem?_append_left ha]
  rfl

theorem cells_append_length {xs : List α} : cells (m ++ [xs]) m.length = xs := by
  rw [cells, List.getElem?_concat_length]
  rfl

theorem Memory.Holds.length_contents (h : m.Holds s) : (m.contents s).length = s.len := by
  rw [contents, List.length_take, Nat.min_eq_left h.len]

theorem Memory.Holds.length_take (h : m.Holds s) : ((m.cells s.array).take s.len).length = s.len :=
  h.length_contents

/-- What a pointer to an element of the slice loads. -/
theorem load_eq_getElem_contents {i : Nat} (hi : i < s.len) : m.load ⟨s.array, i⟩ = (m.contents s)[i]? := by
  rw [load, contents, List.getElem?_take_of_lt hi]

theorem lt_length_of_load {p : Pointer} {x : α} (h : m.load p = some x) : p.array < m.length := by
  by_contra hout
  rw [load, cells, List.getElem?_eq_none (Nat.le_of_not_lt hout)] at h
  simp at h

/-! ### For the holder of the slice -/

theorem contents_append (grow : Nat → Nat) (h : m.Holds s) (x : α) :
    contents (m.append grow s x).1 (m.append grow s x).2 = m.contents s ++ [x] := by
  unfold append
  split
  · show (cells (m.set s.array _) s.array).take (s.len + 1) = _
    rw [cells_set_self h.array, List.take_append, h.length_take,
      List.take_of_length_le (by rw [h.length_take]; omega), Nat.add_sub_cancel_left]
    rfl
  · show (cells (m ++ [_]) m.length).take (s.len + 1) = _
    rw [cells_append_length]
    apply List.take_of_length_le
    rw [List.length_append, h.length_contents]
    exact Nat.le_refl _

theorem holds_append (grow : Nat → Nat) (h : m.Holds s) (x : α) :
    (m.append grow s x).1.Holds (m.append grow s x).2 := by
  unfold append
  split
  case isTrue hroom =>
    refine ⟨?_, ?_, hroom⟩
    · rw [List.length_set]
      exact h.array
    · show s.len + 1 ≤ (cells (m.set s.array _) s.array).length
      rw [cells_set_self h.array, List.length_append, h.length_take, List.length_cons]
      omega
  case isFalse =>
    refine ⟨?_, ?_, Nat.le_max_left _ _⟩
    · rw [List.length_append]
      exact Nat.lt_succ_self _
    · show s.len + 1 ≤ (cells (m ++ [_]) m.length).length
      rw [cells_append_length, List.length_append, h.length_contents]
      exact Nat.le_refl _

section RemoveAt

variable {i : Nat} (hi : i < s.len)

include hi

theorem Memory.Holds.length_eraseIdx (h : m.Holds s) : ((m.contents s).eraseIdx i).length = s.len - 1 := by
  rw [List.length_eraseIdx_of_lt (by rw [h.length_contents]; exact hi), h.length_contents]

theorem contents_removeAt (h : m.Holds s) :
    contents (m.removeAt s i).1 (m.removeAt s i).2 = (m.contents s).eraseIdx i := by
  show (cells (m.set s.array _) s.array).take (s.len - 1) = _
  rw [cells_set_self h.array, List.take_append, h.length_eraseIdx hi, Nat.sub_self, List.take_zero, List.append_nil,
    List.take_of_length_le (Nat.le_of_eq (h.length_eraseIdx hi))]

theorem holds_removeAt (h : m.Holds s) : (m.removeAt s i).1.Holds (m.removeAt s i).2 := by
  refine ⟨?_, ?_, ?_⟩
  · show s.array < (m.set s.array _).length
    rw [List.length_set]
    exact h.array
  · show s.len - 1 ≤ (cells (m.set s.array _) s.array).length
    rw [cells_set_self h.array, List.length_append, h.length_eraseIdx hi]
    omega
  · exact Nat.le_trans (Nat.sub_le _ _) h.cap

end RemoveAt

theorem contents_modify (h : m.Holds s) (i : Nat) (f : α → α) :
    contents (m.modify s i f) s = (m.contents s).modify i f := by
  show (cells (m.set s.array _) s.array).take s.len = _
  rw [cells_set_self h.array, contents, List.take_modify]

theorem holds_modify (h : m.Holds s) (i : Nat) (f : α → α) : (m.modify s i f).Holds s := by
  refine ⟨?_, ?_, h.cap⟩
  · show s.array < (m.set s.array _).length
    rw [List.length_set]
    exact h.array
  · show s.len ≤ (cells (m.set s.array _) s.array).length
    rw [cells_set_self h.array, List.length_modify]
    exact h.len

/-! ### For the holder of a pointer -/

/-- An append leaves every written slot alone but the one behind the last element, and this one too when the slice
moves. -/
theorem load_append (grow : Nat → Nat) (h : m.Holds s) (x : α) {p : Pointer} (hp : p.array < m.length)
    (hother : p.array = s.array → p.index = s.len → s.cap ≤ s.len) :
    (m.append grow s x).1.load p = m.load p := by
  unfold append
  split
  case isTrue hroom =>
    show (cells (m.set s.array _) p.array)[p.index]? = _
    by_cases harray : s.array = p.array
    · have hindex : p.index ≠ s.len := by
        intro heq
        have := hother harray.symm heq
        omega
      rw [← harray, cells_set_self h.array, load, ← harray]
      by_cases hlt : p.index < s.len
      · rw [List.getElem?_append_left (by rw [h.length_take]; exact hlt), List.getElem?_take_of_lt hlt]
      · rw [List.getElem?_append_right (by rw [h.length_take]; omega), h.length_take]
        obtain ⟨k, hk⟩ : ∃ k, p.index - s.len = k + 1 := ⟨p.index - s.len - 1, by omega⟩
        rw [hk, List.getElem?_cons_succ, List.getElem?_drop]
        congr 1
        omega
    · rw [cells_set_ne harray]
      rfl
  case isFalse =>
    show (cells (m ++ [_]) p.array)[p.index]? = _
    rw [cells_append_left hp]
    rfl

/-- An append in place fills the slot behind the last element. -/
theorem load_append_self (grow : Nat → Nat) (h : m.Holds s) (x : α) (hroom : s.len < s.cap) :
    (m.append grow s x).1.load ⟨s.array, s.len⟩ = some x := by
  have hslice : (m.append grow s x).2 = { s with len := s.len + 1 } := by rw [append, if_pos hroom]
  have harray : (m.append grow s x).2.array = s.array := by rw [hslice]
  have hlt : s.len < (m.append grow s x).2.len := by
    rw [hslice]
    exact Nat.lt_succ_self _
  have hload := load_eq_getElem_contents (m := (m.append grow s x).1) hlt
  rw [contents_append grow h, List.getElem?_append_right (Nat.le_of_eq h.length_contents), h.length_contents,
    Nat.sub_self, harray] at hload
  exact hload

/-- A removal leaves the slots alone that lie before the element or are not followed by another element. -/
theorem load_removeAt (h : m.Holds s) {i : Nat} (hi : i < s.len) {p : Pointer}
    (hother : p.array = s.array → p.index < i ∨ s.len ≤ p.index + 1) :
    (m.removeAt s i).1.load p = m.load p := by
  show (cells (m.set s.array _) p.array)[p.index]? = _
  by_cases harray : s.array = p.array
  · rw [← harray, cells_set_self h.array, load, ← harray]
    rcases hother harray.symm with hbefore | hbehind
    · rw [List.getElem?_append_left (by rw [h.length_eraseIdx hi]; omega), List.getElem?_eraseIdx_of_lt hbefore,
        contents, List.getElem?_take_of_lt (Nat.lt_trans hbefore hi)]
    · rw [List.getElem?_append_right (by rw [h.length_eraseIdx hi]; omega), h.length_eraseIdx hi,
        List.getElem?_drop]
      congr 1
      omega
  · rw [cells_set_ne harray]
    rfl

/-- The slots between take over what the next one holds. -/
theorem load_removeAt_shifted (h : m.Holds s) {i : Nat} (hi : i < s.len) {p : Pointer} (harray : p.array = s.array)
    (hfrom : i ≤ p.index) (hbelow : p.index + 1 < s.len) :
    (m.removeAt s i).1.load p = m.load ⟨p.array, p.index + 1⟩ := by
  show (cells (m.set s.array _) p.array)[p.index]? = (m.cells p.array)[p.index + 1]?
  rw [harray, cells_set_self h.array, List.getElem?_append_left (by rw [h.length_eraseIdx hi]; omega),
    List.getElem?_eraseIdx_of_ge hfrom, contents, List.getElem?_take_of_lt hbelow]

/-- Under what an assignment leaves alone a pointer sees nothing of it. -/
theorem load_modify (h : m.Holds s) (i : Nat) {f : α → α} {g : α → β} (hg : ∀ x, g (f x) = g x) (p : Pointer) :
    ((m.modify s i f).load p).map g = (m.load p).map g := by
  show ((cells (m.set s.array _) p.array)[p.index]?).map g = _
  by_cases harray : s.array = p.array
  · rw [← harray, cells_set_self h.array, load, ← harray, List.getElem?_modify]
    by_cases hindex : i = p.index
    · simp [hindex, Function.comp_def, hg]
    · simp [hindex]
  · rw [cells_set_ne harray]
    rfl

end GoSlice
