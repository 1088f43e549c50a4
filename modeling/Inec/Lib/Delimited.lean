import Mathlib.Data.List.Count

/-!
# Delimited fields

A record joined with a separator can be read back when the reader knows how many separators the last
field holds. `append_sep_inj` is that fact for one separator; a record of several fields is decoded by
using it once per separator, from the right.
-/

namespace Delimited

variable {α : Type} [DecidableEq α]

/-- The last field is determined by the joined record and the number of separators inside it. -/
theorem append_sep_inj {sep : α} {left left' right right' : List α}
    (heq : left ++ sep :: right = left' ++ sep :: right')
    (hcount : right.count sep = right'.count sep) : left = left' ∧ right = right' := by
  -- were the last fields of different length, the shorter record's separator would be inside the longer field
  rcases List.append_eq_append_iff.mp heq with ⟨mid, hleft, hright⟩ | ⟨mid, hleft, hright⟩
  · cases mid with
    | nil =>
        rw [List.append_nil] at hleft
        exact ⟨hleft.symm, (List.cons.inj hright).2⟩
    | cons c mid =>
        rw [List.cons_append, List.cons.injEq] at hright
        rw [hright.2, List.count_append, List.count_cons_self] at hcount
        omega
  · cases mid with
    | nil =>
        rw [List.append_nil] at hleft
        exact ⟨hleft, (List.cons.inj hright).2.symm⟩
    | cons c mid =>
        rw [List.cons_append, List.cons.injEq] at hright
        rw [hright.2, List.count_append, List.count_cons_self] at hcount
        omega

/-- A last field without separators is determined by the joined record. -/
theorem append_sep_inj_of_notMem {sep : α} {left left' right right' : List α}
    (heq : left ++ sep :: right = left' ++ sep :: right')
    (hright : sep ∉ right) (hright' : sep ∉ right') : left = left' ∧ right = right' := by
  apply append_sep_inj heq
  rw [List.count_eq_zero.mpr hright, List.count_eq_zero.mpr hright']

/-- So is a first one. -/
theorem append_sep_inj_of_notMem_left {sep : α} {left left' right right' : List α}
    (heq : left ++ sep :: right = left' ++ sep :: right')
    (hleft : sep ∉ left) (hleft' : sep ∉ left') : left = left' ∧ right = right' := by
  have hreverse : right.reverse ++ sep :: left.reverse = right'.reverse ++ sep :: left'.reverse := by
    simpa using congrArg List.reverse heq
  rw [← List.mem_reverse] at hleft hleft'
  obtain ⟨hright, hleft⟩ := append_sep_inj_of_notMem hreverse hleft hleft'
  exact ⟨List.reverse_inj.mp hleft, List.reverse_inj.mp hright⟩

/-- Fields that are not empty and hold no separator are read back from the joined record, however many. -/
theorem intercalate_inj {sep : α} {fields fields' : List (List α)} (hfree : ∀ f ∈ fields, sep ∉ f)
    (hfree' : ∀ f ∈ fields', sep ∉ f) (hne : ∀ f ∈ fields, f ≠ []) (hne' : ∀ f ∈ fields', f ≠ [])
    (h : [sep].intercalate fields = [sep].intercalate fields') : fields = fields' := by
  -- no fields at all read back as one empty field
  have hnil : ∀ fields : List (List α), (∀ f ∈ fields, sep ∉ f) → (∀ f ∈ fields, f ≠ []) →
      [sep].intercalate fields = [] → fields = [] := by
    intro fields hfree hne hempty
    by_contra hfields
    have hsplit := List.splitOn_intercalate sep hfree hfields
    rw [hempty, List.splitOn_nil] at hsplit
    exact hne [] (hsplit ▸ List.mem_singleton_self []) rfl
  by_cases hfields : fields = []
  · rw [hfields] at h ⊢
    exact (hnil fields' hfree' hne' h.symm).symm
  · by_cases hfields' : fields' = []
    · rw [hfields'] at h
      exact absurd (hnil fields hfree hne h) hfields
    · rw [← List.splitOn_intercalate sep hfree hfields, h, List.splitOn_intercalate sep hfree' hfields']

/-- Fields with known heads are read back behind them, whatever the heads hold. -/
theorem intercalate_heads_inj {sep : α} {fields fields' : List (List α × List α)}
    (hheads : fields.map Prod.fst = fields'.map Prod.fst) (hfree : ∀ f ∈ fields, sep ∉ f.2)
    (hfree' : ∀ f ∈ fields', sep ∉ f.2)
    (h : [sep].intercalate (fields.map fun f => f.1 ++ f.2) = [sep].intercalate (fields'.map fun f => f.1 ++ f.2)) :
    fields = fields' := by
  induction fields generalizing fields' with
  | nil =>
      cases fields' with
      | nil => rfl
      | cons f' rest' => cases hheads
  | cons f rest ih =>
      cases fields' with
      | nil => cases hheads
      | cons f' rest' =>
          obtain ⟨hhead, hrest⟩ := List.cons.inj hheads
          cases rest with
          | nil =>
              obtain rfl := List.map_eq_nil_iff.mp hrest.symm
              simp only [List.map_cons, List.map_nil, List.intercalate_singleton, hhead] at h
              rw [Prod.ext hhead (List.append_cancel_left h)]
          | cons g rest =>
              obtain ⟨g', rest'', rfl⟩ : ∃ g' rest'', rest' = g' :: rest'' := by
                cases rest' with
                | nil => cases hrest
                | cons g' rest'' => exact ⟨g', rest'', rfl⟩
              simp only [List.map_cons, List.intercalate_cons_cons, List.append_assoc, hhead] at h
              have hbehind := List.append_cancel_left h
              obtain ⟨htail, hjoined⟩ := append_sep_inj_of_notMem_left hbehind (hfree f List.mem_cons_self)
                (hfree' f' List.mem_cons_self)
              rw [Prod.ext hhead htail, ih hrest (fun f hf => hfree f (List.mem_cons_of_mem _ hf))
                (fun f hf => hfree' f (List.mem_cons_of_mem _ hf)) hjoined]

end Delimited
