import Mathlib.Data.List.Basic
import Mathlib.Data.List.Nodup

/-!
# Keyed rows

A table is a list of rows with a key column. `update` is `UPDATE ... WHERE key = k`, and `maxBy` is
`ORDER BY score DESC LIMIT 1`. What the proofs use of them: an update that keeps a column leaves that
column as it was, a filtered column can only lose entries when the updated row does not newly enter
the filter, and a key that is unique picks one row.
-/

namespace Rows

variable {Row Key Col : Type}

section Update

variable [DecidableEq Key] (key : Row → Key) (k : Key) (f : Row → Row)

def update (rows : List Row) : List Row := rows.map fun r => if key r = k then f r else r

variable {key k f}

theorem mem_update {rows : List Row} {r : Row} :
    r ∈ update key k f rows ↔ (∃ r₀ ∈ rows, key r₀ = k ∧ r = f r₀) ∨ (r ∈ rows ∧ key r ≠ k) := by
  simp only [update, List.mem_map]
  constructor
  · rintro ⟨r₀, hr₀, heq⟩
    by_cases hk : key r₀ = k
    · rw [if_pos hk] at heq
      exact Or.inl ⟨r₀, hr₀, hk, heq.symm⟩
    · rw [if_neg hk] at heq
      exact Or.inr ⟨heq ▸ hr₀, heq ▸ hk⟩
  · rintro (⟨r₀, hr₀, hk, rfl⟩ | ⟨hr, hk⟩)
    · exact ⟨r₀, hr₀, if_pos hk⟩
    · exact ⟨r, hr, if_neg hk⟩

/-- A column the update keeps is unchanged as a list. -/
theorem map_update {col : Row → Col} {rows : List Row}
    (hcol : ∀ r ∈ rows, key r = k → col (f r) = col r) :
    (update key k f rows).map col = rows.map col := by
  rw [update, List.map_map]
  apply List.map_congr_left
  intro r hr
  by_cases hk : key r = k
  · simp [hk, hcol r hr hk]
  · simp [hk]

/-- Rows the predicate does not distinguish before and after the update keep their column. -/
theorem filter_map_update {p : Row → Bool} {col : Row → Col} {rows : List Row}
    (hp : ∀ r ∈ rows, key r = k → p (f r) = p r)
    (hcol : ∀ r ∈ rows, key r = k → p r = true → col (f r) = col r) :
    ((update key k f rows).filter p).map col = (rows.filter p).map col := by
  induction rows with
  | nil => rfl
  | cons r rest ih =>
      have ih := ih (fun r' hr' => hp r' (List.mem_cons_of_mem _ hr'))
        (fun r' hr' => hcol r' (List.mem_cons_of_mem _ hr'))
      simp only [update, List.map_cons] at ih ⊢
      by_cases hk : key r = k
      · rw [if_pos hk]
        have hpr := hp r List.mem_cons_self hk
        cases hr : p r with
        | false => simpa [List.filter_cons, hpr, hr] using ih
        | true =>
            have hc := hcol r List.mem_cons_self hk hr
            simpa [List.filter_cons, hpr, hr, hc] using ih
      · rw [if_neg hk]
        cases hr : p r with
        | false => simpa [List.filter_cons, hr] using ih
        | true => simpa [List.filter_cons, hr] using ih

/-- An update of rows that the filter passes over leaves it as it is. -/
theorem filter_update {p : Row → Bool} {rows : List Row}
    (h : ∀ r ∈ rows, key r = k → p r = false ∧ p (f r) = false) :
    (update key k f rows).filter p = rows.filter p := by
  have hmap : ((update key k f rows).filter p).map id = (rows.filter p).map id := by
    apply filter_map_update
    · intro r hr hk
      rw [(h r hr hk).1, (h r hr hk).2]
    · intro r hr hk hp
      rw [(h r hr hk).1] at hp
      cases hp
  rw [List.map_id, List.map_id] at hmap
  exact hmap

/-- An update that takes its rows out of the filter leaves the others that were in it. -/
theorem filter_update_of_out {p : Row → Bool} (hp : ∀ r, p (f r) = false) (rows : List Row) :
    (update key k f rows).filter p = (rows.filter p).filter fun r => decide (key r ≠ k) := by
  induction rows with
  | nil => rfl
  | cons r rest ih =>
      simp only [update, List.map_cons] at ih ⊢
      by_cases hk : key r = k
      · rw [if_pos hk, List.filter_cons_of_neg (by simp [hp]), ih]
        cases hr : p r with
        | false => rw [List.filter_cons_of_neg (by simp [hr])]
        | true => rw [List.filter_cons_of_pos (by simp [hr]), List.filter_cons_of_neg (by simp [hk])]
      · rw [if_neg hk]
        cases hr : p r with
        | false => rw [List.filter_cons_of_neg (by simp [hr]), List.filter_cons_of_neg (by simp [hr]), ih]
        | true =>
            rw [List.filter_cons_of_pos (by simp [hr]), List.filter_cons_of_pos (by simp [hr]),
              List.filter_cons_of_pos (by simp [hk]), ih]

/-- An update that brings no row into the filter can only take entries out of a filtered column. -/
theorem filter_map_update_sublist {p : Row → Bool} {col : Row → Col} {rows : List Row}
    (h : ∀ r ∈ rows, key r = k → p (f r) = true → p r = true ∧ col (f r) = col r) :
    List.Sublist (((update key k f rows).filter p).map col) ((rows.filter p).map col) := by
  induction rows with
  | nil => exact List.Sublist.refl _
  | cons r rest ih =>
      have ih := ih fun r' hr' => h r' (List.mem_cons_of_mem _ hr')
      simp only [update, List.map_cons] at ih ⊢
      have hrest : List.Sublist (((rest.map fun r => if key r = k then f r else r).filter p).map col)
          (((r :: rest).filter p).map col) := by
        refine ih.trans ?_
        exact ((List.sublist_cons_self r rest).filter p).map col
      by_cases hk : key r = k
      · rw [if_pos hk]
        cases hfr : p (f r) with
        | false => simpa [List.filter_cons, hfr] using hrest
        | true =>
            obtain ⟨hpr, hc⟩ := h r List.mem_cons_self hk hfr
            simpa [List.filter_cons, hfr, hpr, hc] using ih
      · rw [if_neg hk]
        cases hpr : p r with
        | false => simpa [List.filter_cons, hpr] using ih
        | true => simpa [List.filter_cons, hpr] using ih

end Update

section Lookup

variable {key : Row → Key}

theorem eq_of_key_eq {rows : List Row} (hnodup : (rows.map key).Nodup) {r r' : Row}
    (hr : r ∈ rows) (hr' : r' ∈ rows) (heq : key r = key r') : r = r' :=
  List.inj_on_of_nodup_map hnodup hr hr' heq

/-- Appending a row with a new key keeps the keys distinct. -/
theorem nodup_map_append_singleton {rows : List Row} (hnodup : (rows.map key).Nodup) {r : Row}
    (hr : key r ∉ rows.map key) :
    ((rows ++ [r]).map key).Nodup := by
  rw [List.map_append, List.map_singleton, List.nodup_append]
  refine ⟨hnodup, List.nodup_singleton _, ?_⟩
  intro k hk k' hk' heq
  rw [List.mem_singleton] at hk'
  exact hr (hk' ▸ heq ▸ hk)

theorem update_id [DecidableEq Key] (k : Key) (rows : List Row) : update key k id rows = rows := by
  simp [update]

/-- Up to order, an update with a key of the table is the updated row with the rows of other keys. -/
theorem update_perm [DecidableEq Key] {rows : List Row} (hnodup : (rows.map key).Nodup) {r : Row} (hr : r ∈ rows)
    (f : Row → Row) : (update key (key r) f rows).Perm (f r :: rows.filter fun x => key x != key r) := by
  induction rows with
  | nil => cases hr
  | cons first rest ih =>
      rw [List.map_cons, List.nodup_cons] at hnodup
      rcases List.mem_cons.mp hr with rfl | hmem
      · have hother : ∀ x ∈ rest, key x ≠ key r := fun x hx heq => hnodup.1 (heq ▸ List.mem_map_of_mem hx)
        have hrest : update key (key r) f rest = rest := by
          rw [update, List.map_congr_left fun x hx => if_neg (hother x hx), List.map_id']
        have hfilter : rest.filter (fun x => key x != key r) = rest :=
          List.filter_eq_self.mpr fun x hx => bne_iff_ne.mpr (hother x hx)
        show (List.Perm ((if key r = key r then f r else r) :: update key (key r) f rest) _)
        rw [if_pos rfl, hrest, List.filter_cons_of_neg (by simp), hfilter]
      · have hne : key first ≠ key r := fun heq => hnodup.1 (heq ▸ List.mem_map_of_mem hmem)
        show (List.Perm ((if key first = key r then f first else first) :: update key (key r) f rest) _)
        rw [if_neg hne, List.filter_cons, if_pos (bne_iff_ne.mpr hne)]
        exact ((ih hnodup.2 hmem).cons first).trans (List.Perm.swap _ _ _)

/-- A key that may be missing picks one row where it is there. -/
theorem eq_of_filterMap_eq {rows : List Row} {col : Row → Option Key}
    (hnodup : (rows.filterMap col).Nodup) {r r' : Row} (hr : r ∈ rows) (hr' : r' ∈ rows) {k : Key}
    (hk : col r = some k) (hk' : col r' = some k) : r = r' := by
  induction rows with
  | nil => cases hr
  | cons first rest ih =>
      have hrest : ∀ {r}, r ∈ rest → col r = some k → k ∈ rest.filterMap col :=
        fun hmem hcol => List.mem_filterMap.mpr ⟨_, hmem, hcol⟩
      cases hfirst : col first with
      | none =>
          rw [List.filterMap_cons_none hfirst] at hnodup
          rcases List.mem_cons.mp hr with rfl | hmem
          · rw [hfirst] at hk
            cases hk
          · rcases List.mem_cons.mp hr' with rfl | hmem'
            · rw [hfirst] at hk'
              cases hk'
            · exact ih hnodup hmem hmem'
      | some c =>
          rw [List.filterMap_cons_some hfirst, List.nodup_cons] at hnodup
          rcases List.mem_cons.mp hr with rfl | hmem
          · rcases List.mem_cons.mp hr' with rfl | hmem'
            · rfl
            · rw [Option.some.inj (hfirst.symm.trans hk)] at hnodup
              exact absurd (hrest hmem' hk') hnodup.1
          · rcases List.mem_cons.mp hr' with rfl | hmem'
            · rw [Option.some.inj (hfirst.symm.trans hk')] at hnodup
              exact absurd (hrest hmem hk) hnodup.1
            · exact ih hnodup.2 hmem hmem'

/-- The first occurrences, by the length of what is left after one. -/
theorem nodup_eraseDups {α : Type} [BEq α] [LawfulBEq α] (l : List α) : l.eraseDups.Nodup := by
  induction hn : l.length using Nat.strongRecOn generalizing l with
  | ind n ih =>
      cases l with
      | nil => exact List.nodup_nil
      | cons a rest =>
          rw [List.eraseDups_cons, List.nodup_cons, List.mem_eraseDups, List.mem_filter]
          refine ⟨fun h => ?_, ih _ ?_ _ rfl⟩
          · simp at h
          · rw [← hn]
            exact Nat.lt_succ_of_le (List.length_filter_le _ _)

/-- Rows that are pairwise equal and listed once are at most one. -/
theorem eq_nil_or_singleton {rows : List Row} (hnodup : rows.Nodup) (heq : ∀ r ∈ rows, ∀ r' ∈ rows, r = r') :
    rows = [] ∨ ∃ r, rows = [r] := by
  match rows with
  | [] => exact Or.inl rfl
  | [r] => exact Or.inr ⟨r, rfl⟩
  | r :: r' :: rest =>
      have hne := (List.nodup_cons.mp hnodup).1
      exact absurd (heq r (by simp) r' (by simp) ▸ List.mem_cons_self) hne

variable [DecidableEq Key]

/-- A unique key selects at most one row. -/
theorem filter_key_eq {rows : List Row} (hnodup : (rows.map key).Nodup) (k : Key) :
    rows.filter (fun r => key r == k) = [] ∨ ∃ r, rows.filter (fun r => key r == k) = [r] := by
  refine eq_nil_or_singleton ((hnodup.of_map key).filter _) ?_
  intro r hr r' hr'
  simp only [List.mem_filter, beq_iff_eq] at hr hr'
  exact eq_of_key_eq hnodup hr.1 hr'.1 (hr.2.trans hr'.2.symm)

/-- The key of a row selects that row. -/
theorem filter_key_of_mem {rows : List Row} (hnodup : (rows.map key).Nodup) {r : Row} (hr : r ∈ rows) :
    rows.filter (fun r' => key r' == key r) = [r] := by
  have hmem : r ∈ rows.filter fun r' => key r' == key r := List.mem_filter.mpr ⟨hr, beq_self_eq_true _⟩
  rcases filter_key_eq hnodup (key r) with hnone | ⟨r', hone⟩
  · rw [hnone] at hmem
    cases hmem
  · rw [hone, List.mem_singleton] at hmem
    rw [hone, hmem]

/-- A unique key counts its row, if anything else that is asked of it holds. -/
theorem countP_key {rows : List Row} (hnodup : (rows.map key).Nodup) {r : Row} (hr : r ∈ rows) (p : Row → Bool) :
    (rows.filter p).countP (fun r' => key r == key r') = if p r then 1 else 0 := by
  have hflip : (fun r' => key r == key r') = fun r' => key r' == key r := by
    funext r'
    exact Bool.beq_comm
  rw [hflip, List.countP_eq_length_filter, List.filter_comm, filter_key_of_mem hnodup hr, List.filter_singleton]
  cases p r with
  | true => rfl
  | false => rfl

/-- A member of a list without duplicates is counted once. -/
theorem countP_self {keys : List Key} (hnodup : keys.Nodup) {k : Key} (hk : k ∈ keys) :
    keys.countP (fun k' => k == k') = 1 := by
  have hcount := @countP_key Key Key id _ keys (by rw [List.map_id]; exact hnodup) k hk fun _ => true
  rw [List.filter_true] at hcount
  exact hcount

/-- Looking a row up by its key finds a row with that key. -/
theorem find?_key {rows : List Row} {k : Key} {r : Row}
    (h : rows.find? (fun r => key r == k) = some r) : r ∈ rows ∧ key r = k :=
  ⟨List.mem_of_find?_eq_some h, by simpa using List.find?_some h⟩

/-- A unique key finds exactly the rows that have it. -/
theorem find?_key_eq_some_iff {rows : List Row} (hnodup : (rows.map key).Nodup) {k : Key} {r : Row} :
    rows.find? (fun r => key r == k) = some r ↔ r ∈ rows ∧ key r = k := by
  refine ⟨find?_key, ?_⟩
  rintro ⟨hr, hk⟩
  cases hfind : rows.find? (fun r => key r == k) with
  | none =>
      rw [List.find?_eq_none] at hfind
      exact absurd (by simpa using hk) (hfind r hr)
  | some r' =>
      obtain ⟨hr', hk'⟩ := find?_key hfind
      rw [eq_of_key_eq hnodup hr hr' (hk.trans hk'.symm)]

/-- Looking a row up after an update that keeps the keys. -/
theorem find?_update {k : Key} {f : Row → Row} (hkey : ∀ r, key (f r) = key r) (rows : List Row) (k' : Key) :
    (update key k f rows).find? (fun r => key r == k') =
      (rows.find? fun r => key r == k').map fun r => if key r = k then f r else r := by
  rw [update, List.find?_map]
  congr 2
  funext r
  by_cases hk : key r = k
  · simp [hk, hkey]
  · simp [hk]

/-- Updates at different keys, one after the other, are one update of every row by its key. -/
theorem foldl_update [DecidableEq Key] {Change : Type} (at? : Change → Key) (f : Change → Row → Row)
    (hkey : ∀ u r, key (f u r) = key r) {changes : List Change} (hnodup : (changes.map at?).Nodup) (rows : List Row) :
    changes.foldl (fun rows u => update key (at? u) (f u) rows) rows =
      rows.map fun r => ((changes.find? fun u => at? u == key r).elim r fun u => f u r) := by
  induction changes generalizing rows with
  | nil => simp
  | cons u changes ih =>
      rw [List.map_cons, List.nodup_cons] at hnodup
      rw [List.foldl_cons, ih hnodup.2, update, List.map_map]
      apply List.map_congr_left
      intro r _
      by_cases hr : at? u = key r
      · have hnone : (changes.find? fun u' => at? u' == key r) = none := by
          rw [List.find?_eq_none]
          intro u' hu' heq
          rw [beq_iff_eq, ← hr] at heq
          exact hnodup.1 (heq ▸ List.mem_map_of_mem hu')
        simp [hr, hkey, hnone]
      · simp [hr, Ne.symm hr]

/-- Erasing the first row with a unique key leaves none with it. -/
theorem mem_eraseP_key {rows : List Row} (hnodup : (rows.map key).Nodup) {k : Key} {r : Row}
    (h : r ∈ rows.eraseP fun r => key r == k) : r ∈ rows ∧ key r ≠ k := by
  induction rows with
  | nil => cases h
  | cons first rest ih =>
      rw [List.map_cons, List.nodup_cons] at hnodup
      by_cases hfirst : key first = k
      · rw [List.eraseP_cons_of_pos (by simpa using hfirst)] at h
        refine ⟨List.mem_cons_of_mem _ h, ?_⟩
        intro hkey
        exact hnodup.1 (hfirst.trans hkey.symm ▸ List.mem_map_of_mem h)
      · rw [List.eraseP_cons_of_neg (by simpa using hfirst), List.mem_cons] at h
        rcases h with rfl | h
        · exact ⟨List.mem_cons_self, hfirst⟩
        · obtain ⟨hmem, hkey⟩ := ih hnodup.2 h
          exact ⟨List.mem_cons_of_mem _ hmem, hkey⟩

end Lookup

section TakeWhile

variable {key : Row → Int} {p : Row → Bool}

/-- The rows up to the first that fails a test hold all that pass it exactly if none that fails stands before
one that passes. -/
theorem forall_mem_takeWhile_iff {rows : List Row} (hordered : (rows.map key).Pairwise (· < ·)) :
    (∀ r ∈ rows, p r = true → r ∈ rows.takeWhile p) ↔ ∀ m ∈ rows, ∀ r ∈ rows, p m = false → p r = true →
      key r < key m := by
  induction rows with
  | nil => simp
  | cons first rest ih =>
      rw [List.map_cons, List.pairwise_cons] at hordered
      have hfirst : ∀ r ∈ rest, key first < key r := fun r hr => hordered.1 _ (List.mem_map_of_mem hr)
      rw [List.takeWhile_cons]
      cases hp : p first with
      | true =>
          rw [if_pos rfl]
          have ih := ih hordered.2
          constructor
          · intro h m hm r hr hpm hpr
            rcases List.mem_cons.mp hm with rfl | hmrest
            · rw [hp] at hpm
              cases hpm
            rcases List.mem_cons.mp hr with rfl | hrrest
            · exact hfirst m hmrest
            · refine ih.mp ?_ m hmrest r hrrest hpm hpr
              intro r' hr' hpr'
              rcases List.mem_cons.mp (h r' (List.mem_cons_of_mem _ hr') hpr') with rfl | hmem
              · exact absurd (hfirst r' hr') (Int.lt_irrefl _)
              · exact hmem
          · intro h r hr hpr
            rcases List.mem_cons.mp hr with rfl | hr
            · exact List.mem_cons_self
            · have hrest := ih.mpr fun m hm r' hr' => h m (List.mem_cons_of_mem _ hm) r'
                (List.mem_cons_of_mem _ hr')
              exact List.mem_cons_of_mem _ (hrest r hr hpr)
      | false =>
          rw [if_neg Bool.false_ne_true]
          constructor
          · intro h m _ r hr _ hpr
            cases h r hr hpr
          · intro h r hr hpr
            have hlt := h first List.mem_cons_self r hr hp hpr
            rcases List.mem_cons.mp hr with rfl | hr
            · exact absurd hlt (Int.lt_irrefl _)
            · exact absurd hlt (Int.lt_asymm (hfirst r hr))

end TakeWhile

section MaxBy

variable (score : Row → Int)

/-- The row with the largest score, the first of them when several tie. -/
def maxBy : List Row → Option Row
  | [] => none
  | r :: rest =>
      match maxBy rest with
      | none => some r
      | some best => if score r < score best then some best else some r

/-- No row scores more than the one found. -/
theorem le_maxBy {rows : List Row} {r : Row} (h : r ∈ rows) :
    ∃ best, maxBy score rows = some best ∧ score r ≤ score best := by
  induction rows with
  | nil => cases h
  | cons first rest ih =>
      rw [maxBy]
      rcases List.mem_cons.mp h with rfl | hrest
      · cases maxBy score rest with
        | none => exact ⟨r, rfl, Int.le_refl _⟩
        | some best =>
            by_cases hlt : score r < score best
            · exact ⟨best, if_pos hlt, Int.le_of_lt hlt⟩
            · exact ⟨r, if_neg hlt, Int.le_refl _⟩
      · obtain ⟨best, hbest, hle⟩ := ih hrest
        simp only [hbest]
        by_cases hlt : score first < score best
        · exact ⟨best, if_pos hlt, hle⟩
        · exact ⟨first, if_neg hlt, Int.le_trans hle (Int.not_lt.mp hlt)⟩

variable {score}

theorem mem_of_maxBy {rows : List Row} {best : Row} (h : maxBy score rows = some best) : best ∈ rows := by
  induction rows with
  | nil => cases h
  | cons first rest ih =>
      rw [maxBy] at h
      split at h
      · exact Option.some.inj h ▸ List.mem_cons_self
      · rename_i other hother
        split at h
        · exact List.mem_cons_of_mem _ (ih (hother.trans h))
        · exact Option.some.inj h ▸ List.mem_cons_self

/-- With increasing scores the largest is the last row. -/
theorem maxBy_append_singleton {rows : List Row} {last : Row}
    (h : ∀ r ∈ rows, score r < score last) : maxBy score (rows ++ [last]) = some last := by
  induction rows with
  | nil => rfl
  | cons r rest ih =>
      rw [List.cons_append, maxBy, ih fun r' hr' => h r' (List.mem_cons_of_mem _ hr')]
      simp only [h r List.mem_cons_self, if_true]

end MaxBy

section Places

variable {key : Row → Key} {rows : List Row} {i : Nat} {old : Row}

theorem mem_set_self (hget : rows[i]? = some old) {new : Row} : new ∈ rows.set i new :=
  List.mem_set (List.getElem?_eq_some_iff.mp hget).1 new

/-- Replacing a row at its place keeps the others. -/
theorem eq_or_mem_set (hget : rows[i]? = some old) {new r : Row} (hr : r ∈ rows) :
    r = old ∨ r ∈ rows.set i new := by
  obtain ⟨j, hj⟩ := List.mem_iff_getElem?.mp hr
  by_cases heq : i = j
  · subst heq
    rw [hget, Option.some.injEq] at hj
    exact .inl hj.symm
  · refine .inr (List.mem_iff_getElem?.mpr ⟨j, ?_⟩)
    rw [List.getElem?_set_ne heq, hj]

/-- What is left when a row is replaced at its place: the new row, and rows of other keys. -/
theorem eq_or_ne_of_mem_set (hnodup : (rows.map key).Nodup) (hget : rows[i]? = some old) {new r : Row}
    (hr : r ∈ rows.set i new) : r = new ∨ r ∈ rows ∧ key r ≠ key old := by
  induction rows generalizing i with
  | nil => cases hget
  | cons first rest ih =>
      rw [List.map_cons, List.nodup_cons] at hnodup
      cases i with
      | zero =>
          obtain rfl : first = old := Option.some.inj hget
          rcases List.mem_cons.mp hr with rfl | hr
          · exact .inl rfl
          · exact .inr ⟨List.mem_cons_of_mem _ hr, fun heq => hnodup.1 (heq ▸ List.mem_map_of_mem hr)⟩
      | succ i =>
          rcases List.mem_cons.mp hr with rfl | hr
          · have hold : old ∈ rest := List.mem_of_getElem? hget
            exact .inr ⟨List.mem_cons_self, fun heq => hnodup.1 (heq ▸ List.mem_map_of_mem hold)⟩
          · exact (ih hnodup.2 hget hr).imp id fun h => ⟨List.mem_cons_of_mem _ h.1, h.2⟩

/-- What is left when a row is taken out at its place: the rows of other keys. -/
theorem mem_eraseIdx_iff (hnodup : (rows.map key).Nodup) (hget : rows[i]? = some old) {r : Row} :
    r ∈ rows.eraseIdx i ↔ r ∈ rows ∧ key r ≠ key old := by
  induction rows generalizing i with
  | nil => cases hget
  | cons first rest ih =>
      rw [List.map_cons, List.nodup_cons] at hnodup
      cases i with
      | zero =>
          obtain rfl : first = old := Option.some.inj hget
          rw [List.eraseIdx_cons_zero, List.mem_cons]
          constructor
          · exact fun hr => ⟨.inr hr, fun heq => hnodup.1 (heq ▸ List.mem_map_of_mem hr)⟩
          · rintro ⟨rfl | hr, hne⟩
            · exact absurd rfl hne
            · exact hr
      | succ i =>
          have hold : old ∈ rest := List.mem_of_getElem? hget
          rw [List.eraseIdx_cons_succ, List.mem_cons, List.mem_cons, ih hnodup.2 hget, or_and_right]
          refine or_congr_left (iff_self_and.mpr ?_)
          rintro rfl heq
          exact hnodup.1 (heq ▸ List.mem_map_of_mem hold)

/-- Replacing a row by one with its key keeps the keys as a list. -/
theorem map_set_of_key_eq (hget : rows[i]? = some old) {new : Row} (hkey : key new = key old) :
    (rows.set i new).map key = rows.map key := by
  obtain ⟨hi, rfl⟩ := List.getElem?_eq_some_iff.mp hget
  rw [List.map_set, hkey, ← List.getElem_map key, List.set_getElem_self]
  rwa [List.length_map]

end Places

end Rows
