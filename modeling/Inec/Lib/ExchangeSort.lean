import Mathlib.Data.List.Perm.Basic

/-!
# Exchange sort

The double loop that exchanges position `i` with every later position of higher score, for `i` from the
first to the last. It sorts by decreasing score, and is not stable.
-/

namespace ExchangeSort

variable {α : Type} (score : α → Int)

/-- The inner loop: the value held at position `i` is exchanged with every later value of higher score.
It returns what position `i` holds at the end and what the later positions hold. -/
def exchange : α → List α → α × List α
  | held, [] => (held, [])
  | held, next :: rest =>
      if score next > score held then ((exchange next rest).1, held :: (exchange next rest).2)
      else ((exchange held rest).1, next :: (exchange held rest).2)

/-- The outer loop, with one unit of fuel for each position. -/
def loop : Nat → List α → List α
  | 0, ranked => ranked
  | _, [] => []
  | fuel + 1, held :: rest => (exchange score held rest).1 :: loop fuel (exchange score held rest).2

def sort (ranked : List α) : List α := loop score ranked.length ranked

variable {score}

theorem exchange_perm (held : α) (rest : List α) :
    ((exchange score held rest).1 :: (exchange score held rest).2).Perm (held :: rest) := by
  induction rest generalizing held with
  | nil => exact List.Perm.refl _
  | cons next rest ih =>
      rw [exchange]
      split
      · exact (List.Perm.swap held _ _).trans ((ih next).cons held)
      · exact (List.Perm.swap next _ _).trans (((ih held).cons next).trans (List.Perm.swap held next rest))

theorem exchange_length (held : α) (rest : List α) :
    (exchange score held rest).2.length = rest.length := by
  have h : ((exchange score held rest).1 :: (exchange score held rest).2).length =
      (held :: rest).length := (exchange_perm held rest).length_eq
  simpa using h

theorem le_exchange (held : α) (rest : List α) :
    ∀ x ∈ held :: rest, score x ≤ score (exchange score held rest).1 := by
  induction rest generalizing held with
  | nil =>
      intro x hx
      rw [List.mem_singleton.mp hx]
      exact Int.le_refl _
  | cons next rest ih =>
      intro x hx
      rw [exchange]
      split
      · rename_i hlt
        have hnext := ih next next List.mem_cons_self
        rcases List.mem_cons.mp hx with rfl | hx
        · exact Int.le_trans (Int.le_of_lt hlt) hnext
        · exact ih next x hx
      · rename_i hle
        have hheld := ih held held List.mem_cons_self
        rcases List.mem_cons.mp hx with rfl | hx
        · exact hheld
        · rcases List.mem_cons.mp hx with rfl | hx
          · exact Int.le_trans (Int.not_lt.mp hle) hheld
          · exact ih held x (List.mem_cons_of_mem _ hx)

theorem loop_perm (fuel : Nat) (ranked : List α) : (loop score fuel ranked).Perm ranked := by
  induction fuel generalizing ranked with
  | zero => exact List.Perm.refl _
  | succ fuel ih =>
      cases ranked with
      | nil => exact List.Perm.refl _
      | cons held rest => exact ((ih _).cons _).trans (exchange_perm held rest)

theorem loop_sorted {fuel : Nat} {ranked : List α} (hfuel : ranked.length ≤ fuel) :
    (loop score fuel ranked).Pairwise fun x y => score y ≤ score x := by
  induction fuel generalizing ranked with
  | zero =>
      rw [List.length_eq_zero_iff.mp (Nat.le_zero.mp hfuel)]
      exact List.Pairwise.nil
  | succ fuel ih =>
      cases ranked with
      | nil => exact List.Pairwise.nil
      | cons held rest =>
          refine List.Pairwise.cons ?_ (ih ?_)
          · intro y hy
            apply le_exchange held rest
            apply (exchange_perm held rest).subset
            exact List.mem_cons_of_mem _ ((loop_perm fuel _).subset hy)
          · rw [exchange_length]
            simpa using hfuel

theorem sort_perm (ranked : List α) : (sort score ranked).Perm ranked := loop_perm _ ranked

/-- The loop sorts by decreasing score. -/
theorem sort_sorted (ranked : List α) : (sort score ranked).Pairwise fun x y => score y ≤ score x :=
  loop_sorted (Nat.le_refl _)

/-- The scores come out in one order, whatever order the list had. -/
theorem map_sort_eq_of_perm {ranked ranked' : List α} (h : ranked.Perm ranked') :
    (sort score ranked).map score = (sort score ranked').map score := by
  have hperm : ((sort score ranked).map score).Perm ((sort score ranked').map score) :=
    ((sort_perm ranked).trans (h.trans (sort_perm ranked').symm)).map score
  have hsorted (ranked : List α) : ((sort score ranked).map score).Pairwise fun x y => y ≤ x :=
    List.pairwise_map.mpr (sort_sorted ranked)
  exact hperm.eq_of_pairwise (fun _ _ _ _ hle hge => Int.le_antisymm hge hle) (hsorted _) (hsorted _)

end ExchangeSort
