import Mathlib.Analysis.Convex.Combination
import Mathlib.Tactic.LinearCombination
import Mathlib.Tactic.Linarith
import Mathlib.Tactic.FieldSimp
import Mathlib.Tactic.FinCases

/-!
# Points of a plane

The cross product says on which side of a line a point lies. Seen from a point `o`, `cross o a b` compares the
directions of `a` and `b`, and the identities below carry a turn of neighbours over to points that are further
apart.
-/

namespace Planar

section Identities

variable {K : Type} [CommRing K]

/-- Positive if `p` is on the left of the line from `a` to `b`. -/
def cross (a b p : K × K) : K := (b.1 - a.1) * (p.2 - a.2) - (b.2 - a.2) * (p.1 - a.1)

theorem cross_rotate (a b p : K × K) : cross a b p = cross b p a := by
  unfold cross
  ring

theorem cross_swap (a b p : K × K) : cross a p b = -cross a b p := by
  unfold cross
  ring

@[simp] theorem cross_self_left (a p : K × K) : cross a a p = 0 := by
  unfold cross
  ring

@[simp] theorem cross_self_right (a b : K × K) : cross a b b = 0 := by
  unfold cross
  ring

@[simp] theorem cross_self_ends (a b : K × K) : cross a b a = 0 := by
  unfold cross
  ring

/-- A turn as the directions from a fourth point. -/
theorem cross_eq_add_sub (o a b p : K × K) : cross a b p = cross o a b + cross o b p - cross o a p := by
  unfold cross
  ring

/-- The relation of four directions. -/
theorem cross_mul_cross (o u v w p : K × K) :
    cross o u v * cross o w p = cross o u w * cross o v p - cross o u p * cross o v w := by
  unfold cross
  ring

theorem mul_cross_first (o u v w p : K × K) :
    cross o v w * cross u v p = cross o u v * cross v w p + cross o v p * cross u v w := by
  unfold cross
  ring

theorem mul_cross_last (o u v w p : K × K) :
    cross o v w * cross u w p = cross o w p * cross u v w + cross o u w * cross v w p := by
  unfold cross
  ring

/-- The weights of two points are those of their sides. -/
theorem cross_weighted (a b x y : K × K) {s t : K} (hst : s + t = 1) :
    cross a b (s • x + t • y) = s * cross a b x + t * cross a b y := by
  obtain rfl : t = 1 - s := by linear_combination hst
  simp only [cross, Prod.fst_add, Prod.snd_add, Prod.smul_fst, Prod.smul_snd, smul_eq_mul]
  ring

/-- The square of a distance. -/
def distSq (p q : K × K) : K := (q.1 - p.1) ^ 2 + (q.2 - p.2) ^ 2

/-- A point beside a direction, as far off as another is in it. -/
def beside (o a : K × K) : K × K := (o.1 + (a.2 - o.2), o.2 - (a.1 - o.1))

theorem cross_beside_self (o a : K × K) : cross o (beside o a) a = distSq o a := by
  unfold cross beside distSq
  ring

/-- Pythagoras. -/
theorem sq_cross_beside (o a b : K × K) :
    cross o (beside o a) b ^ 2 = distSq o a * distSq o b - cross o a b ^ 2 := by
  unfold cross beside distSq
  ring

end Identities

/-! ### Convex sets -/

section Convex

variable {K : Type} [Field K] [LinearOrder K] [IsStrictOrderedRing K] {a b p o w : K × K}

theorem convex_left (a b : K × K) : Convex K {p | 0 ≤ cross a b p} := by
  intro x hx y hy s t hs ht hst
  show 0 ≤ cross a b (s • x + t • y)
  rw [cross_weighted a b x y hst]
  exact add_nonneg (mul_nonneg hs hx) (mul_nonneg ht hy)

/-- On the left of a line, or on the line and no further than a bound. -/
theorem convex_left_or_within (a b a' b' : K × K) (bound : K) :
    Convex K {p | 0 < cross a b p ∨ (cross a b p = 0 ∧ cross a' b' p ≤ bound)} := by
  intro x hx y hy s t hs ht hst
  show 0 < cross a b (s • x + t • y) ∨ (cross a b (s • x + t • y) = 0 ∧ cross a' b' (s • x + t • y) ≤ bound)
  rw [cross_weighted a b x y hst, cross_weighted a' b' x y hst]
  -- a point off the line keeps no weight if the sum is on the line
  have hpart : ∀ (z : K × K) (r : K), 0 ≤ r → (0 < cross a b z ∨ (cross a b z = 0 ∧ cross a' b' z ≤ bound)) →
      0 < r * cross a b z ∨ (r * cross a b z = 0 ∧ r * cross a' b' z ≤ r * bound) := by
    intro z r hr hz
    cases hr.lt_or_eq with
    | inl hpos =>
        cases hz with
        | inl hleft => exact .inl (mul_pos hpos hleft)
        | inr hline => exact .inr ⟨by rw [hline.1, mul_zero], mul_le_mul_of_nonneg_left hline.2 hr⟩
    | inr hzero =>
        rw [← hzero]
        simp
  cases hpart x s hs hx with
  | inl hleft =>
      left
      cases hpart y t ht hy with
      | inl hleft' => exact add_pos hleft hleft'
      | inr hline => rwa [hline.1, add_zero]
  | inr hline =>
      cases hpart y t ht hy with
      | inl hleft =>
          left
          rwa [hline.1, zero_add]
      | inr hline' =>
          right
          refine ⟨by rw [hline.1, hline'.1, add_zero], ?_⟩
          calc s * cross a' b' x + t * cross a' b' y ≤ s * bound + t * bound := add_le_add hline.2 hline'.2
            _ = bound := by rw [← add_mul, hst, one_mul]

/-- A point between two directions that is on the near side of the line through their points. -/
theorem mem_convexHull_triangle (hab : 0 ≤ cross o a b) (hbp : 0 ≤ cross o b p) (hap : 0 < cross o a p)
    (hturn : cross a b p ≤ 0) : b ∈ convexHull K {o, a, p} := by
  have hne : cross o a p ≠ 0 := hap.ne'
  obtain ⟨s, hs⟩ : ∃ s, s = cross o b p / cross o a p := ⟨_, rfl⟩
  obtain ⟨t, ht⟩ : ∃ t, t = cross o a b / cross o a p := ⟨_, rfl⟩
  have hsum : s + t ≤ 1 := by
    rw [hs, ht, ← add_div, div_le_one hap]
    have hfan := cross_eq_add_sub o a b p
    linarith
  have hb : b = (1 - s - t) • o + s • a + t • p := by
    rw [hs, ht]
    apply Prod.ext
    · simp only [Prod.fst_add, Prod.smul_fst, smul_eq_mul]
      field_simp
      unfold cross
      ring
    · simp only [Prod.snd_add, Prod.smul_snd, smul_eq_mul]
      field_simp
      unfold cross
      ring
  have hcorners : ∀ i ∈ (Finset.univ : Finset (Fin 3)), ![o, a, p] i ∈ convexHull K {o, a, p} := by
    intro i _
    apply subset_convexHull
    fin_cases i <;> simp
  have hmem := (convex_convexHull K {o, a, p}).sum_mem (w := ![1 - s - t, s, t]) ?_ ?_ hcorners
  · simp only [Fin.sum_univ_three] at hmem
    rw [hb]
    exact hmem
  · intro i _
    fin_cases i
    · show 0 ≤ 1 - s - t
      linarith
    · show 0 ≤ s
      exact hs ▸ div_nonneg hbp hap.le
    · show 0 ≤ t
      exact ht ▸ div_nonneg hab hap.le
  · rw [Fin.sum_univ_three]
    show 1 - s - t + s + t = 1
    ring

/-- A point on a ray that is no further than another, as seen from the side. -/
theorem mem_convexHull_segment (hline : cross o a b = 0) (hnonneg : 0 ≤ cross o w b)
    (hle : cross o w b ≤ cross o w a) (hpos : 0 < cross o w a) : b ∈ convexHull K {o, a} := by
  have hne : cross o w a ≠ 0 := hpos.ne'
  have hb : b = (1 - cross o w b / cross o w a) • o + (cross o w b / cross o w a) • a := by
    unfold cross at hline hne ⊢
    apply Prod.ext
    · simp only [Prod.fst_add, Prod.smul_fst, smul_eq_mul]
      field_simp
      linear_combination (o.1 - w.1) * hline
    · simp only [Prod.snd_add, Prod.smul_snd, smul_eq_mul]
      field_simp
      linear_combination (o.2 - w.2) * hline
  rw [hb]
  apply convex_convexHull K {o, a}
  · exact subset_convexHull K _ (Set.mem_insert o {a})
  · exact subset_convexHull K _ (Set.mem_insert_of_mem o rfl)
  · rw [sub_nonneg, div_le_one hpos]
    exact hle
  · exact div_nonneg hnonneg hpos.le
  · exact sub_add_cancel ..

end Convex

end Planar
