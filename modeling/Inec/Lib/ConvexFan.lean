import Inec.Lib.Planar

/-!
# Fans

A fan is a list of points around a point `o`, the last one first, in the order of their directions as seen from `o`,
each of which is reached by a turn to the left. Together with `o` they are the corners of a convex polygon.
-/

namespace Planar

/-- The point under the top of a sorted list, or `o` if there is none. -/
theorem headD_directed {α κ : Type} [LinearOrder κ] (o : α) {dir : α → κ} {S : Set α} {a : α} {rest : List α}
    (hS : ∀ v ∈ rest, v ∈ S) (hsorted : (a :: rest).Pairwise fun later earlier => dir earlier ≤ dir later) :
    rest.headD o = o ∨ (rest.headD o ∈ S ∧ dir (rest.headD o) ≤ dir a) := by
  cases rest with
  | nil => exact .inl rfl
  | cons x rest =>
      right
      exact ⟨hS x List.mem_cons_self, List.rel_of_pairwise_cons hsorted List.mem_cons_self⟩

variable {K κ : Type} [Field K] [LinearOrder K] [IsStrictOrderedRing K] [LinearOrder κ]

/-- The points of the set are ordered by their directions from `o`. -/
structure Directed (o : K × K) (dir : K × K → κ) (S : Set (K × K)) : Prop where
  nonneg : ∀ a ∈ S, ∀ b ∈ S, dir a ≤ dir b → 0 ≤ cross o a b
  pos : ∀ a ∈ S, ∀ b ∈ S, dir a < dir b → 0 < cross o a b

/-- Every point is reached from the two below it, or from `o`, by a turn to the left. -/
def Fan (o : K × K) : List (K × K) → Prop
  | b :: a :: rest => 0 < cross (rest.headD o) a b ∧ Fan o (a :: rest)
  | _ => True

/-- Inside a polygon whose corners go round to the left, or on its border. -/
def InsideOrOn (ring : List (K × K)) (p : K × K) : Prop :=
  p ∈ convexHull K {v | v ∈ ring} ∧ ring.IsChain fun a b => 0 ≤ cross a b p

variable {o : K × K} {dir : K × K → κ} {S : Set (K × K)} {a b r x : K × K} {rest chain : List (K × K)}

theorem Directed.lt_of_pos (h : Directed o dir S) (ha : a ∈ S) (hb : b ∈ S) (hpos : 0 < cross o a b) :
    dir a < dir b := by
  by_contra hle
  have hback := h.nonneg b hb a ha (not_lt.mp hle)
  rw [cross_swap] at hback
  linarith

theorem Directed.cross_eq_zero (h : Directed o dir S) (ha : a ∈ S) (hb : b ∈ S) (heq : dir a = dir b) :
    cross o a b = 0 := by
  have hback := h.nonneg b hb a ha heq.ge
  rw [cross_swap] at hback
  exact le_antisymm (by linarith) (h.nonneg a ha b hb heq.le)

/-- Between two turns to the left the direction changes. -/
theorem Directed.lt_of_turns (h : Directed o dir S) (hx : x = o ∨ (x ∈ S ∧ dir x ≤ dir a)) (ha : a ∈ S) (hb : b ∈ S)
    (hr : r ∈ S) (hab : dir a ≤ dir b) (hbr : dir b ≤ dir r) (hturn : 0 < cross x a b) (hturn' : 0 < cross a b r) :
    dir a < dir b := by
  cases hx with
  | inl heq => exact h.lt_of_pos ha hb (heq ▸ hturn)
  | inr hx =>
      by_contra hle
      have hzero := h.cross_eq_zero ha hb (le_antisymm hab (not_lt.mp hle))
      have hxb := h.nonneg x hx.1 b hb (hx.2.trans hab)
      have har := h.nonneg a ha r hr (hab.trans hbr)
      have hnear : cross o x b < cross o x a := by
        rw [cross_eq_add_sub o x a b, hzero] at hturn
        linarith
      have hfar : cross o a r < cross o b r := by
        rw [cross_eq_add_sub o a b r, hzero] at hturn'
        linarith
      have hproduct := cross_mul_cross o x a b r
      rw [hzero, mul_zero, sub_zero] at hproduct
      have hless := mul_lt_mul'' hnear hfar hxb har
      exact absurd hproduct hless.ne'

/-- A point to which the top of a fan turns is on the left of all edges. -/
theorem Directed.edges_of_turn (h : Directed o dir S) (hS : ∀ v ∈ b :: rest, v ∈ S) (hr : r ∈ S)
    (hsorted : (b :: rest).Pairwise fun later earlier => dir earlier ≤ dir later) (hbr : dir b ≤ dir r)
    (hfan : Fan o (b :: rest)) (hturn : 0 < cross (rest.headD o) b r) :
    (b :: (rest ++ [o])).IsChain fun z y => 0 ≤ cross y z r := by
  induction rest generalizing b with
  | nil => exact List.isChain_pair.mpr hturn.le
  | cons a rest ih =>
      rw [List.cons_append, List.isChain_cons_cons]
      have ha : a ∈ S := hS a (by simp)
      have hb : b ∈ S := hS b List.mem_cons_self
      have hab : dir a ≤ dir b := List.rel_of_pairwise_cons hsorted List.mem_cons_self
      have hbelow := headD_directed o (fun v hv => hS v (List.mem_cons_of_mem b (List.mem_cons_of_mem a hv)))
        hsorted.of_cons
      have hlt := h.lt_of_turns hbelow ha hb hr hab hbr hfan.1 hturn
      refine ⟨hturn.le, ih (fun v hv => hS v (List.mem_cons_of_mem b hv)) hsorted.of_cons (hab.trans hbr) hfan.2 ?_⟩
      have hnonneg : 0 ≤ cross o (rest.headD o) a := by
        cases hbelow with
        | inl heq =>
            rw [heq, cross_self_left]
        | inr hmem => exact h.nonneg _ hmem.1 a ha hmem.2
      have hsum := mul_cross_first o (rest.headD o) a b r
      have hleft := mul_nonneg hnonneg hturn.le
      have hright := mul_pos (h.pos a ha r hr (hlt.trans_le hbr)) hfan.1
      have hproduct : 0 < cross o a b * cross (rest.headD o) a r := by
        rw [hsum]
        exact add_pos_of_nonneg_of_pos hleft hright
      exact (mul_pos_iff_of_pos_left (h.pos a ha b hb hlt)).mp hproduct

/-- The top of a fan from which a point is not reached by a turn to the left lies in the hull of the rest. -/
theorem Directed.mem_hull_of_turn (h : Directed o dir S) (hS : ∀ v ∈ b :: a :: rest, v ∈ S) (hr : r ∈ S)
    (hsorted : (b :: a :: rest).Pairwise fun later earlier => dir earlier ≤ dir later) (hbr : dir b ≤ dir r)
    (hfan : Fan o (b :: a :: rest)) (hturn : cross a b r ≤ 0) : b ∈ convexHull K {o, a, r} := by
  have hb : b ∈ S := hS b List.mem_cons_self
  have ha : a ∈ S := hS a (by simp)
  have hab : dir a ≤ dir b := List.rel_of_pairwise_cons hsorted List.mem_cons_self
  by_cases hlt : dir a < dir r
  · exact mem_convexHull_triangle (h.nonneg a ha b hb hab) (h.nonneg b hb r hr hbr) (h.pos a ha r hr hlt) hturn
  · -- all three are in one direction, and the turn before says that `b` is nearer than `a`
    have hline := h.cross_eq_zero ha hb (le_antisymm hab (hbr.trans (not_lt.mp hlt)))
    have hleft : 0 < cross (rest.headD o) a b := hfan.1
    have hbelow := headD_directed o (fun v hv => hS v (List.mem_cons_of_mem b (List.mem_cons_of_mem a hv)))
      hsorted.of_cons
    have hsegment : b ∈ convexHull K {o, a} := by
      cases hbelow with
      | inl heq =>
          rw [heq, hline] at hleft
          exact absurd hleft (lt_irrefl 0)
      | inr hmem =>
          have hnonneg := h.nonneg _ hmem.1 b hb (hmem.2.trans hab)
          rw [cross_eq_add_sub o, hline] at hleft
          exact mem_convexHull_segment hline hnonneg (by linarith) (by linarith)
    exact convexHull_mono (Set.insert_subset_insert (Set.singleton_subset_iff.mpr (Set.mem_insert a {r}))) hsegment

/-- The edge to a new point has all points of the fan on its left. -/
theorem Directed.sees_of_edges (h : Directed o dir S) (hS : ∀ v ∈ rest, v ∈ S) (hb : b ∈ S) (hr : r ∈ S)
    (hsorted : rest.Pairwise fun later earlier => dir earlier ≤ dir later) (hlow : ∀ v ∈ rest, dir v < dir b)
    (hbr : dir b ≤ dir r) (hedges : rest.IsChain fun z y => 0 ≤ cross y z b)
    (hhead : ∀ a ∈ rest.head?, 0 ≤ cross a b r) : ∀ v ∈ rest, 0 ≤ cross v b r := by
  induction rest with
  | nil => exact List.forall_mem_nil _
  | cons y rest ih =>
      have hy : 0 ≤ cross y b r := hhead y rfl
      refine List.forall_mem_cons.mpr ⟨hy, ih (fun v hv => hS v (List.mem_cons_of_mem y hv)) hsorted.of_cons
        (fun v hv => hlow v (List.mem_cons_of_mem y hv)) hedges.tail ?_⟩
      intro v hv
      have hmem : v ∈ rest := List.mem_of_mem_head? hv
      have hedge : 0 ≤ cross v y b := by
        cases rest with
        | nil => cases hmem
        | cons v' rest =>
            obtain rfl := Option.some.inj hv
            exact (List.isChain_cons_cons.mp hedges).1
      have hv : v ∈ S := hS v (List.mem_cons_of_mem y hmem)
      have hyS : y ∈ S := hS y List.mem_cons_self
      have hyb := h.pos y hyS b hb (hlow y List.mem_cons_self)
      have hvb := h.pos v hv b hb (hlow v (List.mem_cons_of_mem y hmem))
      have hsum := mul_cross_last o v y b r
      have hproduct : 0 ≤ cross o y b * cross v b r := by
        rw [hsum]
        exact add_nonneg (mul_nonneg (h.nonneg b hb r hr hbr) hedge) (mul_nonneg hvb.le hy)
      exact nonneg_of_mul_nonneg_right hproduct hyb

/-- All edges of a fan have all of its points on their left. -/
theorem Directed.edges_of_fan (h : Directed o dir S) (hS : ∀ v ∈ chain, v ∈ S)
    (hsorted : chain.Pairwise fun later earlier => dir earlier ≤ dir later) (hfan : Fan o chain) :
    ∀ v ∈ chain ++ [o], (chain ++ [o]).IsChain fun z y => 0 ≤ cross y z v := by
  induction chain with
  | nil => exact fun v _ => List.isChain_singleton o
  | cons r rest ih =>
      have hr : r ∈ S := hS r List.mem_cons_self
      cases rest with
      | nil =>
          intro v hv
          apply List.isChain_pair.mpr
          obtain rfl | rfl := List.mem_pair.mp hv
          · rw [cross_self_right]
          · rw [cross_self_ends]
      | cons b rest =>
          have hS' : ∀ v ∈ b :: rest, v ∈ S := fun v hv => hS v (List.mem_cons_of_mem r hv)
          have hb : b ∈ S := hS' b List.mem_cons_self
          have hbr : dir b ≤ dir r := List.rel_of_pairwise_cons hsorted List.mem_cons_self
          have hold := ih hS' hsorted.of_cons hfan.2
          intro v hv
          rw [List.cons_append, List.cons_append, List.isChain_cons_cons]
          cases List.mem_cons.mp hv with
          | inl hvr =>
              rw [hvr, cross_self_right]
              exact ⟨le_rfl, h.edges_of_turn hS' hr hsorted.of_cons hbr hfan.2 hfan.1⟩
          | inr hv =>
              have hv : v ∈ b :: rest ++ [o] := hv
              refine ⟨?_, hold v hv⟩
              rw [List.cons_append, List.mem_cons, List.mem_append, List.mem_singleton] at hv
              obtain rfl | hv | rfl := hv
              · rw [cross_self_ends]
              · have hlow : ∀ w ∈ rest, dir w < dir b := by
                  cases rest with
                  | nil => exact List.forall_mem_nil _
                  | cons a rest =>
                      have hab : dir a ≤ dir b := List.rel_of_pairwise_cons hsorted.of_cons List.mem_cons_self
                      have hbelow := headD_directed o
                        (fun v hv => hS' v (List.mem_cons_of_mem b
                          (List.mem_cons_of_mem a hv))) hsorted.of_cons.of_cons
                      have hlt := h.lt_of_turns hbelow (hS' a (by simp)) hb hr hab hbr hfan.2.1 hfan.1
                      refine List.forall_mem_cons.mpr ⟨hlt, fun w hw => ?_⟩
                      exact (List.rel_of_pairwise_cons hsorted.of_cons.of_cons hw).trans_lt hlt
                have hedges := (hold b (by simp)).tail.left_of_append
                have hhead : ∀ a ∈ rest.head?, 0 ≤ cross a b r := by
                  intro a ha
                  have hturn := hfan.1
                  rw [List.headD_eq_head?_getD, ha] at hturn
                  exact hturn.le
                rw [← cross_rotate]
                exact h.sees_of_edges (fun w hw => hS' w
                  (List.mem_cons_of_mem b hw)) hb hr hsorted.of_cons.of_cons hlow
                  hbr hedges hhead v hv
              · rw [← cross_rotate]
                exact h.nonneg b hb r hr hbr

/-- The corners of a fan make a convex polygon, with everything in their hull inside or on it. -/
theorem Directed.insideOrOn_of_fan (h : Directed o dir S) (hS : ∀ v ∈ chain, v ∈ S)
    (hsorted : chain.Pairwise fun later earlier => dir earlier ≤ dir later) (hfan : Fan o chain) {p : K × K}
    (hp : p ∈ convexHull K {v | v ∈ chain ++ [o]}) : InsideOrOn (o :: chain.reverse ++ [o]) p := by
  have hcorners : {v | v ∈ o :: chain.reverse ++ [o]} = {v | v ∈ chain ++ [o]} := by
    ext v
    simp [or_comm]
  have hring : (o :: chain.reverse ++ [o]).reverse = o :: (chain ++ [o]) := by simp
  refine ⟨by rwa [hcorners], ?_⟩
  -- each half plane holds the corners, and so their hull
  have hedges : ∀ v ∈ chain ++ [o], (o :: (chain ++ [o])).IsChain fun z y => 0 ≤ cross y z v := by
    intro v hv
    have hclosing : 0 ≤ cross (chain.headD o) o v := by
      rw [cross_rotate]
      cases chain with
      | nil => exact (cross_self_ends o v).ge
      | cons top rest =>
          rw [List.cons_append, List.mem_cons, List.mem_append, List.mem_singleton] at hv
          obtain rfl | hv | rfl := hv
          · exact (cross_self_right _ _).ge
          · exact h.nonneg v (hS v (List.mem_cons_of_mem top hv)) top (hS top List.mem_cons_self)
              (List.rel_of_pairwise_cons hsorted hv)
          · exact (cross_self_left _ _).ge
    have hrest := h.edges_of_fan hS hsorted hfan v hv
    cases chain with
    | nil => exact List.isChain_cons_cons.mpr ⟨hclosing, hrest⟩
    | cons top rest => exact List.isChain_cons_cons.mpr ⟨hclosing, hrest⟩
  rw [← List.isChain_reverse, hring, List.isChain_iff_getElem]
  intro i hi
  have hside : convexHull K {v | v ∈ chain ++ [o]} ⊆
      {p | 0 ≤ cross ((o :: (chain ++ [o]))[i + 1]) ((o :: (chain ++ [o]))[i]) p} :=
    convexHull_min (fun v hv => List.isChain_iff_getElem.mp (hedges v hv) i hi) (convex_left _ _)
  exact hside hp

end Planar
