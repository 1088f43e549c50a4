import Mathlib.Order.WithBot
import Inec.Lib.ConvexFan
import Inec.Lib.StableSort
import Inec.Spatial.Dbscan

/-!
# Hulls of points

convex_hull of spatial.rs, a Graham scan: the lowest point goes to the front, the others are sorted by the angle
under which it sees them, and the scan drops whatever is not left behind by a turn to the left. Points in one
direction stay in the order of the request, which is not that of their distances.

Coordinates are rational numbers, and an angle is given by its place in the order of angles.
-/

namespace Inec.Spatial

open Planar

/-- Longitude and latitude. -/
abbrev Point := ℚ × ℚ

def isValidCoord (latitude longitude : ℚ) : Bool :=
  -90 ≤ latitude && latitude ≤ 90 && -180 ≤ longitude && longitude ≤ 180

/-- What the bottom-most point is the minimum of. -/
def height (p : Point) : ℚ ×ₗ ℚ := toLex (p.2, p.1)

/-- `min_by` over what is left from the index `i` on: the first of equal points is kept. -/
def minIndex (best : Nat × Point) (i : Nat) : List Point → Nat
  | [] => best.1
  | p :: rest => minIndex (if height p < height best.2 then (i, p) else best) (i + 1) rest

/-- `pts.swap(0, start)` -/
def swapStart : List Point → List Point
  | [] => []
  | first :: rest =>
      match minIndex (0, first) 1 rest with
      | 0 => first :: rest
      | i + 1 => rest.getD i first :: rest.set i first

/-- `atan2` for points that are not lower than the pivot: 0 for the pivot itself and to its right, and above 0 the
larger the smaller the cotangent. -/
def direction (pivot p : Point) : WithBot ℚ :=
  if p.2 = pivot.2 then ⊥ else ((pivot.1 - p.1) / (p.2 - pivot.2) : ℚ)

/-- `pts[1..].sort_by`, which is stable. -/
def sortAround (pivot : Point) (rest : List Point) : List Point := StableSort.sort (direction pivot) rest

def arrange (points : List Point) : List Point :=
  match swapStart points with
  | [] => []
  | pivot :: rest => pivot :: sortAround pivot rest

/-- The inner loop, on a hull whose last point stands first. -/
def popTurns (pt : Point) : List Point → List Point
  | b :: a :: rest => if cross a b pt ≤ 0 then popTurns pt (a :: rest) else b :: a :: rest
  | hull => hull

def push (hull : List Point) (pt : Point) : List Point := pt :: popTurns pt hull

/-- The closed ring. -/
def ringOf (points : List Point) : List Point :=
  let hull := ((arrange points).foldl push []).reverse
  hull ++ hull.take 1

structure HullFeature where
  ring : List Point
  pointCount : Nat
  hullVertices : Nat
  deriving DecidableEq, Repr

inductive HullError
  | invalid (coordinate : InvalidCoordinate Point)
  | refused (error : String)
  deriving DecidableEq, Repr

structure HullRequest where
  points : List Point

def HullRequest.convexHull (req : HullRequest) : Except HullError HullFeature :=
  match validatePoints (fun p => isValidCoord p.2 p.1) req.points with
  | some coordinate => .error (.invalid coordinate)
  | none =>
      if req.points.length < 3 then .error (.refused "Need at least 3 points for convex hull")
      else .ok ⟨ringOf req.points, req.points.length, (ringOf req.points).length - 1⟩

/-- Of the points in the first direction in which the pivot sees another point, the last one is the farthest. -/
def FarthestLast (points : List Point) : Prop :=
  match swapStart points with
  | [] => True
  | pivot :: rest =>
      ∀ q ∈ rest, q ≠ pivot → (∀ p ∈ rest, p ≠ pivot → direction pivot q ≤ direction pivot p) →
        ∀ last ∈ (rest.filter fun p => direction pivot p = direction pivot q).getLast?,
          distSq pivot q ≤ distSq pivot last

/-! ### The pivot -/

theorem minIndex_spec (best : Nat × Point) (i : Nat) (rest : List Point) :
    (minIndex best i rest = best.1 ∧ ∀ p ∈ rest, height best.2 ≤ height p) ∨
      ∃ j m, minIndex best i rest = i + j ∧ rest[j]? = some m ∧ height m ≤ height best.2 ∧
        ∀ p ∈ rest, height m ≤ height p := by
  induction rest generalizing best i with
  | nil => exact .inl ⟨rfl, List.forall_mem_nil _⟩
  | cons p rest ih =>
      rw [minIndex]
      by_cases hlower : height p < height best.2
      · rw [if_pos hlower]
        right
        obtain ⟨hindex, hmin⟩ | ⟨j, m, hindex, hget, hle, hmin⟩ := ih (i, p) (i + 1)
        · exact ⟨0, p, hindex, rfl, hlower.le, List.forall_mem_cons.mpr ⟨le_rfl, hmin⟩⟩
        · exact ⟨j + 1, m, by omega, hget, hle.trans hlower.le, List.forall_mem_cons.mpr ⟨hle, hmin⟩⟩
      · rw [if_neg hlower]
        have hbest := not_lt.mp hlower
        obtain ⟨hindex, hmin⟩ | ⟨j, m, hindex, hget, hle, hmin⟩ := ih best (i + 1)
        · exact .inl ⟨hindex, List.forall_mem_cons.mpr ⟨hbest, hmin⟩⟩
        · exact .inr ⟨j + 1, m, by omega, hget, hle, List.forall_mem_cons.mpr ⟨hle.trans hbest, hmin⟩⟩

theorem swap_perm {first m : Point} {rest : List Point} {i : Nat} (h : rest[i]? = some m) :
    (m :: rest.set i first).Perm (first :: rest) := by
  induction rest generalizing i with
  | nil => cases h
  | cons p rest ih =>
      cases i with
      | zero =>
          obtain rfl := Option.some.inj h
          exact List.Perm.swap ..
      | succ i =>
          have hrest := (ih h).cons p
          exact ((List.Perm.swap p m _).trans hrest).trans (List.Perm.swap first p rest)

/-- The pivot comes first, and the rest is what it was. -/
theorem swapStart_spec {points : List Point} (hne : points ≠ []) :
    ∃ pivot rest, swapStart points = pivot :: rest ∧ (pivot :: rest).Perm points ∧
      ∀ p ∈ rest, height pivot ≤ height p := by
  cases points with
  | nil => exact absurd rfl hne
  | cons first rest =>
      obtain ⟨hindex, hmin⟩ | ⟨j, m, hindex, hget, hle, hmin⟩ := minIndex_spec (0, first) 1 rest
      · refine ⟨first, rest, ?_, List.Perm.refl _, hmin⟩
        rw [swapStart, hindex]
      · have hperm := @swap_perm first m rest j hget
        refine ⟨m, rest.set j first, ?_, hperm, ?_⟩
        · rw [swapStart, hindex, Nat.add_comm]
          show rest.getD j first :: _ = _
          rw [List.getD_eq_getElem?_getD, hget, Option.getD_some]
        · intro p hp
          obtain rfl | hp := List.mem_cons.mp (hperm.subset (List.mem_cons_of_mem m hp))
          · exact hle
          · exact hmin p hp

/-! ### Directions -/

/-- The points the pivot can see. -/
def Seen (pivot : Point) : Set Point := {p | height pivot ≤ height p ∧ p ≠ pivot}

theorem height_le_iff {p q : Point} : height p ≤ height q ↔ p.2 < q.2 ∨ (p.2 = q.2 ∧ p.1 ≤ q.1) := by
  rw [height, height, Prod.Lex.toLex_le_toLex]

theorem direction_cases {pivot p : Point} (h : p ∈ Seen pivot) :
    (p.2 = pivot.2 ∧ pivot.1 < p.1 ∧ direction pivot p = ⊥) ∨
      (pivot.2 < p.2 ∧ direction pivot p = ((pivot.1 - p.1) / (p.2 - pivot.2) : ℚ)) := by
  obtain hbelow | ⟨hsame, hle⟩ := height_le_iff.mp h.1
  · exact .inr ⟨hbelow, if_neg hbelow.ne'⟩
  · have hne : pivot.1 ≠ p.1 := fun heq => h.2 (Prod.ext heq.symm hsame.symm)
    exact .inl ⟨hsame.symm, lt_of_le_of_ne hle hne, if_pos hsame.symm⟩

/-- Angles are compared as the directions of the points. -/
theorem directed_direction (pivot : Point) : Directed pivot (direction pivot) (Seen pivot) where
  nonneg := by
    intro a ha b hb hle
    unfold cross
    obtain ⟨hlevel, hright, -⟩ | ⟨habove, hdir⟩ := direction_cases ha
    · have hheight : pivot.2 ≤ b.2 := by
        obtain ⟨heq, -⟩ | ⟨hlt, -⟩ := direction_cases hb
        · exact heq.ge
        · exact hlt.le
      rw [hlevel, sub_self, zero_mul, sub_zero]
      exact mul_nonneg (by linarith) (by linarith)
    · obtain ⟨-, -, hdir'⟩ | ⟨habove', hdir'⟩ := direction_cases hb
      · rw [hdir, hdir'] at hle
        exact absurd (le_bot_iff.mp hle) (WithBot.coe_ne_bot)
      · rw [hdir, hdir', WithBot.coe_le_coe, div_le_div_iff₀ (by linarith) (by linarith)] at hle
        linarith
  pos := by
    intro a ha b hb hlt
    unfold cross
    obtain ⟨hlevel, hright, hdir⟩ | ⟨habove, hdir⟩ := direction_cases ha
    · obtain ⟨-, -, hdir'⟩ | ⟨habove', -⟩ := direction_cases hb
      · rw [hdir, hdir'] at hlt
        exact absurd hlt (lt_irrefl ⊥)
      · rw [hlevel, sub_self, zero_mul, sub_zero]
        exact mul_pos (by linarith) (by linarith)
    · obtain ⟨-, -, hdir'⟩ | ⟨habove', hdir'⟩ := direction_cases hb
      · rw [hdir'] at hlt
        exact absurd hlt not_lt_bot
      · rw [hdir, hdir', WithBot.coe_lt_coe, div_lt_div_iff₀ (by linarith) (by linarith)] at hlt
        linarith

theorem mem_sortAround {pivot p : Point} {rest : List Point} : p ∈ sortAround pivot rest ↔ p ∈ rest :=
  (StableSort.sort_perm rest).mem_iff

theorem pairwise_sortAround (pivot : Point) (rest : List Point) :
    (sortAround pivot rest).Pairwise fun p q => direction pivot p ≤ direction pivot q :=
  StableSort.pairwise_sort rest

theorem filter_sortAround (pivot : Point) (rest : List Point) (d : WithBot ℚ) :
    (sortAround pivot rest).filter (fun p => direction pivot p = d) = rest.filter fun p => direction pivot p = d :=
  StableSort.filter_sort d rest

/-! ### The scan -/

section Scan

variable {pivot r l : Point} {chain points rest : List Point}

theorem mem_popTurns {v : Point} {hull : List Point} (h : v ∈ popTurns r hull) : v ∈ hull := by
  induction hull using popTurns.induct r with
  | case1 b a rest hturn ih =>
      rw [popTurns, if_pos hturn] at h
      exact List.mem_cons_of_mem b (ih h)
  | case2 b a rest hturn =>
      rwa [popTurns, if_neg hturn] at h
  | case3 hull hshort =>
      rwa [popTurns] at h
      exact hshort

/-- Every corner is a point that was pushed. -/
theorem mem_foldl_push {v : Point} {hull : List Point} (h : v ∈ points.foldl push hull) :
    v ∈ hull ∨ v ∈ points := by
  induction points generalizing hull with
  | nil => exact .inl h
  | cons p rest ih =>
      cases ih h with
      | inl hmem =>
          cases List.mem_cons.mp hmem with
          | inl heq => exact .inr (heq ▸ List.mem_cons_self)
          | inr hmem => exact .inl (mem_popTurns hmem)
      | inr hmem => exact .inr (List.mem_cons_of_mem p hmem)

/-- Of points in one line with the pivot only the last is kept. -/
theorem foldl_push_line (hline : ∀ a ∈ points, ∀ b ∈ points, cross pivot a b = 0) (hne : points ≠ []) :
    points.foldl push [pivot] = [points.getLast hne, pivot] := by
  have hrun : ∀ (x : Point) (rest : List Point), (∀ a ∈ x :: rest, ∀ b ∈ x :: rest, cross pivot a b = 0) →
      rest.foldl push [x, pivot] = [(x :: rest).getLast (List.cons_ne_nil x rest), pivot] := by
    intro x rest hline
    induction rest generalizing x with
    | nil => rfl
    | cons y rest ih =>
        have hturn : cross pivot x y ≤ 0 := (hline x List.mem_cons_self y (by simp)).le
        have hpush : push [x, pivot] y = [y, pivot] := by
          rw [push, popTurns, if_pos hturn, popTurns]
          simp
        rw [List.foldl_cons, hpush, ih y fun a ha b hb => hline a (List.mem_cons_of_mem x ha) b
          (List.mem_cons_of_mem x hb)]
        rfl
  cases points with
  | nil => exact absurd rfl hne
  | cons x rest =>
      have hpush : push [pivot] x = [x, pivot] := by
        rw [push, popTurns]
        simp
      rw [List.foldl_cons, hpush]
      exact hrun x rest hline

/-- What stands on the hull besides the pivot: a fan that starts from `l`. -/
structure Scanned (pivot l : Point) (chain : List Point) : Prop where
  seen : ∀ v ∈ chain, v ∈ Seen pivot
  sorted : chain.Pairwise fun later earlier => direction pivot earlier ≤ direction pivot later
  fan : Fan pivot chain
  start : chain.getLast? = some l

/-- A point in a later direction keeps the start of the fan, and what it drops is in the hull of what is left. -/
theorem Scanned.popTurns (h : Scanned pivot l chain) (hr : r ∈ Seen pivot)
    (hlater : direction pivot l < direction pivot r) (hlast : ∀ v ∈ chain, direction pivot v ≤ direction pivot r) :
    ∃ kept, popTurns r (chain ++ [pivot]) = kept ++ [pivot] ∧ Scanned pivot l (r :: kept) ∧
      ∀ v ∈ chain, v ∈ convexHull ℚ {v | v ∈ r :: kept ++ [pivot]} := by
  have hdirected := directed_direction pivot
  have hseen : ∀ {kept : List Point}, Scanned pivot l kept → (∀ v ∈ kept, direction pivot v ≤ direction pivot r) →
      Fan pivot (r :: kept) → Scanned pivot l (r :: kept) := by
    intro kept hkept hle hfan
    refine ⟨List.forall_mem_cons.mpr ⟨hr, hkept.seen⟩, List.pairwise_cons.mpr ⟨hle, hkept.sorted⟩, hfan, ?_⟩
    cases kept with
    | nil => cases hkept.start
    | cons b rest => exact hkept.start
  have hsubset : ∀ kept : List Point, ∀ v ∈ kept, v ∈ convexHull ℚ {v | v ∈ r :: kept ++ [pivot]} := by
    intro kept v hv
    apply subset_convexHull
    exact List.mem_append_left _ (List.mem_cons_of_mem r hv)
  induction chain with
  | nil => cases h.start
  | cons b rest ih =>
      cases rest with
      | nil =>
          obtain rfl : b = l := Option.some.inj h.start
          have hturn := hdirected.pos b (h.seen b List.mem_cons_self) r hr hlater
          refine ⟨[b], ?_, hseen h hlast ⟨hturn, trivial⟩, hsubset [b]⟩
          show popTurns r [b, pivot] = [b, pivot]
          rw [Spatial.popTurns, if_neg (not_le.mpr hturn)]
      | cons a rest =>
          by_cases hturn : cross a b r ≤ 0
          · have hbelow : Scanned pivot l (a :: rest) :=
              ⟨fun v hv => h.seen v (List.mem_cons_of_mem b hv), h.sorted.of_cons, h.fan.2, h.start⟩
            obtain ⟨kept, hpop, hscanned, hhull⟩ := ih hbelow fun v hv => hlast v (List.mem_cons_of_mem b hv)
            refine ⟨kept, ?_, hscanned, List.forall_mem_cons.mpr ⟨?_, hhull⟩⟩
            · show Spatial.popTurns r (b :: a :: (rest ++ [pivot])) = _
              rw [Spatial.popTurns, if_pos hturn]
              exact hpop
            · have hb := hdirected.mem_hull_of_turn h.seen hr h.sorted (hlast b List.mem_cons_self) h.fan hturn
              refine convexHull_min ?_ (convex_convexHull ℚ _) hb
              refine Set.insert_subset ?_ (Set.insert_subset (hhull a List.mem_cons_self)
                (Set.singleton_subset_iff.mpr ?_))
              · exact subset_convexHull ℚ _ (by simp)
              · exact subset_convexHull ℚ _ (by simp)
          · refine ⟨b :: a :: rest, ?_, hseen h hlast ⟨not_le.mp hturn, h.fan⟩, hsubset _⟩
            show Spatial.popTurns r (b :: a :: (rest ++ [pivot])) = _
            rw [Spatial.popTurns, if_neg hturn]
            rfl

/-- The scan of what comes after the first direction. -/
theorem Scanned.foldl_push (h : Scanned pivot l chain) (hseen : ∀ p ∈ points, p ∈ Seen pivot)
    (hlater : ∀ p ∈ points, direction pivot l < direction pivot p)
    (hsorted : points.Pairwise fun p q => direction pivot p ≤ direction pivot q)
    (hlast : ∀ v ∈ chain, ∀ p ∈ points, direction pivot v ≤ direction pivot p) :
    ∃ chain', points.foldl push (chain ++ [pivot]) = chain' ++ [pivot] ∧ Scanned pivot l chain' ∧
      ∀ v ∈ chain ++ points, v ∈ convexHull ℚ {v | v ∈ chain' ++ [pivot]} := by
  induction points generalizing chain with
  | nil =>
      refine ⟨chain, rfl, h, fun v hv => subset_convexHull ℚ _ ?_⟩
      rw [List.append_nil] at hv
      exact List.mem_append_left _ hv
  | cons r rest ih =>
      rw [List.pairwise_cons] at hsorted
      obtain ⟨kept, hpop, hscanned, hhull⟩ := h.popTurns (hseen r List.mem_cons_self) (hlater r List.mem_cons_self)
        fun v hv => hlast v hv r List.mem_cons_self
      have hlast' : ∀ v ∈ r :: kept, ∀ p ∈ rest, direction pivot v ≤ direction pivot p := by
        intro v hv p hp
        have hvr : direction pivot v ≤ direction pivot r := by
          obtain rfl | hv := List.mem_cons.mp hv
          · exact le_rfl
          · exact List.rel_of_pairwise_cons hscanned.sorted hv
        exact hvr.trans (hsorted.1 p hp)
      obtain ⟨chain', hrun, hscanned', hhull'⟩ := ih hscanned (fun p hp => hseen p (List.mem_cons_of_mem r hp))
        (fun p hp => hlater p (List.mem_cons_of_mem r hp)) hsorted.2 hlast'
      have hpush : push (chain ++ [pivot]) r = r :: kept ++ [pivot] := by
        rw [push, hpop]
        rfl
      refine ⟨chain', by rw [List.foldl_cons, hpush, hrun], hscanned', ?_⟩
      have hpivot : pivot ∈ convexHull ℚ {v | v ∈ chain' ++ [pivot]} := subset_convexHull ℚ _ (by simp)
      have hold : convexHull ℚ {v | v ∈ r :: kept ++ [pivot]} ⊆ convexHull ℚ {v | v ∈ chain' ++ [pivot]} := by
        refine convexHull_min (fun v hv => ?_) (convex_convexHull ℚ _)
        cases List.mem_append.mp hv with
        | inl hv => exact hhull' v (List.mem_append_left _ hv)
        | inr hv =>
            obtain rfl := List.mem_singleton.mp hv
            exact hpivot
      intro v hv
      cases List.mem_append.mp hv with
      | inl hv => exact hold (hhull v hv)
      | inr hv =>
          cases List.mem_cons.mp hv with
          | inl heq => exact hhull' v (List.mem_append_left _ (heq ▸ List.mem_cons_self))
          | inr hv => exact hhull' v (List.mem_append_right _ hv)

theorem distSq_pos {q : Point} (hq : q ∈ Seen pivot) : 0 < distSq pivot q := by
  unfold distSq
  obtain ⟨-, hright, -⟩ | ⟨habove, -⟩ := direction_cases hq
  · exact add_pos_of_pos_of_nonneg (pow_pos (sub_pos.mpr hright) 2) (sq_nonneg _)
  · exact add_pos_of_nonneg_of_pos (sq_nonneg _) (pow_pos (sub_pos.mpr habove) 2)

theorem cross_beside_nonneg {p q : Point} (hp : p ∈ Seen pivot) (hq : q ∈ Seen pivot)
    (hdir : direction pivot p = direction pivot q) : 0 ≤ cross pivot (beside pivot q) p := by
  have hline := (directed_direction pivot).cross_eq_zero hq hp hdir.symm
  unfold cross at hline
  unfold cross beside
  obtain ⟨hlevel, hright, hbot⟩ | ⟨habove, -⟩ := direction_cases hq
  · obtain ⟨-, hright', -⟩ | ⟨-, hcoe⟩ := direction_cases hp
    · have hproduct := mul_nonneg (sub_nonneg.mpr hright.le) (sub_nonneg.mpr hright'.le)
      rw [hlevel]
      linarith
    · rw [hdir, hbot] at hcoe
      exact absurd hcoe.symm WithBot.coe_ne_bot
  · have hheight : 0 ≤ p.2 - pivot.2 := by
      obtain ⟨heq, -⟩ | ⟨hlt, -⟩ := direction_cases hp <;> linarith
    have hscaled : 0 ≤ ((q.2 - pivot.2) ^ 2 + (q.1 - pivot.1) ^ 2) * (p.2 - pivot.2) :=
      mul_nonneg (add_nonneg (sq_nonneg _) (sq_nonneg _)) hheight
    apply nonneg_of_mul_nonneg_right _ (sub_pos.mpr habove)
    linear_combination hscaled + (q.1 - pivot.1) * hline

/-- A point in the direction of another one, and no farther, lies between it and the pivot. -/
theorem mem_convexHull_of_distSq_le {p q : Point} (hp : p ∈ Seen pivot) (hq : q ∈ Seen pivot)
    (hdir : direction pivot p = direction pivot q) (hle : distSq pivot p ≤ distSq pivot q) :
    p ∈ convexHull ℚ {pivot, q} := by
  have hline := (directed_direction pivot).cross_eq_zero hq hp hdir.symm
  have hpos := distSq_pos hq
  have hsquare : cross pivot (beside pivot q) p ^ 2 ≤ distSq pivot q ^ 2 := by
    rw [sq_cross_beside, hline, zero_pow two_ne_zero, sub_zero, sq]
    exact mul_le_mul_of_nonneg_left hle hpos.le
  apply mem_convexHull_segment hline (cross_beside_nonneg hp hq hdir)
  · rw [cross_beside_self]
    exact (abs_le_of_sq_le_sq' hsquare hpos.le).2
  · rw [cross_beside_self]
    exact hpos

/-- On a ray, a point that a hull with nothing beyond `l` holds is no farther than `l`. -/
theorem distSq_le_of_mem_convexHull {q : Point} {S : Set Point} (hq : q ∈ Seen pivot) (hline : cross pivot q l = 0)
    (hl : 0 ≤ cross pivot (beside pivot q) l) (hS : ∀ v ∈ S, v = pivot ∨ v = l ∨ 0 < cross pivot q v)
    (hmem : q ∈ convexHull ℚ S) : distSq pivot q ≤ distSq pivot l := by
  have hpos := distSq_pos hq
  have hwithin : convexHull ℚ S ⊆ {p | 0 < cross pivot q p ∨ (cross pivot q p = 0 ∧
      cross pivot (beside pivot q) p ≤ cross pivot (beside pivot q) l)} := by
    refine convexHull_min (fun v hv => ?_) (convex_left_or_within _ _ _ _ _)
    obtain rfl | rfl | hleft := hS v hv
    · exact .inr ⟨cross_self_ends _ _, (cross_self_ends _ _).le.trans hl⟩
    · exact .inr ⟨hline, le_rfl⟩
    · exact .inl hleft
  have hle : distSq pivot q ≤ cross pivot (beside pivot q) l := by
    obtain hleft | ⟨-, hle⟩ := hwithin hmem
    · rw [cross_self_right] at hleft
      exact absurd hleft (lt_irrefl 0)
    · rwa [cross_beside_self] at hle
  have hsq := sq_cross_beside pivot q l
  rw [hline, zero_pow two_ne_zero, sub_zero] at hsq
  have hsquare : distSq pivot q * distSq pivot q ≤ distSq pivot q * distSq pivot l := by
    rw [← hsq, sq]
    exact mul_self_le_mul_self hpos.le hle
  exact le_of_mul_le_mul_left hsquare hpos

/-- Copies of the pivot and points in one direction are in one line with it. -/
theorem cross_eq_zero_of_first {a b : Point} {d : WithBot ℚ}
    (ha : a = pivot ∨ (a ∈ Seen pivot ∧ direction pivot a = d))
    (hb : b = pivot ∨ (b ∈ Seen pivot ∧ direction pivot b = d)) : cross pivot a b = 0 := by
  obtain rfl | ⟨hseen, hdir⟩ := ha
  · exact cross_self_left _ _
  · obtain rfl | ⟨hseen', hdir'⟩ := hb
    · exact cross_self_ends _ _
    · exact (directed_direction pivot).cross_eq_zero hseen hseen' (hdir.trans hdir'.symm)

/-- The first direction in which the pivot sees a point leaves the last point of it on the hull. -/
theorem foldl_push_first {q : Point} (hlow : ∀ p ∈ rest, height pivot ≤ height p) (hq : q ∈ rest)
    (hfirst : ∀ p ∈ rest, p ≠ pivot → direction pivot q ≤ direction pivot p)
    (hlast : (rest.filter fun p => direction pivot p = direction pivot q).getLast? = some l) :
    (sortAround pivot rest).foldl push [pivot] =
      ((sortAround pivot rest).filter fun p => direction pivot q < direction pivot p).foldl push [l, pivot] := by
  have hsplit := StableSort.eq_append_of_pairwise (pairwise_sortAround pivot rest) (direction pivot q)
  rw [filter_sortAround] at hsplit
  -- what stands before the first direction are copies of the pivot
  obtain ⟨copies, hcopies⟩ : ∃ copies, copies =
      (sortAround pivot rest).filter fun p => direction pivot p < direction pivot q := ⟨_, rfl⟩
  obtain ⟨first, hfirstEq⟩ : ∃ first, first =
      rest.filter fun p => direction pivot p = direction pivot q := ⟨_, rfl⟩
  rw [← hcopies, ← hfirstEq] at hsplit
  rw [← hfirstEq] at hlast
  have hkind : ∀ a ∈ copies ++ first, a = pivot ∨ (a ∈ Seen pivot ∧ direction pivot a = direction pivot q) := by
    intro a ha
    by_cases hpivot : a = pivot
    · exact .inl hpivot
    · right
      cases List.mem_append.mp ha with
      | inl ha =>
          rw [hcopies, List.mem_filter, decide_eq_true_eq, mem_sortAround] at ha
          exact absurd (hfirst a ha.1 hpivot) (not_le.mpr ha.2)
      | inr ha =>
          rw [hfirstEq, List.mem_filter, decide_eq_true_eq] at ha
          exact ⟨⟨hlow a ha.1, hpivot⟩, ha.2⟩
  have hline : ∀ a ∈ copies ++ first, ∀ b ∈ copies ++ first, cross pivot a b = 0 :=
    fun a ha b hb => cross_eq_zero_of_first (hkind a ha) (hkind b hb)
  have hat : first ≠ [] := by
    rw [hfirstEq]
    exact List.ne_nil_of_mem (List.mem_filter.mpr ⟨hq, decide_eq_true rfl⟩)
  conv_lhs => rw [hsplit]
  rw [List.foldl_append, foldl_push_line hline (List.append_ne_nil_of_right_ne_nil _ hat),
    List.getLast_append_of_right_ne_nil _ _ hat]
  rw [List.getLast?_eq_some_getLast hat] at hlast
  rw [Option.some.inj hlast]

end Scan

/-! ### Which hulls hold the points -/

theorem ringOf_eq {points pivotRest : List Point} {pivot : Point} (hswap : swapStart points = pivot :: pivotRest) :
    ringOf points = ((sortAround pivot pivotRest).foldl push [pivot]).reverse ++
      ((sortAround pivot pivotRest).foldl push [pivot]).reverse.take 1 := by
  rw [ringOf, arrange, hswap]
  rfl

theorem mem_ringOf {points pivotRest : List Point} {pivot v : Point} (hswap : swapStart points = pivot :: pivotRest)
    (hv : v ∈ ringOf points) : v ∈ (sortAround pivot pivotRest).foldl push [pivot] := by
  rw [ringOf_eq hswap] at hv
  cases List.mem_append.mp hv with
  | inl hv => exact List.mem_reverse.mp hv
  | inr hv => exact List.mem_reverse.mp (List.mem_of_mem_take hv)

/-- Every corner is one of the points. -/
theorem ringOf_subset {points : List Point} (hne : points ≠ []) : ∀ v ∈ ringOf points, v ∈ points := by
  obtain ⟨pivot, rest, hswap, hperm, -⟩ := swapStart_spec hne
  intro v hv
  apply hperm.subset
  cases mem_foldl_push (mem_ringOf hswap hv) with
  | inl hv => exact List.mem_singleton.mp hv ▸ List.mem_cons_self
  | inr hv => exact List.mem_cons_of_mem pivot (mem_sortAround.mp hv)

/-- A hull that holds the points holds the farthest one of the first direction. -/
theorem farthestLast_of_mem_convexHull {points : List Point} (hne : points ≠ [])
    (h : ∀ p ∈ points, p ∈ convexHull ℚ {v | v ∈ ringOf points}) : FarthestLast points := by
  obtain ⟨pivot, rest, hswap, hperm, hlow⟩ := swapStart_spec hne
  unfold FarthestLast
  rw [hswap]
  intro q hq hqne hfirst last hlast
  have hseen : q ∈ Seen pivot := ⟨hlow q hq, hqne⟩
  have hlastMem := List.mem_of_getLast? hlast
  rw [List.mem_filter, decide_eq_true_eq] at hlastMem
  have hside : cross pivot q last = 0 ∧ 0 ≤ cross pivot (beside pivot q) last := by
    by_cases hpivot : last = pivot
    · rw [hpivot, cross_self_ends, cross_self_ends]
      exact ⟨rfl, le_rfl⟩
    · have hseen' : last ∈ Seen pivot := ⟨hlow last hlastMem.1, hpivot⟩
      exact ⟨(directed_direction pivot).cross_eq_zero hseen hseen' hlastMem.2.symm,
        cross_beside_nonneg hseen' hseen hlastMem.2⟩
  refine distSq_le_of_mem_convexHull hseen hside.1 hside.2 ?_ (h q (hperm.subset (List.mem_cons_of_mem pivot hq)))
  intro v hv
  have hcorner := mem_ringOf hswap hv
  rw [foldl_push_first hlow hq hfirst hlast] at hcorner
  cases mem_foldl_push hcorner with
  | inl hv =>
      obtain rfl | rfl := List.mem_pair.mp hv
      · exact .inr (.inl rfl)
      · exact .inl rfl
  | inr hv =>
      rw [List.mem_filter, decide_eq_true_eq, mem_sortAround] at hv
      by_cases hpivot : v = pivot
      · exact .inl hpivot
      · exact .inr (.inr ((directed_direction pivot).pos q hseen v ⟨hlow v hv.1, hpivot⟩ hv.2))

/-- What the scan of points around a pivot makes, of which another one is seen first in the direction of `q`. -/
theorem scanned_of_farthest {pivot q last : Point} {rest : List Point} (hlow : ∀ p ∈ rest, height pivot ≤ height p)
    (hq : q ∈ rest) (hne : q ≠ pivot) (hfirst : ∀ p ∈ rest, p ≠ pivot → direction pivot q ≤ direction pivot p)
    (hlast : (rest.filter fun p => direction pivot p = direction pivot q).getLast? = some last)
    (hfarthest : ∀ p ∈ rest, p ≠ pivot → direction pivot p = direction pivot q →
      distSq pivot p ≤ distSq pivot last) :
    ∃ chain, (sortAround pivot rest).foldl push [pivot] = chain ++ [pivot] ∧ Scanned pivot last chain ∧
      ∀ p ∈ rest, p ∈ convexHull ℚ {v | v ∈ chain ++ [pivot]} := by
  have hlastMem := List.mem_of_getLast? hlast
  rw [List.mem_filter, decide_eq_true_eq] at hlastMem
  have hlastNe : last ≠ pivot := by
    rintro rfl
    have hle := hfarthest q hq hne rfl
    have hpos := distSq_pos ⟨hlow q hq, hne⟩
    have hzero : distSq last last = 0 := by
      unfold distSq
      ring
    linarith
  have hlastSeen : last ∈ Seen pivot := ⟨hlow last hlastMem.1, hlastNe⟩
  have hstart : Scanned pivot last [last] :=
    ⟨List.forall_mem_singleton.mpr hlastSeen, List.pairwise_singleton _ _, trivial, rfl⟩
  have hbehind : ∀ p ∈ (sortAround pivot rest).filter fun p => direction pivot q < direction pivot p,
      p ∈ Seen pivot ∧ direction pivot last < direction pivot p := by
    intro p hp
    rw [List.mem_filter, decide_eq_true_eq, mem_sortAround] at hp
    have hdir := hlastMem.2.trans_lt hp.2
    refine ⟨⟨hlow p hp.1, ?_⟩, hdir⟩
    rintro rfl
    exact absurd hdir (by simp [direction])
  obtain ⟨chain, hrun, hscanned, hhull⟩ := hstart.foldl_push (fun p hp => (hbehind p hp).1)
    (fun p hp => (hbehind p hp).2) ((pairwise_sortAround pivot rest).filter _)
    (List.forall_mem_singleton.mpr fun p hp => (hbehind p hp).2.le)
  refine ⟨chain, (foldl_push_first hlow hq hfirst hlast).trans hrun, hscanned, ?_⟩
  have hpivot : pivot ∈ convexHull ℚ {v | v ∈ chain ++ [pivot]} := subset_convexHull ℚ _ (by simp)
  intro p hp
  by_cases heq : p = pivot
  · rwa [heq]
  obtain hdir | hdir := (hfirst p hp heq).eq_or_lt
  · have hbetween := mem_convexHull_of_distSq_le ⟨hlow p hp, heq⟩ hlastSeen (hdir.symm.trans hlastMem.2.symm)
      (hfarthest p hp heq hdir.symm)
    refine convexHull_min ?_ (convex_convexHull ℚ _) hbetween
    exact Set.insert_subset hpivot (Set.singleton_subset_iff.mpr (hhull last (by simp)))
  · apply hhull p
    apply List.mem_append_right
    rw [List.mem_filter, decide_eq_true_eq, mem_sortAround]
    exact ⟨hp, hdir⟩

theorem ringOf_ne_nil {points : List Point} (hne : points ≠ []) : ringOf points ≠ [] := by
  obtain ⟨pivot, rest, hswap, -, -⟩ := swapStart_spec hne
  have hhull : ∀ (pts hull : List Point), hull ≠ [] → pts.foldl push hull ≠ [] := by
    intro pts
    induction pts with
    | nil => exact fun hull hhull => hhull
    | cons p rest ih => exact fun hull _ => ih _ (List.cons_ne_nil p _)
  rw [ringOf_eq hswap]
  apply List.append_ne_nil_of_left_ne_nil
  rw [ne_eq, List.reverse_eq_nil_iff]
  exact hhull _ _ (List.cons_ne_nil pivot [])

/-- A ring of one point over and over. -/
theorem insideOrOn_of_all_eq {ring : List Point} {o : Point} (hne : ring ≠ []) (h : ∀ v ∈ ring, v = o) :
    InsideOrOn ring o := by
  obtain ⟨v, hv⟩ := List.exists_mem_of_ne_nil ring hne
  refine ⟨subset_convexHull ℚ _ (h v hv ▸ hv), ?_⟩
  rw [List.isChain_iff_getElem]
  intro i hi
  rw [h _ (List.getElem_mem _), h ring[i + 1] (List.getElem_mem _), cross_self_left]

/-- If the farthest point of the first direction is the last one, all points are inside the ring or on it. -/
theorem insideOrOn_of_farthestLast {points : List Point} (hne : points ≠ []) (h : FarthestLast points) :
    ∀ p ∈ points, InsideOrOn (ringOf points) p := by
  obtain ⟨pivot, rest, hswap, hperm, hlow⟩ := swapStart_spec hne
  unfold FarthestLast at h
  rw [hswap] at h
  by_cases hother : ∃ q ∈ rest, q ≠ pivot
  · -- some point is seen first
    have hseen : (rest.filter fun p => p ≠ pivot).toFinset.Nonempty := by
      obtain ⟨q, hq, hqne⟩ := hother
      exact ⟨q, by simp [hq, hqne]⟩
    obtain ⟨q, hq, hfirst⟩ := Finset.exists_min_image _ (direction pivot) hseen
    simp only [List.mem_toFinset, List.mem_filter, decide_eq_true_eq] at hq hfirst
    have hfirst : ∀ p ∈ rest, p ≠ pivot → direction pivot q ≤ direction pivot p :=
      fun p hp hpne => hfirst p ⟨hp, hpne⟩
    have hat : (rest.filter fun p => direction pivot p = direction pivot q) ≠ [] :=
      List.ne_nil_of_mem (List.mem_filter.mpr ⟨hq.1, decide_eq_true rfl⟩)
    have hlast := List.getLast?_eq_some_getLast hat
    have hfarthest : ∀ p ∈ rest, p ≠ pivot → direction pivot p = direction pivot q →
        distSq pivot p ≤ distSq pivot ((rest.filter fun p => direction pivot p =
          direction pivot q).getLast hat) := by
      intro p hp hpne hdir
      apply h p hp hpne (hdir ▸ hfirst)
      rw [hdir]
      exact hlast
    obtain ⟨chain, hrun, hscanned, hhull⟩ := scanned_of_farthest hlow hq.1 hq.2 hfirst hlast hfarthest
    have hring : ringOf points = pivot :: chain.reverse ++ [pivot] := by
      rw [ringOf_eq hswap, hrun, List.reverse_append]
      rfl
    intro p hp
    rw [hring]
    apply (directed_direction pivot).insideOrOn_of_fan hscanned.seen hscanned.sorted hscanned.fan
    cases List.mem_cons.mp (hperm.mem_iff.mpr hp) with
    | inl heq => exact subset_convexHull ℚ _ (by simp [heq])
    | inr hp => exact hhull p hp
  · -- all points are the pivot
    have hall : ∀ p ∈ points, p = pivot := by
      intro p hp
      cases List.mem_cons.mp (hperm.mem_iff.mpr hp) with
      | inl heq => exact heq
      | inr hp =>
          by_contra hpne
          exact hother ⟨p, hp, hpne⟩
    intro p hp
    rw [hall p hp]
    exact insideOrOn_of_all_eq (ringOf_ne_nil hne) fun v hv => hall v (ringOf_subset hne v hv)

/-- The points are inside the ring or on it exactly if the last point of the first direction is its farthest. -/
theorem convexHull_contains_iff {req : HullRequest} (hvalid : ∀ p ∈ req.points, isValidCoord p.2 p.1 = true)
    (hthree : 3 ≤ req.points.length) :
    ∃ feature, req.convexHull = .ok feature ∧
      (((∀ p ∈ req.points, InsideOrOn feature.ring p) ∧ ∀ v ∈ feature.ring, v ∈ req.points) ↔
        FarthestLast req.points) := by
  have hnone : validatePoints (fun p => isValidCoord p.2 p.1) req.points = none := by
    rw [validatePoints, List.find?_eq_none.mpr fun p hp => by simp [hvalid p hp], Option.map_none]
  have hne : req.points ≠ [] := List.ne_nil_of_length_pos (by omega)
  refine ⟨⟨ringOf req.points, req.points.length, (ringOf req.points).length - 1⟩, ?_, ?_, ?_⟩
  · rw [HullRequest.convexHull, hnone]
    exact if_neg (not_lt.mpr hthree)
  · exact fun h => farthestLast_of_mem_convexHull hne fun p hp => (h.1 p hp).1
  · exact fun h => ⟨insideOrOn_of_farthestLast hne h, ringOf_subset hne⟩

/-- A triangle with a point on its base, in the order of the distances. -/
def nearFirst : HullRequest := ⟨[(0, 0), (1, 0), (2, 0), (0, 1)]⟩

def farFirst : HullRequest := ⟨[(0, 0), (2, 0), (1, 0), (0, 1)]⟩

theorem convexHull_nearFirst :
    ∃ feature, nearFirst.convexHull = .ok feature ∧
      (∀ p ∈ nearFirst.points, InsideOrOn feature.ring p) ∧ ∀ v ∈ feature.ring, v ∈ nearFirst.points := by
  have hswap : swapStart nearFirst.points = [(0, 0), (1, 0), (2, 0), (0, 1)] := by decide
  have hfarthest : FarthestLast nearFirst.points := by
    rw [FarthestLast, hswap]
    decide +kernel
  have hvalid : ∀ p ∈ nearFirst.points, isValidCoord p.2 p.1 = true := by decide
  obtain ⟨feature, hok, hiff⟩ := convexHull_contains_iff hvalid (by decide : 3 ≤ nearFirst.points.length)
  exact ⟨feature, hok, hiff.mpr hfarthest⟩

/-- The nearer point of the base comes last, and the farther one is left outside. -/
theorem convexHull_farFirst :
    ∃ feature, farFirst.convexHull = .ok feature ∧ feature.ring = [(0, 0), (1, 0), (0, 1), (0, 0)] ∧
      (2, 0) ∈ farFirst.points ∧ ¬InsideOrOn feature.ring (2, 0) := by
  refine ⟨⟨[(0, 0), (1, 0), (0, 1), (0, 0)], 4, 3⟩, by decide +kernel, rfl, by decide, ?_⟩
  intro hinside
  have hedges := hinside.2
  have hedge := (List.isChain_cons_cons.mp (List.isChain_cons_cons.mp hedges).2).1
  exact absurd hedge (by decide +kernel)

end Inec.Spatial
