import Inec.Lib.MerkleTree
import Mathlib.Algebra.Group.Nat.Defs
import Mathlib.Logic.Function.Iterate
import Mathlib.Logic.Relation

/-!
# Trees over a power of two of leaves

Every level has an even number of nodes, so a round joins all of them. Where joining tells the pairs of two trees
apart, trees with one top are the same tree, or one stands on top of the other: its leaves are nodes of the other.
-/

namespace MerkleTree

variable {δ : Type} {join : δ → δ → δ}

/-- The nodes of one list are those of the other, joined in pairs. -/
inductive JoinsTo (join : δ → δ → δ) : List δ → List δ → Prop
  | nil : JoinsTo join [] []
  | cons (left right : δ) {below above : List δ} (h : JoinsTo join below above) :
      JoinsTo join (left :: right :: below) (join left right :: above)

theorem joinsTo_next {level : List δ} (h : level.length % 2 = 0) : JoinsTo join level (next join level) := by
  fun_induction next join level with
  | case1 left right rest ih =>
      apply JoinsTo.cons
      apply ih
      simp only [List.length_cons] at h
      omega
  | case2 level hshort =>
      obtain rfl | ⟨only, rfl⟩ := nil_or_singleton hshort
      · exact JoinsTo.nil
      · simp at h

theorem JoinsTo.next_eq {below above : List δ} (h : JoinsTo join below above) : next join below = above := by
  induction h with
  | nil => rfl
  | cons left right _ ih => rw [next, ih]

theorem JoinsTo.length_eq {below above : List δ} (h : JoinsTo join below above) :
    below.length = 2 * above.length := by
  induction h with
  | nil => rfl
  | cons left right _ ih =>
      simp only [List.length_cons, ih]
      omega

theorem mem_pairs {level : List δ} {p : δ × δ} (h : p ∈ pairs level) : p.1 ∈ level ∧ p.2 ∈ level := by
  fun_induction pairs level with
  | case1 left right rest ih =>
      cases h with
      | head => exact ⟨List.mem_cons_self, List.mem_cons_of_mem _ List.mem_cons_self⟩
      | tail _ h =>
          have hrest := ih h
          exact ⟨List.mem_cons_of_mem _ (List.mem_cons_of_mem _ hrest.1),
            List.mem_cons_of_mem _ (List.mem_cons_of_mem _ hrest.2)⟩
  | case2 => cases h

theorem JoinsTo.mem_above {below above : List δ} (h : JoinsTo join below above) :
    ∀ node ∈ above, ∃ left right, node = join left right := by
  induction h with
  | nil => simp
  | cons left right _ ih =>
      intro node hnode
      cases hnode with
      | head => exact ⟨left, right, rfl⟩
      | tail _ hnode => exact ih node hnode

/-- Joining tells the two lists apart. -/
theorem next_inj_on {level level' : List δ} (hlength : level.length = level'.length) (heven : level.length % 2 = 0)
    (hinj : ∀ p ∈ pairs level, ∀ q ∈ pairs level', join p.1 p.2 = join q.1 q.2 → p = q)
    (h : next join level = next join level') : level = level' := by
  fun_induction next join level generalizing level' with
  | case1 left right rest ih =>
      obtain _ | ⟨left', _ | ⟨right', rest'⟩⟩ := level'
      · cases hlength
      · cases hlength
      · rw [next, List.cons.injEq] at h
        have hpair := hinj (left, right) List.mem_cons_self (left', right') List.mem_cons_self h.1
        rw [Prod.mk.injEq] at hpair
        simp only [List.length_cons] at hlength heven
        have hrest : rest = rest' := by
          apply ih (by omega) (by omega) _ h.2
          intro p hp q hq
          exact hinj p (List.mem_cons_of_mem _ hp) q (List.mem_cons_of_mem _ hq)
        rw [hpair.1, hpair.2, hrest]
  | case2 level hshort =>
      obtain rfl | ⟨only, rfl⟩ := nil_or_singleton hshort
      · exact (List.length_eq_zero_iff.mp hlength.symm).symm
      · simp at heven

/-! ### Many rounds -/

variable {k : Nat}

theorem length_next_of_pow {level : List δ} (h : level.length = 2 ^ (k + 1)) :
    (next join level).length = 2 ^ k := by
  rw [length_next, h, Nat.pow_succ]
  omega

theorem length_iterate_next (j : Nat) {level : List δ} (h : level.length = 2 ^ (k + j)) :
    ((next join)^[j] level).length = 2 ^ k := by
  induction j generalizing level with
  | zero => exact h
  | succ j ih =>
      rw [Function.iterate_succ_apply]
      exact ih (length_next_of_pow h)

theorem one_lt_length {level : List δ} (h : level.length = 2 ^ (k + 1)) : 1 < level.length := by
  rw [h, Nat.pow_succ]
  have hpos := Nat.two_pow_pos k
  omega

/-- The climb makes as many rounds as there are levels. -/
theorem climb_eq_iterate {rounds : Nat} {level : List δ} (h : level.length = 2 ^ k) (hrounds : k ≤ rounds) :
    climb join rounds level = (next join)^[k] level := by
  induction rounds generalizing k level with
  | zero =>
      obtain rfl := Nat.le_zero.mp hrounds
      rfl
  | succ rounds ih =>
      rw [climb]
      cases k with
      | zero =>
          rw [if_neg (by rw [h]; decide)]
          rfl
      | succ k =>
          rw [if_pos (one_lt_length h), ih (length_next_of_pow h) (by omega), Function.iterate_succ_apply]

/-- What is joined above the level is joined on the way up from below. -/
theorem joined_iterate_subset (j : Nat) {rounds : Nat} {level : List δ} (h : level.length = 2 ^ (k + j)) :
    joined join rounds ((next join)^[j] level) ⊆ joined join (rounds + j) level := by
  induction j generalizing level with
  | zero => exact List.Subset.refl _
  | succ j ih =>
      rw [Function.iterate_succ_apply, ← Nat.add_assoc, joined, if_pos (one_lt_length h)]
      exact List.subset_append_of_subset_right _ (ih (length_next_of_pow h))

theorem joinsTo_iterate (j : Nat) {level : List δ} (h : level.length = 2 ^ (k + j)) :
    Relation.ReflTransGen (JoinsTo join) level ((next join)^[j] level) := by
  induction j generalizing level with
  | zero => exact Relation.ReflTransGen.refl
  | succ j ih =>
      rw [Function.iterate_succ_apply]
      refine Relation.ReflTransGen.head (joinsTo_next ?_) (ih (length_next_of_pow h))
      rw [h, ← Nat.add_assoc, Nat.pow_succ]
      omega

/-- One top over equally many leaves is the top of one list. -/
theorem iterate_inj_on {rounds rounds' : Nat} {level level' : List δ} (h : level.length = 2 ^ k)
    (h' : level'.length = 2 ^ k) (hrounds : k ≤ rounds) (hrounds' : k ≤ rounds')
    (hinj : ∀ p ∈ joined join rounds level, ∀ q ∈ joined join rounds' level',
      join p.1 p.2 = join q.1 q.2 → p = q)
    (htop : (next join)^[k] level = (next join)^[k] level') : level = level' := by
  induction k generalizing rounds rounds' level level' with
  | zero => exact htop
  | succ k ih =>
      obtain ⟨rounds, rfl⟩ := Nat.exists_eq_add_of_le' (Nat.le_trans (Nat.le_add_left 1 k) hrounds)
      obtain ⟨rounds', rfl⟩ := Nat.exists_eq_add_of_le' (Nat.le_trans (Nat.le_add_left 1 k) hrounds')
      rw [joined, joined, if_pos (one_lt_length h), if_pos (one_lt_length h')] at hinj
      rw [Function.iterate_succ_apply, Function.iterate_succ_apply] at htop
      have hnext : next join level = next join level' := by
        refine ih (length_next_of_pow h) (length_next_of_pow h') (Nat.le_of_succ_le_succ hrounds)
          (Nat.le_of_succ_le_succ hrounds') ?_ htop
        intro p hp q hq
        exact hinj p (List.mem_append_right _ hp) q (List.mem_append_right _ hq)
      refine next_inj_on (h.trans h'.symm) (by rw [h, Nat.pow_succ]; omega) ?_ hnext
      intro p hp q hq
      exact hinj p (List.mem_append_left _ hp) q (List.mem_append_left _ hq)

/-- A list and what it joins to have one top. -/
theorem iterate_eq_of_joinsTo {k' : Nat} {level level' : List δ}
    (hjoins : Relation.ReflTransGen (JoinsTo join) level level') (h : level.length = 2 ^ k)
    (h' : level'.length = 2 ^ k') : (next join)^[k] level = (next join)^[k'] level' := by
  induction hjoins using Relation.ReflTransGen.head_induction_on generalizing k with
  | refl =>
      rw [(Nat.pow_right_inj (by decide)).mp (h.symm.trans h')]
  | @head level above hstep _ ih =>
      have hlength := hstep.length_eq
      cases k with
      | zero =>
          rw [h] at hlength
          omega
      | succ k =>
          rw [Function.iterate_succ_apply, hstep.next_eq]
          apply ih
          rw [h, Nat.pow_succ] at hlength
          omega

theorem joinsTo_of_iterate_eq {j rounds rounds' : Nat} {level level' : List δ} (h : level.length = 2 ^ k)
    (h' : level'.length = 2 ^ (k + j)) (hrounds : k ≤ rounds) (hrounds' : k + j ≤ rounds')
    (hinj : ∀ p ∈ joined join rounds level, ∀ q ∈ joined join rounds' level',
      join p.1 p.2 = join q.1 q.2 → p = q)
    (htop : (next join)^[k] level = (next join)^[k + j] level') :
    Relation.ReflTransGen (JoinsTo join) level' level := by
  rw [Function.iterate_add_apply] at htop
  have hsubset : joined join (rounds' - j) ((next join)^[j] level') ⊆ joined join rounds' level' := by
    have hsub := @joined_iterate_subset _ join _ j (rounds' - j) _ h'
    rwa [Nat.sub_add_cancel (Nat.le_trans (Nat.le_add_left j k) hrounds')] at hsub
  have hlevel : level = (next join)^[j] level' :=
    iterate_inj_on h (length_iterate_next j h') hrounds (by omega)
      (fun p hp q hq => hinj p hp q (hsubset hq)) htop
  rw [hlevel]
  exact joinsTo_iterate j h'

/-- The tops are equal exactly where one list comes out of the other by joining pairs. -/
theorem iterate_eq_iff {k' rounds rounds' : Nat} {level level' : List δ} (h : level.length = 2 ^ k)
    (h' : level'.length = 2 ^ k') (hrounds : k ≤ rounds) (hrounds' : k' ≤ rounds')
    (hinj : ∀ p ∈ joined join rounds level, ∀ q ∈ joined join rounds' level',
      join p.1 p.2 = join q.1 q.2 → p = q) :
    (next join)^[k] level = (next join)^[k'] level' ↔
      Relation.ReflTransGen (JoinsTo join) level level' ∨ Relation.ReflTransGen (JoinsTo join) level' level := by
  constructor
  · intro htop
    rcases Nat.le_total k k' with hle | hle
    · obtain ⟨j, rfl⟩ := Nat.exists_eq_add_of_le hle
      exact Or.inr (joinsTo_of_iterate_eq h h' hrounds hrounds' hinj htop)
    · obtain ⟨j, rfl⟩ := Nat.exists_eq_add_of_le hle
      refine Or.inl (joinsTo_of_iterate_eq h' h hrounds' hrounds ?_ htop.symm)
      intro p hp q hq hpq
      exact (hinj q hq p hp hpq.symm).symm
  · rintro (hjoins | hjoins)
    · exact iterate_eq_of_joinsTo hjoins h h'
    · exact (iterate_eq_of_joinsTo hjoins h' h).symm

end MerkleTree
