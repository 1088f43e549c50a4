import Inec.Lib.PerfectTree
import Inec.Primaries.BallotTree

/-!
# What the ballot root binds

The leaves of `build_ballot_merkle_tree` are padded with copies of the last ballot, and a ballot is hashed like
a node. So the root says which tree there is, and not where its leaves end: copies of the last ballot below the
next power of two leave the root as it is, and so do the nodes of a level in place of the ballots below them.
-/

namespace Inec.BallotTree

open Inec.BundleRoot
open MerkleTree (JoinsTo)

section Root

variable (sha256 : List UInt8 → Digest)

/-- The texts that are hashed for a ballot box. -/
def hashedTexts (ballots : List String) : List String :=
  (MerkleTree.joined (combine sha256) (padded ballots).length (padded ballots)).map fun p => p.1 ++ p.2

/-- Different boxes have different roots. -/
def RootBinds (ballots ballots' : List String) : Prop :=
  ballots ≠ ballots' → (buildBallotMerkleTree sha256 ballots).1 ≠ (buildBallotMerkleTree sha256 ballots').1

/-- One tree for both: the padded leaves of one are those of the other, joined in pairs any number of times. -/
def SameTree (ballots ballots' : List String) : Prop :=
  Relation.ReflTransGen (JoinsTo (combine sha256)) (padded ballots) (padded ballots') ∨
    Relation.ReflTransGen (JoinsTo (combine sha256)) (padded ballots') (padded ballots)

end Root

/-! ### Widths -/

variable {sha256 : List UInt8 → Digest} {ballots ballots' : List String} {width : Nat}

theorem length_combine (left right : String) : (combine sha256 left right).length = 64 := by
  rw [combine, HexText.length_encode, (sha256 _).property]

theorem mem_padded (h : ∀ ballot ∈ ballots, ballot.length = width) :
    ∀ leaf ∈ padded ballots, leaf.length = width := by
  intro leaf hleaf
  cases hlast : ballots.getLast? with
  | none =>
      rw [List.getLast?_eq_none_iff.mp hlast] at hleaf
      cases hleaf
  | some last =>
      rw [padded_eq hlast] at hleaf
      rcases List.mem_append.mp hleaf with hleaf | hleaf
      · exact h leaf hleaf
      · rw [List.eq_of_mem_replicate hleaf]
        exact h last (List.mem_of_getLast? hlast)

/-- The two nodes of a pair are of one width, the leaves as well as what is above them. -/
theorem length_joined {k rounds : Nat} {level : List String} (hlength : level.length = 2 ^ k)
    (hwidth : ∀ node ∈ level, node.length = width) :
    ∀ p ∈ MerkleTree.joined (combine sha256) rounds level, p.1.length = p.2.length := by
  induction rounds generalizing k level width with
  | zero => simp [MerkleTree.joined]
  | succ rounds ih =>
      intro p hp
      rw [MerkleTree.joined] at hp
      split at hp
      · next hlong =>
        cases k with
        | zero =>
            rw [hlength] at hlong
            exact absurd hlong (by decide)
        | succ k =>
            rcases List.mem_append.mp hp with hp | hp
            · have hmem := MerkleTree.mem_pairs hp
              rw [hwidth _ hmem.1, hwidth _ hmem.2]
            · have heven : level.length % 2 = 0 := by
                rw [hlength, Nat.pow_succ]
                omega
              have hnext : ∀ node ∈ MerkleTree.next (combine sha256) level, node.length = 64 := by
                intro node hnode
                obtain ⟨left, right, rfl⟩ := (MerkleTree.joinsTo_next heven).mem_above node hnode
                exact length_combine left right
              exact ih (MerkleTree.length_next_of_pow hlength) hnext p hp
      · cases hp

theorem append_inj_of_length {a b c d : String} (hab : a.length = b.length) (hcd : c.length = d.length)
    (h : a ++ b = c ++ d) : a = c ∧ b = d := by
  have hlist : a.toList ++ b.toList = c.toList ++ d.toList := by
    rw [← String.toList_append, h, String.toList_append]
  have hlength := congrArg List.length hlist
  rw [List.length_append, List.length_append] at hlength
  rw [← String.length_toList, ← String.length_toList] at hab hcd
  obtain ⟨hac, hbd⟩ := List.append_inj hlist (by omega)
  exact ⟨String.toList_inj.mp hac, String.toList_inj.mp hbd⟩

/-- Without a collision, joining tells the pairs of the two boxes apart. -/
theorem joined_inj (hne : ballots ≠ []) (hne' : ballots' ≠ [])
    (hwidth : ∀ ballot ∈ ballots, ballot.length = width) (hwidth' : ∀ ballot ∈ ballots', ballot.length = width)
    (hfree : ∀ x ∈ hashedTexts sha256 ballots, ∀ y ∈ hashedTexts sha256 ballots',
      sha256 (utf8 x) = sha256 (utf8 y) → x = y) :
    ∀ p ∈ MerkleTree.joined (combine sha256) (padded ballots).length (padded ballots),
      ∀ q ∈ MerkleTree.joined (combine sha256) (padded ballots').length (padded ballots'),
        combine sha256 p.1 p.2 = combine sha256 q.1 q.2 → p = q := by
  intro p hp q hq h
  have htext : p.1 ++ p.2 = q.1 ++ q.2 := by
    apply hfree _ (List.mem_map_of_mem hp) _ (List.mem_map_of_mem hq)
    exact Subtype.ext (HexText.encode_inj h)
  have hpair := append_inj_of_length (length_joined (length_padded hne) (mem_padded hwidth) p hp)
    (length_joined (length_padded hne') (mem_padded hwidth') q hq) htext
  exact Prod.ext hpair.1 hpair.2

/-! ### Roots -/

theorem iterate_padded (h : ballots ≠ []) :
    (MerkleTree.next (combine sha256))^[Nat.clog 2 ballots.length] (padded ballots) =
      [(buildBallotMerkleTree sha256 ballots).1] := by
  rw [← climb_padded h]
  refine (MerkleTree.climb_eq_iterate (length_padded h) ?_).symm
  rw [length_padded h]
  exact Nat.lt_two_pow_self.le

/-- The root is a node, or one of the ballots. -/
theorem root_ne_empty (hpos : 0 < width) (hwidth : ∀ ballot ∈ ballots, ballot.length = width) (h : ballots ≠ []) :
    (buildBallotMerkleTree sha256 ballots).1 ≠ "" := by
  have hiterate := @iterate_padded sha256 _ h
  have hlength := length_padded h
  intro hroot
  rw [hroot] at hiterate
  cases hk : Nat.clog 2 ballots.length with
  | zero =>
      rw [hk] at hiterate
      have hleaf := mem_padded hwidth "" (by
        rw [← Function.iterate_zero_apply (MerkleTree.next (combine sha256)) (padded ballots), hiterate]
        exact List.mem_singleton_self _)
      rw [String.length_empty] at hleaf
      omega
  | succ k =>
      rw [hk] at hiterate hlength
      rw [Function.iterate_succ_apply'] at hiterate
      have hbelow : ((MerkleTree.next (combine sha256))^[k] (padded ballots)).length = 2 ^ 1 :=
        MerkleTree.length_iterate_next k (by rw [hlength, Nat.add_comm])
      obtain ⟨left, right, hnode⟩ := (@MerkleTree.joinsTo_next _ (combine sha256) _
        (by rw [hbelow]; rfl)).mem_above ""
        (by rw [hiterate]; exact List.mem_singleton_self _)
      have hnonempty := @length_combine sha256 left right
      rw [← hnode, String.length_empty] at hnonempty
      cases hnonempty

theorem not_joinsTo_nil_left {leaves : List String}
    (h : Relation.ReflTransGen (JoinsTo (combine sha256)) [] leaves) : leaves = [] := by
  induction h with
  | refl => rfl
  | tail _ hstep ih =>
      subst ih
      cases hstep
      rfl

theorem not_joinsTo_nil_right {leaves : List String}
    (h : Relation.ReflTransGen (JoinsTo (combine sha256)) leaves []) : leaves = [] := by
  induction h using Relation.ReflTransGen.head_induction_on with
  | refl => rfl
  | head hstep _ ih =>
      subst ih
      cases hstep
      rfl

theorem not_sameTree_nil (h : ballots ≠ []) : ¬SameTree sha256 [] ballots := by
  have hne : padded ballots ≠ [] := by
    apply List.ne_nil_of_length_pos
    rw [length_padded h]
    exact Nat.two_pow_pos _
  rintro (hsame | hsame)
  · exact hne (not_joinsTo_nil_left hsame)
  · exact hne (not_joinsTo_nil_right hsame)

theorem sameTree_comm : SameTree sha256 ballots ballots' ↔ SameTree sha256 ballots' ballots := Or.comm

/-- Without a collision the boxes with one root are those with one tree. -/
theorem root_eq_iff (hpos : 0 < width) (hwidth : ∀ ballot ∈ ballots, ballot.length = width)
    (hwidth' : ∀ ballot ∈ ballots', ballot.length = width)
    (hfree : ∀ x ∈ hashedTexts sha256 ballots, ∀ y ∈ hashedTexts sha256 ballots',
      sha256 (utf8 x) = sha256 (utf8 y) → x = y) :
    (buildBallotMerkleTree sha256 ballots).1 = (buildBallotMerkleTree sha256 ballots').1 ↔
      SameTree sha256 ballots ballots' := by
  by_cases hne : ballots = []
  · subst hne
    by_cases hne' : ballots' = []
    · subst hne'
      exact iff_of_true rfl (Or.inl Relation.ReflTransGen.refl)
    · exact iff_of_false (root_ne_empty hpos hwidth' hne').symm (not_sameTree_nil hne')
  · by_cases hne' : ballots' = []
    · subst hne'
      exact iff_of_false (root_ne_empty hpos hwidth hne) (fun h => not_sameTree_nil hne (sameTree_comm.mp h))
    · have htops := MerkleTree.iterate_eq_iff (length_padded hne) (length_padded hne')
        (by rw [length_padded hne]; exact Nat.lt_two_pow_self.le)
        (by rw [length_padded hne']; exact Nat.lt_two_pow_self.le) (joined_inj hne hne' hwidth hwidth' hfree)
      rw [iterate_padded hne, iterate_padded hne'] at htops
      rw [SameTree, ← htops, List.cons.injEq]
      simp

/-- The root binds two boxes exactly where they are one or have different trees. -/
theorem rootBinds_iff (hpos : 0 < width) (hwidth : ∀ ballot ∈ ballots, ballot.length = width)
    (hwidth' : ∀ ballot ∈ ballots', ballot.length = width)
    (hfree : ∀ x ∈ hashedTexts sha256 ballots, ∀ y ∈ hashedTexts sha256 ballots',
      sha256 (utf8 x) = sha256 (utf8 y) → x = y) :
    RootBinds sha256 ballots ballots' ↔ (ballots = ballots' ∨ ¬SameTree sha256 ballots ballots') := by
  rw [RootBinds, Ne, Ne, root_eq_iff hpos hwidth hwidth' hfree, or_iff_not_imp_left]

/-- Copies of the last ballot leave the tree as it is, as long as there is room below the power of two. -/
theorem padded_append_replicate {last : String} {copies : Nat} (hlast : ballots.getLast? = some last)
    (hroom : ballots.length + copies ≤ 2 ^ Nat.clog 2 ballots.length) :
    padded (ballots ++ List.replicate copies last) = padded ballots := by
  have hlast' : (ballots ++ List.replicate copies last).getLast? = some last := by
    cases copies with
    | zero => simpa using hlast
    | succ copies => rw [List.replicate_succ', ← List.append_assoc, List.getLast?_concat]
  have hlength : (ballots ++ List.replicate copies last).length = ballots.length + copies := by simp
  have hclog : Nat.clog 2 (ballots.length + copies) = Nat.clog 2 ballots.length :=
    Nat.le_antisymm (Nat.clog_le_of_le_pow hroom) (Nat.clog_mono_right 2 (Nat.le_add_right _ _))
  rw [padded_eq hlast', padded_eq hlast, hlength, hclog, List.append_assoc, List.replicate_append_replicate]
  congr 2
  omega

theorem root_eq_of_padded_eq (hne : ballots ≠ []) (hne' : ballots' ≠ []) (h : padded ballots = padded ballots') :
    (buildBallotMerkleTree sha256 ballots).1 = (buildBallotMerkleTree sha256 ballots').1 := by
  simp only [buildBallotMerkleTree, if_neg hne, if_neg hne', h]

/-- A ballot hash for the cases below: one byte, repeated. -/
def ballotOf (byte : UInt8) : String := HexText.encode (List.replicate 32 byte)

/-- Two ballots in either order. -/
theorem rootBinds_swapped :
    RootBinds sha256Sum [ballotOf 1, ballotOf 2] [ballotOf 2, ballotOf 1] ↔
      ([ballotOf 1, ballotOf 2] = [ballotOf 2, ballotOf 1] ∨
        ¬SameTree sha256Sum [ballotOf 1, ballotOf 2] [ballotOf 2, ballotOf 1]) :=
  @rootBinds_iff sha256Sum [ballotOf 1, ballotOf 2] [ballotOf 2, ballotOf 1] 64 (by decide) (by decide) (by decide)
    (by decide +kernel)

/-- A copy of the third ballot in the box. -/
theorem stuffed_box_same_root :
    ¬RootBinds sha256Sum [ballotOf 1, ballotOf 2, ballotOf 3] [ballotOf 1, ballotOf 2, ballotOf 3, ballotOf 3] := by
  intro h
  refine h (by decide) (root_eq_of_padded_eq (List.cons_ne_nil _ _) (List.cons_ne_nil _ _) ?_)
  exact (@padded_append_replicate [ballotOf 1, ballotOf 2, ballotOf 3] (ballotOf 3) 1 rfl (by decide)).symm

end Inec.BallotTree
