import Mathlib.Data.Nat.Bits
import Mathlib.Data.Nat.EvenOddRec
import Mathlib.Data.Nat.Log
import Mathlib.Tactic.Positivity
import Inec.Evidence.BundleRoot
import Inec.Lib.MerkleProof

/-!
# The ballot tree of the engine

`build_ballot_merkle_tree`, `generate_merkle_proof` and `verify_merkle_proof` of
gotv-engine/src/voting_crypto.rs. The leaves are the ballot hashes themselves, padded with copies of the last
one up to a power of two. All levels are then of even length but the top one, so every node has a sibling, and
the proof of every ballot verifies.
-/

namespace Inec.BallotTree

open Inec.BundleRoot

structure MerkleProofStep where
  hash : String
  position : String
  deriving DecidableEq, Repr

section Tree

variable (sha256 : List UInt8 → Digest)

/-- The hash of two nodes: the digest of their texts, one after the other, in hex. -/
def combine (left right : String) : String := HexText.encode (sha256 (utf8 (left ++ right))).val

/-- One round, over chunks of two; a chunk of one is combined with itself. -/
def nextLevel : List String → List String
  | left :: right :: rest => combine sha256 left right :: nextLevel rest
  | [odd] => [combine sha256 odd odd]
  | [] => []

/-- The levels that the loop pushes. -/
def treeLevels : Nat → List String → List (List String)
  | 0, current => [current]
  | fuel + 1, current =>
      if 1 < current.length then current :: treeLevels fuel (nextLevel sha256 current) else [current]

end Tree

/-- `count_ones` -/
def countOnes (n : Nat) : Nat := n.bits.count true

/-- The padding loop; below the next power of two there are fewer rounds than leaves. -/
def padLoop : Nat → List String → List String
  | 0, leaves => leaves
  | fuel + 1, leaves =>
      if countOnes leaves.length ≠ 1 then padLoop fuel (leaves ++ leaves.getLast?.toList) else leaves

def padded (ballotHashes : List String) : List String := padLoop ballotHashes.length ballotHashes

/-- The loop body of `generate_merkle_proof`. -/
def proofStep (level : List String) (idx : Nat) : List MerkleProofStep :=
  let siblingIdx := if idx % 2 = 0 then idx + 1 else idx - 1
  (level[siblingIdx]?.map fun hash => ⟨hash, if idx % 2 = 0 then "right" else "left"⟩).toList

def generateMerkleProof : List (List String) → Nat → List MerkleProofStep
  | level :: above :: rest, idx => proofStep level idx ++ generateMerkleProof (above :: rest) (idx / 2)
  | _, _ => []

section Build

variable (sha256 : List UInt8 → Digest)

/-- Root and proofs. -/
def buildBallotMerkleTree (ballotHashes : List String) : String × List (List MerkleProofStep) :=
  if ballotHashes = [] then ("", [])
  else
    let leaves := padded ballotHashes
    let levels := treeLevels sha256 leaves.length leaves
    ((levels.getLast?.bind List.head?).getD "",
      (List.range ballotHashes.length).map (generateMerkleProof levels))

def verifyMerkleProof (leafHash : String) (proof : List MerkleProofStep) (root : String) : Bool :=
  proof.foldl (fun current step =>
    if step.position = "right" then combine sha256 current step.hash else combine sha256 step.hash current) leafHash
      == root

end Build

/-! ### The padding -/

theorem countOnes_eq_zero_iff {n : Nat} : countOnes n = 0 ↔ n = 0 := by
  induction n using Nat.evenOddRec with
  | h0 => simp [countOnes]
  | h_even n ih =>
      by_cases hn : n = 0
      · simp [hn, countOnes]
      · rw [countOnes, Nat.bit0_bits n hn, List.count_cons_of_ne (by decide)]
        rw [countOnes] at ih
        omega
  | h_odd n ih =>
      rw [countOnes, Nat.bit1_bits, List.count_cons_self]
      omega

/-- One bit is set in the powers of two. -/
theorem countOnes_eq_one_iff {n : Nat} : countOnes n = 1 ↔ ∃ k, n = 2 ^ k := by
  induction n using Nat.evenOddRec with
  | h0 =>
      constructor
      · intro h
        simp [countOnes] at h
      · rintro ⟨k, hk⟩
        exact absurd hk (by positivity)
  | h_even n ih =>
      by_cases hn : n = 0
      · subst hn
        constructor
        · intro h
          simp [countOnes] at h
        · rintro ⟨k, hk⟩
          exact absurd hk (by positivity)
      · rw [countOnes, Nat.bit0_bits n hn, List.count_cons_of_ne (by decide), ← countOnes, ih]
        constructor
        · rintro ⟨k, hk⟩
          exact ⟨k + 1, by rw [hk, pow_succ, Nat.mul_comm]⟩
        · rintro ⟨k, hk⟩
          cases k with
          | zero => omega
          | succ k =>
              rw [pow_succ] at hk
              exact ⟨k, by omega⟩
  | h_odd n ih =>
      have hcount : countOnes (2 * n + 1) = countOnes n + 1 := by
        rw [countOnes, Nat.bit1_bits, List.count_cons_self, countOnes]
      rw [hcount]
      constructor
      · intro h
        have hn : n = 0 := countOnes_eq_zero_iff.mp (by omega)
        exact ⟨0, by omega⟩
      · rintro ⟨k, hk⟩
        cases k with
        | zero =>
            have hn : n = 0 := by omega
            rw [countOnes_eq_zero_iff.mpr hn]
        | succ k =>
            rw [pow_succ] at hk
            omega

/-- The loop appends copies of the last leaf, up to the next power of two. -/
theorem padLoop_eq {fuel k : Nat} {leaves : List String} {last : String} (hlast : leaves.getLast? = some last)
    (hlow : 2 ^ k < 2 * leaves.length) (hhigh : leaves.length ≤ 2 ^ k) (hfuel : 2 ^ k ≤ leaves.length + fuel) :
    padLoop fuel leaves = leaves ++ List.replicate (2 ^ k - leaves.length) last := by
  induction fuel generalizing leaves with
  | zero =>
      rw [padLoop, show 2 ^ k - leaves.length = 0 by omega]
      simp
  | succ fuel ih =>
      rw [padLoop]
      by_cases hpow : leaves.length = 2 ^ k
      · rw [if_neg (not_not_intro (countOnes_eq_one_iff.mpr ⟨k, hpow⟩)), hpow, Nat.sub_self]
        simp
      · have hbetween : countOnes leaves.length ≠ 1 := by
          intro hone
          obtain ⟨j, hj⟩ := countOnes_eq_one_iff.mp hone
          have hlt : j < k := (Nat.pow_lt_pow_iff_right (by decide)).mp (hj ▸ lt_of_le_of_ne hhigh hpow)
          have hle : 2 ^ (j + 1) ≤ 2 ^ k := Nat.pow_le_pow_right (by decide) hlt
          rw [pow_succ] at hle
          omega
        have hlength : (leaves ++ [last]).length = leaves.length + 1 := by simp
        rw [if_pos hbetween, hlast, Option.toList_some, ih (by simp) (by omega) (by omega) (by omega), hlength,
          List.append_assoc, show 2 ^ k - leaves.length = 2 ^ k - (leaves.length + 1) + 1 by omega,
          List.replicate_succ, List.singleton_append]

theorem lt_two_mul_clog {n : Nat} (h : 0 < n) : 2 ^ Nat.clog 2 n < 2 * n := by
  by_cases hone : n = 1
  · simp [hone]
  · have hpred := Nat.pow_pred_clog_lt_self (by decide : 1 < 2) (by omega : 1 < n)
    have hpos : 0 < Nat.clog 2 n := Nat.clog_pos (by decide) (by omega)
    have hsplit : 2 ^ Nat.clog 2 n = 2 ^ (Nat.clog 2 n).pred * 2 := by
      rw [← pow_succ, Nat.pred_eq_sub_one, Nat.sub_add_cancel hpos]
    omega

theorem padded_eq {ballotHashes : List String} {last : String} (hlast : ballotHashes.getLast? = some last) :
    padded ballotHashes = ballotHashes ++
      List.replicate (2 ^ Nat.clog 2 ballotHashes.length - ballotHashes.length) last := by
  have hpos : 0 < ballotHashes.length := by
    apply List.length_pos_of_ne_nil
    rintro rfl
    cases hlast
  have hlow := lt_two_mul_clog hpos
  have hhigh := Nat.le_pow_clog (by decide : 1 < 2) ballotHashes.length
  exact padLoop_eq hlast hlow hhigh (by omega)

theorem length_padded {ballotHashes : List String} (h : ballotHashes ≠ []) :
    (padded ballotHashes).length = 2 ^ Nat.clog 2 ballotHashes.length := by
  rw [padded_eq (List.getLast?_eq_some_getLast h), List.length_append, List.length_replicate]
  have hhigh := Nat.le_pow_clog (by decide : 1 < 2) ballotHashes.length
  omega

/-! ### The proofs -/

section Proofs

variable {sha256 : List UInt8 → Digest}

/-- Without an odd node it does not matter what becomes of one. -/
theorem nextLevel_eq_next {level : List String} (h : level.length % 2 = 0) :
    nextLevel sha256 level = MerkleTree.next (combine sha256) level := by
  fun_induction nextLevel sha256 level with
  | case1 left right rest ih =>
      rw [MerkleTree.next, ih]
      simp only [List.length_cons] at h
      omega
  | case2 odd => simp at h
  | case3 => rfl

theorem treeLevels_eq_levels {k : Nat} (fuel : Nat) {level : List String} (h : level.length = 2 ^ k) :
    treeLevels sha256 fuel level = MerkleProof.levels (combine sha256) fuel level := by
  induction fuel generalizing k level with
  | zero => rfl
  | succ fuel ih =>
      rw [treeLevels, MerkleProof.levels]
      cases k with
      | zero => rw [if_neg (by rw [h]; decide), if_neg (by rw [h]; decide)]
      | succ k =>
          rw [pow_succ] at h
          have hhalf : (nextLevel sha256 level).length = 2 ^ k := by
            rw [nextLevel_eq_next (by omega), MerkleTree.length_next, h]
            omega
          split
          · rw [ih hhalf, nextLevel_eq_next (by omega)]
          · rfl

/-- A step under the words of the source. -/
def ofStep (step : MerkleProof.Step String) : MerkleProofStep := ⟨step.hash, if step.right then "right" else "left"⟩

theorem generateMerkleProof_eq (levels : List (List String)) (idx : Nat) :
    generateMerkleProof levels idx = (MerkleProof.proof levels idx).map ofStep := by
  fun_induction MerkleProof.proof levels idx with
  | case1 level above rest idx ih =>
      rw [generateMerkleProof, ih, List.map_append]
      congr 1
      rw [proofStep, MerkleProof.siblings]
      split
      · cases hsibling : level[idx + 1]? with
        | none => simp
        | some hash => simp [ofStep]
      · cases hsibling : level[idx - 1]? with
        | none => simp
        | some hash => simp [ofStep]
  | case2 levels idx hshort =>
      obtain rfl | ⟨top, rfl⟩ := MerkleTree.nil_or_singleton hshort
      · rfl
      · rfl

theorem verifyMerkleProof_map_ofStep (leafHash root : String) (proof : List (MerkleProof.Step String)) :
    verifyMerkleProof sha256 leafHash (proof.map ofStep) root =
      (MerkleProof.recompute (combine sha256) leafHash proof == root) := by
  rw [verifyMerkleProof, List.foldl_map, MerkleProof.recompute]
  congr 2
  funext current step
  cases hright : step.right with
  | true => simp [ofStep, hright]
  | false => simp [ofStep, hright]

/-- The root is where the climb from the padded leaves ends. -/
theorem climb_padded {ballotHashes : List String} (h : ballotHashes ≠ []) :
    MerkleTree.climb (combine sha256) (padded ballotHashes).length (padded ballotHashes) =
      [(buildBallotMerkleTree sha256 ballotHashes).1] := by
  have hne : padded ballotHashes ≠ [] := by
    apply List.ne_nil_of_length_pos
    rw [length_padded h]
    positivity
  have hlength := @MerkleTree.length_climb _ (combine sha256) _ _ (Nat.le_succ (padded ballotHashes).length)
  have hclimb := @MerkleTree.climb_ne_nil _ (combine sha256) (padded ballotHashes).length _ hne
  obtain ⟨top, htop⟩ := List.length_eq_one_iff.mp (Nat.le_antisymm hlength (List.length_pos_of_ne_nil hclimb))
  simp only [buildBallotMerkleTree, if_neg h, treeLevels_eq_levels _ (length_padded h)]
  rw [MerkleProof.getLast?_levels, htop]
  rfl

/-- Every proof verifies against the root. -/
theorem ballot_proofs_verify (sha256 : List UInt8 → Digest) (ballotHashes : List String)
    (idx : Fin ballotHashes.length) :
    ∃ proof, (buildBallotMerkleTree sha256 ballotHashes).2[idx.val]? = some proof ∧
      verifyMerkleProof sha256 ballotHashes[idx] proof (buildBallotMerkleTree sha256 ballotHashes).1 = true := by
  have hne : ballotHashes ≠ [] := List.ne_nil_of_length_pos (Nat.zero_lt_of_lt idx.isLt)
  have hleaf : (padded ballotHashes)[idx.val]? = some ballotHashes[idx] := by
    rw [padded_eq (List.getLast?_eq_some_getLast hne), List.getElem?_append_left idx.isLt]
    exact List.getElem?_eq_getElem idx.isLt
  refine ⟨generateMerkleProof (treeLevels sha256 (padded ballotHashes).length
    (padded ballotHashes)) idx.val, ?_, ?_⟩
  · rw [buildBallotMerkleTree, if_neg hne]
    simp [idx.isLt]
  · rw [treeLevels_eq_levels _ (length_padded hne), generateMerkleProof_eq, verifyMerkleProof_map_ofStep,
      MerkleProof.recompute_proof hleaf (climb_padded hne)]
    exact beq_self_eq_true _

end Proofs

end Inec.BallotTree
