import Inec.Evidence.BundleRoot

/-!
# Merkle batches

MerkleTreeBuilder.BuildTree of blockchain_production.go. A level is hexadecimal texts, two of them are written
one behind the other and hashed, and a last one without a partner goes up. Leaves are hashed as they are, with
no label as the root of a bundle has, so that a leaf with the text of two hashes stands for the two leaves they
are of.

A leaf is the bytes of a string. The row of `merkle_trees` is left out.
-/

namespace Inec.BatchRoot

open BundleRoot (Digest utf8 utf8_inj sha256Sum)

abbrev Leaf := List UInt8

/-- What BuildTree returns; without leaves there is no type. -/
structure Tree where
  rootHash : String
  depth : Nat
  leafCount : Nat
  treeType : Option String
  deriving DecidableEq, Repr

def pairText (p : Digest × Digest) : List UInt8 := utf8 (HexText.encode p.1.val ++ HexText.encode p.2.val)

section Build

variable (sha256 : List UInt8 → Digest)

def hashHex (bytes : List UInt8) : String := HexText.encode (sha256 bytes).val

/-- `hashes[i] + hashes[i+1]`, hashed. -/
def combined (left right : String) : String := hashHex sha256 (utf8 (left ++ right))

/-- The loop over the levels, with its depth. There are fewer rounds than leaves. -/
def levels : Nat → Nat → List String → Nat × List String
  | 0, depth, hashes => (depth, hashes)
  | rounds + 1, depth, hashes =>
      if 1 < hashes.length then levels rounds (depth + 1) (MerkleTree.next (combined sha256) hashes)
      else (depth, hashes)

def buildTree (leaves : List Leaf) (treeType : String) : Tree :=
  if leaves.length = 0 then ⟨"", 0, 0, none⟩
  else
    let top := levels sha256 leaves.length 0 (leaves.map (hashHex sha256))
    ⟨top.2.headD "", top.1, leaves.length, some treeType⟩

/-- Equal roots are roots of equal lists. -/
def Binds (leaves leaves' : List Leaf) : Prop :=
  ∀ treeType treeType',
    (buildTree sha256 leaves treeType).rootHash = (buildTree sha256 leaves' treeType').rootHash → leaves = leaves'

/-- What is hashed for a list. -/
def hashedTexts (leaves : List Leaf) : List (List UInt8) := MerkleTree.texts id pairText sha256 leaves

/-- The trees of the two lists are the same but where a leaf of one is the text of the two hashes that are
combined in its place in the other. -/
def Alike (leaves leaves' : List Leaf) : Prop := MerkleTree.Alike id pairText sha256 leaves leaves'

end Build

variable {sha256 : List UInt8 → Digest} {leaves leaves' : List Leaf}

theorem pairText_inj (p q : Digest × Digest) (h : pairText p = pairText q) : p = q := by
  have htext := congrArg String.toList (utf8_inj h)
  rw [String.toList_append, String.toList_append] at htext
  have hlength : ∀ d : Digest, (HexText.encode d.val).toList.length = 64 := by
    intro d
    rw [String.length_toList, HexText.length_encode, d.property]
  obtain ⟨hleft, hright⟩ := List.append_inj htext ((hlength p.1).trans (hlength q.1).symm)
  have hfirst := HexText.encode_inj (String.toList_inj.mp hleft)
  have hsecond := HexText.encode_inj (String.toList_inj.mp hright)
  exact Prod.ext (Subtype.ext hfirst) (Subtype.ext hsecond)

theorem levels_eq_climb (rounds depth : Nat) (hashes : List String) :
    (levels sha256 rounds depth hashes).2 = MerkleTree.climb (combined sha256) rounds hashes := by
  induction rounds generalizing depth hashes with
  | zero => rfl
  | succ rounds ih =>
      unfold levels MerkleTree.climb
      by_cases hlong : 1 < hashes.length
      · rw [if_pos hlong, if_pos hlong, ih]
      · rw [if_neg hlong, if_neg hlong]

/-- The loop ends with one hash, which is that of the digests' tree. -/
theorem rootHash_buildTree (leaves : List Leaf) (treeType : String) : (buildTree sha256 leaves treeType).rootHash =
    (((MerkleTree.tagged.root? (MerkleTree.hashText id pairText sha256) leaves).map
      fun top => HexText.encode top.val).getD "") := by
  have hlevel : leaves.map (hashHex sha256) = (leaves.map fun leaf => sha256 leaf).map fun d =>
      HexText.encode d.val := by
    rw [List.map_map]
    rfl
  have hclimb : (MerkleTree.climb (MerkleTree.tagged.join (MerkleTree.hashText id pairText sha256)) leaves.length
      (leaves.map fun leaf => sha256 leaf)).map (fun d => HexText.encode d.val) =
        MerkleTree.climb (combined sha256) leaves.length
          ((leaves.map fun leaf => sha256 leaf).map fun d => HexText.encode d.val) :=
    MerkleTree.map_climb (fun d : Digest => HexText.encode d.val) (fun _ _ => rfl) leaves.length _
  unfold buildTree
  by_cases hempty : leaves.length = 0
  · rw [if_pos hempty, List.length_eq_zero_iff.mp hempty]
    rfl
  · rw [if_neg hempty]
    show (levels sha256 leaves.length 0 (leaves.map (hashHex sha256))).2.headD "" = _
    rw [levels_eq_climb, hlevel, ← hclimb, List.headD_eq_head?_getD, List.head?_map]
    unfold MerkleTree.Encoding.root? MerkleTree.top?
    rw [List.length_map]
    rfl

theorem rootHash_eq_iff {treeType treeType' : String} :
    (buildTree sha256 leaves treeType).rootHash = (buildTree sha256 leaves' treeType').rootHash ↔
      MerkleTree.tagged.root? (MerkleTree.hashText id pairText sha256) leaves =
        MerkleTree.tagged.root? (MerkleTree.hashText id pairText sha256) leaves' := by
  rw [rootHash_buildTree, rootHash_buildTree]
  constructor
  · exact BundleRoot.rootText_inj
  · intro h
    rw [h]

/-- A batch binds its leaves against exactly the lists whose trees are not like its own. -/
theorem binds_iff
    (hfree : ∀ x ∈ hashedTexts sha256 leaves, ∀ y ∈ hashedTexts sha256 leaves', sha256 x = sha256 y → x = y) :
    Binds sha256 leaves leaves' ↔ (Alike sha256 leaves leaves' → leaves = leaves') := by
  have halike := MerkleTree.root?_eq_iff_alike (fun _ _ h => h) pairText_inj hfree
  constructor
  · intro h hsame
    exact h "" "" (rootHash_eq_iff.mpr (halike.mpr (Or.inr hsame)))
  · intro h treeType treeType' hroot
    rcases halike.mp (rootHash_eq_iff.mp hroot) with hempty | hsame
    · rw [hempty.1, hempty.2]
    · exact h hsame

/-- Two leaves and a third. -/
theorem binds_unlike : Binds sha256Sum [utf8 "a", utf8 "b"] [utf8 "c"] := by
  refine (binds_iff (by decide +kernel)).mpr ?_
  intro halike
  obtain ⟨tree, htree, tree', htree', halike⟩ := halike
  have hnode : tree = .node (.leaf (utf8 "a")) (.leaf (utf8 "b")) := (Option.some.inj htree).symm
  have hleaf : tree' = .leaf (utf8 "c") := (Option.some.inj htree').symm
  have htop := halike.top_eq
  rw [hnode, hleaf] at htop
  exact absurd htop (by decide +kernel)

/-- The leaf with the text of their two hashes has the root of two leaves. -/
theorem rootHash_pairText (sha256 : List UInt8 → Digest) (a b : Leaf) (treeType treeType' : String) :
    (buildTree sha256 [pairText (sha256 a, sha256 b)] treeType').rootHash =
      (buildTree sha256 [a, b] treeType).rootHash := rfl

theorem root_of_joined_hashes : ¬ ∀ leaves leaves' : List Leaf,
    (∀ x ∈ hashedTexts sha256Sum leaves, ∀ y ∈ hashedTexts sha256Sum leaves', sha256Sum x = sha256Sum y → x = y) →
      Binds sha256Sum leaves leaves' := by
  intro h
  have hroot := rootHash_pairText sha256Sum (utf8 "a") (utf8 "b") "" ""
  have hsame := h [pairText (sha256Sum (utf8 "a"), sha256Sum (utf8 "b"))] [utf8 "a", utf8 "b"]
    (by decide +kernel) "" "" hroot
  cases hsame

end Inec.BatchRoot
