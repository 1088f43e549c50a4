import Mathlib.Data.List.Sort
import Mathlib.Data.String.Basic
import Inec.Lib.HexText
import Inec.Lib.MerkleTree
import Inec.Lib.Sha256

/-!
# The event root of a collation bundle

`merkleRootEventHashes` of evidence_integrity.go: the root of the tree over the last event hashes of the children,
sorted. A child without evidence has no leaf. So the root says which hashes there are, each as often as it occurs, and
says nothing about how many children have none.
-/

namespace Inec.BundleRoot

/-- A child of a bundle. The hash is that of a child whose `last_event_hash` is a string. -/
structure Child where
  resultId : Int
  lastEventHash : Option String
  deriving DecidableEq, Repr

/-- The last event hash, empty for a child without evidence. -/
def Child.hash (child : Child) : String := child.lastEventHash.getD ""

abbrev Digest : Type := { bytes : List UInt8 // bytes.length = 32 }

def utf8 (s : String) : List UInt8 := s.toUTF8.data.toList

theorem utf8_inj {s t : String} (h : utf8 s = utf8 t) : s = t := by
  have hdata := Array.toList_inj.mp h
  have hbytes : s.toUTF8 = t.toUTF8 := ByteArray.ext hdata
  exact String.toByteArray_inj.mp hbytes

/-- What is hashed for a leaf and for a node. -/
def encoding : MerkleTree.Encoding String (List UInt8) Digest where
  leaf := fun leaf => utf8 "leaf:" ++ utf8 leaf
  pair := fun p => utf8 "node:" ++ (p.1.val ++ p.2.val)
  leaf_inj := fun _ _ h => utf8_inj (List.append_cancel_left h)
  pair_inj := by
    intro p q h
    obtain ⟨hleft, hright⟩ := List.append_inj (List.append_cancel_left h) (p.1.property.trans q.1.property.symm)
    exact Prod.ext (Subtype.ext hleft) (Subtype.ext hright)
  leaf_ne_pair := by
    intro a p h
    exact absurd (List.append_inj h rfl).1 (by decide)

/-- The hashes of the children that have one. -/
def evidenceHashes (children : List Child) : List String := (children.map Child.hash).filter (· ≠ "")

/-- `leaves` after `sort.Strings`. -/
def sortedLeaves (children : List Child) : List String := (evidenceHashes children).insertionSort (· ≤ ·)

section Root

variable (sha256 : List UInt8 → Digest)

def merkleRootEventHashes (children : List Child) : String :=
  match encoding.root? sha256 (sortedLeaves children) with
  | none => ""
  | some top => HexText.encode top.val

/-- What is hashed for a bundle. -/
def hashedBytes (children : List Child) : List (List UInt8) := encoding.hashed sha256 (sortedLeaves children)

/-- The two bundles have one root exactly if they have the same last event hashes. -/
def RootCommits (children children' : List Child) : Prop :=
  merkleRootEventHashes sha256 children = merkleRootEventHashes sha256 children' ↔
    (children.map Child.hash).Perm (children'.map Child.hash)

end Root

/-- The children that have no evidence yet. -/
def withoutEvidence (children : List Child) : Nat := (children.map Child.hash).count ""

/-! ### What the root says -/

variable {sha256 : List UInt8 → Digest} {children children' : List Child}

theorem sortedLeaves_eq_iff :
    sortedLeaves children = sortedLeaves children' ↔ (evidenceHashes children).Perm (evidenceHashes children') := by
  have hperm : ∀ children, (sortedLeaves children).Perm (evidenceHashes children) :=
    fun children => List.perm_insertionSort (· ≤ ·) (evidenceHashes children)
  constructor
  · intro h
    exact (hperm children).symm.trans (h ▸ hperm children')
  · intro h
    refine List.Perm.eq_of_pairwise ?_ (List.pairwise_insertionSort _ _) (List.pairwise_insertionSort _ _)
      ((hperm _).trans (h.trans (hperm _).symm))
    exact fun a b _ _ hab hba => le_antisymm hab hba

/-- The text of a root tells which root it is, and whether there is one. -/
theorem rootText_inj {root root' : Option Digest}
    (h : (root.map fun d => HexText.encode d.val).getD "" = (root'.map fun d => HexText.encode d.val).getD "") :
    root = root' := by
  have hencode : ∀ d : Digest, HexText.encode d.val ≠ "" := by
    intro d
    apply HexText.encode_ne_empty
    apply List.ne_nil_of_length_pos
    rw [d.property]
    decide
  cases root with
  | none =>
      cases root' with
      | none => rfl
      | some top' => exact absurd h.symm (hencode top')
  | some top =>
      cases root' with
      | none => exact absurd h (hencode top)
      | some top' => rw [Subtype.ext (HexText.encode_inj h)]

/-- The root is the root of one sorted list. -/
theorem merkleRootEventHashes_eq_iff
    (hfree : ∀ x ∈ hashedBytes sha256 children, ∀ y ∈ hashedBytes sha256 children', sha256 x = sha256 y → x = y) :
    merkleRootEventHashes sha256 children = merkleRootEventHashes sha256 children' ↔
      (evidenceHashes children).Perm (evidenceHashes children') := by
  rw [← sortedLeaves_eq_iff]
  constructor
  · intro h
    have htext : ∀ children : List Child, merkleRootEventHashes sha256 children =
        ((encoding.root? sha256 (sortedLeaves children)).map fun d => HexText.encode d.val).getD "" := by
      intro children
      unfold merkleRootEventHashes
      cases encoding.root? sha256 (sortedLeaves children) <;> rfl
    rw [htext, htext] at h
    exact MerkleTree.root?_inj hfree (rootText_inj h)
  · intro h
    rw [merkleRootEventHashes, h, merkleRootEventHashes]

/-- The last event hashes are those there are and the missing ones. -/
theorem perm_hashes_iff :
    (children.map Child.hash).Perm (children'.map Child.hash) ↔
      (evidenceHashes children).Perm (evidenceHashes children') ∧
        withoutEvidence children = withoutEvidence children' := by
  constructor
  · intro h
    exact ⟨h.filter _, h.count_eq ""⟩
  · rintro ⟨hevidence, hwithout⟩
    rw [List.perm_iff_count]
    intro hash
    by_cases hempty : hash = ""
    · rw [hempty]
      exact hwithout
    · have hcount := hevidence.count_eq hash
      rw [evidenceHashes, evidenceHashes, List.count_filter (by simpa using hempty),
        List.count_filter (by simpa using hempty)] at hcount
      exact hcount

/-- The root commits to the children exactly where bundles with the same evidence have as many children without. -/
theorem rootCommits_iff
    (hfree : ∀ x ∈ hashedBytes sha256 children, ∀ y ∈ hashedBytes sha256 children', sha256 x = sha256 y → x = y) :
    RootCommits sha256 children children' ↔
      ((evidenceHashes children).Perm (evidenceHashes children') →
        withoutEvidence children = withoutEvidence children') := by
  rw [RootCommits, merkleRootEventHashes_eq_iff hfree, perm_hashes_iff]
  constructor
  · intro h hevidence
    exact (h.mp hevidence).2
  · intro h
    exact ⟨fun hevidence => ⟨hevidence, h hevidence⟩, fun hsame => hsame.1⟩

/-- SHA-256 itself. -/
def sha256Sum (bytes : List UInt8) : Digest := ⟨Sha256.sum bytes, Sha256.length_sum bytes⟩

/-- Three children, and the same with one replaced. -/
theorem rootCommits_substituted :
    RootCommits sha256Sum [⟨1, some "aaa"⟩, ⟨2, some "bbb"⟩, ⟨3, none⟩] [⟨1, some "aaa"⟩, ⟨2, some "xxx"⟩, ⟨3, none⟩] :=
  (rootCommits_iff (by decide +kernel)).mpr (by decide)

/-- A child without evidence is added. -/
theorem root_of_added_child :
    ¬RootCommits sha256Sum [⟨1, some "aaa"⟩] [⟨1, some "aaa"⟩, ⟨2, some ""⟩] := by
  intro h
  exact absurd (h.mp rfl).length_eq (by decide)

end Inec.BundleRoot
