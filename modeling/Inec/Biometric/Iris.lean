import Mathlib.Data.List.Nodup
import Mathlib.Data.Rat.Defs
import Mathlib.Algebra.Order.Field.Rat

/-!
# Iris codes

`match_iris_codes` of the biometric engine's matching.rs. Two codes are compared at every rotation of a range,
and the least distance is what decides. A rotation of the second code against the first is the opposite rotation
of the first against the second, so that it does not matter which is which.

Distances are rationals. The counters are of 32 bits and wrap, as the negation of the range's end does; the
shift, whose product fits in 64 bits for every code of less than 2^38 bytes, is a natural number. The latency is
left out.
-/

namespace Inec.Iris

abbrev Code := List UInt8

inductive MatchDecision
  | match
  | noMatch
  | inconclusive
  deriving DecidableEq, Repr

structure MatchScore where
  probeId : String
  galleryId : String
  modality : String
  score : ℚ
  normalizedScore : ℚ
  decision : MatchDecision
  algorithm : String
  deriving DecidableEq

/-- A 64-bit float that is only compared. -/
inductive Threshold
  | finite (value : ℚ)
  | infinity
  | negInfinity
  | nan
  deriving DecidableEq

/-- `hd < threshold` -/
def Threshold.above (hd : ℚ) : Threshold → Bool
  | finite value => hd < value
  | infinity => true
  | negInfinity => false
  | nan => false

structure Counts where
  diffBits : UInt32
  totalBits : UInt32
  deriving DecidableEq, Repr

def countOnes (byte : UInt8) : UInt32 := UInt32.ofNat byte.toBitVec.cpop.toNat

/-- `-n_rotations..=n_rotations` -/
def rotations (nRotations : Int32) : List Int :=
  (List.range ((nRotations.toInt - (-nRotations).toInt + 1).toNat)).map fun k : Nat => (-nRotations).toInt + k

/-- What a rotation makes of `best_hd`. -/
def nearer (best : ℚ) : Option ℚ → ℚ
  | some hd => if hd < best then hd else best
  | none => best

section Match

variable (probe gallery probeMask galleryMask : Code)

def minLen : Nat := min (min (min probe.length gallery.length) probeMask.length) galleryMask.length

/-- Which byte of the gallery a byte of the probe meets. -/
def galleryIndex (rot : Int) (minLen shift i : Nat) : Nat :=
  if 0 < rot then (i + shift) % minLen else if rot < 0 then (i + minLen - shift) % minLen else i

/-- A round of the inner loop; the bytes are there, at places below the least length. -/
def compareBytes (i gi : Nat) (c : Counts) : Counts :=
  let mask := probeMask.getD i 0 &&& galleryMask.getD gi 0
  if mask = 0 then c
  else
    let xor := (probe.getD i 0 ^^^ gallery.getD gi 0) &&& mask
    ⟨c.diffBits + countOnes xor, c.totalBits + countOnes mask⟩

def shiftUnit : Nat := max (minLen probe gallery probeMask galleryMask / 64) 1

def shift (rot : Int) : Nat := rot.natAbs * shiftUnit probe gallery probeMask galleryMask

def counts (rot : Int) : Counts :=
  let len := minLen probe gallery probeMask galleryMask
  let shift := shift probe gallery probeMask galleryMask rot
  (List.range len).foldl
    (fun c i => compareBytes probe gallery probeMask galleryMask i (galleryIndex rot len shift i) c) ⟨0, 0⟩

/-- A rotation that is not skipped, and has bits to compare. -/
def hd? (rot : Int) : Option ℚ :=
  if minLen probe gallery probeMask galleryMask ≤ shift probe gallery probeMask galleryMask rot then none
  else
    let c := counts probe gallery probeMask galleryMask rot
    if 0 < c.totalBits then some ((c.diffBits.toNat : ℚ) / c.totalBits.toNat) else none

def bestHd (nRotations : Int32) : ℚ :=
  (rotations nRotations).foldl (fun best rot => nearer best (hd? probe gallery probeMask galleryMask rot)) 1

def matchIrisCodes (threshold : Threshold) (nRotations : Int32) : MatchScore :=
  if minLen probe gallery probeMask galleryMask = 0 then
    { probeId := "", galleryId := "", modality := "iris", score := 0, normalizedScore := 0, decision := .noMatch,
      algorithm := "hamming" }
  else
    let best := bestHd probe gallery probeMask galleryMask nRotations
    { probeId := "", galleryId := "", modality := "iris", score := 1 - best, normalizedScore := 1 - best,
      decision := if threshold.above best then .match else .noMatch, algorithm := "hamming" }

end Match

/-! ### A rotation -/

variable (probe gallery probeMask galleryMask : Code)

theorem minLen_comm : minLen gallery probe galleryMask probeMask = minLen probe gallery probeMask galleryMask := by
  unfold minLen
  omega

theorem shift_neg (rot : Int) :
    shift gallery probe galleryMask probeMask (-rot) = shift probe gallery probeMask galleryMask rot := by
  unfold shift shiftUnit
  rw [minLen_comm, Int.natAbs_neg]

theorem compareBytes_comm (i gi : Nat) (c : Counts) : compareBytes gallery probe galleryMask probeMask gi i c =
    compareBytes probe gallery probeMask galleryMask i gi c := by
  unfold compareBytes
  rw [UInt8.and_comm, UInt8.xor_comm]

/-- The order in which bytes are counted does not matter. -/
theorem compareBytes_right_comm (i gi j gj : Nat) (c : Counts) :
    compareBytes probe gallery probeMask galleryMask j gj
      (compareBytes probe gallery probeMask galleryMask i gi c) =
      compareBytes probe gallery probeMask galleryMask i gi
        (compareBytes probe gallery probeMask galleryMask j gj c) := by
  simp only [compareBytes]
  split <;> split
  · rfl
  · rfl
  · rfl
  · simp only [Counts.mk.injEq]
    constructor
    · rw [UInt32.add_assoc, UInt32.add_comm (countOnes _), ← UInt32.add_assoc]
    · rw [UInt32.add_assoc, UInt32.add_comm (countOnes _), ← UInt32.add_assoc]

theorem mod_of_lt_double {n len : Nat} (h : n < 2 * len) : n % len = if n < len then n else n - len := by
  by_cases hlt : n < len
  · rw [if_pos hlt, Nat.mod_eq_of_lt hlt]
  · rw [if_neg hlt, Nat.mod_eq_sub_mod (by omega), Nat.mod_eq_of_lt (by omega)]

section Index

variable {rot : Int} {len shift i : Nat}

theorem galleryIndex_lt (hi : i < len) : galleryIndex rot len shift i < len := by
  have hlen : 0 < len := by omega
  unfold galleryIndex
  split
  · exact Nat.mod_lt _ hlen
  · split
    · exact Nat.mod_lt _ hlen
    · exact hi

/-- The opposite rotation goes back. -/
theorem galleryIndex_neg (hshift : shift < len) (hi : i < len) :
    galleryIndex (-rot) len shift (galleryIndex rot len shift i) = i := by
  rcases Int.lt_trichotomy rot 0 with hneg | hzero | hpos
  · have hback : 0 < -rot := by omega
    have hnot : ¬0 < rot := by omega
    simp only [galleryIndex, if_pos hback, if_neg hnot, if_pos hneg]
    rw [mod_of_lt_double (by omega : i + len - shift < 2 * len)]
    split
    · rw [mod_of_lt_double (by omega), if_neg (by omega)]
      omega
    · rw [mod_of_lt_double (by omega), if_pos (by omega)]
      omega
  · simp [galleryIndex, hzero]
  · have hback : -rot < 0 := by omega
    have hnot : ¬0 < -rot := by omega
    simp only [galleryIndex, if_pos hpos, if_neg hnot, if_pos hback]
    rw [mod_of_lt_double (by omega : i + shift < 2 * len)]
    split
    · rw [mod_of_lt_double (by omega), if_neg (by omega)]
      omega
    · rw [mod_of_lt_double (by omega), if_pos (by omega)]
      omega

end Index

/-- Every byte of the gallery is met once. -/
theorem range_perm_galleryIndex (rot : Int) {len shift : Nat} (hshift : shift < len) :
    (List.range len).Perm ((List.range len).map (galleryIndex rot len shift)) := by
  have hinj : ∀ i ∈ List.range len, ∀ j ∈ List.range len,
      galleryIndex rot len shift i = galleryIndex rot len shift j → i = j := by
    intro i hi j hj heq
    have hback : galleryIndex (-rot) len shift (galleryIndex rot len shift i) = i :=
      galleryIndex_neg hshift (List.mem_range.mp hi)
    rw [← hback, heq, galleryIndex_neg hshift (List.mem_range.mp hj)]
  apply (List.perm_ext_iff_of_nodup List.nodup_range (List.Nodup.map_on hinj List.nodup_range)).mpr
  intro j
  constructor
  · intro hj
    have hlt := List.mem_range.mp hj
    have hthere : galleryIndex (- -rot) len shift (galleryIndex (-rot) len shift j) = j :=
      galleryIndex_neg hshift hlt
    rw [Int.neg_neg] at hthere
    exact List.mem_map.mpr ⟨_, List.mem_range.mpr (galleryIndex_lt hlt), hthere⟩
  · intro hj
    obtain ⟨i, hi, rfl⟩ := List.mem_map.mp hj
    exact List.mem_range.mpr (galleryIndex_lt (List.mem_range.mp hi))

/-- The codes exchanged, at the opposite rotation, have the same bits compared. -/
theorem counts_neg (rot : Int)
    (hshift : shift probe gallery probeMask galleryMask rot < minLen probe gallery probeMask galleryMask) :
    counts gallery probe galleryMask probeMask (-rot) = counts probe gallery probeMask galleryMask rot := by
  unfold counts
  simp only [minLen_comm, shift_neg]
  rw [(range_perm_galleryIndex rot hshift).foldl_eq'
    (fun i _ j _ c => compareBytes_right_comm gallery probe galleryMask probeMask i _ j _ c), List.foldl_map]
  apply List.foldl_ext
  intro c i hi
  rw [galleryIndex_neg hshift (List.mem_range.mp hi), compareBytes_comm]

theorem hd?_neg (rot : Int) :
    hd? gallery probe galleryMask probeMask (-rot) = hd? probe gallery probeMask galleryMask rot := by
  unfold hd?
  rw [minLen_comm, shift_neg]
  by_cases hshift : minLen probe gallery probeMask galleryMask ≤ shift probe gallery probeMask galleryMask rot
  · rw [if_pos hshift, if_pos hshift]
  · rw [if_neg hshift, if_neg hshift, counts_neg probe gallery probeMask galleryMask rot (by omega)]

/-! ### The range -/

theorem mem_rotations {nRotations : Int32} {rot : Int} :
    rot ∈ rotations nRotations ↔ (-nRotations).toInt ≤ rot ∧ rot ≤ nRotations.toInt := by
  unfold rotations
  constructor
  · intro h
    obtain ⟨k, hk, heq⟩ := List.mem_map.mp h
    have hlt := List.mem_range.mp hk
    omega
  · intro h
    refine List.mem_map.mpr ⟨(rot - (-nRotations).toInt).toNat, List.mem_range.mpr ?_, ?_⟩ <;> omega

theorem nodup_rotations (nRotations : Int32) : (rotations nRotations).Nodup := by
  apply List.Nodup.map_on _ List.nodup_range
  intro k _ l _ heq
  omega

theorem toInt_neg_of_ne {nRotations : Int32} (h : nRotations ≠ Int32.minValue) :
    (-nRotations).toInt = -nRotations.toInt := by
  have hlow := Int32.le_toInt nRotations
  have hhigh := Int32.toInt_lt nRotations
  have hne : nRotations.toInt ≠ -2 ^ 31 := fun heq => h (Int32.toInt_inj.mp (by rw [heq]; rfl))
  rw [Int32.toInt_neg, Int.bmod_eq_of_le] <;> omega

/-- The range is its own opposite. -/
theorem rotations_perm_neg {nRotations : Int32} (h : nRotations ≠ Int32.minValue) :
    (rotations nRotations).Perm ((rotations nRotations).map fun rot => -rot) := by
  have hneg : ((rotations nRotations).map fun rot => -rot).Nodup := by
    apply List.Nodup.map_on _ (nodup_rotations nRotations)
    intro rot _ rot' _ heq
    omega
  apply (List.perm_ext_iff_of_nodup (nodup_rotations nRotations) hneg).mpr
  intro rot
  have hends := toInt_neg_of_ne h
  constructor
  · intro hmem
    have hrange := mem_rotations.mp hmem
    refine List.mem_map.mpr ⟨-rot, mem_rotations.mpr ?_, Int.neg_neg rot⟩
    omega
  · intro hmem
    obtain ⟨rot', hmem', heq⟩ := List.mem_map.mp hmem
    have hrange := mem_rotations.mp hmem'
    apply mem_rotations.mpr
    omega

/-- The least 32-bit integer is its own negation, and by so much every byte is shifted out. -/
theorem hd?_minValue {rot : Int} (h : rot ∈ rotations Int32.minValue) :
    hd? probe gallery probeMask galleryMask rot = none := by
  have hrange : (-Int32.minValue).toInt ≤ rot ∧ rot ≤ Int32.minValue.toInt := mem_rotations.mp h
  have hrot : rot = -2147483648 := by
    have hmin : Int32.minValue.toInt = -2147483648 := rfl
    have hneg : (-Int32.minValue).toInt = -2147483648 := rfl
    omega
  unfold hd? shift shiftUnit
  rw [hrot, if_pos]
  show _ ≤ 2147483648 * _
  omega

theorem nearer_right_comm (best : ℚ) (a b : Option ℚ) : nearer (nearer best a) b = nearer (nearer best b) a := by
  have hmin : ∀ best hd : ℚ, nearer best (some hd) = min hd best := by
    intro best hd
    unfold nearer
    rw [min_def_lt]
  cases a with
  | none => rfl
  | some a =>
      cases b with
      | none => rfl
      | some b => rw [hmin, hmin, hmin, hmin, min_left_comm]

theorem bestHd_comm (nRotations : Int32) :
    bestHd gallery probe galleryMask probeMask nRotations =
      bestHd probe gallery probeMask galleryMask nRotations := by
  unfold bestHd
  by_cases hmin : nRotations = Int32.minValue
  · apply List.foldl_ext
    intro best rot hrot
    rw [hmin] at hrot
    rw [hd?_minValue gallery probe galleryMask probeMask hrot,
      hd?_minValue probe gallery probeMask galleryMask hrot]
  · rw [(rotations_perm_neg hmin).foldl_eq' (fun _ _ _ _ best => nearer_right_comm best _ _), List.foldl_map]
    apply List.foldl_ext
    intro best rot _
    rw [hd?_neg]

/-- It does not matter which code is the probe. -/
theorem matchIrisCodes_comm (threshold : Threshold) (nRotations : Int32) :
    bestHd probe gallery probeMask galleryMask nRotations = bestHd gallery probe galleryMask probeMask nRotations ∧
      matchIrisCodes probe gallery probeMask galleryMask threshold nRotations =
        matchIrisCodes gallery probe galleryMask probeMask threshold nRotations := by
  have hbest := bestHd_comm probe gallery probeMask galleryMask nRotations
  refine ⟨hbest.symm, ?_⟩
  unfold matchIrisCodes
  rw [minLen_comm, hbest]

example : matchIrisCodes [1, 2] [2, 1] [255, 255] [255, 255] (.finite (1 / 4)) 1 =
    ⟨"", "", "iris", 1, 1, .match, "hamming"⟩ := by
  decide +kernel

end Inec.Iris
