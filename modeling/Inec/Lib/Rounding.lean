import Mathlib.Data.Nat.Log
import Mathlib.Tactic.Linarith
import Mathlib.Tactic.Ring

/-!
# Rounding to nearest, ties to even

Arithmetic on fractions of natural numbers as floating point does it: a fraction is rounded to the nearest whole
number, and to the nearest number with a given count of significant bits. The facts needed about them are how
far a rounded value can be from the exact one, that rounding keeps the order, and to which of two neighbours a
fraction goes.
-/

namespace Rounding

/-- `n / d` rounded to the nearest whole number, to the even one of two that are as near. -/
def nearestEven (n d : Nat) : Nat :=
  if 2 * (n % d) < d then n / d
  else if d < 2 * (n % d) then n / d + 1
  else n / d + n / d % 2

/-- The rounded value is half a unit away at most. -/
theorem nearestEven_bounds {n d : Nat} (hd : 0 < d) :
    2 * (nearestEven n d * d) ≤ 2 * n + d ∧ 2 * n ≤ 2 * (nearestEven n d * d) + d := by
  have hdiv := Nat.div_add_mod n d
  have hmod := Nat.mod_lt n hd
  rw [Nat.mul_comm] at hdiv
  unfold nearestEven
  split
  · omega
  split
  · rw [Nat.add_mul]
    omega
  · rcases Nat.mod_two_eq_zero_or_one (n / d) with hpar | hpar <;> rw [hpar, Nat.add_mul] <;> omega

/-- Less than half a unit off, the nearest whole number is the one. -/
theorem nearestEven_eq {n d k : Nat} (hd : 0 < d) (hlow : 2 * (k * d) < 2 * n + d)
    (hhigh : 2 * n < 2 * (k * d) + d) : nearestEven n d = k := by
  have hbounds := @nearestEven_bounds n d hd
  apply Nat.le_antisymm
  · by_contra hlt
    have hle : (k + 1) * d ≤ nearestEven n d * d := Nat.mul_le_mul_right d (by omega)
    rw [Nat.add_mul] at hle
    omega
  · by_contra hlt
    have hle : (nearestEven n d + 1) * d ≤ k * d := Nat.mul_le_mul_right d (by omega)
    rw [Nat.add_mul] at hle
    omega

theorem nearestEven_mul {k d : Nat} (hd : 0 < d) : nearestEven (k * d) d = k :=
  nearestEven_eq hd (by omega) (by omega)

/-- Halfway between two whole numbers it is the even one. -/
theorem nearestEven_of_tie {n d k : Nat} (hd : 0 < d) (h : 2 * n = (2 * k + 1) * d) :
    nearestEven n d = k + k % 2 := by
  have hexpand : (2 * k + 1) * d = 2 * (k * d) + d := by ring
  have hn : n = n - k * d + k * d := by omega
  have hlt : n - k * d < d := by omega
  have hdiv : n / d = k := by
    rw [hn, Nat.add_mul_div_right _ _ hd, Nat.div_eq_of_lt hlt, Nat.zero_add]
  have hmod : n % d = n - k * d := by
    have hsplit := Nat.div_add_mod n d
    rw [hdiv, Nat.mul_comm] at hsplit
    omega
  rw [nearestEven, hdiv, hmod, if_neg (by omega), if_neg (by omega)]

/-- A larger fraction is not rounded to less. -/
theorem nearestEven_mono {n d n' d' : Nat} (hd : 0 < d) (hd' : 0 < d') (h : n * d' ≤ n' * d) :
    nearestEven n d ≤ nearestEven n' d' := by
  by_contra hlt
  have hlow := (@nearestEven_bounds n d hd).1
  have hhigh := (@nearestEven_bounds n' d' hd').2
  have hlow' := Nat.mul_le_mul_right d' hlow
  have hhigh' := Nat.mul_le_mul_right d hhigh
  have hstep := Nat.mul_le_mul_right (d * d') (Nat.lt_of_not_le hlt)
  have hpos : 0 < d * d' := Nat.mul_pos hd hd'
  -- all of these are equalities: both fractions lie halfway between the same two numbers
  have htie : 2 * n * d' = (2 * nearestEven n' d' + 1) * d * d' := by
    linarith
  have htie' : 2 * n' * d = (2 * nearestEven n' d' + 1) * d' * d := by
    linarith
  have heven := nearestEven_of_tie hd (Nat.eq_of_mul_eq_mul_right hd' htie)
  have heven' := nearestEven_of_tie hd' (Nat.eq_of_mul_eq_mul_right hd htie')
  omega

theorem nearestEven_mul_mul {n d c : Nat} (hd : 0 < d) (hc : 0 < c) :
    nearestEven (c * n) (c * d) = nearestEven n d := by
  apply Nat.le_antisymm
  · exact nearestEven_mono (Nat.mul_pos hc hd) hd (by linarith)
  · exact nearestEven_mono hd (Nat.mul_pos hc hd) (by linarith)

/-- `n / d` rounded to a significand of one bit and `fraction` further ones. -/
def significand (fraction n d : Nat) : Nat :=
  let drop := Nat.log2 (n / d) - fraction
  nearestEven n (d * 2 ^ drop) * 2 ^ drop

theorem log2_eq_of_between {n k : Nat} (hlow : 2 ^ k ≤ n) (hhigh : n < 2 ^ (k + 1)) : Nat.log2 n = k := by
  have hn : n ≠ 0 := by
    have hpos := Nat.two_pow_pos k
    omega
  have hlt := (Nat.log2_lt hn).mpr hhigh
  have hle := (Nat.le_log2 hn).mpr hlow
  omega

/-- Where the bits that are dropped are counted: below the significand none. -/
theorem lt_mul_pow_log2 {fraction n d : Nat} (hd : 0 < d) :
    n < d * 2 ^ (fraction + 1 + (Nat.log2 (n / d) - fraction)) := by
  by_cases hzero : n / d = 0
  · have hlt := (Nat.div_eq_zero_iff_lt hd).mp hzero
    exact Nat.lt_of_lt_of_le hlt (Nat.le_mul_of_pos_right d (Nat.two_pow_pos _))
  · have hlt : n / d < 2 ^ (fraction + 1 + (Nat.log2 (n / d) - fraction)) :=
      (Nat.log2_lt hzero).mp (by omega)
    exact (Nat.div_lt_iff_lt_mul hd).mp hlt |>.trans_eq (Nat.mul_comm _ _)

theorem significand_le_pow {fraction n d : Nat} (hd : 0 < d) :
    significand fraction n d ≤ 2 ^ (fraction + 1 + (Nat.log2 (n / d) - fraction)) := by
  have hlt := @lt_mul_pow_log2 fraction n d hd
  have hmono := @nearestEven_mono n (d * 2 ^ (Nat.log2 (n / d) - fraction)) (2 ^ (fraction + 1) * 1) 1
    (Nat.mul_pos hd (Nat.two_pow_pos _)) (by decide) (by
      rw [pow_add] at hlt
      linarith)
  rw [nearestEven_mul (by decide)] at hmono
  rw [pow_add]
  exact Nat.mul_le_mul_right _ hmono

/-- A larger fraction is not rounded to less, whatever their exponents. -/
theorem significand_mono {fraction n d n' d' : Nat} (hd : 0 < d) (hd' : 0 < d') (h : n * d' ≤ n' * d) :
    significand fraction n d ≤ significand fraction n' d' := by
  have hdiv : n / d ≤ n' / d' := by
    rw [Nat.le_div_iff_mul_le hd']
    have hfloor := Nat.div_mul_le_self n d
    have hscaled := Nat.mul_le_mul_right d' hfloor
    exact Nat.le_of_mul_le_mul_right (by linarith : n / d * d' * d ≤ n' * d) hd
  have hlog : Nat.log2 (n / d) ≤ Nat.log2 (n' / d') := by
    by_cases hzero : n / d = 0
    · rw [hzero, Nat.log2_zero]
      exact Nat.zero_le _
    · have hne : n' / d' ≠ 0 := fun heq => hzero (Nat.eq_zero_of_le_zero (heq ▸ hdiv))
      exact (Nat.le_log2 hne).mpr (Nat.le_trans ((Nat.le_log2 hzero).mp (Nat.le_refl _)) hdiv)
  by_cases hdrop : Nat.log2 (n / d) - fraction = Nat.log2 (n' / d') - fraction
  · rw [significand, significand, hdrop]
    apply Nat.mul_le_mul_right
    apply nearestEven_mono (Nat.mul_pos hd (Nat.two_pow_pos _)) (Nat.mul_pos hd' (Nat.two_pow_pos _))
    have hscaled := Nat.mul_le_mul_right (2 ^ (Nat.log2 (n' / d') - fraction)) h
    linarith
  · -- a power of two lies between them
    have hpow : 2 ^ (fraction + 1 + (Nat.log2 (n / d) - fraction)) ≤ 2 ^ Nat.log2 (n' / d') :=
      Nat.pow_le_pow_right (by decide) (by omega)
    refine Nat.le_trans (significand_le_pow hd) (Nat.le_trans hpow ?_)
    have hne : n' / d' ≠ 0 := by
      intro hzero
      rw [hzero, Nat.log2_zero] at hlog hdrop
      omega
    have hlow : 2 ^ Nat.log2 (n' / d') ≤ n' / d' := (Nat.le_log2 hne).mp (Nat.le_refl _)
    have hsplit : 2 ^ Nat.log2 (n' / d') = 2 ^ fraction * 2 ^ (Nat.log2 (n' / d') - fraction) := by
      rw [← pow_add]
      congr 1
      omega
    rw [hsplit] at hlow ⊢
    apply Nat.mul_le_mul_right
    have hmono := @nearestEven_mono (2 ^ fraction * 1) 1 n' (d' * 2 ^ (Nat.log2 (n' / d') - fraction)) (by decide)
      (Nat.mul_pos hd' (Nat.two_pow_pos _)) (by
        have hle := (Nat.le_div_iff_mul_le hd').mp hlow
        linarith)
    rw [nearestEven_mul (by decide)] at hmono
    exact hmono

/-! ### Neighbours -/

section Neighbours

variable {fraction drop k n d : Nat}

/-- Between two neighbours of the grid the exponent is theirs. -/
theorem log2_of_between (hd : 0 < d) (hk : 2 ^ fraction ≤ k) (hk' : k < 2 ^ (fraction + 1))
    (hlow : k * 2 ^ drop * d ≤ n) (hhigh : n < (k + 1) * 2 ^ drop * d) : Nat.log2 (n / d) - fraction = drop := by
  have hlog : Nat.log2 (n / d) = fraction + drop := by
    apply log2_eq_of_between
    · rw [Nat.le_div_iff_mul_le hd, pow_add]
      exact Nat.le_trans (Nat.mul_le_mul_right d (Nat.mul_le_mul_right _ hk)) hlow
    · rw [Nat.div_lt_iff_lt_mul hd, show fraction + drop + 1 = fraction + 1 + drop by omega, pow_add]
      exact Nat.lt_of_lt_of_le hhigh (Nat.mul_le_mul_right d (Nat.mul_le_mul_right _ hk'))
  omega

/-- The grid is kept. -/
theorem significand_grid (hk : 2 ^ fraction ≤ k) (hk' : k < 2 ^ (fraction + 1)) :
    significand fraction (k * 2 ^ drop) 1 = k * 2 ^ drop := by
  have hdrop : Nat.log2 (k * 2 ^ drop / 1) - fraction = drop := by
    apply log2_of_between (by decide) hk hk' (by omega)
    rw [Nat.add_mul, Nat.add_mul]
    have hpos := Nat.two_pow_pos drop
    omega
  rw [significand, hdrop, Nat.one_mul, nearestEven_mul (Nat.two_pow_pos _)]

/-- Up to the middle between an even neighbour and the next the even one is not exceeded. -/
theorem significand_le_of_le_mid (hd : 0 < d) (hk : 2 ^ fraction ≤ k) (hk' : k < 2 ^ (fraction + 1))
    (heven : k % 2 = 0) (h : 2 * n ≤ (2 * k + 1) * 2 ^ drop * d) : significand fraction n d ≤ k * 2 ^ drop := by
  have hD : 0 < d * 2 ^ drop := Nat.mul_pos hd (Nat.two_pow_pos _)
  by_cases hlow : k * 2 ^ drop * d ≤ n
  · have hdrop := log2_of_between hd hk hk' hlow (by linarith)
    rw [significand, hdrop]
    apply Nat.mul_le_mul_right
    by_cases htie : 2 * n = (2 * k + 1) * (d * 2 ^ drop)
    · rw [nearestEven_of_tie hD htie]
      omega
    · have hstrict : 2 * n < (2 * k + 1) * (d * 2 ^ drop) := lt_of_le_of_ne (by linarith) htie
      rw [@nearestEven_eq n (d * 2 ^ drop) k hD (by linarith) (by linarith)]
  · have hmono := @significand_mono fraction n d (k * 2 ^ drop) 1 hd (by decide) (by linarith)
    rwa [significand_grid hk hk'] at hmono

/-- Beyond the middle it is the next one at least. -/
theorem le_significand_of_mid_lt (hd : 0 < d) (hk : 2 ^ fraction ≤ k) (hk' : k + 1 < 2 ^ (fraction + 1))
    (h : (2 * k + 1) * 2 ^ drop * d < 2 * n) : (k + 1) * 2 ^ drop ≤ significand fraction n d := by
  have hD : 0 < d * 2 ^ drop := Nat.mul_pos hd (Nat.two_pow_pos _)
  by_cases hhigh : n < (k + 1) * 2 ^ drop * d
  · have hdrop := log2_of_between hd hk (by omega) (by linarith) hhigh
    rw [significand, hdrop]
    apply Nat.mul_le_mul_right
    rw [@nearestEven_eq n (d * 2 ^ drop) (k + 1) hD (by linarith) (by linarith)]
  · have hmono := @significand_mono fraction ((k + 1) * 2 ^ drop) 1 n d (by decide) hd (by linarith)
    rwa [significand_grid (by omega) hk'] at hmono

end Neighbours

/-- Doubling is exact. -/
theorem significand_two_mul {fraction n d : Nat} (hd : 0 < d) (h : d * 2 ^ fraction ≤ n) :
    significand fraction (2 * n) d = 2 * significand fraction n d := by
  have hbig : 2 ^ fraction ≤ n / d := (Nat.le_div_iff_mul_le hd).mpr (by linarith)
  have hne : n / d ≠ 0 := by
    have hpos := Nat.two_pow_pos fraction
    omega
  have hlow := (Nat.le_log2 hne).mp (Nat.le_refl _)
  have hhigh := (Nat.log2_lt hne).mp (Nat.lt_succ_self _)
  have hfraction : fraction ≤ Nat.log2 (n / d) := (Nat.le_log2 hne).mpr hbig
  have hlog : Nat.log2 (2 * n / d) = Nat.log2 (n / d) + 1 := by
    apply log2_eq_of_between
    · rw [Nat.le_div_iff_mul_le hd, pow_succ]
      have hle := (Nat.le_div_iff_mul_le hd).mp hlow
      linarith
    · rw [Nat.div_lt_iff_lt_mul hd, pow_succ]
      have hlt := (Nat.div_lt_iff_lt_mul hd).mp hhigh
      rw [Nat.succ_eq_add_one] at hlt
      linarith
  have hdrop : Nat.log2 (n / d) + 1 - fraction = Nat.log2 (n / d) - fraction + 1 := by omega
  rw [significand, significand, hlog, hdrop, pow_succ,
    show d * (2 ^ (Nat.log2 (n / d) - fraction) * 2) = 2 * (d * 2 ^ (Nat.log2 (n / d) - fraction)) by ring,
    nearestEven_mul_mul (Nat.mul_pos hd (Nat.two_pow_pos _)) (by decide)]
  ring

end Rounding
