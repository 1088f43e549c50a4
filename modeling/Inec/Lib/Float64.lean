import Inec.Lib.Rounding

/-!
# Numbers of 64 bits with a floating point

A finite number that is not negative is a count of units of the smallest one, and an operation rounds its exact result
to a significand of 53 bits, ties to even. Results from `2 ^ 1024` on, which are infinite, are not modelled.
-/

namespace Float64

/-- How many of the smallest numbers make one. -/
def one : Nat := 2 ^ 1074

def round (n d : Nat) : Nat := Rounding.significand 52 n d

def ofNat (n : Nat) : Nat := round (n * one) 1

def mul (a b : Nat) : Nat := round (a * b) one

def div (a b : Nat) : Nat := round (a * one) b

/-- To the nearest whole number, halves away from zero. -/
def roundInt (a : Nat) : Nat := (2 * a + one) / (2 * one) * one

theorem one_pos : 0 < one := Nat.two_pow_pos _

theorem ofNat_zero : ofNat 0 = 0 := by decide +kernel

theorem ofNat_mono {m n : Nat} (h : m ≤ n) : ofNat m ≤ ofNat n := by
  apply Rounding.significand_mono (by decide) (by decide)
  rw [Nat.mul_one, Nat.mul_one]
  exact Nat.mul_le_mul_right one h

theorem ofNat_pos {n : Nat} (h : 0 < n) : 0 < ofNat n := by
  have hone : ofNat 1 = one := by decide +kernel
  have hmono := ofNat_mono h
  rw [hone] at hmono
  exact Nat.lt_of_lt_of_le one_pos hmono

theorem ofNat_two_mul (n : Nat) : ofNat (2 * n) = 2 * ofNat n := by
  by_cases hn : n = 0
  · rw [hn, Nat.mul_zero, ofNat_zero]
  · rw [ofNat, ofNat, round, round, Nat.mul_assoc]
    apply Rounding.significand_two_mul (by decide)
    have hle : 1 * 2 ^ 52 ≤ one := by decide +kernel
    exact Nat.le_trans hle (Nat.le_mul_of_pos_left one (Nat.pos_of_ne_zero hn))

theorem mul_mono {a a' b : Nat} (h : a ≤ a') : mul a b ≤ mul a' b := by
  apply Rounding.significand_mono one_pos one_pos
  exact Nat.mul_le_mul_right one (Nat.mul_le_mul_right b h)

theorem div_mono {a a' b : Nat} (hb : 0 < b) (h : a ≤ a') : div a b ≤ div a' b := by
  apply Rounding.significand_mono hb hb
  exact Nat.mul_le_mul_right b (Nat.mul_le_mul_right one h)

/-- A half above a whole number is rounded up. -/
theorem le_roundInt {a k : Nat} (h : (2 * k + 1) * one ≤ 2 * a) : (k + 1) * one ≤ roundInt a := by
  apply Nat.mul_le_mul_right
  rw [Nat.le_div_iff_mul_le (Nat.mul_pos (by decide) one_pos)]
  linarith

theorem roundInt_le {a k : Nat} (h : 2 * a < (2 * k + 1) * one) : roundInt a ≤ k * one := by
  apply Nat.mul_le_mul_right
  apply Nat.le_of_lt_succ
  rw [Nat.div_lt_iff_lt_mul (Nat.mul_pos (by decide) one_pos), Nat.succ_eq_add_one]
  linarith

end Float64
