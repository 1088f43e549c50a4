import Mathlib.Data.Nat.Bits
import Mathlib.NumberTheory.LucasPrimality
import Mathlib.Tactic.Ring

/-!
# Powers modulo a number

Square and multiply over the bits of the exponent, so that a power of a number of some thousand bits can be
evaluated.
-/

namespace ModularPower

/-- The power for the bits of an exponent, the lowest first. -/
def powBits (base modulus : Nat) : List Bool → Nat
  | [] => 1 % modulus
  | bit :: rest =>
      let half := powBits base modulus rest
      if bit then half * half % modulus * base % modulus else half * half % modulus

def pow (base exponent modulus : Nat) : Nat := powBits base modulus exponent.bits

theorem pow_eq (base exponent modulus : Nat) : pow base exponent modulus = base ^ exponent % modulus := by
  rw [pow]
  induction exponent using Nat.binaryRec' with
  | zero => rfl
  | bit bit n hbit ih =>
      rw [Nat.bits_append_bit n bit hbit]
      show (if bit then _ else _) = _
      rw [ih]
      have hsquare : base ^ n % modulus * (base ^ n % modulus) % modulus = base ^ (2 * n) % modulus := by
        rw [← Nat.mul_mod, ← pow_add, two_mul]
      cases bit with
      | false =>
          show base ^ n % modulus * (base ^ n % modulus) % modulus = _
          rw [hsquare, Nat.bit_false]
      | true =>
          show base ^ n % modulus * (base ^ n % modulus) % modulus * base % modulus = _
          rw [hsquare, Nat.bit_true, pow_succ, Nat.mod_mul_mod]

/-! ### Primes -/

theorem cast_pow_eq_one_iff {base exponent modulus : Nat} :
    (base : ZMod modulus) ^ exponent = 1 ↔ pow base exponent modulus = 1 % modulus := by
  rw [pow_eq, ← Nat.cast_pow, ← Nat.cast_one, ZMod.natCast_eq_natCast_iff']

/-- The certificate of Lucas for a number whose predecessor has two prime factors, one of them two. -/
theorem prime_of_pow (base : Nat) {k m : Nat} (hk : k.Prime)
    (hone : pow base (k * 2 ^ m) (k * 2 ^ m + 1) = 1 % (k * 2 ^ m + 1))
    (htwo : pow base (k * 2 ^ m / 2) (k * 2 ^ m + 1) ≠ 1 % (k * 2 ^ m + 1))
    (hfactor : pow base (k * 2 ^ m / k) (k * 2 ^ m + 1) ≠ 1 % (k * 2 ^ m + 1)) : (k * 2 ^ m + 1).Prime := by
  apply lucas_primality (k * 2 ^ m + 1) (base : ZMod (k * 2 ^ m + 1))
  · rw [Nat.add_sub_cancel]
    exact cast_pow_eq_one_iff.mpr hone
  · intro q hq hdvd
    rw [Nat.add_sub_cancel] at hdvd ⊢
    rw [Ne, cast_pow_eq_one_iff]
    rcases hq.dvd_mul.mp hdvd with hqk | hq2
    · rwa [(Nat.prime_dvd_prime_iff_eq hq hk).mp hqk]
    · rwa [(Nat.prime_dvd_prime_iff_eq hq Nat.prime_two).mp (hq.dvd_of_dvd_pow hq2)]

end ModularPower
