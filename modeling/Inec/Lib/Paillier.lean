import Mathlib.FieldTheory.Finite.Basic
import Mathlib.Data.Nat.Totient
import Mathlib.Tactic.Ring

/-!
# The cryptosystem of Paillier

With a product `n` of two primes and the generator `n + 1`, a ciphertext of `m` is `(n + 1) ^ m * r ^ n` modulo
`n * n` for some unit `r`. Ciphertexts under one `n` multiply where their plaintexts add. An exponent that takes
every unit to one removes the `r`, and what is left is linear in the plaintext.
-/

namespace Paillier

/-- `c` is a ciphertext of `m` under `n`. -/
def Encrypts (n c m : Nat) : Prop := ∃ r, r.Coprime n ∧ c ≡ (n + 1) ^ m * r ^ n [MOD n * n]

/-- The exponent takes the `n`-th power of every unit to one. -/
def Annihilates (n lam : Nat) : Prop := ∀ r : Nat, r.Coprime n → r ^ (n * lam) ≡ 1 [MOD n * n]

variable {n c c' m m' lam mu : Nat}

/-! ### Ciphertexts -/

theorem Encrypts.of_unit {r : Nat} (h : r.Coprime n) (m : Nat) : Encrypts n ((n + 1) ^ m * r ^ n) m :=
  ⟨r, h, Nat.ModEq.refl _⟩

theorem Encrypts.congr (h : Encrypts n c m) (hc : c' ≡ c [MOD n * n]) : Encrypts n c' m := by
  obtain ⟨r, hr, hmod⟩ := h
  exact ⟨r, hr, hc.trans hmod⟩

/-- The product of two ciphertexts is one of the sum. -/
theorem Encrypts.mul (h : Encrypts n c m) (h' : Encrypts n c' m') : Encrypts n (c * c') (m + m') := by
  obtain ⟨r, hr, hmod⟩ := h
  obtain ⟨r', hr', hmod'⟩ := h'
  refine ⟨r * r', hr.mul_left hr', ?_⟩
  have hprod := hmod.mul hmod'
  have heq : (n + 1) ^ m * r ^ n * ((n + 1) ^ m' * r' ^ n) = (n + 1) ^ (m + m') * (r * r') ^ n := by ring
  rwa [heq] at hprod

/-! ### Decryption -/

theorem succ_pow_modEq (n k : Nat) : (n + 1) ^ k ≡ k * n + 1 [MOD n * n] := by
  induction k with
  | zero => rw [pow_zero, Nat.zero_mul, Nat.zero_add]
  | succ k ih =>
      have hstep : (k * n + 1) * (n + 1) = (k + 1) * n + 1 + k * (n * n) := by ring
      calc (n + 1) ^ (k + 1) = (n + 1) ^ k * (n + 1) := pow_succ _ _
        _ ≡ (k * n + 1) * (n + 1) [MOD n * n] := ih.mul_right _
        _ = (k + 1) * n + 1 + k * (n * n) := hstep
        _ ≡ (k + 1) * n + 1 [MOD n * n] := Nat.add_mul_modulus_modEq_iff.mpr (Nat.ModEq.refl _)

theorem Encrypts.pow_modEq (h : Encrypts n c m) (hlam : Annihilates n lam) :
    c ^ lam ≡ m * lam * n + 1 [MOD n * n] := by
  obtain ⟨r, hr, hmod⟩ := h
  have hpow : ((n + 1) ^ m * r ^ n) ^ lam = (n + 1) ^ (m * lam) * r ^ (n * lam) := by
    rw [mul_pow, ← pow_mul, ← pow_mul]
  calc c ^ lam ≡ ((n + 1) ^ m * r ^ n) ^ lam [MOD n * n] := hmod.pow lam
    _ = (n + 1) ^ (m * lam) * r ^ (n * lam) := hpow
    _ ≡ (m * lam * n + 1) * 1 [MOD n * n] := (succ_pow_modEq n (m * lam)).mul (hlam r hr)
    _ = m * lam * n + 1 := Nat.mul_one _

/-- The logarithm of the power: what the code calls `L`. -/
theorem Encrypts.log_eq (h : Encrypts n c m) (hlam : Annihilates n lam) (hn : 1 < n) :
    (c ^ lam % (n * n) - 1) / n = m * lam % n := by
  have hdvd : m * lam * n + 1 = m * lam % n * n + 1 + m * lam / n * (n * n) := by
    have hdiv := Nat.mod_add_div (m * lam) n
    calc m * lam * n + 1 = (m * lam % n + n * (m * lam / n)) * n + 1 := by rw [hdiv]
      _ = m * lam % n * n + 1 + m * lam / n * (n * n) := by ring
  have hsmall : m * lam % n * n + 1 < n * n := by
    have hlt : m * lam % n < n := Nat.mod_lt _ (by omega)
    have hmul : (m * lam % n + 1) * n ≤ n * n := Nat.mul_le_mul_right n hlt
    have hexpand : (m * lam % n + 1) * n = m * lam % n * n + n := by ring
    omega
  have hmod : c ^ lam % (n * n) = m * lam % n * n + 1 := by
    rw [h.pow_modEq hlam, hdvd, Nat.add_mul_mod_self_right, Nat.mod_eq_of_lt hsmall]
  rw [hmod, Nat.add_sub_cancel, Nat.mul_div_cancel _ (by omega)]

theorem encrypts_generator (n : Nat) : Encrypts n (n + 1) 1 :=
  (Encrypts.of_unit (Nat.coprime_one_left n) 1).congr (by rw [pow_one, one_pow, Nat.mul_one])

/-- The inverse of the logarithm of the generator takes the logarithm of a ciphertext back to its plaintext. -/
theorem Encrypts.decrypt_eq (h : Encrypts n c m) (hlam : Annihilates n lam) (hn : 1 < n)
    (hmu : ((n + 1) ^ lam % (n * n) - 1) / n * mu ≡ 1 [MOD n]) :
    (c ^ lam % (n * n) - 1) / n * mu % n = m % n := by
  rw [(encrypts_generator n).log_eq hlam hn, Nat.one_mul] at hmu
  rw [h.log_eq hlam hn]
  have hlog : m * lam % n * mu ≡ m * (lam % n * mu) [MOD n] := by
    calc m * lam % n * mu ≡ m * lam * mu [MOD n] := (Nat.mod_modEq _ _).mul_right mu
      _ = m * (lam * mu) := Nat.mul_assoc _ _ _
      _ ≡ m * (lam % n * mu) [MOD n] := ((Nat.mod_modEq lam n).symm.mul_right mu).mul_left m
  have hone : m * (lam % n * mu) ≡ m * 1 [MOD n] := hmu.mul_left m
  rw [Nat.mul_one] at hone
  exact hlog.trans hone

/-! ### Keys of two primes -/

section Primes

variable {p q : Nat} (hp : p.Prime) (hq : q.Prime) (hne : p ≠ q)

theorem pow_modEq_one_of_dvd {r k : Nat} (hp : p.Prime) (hr : r.Coprime p) (hdvd : p * (p - 1) ∣ k) :
    r ^ k ≡ 1 [MOD p * p] := by
  obtain ⟨j, rfl⟩ := hdvd
  have htotient : Nat.totient (p * p) = p * (p - 1) := by
    rw [← pow_two, Nat.totient_prime_pow_succ hp, pow_one]
  have hone : r ^ (p * (p - 1)) ≡ 1 [MOD p * p] := by
    rw [← htotient]
    exact Nat.ModEq.pow_totient (hr.mul_right hr)
  rw [pow_mul]
  simpa using hone.pow j

include hp hq hne in
theorem annihilates_lcm : Annihilates (p * q) ((p - 1).lcm (q - 1)) := by
  intro r hr
  have hcoprime : (p * p).Coprime (q * q) := by
    have h := (Nat.coprime_primes hp hq).mpr hne
    exact (h.mul_left h).mul_right (h.mul_left h)
  have hsquares : p * q * (p * q) = p * p * (q * q) := by ring
  rw [hsquares, ← Nat.modEq_and_modEq_iff_modEq_mul hcoprime]
  constructor
  · apply pow_modEq_one_of_dvd hp (hr.coprime_dvd_right (Nat.dvd_mul_right p q))
    exact Nat.mul_dvd_mul (Nat.dvd_mul_right p q) (Nat.dvd_lcm_left _ _)
  · apply pow_modEq_one_of_dvd hq (hr.coprime_dvd_right (Nat.dvd_mul_left q p))
    exact Nat.mul_dvd_mul (Nat.dvd_mul_left q p) (Nat.dvd_lcm_right _ _)

/-- A prime does not divide the predecessor of a prime of its length. -/
theorem not_dvd_pred {a b : Nat} (ha : a % 2 = 1) (hb : b % 2 = 1) (hlong : b < 2 * a) (hb1 : 1 < b) :
    ¬a ∣ b - 1 := by
  rintro ⟨k, hk⟩
  match k with
  | 0 => omega
  | 1 => omega
  | k + 2 =>
      have hmul : a * (k + 2) = a * k + 2 * a := by ring
      omega

include hp hq in
/-- Between two odd primes of one length the logarithm of the generator has an inverse. -/
theorem coprime_lcm (hp2 : p % 2 = 1) (hq2 : q % 2 = 1) (hpq : p < 2 * q) (hqp : q < 2 * p) :
    ((p - 1).lcm (q - 1)).Coprime (p * q) := by
  have hprime {a : Nat} (ha : a.Prime) (hodd : a % 2 = 1) (hlp : p < 2 * a) (hlq : q < 2 * a) :
      a.Coprime ((p - 1).lcm (q - 1)) := by
    rw [Nat.Prime.coprime_iff_not_dvd ha]
    intro hdvd
    rcases ha.dvd_mul.mp (hdvd.trans (Nat.lcm_dvd_mul _ _)) with h | h
    · exact not_dvd_pred hodd hp2 hlp hp.one_lt h
    · exact not_dvd_pred hodd hq2 hlq hq.one_lt h
  have hpos := hp.pos
  have hpos' := hq.pos
  exact (Nat.Coprime.mul_left (hprime hp hp2 (by omega) hqp) (hprime hq hq2 hpq (by omega))).symm

end Primes

end Paillier
