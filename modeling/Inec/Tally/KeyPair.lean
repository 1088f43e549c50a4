import Inec.Lib.Checks
import Inec.Lib.ModularPower
import Inec.Lib.Paillier
import Mathlib.Tactic.NormNum.Prime

/-!
# The key pair of the tally service

`PaillierPublicKey`, `PaillierPrivateKey` and `generate_paillier_keypair` of services/homomorphic-tally/main.py.
What the code draws at random is an argument. A `PrimeDraw` is what `_generate_prime` can return: an odd number
of the length asked for, which has passed forty rounds of Miller-Rabin and so is prime but for a chance of those
rounds.
-/

namespace Inec.Tally

open Checks

/-! ### Arithmetic -/

/-- `_lcm`. -/
def lcm (a b : Nat) : Nat := a * b / Nat.gcd a b

/-- `_extended_gcd`. -/
def extendedGcd (a b : Nat) : Nat × Int × Int :=
  if h : a = 0 then (b, 0, 1)
  else
    have : b % a < a := Nat.mod_lt _ (Nat.pos_of_ne_zero h)
    let (g, x, y) := extendedGcd (b % a) a
    (g, y - (b / a : Nat) * x, x)
termination_by a

/-- `_mod_inverse`. -/
def modInverse (a m : Nat) : Except String Nat :=
  let (g, x, _) := extendedGcd a m
  if g = 1 then .ok (x % m).toNat
  else .error ("No modular inverse for " ++ toString a ++ " mod " ++ toString m)

/-- `_L`. -/
def L (x n : Nat) : Nat := (x - 1) / n

theorem extendedGcd_spec (a b : Nat) :
    (extendedGcd a b).1 = a.gcd b ∧ (a * (extendedGcd a b).2.1 + b * (extendedGcd a b).2.2 : Int) = a.gcd b := by
  induction a, b using extendedGcd.induct with
  | case1 b =>
      rw [extendedGcd]
      simp
  | case2 a b h hlt g x y heq ih =>
      rw [extendedGcd, dif_neg h]
      obtain ⟨hg, hbezout⟩ := ih
      rw [← Nat.gcd_rec] at hg hbezout
      refine ⟨hg, ?_⟩
      rw [← hbezout]
      have hdiv : (b : Int) = (b % a : Nat) + a * (b / a : Nat) := by
        have h := Nat.mod_add_div b a
        omega
      show (a : Int) * ((extendedGcd (b % a) a).2.2 - (b / a : Nat) * (extendedGcd (b % a) a).2.1)
        + b * (extendedGcd (b % a) a).2.1 = _
      rw [mul_sub, ← mul_assoc]
      generalize hk : (b / a : Nat) = k at *
      rw [hdiv]
      ring

theorem modInverse_modEq {a m x : Nat} (hm : 0 < m) (h : modInverse a m = .ok x) : a * x ≡ 1 [MOD m] := by
  obtain ⟨hg, hbezout⟩ := extendedGcd_spec a m
  rw [modInverse] at h
  dsimp only at h
  split at h
  · rename_i hone
    cases h
    rw [← hg, hone] at hbezout
    apply (Int.natCast_modEq_iff).mp
    have hpos : 0 ≤ (extendedGcd a m).2.1 % (m : Int) := Int.emod_nonneg _ (by omega)
    rw [Nat.cast_mul, Int.toNat_of_nonneg hpos]
    calc (a * ((extendedGcd a m).2.1 % m) : Int) ≡ a * (extendedGcd a m).2.1 [ZMOD m] :=
          (Int.mod_modEq _ _).mul_left a
      _ ≡ a * (extendedGcd a m).2.1 + m * (extendedGcd a m).2.2 [ZMOD m] :=
          (Int.modEq_add_fac_self).symm
      _ = (1 : Nat) := hbezout
  · cases h

theorem exists_modInverse {a m : Nat} (h : a.Coprime m) : ∃ x, modInverse a m = .ok x := by
  refine ⟨((extendedGcd a m).2.1 % m).toNat, ?_⟩
  have hone : (extendedGcd a m).1 = 1 := (extendedGcd_spec a m).1.trans h
  rw [modInverse]
  exact if_pos hone

/-! ### Keys -/

@[ext] structure PaillierPublicKey where
  n : Nat
  g : Nat
  deriving DecidableEq, Repr

namespace PaillierPublicKey

variable (key : PaillierPublicKey)

def nSq : Nat := key.n * key.n

/-- The loop of `encrypt`: the first number drawn that has no factor in common with `n`, if the draws reach one. -/
def drawUnit (draws : List Nat) : Option Nat := (draws.map (· + 1)).find? fun r => Nat.gcd r key.n == 1

/-- Nothing where the loop is still drawing. -/
def encrypt (plaintext : Int) (draws : List Nat) : Option (Except String Nat) :=
  if 0 ≤ plaintext ∧ plaintext < key.n then
    (key.drawUnit draws).map fun r =>
      .ok (ModularPower.pow key.g plaintext.toNat key.nSq * ModularPower.pow r key.n key.nSq % key.nSq)
  else some (.error "Plaintext out of range")

def addEncrypted (c1 c2 : Nat) : Nat := c1 * c2 % key.nSq

end PaillierPublicKey

structure PaillierPrivateKey where
  publicKey : PaillierPublicKey
  lam : Nat
  mu : Nat
  deriving DecidableEq, Repr

def PaillierPrivateKey.decrypt (key : PaillierPrivateKey) (ciphertext : Nat) : Nat :=
  L (ModularPower.pow ciphertext key.lam key.publicKey.nSq) key.publicKey.n * key.mu % key.publicKey.n

/-- `generate_paillier_keypair`, once its two primes are drawn. -/
def generatePaillierKeypair (p q : Nat) : Except String PaillierPrivateKey := do
  let n := p * q
  let lam := lcm (p - 1) (q - 1)
  let g := n + 1
  let mu ← modInverse (L (ModularPower.pow g lam (n * n)) n) n
  return ⟨⟨n, g⟩, lam, mu⟩

/-- What `_generate_prime` returns for a length in bits. -/
structure PrimeDraw (bits : Nat) where
  value : Nat
  odd : value % 2 = 1
  top : 2 ^ (bits - 1) ≤ value
  length : value < 2 ^ bits

/-- The draws of one start, for the `PAILLIER_KEY_BITS` that it asserts. -/
structure KeyDraw where
  bits : Nat
  minimum : 2048 ≤ bits
  p : PrimeDraw (bits / 2)
  q : PrimeDraw (bits / 2)
  ne : p.value ≠ q.value

namespace KeyDraw

variable (draw : KeyDraw)

def n : Nat := draw.p.value * draw.q.value

def generate : Except String PaillierPrivateKey := generatePaillierKeypair draw.p.value draw.q.value

/-- Both draws are what they are taken for. -/
def Prime : Prop := draw.p.value.Prime ∧ draw.q.value.Prime

end KeyDraw

/-! ### What a key does -/

/-- The key takes a ciphertext to its plaintext. -/
structure PaillierPrivateKey.Sound (key : PaillierPrivateKey) : Prop where
  modulus : 1 < key.publicKey.n
  generator : key.publicKey.g = key.publicKey.n + 1
  decrypts : ∀ c m, Paillier.Encrypts key.publicKey.n c m → key.decrypt c = m % key.publicKey.n

theorem PaillierPublicKey.drawUnit_coprime {key : PaillierPublicKey} {draws : List Nat} {r : Nat}
    (h : key.drawUnit draws = some r) : r.Coprime key.n := by
  rw [drawUnit] at h
  have hgcd := List.find?_some h
  exact beq_iff_eq.mp hgcd

/-- What `encrypt` returns is a ciphertext of its argument, which was in range. -/
theorem PaillierPublicKey.encrypts_of_encrypt {key : PaillierPublicKey} {plaintext : Int}
    {draws : List Nat} {c : Nat} (hg : key.g = key.n + 1) (h : key.encrypt plaintext draws = some (.ok c)) :
    (0 ≤ plaintext ∧ plaintext < key.n) ∧ Paillier.Encrypts key.n c plaintext.toNat := by
  rw [encrypt] at h
  split at h
  · rename_i hrange
    obtain ⟨r, hr, hc⟩ := Option.map_eq_some_iff.mp h
    cases hc
    refine ⟨hrange, (Paillier.Encrypts.of_unit (drawUnit_coprime hr) plaintext.toNat).congr ?_⟩
    rw [ModularPower.pow_eq, ModularPower.pow_eq, hg, nSq, ← Nat.mul_mod]
    exact Nat.mod_modEq _ _
  · cases h

theorem PaillierPublicKey.encrypts_addEncrypted {key : PaillierPublicKey} {c1 c2 m1 m2 : Nat}
    (h1 : Paillier.Encrypts key.n c1 m1) (h2 : Paillier.Encrypts key.n c2 m2) :
    Paillier.Encrypts key.n (key.addEncrypted c1 c2) (m1 + m2) :=
  (h1.mul h2).congr (Nat.mod_modEq _ _)

/-- Two draws of one length are less than a factor of two apart. -/
theorem PrimeDraw.lt_two_mul {bits : Nat} (hbits : 0 < bits) (p q : PrimeDraw bits) : p.value < 2 * q.value := by
  have hlen : 2 ^ bits = 2 * 2 ^ (bits - 1) := by
    rw [← pow_succ', Nat.sub_add_cancel hbits]
  have hp := p.length
  have hq := q.top
  omega

theorem generatePaillierKeypair_eq_ok {p q mu : Nat}
    (h : modInverse (L (ModularPower.pow (p * q + 1) (lcm (p - 1) (q - 1)) (p * q * (p * q))) (p * q))
    (p * q) = .ok mu) :
    generatePaillierKeypair p q = .ok ⟨⟨p * q, p * q + 1⟩, lcm (p - 1) (q - 1), mu⟩ := by
  rw [generatePaillierKeypair, h]
  rfl

/-- Two odd primes, neither twice the other, make a key that decrypts. -/
theorem exists_generate {p q : Nat} (hp : p.Prime) (hq : q.Prime) (hne : p ≠ q) (hp2 : p % 2 = 1) (hq2 : q % 2 = 1)
    (hpq : p < 2 * q) (hqp : q < 2 * p) :
    ∃ key, generatePaillierKeypair p q = .ok key ∧ key.publicKey.n = p * q ∧ key.Sound := by
  have hn : 1 < p * q := by
    have h := Nat.mul_le_mul hp.two_le hq.two_le
    omega
  have hlam : Paillier.Annihilates (p * q) (lcm (p - 1) (q - 1)) := Paillier.annihilates_lcm hp hq hne
  have hlog : L (ModularPower.pow (p * q + 1) (lcm (p - 1) (q - 1)) (p * q * (p * q))) (p * q)
      = lcm (p - 1) (q - 1) % (p * q) := by
    rw [ModularPower.pow_eq, L, (Paillier.encrypts_generator (p * q)).log_eq hlam hn, Nat.one_mul]
  have hcoprime : (lcm (p - 1) (q - 1) % (p * q)).Coprime (p * q) := by
    have h : (lcm (p - 1) (q - 1)).Coprime (p * q) := Paillier.coprime_lcm hp hq hp2 hq2 hpq hqp
    rw [Nat.Coprime, ← Nat.gcd_rec, Nat.gcd_comm]
    exact h
  obtain ⟨mu, hmu⟩ := exists_modInverse hcoprime
  rw [← hlog] at hmu
  refine ⟨_, generatePaillierKeypair_eq_ok hmu, rfl, hn, rfl, ?_⟩
  intro c m hc
  have hone := modInverse_modEq (by omega) hmu
  rw [ModularPower.pow_eq] at hone
  show L (ModularPower.pow c _ (p * q * (p * q))) (p * q) * mu % (p * q) = _
  rw [ModularPower.pow_eq, L]
  exact hc.decrypt_eq hlam hn hone

/-- A start that has drawn primes comes by a key that decrypts. -/
theorem KeyDraw.exists_generate {draw : KeyDraw} (h : draw.Prime) :
    ∃ key, draw.generate = .ok key ∧ key.publicKey.n = draw.n ∧ key.Sound := by
  have hbits : 0 < draw.bits / 2 := by
    have h := draw.minimum
    omega
  exact Tally.exists_generate h.1 h.2 draw.ne draw.p.odd draw.q.odd (draw.p.lt_two_mul hbits draw.q)
    (draw.q.lt_two_mul hbits draw.p)

/-! ### Two draws for the shortest key -/

/-- What a prime of 1024 bits with these factors before it is drawn as. -/
def PrimeDraw.ofFactor (k : Nat) (odd : (k * 2 ^ 1000 + 1) % 2 = 1) (top : 2 ^ (2048 / 2 - 1) ≤ k * 2 ^ 1000 + 1)
    (length : k * 2 ^ 1000 + 1 < 2 ^ (2048 / 2)) : PrimeDraw (2048 / 2) :=
  ⟨k * 2 ^ 1000 + 1, odd, top, length⟩

def KeyDraw.first : KeyDraw where
  bits := 2048
  minimum := Nat.le_refl 2048
  p := .ofFactor 8405431 (by decide +kernel) (by decide +kernel) (by decide +kernel)
  q := .ofFactor 8410543 (by decide +kernel) (by decide +kernel) (by decide +kernel)
  ne := by decide +kernel

def KeyDraw.second : KeyDraw where
  bits := 2048
  minimum := Nat.le_refl 2048
  p := .ofFactor 8410921 (by decide +kernel) (by decide +kernel) (by decide +kernel)
  q := .ofFactor 8411071 (by decide +kernel) (by decide +kernel) (by decide +kernel)
  ne := by decide +kernel

theorem KeyDraw.prime_first : KeyDraw.first.Prime :=
  ⟨ModularPower.prime_of_pow 3 (by norm_num) (by decide +kernel) (by decide +kernel) (by decide +kernel),
    ModularPower.prime_of_pow 3 (by norm_num) (by decide +kernel) (by decide +kernel) (by decide +kernel)⟩

theorem KeyDraw.prime_second : KeyDraw.second.Prime :=
  ⟨ModularPower.prime_of_pow 3 (by norm_num) (by decide +kernel) (by decide +kernel) (by decide +kernel),
    ModularPower.prime_of_pow 3 (by norm_num) (by decide +kernel) (by decide +kernel) (by decide +kernel)⟩

end Inec.Tally
