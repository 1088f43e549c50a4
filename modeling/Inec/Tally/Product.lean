import Inec.Tally.KeyPair
import Mathlib.Data.Nat.Size

/-!
# Sums under the Paillier key

The product of ciphertexts decrypts to the sum of their plaintexts, for every key pair of two odd primes of one
length. The running tally of a party is such a product.
-/

namespace Inec.Tally

/-- What an election relies on: the key pair can be made, `encrypt` gives a ciphertext for every number in range, and
the product of ciphertexts decrypts to the sum. -/
structure PaillierCorrect (p q : Nat) : Prop where
  keypair : ∃ key, generatePaillierKeypair p q = .ok key
  modulus : ∀ key, generatePaillierKeypair p q = .ok key → key.publicKey.n = p * q
  encrypts : ∀ key, generatePaillierKeypair p q = .ok key → ∀ plaintext : Int, 0 ≤ plaintext →
    plaintext < key.publicKey.n → ∀ draws : List Nat, (∃ d ∈ draws, Nat.gcd (d + 1) key.publicKey.n = 1) →
      ∃ c, key.publicKey.encrypt plaintext draws = some (.ok c)
  identity : ∀ key, generatePaillierKeypair p q = .ok key → ∀ plaintext draws c,
    key.publicKey.encrypt plaintext draws = some (.ok c) → (key.decrypt c : Int) = plaintext
  product : ∀ key, generatePaillierKeypair p q = .ok key → ∀ (votes : List (Int × List Nat)) (cs : List Nat),
    List.Forall₂ (fun vote c => key.publicKey.encrypt vote.1 vote.2 = some (.ok c)) votes cs →
      (key.decrypt (cs.prod % key.publicKey.nSq) : Int) = (votes.map Prod.fst).sum % key.publicKey.n
  added : ∀ key, generatePaillierKeypair p q = .ok key → ∀ c cs,
    cs.foldl key.publicKey.addEncrypted (c % key.publicKey.nSq) = (c :: cs).prod % key.publicKey.nSq

variable {p q : Nat}

/-- Numbers of one length are less than a factor of two apart. -/
theorem lt_two_mul_of_size_eq (hq : 0 < q) (hsize : p.size = q.size) : p < 2 * q := by
  have hlt : p < 2 ^ q.size := hsize ▸ Nat.lt_size_self p
  have hpos : 0 < q.size := Nat.size_pos.mpr hq
  have hle : 2 ^ (q.size - 1) ≤ q := Nat.lt_size.mp (by omega)
  have hlen : 2 ^ q.size = 2 * 2 ^ (q.size - 1) := by
    rw [← pow_succ', Nat.sub_add_cancel hpos]
  omega

theorem encrypts_one (n : Nat) : Paillier.Encrypts n 1 0 :=
  (Paillier.Encrypts.of_unit (Nat.coprime_one_left n) 0).congr (by rw [pow_zero, one_pow, Nat.mul_one])

/-- The product of ciphertexts is a ciphertext of the sum. -/
theorem encrypts_prod {key : PaillierPublicKey} (hg : key.g = key.n + 1) {votes : List (Int × List Nat)}
    {cs : List Nat} (h : List.Forall₂ (fun vote c => key.encrypt vote.1 vote.2 = some (.ok c)) votes cs) :
    ∃ m : Nat, (m : Int) = (votes.map Prod.fst).sum ∧ Paillier.Encrypts key.n cs.prod m := by
  induction h with
  | nil => exact ⟨0, rfl, encrypts_one key.n⟩
  | @cons vote c votes cs hvote hrest ih =>
      obtain ⟨m, hm, hprod⟩ := ih
      obtain ⟨⟨hpos, -⟩, hc⟩ := PaillierPublicKey.encrypts_of_encrypt hg hvote
      refine ⟨vote.1.toNat + m, ?_, ?_⟩
      · rw [List.map_cons, List.sum_cons, Nat.cast_add, hm, Int.toNat_of_nonneg hpos]
      · rw [List.prod_cons]
        exact hc.mul hprod

theorem foldl_addEncrypted (key : PaillierPublicKey) (c : Nat) (cs : List Nat) :
    cs.foldl key.addEncrypted (c % key.nSq) = (c :: cs).prod % key.nSq := by
  induction cs generalizing c with
  | nil => rw [List.foldl_nil, List.prod_cons, List.prod_nil, Nat.mul_one]
  | cons c' cs ih =>
      have hstep : key.addEncrypted (c % key.nSq) c' = c * c' % key.nSq := Nat.mod_mul_mod c c' key.nSq
      rw [List.foldl_cons, hstep, ih, List.prod_cons, List.prod_cons, List.prod_cons, Nat.mul_assoc]

/-- The keys of two odd primes of one length are correct. -/
theorem paillierCorrect_of_primes (hp : p.Prime) (hq : q.Prime) (hne : p ≠ q) (hp2 : p % 2 = 1) (hq2 : q % 2 = 1)
    (hsize : p.size = q.size) : PaillierCorrect p q := by
  obtain ⟨key, hkey, hn, hsound⟩ := exists_generate hp hq hne hp2 hq2 (lt_two_mul_of_size_eq hq.pos hsize)
    (lt_two_mul_of_size_eq hp.pos hsize.symm)
  have hunique : ∀ other, generatePaillierKeypair p q = .ok other → other = key := by
    intro other hother
    rw [hkey] at hother
    exact (Except.ok.inj hother).symm
  refine ⟨⟨key, hkey⟩, ?_, ?_, ?_, ?_, ?_⟩
  · intro other hother
    rw [hunique other hother, hn]
  · rintro other - plaintext hpos hlt draws ⟨d, hd, hunit⟩
    have hdrawn : (other.publicKey.drawUnit draws).isSome = true := by
      rw [PaillierPublicKey.drawUnit, List.find?_isSome]
      exact ⟨d + 1, List.mem_map_of_mem hd, beq_iff_eq.mpr hunit⟩
    obtain ⟨r, hr⟩ := Option.isSome_iff_exists.mp hdrawn
    rw [PaillierPublicKey.encrypt, if_pos ⟨hpos, hlt⟩, hr]
    exact ⟨_, rfl⟩
  · intro other hother plaintext draws c hc
    rw [hunique other hother] at hc ⊢
    obtain ⟨⟨hpos, hlt⟩, hencrypts⟩ := PaillierPublicKey.encrypts_of_encrypt hsound.generator hc
    rw [hsound.decrypts c _ hencrypts, Nat.mod_eq_of_lt (by omega), Int.toNat_of_nonneg hpos]
  · intro other hother votes cs hvotes
    rw [hunique other hother] at hvotes ⊢
    obtain ⟨m, hm, hprod⟩ := encrypts_prod hsound.generator hvotes
    have hsum : Paillier.Encrypts key.publicKey.n (cs.prod % key.publicKey.nSq) m := hprod.congr (Nat.mod_modEq _ _)
    rw [hsound.decrypts _ m hsum, Int.natCast_mod, hm]
  · intro other _ c cs
    exact foldl_addEncrypted other.publicKey c cs

theorem paillierCorrect_five_seven : PaillierCorrect 5 7 :=
  paillierCorrect_of_primes (by norm_num) (by norm_num) (by decide) (by decide) (by decide) (by decide)

/-- Three votes under the key of 5 and 7. -/
example : (generatePaillierKeypair 5 7).toOption.map (fun key =>
    key.decrypt (([(12, [1]), (9, [4, 2]), (20, [0])].filterMap fun vote =>
      (key.publicKey.encrypt vote.1 vote.2).bind Except.toOption).prod % key.publicKey.nSq)) = some 6 := by
  decide +kernel

end Inec.Tally
