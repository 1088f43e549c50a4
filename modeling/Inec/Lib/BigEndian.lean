import Mathlib.Data.Nat.Digits.Lemmas

/-!
# Numbers as bytes

The bytes of a number, the highest first, without leading zeros.
-/

namespace BigEndian

def bytes (n : Nat) : List Nat := (Nat.digits 256 n).reverse

def value (bytes : List Nat) : Nat := Nat.ofDigits 256 bytes.reverse

theorem value_bytes (n : Nat) : value (bytes n) = n := by
  rw [value, bytes, List.reverse_reverse, Nat.ofDigits_digits]

theorem length_bytes_le_iff {n k : Nat} : (bytes n).length ≤ k ↔ n < 256 ^ k := by
  rw [bytes, List.length_reverse]
  exact Nat.digits_length_le_iff (by decide) n

theorem lt_of_mem_bytes {n b : Nat} (h : b ∈ bytes n) : b < 256 :=
  Nat.digits_lt_base (by decide) (List.mem_reverse.mp h)

end BigEndian
