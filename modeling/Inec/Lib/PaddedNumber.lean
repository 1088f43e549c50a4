import Mathlib.Data.String.Basic
import Inec.Lib.JsonRecord

/-!
# Numbers padded with zeros

The text of a number filled up to a width, `%06d` in Go. It names the number, and texts of one length are
ordered as their numbers are. A number that outgrows the width has a longer text, and the order of texts
no longer follows that of the numbers: `"1000000" < "999999"`.
-/

namespace PaddedNumber

def padded (width n : Nat) : List Char :=
  List.replicate (width - (Nat.toDigits 10 n).length) '0' ++ Nat.toDigits 10 n

variable {width n m : Nat}

theorem padded_ne_nil : padded width n ≠ [] := by
  intro h
  exact Nat.toDigits_ne_nil (List.append_eq_nil_iff.mp h).2

theorem isDigit_of_mem_padded {c : Char} (h : c ∈ padded width n) : c.isDigit = true := by
  rcases List.mem_append.mp h with h | h
  · rw [List.eq_of_mem_replicate h]
    rfl
  · exact Nat.isDigit_of_mem_toDigits (by decide) (by decide) h

theorem ofDigitChars_padded : Nat.ofDigitChars 10 (padded width n) 0 = n := by
  rw [padded, Nat.ofDigitChars_append, Nat.ofDigitChars_replicate_zero, Nat.mul_zero, Nat.ofDigitChars_ten_toDigits]

theorem padded_inj (h : padded width n = padded width m) : n = m := by
  rw [← @ofDigitChars_padded width n, h, ofDigitChars_padded]

/-- The text is read back as the number, as long as that is a 64-bit integer. -/
theorem int64?_padded : JsonText.int64? (padded width n) = if n < 2 ^ 63 then some (n : Int) else none := by
  have hsign : ∀ rest, padded width n ≠ '-' :: rest := by
    intro rest h
    have hdigit := isDigit_of_mem_padded (h ▸ List.mem_cons_self : '-' ∈ padded width n)
    cases hdigit
  have hdigits : JsonText.digits? (padded width n) = some n := by
    have hall : (padded width n).all Char.isDigit = true :=
      List.all_eq_true.mpr fun c hc => isDigit_of_mem_padded hc
    have hne : (padded width n).isEmpty = false := List.isEmpty_eq_false_iff.mpr padded_ne_nil
    simp [JsonText.digits?, hall, hne, ofDigitChars_padded]
  unfold JsonText.int64?
  split
  · rename_i rest heq
    exact absurd heq (hsign rest)
  · rw [hdigits, Option.bind_some]

/-! ### Order -/

theorem length_padded (hwidth : 0 < width) (h : n < 10 ^ width) : (padded width n).length = width := by
  have hle : (Nat.toDigits 10 n).length ≤ width := (Nat.length_toDigits_le_iff (by decide) hwidth).mpr h
  rw [padded, List.length_append, List.length_replicate]
  omega

theorem digit_lt_ten {c : Char} (h : c.isDigit = true) : c.toNat - 48 < 10 := by
  simp only [Char.isDigit, Bool.and_eq_true, decide_eq_true_eq] at h
  have hle : c.toNat ≤ 57 := h.2
  omega

theorem digit_lt_digit {c d : Char} (hc : c.isDigit = true) (h : c < d) : c.toNat - 48 < d.toNat - 48 := by
  simp only [Char.isDigit, Bool.and_eq_true, decide_eq_true_eq] at hc
  have hlow : 48 ≤ c.toNat := hc.1
  have hlt : c.toNat < d.toNat := h
  omega

/-- The value of digits is below the power of their number. -/
theorem ofDigitChars_lt {text : List Char} (h : ∀ c ∈ text, c.isDigit = true) :
    Nat.ofDigitChars 10 text 0 < 10 ^ text.length := by
  induction text with
  | nil => simp
  | cons c rest ih =>
      have hrest := ih fun d hd => h d (List.mem_cons_of_mem _ hd)
      have hdigit := digit_lt_ten (h c List.mem_cons_self)
      rw [Nat.ofDigitChars_cons, Nat.ofDigitChars_eq_ofDigitChars_zero, List.length_cons, Nat.pow_succ]
      have hzero : '0'.toNat = 48 := rfl
      rw [hzero, Nat.mul_zero, Nat.zero_add]
      have hmul : 10 ^ rest.length * (c.toNat - 48) ≤ 10 ^ rest.length * 9 := Nat.mul_le_mul_left _ (by omega)
      omega

/-- Digits of one length are ordered as their values are. -/
theorem ofDigitChars_lt_of_lt {left right : List Char} (hlength : left.length = right.length)
    (hleft : ∀ c ∈ left, c.isDigit = true) (hright : ∀ c ∈ right, c.isDigit = true) (h : left < right) :
    Nat.ofDigitChars 10 left 0 < Nat.ofDigitChars 10 right 0 := by
  induction left generalizing right with
  | nil =>
      cases right with
      | nil => exact absurd h (lt_irrefl _)
      | cons d right => cases hlength
  | cons c left ih =>
      cases right with
      | nil => cases hlength
      | cons d right =>
          have hlen : left.length = right.length := Nat.succ.inj hlength
          have hzero : '0'.toNat = 48 := rfl
          rw [Nat.ofDigitChars_cons, Nat.ofDigitChars_cons, Nat.ofDigitChars_eq_ofDigitChars_zero,
            @Nat.ofDigitChars_eq_ofDigitChars_zero right, hzero, hlen]
          simp only [Nat.mul_zero, Nat.zero_add]
          rcases List.cons_lt_cons_iff.mp h with hlt | ⟨rfl, hlt⟩
          · -- the first digit decides, whatever follows it
            have hdigit := digit_lt_digit (hleft c List.mem_cons_self) hlt
            have hrest := ofDigitChars_lt fun x hx => hleft x (List.mem_cons_of_mem c hx)
            rw [hlen] at hrest
            have hmul : 10 ^ right.length * (c.toNat - 48 + 1) ≤ 10 ^ right.length * (d.toNat - 48) :=
              Nat.mul_le_mul_left _ hdigit
            rw [Nat.mul_add, Nat.mul_one] at hmul
            omega
          · have hrest := ih hlen (fun x hx => hleft x (List.mem_cons_of_mem c hx))
              (fun x hx => hright x (List.mem_cons_of_mem c hx)) hlt
            omega

/-- Numbers that fit the width are ordered as their texts are. -/
theorem padded_le_of_le (hwidth : 0 < width) (hm : m < 10 ^ width) (h : n ≤ m) :
    padded width n ≤ padded width m := by
  rw [← not_lt]
  intro hlt
  have hn : n < 10 ^ width := lt_of_le_of_lt h hm
  have hvalues := ofDigitChars_lt_of_lt ((length_padded hwidth hm).trans (length_padded hwidth hn).symm)
    (fun c hc => isDigit_of_mem_padded hc) (fun c hc => isDigit_of_mem_padded hc) hlt
  rw [ofDigitChars_padded, ofDigitChars_padded] at hvalues
  omega

/-- What stands before two texts does not change their order. -/
theorem append_le_append {left right : List Char} (front : List Char) (h : left ≤ right) :
    front ++ left ≤ front ++ right := by
  induction front with
  | nil => exact h
  | cons c front ih =>
      rw [← not_lt] at ih ⊢
      intro hlt
      rcases List.cons_lt_cons_iff.mp hlt with hless | ⟨-, hrest⟩
      · exact lt_irrefl c hless
      · exact ih hrest

end PaddedNumber
