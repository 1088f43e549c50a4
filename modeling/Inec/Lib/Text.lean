import Mathlib.Data.List.DropRight

/-!
# Text

Operations of Go's `strings` on the characters of a text, with the classes of characters as parameters.
-/

namespace Text

/-- Without the characters of a class at either end. -/
def trim (p : Char → Bool) (s : String) : String :=
  String.ofList ((s.toList.dropWhile p).reverse.dropWhile p).reverse

/-- A trimmed text stays as it is. -/
theorem trim_trim (p : Char → Bool) (s : String) : trim p (trim p s) = trim p s := by
  have htrim : ∀ s, trim p s = String.ofList (List.rdropWhile p (s.toList.dropWhile p)) := fun _ => rfl
  have hself : (List.rdropWhile p (s.toList.dropWhile p)).dropWhile p =
      List.rdropWhile p (s.toList.dropWhile p) := by
    rw [List.dropWhile_eq_self_iff]
    intro hlen
    -- what is left begins as before the characters at the end were taken off
    have hhead := (List.rdropWhile_prefix p (s.toList.dropWhile p)).getElem hlen
    rw [hhead]
    exact List.dropWhile_get_zero_not p s.toList _
  rw [htrim (trim p s), htrim s, String.toList_ofList, hself, List.rdropWhile_idempotent]

/-- Nothing is left of a text only if it has no other characters. -/
theorem trim_eq_empty {p : Char → Bool} {s : String} (h : trim p s = "") : ∀ c ∈ s.toList, p c = true := by
  have hnil : List.rdropWhile p (s.toList.dropWhile p) = [] := by
    have hlist := congrArg String.toList h
    rw [trim, String.toList_ofList] at hlist
    exact hlist
  rw [List.rdropWhile_eq_nil_iff] at hnil
  rw [← List.dropWhile_eq_nil_iff]
  by_contra hne
  -- what dropping leaves begins with a character that is not of the class
  have hhead := List.head_dropWhile_not p hne
  rw [hnil _ (List.head_mem hne)] at hhead
  exact Bool.noConfusion hhead

/-- Simple case folding towards the ASCII letters: besides the capitals, the long s and the Kelvin sign
fold to one. -/
def foldChar (c : Char) : Char :=
  if c.toNat = 0x17F then 's' else if c.toNat = 0x212A then 'k' else c.toLower

/-- `strings.EqualFold` where one side is ASCII. -/
def equalFold (s t : String) : Bool := s.toList.map foldChar == t.toList.map foldChar

/-- `strings.ToLower` on ASCII letters. -/
def lower (s : String) : String := String.ofList (s.toList.map Char.toLower)

/-- `strings.ToUpper` on ASCII letters, and on the two others that it takes to one. -/
def upper (s : String) : String :=
  String.ofList (s.toList.map fun c => if c.toNat = 0x131 then 'I' else if c.toNat = 0x17F then 'S' else c.toUpper)

def isHexDigit (c : Char) : Bool := ('0' ≤ c && c ≤ '9') || ('a' ≤ c && c ≤ 'f')

def isCapital (c : Char) : Bool := 'A' ≤ c && c ≤ 'Z'

/-! ### Numbers -/

theorem toList_toString_nat (n : Nat) : (toString n).toList = Nat.toDigits 10 n := Nat.toList_repr

theorem toList_toString_negSucc (n : Nat) : (toString (Int.negSucc n)).toList = '-' :: Nat.toDigits 10 (n + 1) := by
  change ("-" ++ toString (n + 1)).toList = _
  rw [String.toList_append, toList_toString_nat]
  rfl

/-- The text of a number is digits, with a sign in front of a negative one. -/
theorem mem_toString_int {n : Int} {c : Char} (h : c ∈ (toString n).toList) : c.isDigit = true ∨ c = '-' := by
  have hdigits : ∀ m : Nat, c ∈ Nat.toDigits 10 m → c.isDigit = true :=
    fun m hmem => Nat.isDigit_of_mem_toDigits (by decide) (by decide) hmem
  cases n with
  | ofNat m => exact Or.inl (hdigits m (toList_toString_nat m ▸ h))
  | negSucc m =>
      rw [toList_toString_negSucc, List.mem_cons] at h
      rcases h with h | h
      · exact Or.inr h
      · exact Or.inl (hdigits (m + 1) h)

/-- And there is at least one character. -/
theorem exists_toString_int_cons (n : Int) :
    ∃ c rest, (toString n).toList = c :: rest ∧ (c.isDigit = true ∨ c = '-') := by
  cases hchars : (toString n).toList with
  | nil =>
      cases n with
      | ofNat m => exact absurd ((toList_toString_nat m).symm.trans hchars) Nat.toDigits_ne_nil
      | negSucc m =>
          rw [toList_toString_negSucc] at hchars
          cases hchars
  | cons c rest => exact ⟨c, rest, rfl, mem_toString_int (hchars ▸ List.mem_cons_self : c ∈ (toString n).toList)⟩

theorem notMem_toString_int {sep : Char} (hdigit : sep.isDigit = false) (hsign : sep ≠ '-') (n : Int) :
    sep ∉ (toString n).toList := by
  intro h
  rcases mem_toString_int h with h | h
  · rw [hdigit] at h
    cases h
  · exact hsign h

theorem toDigits_inj {m n : Nat} (h : Nat.toDigits 10 m = Nat.toDigits 10 n) : m = n := by
  rw [← @Nat.ofDigitChars_ten_toDigits m, h, Nat.ofDigitChars_ten_toDigits]

theorem toString_int_inj {m n : Int} (h : (toString m).toList = (toString n).toList) : m = n := by
  have hsign : ∀ k l : Nat, Nat.toDigits 10 k ≠ '-' :: Nat.toDigits 10 l := by
    intro k l heq
    have hmem : '-' ∈ Nat.toDigits 10 k := heq ▸ List.mem_cons_self
    exact absurd (Nat.isDigit_of_mem_toDigits (by decide) (by decide) hmem) (by decide)
  cases m with
  | ofNat k =>
      cases n with
      | ofNat l =>
          have hdigits : Nat.toDigits 10 k = Nat.toDigits 10 l := toList_toString_nat k ▸ toList_toString_nat l ▸ h
          rw [toDigits_inj hdigits]
      | negSucc l =>
          exact absurd ((toList_toString_nat k).symm.trans (h.trans (toList_toString_negSucc l))) (hsign k _)
  | negSucc k =>
      cases n with
      | ofNat l =>
          exact absurd ((toList_toString_nat l).symm.trans (h.symm.trans (toList_toString_negSucc k))) (hsign l _)
      | negSucc l =>
          rw [toList_toString_negSucc, toList_toString_negSucc, List.cons.injEq] at h
          rw [Nat.succ.inj (toDigits_inj h.2)]

end Text
