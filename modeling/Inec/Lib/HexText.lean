import Mathlib.Algebra.Group.Nat.Defs
import Mathlib.Data.List.Basic

/-!
# A collision-free hex coding of text

Theorems that assume a collision-free hash are about a parameter. `hexText` is a function that meets
the assumption: it writes every character as eight hex digits. It shows that such a parameter exists
and gives the concrete runs of the development something to compute with.
-/

namespace HexText

def nibble (n : Nat) : Char :=
  if n < 10 then Char.ofNat (48 + n) else Char.ofNat (87 + n)

/-- The eight hex digits of a code point. -/
def eightDigits (n : Nat) : List Char :=
  [nibble (n / 0x10000000 % 16), nibble (n / 0x1000000 % 16), nibble (n / 0x100000 % 16),
    nibble (n / 0x10000 % 16), nibble (n / 0x1000 % 16), nibble (n / 0x100 % 16),
    nibble (n / 0x10 % 16), nibble (n % 16)]

def codeList : List Char → List Char
  | [] => []
  | c :: rest => eightDigits c.toNat ++ codeList rest

def hexText (s : String) : String := String.ofList (codeList s.toList)

theorem nibble_inj {m n : Nat} (hm : m < 16) (hn : n < 16) (h : nibble m = nibble n) : m = n := by
  have hall : ∀ m < 16, ∀ n < 16, nibble m = nibble n → m = n := by decide
  exact hall m hm n hn h

theorem eightDigits_inj {m n : Nat} (hm : m < 2 ^ 32) (hn : n < 2 ^ 32)
    (h : eightDigits m = eightDigits n) : m = n := by
  have hlt : ∀ k : Nat, k % 16 < 16 := fun k => Nat.mod_lt k (by decide)
  simp only [eightDigits, List.cons.injEq, and_true] at h
  obtain ⟨h7, h6, h5, h4, h3, h2, h1, h0⟩ := h
  have h7 := nibble_inj (hlt _) (hlt _) h7
  have h6 := nibble_inj (hlt _) (hlt _) h6
  have h5 := nibble_inj (hlt _) (hlt _) h5
  have h4 := nibble_inj (hlt _) (hlt _) h4
  have h3 := nibble_inj (hlt _) (hlt _) h3
  have h2 := nibble_inj (hlt _) (hlt _) h2
  have h1 := nibble_inj (hlt _) (hlt _) h1
  have h0 := nibble_inj (hlt _) (hlt _) h0
  omega

theorem toNat_lt (c : Char) : c.toNat < 2 ^ 32 := c.val.toNat_lt

theorem codeList_inj {s t : List Char} (h : codeList s = codeList t) : s = t := by
  induction s generalizing t with
  | nil =>
      cases t with
      | nil => rfl
      | cons d t => simp [codeList, eightDigits] at h
  | cons c s ih =>
      cases t with
      | nil => simp [codeList, eightDigits] at h
      | cons d t =>
          obtain ⟨hhead, htail⟩ := List.append_inj h rfl
          rw [ih htail, Char.toNat_inj.mp (eightDigits_inj (toNat_lt c) (toNat_lt d) hhead)]

theorem hexText_injective : Function.Injective hexText := by
  intro s t h
  exact String.toList_inj.mp (codeList_inj (String.ofList_inj.mp h))

/-- The coding only uses hex digits, so it is free of any other character. -/
theorem notMem_hexText {sep : Char} (hsep : ∀ n < 16, nibble n ≠ sep) (s : String) :
    sep ∉ (hexText s).toList := by
  rw [hexText, String.toList_ofList]
  induction s.toList with
  | nil => simp [codeList]
  | cons c rest ih =>
      have hlt : ∀ k : Nat, k % 16 < 16 := fun k => Nat.mod_lt k (by decide)
      rw [codeList, List.mem_append, not_or]
      refine ⟨?_, ih⟩
      simp only [eightDigits, List.mem_cons, List.not_mem_nil, or_false, not_or]
      exact ⟨(hsep _ (hlt _)).symm, (hsep _ (hlt _)).symm, (hsep _ (hlt _)).symm, (hsep _ (hlt _)).symm,
        (hsep _ (hlt _)).symm, (hsep _ (hlt _)).symm, (hsep _ (hlt _)).symm, (hsep _ (hlt _)).symm⟩

/-! ### Bytes -/

def byteDigits (b : UInt8) : List Char := [Nat.digitChar (b.toNat / 16), Nat.digitChar (b.toNat % 16)]

/-- Bytes in lower-case hex, two digits each. -/
def encode (bytes : List UInt8) : String := String.ofList (bytes.flatMap byteDigits)

theorem byteDigits_inj {a b : UInt8} (h : byteDigits a = byteDigits b) : a = b := by
  have hdigit : ∀ m < 16, ∀ n < 16, Nat.digitChar m = Nat.digitChar n → m = n := by decide
  have hlt : ∀ c : UInt8, c.toNat / 16 < 16 ∧ c.toNat % 16 < 16 := by
    intro c
    have := c.toNat_lt
    omega
  simp only [byteDigits, List.cons.injEq, and_true] at h
  have hhigh := hdigit _ (hlt a).1 _ (hlt b).1 h.1
  have hlow := hdigit _ (hlt a).2 _ (hlt b).2 h.2
  apply UInt8.toNat_inj.mp
  omega

theorem flatMap_byteDigits_inj {as bs : List UInt8} (h : as.flatMap byteDigits = bs.flatMap byteDigits) :
    as = bs := by
  induction as generalizing bs with
  | nil =>
      cases bs with
      | nil => rfl
      | cons b bs => simp [byteDigits] at h
  | cons a as ih =>
      cases bs with
      | nil => simp [byteDigits] at h
      | cons b bs =>
          rw [List.flatMap_cons, List.flatMap_cons] at h
          obtain ⟨hhead, htail⟩ := List.append_inj h rfl
          rw [byteDigits_inj hhead, ih htail]

theorem encode_inj {as bs : List UInt8} (h : encode as = encode bs) : as = bs :=
  flatMap_byteDigits_inj (String.ofList_inj.mp h)

theorem length_encode (bytes : List UInt8) : (encode bytes).length = 2 * bytes.length := by
  have hdigits : (bytes.flatMap byteDigits).length = 2 * bytes.length := by
    induction bytes with
    | nil => rfl
    | cons b bytes ih =>
        rw [List.flatMap_cons, List.length_append, ih, List.length_cons, byteDigits]
        simp only [List.length_cons, List.length_nil]
        omega
  rw [encode, String.length_ofList, hdigits]

theorem encode_ne_empty {bytes : List UInt8} (h : bytes ≠ []) : encode bytes ≠ "" := by
  intro hempty
  exact h (encode_inj (hempty.trans (by decide : "" = encode [])))

end HexText
