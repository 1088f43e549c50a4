import Inec.Gotv.OptOut

/-!
# Phone numbers

NormalizePhone of internal/gotv/service.go with its own replaceAll and indexOf, PhoneHash, and what they mean
for an opt-out. The replacements end and are a filter, so that NormalizePhone is the one `Inec.OptOut` has. The
spellings of a number differ in their prefix and in separators put anywhere.

HMAC with SHA-256 under the service's key, in hexadecimal, is a parameter.
-/

namespace Inec.PhoneNumber

open OptOut (Phone ascii)

/-- The first place of a part, if it is in the text. -/
def indexOf (s sub : Phone) : Option Nat :=
  (List.range (s.length + 1 - sub.length)).find? fun i => decide ((s.drop i).take sub.length = sub)

/-- The loop of replaceAll, which does not look at how often it has run; so many rounds of it. -/
def replaceRounds : Nat → Phone → Phone → Phone → Option Phone
  | 0, _, _, _ => none
  | rounds + 1, s, old, new =>
      match indexOf s old with
      | none => some s
      | some i => replaceRounds rounds (s.take i ++ new ++ s.drop (i + old.length)) old new

/-- With a round for each byte and one to see that nothing is left. -/
def replaceAll (s old new : Phone) : Option Phone := replaceRounds (s.length + 1) s old new

def normalizePhone (phone : Phone) : Option Phone := do
  let p ← [" ", "-", "(", ")"].foldlM (fun p c => replaceAll p (ascii c) (ascii "")) phone
  let p := if 1 < p.length ∧ p.head? = some 48 then ascii "+234" ++ p.drop 1 else p
  let p := if 3 < p.length ∧ p.take 3 = ascii "234" then ascii "+" ++ p else p
  return p

def phoneHash (hmac : Phone → String) (phone : Phone) : Option String := (normalizePhone phone).map hmac

/-! ### The spellings of a number -/

def separators : List UInt8 := ascii " -()"

/-- The digits after the trunk prefix or the country code. -/
structure NationalNumber where
  digits : Phone
  digits_ne : digits ≠ []
  isDigit : ∀ c ∈ digits, 48 ≤ c ∧ c ≤ 57

/-- Separators put into a text. -/
inductive Separated (spelt : Phone) : Phone → Prop
  | refl : Separated spelt spelt
  | insert {front back : Phone} {c : UInt8} : c ∈ separators → Separated spelt (front ++ back) →
      Separated spelt (front ++ c :: back)

inductive Spelling (n : NationalNumber) : Phone → Prop
  | trunk {phone : Phone} : Separated (ascii "0" ++ n.digits) phone → Spelling n phone
  | country {phone : Phone} : Separated (ascii "234" ++ n.digits) phone → Spelling n phone
  | international {phone : Phone} : Separated (ascii "+234" ++ n.digits) phone → Spelling n phone

/-! ### The replacements -/

theorem indexOf_byte (s : Phone) (b : UInt8) :
    indexOf s [b] = (List.range s.length).find? fun i => s[i]? = some b := by
  have hround : (fun i => decide ((s.drop i).take [b].length = [b])) = fun i => decide (s[i]? = some b) := by
    funext i
    rw [List.length_singleton, List.take_one, List.head?_drop]
    cases s[i]? <;> simp
  unfold indexOf
  rw [hround]
  rfl

theorem not_mem_of_indexOf {s : Phone} {b : UInt8} (h : indexOf s [b] = none) : b ∉ s := by
  intro hmem
  obtain ⟨i, hi, hget⟩ := List.getElem_of_mem hmem
  rw [indexOf_byte, List.find?_eq_none] at h
  exact h i (List.mem_range.mpr hi) (by simp [hi, hget])

theorem getElem?_of_indexOf {s : Phone} {b : UInt8} {i : Nat} (h : indexOf s [b] = some i) : s[i]? = some b := by
  rw [indexOf_byte] at h
  simpa using List.find?_some h

/-- Each round takes one byte out, so the loop ends, and what it leaves is the rest of the bytes. -/
theorem replaceRounds_byte (b : UInt8) (rounds : Nat) (s : Phone) (h : s.length < rounds) :
    replaceRounds rounds s [b] [] = some (s.filter fun c => c ≠ b) := by
  induction rounds generalizing s with
  | zero => omega
  | succ rounds ih =>
      unfold replaceRounds
      cases hindex : indexOf s [b] with
      | none =>
          have hnot := not_mem_of_indexOf hindex
          have hkeep : (s.filter fun c => c ≠ b) = s := by
            apply List.filter_eq_self.mpr
            intro c hc
            have hne : c ≠ b := fun heq => hnot (heq ▸ hc)
            simp [hne]
          rw [hkeep]
      | some i =>
          have hget := getElem?_of_indexOf hindex
          obtain ⟨hi, heq⟩ := List.getElem?_eq_some_iff.mp hget
          have hsplit : s = s.take i ++ b :: s.drop (i + 1) := by
            rw [← heq, List.getElem_cons_drop, List.take_append_drop]
          have hlength := congrArg List.length hsplit
          simp only [List.length_append, List.length_cons] at hlength
          show replaceRounds rounds (s.take i ++ [] ++ s.drop (i + 1)) [b] [] = _
          rw [List.append_nil, ih _ (by rw [List.length_append]; omega)]
          conv_rhs => rw [hsplit]
          simp [List.filter_append]

theorem replaceAll_byte (s : Phone) (b : UInt8) : replaceAll s [b] [] = some (s.filter fun c => c ≠ b) :=
  replaceRounds_byte b (s.length + 1) s (Nat.lt_succ_self _)

theorem strip_eq (phone : Phone) : [" ", "-", "(", ")"].foldlM
      (fun p c => replaceAll p (ascii c) (ascii "")) phone =
    some (phone.filter fun c => c ∉ separators) := by
  have hspace : ascii " " = [32] := by decide
  have hhyphen : ascii "-" = [45] := by decide
  have hopening : ascii "(" = [40] := by decide
  have hclosing : ascii ")" = [41] := by decide
  have hempty : ascii "" = [] := by decide
  have hseparators : separators = [32, 45, 40, 41] := by decide
  simp only [List.foldlM_cons, List.foldlM_nil, hspace, hhyphen, hopening, hclosing, hempty, replaceAll_byte,
    hseparators]
  show some _ = some _
  rw [List.filter_filter, List.filter_filter, List.filter_filter]
  congr 1
  apply List.filter_congr
  intro c _
  simp [Bool.and_comm]

theorem normalizePhone_eq (phone : Phone) : normalizePhone phone = some (OptOut.normalizePhone phone) := by
  unfold normalizePhone
  rw [strip_eq]
  have hhead : ∀ p : Phone, p.head? = some 48 ↔ p.take 1 = ascii "0" := by
    intro p
    rw [show ascii "0" = [48] by decide]
    cases p <;> simp
  simp only [hhead]
  rfl

/-! ### The prefixes -/

/-- What NormalizePhone does without the separators. -/
def prefixed (p : Phone) : Phone :=
  let p := if 1 < p.length ∧ p.take 1 = ascii "0" then ascii "+234" ++ p.drop 1 else p
  if 3 < p.length ∧ p.take 3 = ascii "234" then ascii "+" ++ p else p

theorem normalizePhone_prefixed (phone : Phone) :
    OptOut.normalizePhone phone = prefixed (phone.filter fun c => c ∉ separators) := rfl

theorem ascii_trunk : ascii "0" = [48] := by decide

theorem ascii_country : ascii "234" = [50, 51, 52] := by decide

theorem ascii_international : ascii "+234" = [43, 50, 51, 52] := by decide

theorem ascii_plus : ascii "+" = [43] := by decide

@[simp] theorem prefixed_plus (rest : Phone) : prefixed (43 :: rest) = 43 :: rest := by
  simp [prefixed, ascii_trunk, ascii_country]

theorem prefixed_trunk {rest : Phone} (hne : rest ≠ []) : prefixed (48 :: rest) = ascii "+234" ++ rest := by
  have hlength : 0 < rest.length := List.length_pos_of_ne_nil hne
  simp [prefixed, ascii_trunk, ascii_country, ascii_international, hlength]

theorem prefixed_country {rest : Phone} (hne : rest ≠ []) :
    prefixed (ascii "234" ++ rest) = ascii "+234" ++ rest := by
  have hlength : 0 < rest.length := List.length_pos_of_ne_nil hne
  simp [prefixed, ascii_trunk, ascii_country, ascii_international, ascii_plus, hlength]

/-- A text it changes begins with a plus sign. -/
theorem prefixed_cases (p : Phone) : prefixed p = p ∨ ∃ rest, prefixed p = 43 :: rest := by
  unfold prefixed
  by_cases htrunk : 1 < p.length ∧ p.take 1 = ascii "0"
  · have hshort : ¬(3 < (ascii "+234" ++ p.drop 1).length ∧ (ascii "+234" ++ p.drop 1).take 3 = ascii "234") := by
      simp [ascii_country, ascii_international]
    simp only [if_pos htrunk, if_neg hshort]
    exact Or.inr ⟨_, by rw [ascii_international]; rfl⟩
  · simp only [if_neg htrunk]
    by_cases hcountry : 3 < p.length ∧ p.take 3 = ascii "234"
    · rw [if_pos hcountry]
      exact Or.inr ⟨p, by rw [ascii_plus]; rfl⟩
    · rw [if_neg hcountry]
      exact Or.inl rfl

theorem prefixed_idem (p : Phone) : prefixed (prefixed p) = prefixed p := by
  rcases prefixed_cases p with hsame | ⟨rest, hplus⟩
  · rw [hsame, hsame]
  · rw [hplus, prefixed_plus]

theorem mem_prefixed {p : Phone} {c : UInt8} (h : c ∈ prefixed p) : c ∈ p ∨ c ∈ ascii "+234" := by
  have hplus : ∀ {p : Phone}, c ∈ (if 3 < p.length ∧ p.take 3 = ascii "234" then ascii "+" ++ p else p) →
      c ∈ p ∨ c ∈ ascii "+234" := by
    intro p hc
    by_cases hcountry : 3 < p.length ∧ p.take 3 = ascii "234"
    · rw [if_pos hcountry, ascii_plus] at hc
      rcases List.mem_cons.mp hc with hc | hc
      · exact Or.inr (by rw [hc]; decide)
      · exact Or.inl hc
    · rw [if_neg hcountry] at hc
      exact Or.inl hc
  rcases hplus h with hc | hc
  · by_cases htrunk : 1 < p.length ∧ p.take 1 = ascii "0"
    · rw [if_pos htrunk] at hc
      rcases List.mem_append.mp hc with hc | hc
      · exact Or.inr hc
      · exact Or.inl (List.mem_of_mem_drop hc)
    · rw [if_neg htrunk] at hc
      exact Or.inl hc
  · exact Or.inr hc

theorem filter_eq_of_clean {p : Phone} (h : ∀ c ∈ p, c ∉ separators) : (p.filter fun c => c ∉ separators) = p := by
  apply List.filter_eq_self.mpr
  intro c hc
  simpa using h c hc

theorem normalizePhone_idem (phone : Phone) :
    OptOut.normalizePhone (OptOut.normalizePhone phone) = OptOut.normalizePhone phone := by
  have hclean : ∀ c ∈ prefixed (phone.filter fun c => c ∉ separators), c ∉ separators := by
    intro c hc
    rcases mem_prefixed hc with hc | hc
    · simpa using (List.mem_filter.mp hc).2
    · have hcode : ∀ c ∈ ascii "+234", c ∉ separators := by decide +kernel
      exact hcode c hc
  rw [normalizePhone_prefixed phone, normalizePhone_prefixed, filter_eq_of_clean hclean, prefixed_idem]

/-! ### The spellings -/

theorem Separated.filter_eq {spelt phone : Phone} (h : Separated spelt phone) :
    (phone.filter fun c => c ∉ separators) = spelt.filter fun c => c ∉ separators := by
  induction h with
  | refl => rfl
  | insert hc _ ih =>
      rw [← ih, List.filter_append, List.filter_append, List.filter_cons_of_neg (by simpa using hc)]

theorem NationalNumber.clean (n : NationalNumber) : ∀ c ∈ n.digits, c ∉ separators := by
  intro c hc hsep
  have hdigit := n.isDigit c hc
  have hnone : ∀ c ∈ separators, ¬(48 ≤ c ∧ c ≤ 57) := by decide +kernel
  exact hnone c hsep hdigit

/-- Every spelling of a number becomes its international form. -/
theorem Spelling.normalizePhone_eq {n : NationalNumber} {phone : Phone} (h : Spelling n phone) :
    OptOut.normalizePhone phone = ascii "+234" ++ n.digits := by
  have hspelt : ∀ front : Phone, (∀ c ∈ front, c ∉ separators) →
      ((front ++ n.digits).filter fun c => c ∉ separators) = front ++ n.digits := by
    intro front hfront
    apply filter_eq_of_clean
    intro c hc
    rcases List.mem_append.mp hc with hc | hc
    · exact hfront c hc
    · exact n.clean c hc
  rw [normalizePhone_prefixed]
  cases h with
  | trunk h =>
      rw [h.filter_eq, hspelt _ (by decide +kernel)]
      exact prefixed_trunk n.digits_ne
  | country h =>
      rw [h.filter_eq, hspelt _ (by decide +kernel)]
      exact prefixed_country n.digits_ne
  | international h =>
      rw [h.filter_eq, hspelt _ (by decide +kernel), ascii_international]
      exact prefixed_plus _

/-- An opt-out is for every contact whose number is the same one. -/
theorem optedOut_processOptOut (s : OptOut.State) (hash : Phone → String) {phone : Phone} {c : OptOut.Contact}
    (h : OptOut.normalizePhone c.phone = OptOut.normalizePhone phone) (hc : c ∈ s.contacts) :
    { c with optedOut := true } ∈ (s.processOptOut hash phone false).contacts := by
  have hmem := List.mem_map_of_mem (f := fun c =>
    if hash (OptOut.normalizePhone c.phone) = hash (OptOut.normalizePhone phone) then
      { c with optedOut := true } else c) hc
  rw [h, if_pos rfl] at hmem
  simpa [OptOut.State.processOptOut, OptOut.State.markOptedOut] using hmem

/-- A number has one normal form and one hash, and an opt-out finds its contacts, however they are spelt. -/
theorem phone_canonical (hmac : Phone → String) :
    (∀ phone, ∃ p, normalizePhone phone = some p ∧ normalizePhone p = some p) ∧
      ∀ (n : NationalNumber) (a b : Phone), Spelling n a → Spelling n b →
        normalizePhone a = normalizePhone b ∧ phoneHash hmac a = phoneHash hmac b ∧
          ∀ (s : OptOut.State) (c : OptOut.Contact), c ∈ s.contacts → c.phone = a →
            { c with optedOut := true } ∈ (s.processOptOut hmac b false).contacts := by
  refine ⟨fun phone => ⟨OptOut.normalizePhone phone, normalizePhone_eq phone, ?_⟩, ?_⟩
  · rw [normalizePhone_eq, normalizePhone_idem]
  · intro n a b ha hb
    have hsame : OptOut.normalizePhone a = OptOut.normalizePhone b := by
      rw [ha.normalizePhone_eq, hb.normalizePhone_eq]
    have hnormal : normalizePhone a = normalizePhone b := by
      rw [normalizePhone_eq, normalizePhone_eq, hsame]
    refine ⟨hnormal, ?_, ?_⟩
    · unfold phoneHash
      rw [hnormal]
    · intro s c hc hphone
      exact optedOut_processOptOut s hmac (by rw [hphone, hsame]) hc

example : normalizePhone (ascii "(0)803-123 4567") = normalizePhone (ascii "+234 803 123 4567") := by
  decide +kernel

end Inec.PhoneNumber
