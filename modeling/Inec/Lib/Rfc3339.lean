import Inec.Lib.Delimited
import Inec.Lib.PaddedNumber

/-!
# RFC 3339 times

`time.Parse(time.RFC3339, ·)` and the formats of Go. The parser is more lenient than the standard: the
hour may be a single digit, a fraction of a second may stand where the layout has none, after a point or a
comma, and an offset may be up to 24 hours and 60 minutes.
-/

namespace Rfc3339

def isLeap (year : Nat) : Bool := year % 4 == 0 && (year % 100 != 0 || year % 400 == 0)

def daysIn (month year : Nat) : Nat :=
  if month = 2 then (if isLeap year then 29 else 28)
  else if month = 4 ∨ month = 6 ∨ month = 9 ∨ month = 11 then 30
  else 31

/-! ### Parsing -/

def digit (c : Char) : Nat := c.toNat - 48

/-- `getnum`: two digits, or one where the field is not fixed. -/
def getnum (fixed : Bool) : List Char → Option (Nat × List Char)
  | a :: b :: rest =>
      if a.isDigit then
        if b.isDigit then some (10 * digit a + digit b, rest) else if fixed then none else some (digit a, b :: rest)
      else none
  | [a] => if a.isDigit && !fixed then some (digit a, []) else none
  | [] => none

/-- A number within bounds. -/
def getnumIn (fixed : Bool) (low high : Nat) (text : List Char) : Option (Nat × List Char) :=
  (getnum fixed text).filter fun found => low ≤ found.1 && found.1 ≤ high

def getYear : List Char → Option (Nat × List Char)
  | a :: b :: c :: d :: rest =>
      if a.isDigit && b.isDigit && c.isDigit && d.isDigit then
        some (1000 * digit a + 100 * digit b + 10 * digit c + digit d, rest)
      else none
  | _ => none

def skip (expected : Char) : List Char → Option (List Char)
  | c :: rest => if c = expected then some rest else none
  | [] => none

def skipFraction : List Char → List Char
  | mark :: d :: rest =>
      if (mark = '.' ∨ mark = ',') ∧ d.isDigit then rest.dropWhile Char.isDigit else mark :: d :: rest
  | text => text

def skipZone : List Char → Option (List Char)
  | 'Z' :: rest => some rest
  | sign :: a :: b :: ':' :: c :: d :: rest => do
      let _ ← getnumIn true 0 24 [a, b]
      let _ ← getnumIn true 0 60 [c, d]
      if sign = '+' ∨ sign = '-' then some rest else none
  | _ => none

def accepts (text : List Char) : Option Unit := do
  let (year, text) ← getYear text
  let text ← skip '-' text
  let (month, text) ← getnumIn true 1 12 text
  let text ← skip '-' text
  let (day, text) ← getnum true text
  let text ← skip 'T' text
  let (_, text) ← getnumIn false 0 23 text
  let text ← skip ':' text
  let (_, text) ← getnumIn true 0 59 text
  let text ← skip ':' text
  let (_, text) ← getnumIn true 0 59 text
  let text ← skipZone (skipFraction text)
  if text.isEmpty && 1 ≤ day && day ≤ daysIn month year then some () else none

/-- Whether `time.Parse(time.RFC3339, text)` succeeds. -/
def valid (text : String) : Bool := (accepts text.toList).isSome

example : valid "2027-02-20T5:30:00,25+01:00" = true ∧ valid "2027-02-30T05:30:00Z" = false := by decide

/-! ### Formatting -/

/-- A time in UTC as the calendar has it. -/
structure CivilTime where
  year : Nat
  month : Nat
  day : Nat
  hour : Nat
  minute : Nat
  second : Nat
  nanos : Nat
  month_mem : 1 ≤ month ∧ month ≤ 12
  day_mem : 1 ≤ day ∧ day ≤ daysIn month year
  hour_lt : hour < 24
  minute_lt : minute < 60
  second_lt : second < 60
  nanos_lt : nanos < 10 ^ 9

/-- The bounds of the fields. -/
def CivilTime.InRange (year month day hour minute second nanos : Nat) : Prop :=
  (1 ≤ month ∧ month ≤ 12) ∧ (1 ≤ day ∧ day ≤ daysIn month year) ∧ hour < 24 ∧ minute < 60 ∧ second < 60 ∧
    nanos < 10 ^ 9

instance (year month day hour minute second nanos : Nat) :
    Decidable (CivilTime.InRange year month day hour minute second nanos) :=
  inferInstanceAs (Decidable (_ ∧ _))

def CivilTime.ofFields (year month day hour minute second nanos : Nat)
    (h : InRange year month day hour minute second nanos) : CivilTime :=
  ⟨year, month, day, hour, minute, second, nanos, h.1, h.2.1, h.2.2.1, h.2.2.2.1, h.2.2.2.2.1, h.2.2.2.2.2⟩

def twoDigits (n : Nat) : List Char := [(n / 10).digitChar, (n % 10).digitChar]

/-- The year in four digits, or more where it needs more. -/
def yearDigits (year : Nat) : List Char :=
  List.replicate (4 - (Nat.toDigits 10 year).length) '0' ++ Nat.toDigits 10 year

/-- The digits of a fraction with `width` places, without zeros at the end. -/
def fractionDigits : Nat → Nat → List Char
  | 0, _ => []
  | width + 1, n =>
      if n = 0 then [] else (n / 10 ^ width).digitChar :: fractionDigits width (n % 10 ^ width)

/-- `t.Format(time.RFC3339)`. -/
def CivilTime.formatSeconds (t : CivilTime) : List Char :=
  yearDigits t.year ++ '-' :: twoDigits t.month ++ '-' :: twoDigits t.day ++ 'T' :: twoDigits t.hour ++
    ':' :: twoDigits t.minute ++ ':' :: twoDigits t.second

def CivilTime.format (t : CivilTime) : String := String.ofList (t.formatSeconds ++ ['Z'])

/-- `t.Format(time.RFC3339Nano)`. -/
def CivilTime.formatNano (t : CivilTime) : String :=
  String.ofList (t.formatSeconds ++ (if t.nanos = 0 then [] else '.' :: fractionDigits 9 t.nanos) ++ ['Z'])

/-! ### What is formatted is parsed -/

theorem isDigit_digitChar_mod (n : Nat) : (n % 10).digitChar.isDigit = true := by
  rw [Nat.isDigit_digitChar]
  exact decide_eq_true (Nat.mod_lt n (by decide))

theorem digit_digitChar_mod (n : Nat) : digit (n % 10).digitChar = n % 10 :=
  Nat.toNat_digitChar_sub_48_of_lt_ten (Nat.mod_lt n (by decide))

theorem getnum_twoDigits {n : Nat} (h : n < 100) (fixed : Bool) (rest : List Char) :
    getnum fixed (twoDigits n ++ rest) = some (n, rest) := by
  have hten : n / 10 % 10 = n / 10 := Nat.mod_eq_of_lt (by omega)
  have hfirst := isDigit_digitChar_mod (n / 10)
  have hvalue := digit_digitChar_mod (n / 10)
  rw [hten] at hfirst hvalue
  simp only [twoDigits, List.cons_append, List.nil_append, getnum, hfirst, isDigit_digitChar_mod, hvalue,
    digit_digitChar_mod, if_true]
  rw [Nat.div_add_mod]

theorem getnumIn_twoDigits {n low high : Nat} (hlow : low ≤ n) (hhigh : n ≤ high) (h : high < 100) (fixed : Bool)
    (rest : List Char) : getnumIn fixed low high (twoDigits n ++ rest) = some (n, rest) := by
  rw [getnumIn, getnum_twoDigits (by omega)]
  simp [Option.filter, hlow, hhigh]

theorem yearDigits_eq {year : Nat} (h : year < 10000) :
    yearDigits year = [(year / 1000 % 10).digitChar, (year / 100 % 10).digitChar, (year / 10 % 10).digitChar,
      (year % 10).digitChar] := by
  have hzero : ∀ n, n = 0 → (n % 10).digitChar = '0' := by
    rintro n rfl
    rfl
  have hsmall : ∀ n, n < 10 → Nat.toDigits 10 n = [(n % 10).digitChar] := by
    intro n hn
    rw [Nat.toDigits_of_lt_base hn, Nat.mod_eq_of_lt hn]
  have hlarge : ∀ n, 10 ≤ n → Nat.toDigits 10 n = Nat.toDigits 10 (n / 10) ++ [(n % 10).digitChar] :=
    fun n hn => Nat.toDigits_of_base_le (by decide) hn
  unfold yearDigits
  by_cases h10 : year < 10
  · rw [hsmall year h10, hzero (year / 1000) (by omega), hzero (year / 100)
      (by omega), hzero (year / 10) (by omega)]
    rfl
  by_cases h100 : year < 100
  · rw [hlarge year (by omega), hsmall (year / 10) (by omega), hzero (year / 1000) (by omega),
      hzero (year / 100) (by omega)]
    rfl
  by_cases h1000 : year < 1000
  · rw [hlarge year (by omega), hlarge (year / 10) (by omega), Nat.div_div_eq_div_mul,
      hsmall (year / (10 * 10)) (by omega), hzero (year / 1000) (by omega)]
    rfl
  · rw [hlarge year (by omega), hlarge (year / 10) (by omega), Nat.div_div_eq_div_mul,
      hlarge (year / (10 * 10)) (by omega), Nat.div_div_eq_div_mul, hsmall (year / (10 * 10 * 10)) (by omega)]
    rfl

theorem getYear_yearDigits {year : Nat} (h : year < 10000) (rest : List Char) :
    getYear (yearDigits year ++ rest) = some (year, rest) := by
  rw [yearDigits_eq h]
  simp only [List.cons_append, List.nil_append, getYear, isDigit_digitChar_mod, digit_digitChar_mod, Bool.and_self,
    if_true]
  have hyear : 1000 * (year / 1000 % 10) + 100 * (year / 100 % 10) + 10 * (year / 10 % 10) +
      year % 10 = year := by omega
  rw [hyear]

/-- A year of five digits leaves a digit where the parser wants a dash. -/
theorem skip_getYear_large {year : Nat} (h : 10000 ≤ year) (rest : List Char) :
    (getYear (yearDigits year ++ rest)).bind (fun found => skip '-' found.2) = none := by
  have hlength : ¬(Nat.toDigits 10 year).length ≤ 4 := by
    rw [Nat.length_toDigits_le_iff (by decide) (by decide)]
    omega
  have hdigits : ∀ c ∈ Nat.toDigits 10 year, c.isDigit = true :=
    fun c hc => Nat.isDigit_of_mem_toDigits (by decide) (by decide) hc
  rw [yearDigits, Nat.sub_eq_zero_of_le (by omega), List.replicate_zero, List.nil_append]
  match hlist : Nat.toDigits 10 year with
  | [] | [_] | [_, _] | [_, _, _] | [_, _, _, _] => simp [hlist] at hlength
  | a :: b :: c :: d :: e :: more =>
      rw [hlist] at hdigits
      simp only [List.forall_mem_cons] at hdigits
      obtain ⟨ha, hb, hc, hd, he, -⟩ := hdigits
      have hdash : e ≠ '-' := by
        rintro rfl
        cases he
      simp [getYear, ha, hb, hc, hd, skip, hdash]

theorem isDigit_fractionDigits {width n : Nat} (h : n < 10 ^ width) :
    ∀ c ∈ fractionDigits width n, c.isDigit = true := by
  induction width generalizing n with
  | zero => exact List.forall_mem_nil _
  | succ width ih =>
      rw [fractionDigits]
      split
      · exact List.forall_mem_nil _
      · refine List.forall_mem_cons.mpr ⟨?_, ih (Nat.mod_lt _ (Nat.pow_pos (by decide)))⟩
        rw [Nat.isDigit_digitChar]
        exact decide_eq_true (Nat.div_lt_of_lt_mul (by rwa [Nat.pow_succ] at h))

theorem skipFraction_format {width n : Nat} (h : n < 10 ^ width) :
    skipFraction ((if n = 0 then [] else '.' :: fractionDigits width n) ++ ['Z']) = ['Z'] := by
  split
  · rfl
  · rename_i hne
    have hdigits := isDigit_fractionDigits h
    cases hlist : fractionDigits width n with
    | nil =>
        cases width with
        | zero => simp at h; exact absurd h hne
        | succ width => simp [fractionDigits, hne] at hlist
    | cons d rest =>
        rw [hlist, List.forall_mem_cons] at hdigits
        simp only [List.cons_append, skipFraction, hdigits.1, true_or, and_self, if_true]
        rw [List.dropWhile_append_of_pos hdigits.2]
        rfl

theorem accepts_large_year {year : Nat} (h : 10000 ≤ year) (rest : List Char) :
    accepts (yearDigits year ++ rest) = none := by
  have hskip := skip_getYear_large h rest
  unfold accepts
  cases hyear : getYear (yearDigits year ++ rest) with
  | none => rfl
  | some found =>
      rw [hyear, Option.bind_some] at hskip
      simp [hskip]

theorem CivilTime.day_lt (t : CivilTime) : t.day < 100 := by
  have hmax : daysIn t.month t.year ≤ 31 := by
    unfold daysIn
    split
    · split <;> omega
    · split <;> omega
  have hday := t.day_mem
  omega

theorem valid_formatNano_iff (t : CivilTime) : valid t.formatNano = true ↔ t.year ≤ 9999 := by
  rw [valid, CivilTime.formatNano, String.toList_ofList, CivilTime.formatSeconds]
  simp only [List.append_assoc, List.cons_append]
  constructor
  · intro hvalid
    by_contra hlarge
    rw [accepts_large_year (Nat.lt_of_not_le hlarge)] at hvalid
    cases hvalid
  · intro hyear
    simp only [accepts, getYear_yearDigits (Nat.lt_of_le_of_lt hyear (by decide)), skip, if_true,
      Option.bind_eq_bind, Option.bind_some, getnumIn_twoDigits t.month_mem.1 t.month_mem.2 (by decide),
        getnum_twoDigits t.day_lt,
      getnumIn_twoDigits (Nat.zero_le _) (Nat.le_of_lt_succ t.hour_lt) (by decide),
      getnumIn_twoDigits (Nat.zero_le _) (Nat.le_of_lt_succ t.minute_lt) (by decide),
      getnumIn_twoDigits (Nat.zero_le _) (Nat.le_of_lt_succ t.second_lt) (by decide),
      skipFraction_format t.nanos_lt, skipZone]
    simp [t.day_mem.1, t.day_mem.2]

/-! ### The value of what is formatted -/

attribute [ext] CivilTime

/-- The nanoseconds of the digits of a fraction; what is behind the ninth is cut off. -/
def fractionValue (digits : List Char) : Nat := Nat.ofDigitChars 10 (digits.take 9) 0 * 10 ^ (9 - digits.length)

/-- A fraction of a second, if there is one. -/
def fraction : List Char → Nat × List Char
  | '.' :: d :: rest =>
      if d.isDigit then (fractionValue (d :: rest.takeWhile Char.isDigit), rest.dropWhile Char.isDigit)
      else (0, '.' :: d :: rest)
  | text => (0, text)

/-- The time of a text in UTC, as `time.Time` reads it from JSON. -/
def parseUTC (text : String) : Option CivilTime := do
  let (year, text) ← getYear text.toList
  let text ← skip '-' text
  let (month, text) ← getnum true text
  let text ← skip '-' text
  let (day, text) ← getnum true text
  let text ← skip 'T' text
  let (hour, text) ← getnum true text
  let text ← skip ':' text
  let (minute, text) ← getnum true text
  let text ← skip ':' text
  let (second, text) ← getnum true text
  let (nanos, text) := fraction text
  if h : (1 ≤ month ∧ month ≤ 12) ∧ (1 ≤ day ∧ day ≤ daysIn month year) ∧ hour < 24 ∧ minute < 60 ∧ second < 60 ∧
      nanos < 10 ^ 9 ∧ text = ['Z'] then
    some ⟨year, month, day, hour, minute, second, nanos, h.1, h.2.1, h.2.2.1, h.2.2.2.1, h.2.2.2.2.1, h.2.2.2.2.2.1⟩
  else none

theorem length_fractionDigits (width n : Nat) : (fractionDigits width n).length ≤ width := by
  induction width generalizing n with
  | zero => exact Nat.le_refl 0
  | succ width ih =>
      rw [fractionDigits]
      split
      · exact Nat.zero_le _
      · exact Nat.succ_le_succ (ih _)

/-- The zeros that are left out count for nothing. -/
theorem ofDigitChars_fractionDigits {width n : Nat} (h : n < 10 ^ width) :
    Nat.ofDigitChars 10 (fractionDigits width n) 0 * 10 ^ (width - (fractionDigits width n).length) = n := by
  induction width generalizing n with
  | zero =>
      have hzero : n = 0 := by
        rw [Nat.pow_zero] at h
        omega
      rw [hzero]
      rfl
  | succ width ih =>
      rw [fractionDigits]
      by_cases hzero : n = 0
      · rw [if_pos hzero, hzero]
        simp
      · have hpow : 0 < 10 ^ width := Nat.pow_pos (by omega)
        have hhead : n / 10 ^ width < 10 := Nat.div_lt_of_lt_mul (by rwa [Nat.pow_succ] at h)
        have htail := ih (Nat.mod_lt n hpow)
        have hlength := length_fractionDigits width (n % 10 ^ width)
        rw [if_neg hzero, List.length_cons, Nat.ofDigitChars_cons_digitChar_of_lt_ten hhead,
          Nat.ofDigitChars_eq_ofDigitChars_zero, Nat.add_sub_add_right, Nat.mul_zero, Nat.zero_add,
            Nat.add_mul, htail,
          Nat.mul_right_comm, ← Nat.pow_add, Nat.add_sub_cancel' hlength]
        exact Nat.div_add_mod n (10 ^ width)

/-- What the layout writes for the nanoseconds. -/
def fractionText (nanos : Nat) : List Char := if nanos = 0 then [] else '.' :: fractionDigits 9 nanos

/-- `formatNano` as its parts follow each other. -/
theorem toList_formatNano (t : CivilTime) : t.formatNano.toList = yearDigits t.year ++ '-' :: (twoDigits t.month ++
    ('-' :: twoDigits t.day ++ ('T' :: twoDigits t.hour ++
      (':' :: twoDigits t.minute ++ (':' :: twoDigits t.second ++ (fractionText t.nanos ++ ['Z'])))))) := by
  simp [CivilTime.formatNano, CivilTime.formatSeconds, fractionText]

theorem fraction_fractionText {nanos : Nat} (h : nanos < 10 ^ 9) :
    fraction (fractionText nanos ++ ['Z']) = (nanos, ['Z']) := by
  unfold fractionText
  by_cases hzero : nanos = 0
  · rw [if_pos hzero, hzero]
    rfl
  · rw [if_neg hzero]
    have hdigits := isDigit_fractionDigits h
    have hvalue := ofDigitChars_fractionDigits h
    have hlength := length_fractionDigits 9 nanos
    cases hlist : fractionDigits 9 nanos with
    | nil => simp [fractionDigits, hzero] at hlist
    | cons d rest =>
        rw [hlist] at hdigits hvalue hlength
        have hrest : ∀ c ∈ rest, c.isDigit = true := fun c hc => hdigits c (List.mem_cons_of_mem _ hc)
        have htake : (rest ++ ['Z']).takeWhile Char.isDigit = rest := by
          rw [List.takeWhile_append_of_pos hrest]
          simp
        have hdrop : (rest ++ ['Z']).dropWhile Char.isDigit = ['Z'] := by
          rw [List.dropWhile_append_of_pos hrest]
          rfl
        show (if d.isDigit then (fractionValue (d :: (rest ++ ['Z']).takeWhile Char.isDigit),
          (rest ++ ['Z']).dropWhile Char.isDigit) else _) = _
        rw [if_pos (hdigits d List.mem_cons_self), htake, hdrop, fractionValue,
          List.take_of_length_le hlength, hvalue]

theorem parseUTC_formatNano {t : CivilTime} (h : t.year ≤ 9999) : parseUTC t.formatNano = some t := by
  have hmonth : t.month < 100 := by
    have hle := t.month_mem.2
    omega
  have hhour : t.hour < 100 := Nat.lt_trans t.hour_lt (by decide)
  have hminute : t.minute < 100 := Nat.lt_trans t.minute_lt (by decide)
  have hsecond : t.second < 100 := Nat.lt_trans t.second_lt (by decide)
  unfold parseUTC
  rw [toList_formatNano, getYear_yearDigits (by omega)]
  simp only [List.cons_append, Option.bind_eq_bind, Option.bind_some, skip, if_true, getnum_twoDigits hmonth,
    getnum_twoDigits t.day_lt, getnum_twoDigits hhour, getnum_twoDigits hminute, getnum_twoDigits hsecond,
      fraction_fractionText t.nanos_lt]
  rw [dif_pos ⟨t.month_mem, t.day_mem, t.hour_lt, t.minute_lt, t.second_lt, t.nanos_lt, trivial⟩]

/-! ### The text names the time -/

theorem twoDigits_inj {n m : Nat} (hn : n < 100) (hm : m < 100) (h : twoDigits n = twoDigits m) : n = m := by
  have hread := getnum_twoDigits hn true []
  rw [h, getnum_twoDigits hm true []] at hread
  exact (Prod.mk.inj (Option.some.inj hread)).1.symm

theorem isDigit_twoDigits {n : Nat} (h : n < 100) : ∀ c ∈ twoDigits n, c.isDigit = true := by
  intro c hc
  rw [twoDigits, List.mem_pair] at hc
  have hten : n / 10 % 10 = n / 10 := Nat.mod_eq_of_lt (by omega)
  cases hc with
  | inl hc =>
      rw [hc, ← hten]
      exact isDigit_digitChar_mod _
  | inr hc =>
      rw [hc]
      exact isDigit_digitChar_mod n

theorem yearDigits_inj {n m : Nat} (h : yearDigits n = yearDigits m) : n = m := PaddedNumber.padded_inj h

theorem dash_notMem_yearDigits (year : Nat) : '-' ∉ yearDigits year := by
  intro hdash
  have hdigit : '-'.isDigit = true := PaddedNumber.isDigit_of_mem_padded hdash
  cases hdigit

theorem fractionText_inj {n m : Nat} (hn : n < 10 ^ 9) (hm : m < 10 ^ 9)
    (h : fractionText n ++ ['Z'] = fractionText m ++ ['Z']) : n = m := by
  have hread := fraction_fractionText hn
  rw [h, fraction_fractionText hm] at hread
  exact (Prod.mk.inj hread).1.symm

/-- Nothing but digits and the marks between them stands in a time. -/
theorem forall_mem_formatNano {P : Char → Prop} (hdigit : ∀ c : Char, c.isDigit = true → P c)
    (hmark : ∀ c ∈ ['-', 'T', ':', '.', 'Z'], P c) (t : CivilTime) : ∀ c ∈ t.formatNano.toList, P c := by
  have htwo : ∀ {n : Nat}, n < 100 → ∀ c ∈ twoDigits n, P c := fun h c hc => hdigit c (isDigit_twoDigits h c hc)
  have hmonth : t.month < 100 := by
    have hle := t.month_mem.2
    omega
  have hfraction : ∀ c ∈ fractionText t.nanos, P c := by
    unfold fractionText
    split
    · exact List.forall_mem_nil _
    · exact List.forall_mem_cons.mpr ⟨hmark '.' (by decide),
        fun c hc => hdigit c (isDigit_fractionDigits t.nanos_lt c hc)⟩
  simp only [toList_formatNano, List.cons_append, List.forall_mem_append, List.forall_mem_cons]
  exact ⟨fun c hc => hdigit c (PaddedNumber.isDigit_of_mem_padded hc), hmark '-' (by decide), htwo hmonth,
    hmark '-' (by decide), htwo t.day_lt, hmark 'T' (by decide), htwo (Nat.lt_trans t.hour_lt (by decide)),
    hmark ':' (by decide), htwo (Nat.lt_trans t.minute_lt (by decide)), hmark ':' (by decide),
    htwo (Nat.lt_trans t.second_lt (by decide)), hfraction, hmark 'Z' (by decide), List.forall_mem_nil _⟩

theorem formatNano_inj {s t : CivilTime} (h : s.formatNano = t.formatNano) : s = t := by
  have hlist := congrArg String.toList h
  rw [toList_formatNano, toList_formatNano] at hlist
  obtain ⟨hyear, hlist⟩ := Delimited.append_sep_inj_of_notMem_left hlist (dash_notMem_yearDigits _)
    (dash_notMem_yearDigits _)
  obtain ⟨hmonth, hlist⟩ := List.append_inj hlist rfl
  obtain ⟨hday, hlist⟩ := List.append_inj hlist rfl
  obtain ⟨hhour, hlist⟩ := List.append_inj hlist rfl
  obtain ⟨hminute, hlist⟩ := List.append_inj hlist rfl
  obtain ⟨hsecond, hlist⟩ := List.append_inj hlist rfl
  have hsmonth := s.month_mem.2
  have htmonth := t.month_mem.2
  apply CivilTime.ext
  · exact yearDigits_inj hyear
  · exact twoDigits_inj (by omega) (by omega) hmonth
  · exact twoDigits_inj s.day_lt t.day_lt (List.cons.inj hday).2
  · exact twoDigits_inj (Nat.lt_trans s.hour_lt (by decide)) (Nat.lt_trans t.hour_lt (by decide))
      (List.cons.inj hhour).2
  · exact twoDigits_inj (Nat.lt_trans s.minute_lt (by decide)) (Nat.lt_trans t.minute_lt (by decide))
      (List.cons.inj hminute).2
  · exact twoDigits_inj (Nat.lt_trans s.second_lt (by decide)) (Nat.lt_trans t.second_lt (by decide))
      (List.cons.inj hsecond).2
  · exact fractionText_inj s.nanos_lt t.nanos_lt hlist

end Rfc3339
