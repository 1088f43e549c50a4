import Inec.Lib.Rfc3339

/-!
# Calendar dates

The dates of Go's `time` without the time of day: `time.Parse("2006-01-02", ·)`, `YearDay` and the day after. The day
of the year of a date after February depends on the year, so days of the year of two dates do not compare as the
dates do. `reached_of_ageOn` and `not_reached_of_ageOn` say how far apart the two can be: one day, either way.
-/

namespace Rfc3339

structure Date where
  year : Nat
  month : Nat
  day : Nat
  month_mem : 1 ≤ month ∧ month ≤ 12
  day_mem : 1 ≤ day ∧ day ≤ daysIn month year

namespace Date

/-- Days of the year before the month. -/
def daysBefore (year : Nat) : Nat → Nat
  | 0 => 0
  | 1 => 0
  | month + 2 => daysBefore year (month + 1) + daysIn (month + 1) year

/-- `YearDay`. -/
def yearDay (d : Date) : Nat := daysBefore d.year d.month + d.day

/-- `time.Parse("2006-01-02", text)`. -/
def parse (text : String) : Option Date := do
  let (year, rest) ← getYear text.toList
  let rest ← skip '-' rest
  let (month, rest) ← getnumIn true 1 12 rest
  let rest ← skip '-' rest
  let (day, rest) ← getnum true rest
  if h : (1 ≤ month ∧ month ≤ 12) ∧ (1 ≤ day ∧ day ≤ daysIn month year) then
    if rest.isEmpty then some ⟨year, month, day, h.1, h.2⟩ else none
  else none

/-- The date is this day of this month of this year or later. The year may lack the day. -/
def Reached (year month day : Nat) (d : Date) : Prop :=
  year < d.year ∨ year = d.year ∧ (month < d.month ∨ month = d.month ∧ day ≤ d.day)

instance (year month day : Nat) (d : Date) : Decidable (Reached year month day d) :=
  inferInstanceAs (Decidable (_ ∨ _))

/-- Years between two dates as their years and days of the year tell. -/
def ageOn (born today : Date) : Int :=
  if today.yearDay < born.yearDay then (today.year : Int) - born.year - 1 else (today.year : Int) - born.year

/-! ### The day after -/

theorem one_le_daysIn (month year : Nat) : 1 ≤ daysIn month year := by
  unfold daysIn
  split
  · split <;> omega
  · split <;> omega

/-- The day after, by the last day of the month and the last month of the year. -/
def next (d : Date) : Date :=
  if h : d.day < daysIn d.month d.year then ⟨d.year, d.month, d.day + 1, d.month_mem, ⟨by omega, h⟩⟩
  else if hm : d.month < 12 then ⟨d.year, d.month + 1, 1, ⟨by omega, hm⟩, ⟨by omega, one_le_daysIn _ _⟩⟩
  else ⟨d.year + 1, 1, 1, ⟨by omega, by omega⟩, ⟨by omega, one_le_daysIn _ _⟩⟩

variable {d born today : Date} {year month day : Nat}

theorem daysBefore_succ (h : 1 ≤ month) : daysBefore year (month + 1) = daysBefore year month + daysIn month year := by
  obtain ⟨m, rfl⟩ := Nat.exists_eq_add_of_le' h
  rfl

/-- A day passes, or the year does. -/
theorem next_spec (d : Date) : (d.next.year = d.year ∧ d.next.yearDay = d.yearDay + 1) ∨
    (d.next.year = d.year + 1 ∧ d.month = 12 ∧ d.day = daysIn d.month d.year) := by
  have hday := d.day_mem
  have hmonth := d.month_mem
  unfold next
  by_cases h : d.day < daysIn d.month d.year
  · rw [dif_pos h]
    exact .inl ⟨rfl, rfl⟩
  · rw [dif_neg h]
    by_cases hm : d.month < 12
    · rw [dif_pos hm]
      refine .inl ⟨rfl, ?_⟩
      show daysBefore d.year (d.month + 1) + 1 = daysBefore d.year d.month + d.day + 1
      rw [daysBefore_succ hmonth.1]
      omega
    · rw [dif_neg hm]
      exact .inr ⟨rfl, by omega, by omega⟩

/-- What is reached stays reached. -/
theorem Reached.next (h : Reached year month day d) : Reached year month day d.next := by
  have hday := d.day_mem
  have hmonth := d.month_mem
  unfold Date.next
  by_cases hd : d.day < daysIn d.month d.year
  · rw [dif_pos hd]
    simp only [Reached] at h ⊢
    omega
  · rw [dif_neg hd]
    by_cases hm : d.month < 12
    · rw [dif_pos hm]
      simp only [Reached] at h ⊢
      omega
    · rw [dif_neg hm]
      simp only [Reached] at h ⊢
      omega

/-! ### Days of the year -/

theorem daysBefore_add_daysIn_le {m m' : Nat} (hm : 1 ≤ m) (h : m < m') :
    daysBefore year m + daysIn m year ≤ daysBefore year m' := by
  induction h with
  | refl => rw [daysBefore_succ hm]
  | @step k hk ih =>
      rw [daysBefore_succ (hm.trans (Nat.le_of_succ_le hk))]
      omega

/-- The 29th of February is all that differs. -/
theorem daysIn_le_succ (month year year' : Nat) : daysIn month year ≤ daysIn month year' + 1 := by
  unfold daysIn
  split
  · split <;> split <;> omega
  · omega

theorem daysIn_congr (h : month ≠ 2) (year year' : Nat) : daysIn month year = daysIn month year' := by
  rw [daysIn, daysIn, if_neg h, if_neg h]

theorem daysBefore_le_succ (year year' month : Nat) : daysBefore year month ≤ daysBefore year' month + 1 := by
  -- up to February the years agree, and from March on they are at most that day apart
  have hupto : ∀ m ≤ 2, daysBefore year m = daysBefore year' m := by
    intro m hm
    rcases (by omega : m = 0 ∨ m = 1 ∨ m = 2) with rfl | rfl | rfl <;> rfl
  have hfrom : ∀ m, daysBefore year (m + 3) ≤ daysBefore year' (m + 3) + 1 := by
    intro m
    induction m with
    | zero =>
        have h2 := hupto 2 (by omega)
        have hfeb := daysIn_le_succ 2 year year'
        show daysBefore year 2 + daysIn 2 year ≤ daysBefore year' 2 + daysIn 2 year' + 1
        omega
    | succ m ih =>
        have hsame : daysIn (m + 3) year = daysIn (m + 3) year' := daysIn_congr (by omega) year year'
        show daysBefore year (m + 3) + daysIn (m + 3) year ≤ daysBefore year' (m + 3) + daysIn (m + 3) year' + 1
        omega
  by_cases hm : month ≤ 2
  · rw [hupto month hm]
    omega
  · obtain ⟨m, rfl⟩ := Nat.exists_eq_add_of_le' (show 3 ≤ month by omega)
    exact hfrom m

/-- Before a day of the year that its month has room for, up to the leap day, there are fewer days. -/
theorem le_yearDay_of_reached (hmonth : 1 ≤ month) (hday : day ≤ daysIn month d.year + 1)
    (h : month < d.month ∨ month = d.month ∧ day ≤ d.day) : daysBefore d.year month + day ≤ d.yearDay := by
  have hd := d.day_mem
  rcases h with hlt | ⟨rfl, hle⟩
  · have := @daysBefore_add_daysIn_le d.year _ _ hmonth hlt
    unfold yearDay
    omega
  · exact Nat.add_le_add_left hle _

theorem yearDay_lt_of_not_reached (hday : 1 ≤ day) (h : ¬ (month < d.month ∨ month = d.month ∧ day ≤ d.day)) :
    d.yearDay < daysBefore d.year month + day := by
  have hd := d.day_mem
  by_cases heq : month = d.month
  · have hlt : d.day < day := by
      by_contra hle
      exact h (.inr ⟨heq, Nat.le_of_not_lt hle⟩)
    rw [heq]
    exact Nat.add_lt_add_left hlt _
  · have hlt : d.month < month := by
      by_contra hle
      exact h (.inl (by omega))
    have := @daysBefore_add_daysIn_le d.year _ _ d.month_mem.1 hlt
    unfold yearDay
    omega

/-! ### Ages -/

/-- Who is counted as that old is so on the day after. -/
theorem reached_of_ageOn {age : Nat} (h : (age : Int) ≤ ageOn born today) :
    Reached (born.year + age) born.month born.day today.next := by
  have hbound := daysBefore_le_succ today.year born.year born.month
  have hbound' := daysBefore_le_succ born.year today.year born.month
  by_cases hyear : born.year + age < today.year
  · exact Reached.next (.inl hyear)
  · unfold ageOn at h
    split at h
    · omega
    · rename_i hdays
      have heq : born.year + age = today.year := by omega
      rcases next_spec today with ⟨hnext, hsucc⟩ | ⟨hnext, _⟩
      · refine .inr ⟨by omega, ?_⟩
        by_contra hnot
        have hlt := yearDay_lt_of_not_reached born.day_mem.1 hnot
        rw [hnext, hsucc] at hlt
        unfold yearDay at hlt hdays
        omega
      · exact .inl (by omega)

/-- Who is counted as younger was so on the day before. -/
theorem not_reached_of_ageOn {age : Nat} (h : ageOn born d.next < age) :
    ¬ Reached (born.year + age) born.month born.day d := by
  intro hreached
  have hbound := daysBefore_le_succ born.year d.year born.month
  unfold ageOn at h
  rcases next_spec d with ⟨hnext, hsucc⟩ | ⟨hnext, _⟩
  · rcases hreached with hlt | ⟨heq, hmonth⟩
    · split at h <;> omega
    · have hle := le_yearDay_of_reached born.month_mem.1
        (born.day_mem.2.trans (daysIn_le_succ born.month born.year d.year)) hmonth
      split at h
      · rename_i hdays
        rw [hsucc] at hdays
        unfold yearDay at hdays hle
        omega
      · omega
  · have hyear : born.year + age ≤ d.year := by
      rcases hreached with hlt | ⟨heq, _⟩ <;> omega
    split at h <;> omega

example : (parse "2008-02-29").map (·.yearDay) = some 60 ∧ (parse "2007-02-29").isNone := by decide

end Date

end Rfc3339
