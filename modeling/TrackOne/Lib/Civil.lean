import Mathlib.Tactic.IntervalCases
import Mathlib.Data.Int.Init
import Mathlib.Tactic.NormNum

/-!
# The civil calendar

Dates of the proleptic Gregorian calendar, and their number counted from 1970-01-01. The calendar
repeats itself after an era of 400 years, or 146097 days; years are counted from March, so that a
leap day is the last day of its year.

* `Date`: a date that the calendar has.
* `number_lt_iff`: the number of a date grows with the date.
* `ofDayNumber`: the date of a number, by arithmetic on the day of the era.
* `Date.ofNumber_number`, `Date.number_ofNumber`: dates and numbers are in step.
-/

namespace Civil

/-- The leap years. -/
abbrev IsLeap (year : Int) : Prop := (4 ∣ year ∧ ¬ 100 ∣ year) ∨ 400 ∣ year

def daysInMonth (year month : Int) : Int :=
  if month = 2 then (if IsLeap year then 29 else 28)
  else if month = 4 ∨ month = 6 ∨ month = 9 ∨ month = 11 then 30
  else 31

@[ext]
structure Date where
  year : Int
  month : Int
  day : Int
  month_pos : 1 ≤ month
  month_le : month ≤ 12
  day_pos : 1 ≤ day
  day_le : day ≤ daysInMonth year month

namespace Date

/-- The earlier date: by year, then by month, then by day. -/
def Before (a b : Date) : Prop :=
  a.year < b.year ∨ a.year = b.year ∧ (a.month < b.month ∨ a.month = b.month ∧ a.day < b.day)

theorem before_trichotomy (a b : Date) : a.Before b ∨ a = b ∨ b.Before a := by
  rw [Date.ext_iff]
  unfold Before
  omega

end Date

/-! ## The number of a date -/

/-- The days before the first of March of a year. -/
def daysBefore (year : Int) : Int := 365 * year + year / 4 - year / 100 + year / 400

/-- The days of a year, from its March on, before a month that is counted from March. -/
def daysBeforeMonth (month : Int) : Int := (153 * month + 2) / 5

/-- The day of 1970-01-01, counted from the first of March of the year 0. -/
def epoch : Int := 719468

/-- A date by the year that began with the last March, and by the month counted from there. -/
def fromMarch (year month day : Int) : Int :=
  daysBefore year + daysBeforeMonth month + day - 1 - epoch

def dayNumber (year month day : Int) : Int :=
  if month ≤ 2 then fromMarch (year - 1) (month + 9) day else fromMarch year (month - 3) day

def Date.number (date : Date) : Int := dayNumber date.year date.month date.day

theorem dayNumber_day (year month day : Int) :
    dayNumber year month day = dayNumber year month 1 + (day - 1) := by
  unfold dayNumber fromMarch
  split_ifs <;> omega

/-- A leap day is the last day before the first of March. -/
theorem daysBefore_succ (year : Int) :
    daysBefore year = daysBefore (year - 1) + (if IsLeap year then 366 else 365) := by
  unfold daysBefore
  split_ifs <;> omega

/-- A month begins where the one before it ends. -/
theorem dayNumber_succ {year month : Int} (hpos : 1 ≤ month) (hlt : month < 12) :
    dayNumber year (month + 1) 1 = dayNumber year month 1 + daysInMonth year month := by
  have hyear := daysBefore_succ year
  by_cases hfebruary : month = 2
  · subst hfebruary
    simp only [dayNumber, fromMarch, daysBeforeMonth, daysInMonth]
    norm_num
    split_ifs at * <;> omega
  · unfold dayNumber fromMarch daysBeforeMonth daysInMonth
    rw [if_neg hfebruary]
    interval_cases month <;> norm_num <;> omega

theorem daysInMonth_pos (year month : Int) : 0 < daysInMonth year month := by
  unfold daysInMonth
  split_ifs <;> omega

/-- Months follow each other within a year. -/
theorem dayNumber_month_le {year month month' : Int} (hpos : 1 ≤ month) (h : month ≤ month')
    (hle : month' ≤ 12) : dayNumber year month 1 ≤ dayNumber year month' 1 := by
  induction month', h using Int.leInduction with
  | base => exact Int.le_refl _
  | succ month' h ih =>
    rw [dayNumber_succ (by omega) (by omega)]
    have := daysInMonth_pos year month'
    have := ih (by omega)
    omega

/-- A year begins where December ends. -/
theorem dayNumber_year_succ (year : Int) :
    dayNumber (year + 1) 1 1 = dayNumber year 12 1 + 31 := by
  unfold dayNumber fromMarch daysBefore daysBeforeMonth
  simp
  omega

namespace Date

theorem number_eq (date : Date) :
    date.number = dayNumber date.year date.month 1 + (date.day - 1) := dayNumber_day _ _ _

/-- The days of a month lie before the month after it. -/
theorem number_lt_month (date : Date) {month : Int} (h : date.month < month) (hle : month ≤ 12) :
    date.number < dayNumber date.year month 1 := by
  have hnext := @dayNumber_succ date.year date.month date.month_pos (by omega)
  have hlater :=
    @dayNumber_month_le date.year (date.month + 1) month (by have := date.month_pos; omega) h hle
  have := date.day_le
  rw [number_eq]
  omega

/-- The days of a year lie between its first day and the first day of the next. -/
theorem number_year (date : Date) :
    dayNumber date.year 1 1 ≤ date.number ∧ date.number < dayNumber (date.year + 1) 1 1 := by
  have hfirst := @dayNumber_month_le date.year 1 date.month (by omega) date.month_pos date.month_le
  have hnext := dayNumber_year_succ date.year
  have hday := date.day_pos
  refine ⟨by rw [number_eq]; omega, ?_⟩
  rcases Int.lt_or_eq_of_le date.month_le with hlt | heq
  · have := date.number_lt_month hlt (by omega)
    omega
  · have hlast := date.day_le
    rw [heq] at hlast
    have hdec : daysInMonth date.year 12 = 31 := rfl
    rw [number_eq, heq]
    omega

end Date

theorem firstDay_mono {year year' : Int} (h : year ≤ year') :
    dayNumber year 1 1 ≤ dayNumber year' 1 1 := by
  unfold dayNumber fromMarch daysBefore daysBeforeMonth
  simp only [show (1 : Int) ≤ 2 from by decide, if_true]
  omega

theorem number_lt_of_before {a b : Date} (h : a.Before b) : a.number < b.number := by
  rcases h with hyear | ⟨hyear, hmonth | ⟨hmonth, hday⟩⟩
  · calc a.number < dayNumber (a.year + 1) 1 1 := a.number_year.2
      _ ≤ dayNumber b.year 1 1 := firstDay_mono hyear
      _ ≤ b.number := b.number_year.1
  · have hlt := a.number_lt_month hmonth b.month_le
    have := b.day_pos
    rw [hyear] at hlt
    rw [b.number_eq]
    omega
  · rw [Date.number_eq, Date.number_eq, hyear, hmonth]
    omega

/-- The number of a date grows with the date. -/
theorem number_lt_iff {a b : Date} : a.number < b.number ↔ a.Before b := by
  refine ⟨fun h => ?_, number_lt_of_before⟩
  rcases Date.before_trichotomy a b with hab | rfl | hba
  · exact hab
  · exact absurd h (Int.lt_irrefl _)
  · exact absurd (number_lt_of_before hba) (by omega)

theorem number_injective : Function.Injective Date.number := by
  intro a b h
  rcases Date.before_trichotomy a b with hab | heq | hba
  · exact absurd (number_lt_of_before hab) (by omega)
  · exact heq
  · exact absurd (number_lt_of_before hba) (by omega)

/-! ## The date of a number -/

def daysPerEra : Int := 146097

/-- The days of an era before one of its years. -/
def daysBeforeYear (yearOfEra : Int) : Int := 365 * yearOfEra + yearOfEra / 4 - yearOfEra / 100

/-- The year of an era that a day of it belongs to. -/
def yearOfEra (dayOfEra : Int) : Int :=
  (dayOfEra - dayOfEra / 1460 + dayOfEra / 36524 - dayOfEra / 146096) / 365

theorem yearOfEra_mono {a b : Int} (ha : 0 ≤ a) (h : a ≤ b) (hb : b < daysPerEra) :
    yearOfEra a ≤ yearOfEra b := by
  unfold daysPerEra at hb
  have hyears : a - a / 1460 ≤ b - b / 1460 := by omega
  have hcenturies : a / 36524 ≤ b / 36524 := by omega
  unfold yearOfEra
  apply Int.ediv_le_ediv (by omega)
  -- The last subtraction takes effect on the last day only.
  by_cases hlast : b = 146096
  · subst hlast
    by_cases hsame : a = 146096
    · rw [hsame]
    · have hyears' : a - a / 1460 ≤ 145995 := by omega
      omega
  · have hzero : b / 146096 = 0 := by omega
    omega

/-- The last day of a year of the era; the last year of all ends with a leap day. -/
def lastDay (yearOfEra : Int) : Int :=
  daysBeforeYear (yearOfEra + 1) - (if yearOfEra = 399 then 0 else 1)

theorem yearOfEra_bounds : ∀ year < 400, yearOfEra (daysBeforeYear (year : Nat)) = year
    ∧ yearOfEra (lastDay (year : Nat)) = year := by
  decide +kernel

/-- A day lies within its year. -/
theorem day_of_year {dayOfEra : Int} (hpos : 0 ≤ dayOfEra) (hlt : dayOfEra < daysPerEra) :
    0 ≤ yearOfEra dayOfEra ∧ yearOfEra dayOfEra < 400
      ∧ daysBeforeYear (yearOfEra dayOfEra) ≤ dayOfEra
        ∧ dayOfEra ≤ lastDay (yearOfEra dayOfEra) := by
  have hfirst : 0 ≤ yearOfEra dayOfEra := yearOfEra_mono (Int.le_refl 0) hpos hlt
  have hfinal : yearOfEra dayOfEra ≤ 399 :=
    yearOfEra_mono hpos (Int.le_sub_one_of_lt hlt) (by decide)
  refine ⟨hfirst, by omega, ?_, ?_⟩
  · -- Were it before its year, it would be in the year before.
    by_contra hbefore
    rw [Int.not_le] at hbefore
    obtain ⟨year, hyear⟩ : ∃ year : Nat, yearOfEra dayOfEra = year + 1 := by
      refine ⟨(yearOfEra dayOfEra - 1).toNat, ?_⟩
      have hnonzero : yearOfEra dayOfEra ≠ 0 := by
        intro hzero
        rw [hzero] at hbefore
        exact absurd hbefore (by unfold daysBeforeYear; omega)
      omega
    have hlast := (yearOfEra_bounds year (by omega)).2
    have hle : dayOfEra ≤ lastDay year := by
      rw [hyear] at hbefore
      unfold lastDay
      rw [if_neg (by omega)]
      omega
    have := yearOfEra_mono hpos hle
      (by unfold lastDay daysBeforeYear daysPerEra; split_ifs <;> omega)
    omega
  -- Were it after its year, it would be in the year after.
  · by_contra hafter
    rw [Int.not_le] at hafter
    unfold daysPerEra at hlt
    by_cases hend : yearOfEra dayOfEra = 399
    · rw [hend] at hafter
      exact absurd hafter (by unfold lastDay daysBeforeYear; simp; omega)
    · rw [lastDay, if_neg hend] at hafter
      obtain ⟨year, hyear⟩ : ∃ year : Nat, yearOfEra dayOfEra + 1 = year :=
        ⟨(yearOfEra dayOfEra + 1).toNat, by omega⟩
      have hnext := (yearOfEra_bounds year (by omega)).1
      have := @yearOfEra_mono (daysBeforeYear year) dayOfEra
        (by unfold daysBeforeYear; omega) (by rw [← hyear]; omega) hlt
      omega

/-- The date of a number: its year, its month and its day. -/
def ofDayNumber (number : Int) : Int × Int × Int :=
  let days := number + epoch
  let era := days / daysPerEra
  let dayOfEra := days % daysPerEra
  let yearOfEra := yearOfEra dayOfEra
  let dayOfYear := dayOfEra - daysBeforeYear yearOfEra
  let month := (5 * dayOfYear + 2) / 153
  let day := dayOfYear - daysBeforeMonth month + 1
  if month < 10 then (yearOfEra + era * 400, month + 3, day)
  else (yearOfEra + era * 400 + 1, month - 9, day)

/-- A day of a year that begins in March lies in a month of it; how long the last month is,
February, depends on the year. -/
theorem month_of_day {dayOfYear month day : Int} (hpos : 0 ≤ dayOfYear) (hle : dayOfYear ≤ 365)
    (hmonth : month = (5 * dayOfYear + 2) / 153)
    (hday : day = dayOfYear - daysBeforeMonth month + 1)
    (year : Int) :
    0 ≤ month ∧ month ≤ 11 ∧ 1 ≤ day ∧ (month < 10 → day ≤ daysInMonth year (month + 3))
      ∧ (10 ≤ month → (dayOfYear = 365 → IsLeap year) → day ≤ daysInMonth year (month - 9)) := by
  have hlow : 0 ≤ month := by omega
  have hhigh : month ≤ 11 := by omega
  have hfirst : 153 * month ≤ 5 * dayOfYear + 2 := by omega
  have hlast : 5 * dayOfYear + 2 < 153 * month + 153 := by omega
  clear hmonth
  unfold daysBeforeMonth at hday
  unfold daysInMonth
  by_cases hfebruary : month = 11
  · subst hfebruary
    norm_num at hday hfirst ⊢
    refine ⟨by omega, fun hleap => ?_⟩
    split_ifs with hyear
    · omega
    · have : dayOfYear ≠ 365 := fun h => hyear (hleap h)
      omega
  · interval_cases month <;> norm_num at hday hfirst hlast ⊢ <;> omega

/-- The date of a number is in the calendar, and its number is that number. -/
theorem ofDayNumber_spec {number year month day : Int}
    (h : ofDayNumber number = (year, month, day)) :
    1 ≤ month ∧ month ≤ 12 ∧ 1 ≤ day ∧ day ≤ daysInMonth year month
      ∧ dayNumber year month day = number := by
  -- the day is `dayOfEra` in the era `era`
  have hdays : (number + epoch) % daysPerEra + (number + epoch) / daysPerEra * daysPerEra
      = number + epoch := Int.emod_add_ediv_mul _ _
  have hpos : 0 ≤ (number + epoch) % daysPerEra := Int.emod_nonneg _ (by decide)
  have hlt : (number + epoch) % daysPerEra < daysPerEra := Int.emod_lt_of_pos _ (by decide)
  unfold ofDayNumber at h
  dsimp only at h
  generalize (number + epoch) / daysPerEra = era at *
  generalize (number + epoch) % daysPerEra = dayOfEra at *
  -- and `dayOfYear` in the year `yoe` of the era, which starts in March
  obtain ⟨hyearPos, hyearLt, hstart, hend⟩ := day_of_year hpos hlt
  generalize yearOfEra dayOfEra = yoe at *
  have hdayLe : dayOfEra - daysBeforeYear yoe ≤ 365 := by
    unfold lastDay daysBeforeYear at hend
    unfold daysBeforeYear
    split_ifs at hend <;> omega
  have hleap : dayOfEra - daysBeforeYear yoe = 365 → IsLeap (yoe + era * 400 + 1) := by
    intro hlast
    unfold lastDay daysBeforeYear at hend
    unfold daysBeforeYear at hlast
    unfold IsLeap
    split_ifs at hend <;> omega
  have hbefore : daysBefore (yoe + era * 400) = daysBeforeYear yoe + era * daysPerEra := by
    unfold daysBefore daysBeforeYear daysPerEra
    omega
  generalize hdoy : dayOfEra - daysBeforeYear yoe = dayOfYear at *
  obtain ⟨hlow, hhigh, hday, hspring, hwinter⟩ := month_of_day (by omega) hdayLe rfl rfl
    (if (5 * dayOfYear + 2) / 153 < 10 then yoe + era * 400 else yoe + era * 400 + 1)
  generalize (5 * dayOfYear + 2) / 153 = mp at *
  split_ifs at h with hsplit
  -- from March to December the year is that of the era
  · cases h
    rw [if_pos hsplit] at hspring
    refine ⟨by omega, by omega, hday, hspring hsplit, ?_⟩
    rw [dayNumber, if_neg (by omega), fromMarch, hbefore]
    rw [show mp + 3 - 3 = mp from by omega]
    omega
  -- January and February belong to the next year
  · cases h
    rw [if_neg hsplit] at hwinter
    refine ⟨by omega, by omega, hday, hwinter (by omega) hleap, ?_⟩
    rw [dayNumber, if_pos (by omega), fromMarch]
    rw [show mp - 9 + 9 = mp from by omega,
      show yoe + era * 400 + 1 - 1 = yoe + era * 400 from by omega, hbefore]
    omega

namespace Date

def ofNumber (number : Int) : Date where
  year := (ofDayNumber number).1
  month := (ofDayNumber number).2.1
  day := (ofDayNumber number).2.2
  month_pos := (ofDayNumber_spec rfl).1
  month_le := (ofDayNumber_spec rfl).2.1
  day_pos := (ofDayNumber_spec rfl).2.2.1
  day_le := (ofDayNumber_spec rfl).2.2.2.1

@[simp] theorem number_ofNumber (number : Int) : (ofNumber number).number = number :=
  (ofDayNumber_spec rfl).2.2.2.2

/-- Every date is the date of its number. -/
@[simp] theorem ofNumber_number (date : Date) : ofNumber date.number = date :=
  number_injective (number_ofNumber date.number)

end Date

example : (Date.ofNumber 0).year = 1970 ∧ (Date.ofNumber (-1)).month = 12 := by decide

end Civil
