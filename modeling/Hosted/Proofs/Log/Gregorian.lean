import Mathlib.Algebra.BigOperators.Intervals
import Mathlib.Algebra.Order.BigOperators.Group.Finset
import Mathlib.Algebra.Order.Ring.Int

/-!
# The Gregorian calendar

The calendar as its rules have it, extended to all years, those before its introduction
included. Its days are numbered from 1970-01-01 by the lengths of years and months, and the
days before that have negative numbers. Every number belongs to one day at most, and the next
day has the next number.
-/

namespace Hosted.Log

/-- Every fourth year is a leap year, but of the hundredth years only every fourth is. -/
def IsLeap (year : ℤ) : Prop := 4 ∣ year ∧ (100 ∣ year → 400 ∣ year)

instance : DecidablePred IsLeap := fun _ => inferInstanceAs (Decidable (_ ∧ _))

/-- The number of days of a month. -/
def monthLength (year : ℤ) (month : ℕ) : ℕ :=
  if month = 2 then if IsLeap year then 29 else 28
  else if month = 4 ∨ month = 6 ∨ month = 9 ∨ month = 11 then 30
  else 31

/-- The number of days of a year before a month of it. -/
def monthStart (year : ℤ) (month : ℕ) : ℕ := ∑ m ∈ Finset.Ico 1 month, monthLength year m

/-- The number of days of a year. -/
def yearLength (year : ℤ) : ℕ := monthStart year 13

/-- The number of the first day of a year, counted from 1970-01-01. -/
def yearStart (year : ℤ) : ℤ :=
  (∑ n ∈ Finset.range (year - 1970).toNat, yearLength (1970 + n) : ℕ) -
    (∑ n ∈ Finset.range (1970 - year).toNat, yearLength (1969 - n) : ℕ)

/-- A day of the calendar. -/
@[ext]
structure CalendarDay where
  year : ℤ
  month : ℕ
  day : ℕ
  one_le_month : 1 ≤ month
  month_le : month ≤ 12
  one_le_day : 1 ≤ day
  day_le : day ≤ monthLength year month

/-! ## Years and months -/

section

variable {year year' : ℤ} {month month' : ℕ}

theorem yearLength_eq (year : ℤ) : yearLength year = if IsLeap year then 366 else 365 := by
  unfold yearLength monthStart
  simp only [Finset.sum_Ico_eq_sum_range, Finset.sum_range_succ, Finset.sum_range_zero, monthLength]
  by_cases h : IsLeap year <;> simp [h]

theorem monthLength_le (year : ℤ) (month : ℕ) : monthLength year month ≤ 31 := by
  unfold monthLength
  split_ifs <;> omega

theorem yearStart_succ (year : ℤ) : yearStart (year + 1) = yearStart year + yearLength year := by
  unfold yearStart
  rcases le_or_gt 1970 year with hge | hlt
  · have hyears : (year + 1 - 1970).toNat = (year - 1970).toNat + 1 := by omega
    have hlast : (1970 + ((year - 1970).toNat : ℤ)) = year := by omega
    rw [hyears, Finset.sum_range_succ, hlast, Int.toNat_eq_zero.2 (by omega : 1970 - year ≤ 0),
      Int.toNat_eq_zero.2 (by omega : 1970 - (year + 1) ≤ 0)]
    omega
  · have hyears : (1970 - year).toNat = (1970 - (year + 1)).toNat + 1 := by omega
    have hfirst : (1969 - ((1970 - (year + 1)).toNat : ℤ)) = year := by omega
    rw [hyears, Finset.sum_range_succ, hfirst, Int.toNat_eq_zero.2 (by omega : year - 1970 ≤ 0),
      Int.toNat_eq_zero.2 (by omega : year + 1 - 1970 ≤ 0)]
    omega

theorem monthStart_succ (year : ℤ) (h : 1 ≤ month) :
    monthStart year (month + 1) = monthStart year month + monthLength year month :=
  Finset.sum_Ico_succ_top h _

/-- A year begins after all earlier years. -/
theorem yearStart_succ_le (h : year < year') : yearStart (year + 1) ≤ yearStart year' := by
  induction year', h using Int.leInduction with
  | base => exact le_refl _
  | succ year' _ ih =>
      rw [yearStart_succ year']
      omega

theorem monthStart_le (year : ℤ) (h : month ≤ month') :
    monthStart year month ≤ monthStart year month' :=
  Finset.sum_le_sum_of_subset (Finset.Ico_subset_Ico_right h)

end

namespace CalendarDay

/-- The number of days from 1970-01-01 to a day. -/
def number (c : CalendarDay) : ℤ :=
  yearStart c.year + monthStart c.year c.month + (c.day - 1 : ℕ)

variable {c c' : CalendarDay}

/-! ## Numbers tell days apart -/

theorem number_lt_of_month (c : CalendarDay) {month : ℕ} (h : c.month < month) :
    c.number < yearStart c.year + monthStart c.year month := by
  have hnext := monthStart_succ c.year c.one_le_month
  have hle : monthStart c.year (c.month + 1) ≤ monthStart c.year month := monthStart_le c.year h
  have hday := c.day_le
  have hpos := c.one_le_day
  unfold number
  omega

theorem number_lt_of_year (c : CalendarDay) {year : ℤ} (h : c.year < year) :
    c.number < yearStart year := by
  have hmonth : c.number < yearStart c.year + monthStart c.year 13 :=
    c.number_lt_of_month (Nat.lt_succ_of_le c.month_le)
  have hnext := yearStart_succ c.year
  have hle := yearStart_succ_le h
  unfold yearLength at hnext
  omega

/-- Of two days the earlier one has the lower number: first the year counts, then the month, then
the day. -/
theorem number_lt_number (h : c.year < c'.year ∨ c.year = c'.year ∧
    (c.month < c'.month ∨ c.month = c'.month ∧ c.day < c'.day)) : c.number < c'.number := by
  rcases h with hyear | ⟨hyear, hmonth | ⟨hmonth, hday⟩⟩
  · have hlt := c.number_lt_of_year hyear
    change c.number < yearStart c'.year + _ + _
    omega
  · have hlt := c.number_lt_of_month hmonth
    rw [hyear] at hlt
    change c.number < yearStart c'.year + monthStart c'.year c'.month + _
    omega
  · have hpos := c.one_le_day
    rw [number, number, hyear, hmonth]
    omega

theorem number_injective : Function.Injective number := by
  intro c c' heq
  have hge := mt (@number_lt_number c c') (by omega)
  have hle := mt (@number_lt_number c' c) (by omega)
  ext <;> omega

/-- The order of days is that of years, months and days of the month, taken in turn. -/
theorem lt_of_number_lt (h : c.number < c'.number) : c.year < c'.year ∨ c.year = c'.year ∧
    (c.month < c'.month ∨ c.month = c'.month ∧ c.day < c'.day) := by
  have hle := mt (@number_lt_number c' c) (by omega)
  have hne : c ≠ c' := fun heq => absurd (heq ▸ h) (lt_irrefl _)
  have hfield : ¬(c.year = c'.year ∧ c.month = c'.month ∧ c.day = c'.day) :=
    fun heq => hne (CalendarDay.ext heq.1 heq.2.1 heq.2.2)
  omega

/-! ## The next day -/

/-- The day after. -/
def next (c : CalendarDay) : CalendarDay :=
  if hday : c.day < monthLength c.year c.month then
    { c with
      day := c.day + 1
      one_le_day := Nat.succ_pos _
      day_le := hday }
  else if hmonth : c.month < 12 then
    { year := c.year
      month := c.month + 1
      day := 1
      one_le_month := Nat.succ_pos _
      month_le := hmonth
      one_le_day := le_refl _
      day_le := by unfold monthLength; split_ifs <;> omega }
  else
    { year := c.year + 1
      month := 1
      day := 1
      one_le_month := le_refl _
      month_le := by omega
      one_le_day := le_refl _
      day_le := by unfold monthLength; split_ifs <;> omega }

theorem number_next (c : CalendarDay) : c.next.number = c.number + 1 := by
  have hpos := c.one_le_day
  have hle := c.day_le
  have hsucc := monthStart_succ c.year c.one_le_month
  unfold next
  split_ifs with hday hmonth
  · unfold number
    simp only
    omega
  · unfold number
    simp only
    omega
  · have hlast : c.month = 12 := by
      have hmonth_le := c.month_le
      omega
    have hyear := yearStart_succ c.year
    have hfirst : monthStart (c.year + 1) 1 = 0 := by simp [monthStart]
    unfold yearLength at hyear
    simp only [hlast, Nat.reduceAdd] at hsucc hday hle
    unfold number
    simp only [hfirst, hlast]
    omega

end CalendarDay

end Hosted.Log
