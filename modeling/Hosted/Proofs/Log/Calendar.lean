import Hosted.Log.Calendar
import Hosted.Proofs.Log.Gregorian
import Mathlib.Tactic.IntervalCases

/-!
# Dates of day counts

The date computed for a day count is the day of the Gregorian calendar with that number, for
every count of whole days in a 64-bit number of seconds. The computation is exact in machine
words: with every value held to 64 signed bits, and month and day narrowed to 32 unsigned ones,
it gives the same date.

The proof follows the computation. A day of the 400-year era is split into the years of its
era, its centuries and the leap years between them; the year begins in March, so that the
months are as long in every year but for the last one.
-/

namespace Hosted.Log

/-! ## Years that begin in March -/

/-- The number of the first of March of a year. -/
def marchStart (year : ℤ) : ℤ := 365 * year + year / 4 - year / 100 + year / 400 - 719468

theorem marchStart_succ (year : ℤ) :
    marchStart (year + 1) = marchStart year + yearLength (year + 1) := by
  rw [yearLength_eq]
  unfold marchStart
  split_ifs with hleap <;> unfold IsLeap at hleap <;> omega

/-- From the first of March to the end of the year it is 306 days. -/
theorem yearStart_succ_eq (year : ℤ) : yearStart (year + 1) = marchStart year + 306 := by
  induction year using Int.inductionOn' (b := 1969) with
  | zero => rfl
  | succ year _ ih =>
      rw [yearStart_succ, ih, marchStart_succ]
      omega
  | pred year _ ih =>
      have hyear := yearStart_succ year
      have hmarch := marchStart_succ (year - 1)
      rw [sub_add_cancel] at hmarch ⊢
      omega

section

variable {mp : ℕ}

theorem monthLength_march (year : ℤ) (h : mp ≤ 9) :
    (153 * mp + 2) / 5 + monthLength year (mp + 3) = (153 * (mp + 1) + 2) / 5 := by
  interval_cases mp <;> rfl

theorem monthStart_march (year : ℤ) (h : mp ≤ 9) :
    monthStart year (mp + 3) + 306 = (153 * mp + 2) / 5 + yearLength year := by
  induction mp with
  | zero =>
      rw [yearLength_eq]
      simp only [monthStart, Finset.sum_Ico_eq_sum_range, Finset.sum_range_succ, monthLength]
      split_ifs <;> simp_all
  | succ mp ih =>
      have hlength := monthLength_march year (Nat.le_of_succ_le h)
      have hstart : monthStart year (mp + 1 + 3) = _ :=
        monthStart_succ year (by omega : 1 ≤ mp + 3)
      have hmarch := ih (Nat.le_of_succ_le h)
      omega

/-- A year that begins in March ends with the January and February of the next calendar year. -/
theorem monthStart_winter (year : ℤ) (hge : 10 ≤ mp) (hle : mp ≤ 11) :
    monthStart year (mp - 9) + 306 = (153 * mp + 2) / 5 := by
  interval_cases mp <;> rfl

end

/-! ## Years of an era -/

/-- A day of the era by its century, its four years in the century and its day in the four years.
The last four years of a century have no leap day, unless the century is the last of the era. -/
structure IsEraDay (doe century cycle day : ℕ) : Prop where
  eq : doe = 36524 * century + 1461 * cycle + day
  century_le : century ≤ 3
  cycle_le : cycle ≤ 24
  day_lt : day < 1461
  last : cycle = 24 → day = 1460 → century = 3

section

variable {doe century cycle day : ℕ}

theorem exists_isEraDay (h : doe < 146097) :
    ∃ century cycle day, IsEraDay doe century cycle day := by
  rcases Nat.lt_or_ge doe 109572 with hlt | hge
  · exact ⟨doe / 36524, doe % 36524 / 1461, doe % 36524 % 1461, by omega, by omega, by omega,
      by omega, by omega⟩
  · exact ⟨3, (doe - 109572) / 1461, (doe - 109572) % 1461, by omega, by omega, by omega,
      by omega, by omega⟩

/-- The three corrections of the computation turn the day of the era into one of years of 365
days: the leap days before it are taken out, and that of its own year where it is one. -/
theorem eraYear_eq (h : IsEraDay doe century cycle day) :
    Date.eraYear doe = 100 * century + 4 * cycle + min (day / 365) 3 := by
  obtain ⟨rfl, hcentury, hcycle, hday, hlast⟩ := h
  have hleap : (36524 * century + 1461 * cycle + day) / 1460
      = 25 * century + cycle + (24 * century + cycle + day) / 1460 := by omega
  have hcenturies : (36524 * century + 1461 * cycle + day) / 36524
      = century + (36524 * century + 1461 * cycle + day) / 146096 := by
    rcases Nat.lt_or_ge (36524 * century + 1461 * cycle + day) 146096 with hlt | hge
    · rw [Nat.div_eq_of_lt hlt]
      omega
    · have hend : 36524 * century + 1461 * cycle + day = 146096 := by omega
      have hthree : century = 3 := by omega
      rw [hend, hthree]
  unfold Date.eraYear
  rw [hcenturies, hleap]
  rcases Nat.lt_or_ge (24 * century + cycle + day) 1460 with hlt | hge
  · rw [Nat.div_eq_of_lt hlt]
    omega
  · have hone : (24 * century + cycle + day) / 1460 = 1 := by omega
    rw [hone]
    omega

/-- The day of the era that the year of a day begins on. -/
theorem eraYear_start (h : IsEraDay doe century cycle day) :
    365 * Date.eraYear doe + Date.eraYear doe / 4 - Date.eraYear doe / 100
      = 36524 * century + 1461 * cycle + 365 * min (day / 365) 3 := by
  rw [eraYear_eq h]
  obtain ⟨-, hcentury, hcycle, hday, -⟩ := h
  have hfour : (100 * century + 4 * cycle + min (day / 365) 3) / 4 = 25 * century + cycle := by
    omega
  have hhundred : (100 * century + 4 * cycle + min (day / 365) 3) / 100 = century := by omega
  rw [hfour, hhundred]
  omega

theorem yearDay_eq (h : IsEraDay doe century cycle day) :
    Date.yearDay doe = day - 365 * min (day / 365) 3 := by
  have hstart := eraYear_start h
  have heq := h.eq
  simp only [Date.yearDay]
  omega

theorem eraYear_lt (h : doe < 146097) : Date.eraYear doe < 400 := by
  obtain ⟨century, cycle, day, hday⟩ := exists_isEraDay h
  rw [eraYear_eq hday]
  obtain ⟨-, hcentury, hcycle, hlt, -⟩ := hday
  omega

/-- No day of the era comes before its year. -/
theorem eraYear_start_le (h : doe < 146097) :
    365 * Date.eraYear doe + Date.eraYear doe / 4 - Date.eraYear doe / 100 ≤ doe := by
  obtain ⟨century, cycle, day, hday⟩ := exists_isEraDay h
  have hstart := eraYear_start hday
  have heq := hday.eq
  omega

end

section

variable (days : ℕ)

/-- The year of a day, begun in March. -/
def marchYear : ℤ := Date.eraYear (Date.eraDay days) + Date.era days * 400

/-- The day of its March year that a day is. -/
def marchYearDay : ℕ := Date.yearDay (Date.eraDay days)

theorem marchStart_add_marchYearDay : marchStart (marchYear days) + marchYearDay days = days := by
  obtain ⟨century, cycle, day, h⟩ := exists_isEraDay (Nat.mod_lt (Date.marchDay days) (by omega))
  unfold marchStart marchYear marchYearDay Date.eraDay
  rw [eraYear_eq h, yearDay_eq h]
  obtain ⟨heq, hcentury, hcycle, hday, hlast⟩ := h
  have hyear : min (day / 365) 3 ≤ 3 := Nat.min_le_right _ _
  have hpast : 365 * min (day / 365) 3 ≤ day := by omega
  have hday : Date.marchDay days = 146097 * Date.era days + Date.marchDay days % 146097 :=
    (Nat.div_add_mod _ _).symm
  generalize min (day / 365) 3 = year at *
  generalize Date.era days = era at *
  have hfour : (((100 * century + 4 * cycle + year : ℕ) : ℤ) + era * 400) / 4
      = 100 * era + 25 * century + cycle := by omega
  have hhundred : (((100 * century + 4 * cycle + year : ℕ) : ℤ) + era * 400) / 100
      = 4 * era + century := by omega
  have hfourHundred : (((100 * century + 4 * cycle + year : ℕ) : ℤ) + era * 400) / 400 = era := by
    omega
  unfold Date.marchDay at *
  rw [hfour, hhundred, hfourHundred]
  omega

theorem marchYearDay_lt : marchYearDay days < yearLength (marchYear days + 1) := by
  obtain ⟨century, cycle, day, h⟩ := exists_isEraDay (Nat.mod_lt (Date.marchDay days) (by omega))
  rw [yearLength_eq]
  unfold marchYear marchYearDay Date.eraDay
  rw [eraYear_eq h, yearDay_eq h]
  obtain ⟨-, hcentury, hcycle, hday, hlast⟩ := h
  split_ifs with hleap
  · omega
  · unfold IsLeap at hleap
    omega

end

/-! ## Days of a March year -/

section

variable {doy : ℕ}

theorem marchMonth_le (h : doy < 366) : Date.marchMonth doy ≤ 11 := by
  unfold Date.marchMonth
  omega

theorem le_of_marchMonth (doy : ℕ) : (153 * Date.marchMonth doy + 2) / 5 ≤ doy := by
  unfold Date.marchMonth
  omega

theorem lt_of_marchMonth (doy : ℕ) : doy < (153 * (Date.marchMonth doy + 1) + 2) / 5 := by
  unfold Date.marchMonth
  omega

theorem lt_of_lt_yearLength {year : ℤ} (h : doy < yearLength year) : doy < 366 := by
  rw [yearLength_eq] at h
  split_ifs at h <;> omega

/-- The last month of a March year ends with the year. -/
theorem monthLength_winter {year : ℤ} (hdoy : doy < yearLength year)
    (hmonth : 9 < Date.marchMonth doy) :
    doy - (153 * Date.marchMonth doy + 2) / 5 + 1
      ≤ monthLength year (Date.marchMonth doy - 9) := by
  have hle := marchMonth_le (lt_of_lt_yearLength hdoy)
  have hlt := lt_of_marchMonth doy
  rw [yearLength_eq] at hdoy
  generalize Date.marchMonth doy = mp at *
  obtain rfl | rfl : mp = 10 ∨ mp = 11 := by omega
  · change _ ≤ 31
    omega
  · change _ ≤ if IsLeap year then 29 else 28
    split_ifs at hdoy ⊢ <;> omega

/-- The day of the calendar by its March year and its day in that. -/
def CalendarDay.ofMarch (year : ℤ) (doy : ℕ) (h : doy < yearLength (year + 1)) : CalendarDay :=
  if hmonth : Date.marchMonth doy ≤ 9 then
    { year := year
      month := Date.marchMonth doy + 3
      day := doy - (153 * Date.marchMonth doy + 2) / 5 + 1
      one_le_month := by omega
      month_le := by omega
      one_le_day := by omega
      day_le := by
        have hlength := monthLength_march year hmonth
        have hlt := lt_of_marchMonth doy
        omega }
  else
    { year := year + 1
      month := Date.marchMonth doy - 9
      day := doy - (153 * Date.marchMonth doy + 2) / 5 + 1
      one_le_month := by omega
      month_le := by
        have hle := marchMonth_le (lt_of_lt_yearLength h)
        omega
      one_le_day := by omega
      day_le := monthLength_winter h (by omega) }

theorem CalendarDay.number_ofMarch {year : ℤ} (h : doy < yearLength (year + 1)) :
    (ofMarch year doy h).number = marchStart year + doy := by
  have hday := le_of_marchMonth doy
  have hyear := yearStart_succ_eq year
  unfold ofMarch
  split_ifs with hmonth
  · have hnext := yearStart_succ year
    have hstart := monthStart_march year hmonth
    simp only [number]
    omega
  · have hwinter : 10 ≤ Date.marchMonth doy := by omega
    have hstart := monthStart_winter (year + 1) hwinter (marchMonth_le (lt_of_lt_yearLength h))
    simp only [number]
    omega

end

/-! ## The date of a day count -/

/-- A date is written as that of a day of the calendar. -/
def Date.IsDay (d : Date) (c : CalendarDay) : Prop :=
  c.year = d.year ∧ c.month = d.month ∧ c.day = d.day

/-- The day of the calendar with a number. -/
def CalendarDay.ofDays (days : ℕ) : CalendarDay :=
  ofMarch (marchYear days) (marchYearDay days) (marchYearDay_lt days)

namespace Date

variable (days : ℕ)

theorem number_ofDays : (CalendarDay.ofDays days).number = days := by
  unfold CalendarDay.ofDays
  rw [CalendarDay.number_ofMarch, marchStart_add_marchYearDay]

theorem isDay_ofDays : (ofDays days).IsDay (CalendarDay.ofDays days) := by
  unfold IsDay CalendarDay.ofDays CalendarDay.ofMarch ofDays
  have hle := marchMonth_le (lt_of_lt_yearLength (marchYearDay_lt days))
  have hyear : marchYear days = eraYear (eraDay days) + era days * 400 := rfl
  have hday : yearDay (eraDay days) = marchYearDay days := rfl
  simp only [hday, hyear]
  split_ifs <;> simp only [and_true] <;> omega

/-- The date of the next count is that of the next day. -/
theorem ofDays_succ : CalendarDay.ofDays (days + 1) = (CalendarDay.ofDays days).next := by
  apply CalendarDay.number_injective
  rw [CalendarDay.number_next, number_ofDays, number_ofDays]
  exact Int.natCast_succ days

end Date

/-! ## In machine words -/

/-- A value of a signed 64-bit word, where the number is one. -/
def signed64 (x : ℤ) : Option ℤ := if -2 ^ 63 ≤ x ∧ x < 2 ^ 63 then some x else none

/-- A value of an unsigned 32-bit word, where the number is one. -/
def unsigned32 (x : ℤ) : Option ℕ := if 0 ≤ x ∧ x < 2 ^ 32 then some x.toNat else none

theorem signed64_eq {x : ℤ} (h : -2 ^ 63 ≤ x ∧ x < 2 ^ 63) : signed64 x = some x := if_pos h

theorem bind_of_eq_some {α β : Type} {x : Option α} {a : α} {f : α → Option β} (h : x = some a) :
    (x >>= f) = f a := by
  rw [h]
  rfl

theorem signed64_bind {α : Type} {x : ℤ} {f : ℤ → Option α} (h : -2 ^ 63 ≤ x ∧ x < 2 ^ 63) :
    (signed64 x >>= f) = f x :=
  bind_of_eq_some (signed64_eq h)

theorem unsigned32_eq {x : ℤ} (h : 0 ≤ x ∧ x < 2 ^ 32) : unsigned32 x = some x.toNat := if_pos h

namespace Date

/-- The year of the era, every step in a 64-bit word. -/
def eraYearInWords (doe : ℤ) : Option ℤ := do
  let fourYears ← signed64 (doe.tdiv 1460)
  let withoutFour ← signed64 (doe - fourYears)
  let centuries ← signed64 (doe.tdiv 36524)
  let withCenturies ← signed64 (withoutFour + centuries)
  let last ← signed64 (doe.tdiv 146096)
  let days ← signed64 (withCenturies - last)
  signed64 (days.tdiv 365)

/-- The day of the March year, every step in a 64-bit word. -/
def yearDayInWords (doe yoe : ℤ) : Option ℤ := do
  let days ← signed64 (365 * yoe)
  let fourYears ← signed64 (yoe.tdiv 4)
  let withFour ← signed64 (days + fourYears)
  let centuries ← signed64 (yoe.tdiv 100)
  let start ← signed64 (withFour - centuries)
  signed64 (doe - start)

/-- The month, counted from March, every step in a 64-bit word. -/
def marchMonthInWords (doy : ℤ) : Option ℤ := do
  let five ← signed64 (5 * doy)
  let shifted ← signed64 (five + 2)
  signed64 (shifted.tdiv 153)

/-- The day of the month, narrowed to a 32-bit word. -/
def dayInWords (doy mp : ℤ) : Option ℕ := do
  let five ← signed64 (153 * mp)
  let shifted ← signed64 (five + 2)
  let start ← signed64 (shifted.tdiv 5)
  let day ← signed64 (doy - start)
  let counted ← signed64 (day + 1)
  unsigned32 counted

/-- The month of the year, narrowed to a 32-bit word. -/
def monthInWords (mp : ℤ) : Option ℕ := do
  let month ← signed64 (if mp < 10 then mp + 3 else mp - 9)
  unsigned32 month

/-- Year, month and day of a day count, every step in a machine word. -/
def ofDaysInWords (days : ℤ) : Option (ℤ × ℕ × ℕ) := do
  let count ← signed64 days
  let march ← signed64 (count + 719468)
  let era ← signed64 (march / 146097)
  let doe ← signed64 (march % 146097)
  let yoe ← eraYearInWords doe
  let doy ← yearDayInWords doe yoe
  let mp ← marchMonthInWords doy
  let day ← dayInWords doy mp
  let month ← monthInWords mp
  let eraStart ← signed64 (era * 400)
  let marchYear ← signed64 (yoe + eraStart)
  let year ← signed64 (marchYear + if month ≤ 2 then 1 else 0)
  some (year, month, day)

section

variable {doe yoe doy mp : ℕ}

theorem eraYearInWords_eq (h : doe < 146097) : eraYearInWords doe = some ↑(eraYear doe) := by
  unfold eraYearInWords
  simp (disch := omega) only [Int.tdiv_eq_ediv_of_nonneg, signed64_bind]
  rw [signed64_eq (by omega)]
  unfold eraYear
  exact congrArg some (by omega)

theorem yearDayInWords_eq (h : doe < 146097) :
    yearDayInWords doe (eraYear doe) = some ↑(yearDay doe) := by
  have hyear := eraYear_lt h
  have hstart := eraYear_start_le h
  unfold yearDayInWords
  simp (disch := omega) only [Int.tdiv_eq_ediv_of_nonneg, signed64_bind]
  rw [signed64_eq (by omega)]
  simp only [yearDay]
  exact congrArg some (by omega)

theorem marchMonthInWords_eq (h : doy < 366) : marchMonthInWords doy = some ↑(marchMonth doy) := by
  unfold marchMonthInWords
  simp (disch := omega) only [Int.tdiv_eq_ediv_of_nonneg, signed64_bind]
  rw [signed64_eq (by omega)]
  unfold marchMonth
  exact congrArg some (by omega)

theorem dayInWords_eq (h : doy < 366) :
    dayInWords doy (marchMonth doy) = some (doy - (153 * marchMonth doy + 2) / 5 + 1) := by
  have hle := marchMonth_le h
  have hday := le_of_marchMonth doy
  unfold dayInWords
  simp (disch := omega) only [Int.tdiv_eq_ediv_of_nonneg, signed64_bind, unsigned32_eq]
  exact congrArg some (by omega)

theorem monthInWords_eq (h : mp ≤ 11) :
    monthInWords mp = some (if mp < 10 then mp + 3 else mp - 9) := by
  unfold monthInWords
  rw [signed64_bind (by split_ifs <;> omega), unsigned32_eq (by split_ifs <;> omega)]
  exact congrArg some (by split_ifs <;> omega)

end

/-- No step overflows a 64-bit word, and narrowing month and day loses nothing. -/
theorem ofDaysInWords_eq {days : ℕ} (h : days ≤ (2 ^ 64 - 1) / 86400) :
    ofDaysInWords days
      = some (((ofDays days).year : ℤ), (ofDays days).month, (ofDays days).day) := by
  have hdoe : eraDay days < 146097 := Nat.mod_lt _ (by omega)
  have hera : ((days : ℤ) + 719468) / 146097 = (era days : ℕ) := by
    unfold era marchDay
    omega
  have hday : ((days : ℤ) + 719468) % 146097 = (eraDay days : ℕ) := by
    unfold eraDay marchDay
    omega
  have hlarge : era days ≤ days + 719468 := Nat.div_le_self _ _
  have hyear := eraYear_lt hdoe
  have hdoy : yearDay (eraDay days) < 366 := lt_of_lt_yearLength (marchYearDay_lt days)
  unfold ofDaysInWords
  rw [signed64_bind (by omega), signed64_bind (by omega), hera, hday, signed64_bind (by omega),
    signed64_bind (by omega),
    bind_of_eq_some (eraYearInWords_eq hdoe), bind_of_eq_some (yearDayInWords_eq hdoe),
    bind_of_eq_some (marchMonthInWords_eq hdoy), bind_of_eq_some (dayInWords_eq hdoy),
    bind_of_eq_some (monthInWords_eq (marchMonth_le hdoy)), signed64_bind (by omega),
    signed64_bind (by omega), signed64_bind (by split_ifs <;> omega)]
  have hyear : ((eraYear (eraDay days) : ℤ) + era days * 400
      + if (ofDays days).month ≤ 2 then 1 else 0) = (ofDays days).year := by
    have hdate : (ofDays days).year = eraYear (eraDay days) + era days * 400
      + if (ofDays days).month ≤ 2 then 1 else 0 := rfl
    rw [hdate]
    split_ifs <;> omega
  exact congrArg (fun year => some (year, (ofDays days).month, (ofDays days).day)) hyear

/-! ## Dates are those of the calendar -/

/-- The date of every day count that a 64-bit number of seconds reaches is that of the one day of
the calendar with this number, the next count has the date of the next day, and machine words
compute it exactly. -/
theorem ofDays_exact {days : ℕ} (h : days ≤ (2 ^ 64 - 1) / 86400) :
    ∃ c : CalendarDay, (ofDays days).IsDay c ∧ c.number = days ∧
      (∀ c' : CalendarDay, c'.number = days → c' = c) ∧
      (ofDays (days + 1)).IsDay c.next ∧
      ofDaysInWords days
        = some (((ofDays days).year : ℤ), (ofDays days).month, (ofDays days).day) := by
  have hnumber := number_ofDays days
  refine ⟨CalendarDay.ofDays days, isDay_ofDays days, hnumber, ?_, ?_, ofDaysInWords_eq h⟩
  · intro c' hc'
    exact CalendarDay.number_injective (hc'.trans hnumber.symm)
  · rw [← ofDays_succ]
    exact isDay_ofDays (days + 1)

theorem ofDays_exact_last :
    ∃ c : CalendarDay, (ofDays 213503982334601).IsDay c ∧ c.number = (213503982334601 : ℕ) ∧
      (∀ c' : CalendarDay, c'.number = (213503982334601 : ℕ) → c' = c) ∧
      (ofDays (213503982334601 + 1)).IsDay c.next ∧
      ofDaysInWords (213503982334601 : ℕ)
        = some (((ofDays 213503982334601).year : ℤ), (ofDays 213503982334601).month,
            (ofDays 213503982334601).day) :=
  @ofDays_exact 213503982334601 (by norm_num)

example : ofDays 11016 = ⟨2000, 2, 29⟩ := by decide

end Date

end Hosted.Log
