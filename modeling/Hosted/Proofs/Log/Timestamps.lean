import Hosted.Proofs.Log.Calendar
import Hosted.Proofs.Text.Decimal
import Mathlib.Data.String.Basic

/-!
# Timestamps

The text of an instant tells its millisecond, and no more of it: two instants have the same
text where they fall in the same millisecond and nowhere else. Up to the year 9999 the texts
are in the order of the milliseconds. A later year may have more digits than an earlier one, so
that from then on the order is one of lengths first.

The fields of a text, from the year down to the millisecond, are in lexicographic order as
lists of numbers. All but the year keep to their widths; so of two texts with different fields
the later one is longer, in its year, or as long and greater in the first field in which they
differ.
-/

namespace Hosted.Log

/-! ## Rows of numbers -/

/-- What follows two lists of one length leaves them in their order. -/
theorem lex_append {α : Type} {r : α → α → Prop} {front front' : List α}
    (h : List.Lex r front front') (hlength : front.length = front'.length) (rest rest' : List α) :
    List.Lex r (front ++ rest) (front' ++ rest') := by
  induction h with
  | nil => cases hlength
  | cons _ ih => exact .cons (ih (Nat.succ.inj hlength))
  | rel hlt => exact .rel hlt

theorem shortlex_append {front front' rest rest' : List Char}
    (h : List.Shortlex (· < ·) front front') (hrest : rest.length = rest'.length) :
    List.Shortlex (· < ·) (front ++ rest) (front' ++ rest') := by
  rw [List.shortlex_def, List.length_append, List.length_append]
  rcases List.shortlex_def.1 h with hlt | ⟨heq, hlex⟩
  · exact .inl (by omega)
  · exact .inr ⟨by omega, lex_append hlex heq rest rest'⟩

/-- The number fits the width of its field. -/
def FitsField (field : ℕ × Char) (n : ℕ) : Prop := 0 < field.1 ∧ n < 10 ^ field.1

/-- Numbers in a row: each is padded to the width of its field and followed by its mark. -/
def row : List (ℕ × Char) → List ℕ → List Char
  | field :: layout, n :: ns => paddedDigits field.1 n ++ field.2 :: row layout ns
  | _, _ => []

section

variable {layout : List (ℕ × Char)} {ns ns' : List ℕ}

theorem length_row (h : List.Forall₂ FitsField layout ns) :
    (row layout ns).length = (layout.map fun field => field.1 + 1).sum := by
  induction h with
  | nil => rfl
  | cons hn _ ih =>
      rw [row, List.length_append, List.length_cons, length_paddedDigits_of_lt hn.1 hn.2, ih,
        List.map_cons, List.sum_cons, Nat.add_comm _ 1, ← Nat.add_assoc]

/-- The first number in which two rows differ decides between them, since the numbers after it
fit their fields. It need not fit its own. -/
theorem shortlex_row (field : ℕ × Char) {n n' : ℕ} (hns : List.Forall₂ FitsField layout ns)
    (hns' : List.Forall₂ FitsField layout ns') (h : n :: ns < n' :: ns') :
    List.Shortlex (· < ·) (row (field :: layout) (n :: ns))
      (row (field :: layout) (n' :: ns')) := by
  induction layout generalizing field n n' ns ns' with
  | nil =>
      cases hns
      cases hns'
      rcases List.cons_lt_cons_iff.1 h with hlt | ⟨-, hlt⟩
      · exact shortlex_append (shortlex_paddedDigits _ hlt) rfl
      · exact absurd hlt (List.not_lt_nil _)
  | cons field' layout ih =>
      rcases List.cons_lt_cons_iff.1 h with hlt | ⟨rfl, hlt⟩
      · refine shortlex_append (shortlex_paddedDigits _ hlt) ?_
        rw [List.length_cons, List.length_cons, length_row hns, length_row hns']
      · obtain ⟨⟩ | ⟨-, htail⟩ := hns
        obtain ⟨⟩ | ⟨-, htail'⟩ := hns'
        exact (List.Shortlex.cons (ih field' htail htail' hlt)).append_left _

end

/-! ## The fields of a millisecond -/

/-- Year, month and day of a day count. -/
def dateFields (days : ℕ) : List ℕ :=
  [(Date.ofDays days).year, (Date.ofDays days).month, (Date.ofDays days).day]

/-- Of two days of the calendar, the fields of the later one come later. -/
theorem strictMono_dateFields : StrictMono dateFields := by
  intro days days' h
  obtain ⟨hyear, hmonth, hday⟩ := Date.isDay_ofDays days
  obtain ⟨hyear', hmonth', hday'⟩ := Date.isDay_ofDays days'
  have hnumber : (CalendarDay.ofDays days).number < (CalendarDay.ofDays days').number := by
    rw [Date.number_ofDays, Date.number_ofDays]
    exact Int.ofNat_lt.2 h
  have horder := CalendarDay.lt_of_number_lt hnumber
  rw [hyear, hyear', hmonth, hmonth', hday, hday', Int.ofNat_lt, Int.natCast_inj] at horder
  simpa only [dateFields, List.cons_lt_cons_iff, List.not_lt_nil, and_false, or_false] using horder

/-- The fields of a count of small units: those of the large units in it, then the small ones
left over. -/
def finerFields (base : ℕ) (fields : ℕ → List ℕ) (count : ℕ) : List ℕ :=
  fields (count / base) ++ [count % base]

theorem strictMono_finerFields (base size : ℕ) {fields : ℕ → List ℕ}
    (hsize : ∀ count, (fields count).length = size) (hfields : StrictMono fields) :
    StrictMono (finerFields base fields) := by
  intro count count' h
  rcases Nat.lt_or_eq_of_le (Nat.div_le_div_right h.le : count / base ≤ count' / base)
    with hlt | heq
  · exact lex_append (hfields hlt) ((hsize _).trans (hsize _).symm) _ _
  · have hsplit := Nat.div_add_mod count base
    have hsplit' := Nat.div_add_mod count' base
    rw [← heq] at hsplit'
    unfold finerFields
    rw [heq]
    exact List.Lex.append_left _ (.rel (by omega)) _

/-- Year, month, day, hour, minute, second and millisecond of a millisecond counted from the
start of 1970. -/
def stampFields : ℕ → List ℕ :=
  finerFields 1000 (finerFields 60 (finerFields 60 (finerFields 24 dateFields)))

theorem strictMono_stampFields : StrictMono stampFields := by
  refine strictMono_finerFields 1000 6 (fun _ => rfl) ?_
  refine strictMono_finerFields 60 5 (fun _ => rfl) ?_
  refine strictMono_finerFields 60 4 (fun _ => rfl) ?_
  exact strictMono_finerFields 24 3 (fun _ => rfl) strictMono_dateFields

/-! ## The text of a millisecond -/

/-- The widths of the fields of a timestamp and the marks after them. -/
def stampLayout : List (ℕ × Char) :=
  [(4, '-'), (2, '-'), (2, 'T'), (2, ':'), (2, ':'), (2, '.'), (3, 'Z')]

/-- The text of a millisecond counted from the start of 1970. -/
def stamp (count : ℕ) : List Char := row stampLayout (stampFields count)

section

variable {count count' : ℕ}

/-- The fields of a millisecond, each from the whole seconds as the time of day is. -/
theorem stampFields_eq {seconds milliseconds : ℕ} (hseconds : count / 1000 = seconds)
    (hmilliseconds : count % 1000 = milliseconds) :
    stampFields count = dateFields (seconds / 86400) ++
      [seconds % 86400 / 3600, seconds % 3600 / 60, seconds % 60, milliseconds] := by
  have hday : seconds / 60 / 60 / 24 = seconds / 86400 := by omega
  have hhour : seconds / 60 / 60 % 24 = seconds % 86400 / 3600 := by omega
  have hminute : seconds / 60 % 60 = seconds % 3600 / 60 := by omega
  simp only [stampFields, finerFields, hseconds, hday, hhour, hminute, hmilliseconds,
    List.append_assoc, List.cons_append, List.nil_append]

theorem row_stampLayout (d : Date) (hour minute second millisecond : ℕ) :
    row stampLayout ([d.year, d.month, d.day] ++ [hour, minute, second, millisecond]) =
      d.text ++ 'T' :: (paddedDigits 2 hour ++ ':' :: paddedDigits 2 minute ++
        ':' :: paddedDigits 2 second ++ '.' :: paddedDigits 3 millisecond) ++ ['Z'] := by
  unfold Date.text stampLayout
  simp only [List.cons_append, List.nil_append, row, List.append_assoc]

/-- Every field fits its width, but for the year. -/
theorem fits_stampFields (count : ℕ) :
    List.Forall₂ FitsField stampLayout.tail (stampFields count).tail := by
  have hdays := Date.isDay_ofDays (count / 1000 / 60 / 60 / 24)
  set days := count / 1000 / 60 / 60 / 24
  have hlength := monthLength_le (CalendarDay.ofDays days).year (CalendarDay.ofDays days).month
  have hmonth_le := (CalendarDay.ofDays days).month_le
  have hday_le := (CalendarDay.ofDays days).day_le
  obtain ⟨-, hmonth, hday⟩ := hdays
  have htail : (stampFields count).tail = [(Date.ofDays days).month, (Date.ofDays days).day,
    count / 1000 / 60 / 60 % 24, count / 1000 / 60 % 60, count / 1000 % 60, count % 1000] := rfl
  rw [htail]
  simp only [stampLayout, List.tail_cons, List.forall₂_cons, FitsField,
    List.forall₂_nil_left_iff, and_true]
  omega

/-- A later millisecond has a longer text, or one as long that comes later. -/
theorem shortlex_stamp (h : count < count') :
    List.Shortlex (· < ·) (stamp count) (stamp count') :=
  shortlex_row _ (fits_stampFields count) (fits_stampFields count') (strictMono_stampFields h)

/-- A text is that of one millisecond. -/
theorem stamp_injective : Function.Injective stamp := by
  have hirrefl : Std.Irrefl (List.Shortlex (α := Char) (· < ·)) := List.Shortlex.asymm.irrefl
  intro count count' heq
  rcases lt_trichotomy count count' with hlt | rfl | hgt
  · have hlater := shortlex_stamp hlt
    rw [heq] at hlater
    exact absurd hlater (hirrefl.irrefl _)
  · rfl
  · have hlater := shortlex_stamp hgt
    rw [heq] at hlater
    exact absurd hlater (hirrefl.irrefl _)

theorem yearStart_tenThousand : yearStart 10000 = 2932897 := yearStart_succ_eq 9999

/-- A day before a year begins is of an earlier year. -/
theorem year_ofDays_lt {days : ℕ} {year : ℤ} (h : days < yearStart year) :
    (Date.ofDays days).year < year := by
  obtain ⟨hyear, -, -⟩ := Date.isDay_ofDays days
  rw [← hyear]
  by_contra hge
  have hstart := yearStart_succ_le (show year - 1 < (CalendarDay.ofDays days).year by omega)
  have hnumber := Date.number_ofDays days
  rw [sub_add_cancel] at hstart
  unfold CalendarDay.number at hnumber
  omega

/-- The texts of the years of four digits are all as long. -/
theorem length_stamp (h : count < yearStart 10000 * 86400000) : (stamp count).length = 24 := by
  have hyear : (Date.ofDays (count / 1000 / 60 / 60 / 24)).year < (10000 : ℤ) :=
    year_ofDays_lt (by omega)
  have hfits : List.Forall₂ FitsField stampLayout (stampFields count) :=
    .cons ⟨Nat.succ_pos 3, Int.ofNat_lt.1 hyear⟩ (fits_stampFields count)
  exact length_row hfits

theorem strictMonoOn_stamp :
    StrictMonoOn stamp {count : ℕ | count < yearStart 10000 * 86400000} := by
  intro count hcount count' hcount' h
  have hlength := (length_stamp hcount).trans (length_stamp hcount').symm
  exact (List.shortlex_iff_lex hlength).1 (shortlex_stamp h)

end

/-! ## The text of an instant -/

namespace Instant

/-- A reading of a clock that does not stand before 1970. -/
structure IsReading (t : Instant) : Prop where
  seconds : 0 ≤ t.seconds
  nanoseconds : t.nanoseconds < 10 ^ 9

/-- The millisecond that an instant falls in, counted from the start of 1970. -/
def millisecond (t : Instant) : ℤ := (t.seconds * 10 ^ 9 + t.nanoseconds) / 10 ^ 6

variable {t t' : Instant}

theorem IsReading.millisecond_eq (h : t.IsReading) :
    t.millisecond = (t.wholeSeconds * 1000 + t.milliseconds : ℕ) := by
  obtain ⟨hseconds, hnanoseconds⟩ := h
  unfold millisecond wholeSeconds milliseconds
  rw [if_neg (by omega)]
  omega

theorem IsReading.milliseconds_lt (h : t.IsReading) : t.milliseconds < 1000 := by
  have hnanoseconds := h.nanoseconds
  unfold milliseconds
  split_ifs <;> omega

/-- The text of an instant is that of its millisecond. -/
theorem IsReading.timestamp_eq (h : t.IsReading) :
    t.timestamp = String.ofList (stamp (t.wholeSeconds * 1000 + t.milliseconds)) := by
  have hlt := h.milliseconds_lt
  have hfields := stampFields_eq
    (show (t.wholeSeconds * 1000 + t.milliseconds) / 1000 = t.wholeSeconds by omega)
    (show (t.wholeSeconds * 1000 + t.milliseconds) % 1000 = t.milliseconds by omega)
  unfold timestamp timeOfDay stamp
  rw [hfields, dateFields, row_stampLayout]

/-- Instants have one text exactly if they fall in one millisecond, and before the year 10000
their texts are in the order of the milliseconds. -/
theorem timestamp_faithful (h : t.IsReading) (h' : t'.IsReading) :
    (t.timestamp = t'.timestamp ↔ t.millisecond = t'.millisecond) ∧
      (t.seconds < yearStart 10000 * 86400 → t'.seconds < yearStart 10000 * 86400 →
        (t.timestamp < t'.timestamp ↔ t.millisecond < t'.millisecond)) := by
  rw [h.timestamp_eq, h'.timestamp_eq, h.millisecond_eq, h'.millisecond_eq]
  constructor
  · rw [String.ofList_inj, stamp_injective.eq_iff, Int.natCast_inj]
  · intro hyear hyear'
    have hwhole {u : Instant} (hu : u.IsReading) (hyear : u.seconds < yearStart 10000 * 86400) :
        ((u.wholeSeconds * 1000 + u.milliseconds : ℕ) : ℤ) < yearStart 10000 * 86400000 := by
      have hmillisecond := hu.millisecond_eq
      obtain ⟨hseconds, hnanoseconds⟩ := hu
      unfold millisecond at hmillisecond
      omega
    rw [String.lt_iff_toList_lt, String.toList_ofList, String.toList_ofList,
      strictMonoOn_stamp.lt_iff_lt (hwhole h hyear) (hwhole h' hyear'), Int.ofNat_lt]

theorem timestamp_faithful_lastMillisecond :
    (⟨253402300799, 998999999⟩ : Instant).timestamp <
        (⟨253402300799, 999000000⟩ : Instant).timestamp ∧
      (⟨253402300799, 999000000⟩ : Instant).timestamp =
        (⟨253402300799, 999999999⟩ : Instant).timestamp := by
  have hyear : (253402300799 : ℤ) < yearStart 10000 * 86400 := by
    rw [yearStart_tenThousand]
    decide
  have hbefore := @timestamp_faithful ⟨253402300799, 998999999⟩ ⟨253402300799, 999000000⟩
    ⟨by decide, by decide⟩ ⟨by decide, by decide⟩
  have hwithin := @timestamp_faithful ⟨253402300799, 999000000⟩ ⟨253402300799, 999999999⟩
    ⟨by decide, by decide⟩ ⟨by decide, by decide⟩
  exact ⟨(hbefore.2 hyear hyear).2 (by decide), hwithin.1.2 (by decide)⟩

example : (⟨253402300799, 999000000⟩ : Instant).timestamp = "9999-12-31T23:59:59.999Z" := by
  decide

end Instant

end Hosted.Log
