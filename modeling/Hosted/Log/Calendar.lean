import Hosted.Text.Decimal

/-!
# Instants and dates

The date of a day counted from 1970-01-01, in the Gregorian calendar extended to
all years, and the text of an instant with milliseconds. The year is taken to
begin in March, so that the leap day comes last.
-/

namespace Hosted.Log

/-- A point in time: seconds since the start of 1970 and nanoseconds in the
second. -/
structure Instant where
  seconds : Int
  nanoseconds : Nat
  deriving DecidableEq, Repr

/-- A calendar date. -/
structure Date where
  year : Nat
  month : Nat
  day : Nat
  deriving DecidableEq, Repr

namespace Date

/-- Days from the first of March of the year 0. -/
def marchDay (days : Nat) : Nat := days + 719468

/-- The number of the 400-year era. -/
def era (days : Nat) : Nat := marchDay days / 146097

/-- The day of the era. -/
def eraDay (days : Nat) : Nat := marchDay days % 146097

/-- The year of the era that a day of the era falls in. -/
def eraYear (doe : Nat) : Nat := (doe - doe / 1460 + doe / 36524 - doe / 146096) / 365

/-- The day of its March year that a day of the era is. -/
def yearDay (doe : Nat) : Nat :=
  let yoe := eraYear doe
  doe - (365 * yoe + yoe / 4 - yoe / 100)

/-- The month, counted from March, of a day of the March year. -/
def marchMonth (doy : Nat) : Nat := (5 * doy + 2) / 153

/-- The date `days` days after 1970-01-01. -/
def ofDays (days : Nat) : Date :=
  let doe := eraDay days
  let doy := yearDay doe
  let mp := marchMonth doy
  let month := if mp < 10 then mp + 3 else mp - 9
  { year := eraYear doe + era days * 400 + if month ≤ 2 then 1 else 0
    month := month
    day := doy - (153 * mp + 2) / 5 + 1 }

/-- The text `2024-02-29`. -/
def text (d : Date) : List Char :=
  paddedDigits 4 d.year ++ '-' :: paddedDigits 2 d.month ++ '-' :: paddedDigits 2 d.day

end Date

namespace Instant

/-- Seconds since the start of 1970; an earlier instant counts as that start. -/
def wholeSeconds (t : Instant) : Nat := t.seconds.toNat

/-- The milliseconds in the second, fractions cut off. -/
def milliseconds (t : Instant) : Nat :=
  if t.seconds < 0 then 0 else t.nanoseconds / 1000000

/-- The time of day `23:59:59.999`. -/
def timeOfDay (t : Instant) : List Char :=
  let s := t.wholeSeconds
  paddedDigits 2 (s % 86400 / 3600) ++ ':' :: paddedDigits 2 (s % 3600 / 60) ++
    ':' :: paddedDigits 2 (s % 60) ++ '.' :: paddedDigits 3 t.milliseconds

/-- The text `2024-02-29T23:59:59.999Z` of an instant, in UTC. -/
def timestamp (t : Instant) : String :=
  String.ofList
    ((Date.ofDays (t.wholeSeconds / 86400)).text ++ 'T' :: t.timeOfDay ++ ['Z'])

end Instant

end Hosted.Log
