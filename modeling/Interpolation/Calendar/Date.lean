/-
  Dates of the proleptic Gregorian calendar and their day numbers: days are counted from
  1970-01-01, negative before it. Every 400 years the calendar repeats after 146097 days.
-/
namespace Interpolation.Calendar

/-- A date; year 0 is the year before year 1. -/
structure Date where
  year : Int
  month : Nat
  day : Nat
deriving DecidableEq, Repr

def isLeap (year : Int) : Bool :=
  year % 4 == 0 && (year % 100 != 0 || year % 400 == 0)

/-- The days of the twelve months. -/
def monthLengths (leap : Bool) : List Nat :=
  [31, if leap then 29 else 28, 31, 30, 31, 30, 31, 31, 30, 31, 30, 31]

/-- The days of the given year before a month, counted from 1. -/
def daysBeforeMonth (leap : Bool) (month : Nat) : Nat :=
  ((monthLengths leap).take (month - 1)).foldl (· + ·) 0

/-- The days from 0001-01-01 up to the first day of a year. -/
def daysBeforeYear (year : Int) : Int :=
  365 * (year - 1) + (year - 1) / 4 - (year - 1) / 100 + (year - 1) / 400

/-- The day number of 0001-01-01. -/
def firstDay : Int := -719162

namespace Date

/-- The month is one of the year, and the day one of the month. -/
def Valid (d : Date) : Prop :=
  1 ≤ d.month ∧ 1 ≤ d.day ∧ ∃ n, (monthLengths (isLeap d.year))[d.month - 1]? = some n ∧ d.day ≤ n

def dayNumber (d : Date) : Int :=
  firstDay + daysBeforeYear d.year + daysBeforeMonth (isLeap d.year) d.month + (d.day - 1)

/-- The month and the day in it that lie a number of days after the first of `month`. -/
def ofDays (month : Nat) : List Nat → Nat → Nat × Nat
  | [], days => (month, days + 1)
  | n :: ns, days => if days < n then (month, days + 1) else ofDays (month + 1) ns (days - n)

/-- The date with the given day number. -/
def ofDayNumber (number : Int) : Date :=
  let days := number - firstDay
  let cycle := days / 146097
  let inCycle := (days % 146097).toNat
  let century := min (inCycle / 36524) 3
  let inCentury := inCycle - 36524 * century
  let quad := inCentury / 1461
  let inQuad := inCentury - 1461 * quad
  let single := min (inQuad / 365) 3
  let year := 400 * cycle + (100 * century + 4 * quad + single + 1 : Nat)
  let (month, day) := ofDays 1 (monthLengths (isLeap year)) (inQuad - 365 * single)
  { year, month, day }

end Date

end Interpolation.Calendar
