/-
  Moments: a date with a time of day, without a zone. A moment is also a number of seconds after
  1970-01-01 00:00:00; the years that have one are limited.
-/
import Interpolation.Calendar.Date

namespace Interpolation.Calendar

/-- A date and a time of day. A leap second is counted as a second and a billion nanoseconds. -/
structure Moment where
  date : Date
  hour : Nat
  minute : Nat
  second : Nat
  nanosecond : Nat := 0
deriving DecidableEq, Repr

/-- The years that moments may lie in. -/
def firstYear : Int := -262143

def lastYear : Int := 262142

namespace Moment

/-- The seconds since midnight. -/
def secondOfDay (m : Moment) : Nat := 3600 * m.hour + 60 * m.minute + m.second

/-- The second as it is shown; a leap second shows as 60. -/
def shownSecond (m : Moment) : Nat := m.second + m.nanosecond / 1000000000

/-- The moment at the given second of a day. -/
def ofSecondOfDay (date : Date) (seconds nanosecond : Nat) : Moment :=
  { date, hour := seconds / 3600, minute := seconds / 60 % 60, second := seconds % 60, nanosecond }

/-- The moment a number of seconds after 1970-01-01 00:00:00. -/
def ofSeconds (seconds : Int) : Moment :=
  ofSecondOfDay (.ofDayNumber (seconds / 86400)) (seconds % 86400).toNat 0

/-- The same, unless it lies outside the years of moments. -/
def ofSeconds? (seconds : Int) : Option Moment :=
  let m := ofSeconds seconds
  if firstYear ≤ m.date.year ∧ m.date.year ≤ lastYear then some m else none

/-- The moment on a clock that runs a number of seconds ahead. -/
def shift (m : Moment) (seconds : Int) : Moment :=
  let total := m.secondOfDay + seconds
  ofSecondOfDay (.ofDayNumber (m.date.dayNumber + total / 86400)) (total % 86400).toNat m.nanosecond

end Moment

end Interpolation.Calendar
