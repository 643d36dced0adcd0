import ProbeGap.Numeric.Count

/-!
# The calendar

Days are counted from 1970-01-01 in the Gregorian calendar, extended to all years.
Both directions of the count rest on one function, `daysBeforeYear`: the days of a date
are those before its year and those before it within the year, and the year of a day is
the one whose first day is the last not after it.

## Contents

  * `Date`, `Date.isValid`: year, month and day, and when they name a day.
  * `Date.toDays`, `Date.ofDays`: the two directions of the count.
-/

namespace ProbeGap

/-! ## §1. Years -/

/-- Every fourth year is a leap year, except the hundredth ones that no four hundred divides. -/
def isLeapYear (year : Int) : Bool :=
  year % 4 == 0 && (year % 100 != 0 || year % 400 == 0)

/-- The days from the first of January of year zero to that of the given year. -/
def daysBeforeYear (year : Int) : Int :=
  365 * year + (year + 3) / 4 - (year + 99) / 100 + (year + 399) / 400

/-- The day 1970-01-01, counted from the first day of year zero. -/
def epochDay : Int := daysBeforeYear 1970

/-- The year that holds a day counted from the first day of year zero. The mean length
of a year gives a guess that is at most one off. -/
def yearOfDay (day : Int) : Int :=
  let guess := day * 400 / 146097
  if day < daysBeforeYear guess then guess - 1
  else if daysBeforeYear (guess + 1) ≤ day then guess + 1
  else guess

/-! ## §2. Months -/

/-- The lengths of the twelve months. -/
def monthLengths (leap : Bool) : List Nat :=
  [31, if leap then 29 else 28, 31, 30, 31, 30, 31, 31, 30, 31, 30, 31]

/-- Walk through months of the given lengths: how many lie wholly before a day, and how
many days of the month that holds it do. -/
def splitByMonth : List Nat → Nat → Nat × Nat
  | [], day => (0, day)
  | length :: rest, day =>
    if day < length then (0, day)
    else
      let (months, left) := splitByMonth rest (day - length)
      (months + 1, left)

/-! ## §3. Dates -/

/-- A day named by year, month and day of the month, both counted from one. -/
structure Date where
  year : Int
  month : Nat
  day : Nat
  deriving DecidableEq, Repr

namespace Date

/-- Whether the month exists and has the day. -/
def isValid (d : Date) : Bool :=
  1 ≤ d.month && 1 ≤ d.day &&
    match (monthLengths (isLeapYear d.year))[d.month - 1]? with
    | some length => d.day ≤ length
    | none => false

/-- Days of the year before the date. -/
def dayOfYear (d : Date) : Nat :=
  total ((monthLengths (isLeapYear d.year)).take (d.month - 1)) + (d.day - 1)

/-- Days from 1970-01-01 to the date. -/
def toDays (d : Date) : Int :=
  daysBeforeYear d.year + d.dayOfYear - epochDay

/-- The date a number of days after 1970-01-01. -/
def ofDays (days : Int) : Date :=
  let day := days + epochDay
  let year := yearOfDay day
  let (months, left) :=
    splitByMonth (monthLengths (isLeapYear year)) (day - daysBeforeYear year).toNat
  ⟨year, months + 1, left + 1⟩

end Date
end ProbeGap
