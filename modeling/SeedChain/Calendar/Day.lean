/-!
# Days of the calendar

Days are counted from 1 January 1970 in the proleptic Gregorian calendar, which goes on before year
1 with year 0 and negative years. Inside the conversions a year begins in March, so that the leap
day is its last one, and 400 years have the same number of days whatever year they begin with.
-/

namespace SeedChain.Calendar

/-- A day by its year, month and day of the month. -/
structure Date where
  year : Int
  month : Nat
  day : Nat
  deriving DecidableEq, Repr

def isLeapYear (year : Int) : Bool := year % 4 == 0 && (year % 100 != 0 || year % 400 == 0)

/-- The number of days of a month, counted from 1. -/
def daysInMonth (year : Int) (month : Nat) : Nat :=
  if month = 2 then if isLeapYear year then 29 else 28
  else if month ∈ [4, 6, 9, 11] then 30
  else 31

/-- The days of 400 years. -/
def cycle : Int := 146097

/-- The days from 1 March of year 0 to 1 January 1970. -/
def marchOffset : Int := 719468

/-- The month and day exist in the year. -/
def Date.isValid (d : Date) : Bool :=
  1 ≤ d.month && d.month ≤ 12 && 1 ≤ d.day && d.day ≤ daysInMonth d.year d.month

/-- The number of a day. -/
def Date.toDay (d : Date) : Int :=
  let year := if d.month ≤ 2 then d.year - 1 else d.year
  let monthFromMarch : Int := if d.month ≤ 2 then d.month + 9 else d.month - 3
  let yearOfCycle := year % 400
  let dayOfYear := (153 * monthFromMarch + 2) / 5 + d.day - 1
  let dayOfCycle := yearOfCycle * 365 + yearOfCycle / 4 - yearOfCycle / 100 + dayOfYear
  year / 400 * cycle + dayOfCycle - marchOffset

/-- The date of a day. -/
def Date.ofDay (n : Int) : Date :=
  let fromMarch := n + marchOffset
  let dayOfCycle := fromMarch % cycle
  let yearOfCycle :=
    (dayOfCycle - dayOfCycle / 1460 + dayOfCycle / 36524 - dayOfCycle / 146096) / 365
  let dayOfYear := dayOfCycle - (365 * yearOfCycle + yearOfCycle / 4 - yearOfCycle / 100)
  let monthFromMarch := (5 * dayOfYear + 2) / 153
  let day := dayOfYear - (153 * monthFromMarch + 2) / 5 + 1
  let month := if monthFromMarch < 10 then monthFromMarch + 3 else monthFromMarch - 9
  let year := fromMarch / cycle * 400 + yearOfCycle
  ⟨if month ≤ 2 then year + 1 else year, month.toNat, day.toNat⟩

/-- The first day of the calendar. -/
def firstDay : Int := (Date.mk (-262143) 1 1).toDay

/-- The last day of the calendar. -/
def lastDay : Int := (Date.mk 262142 12 31).toDay

/-- The weekday: 0 is Monday. -/
def weekday (n : Int) : Nat := ((n + 3) % 7).toNat

/-- The number of a day within its year, counted from 1. -/
def ordinal (n : Int) : Nat := (n - (Date.mk (Date.ofDay n).year 1 1).toDay + 1).toNat

/-- The year and number of the week of a day. Weeks begin on Monday and belong to the year of their
Thursday. -/
def week (n : Int) : Int × Nat :=
  let thursday := n - weekday n + 3
  ((Date.ofDay thursday).year, (ordinal thursday - 1) / 7 + 1)

/-- The number of weeks that have begun in the year of a day, a week beginning `start` days after
Monday. -/
def weeksBegun (start : Nat) (n : Int) : Nat := (ordinal n + 6 - (weekday n + 7 - start) % 7) / 7

end SeedChain.Calendar
