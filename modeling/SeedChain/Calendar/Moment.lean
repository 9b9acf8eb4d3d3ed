import SeedChain.Calendar.Day
/-!
# Moments

A moment is a day and a time of day, without a time zone. A leap second is written as a second that
lasts two: its fraction goes on past one second.
-/

namespace SeedChain.Calendar

/-- A date and time. -/
structure Moment where
  /-- The number of the day. -/
  day : Int
  /-- The seconds since midnight. -/
  second : Nat
  /-- The fraction of the second, in nanoseconds; more than a whole second inside a leap second. -/
  nanos : Nat
  day_mem : firstDay ≤ day ∧ day ≤ lastDay
  second_lt : second < 86400
  nanos_lt : nanos < 2000000000
  deriving DecidableEq, Repr

namespace Moment

/-- The moment with given parts, if there is one. -/
def ofParts? (day : Int) (second nanos : Nat) : Option Moment :=
  if h : (firstDay ≤ day ∧ day ≤ lastDay) ∧ second < 86400 ∧ nanos < 2000000000 then
    some ⟨day, second, nanos, h.1, h.2.1, h.2.2⟩
  else none

def date (m : Moment) : Date := Date.ofDay m.day

/-- The moment is inside a leap second. -/
def isLeap (m : Moment) : Bool := 1000000000 ≤ m.nanos

/-- The seconds since the beginning of 1970. -/
def timestamp (m : Moment) : Int := 86400 * m.day + m.second

/-- The milliseconds since the beginning of 1970. -/
def epoch (m : Moment) : Int := 1000 * m.timestamp + (m.nanos / 1000000 : Nat)

/-- The moment a number of seconds after the beginning of 1970. -/
def ofTimestamp? (seconds : Int) (nanos : Nat) : Option Moment :=
  ofParts? (seconds / 86400) (seconds % 86400).toNat nanos

/-- The moment a number of milliseconds after the beginning of 1970. -/
def ofEpoch? (millis : Int) : Option Moment :=
  ofTimestamp? (millis / 1000) ((millis % 1000).toNat * 1000000)

/-- A moment a number of seconds later. Out of a leap second one comes forward from the second it
belongs to, and backward from the one after it. -/
def addSeconds? (m : Moment) (n : Int) : Option Moment :=
  if m.isLeap then
    if n = 0 then some m
    else ofTimestamp? (m.timestamp + n + if n < 0 then 1 else 0) (m.nanos - 1000000000)
  else ofTimestamp? (m.timestamp + n) m.nanos

/-- A moment a number of months later, on the last day of a month that is too short. -/
def addMonths? (m : Moment) (n : Int) : Option Moment :=
  let date := m.date
  let months := 12 * date.year + date.month - 1 + n
  let year := months / 12
  let month := (months % 12).toNat + 1
  ofParts? (Date.mk year month (min date.day (daysInMonth year month))).toDay m.second m.nanos

end Moment

end SeedChain.Calendar
