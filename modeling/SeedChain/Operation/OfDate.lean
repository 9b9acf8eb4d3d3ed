import SeedChain.Operation.Basic
/-!
# Operations on dates

Shifts keep the pattern; one that leaves the calendar is refused.
-/

namespace SeedChain.DateValue

open Calendar

/-- An operation that moves the date by a number of units. -/
def shifting (name : String) (shift : Moment → Int → Option Moment) : Operation DateValue :=
  .fixed name 1 fun _ d args => do
    let amount := (← args.int? 0 name).getD 0
    match shift d.moment amount with
    | some moment => goOn (.date { d with moment })
    | none => refuse name .dateOutOfRange

/-- Changes the pattern. -/
def setPattern : Body DateValue := fun _ d args =>
  match args.get? 0 with
  | none => goOn (.date { d with pattern := plainPattern })
  | some t =>
    match Pattern.read? t with
    | some pattern => goOn (.date { d with pattern })
    | none => refuse "format" (.invalidDatePattern t)

def operations : List (Operation DateValue) := Operation.withShared [
  shifting "addYear" fun m n => m.addMonths? (12 * n),
  shifting "addMonth" Moment.addMonths?,
  shifting "addDay" fun m n => m.addSeconds? (86400 * n),
  shifting "addHour" fun m n => m.addSeconds? (3600 * n),
  shifting "addMinute" fun m n => m.addSeconds? (60 * n),
  shifting "addSecond" Moment.addSeconds?,
  .fixed "format" 1 setPattern,
  .fixed "dayOfWeek" 0 fun _ d _ => goOn (.text (Pattern.weekdayName d.moment)),
  .fixed "epoch" 0 fun _ d _ => goOn (.number (.ofInt d.moment.epoch))]

end SeedChain.DateValue
