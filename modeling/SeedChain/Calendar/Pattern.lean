import SeedChain.Text.Integer
import SeedChain.Calendar.Moment
/-!
# Date patterns

A pattern is a sequence of fields and literal text; in text a field is a percent sign and a letter,
as in `%Y-%m-%d`. This module reads patterns and writes moments by them. A field of a time zone is
allowed in a pattern, but no moment can be written by it.
-/

namespace SeedChain.Calendar

/-- How a number is filled up to its width. -/
inductive Pad where
  | none
  | zero
  | space
  deriving DecidableEq, Repr

/-- The numbers a pattern can ask for. -/
inductive NumericField where
  | year
  | century
  | yearOfCentury
  | weekYear
  | weekYearOfCentury
  | quarter
  | month
  | day
  /-- The number of weeks begun in the year, weeks beginning on Sunday. -/
  | weekFromSunday
  /-- The number of weeks begun in the year, weeks beginning on Monday. -/
  | weekFromMonday
  /-- The week by the rule that it belongs to the year of its Thursday. -/
  | week
  /-- The weekday with Sunday as 0. -/
  | weekdayFromSunday
  /-- The weekday with Monday as 1. -/
  | weekdayFromMonday
  | dayOfYear
  | hour
  /-- The hour on a clock face. -/
  | hour12
  | minute
  | second
  | nanosecond
  | timestamp
  deriving DecidableEq, Repr

/-- The words a pattern can ask for. -/
inductive WordField where
  | shortMonth
  | longMonth
  | shortWeekday
  | longWeekday
  | lowerHalfDay
  | upperHalfDay
  deriving DecidableEq, Repr

/-- A part of a pattern. -/
inductive PatternItem where
  | literal (t : Text)
  | blank (t : Text)
  | number (field : NumericField) (pad : Pad)
  | word (field : WordField)
  /-- The fraction of the second behind a point, as long as it needs to be; nothing when zero. -/
  | fraction
  /-- So many digits of the fraction, behind a point or not. -/
  | digits (count : Nat) (point : Bool)
  /-- A time zone. -/
  | zone
  deriving DecidableEq, Repr

/-- The parts of a pattern in order. -/
abbrev Pattern := List PatternItem

namespace Pattern

/-! ## Patterns in text -/

/-- A number filled up with zeros. -/
def zeros (field : NumericField) : PatternItem := .number field .zero

/-- A number filled up with blanks. -/
def blanks (field : NumericField) : PatternItem := .number field .space

/-- A number that is not filled up. -/
def bare (field : NumericField) : PatternItem := .number field .none

/-- A character of its own. -/
def sign (c : Char) : PatternItem := .literal [c]

def dayPattern : Pattern := [zeros .year, sign '-', zeros .month, sign '-', zeros .day]

def minutePattern : Pattern := [zeros .hour, sign ':', zeros .minute]

def timePattern : Pattern := minutePattern ++ [sign ':', zeros .second]

def slashPattern (yearField : NumericField) : Pattern :=
  [zeros .month, sign '/', zeros .day, sign '/', zeros yearField]

/-- A single blank. -/
def space : PatternItem := .blank [' ']

/-- What a letter behind a percent sign stands for. -/
def ofLetter? : Char → Option Pattern
  | 'A' => some [.word .longWeekday]
  | 'B' => some [.word .longMonth]
  | 'C' => some [zeros .century]
  | 'D' => some (slashPattern .yearOfCentury)
  | 'F' => some dayPattern
  | 'G' => some [zeros .weekYear]
  | 'H' => some [zeros .hour]
  | 'I' => some [zeros .hour12]
  | 'M' => some [zeros .minute]
  | 'P' => some [.word .lowerHalfDay]
  | 'R' => some minutePattern
  | 'S' => some [zeros .second]
  | 'T' => some timePattern
  | 'U' => some [zeros .weekFromSunday]
  | 'V' => some [zeros .week]
  | 'W' => some [zeros .weekFromMonday]
  | 'X' => some timePattern
  | 'Y' => some [zeros .year]
  | 'Z' => some [.zone]
  | 'a' => some [.word .shortWeekday]
  | 'b' => some [.word .shortMonth]
  | 'c' => some ([.word .shortWeekday, space, .word .shortMonth, space, blanks .day, space] ++
      timePattern ++ [space, zeros .year])
  | 'd' => some [zeros .day]
  | 'e' => some [blanks .day]
  | 'f' => some [zeros .nanosecond]
  | 'g' => some [zeros .weekYearOfCentury]
  | 'h' => some [.word .shortMonth]
  | 'j' => some [zeros .dayOfYear]
  | 'k' => some [blanks .hour]
  | 'l' => some [blanks .hour12]
  | 'm' => some [zeros .month]
  | 'n' => some [.blank ['\n']]
  | 'p' => some [.word .upperHalfDay]
  | 'q' => some [bare .quarter]
  | 'r' => some [zeros .hour12, sign ':', zeros .minute, sign ':', zeros .second, space,
      .word .upperHalfDay]
  | 's' => some [bare .timestamp]
  | 't' => some [.blank ['\t']]
  | 'u' => some [bare .weekdayFromMonday]
  | 'v' => some [blanks .day, sign '-', .word .shortMonth, sign '-', zeros .year]
  | 'w' => some [bare .weekdayFromSunday]
  | 'x' => some (slashPattern .yearOfCentury)
  | 'y' => some [zeros .yearOfCentury]
  | 'z' => some [.zone]
  | '+' => some [.zone]
  | '%' => some [sign '%']
  | _ => none

/-- The padding that a character before the letter asks for. -/
def padding? : Char → Option Pad
  | '-' => some .none
  | '0' => some .zero
  | '_' => some .space
  | _ => none

/-- The number of digits of a fraction that can be asked for. -/
def digitCount? : Char → Option Nat
  | '3' => some 3
  | '6' => some 6
  | '9' => some 9
  | _ => none

/-- What stands behind a percent sign, and the rest. Padding applies to a single number only. -/
def takeField? : Text → Option (Pattern × Text)
  | '#' :: 'z' :: t => some ([.zone], t)
  | ':' :: 'z' :: t => some ([.zone], t)
  | ':' :: ':' :: 'z' :: t => some ([.zone], t)
  | ':' :: ':' :: ':' :: 'z' :: t => some ([.zone], t)
  | '.' :: 'f' :: t => some ([.fraction], t)
  | '.' :: c :: 'f' :: t => (digitCount? c).map fun n => ([.digits n true], t)
  | c :: t =>
    match padding? c, t with
    | some pad, letter :: rest =>
      match ofLetter? letter with
      | some [.number field _] => some ([.number field pad], rest)
      | _ => none
    | some _, [] => none
    | none, _ =>
      match digitCount? c, t with
      | some n, 'f' :: rest => some ([.digits n false], rest)
      | some _, _ => none
      | none, _ => (ofLetter? c).map (·, t)
  | [] => none

/-- Reads a pattern; `none` when it holds a field that is not known. -/
def read? (t : Text) : Option Pattern :=
  match t with
  | [] => some []
  | '%' :: t =>
    match takeField? t with
    | some (items, rest) => (items ++ ·) <$> read? (t.drop (t.length - rest.length))
    | none => none
  | c :: t =>
    if Text.isWhite c then (.blank [c] :: ·) <$> read? t else (.literal [c] :: ·) <$> read? t
termination_by t.length
decreasing_by
  · simp only [List.length_drop, List.length_cons]
    omega
  · simp
  · simp

/-! ## Writing moments -/

/-- A number filled up on its left; the sign counts, and stands before zeros but behind blanks. A
plus sign is written on request. -/
def padded (width : Nat) (pad : Pad) (plus : Bool) (n : Int) : Text :=
  let sign := if n < 0 then ['-'] else if plus then ['+'] else []
  let digits := Text.ofNat n.natAbs
  match pad with
  | .none => sign ++ digits
  | .zero => sign ++ Text.padLeft (width - sign.length) '0' digits
  | .space => Text.padLeft width ' ' (sign ++ digits)

/-- A year: four digits, and a sign when it has more or is negative. -/
def yearText (pad : Pad) (year : Int) : Text :=
  if 1000 ≤ year ∧ year ≤ 9999 then Text.ofInt year
  else if 0 ≤ year ∧ year ≤ 9999 then padded 4 pad false year
  else padded 5 pad true year

/-- Two digits of a number of at most 8 bits; what is left of them is a single character, counted on
from `0`. -/
def twoDigits (pad : Pad) (n : Nat) : Text :=
  let tens : Text :=
    match n / 10, pad with
    | 0, .none => []
    | 0, .space => [' ']
    | tens, _ => [Char.ofNat ('0'.toNat + tens)]
  tens ++ [Char.ofNat ('0'.toNat + n % 10)]

/-- The hour on a clock face. -/
def clockHour (hour : Nat) : Nat := if hour % 12 = 0 then 12 else hour % 12

/-- The fraction of the second without the second that a leap second adds. -/
def fractionOf (m : Moment) : Nat := m.nanos % 1000000000

/-- A number of a moment. -/
def writeNumber (m : Moment) (pad : Pad) : NumericField → Text
  | .year => yearText pad m.date.year
  | .century => twoDigits pad (m.date.year / 100 % 256).toNat
  | .yearOfCentury => twoDigits pad (m.date.year % 100).toNat
  | .weekYear => yearText pad (week m.day).1
  | .weekYearOfCentury => twoDigits pad ((week m.day).1 % 100).toNat
  | .quarter => Text.ofNat ((m.date.month - 1) / 3 + 1)
  | .month => twoDigits pad m.date.month
  | .day => twoDigits pad m.date.day
  | .weekFromSunday => twoDigits pad (weeksBegun 6 m.day)
  | .weekFromMonday => twoDigits pad (weeksBegun 0 m.day)
  | .week => twoDigits pad (week m.day).2
  | .weekdayFromSunday => Text.ofNat ((weekday m.day + 1) % 7)
  | .weekdayFromMonday => Text.ofNat (weekday m.day + 1)
  | .dayOfYear => padded 3 pad false (ordinal m.day)
  | .hour => twoDigits pad (m.second / 3600)
  | .hour12 => twoDigits pad (clockHour (m.second / 3600))
  | .minute => twoDigits pad (m.second / 60 % 60)
  | .second => twoDigits pad (m.second % 60 + m.nanos / 1000000000)
  | .nanosecond => padded 9 pad false (fractionOf m)
  | .timestamp => padded 9 pad false m.timestamp

/-- The weekdays from Monday on. -/
def weekdayNames : List String :=
  ["Monday", "Tuesday", "Wednesday", "Thursday", "Friday", "Saturday", "Sunday"]

def monthNames : List String :=
  ["January", "February", "March", "April", "May", "June", "July", "August", "September",
    "October", "November", "December"]

/-- The name of the weekday. -/
def weekdayName (m : Moment) : Text := (weekdayNames.getD (weekday m.day) "").toList

/-- The name of the month. -/
def monthName (m : Moment) : Text := (monthNames.getD (m.date.month - 1) "").toList

/-- A word of a moment. -/
def writeWord (m : Moment) : WordField → Text
  | .shortMonth => (monthName m).take 3
  | .longMonth => monthName m
  | .shortWeekday => (weekdayName m).take 3
  | .longWeekday => weekdayName m
  | .lowerHalfDay => if m.second < 43200 then ['a', 'm'] else ['p', 'm']
  | .upperHalfDay => if m.second < 43200 then ['A', 'M'] else ['P', 'M']

/-- The first digits of the fraction of the second, of which there are nine. -/
def fractionDigits (m : Moment) (count : Nat) : Text :=
  Text.padLeft count '0' (Text.ofNat (fractionOf m / Nat.pow 10 (9 - count)))

/-- A part of a moment; `none` for a time zone. -/
def writeItem? (m : Moment) : PatternItem → Option Text
  | .literal t => some t
  | .blank t => some t
  | .number field pad => some (writeNumber m pad field)
  | .word field => some (writeWord m field)
  | .fraction =>
    let nanos := fractionOf m
    some <|
      if nanos = 0 then []
      else if nanos % 1000000 = 0 then '.' :: fractionDigits m 3
      else if nanos % 1000 = 0 then '.' :: fractionDigits m 6
      else '.' :: fractionDigits m 9
  | .digits count point => some ((if point then ['.'] else []) ++ fractionDigits m count)
  | .zone => none

/-- A moment written by a pattern. -/
def write? (pattern : Pattern) (m : Moment) : Option Text :=
  List.flatten <$> pattern.mapM (writeItem? m)

end Pattern

/-- The moment to the nanosecond. -/
def Moment.text (m : Moment) : Text :=
  ((Pattern.dayPattern ++ [Pattern.sign 'T'] ++ Pattern.timePattern ++
    [.digits 9 true] : Pattern).write? m).getD []

end SeedChain.Calendar
