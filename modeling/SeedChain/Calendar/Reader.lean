import SeedChain.Calendar.Pattern
import SeedChain.Error
/-!
# Reading moments

A moment is read by the first form that fits the whole text: a timestamp with a time zone, whose
local time counts, then a list of patterns, then a count of milliseconds. Each form also says by
which pattern the moment is written back.

The words `now` and `today` stand for the time of a clock, if there is one.
-/

namespace SeedChain.Calendar

open Pattern

/-! ## Reading by a pattern -/

/-- What has been read of a moment; what is missing belongs to midnight. -/
structure Fields where
  year : Int := 0
  month : Nat := 0
  day : Nat := 0
  hour : Nat := 0
  minute : Nat := 0
  second : Nat := 0
  nanos : Nat := 0

namespace Fields

/-- The moment, if there is one. Second 60 is a leap second. -/
def moment? (f : Fields) : Option Moment :=
  let date : Date := ⟨f.year, f.month, f.day⟩
  if date.isValid ∧ f.hour < 24 ∧ f.minute < 60 ∧ f.second ≤ 60 then
    let leap := f.second = 60
    Moment.ofParts? date.toDay (3600 * f.hour + 60 * f.minute + if leap then 59 else f.second)
      (f.nanos + if leap then 1000000000 else 0)
  else none

end Fields

/-- Splits off one to `most` digits. -/
def takeNumber? (most : Nat) (t : Text) : Option (Nat × Text) :=
  let digits := (t.take most).takeWhile Char.isDigit
  if digits = [] then none else some (Text.digitsValue 0 digits, t.drop digits.length)

/-- Splits off a year: at most four digits, or any number behind a sign. -/
def takeYear? : Text → Option (Int × Text)
  | '-' :: t => (takeNumber? t.length t).map fun (n, rest) => (-(n : Int), rest)
  | '+' :: t => (takeNumber? t.length t).map fun (n, rest) => ((n : Int), rest)
  | t => (takeNumber? 4 t).map fun (n, rest) => ((n : Int), rest)

/-- Splits off a fraction behind its point. Nine digits count, further ones are passed over. -/
def takeFraction? (t : Text) : Option (Nat × Text) :=
  let digits := t.takeWhile Char.isDigit
  if digits = [] then none
  else
    let kept := digits.take 9
    some (Text.digitsValue 0 kept * Nat.pow 10 (9 - kept.length), t.dropWhile Char.isDigit)

/-- Reads a number field into its place. Blanks before the number are passed over. -/
def readNumber? (field : NumericField) (f : Fields) (t : Text) : Option (Fields × Text) :=
  let t := t.trimStart
  let small (set : Nat → Fields) := (takeNumber? 2 t).map fun (n, rest) => (set n, rest)
  match field with
  | .year => (takeYear? t).map fun (n, rest) => ({ f with year := n }, rest)
  | .month => small fun n => { f with month := n }
  | .day => small fun n => { f with day := n }
  | .hour => small fun n => { f with hour := n }
  | .minute => small fun n => { f with minute := n }
  | .second => small fun n => { f with second := n }
  | _ => none

/-- Reads one part of a pattern. Blanks of the pattern stand for any blanks, or none. -/
def readItem? (f : Fields) (t : Text) : PatternItem → Option (Fields × Text)
  | .literal l => (l.isPrefixOf? t).map (f, ·)
  | .blank _ => some (f, t.trimStart)
  | .number field _ => readNumber? field f t
  | .fraction =>
    match t with
    | '.' :: t => (takeFraction? t).map fun (n, rest) => ({ f with nanos := n }, rest)
    | t => some (f, t)
  | _ => none

/-- The moment that a text states by a pattern. -/
def Pattern.readMoment? (pattern : Pattern) (t : Text) : Option Moment := do
  let (fields, rest) ← pattern.foldlM (fun (f, t) item => readItem? f t item) (({} : Fields), t)
  if rest = [] then fields.moment? else none

/-! ## Timestamps -/

/-- Splits off exactly `count` digits. -/
def takeDigits? (count : Nat) (t : Text) : Option (Nat × Text) :=
  let digits := t.take count
  if digits.length = count ∧ digits.all Char.isDigit then
    some (Text.digitsValue 0 digits, t.drop count)
  else none

/-- Splits off one of some characters. -/
def takeSign? (signs : List Char) : Text → Option Text
  | c :: t => if c ∈ signs then some t else none
  | [] => none

/-- The text is a time zone: `Z`, or a sign, hours below 24 and minutes. -/
def isZone (t : Text) : Bool :=
  if t = ['Z'] ∨ t = ['z'] then true
  else
    let parts := do
      let t ← takeSign? ['+', '-', '−'] t
      let (hours, t) ← takeDigits? 2 t
      let t ← takeSign? [':'] t
      let (minutes, t) ← takeDigits? 2 t
      return hours < 24 && minutes < 60 && t.isEmpty
    parts.getD false

/-- The local time of a timestamp: every number in its full width, and a time zone behind. -/
def readTimestamp? (t : Text) : Option Moment := do
  let (year, t) ← takeDigits? 4 t
  let (month, t) ← takeDigits? 2 (← takeSign? ['-'] t)
  let (day, t) ← takeDigits? 2 (← takeSign? ['-'] t)
  let (hour, t) ← takeDigits? 2 (← takeSign? ['T', 't', ' '] t)
  let (minute, t) ← takeDigits? 2 (← takeSign? [':'] t)
  let (second, t) ← takeDigits? 2 (← takeSign? [':'] t)
  let (nanos, t) ← match t with | '.' :: t => takeFraction? t | t => some (0, t)
  if isZone t then Fields.moment? ⟨year, month, day, hour, minute, second, nanos⟩ else none

/-! ## All forms -/

/-- The pattern of times given in full. -/
def stampPattern : Pattern := dayPattern ++ [sign 'T'] ++ timePattern ++ [.fraction]

/-- The pattern by which moments are written unless they were read by another one. -/
def plainPattern : Pattern := dayPattern ++ [space] ++ timePattern

/-- The patterns a moment is read and written back by, in the order in which they are tried. -/
def readingPatterns : List Pattern :=
  [stampPattern,
    dayPattern ++ [space] ++ timePattern ++ [.fraction],
    dayPattern ++ [sign 'T'] ++ minutePattern,
    dayPattern ++ [space] ++ minutePattern,
    slashPattern .year ++ [space] ++ timePattern,
    slashPattern .year ++ [space] ++ minutePattern,
    dayPattern,
    slashPattern .year,
    [zeros .year, zeros .month, zeros .day]]

/-- More than eight digits, with or without a minus sign. -/
def isEpoch (t : Text) : Bool :=
  let digits := match t with | '-' :: t => t | t => t
  8 < digits.length && digits.all Char.isDigit

/-- The moment a word of the clock stands for, and the pattern to write it by. -/
def readClock? (clock : Option Moment) (t : Text) : Option (Moment × Pattern) := do
  let now ← clock
  if Text.asciiLower t = "now".toList then return (now, plainPattern)
  else if Text.asciiLower t = "today".toList then
    return (← Moment.ofParts? now.day 0 0, dayPattern)
  else none

/-- The moment that a text states, and the pattern to write it by. -/
def read (clock : Option Moment) (t : Text) : Except Reason (Moment × Pattern) :=
  let t := t.trim
  let stamp := (readTimestamp? t).map (·, stampPattern)
  let byPattern := readingPatterns.findSome? fun pattern =>
    (pattern.readMoment? t).map (·, pattern)
  match readClock? clock t <|> stamp <|> byPattern with
  | some found => .ok found
  | none =>
    if isEpoch t then
      match (Text.integer? t).bind Moment.ofEpoch? with
      | some moment => .ok (moment, plainPattern)
      | none => .error (.epochOutOfRange t)
    else .error (.notADate t)

end SeedChain.Calendar
