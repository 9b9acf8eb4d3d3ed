import SeedChain.Decimal.Basic
import SeedChain.Error
/-!
# Decimal literals

A literal is an optional sign, digits with at most one point among them, and underscores anywhere
behind the first digit; an exponent may follow. A further plus sign may stand in front of it all.

Digits behind the point that do not fit are rounded off, a half upwards in amount; digits before the
point that do not fit are an error. An exponent only moves the point, so the result must still fit.
Minus zero is read as zero.
-/

namespace SeedChain.Decimal

/-- Rounds off a fraction whose next digit is `next`. When rounding up leaves the range, one more
digit is given up. -/
def roundOff (mantissa scale : Nat) (next : Char) : Option (Nat × Nat) :=
  if next.isDigit && 5 ≤ Text.digitValue next then
    if mantissa + 1 < limit then some (mantissa + 1, scale)
    else if scale = 0 then none
    else some ((mantissa + 5) / 10, scale - 1)
  else some (mantissa, scale)

/-- Rounds off the rest of a fraction, which may hold digits and underscores only. -/
def roundOffRest (mantissa scale : Nat) (rest : Text) : Option (Nat × Nat) :=
  match rest with
  | [] => some (mantissa, scale)
  | next :: _ =>
    if rest.all fun c => c.isDigit || c == '_' then roundOff mantissa scale next else none

/-- Reads digits on from a mantissa and scale; `point` and `digit` say whether a point and a digit
have been read. -/
def readDigits (mantissa scale : Nat) (point digit : Bool) : Text → Option (Nat × Nat)
  | [] => if digit then some (mantissa, scale) else none
  | c :: t =>
    if point && scale == 28 then roundOffRest mantissa scale (c :: t)
    else if c.isDigit then
      let next := 10 * mantissa + Text.digitValue c
      if next < limit then readDigits next (if point then scale + 1 else 0) point true t
      else if point then roundOffRest mantissa scale (c :: t)
      else none
    else if c == '.' && !point then readDigits mantissa scale true digit t
    else if c == '_' && digit then readDigits mantissa scale point digit t
    else none

/-- Reads a literal without exponent. -/
def readPlain? (t : Text) : Option Decimal :=
  let (negative, digits) :=
    match t with
    | '-' :: t => (true, t)
    | '+' :: t => (false, t)
    | t => (false, t)
  (readDigits 0 0 false false digits).bind fun (mantissa, scale) =>
    ofParts? negative mantissa scale

/-- The exponents that can be written: 32 bits. -/
def maxExponent : Nat := 0xffffffff

/-- The point moved to the left: the scale grows, modulo the width of exponents. -/
def scaleDown? (d : Decimal) (exponent : Nat) : Option Decimal :=
  let scale := (d.scale + exponent) % (maxExponent + 1)
  if h : scale ≤ 28 then some { d with scale := scale, scale_le := h } else none

/-- The point moved to the right: the scale shrinks, and past a whole number zeros are added. -/
def scaleUp? (d : Decimal) (exponent : Nat) : Option Decimal :=
  if exponent ≤ d.scale then
    some { d with scale := d.scale - exponent, scale_le := Nat.le_trans (Nat.sub_le _ _) d.scale_le }
  else if exponent ≤ 28 then
    ofParts? d.negative (d.mantissa * Nat.pow 10 (exponent - d.scale)) 0
  else none

/-- Reads a literal with an exponent. -/
def readScientific? (t : Text) : Option Decimal := do
  let isMark (c : Char) := c == 'e' || c == 'E'
  let base ← readPlain? (t.takeWhile fun c => !isMark c)
  match t.dropWhile fun c => !isMark c with
  | [] => none
  | _ :: '-' :: exponent => (Text.natural? maxExponent exponent).bind base.scaleDown?
  | _ :: exponent => (Text.natural? maxExponent exponent).bind base.scaleUp?

/-- Reads a literal between blanks. -/
def read (t : Text) : Except Reason Decimal :=
  let literal := t.trim
  if literal = [] then .error .emptyNumber
  else
    let unsigned := match literal with | '+' :: t => t | t => t
    match readPlain? unsigned <|> readScientific? unsigned with
    | some d => .ok d
    | none => .error (.notANumber literal)

/-- Reads a literal, leaving the reason of a failure out. -/
def read? (t : Text) : Option Decimal := (read t).toOption

end SeedChain.Decimal
