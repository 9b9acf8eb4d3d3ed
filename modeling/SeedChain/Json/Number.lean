import SeedChain.Binary64.Shortest
/-!
# Numbers of JSON documents

Whole numbers of 64 bits, signed or unsigned, are exact; minus zero and everything else is binary
floating point. Digits are collected in 64 bits: of those that do not fit, the ones before the point
raise the exponent and the ones behind it are dropped. The collected number is rounded, then
multiplied or divided once by the power of ten and rounded again. A number too large for the format
is refused, one too small is zero.
-/

namespace SeedChain

/-- A number of a document. -/
inductive JsonNumber where
  | whole (n : Int)
  | double (x : Binary64)
  deriving DecidableEq, Repr

namespace JsonNumber

def text : JsonNumber → Text
  | whole n => Text.ofInt n
  | double x => x.text

/-- The parts of a number as written: its sign, the digits before and behind the point, and the
exponent's sign and digits. -/
structure Literal where
  negative : Bool
  whole : Text
  fraction : Option Text
  exponent : Option (Bool × Text)
  deriving Repr

/-- Splits off one or more digits. -/
def takeDigits? (t : Text) : Option (Text × Text) :=
  let digits := t.takeWhile Char.isDigit
  if digits = [] then none else some (digits, t.dropWhile Char.isDigit)

/-- Splits off the digits before the point: a zero, or digits that do not begin with one. -/
def takeWhole? : Text → Option (Text × Text)
  | '0' :: t => some (['0'], t)
  | t => takeDigits? t

/-- Splits off a fraction, if the text goes on with a point. -/
def takeFraction? : Text → Option (Option Text × Text)
  | '.' :: t => (takeDigits? t).map fun (digits, rest) => (some digits, rest)
  | t => some (none, t)

/-- Splits off an exponent, if the text goes on with its mark. -/
def takeExponent? : Text → Option (Option (Bool × Text) × Text)
  | c :: t =>
    if c = 'e' ∨ c = 'E' then
      let (negative, digits) :=
        match t with
        | '-' :: t => (true, t)
        | '+' :: t => (false, t)
        | t => (false, t)
      (takeDigits? digits).map fun (digits, rest) => (some (negative, digits), rest)
    else some (none, c :: t)
  | [] => some (none, [])

/-- Splits off a number. -/
def takeLiteral? (t : Text) : Option (Literal × Text) := do
  let (negative, t) := match t with | '-' :: t => (true, t) | t => (false, t)
  let (digits, t) ← takeWhole? t
  let (fraction, t) ← takeFraction? t
  let (exponent, t) ← takeExponent? t
  return (⟨negative, digits, fraction, exponent⟩, t)

/-- Collects digits behind a number while the result fits 64 bits; also the number of those left
over. -/
def collect (n : Nat) : Text → Nat × Nat
  | [] => (n, 0)
  | d :: ds =>
    let next := 10 * n + Text.digitValue d
    if next ≤ Text.maxSize then collect next ds else (n, ds.length + 1)

/-- The largest power of ten of the format. -/
def maxPower : Nat := 308

/-- `n * 10 ^ exponent`, rounded after each step. -/
def scaled? (n : Nat) (exponent : Int) : Option Binary64 := do
  let x ← Binary64.nearest? n 1
  if n = 0 then return x
  let power (k : Nat) := Binary64.nearest? (Nat.pow 10 k) 1
  if 0 ≤ exponent then
    if exponent ≤ maxPower then x.mul? (← power exponent.toNat) else none
  else
    let down := exponent.natAbs
    if down ≤ maxPower then x.div? (← power down)
    else if down ≤ 2 * maxPower then
      (← x.div? (← power maxPower)).div? (← power (down - maxPower))
    else return Binary64.zero

/-- The largest exponent that is looked at; any larger one means overflow or zero. -/
def maxExponent : Nat := 0x7fffffff

/-- The collected digits of a number and the power of ten they are multiplied by, apart from the
written exponent. -/
def Literal.digits (l : Literal) : Nat × Int :=
  let (n, excess) := collect 0 l.whole
  match l.fraction with
  | none => (n, excess)
  | some ds =>
    let (n, dropped) := collect n ds
    (n, (excess : Int) - (ds.length - dropped : Nat))

/-- The amount of a number as floating point. -/
def Literal.double? (l : Literal) : Option Binary64 :=
  let (n, power) := l.digits
  match l.exponent with
  | none => scaled? n power
  | some (down, ds) =>
    let exponent := Text.digitsValue 0 ds
    if maxExponent < exponent then if n = 0 ∨ down then some Binary64.zero else none
    else scaled? n (if down then power - exponent else power + exponent)

/-- The number a literal denotes. -/
def ofLiteral? (l : Literal) : Option JsonNumber :=
  let n := Text.digitsValue 0 l.whole
  let isWhole := l.fraction.isNone && l.exponent.isNone
  if isWhole && !l.negative && n ≤ Text.maxSize then some (.whole n)
  else if isWhole && l.negative && 0 < n && n ≤ 0x8000000000000000 then some (.whole (-n))
  else l.double?.map fun x => .double (if l.negative then x.neg else x)

end JsonNumber

end SeedChain
