import SeedChain.Binary64.Basic
/-!
# Shortest decimal digits

A number is written with the fewest decimal digits that are read back as the same number, and among
those with the digits nearest to it. What reads back as a number is the interval between the
midpoints to its neighbours; the midpoints belong to it when its significand is even. If a decimal
grid has a point in that interval, then one of the two points next to the number lies in it, so only
these are tried.
-/

namespace SeedChain.Binary64

/-- The distance from a number down to the midpoint to its lower neighbour, in quarters of its last
place: the gap is half as wide below a power of two. -/
def lowerGap (x : Binary64) : Nat :=
  if x.significand = fullSignificand && minExponent < x.exponent then 1 else 2

/-- The ratio `n / d` reads back as the amount of `x`. -/
def readsBack (x : Binary64) (n d : Nat) : Bool :=
  let (a, b) := inUnits n d x.exponent
  let low := (4 * x.significand - x.lowerGap) * b
  let high := (4 * x.significand + 2) * b
  if x.significand % 2 = 0 then low ≤ 4 * a && 4 * a ≤ high else low < 4 * a && 4 * a < high

/-- A decimal place: the ratio that `10 ^ place` is. -/
def placeValue (place : Int) : Nat × Nat := (Nat.pow 10 place.toNat, Nat.pow 10 (-place).toNat)

/-- The number of decimal digits of `n`. -/
def digitCount (n : Nat) : Nat := (Text.ofNat n).length

/-- The place of the leading digit of a positive ratio. -/
def leadingPlace (n d : Nat) : Int :=
  let guess : Int := (digitCount n : Int) - digitCount d
  let (a, b) := placeValue guess
  if n * b < d * a then guess - 1 else guess

/-- The digits nearest to `x` with their last one at a place, if they read back as `x`. -/
def digitsAt? (x : Binary64) (place : Int) : Option Nat :=
  let (n, d) := x.ratio
  let (p, q) := placeValue place
  let below := n * q / (d * p)
  let reads (digits : Nat) := x.readsBack (digits * p) q
  let nearBelow := 2 * (n * q % (d * p)) < d * p
  match reads below, reads (below + 1) with
  | true, true => some (if nearBelow then below else below + 1)
  | true, false => some below
  | false, true => some (below + 1)
  | false, false => none

/-- Tries more and more digits; 17 always suffice. -/
def shortestFrom (x : Binary64) (place : Int) : (more : Nat) → Nat × Int
  | 0 => (((x.digitsAt? place).getD 0), place)
  | more + 1 =>
    match x.digitsAt? place with
    | some digits => (digits, place)
    | none => shortestFrom x (place - 1) more

/-- The shortest digits of a positive number, as a whole number, and the place of the last one. -/
def shortest (x : Binary64) : Nat × Int :=
  shortestFrom x (leadingPlace x.ratio.1 x.ratio.2) 16

/-- A number in text: positional between `10 ^ -5` and `10 ^ 16`, always with a point, else with an
exponent. -/
def text (x : Binary64) : Text :=
  let sign := if x.negative then ['-'] else []
  if x.isZero then sign ++ "0.0".toList
  else
    let (n, place) := x.shortest
    let digits := Text.dropEndWhile (· == '0') (Text.ofNat n)
    let place := place + (digitCount n - digits.length : Nat)
    let leading : Int := place + (digits.length - 1 : Nat)
    let zeros (count : Int) := List.replicate count.toNat '0'
    let body : Text :=
      if -5 ≤ leading && leading ≤ 15 then
        if 0 ≤ place then digits ++ zeros place ++ ".0".toList
        else if 0 ≤ leading then
          let whole := (leading + 1).toNat
          digits.take whole ++ '.' :: digits.drop whole
        else "0.".toList ++ zeros (-leading - 1) ++ digits
      else
        let mantissa :=
          match digits with
          | d :: [] => [d]
          | d :: ds => d :: '.' :: ds
          | [] => []
        let exponentSign := if 0 ≤ leading then "+" else "-"
        mantissa ++ 'e' :: exponentSign.toList ++ Text.ofNat leading.natAbs
    sign ++ body

end SeedChain.Binary64
