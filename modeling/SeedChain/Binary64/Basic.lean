import SeedChain.Decimal.Arithmetic
/-!
# Binary floating point

Finite numbers of the 64-bit binary format as exact values: a sign, a significand of 53 bits and a
power of two. Every operation computes the exact ratio and rounds it once, to the nearest number,
a tie to the even significand.
-/

namespace SeedChain

/-- `significand * 2 ^ exponent`, with a sign. -/
structure Binary64 where
  negative : Bool
  significand : Nat
  exponent : Int
  deriving DecidableEq, Repr

namespace Binary64

/-- The exponent of the smallest numbers. -/
def minExponent : Int := -1074

/-- The exponent of the largest numbers. -/
def maxExponent : Int := 971

/-- The least significand with all 53 bits, two to the power of 52. -/
def fullSignificand : Nat := 0x10000000000000

def zero : Binary64 := ⟨false, 0, minExponent⟩

def neg (x : Binary64) : Binary64 := { x with negative := !x.negative }

def isZero (x : Binary64) : Bool := x.significand == 0

/-- The amount as a ratio of natural numbers. -/
def ratio (x : Binary64) : Nat × Nat :=
  (x.significand * Nat.pow 2 x.exponent.toNat, Nat.pow 2 (-x.exponent).toNat)

/-- The ratio in units of a power of two. -/
def inUnits (n d : Nat) (exponent : Int) : Nat × Nat :=
  (n * Nat.pow 2 (-exponent).toNat, d * Nat.pow 2 exponent.toNat)

/-- The exponent at which a positive ratio has a significand of 53 bits, as long as the format has
it. -/
def exponentFor (n d : Nat) : Int :=
  let guess : Int := (n.log2 : Int) - d.log2 - 52
  let (a, b) := inUnits n d guess
  max minExponent (if a < b * fullSignificand then guess - 1 else guess)

/-- The number nearest to the ratio `n / d`; `none` when it is out of range. -/
def nearest? (n d : Nat) : Option Binary64 :=
  if n = 0 then some zero
  else
    let exponent := exponentFor n d
    let (a, b) := inUnits n d exponent
    let significand := Decimal.roundDiv a b
    let (significand, exponent) :=
      if significand = 2 * fullSignificand then (fullSignificand, exponent + 1)
      else (significand, exponent)
    if exponent ≤ maxExponent then some ⟨false, significand, exponent⟩ else none

/-- A product of amounts. -/
def mul? (x y : Binary64) : Option Binary64 :=
  nearest? (x.ratio.1 * y.ratio.1) (x.ratio.2 * y.ratio.2)

/-- A quotient of amounts; the divisor is not zero. -/
def div? (x y : Binary64) : Option Binary64 :=
  nearest? (x.ratio.1 * y.ratio.2) (x.ratio.2 * y.ratio.1)

end Binary64

end SeedChain
