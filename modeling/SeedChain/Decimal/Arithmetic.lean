import SeedChain.Decimal.Basic
/-!
# Decimal arithmetic

Sums, products and quotients are exact where they fit, else rounded half to even at the largest
scale at which they do; a result that fits at no scale is an overflow. A result of zero has no sign.
`round` takes a half away from zero and adds no places; `floor`, `ceiling` and `truncate` give whole
numbers.
-/

namespace SeedChain.Decimal

/-- The quotient rounded to the nearest whole number, a half to the even neighbour. -/
def roundDiv (n d : Nat) : Nat :=
  let q := n / d
  let r := 2 * (n % d)
  if d < r || (r == d && q % 2 == 1) then q + 1 else q

/-- The quotient `n / d` at the largest scale up to a given one at which its rounded mantissa
fits. -/
def nearest? (negative : Bool) (n d : Nat) : (scale : Nat) → Option Decimal
  | 0 => ofParts? negative (roundDiv n d) 0
  | scale + 1 =>
    ofParts? negative (roundDiv (n * Nat.pow 10 (scale + 1)) d) (scale + 1) <|>
      nearest? negative n d scale

/-- The largest scale. -/
def maxScale : Nat := 28

def neg (d : Decimal) : Decimal := { d with negative := !d.negative && d.mantissa != 0 }

/-- The sum. A zero operand leaves the other one as it is. -/
def add? (a b : Decimal) : Option Decimal :=
  if a.isZero then some { b with negative := b.negative && b.mantissa != 0 }
  else if b.isZero then some a
  else
    let sum := a.units + b.units
    nearest? (decide (sum < 0)) sum.natAbs (Nat.pow 10 maxScale) (max a.scale b.scale)

/-- The difference: a sum with the second operand negated. -/
def sub? (a b : Decimal) : Option Decimal := add? a b.neg

/-- The product. Two mantissas of at most 32 bits whose scales add up to more than 47 make zero. -/
def mul? (a b : Decimal) : Option Decimal :=
  let scale := a.scale + b.scale
  if a.isZero || b.isZero then some zero
  else if a.mantissa ≤ 0xffffffff && b.mantissa ≤ 0xffffffff && 47 < scale then some zero
  else
    nearest? (a.negative != b.negative) (a.mantissa * b.mantissa) (Nat.pow 10 scale)
      (min scale maxScale)

/-- Drops the zeros at the end of the fraction, of which there are at most `scale`. -/
def dropZeros (mantissa : Nat) : (scale : Nat) → Nat × Nat
  | 0 => (mantissa, 0)
  | scale + 1 => if mantissa % 10 = 0 then dropZeros (mantissa / 10) scale else (mantissa, scale + 1)

theorem dropZeros_le (mantissa scale : Nat) :
    (dropZeros mantissa scale).1 ≤ mantissa ∧ (dropZeros mantissa scale).2 ≤ scale := by
  induction scale generalizing mantissa with
  | zero => simp [dropZeros]
  | succ scale ih =>
    simp only [dropZeros]
    split
    · have := ih (mantissa / 10)
      omega
    · simp

/-- The same amount at the smallest scale. -/
def normalize (d : Decimal) : Decimal where
  negative := d.negative && d.mantissa != 0
  mantissa := (dropZeros d.mantissa d.scale).1
  scale := (dropZeros d.mantissa d.scale).2
  mantissa_lt := Nat.lt_of_le_of_lt (dropZeros_le _ _).1 d.mantissa_lt
  scale_le := Nat.le_trans (dropZeros_le _ _).2 d.scale_le

/-- The quotient at its smallest scale; the divisor is not zero. -/
def div? (a b : Decimal) : Option Decimal :=
  if a.isZero then some zero
  else
    (nearest? (a.negative != b.negative) (a.mantissa * Nat.pow 10 b.scale)
      (b.mantissa * Nat.pow 10 a.scale) maxScale).map normalize

/-- The mantissa left when `places` digits at the end are cut off. -/
theorem cut_lt {mantissa places : Nat} (h : mantissa < limit) (hp : places ≠ 0) :
    mantissa / Nat.pow 10 places + 1 < limit := by
  have : mantissa / Nat.pow 10 places ≤ mantissa / 10 := by
    apply Nat.div_le_div_left
    · exact Nat.le_trans (by decide) (Nat.pow_le_pow_right (by decide) (Nat.pos_of_ne_zero hp))
    · decide
  simp only [limit] at *
  omega

/-- Rounds to a number of places, a half away from zero. A number with no more places than that stays
as it is, and so does the sign unless zero is left. -/
def round (d : Decimal) (places : Nat) : Decimal :=
  if h : places < d.scale then
    let unit := Nat.pow 10 (d.scale - places)
    let up := unit ≤ 2 * (d.mantissa % unit)
    let mantissa := d.mantissa / unit + if up then 1 else 0
    { negative := d.negative && mantissa != 0
      mantissa
      scale := places
      mantissa_lt := by
        have := cut_lt d.mantissa_lt (show d.scale - places ≠ 0 by omega)
        simp only [mantissa, unit]
        split <;> omega
      scale_le := Nat.le_trans (Nat.le_of_lt h) d.scale_le }
  else d

/-- The whole number next to a decimal towards zero, or one further away when `away` holds and there
is a fraction. The sign stays, even that of a zero. -/
def toWhole (d : Decimal) (away : Bool) : Decimal :=
  if h : d.scale = 0 then d
  else
    let unit := Nat.pow 10 d.scale
    let mantissa := d.mantissa / unit + if away && d.mantissa % unit != 0 then 1 else 0
    { negative := d.negative
      mantissa
      scale := 0
      mantissa_lt := by
        have := cut_lt d.mantissa_lt h
        simp only [mantissa, unit]
        split <;> omega
      scale_le := zero.scale_le }

/-- The whole part. -/
def truncate (d : Decimal) : Decimal := d.toWhole false

/-- The least whole number that is not smaller. -/
def ceiling (d : Decimal) : Decimal := d.toWhole (!d.negative)

/-- The greatest whole number that is not larger. -/
def floor (d : Decimal) : Decimal := d.toWhole d.negative

def abs (d : Decimal) : Decimal := { d with negative := false }

end SeedChain.Decimal
