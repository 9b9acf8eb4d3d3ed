import SeedChain.Text.Integer
/-!
# Decimal numbers

A decimal is a sign, an integer of 96 bits and a scale: the number of digits behind the point, at
most 28. The scale belongs to the value, so `2.50` stays `2.50`; comparison looks at the amount
alone. The bounds are part of the type.
-/

namespace SeedChain

/-- The bound of mantissas, two to the power of 96. -/
def Decimal.limit : Nat := 0x1000000000000000000000000

/-- `mantissa / 10 ^ scale`, with a sign. -/
structure Decimal where
  negative : Bool
  mantissa : Nat
  scale : Nat
  mantissa_lt : mantissa < Decimal.limit
  scale_le : scale ≤ 28
  deriving DecidableEq, Repr

namespace Decimal

/-- The decimal with given parts if they are in bounds; zero has no sign. -/
def ofParts? (negative : Bool) (mantissa scale : Nat) : Option Decimal :=
  if h : mantissa < limit ∧ scale ≤ 28 then
    some ⟨negative && mantissa != 0, mantissa, scale, h.1, h.2⟩
  else none

def zero : Decimal := ⟨false, 0, 0, by decide, by decide⟩

/-- A whole number; what is counted stays far below the bound. -/
def ofInt (n : Int) : Decimal :=
  ⟨decide (n < 0), n.natAbs % limit, 0, Nat.mod_lt _ (by decide), by decide⟩

/-- Integers in bounds are told apart. -/
theorem ofInt_inj {m n : Int} (hm : m.natAbs < limit) (hn : n.natAbs < limit) (h : ofInt m = ofInt n) :
    m = n := by
  have hsign : decide (m < 0) = decide (n < 0) := congrArg negative h
  have hamount : m.natAbs % limit = n.natAbs % limit := congrArg mantissa h
  rw [Nat.mod_eq_of_lt hm, Nat.mod_eq_of_lt hn] at hamount
  rw [decide_eq_decide] at hsign
  omega

def isZero (d : Decimal) : Bool := d.mantissa == 0

/-- The amount, counted in units of `10 ^ -28`. -/
def units (d : Decimal) : Int :=
  let amount : Int := d.mantissa * Nat.pow 10 (28 - d.scale)
  if d.negative then -amount else amount

/-- Order by amount. -/
def le (a b : Decimal) : Bool := a.units ≤ b.units

/-- The decimal in positional notation with exactly `scale` digits behind the point. -/
def text (d : Decimal) : Text :=
  let digits := Text.padLeft (d.scale + 1) '0' (Text.ofNat d.mantissa)
  let whole := digits.take (digits.length - d.scale)
  let fraction := digits.drop (digits.length - d.scale)
  (if d.negative then ['-'] else []) ++ whole ++ (if d.scale = 0 then [] else '.' :: fraction)

end Decimal

end SeedChain
