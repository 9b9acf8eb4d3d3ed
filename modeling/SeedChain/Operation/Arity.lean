import SeedChain.Text.Integer
/-!
# Arities

How many arguments an operation takes. An arity travels as one integer: `n` for a fixed number and
`-(min + 1)` for `min` slots followed by any number of further arguments.
-/

namespace SeedChain

/-- The number of arguments an operation declares. -/
inductive Arity where
  /-- Exactly this many slots; missing ones are absent. -/
  | fixed (slots : Nat)
  /-- This many slots, then any number of further arguments. -/
  | variadic (min : Nat)
  deriving DecidableEq, Repr

namespace Arity

/-- The number of positional slots. -/
def slots : Arity → Nat
  | fixed n => n
  | variadic n => n

def encoded : Arity → Int
  | fixed n => n
  | variadic n => -(n : Int) - 1

def ofEncoded (code : Int) : Arity :=
  if 0 ≤ code then fixed code.toNat else variadic (-(code + 1)).toNat

/-- Too few arguments are always accepted, too many only by a variadic operation. -/
def accepts : Arity → Nat → Bool
  | fixed n, supplied => supplied ≤ n
  | variadic _, _ => true

def display : Arity → String
  | fixed n => toString n
  | variadic n => s!"{n}+"

instance : ToString Arity := ⟨display⟩

theorem ofEncoded_encoded (a : Arity) : ofEncoded a.encoded = a := by
  cases a with
  | fixed n => simp [encoded, ofEncoded]
  | variadic n =>
    have : ¬ 0 ≤ -(n : Int) - 1 := by omega
    simp only [encoded, ofEncoded, this, if_false]
    congr 1
    omega

end Arity

end SeedChain
