import SeedChain.Decimal.Arithmetic
import SeedChain.Operation.Basic
/-!
# Operations on numbers

Arithmetic takes any number of operands, of which blank ones are left out. All operands are read
before the first is used.
-/

namespace SeedChain.Decimal

/-- The operands of an operation. -/
def operands (function : String) (args : Args) : Except EvalError (List Decimal) :=
  argument function ((args.rest.filter fun t => !t.isBlank).mapM read)

/-- The sum, or the reason why there is none. -/
def add (a b : Decimal) : Except Reason Decimal := (add? a b).elim (.error .numericOverflow) .ok

def minus (a b : Decimal) : Except Reason Decimal := (sub? a b).elim (.error .numericOverflow) .ok

def multiply (a b : Decimal) : Except Reason Decimal :=
  (mul? a b).elim (.error .numericOverflow) .ok

def divide (a b : Decimal) : Except Reason Decimal :=
  if b.isZero then .error .divisionByZero else (div? a b).elim (.error .numericOverflow) .ok

/-- An operation that takes its operands one after the other. -/
def arithmetic (name : String) (f : Decimal → Decimal → Except Reason Decimal) :
    Operation Decimal :=
  .variadic name fun _ d args => do
    let result ← argument name ((← operands name args).foldlM f d)
    goOn (.number result)

/-- An operation on the number alone. -/
def simple (name : String) (f : Decimal → Decimal) : Operation Decimal :=
  .fixed name 0 fun _ d _ => goOn (.number (f d))

/-- Numbers of places have 32 bits. -/
def maxPlaces : Nat := 0xffffffff

/-- Rounds to a number of places. -/
def roundTo : Body Decimal := fun _ d args => do
  let places := (← args.int? 0 "round").getD 0
  if 0 ≤ places ∧ places ≤ maxPlaces then goOn (.number (d.round places.toNat))
  else refuse "round" (.invalidPlaces places)

def operations : List (Operation Decimal) := Operation.withShared [
  arithmetic "add" add,
  arithmetic "minus" minus,
  arithmetic "multiply" multiply,
  arithmetic "divide" divide,
  .fixed "round" 1 roundTo,
  simple "ceiling" ceiling,
  simple "floor" floor,
  simple "abs" abs,
  simple "integer" truncate]

/-- The sum of the items of a list, blank ones left out. -/
def sum (items : List Text) : Except Reason Decimal :=
  (items.filter fun t => !t.isBlank).foldlM (fun total item => do add total (← read item)) zero

end SeedChain.Decimal
