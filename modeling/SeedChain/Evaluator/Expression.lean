import SeedChain.Evaluator.Seed
import SeedChain.Expression
import SeedChain.Operation.Table
/-!
# Evaluating one expression

The seed is built, the calls run one after the other, and the text of the last value takes the place
of the expression. There is no replacement when a call ends the chain, or when the last value has no
text and the expression is in its canonical spelling already.
-/

namespace SeedChain

/-- Runs the calls of a chain from a value on. -/
def runChain (delimiter : Char) : List Invocation → Value → Store → Outcome × Store
  | [], v, store => (goOn v, store)
  | call :: calls, v, store =>
    match v.invoke delimiter call.name call.args store with
    | (.ok (some next), store) => runChain delimiter calls next store
    | ended => ended

/-- The text that takes the place of an expression whose chain ended with a value. -/
def Expression.replacement (e : Expression) (v : Value) : Option Text :=
  match v.text? with
  | some t => some t
  | none => if e.matched = e.canonical then none else some []

/-- Evaluates an expression from its first value on. -/
def Expression.evaluateFrom (env : Environment) (e : Expression) (seed : Value) (store : Store) :
    Except EvalError (Option Text) × Store :=
  let (outcome, store) := runChain env.delimiter e.invocations seed store
  (outcome.map fun last => last.bind e.replacement, store)

/-- Evaluates an expression. -/
def Expression.evaluate (env : Environment) (e : Expression) (store : Store) :
    Except EvalError (Option Text) × Store :=
  match build env e.keyword e.seed store with
  | .ok seed => e.evaluateFrom env seed store
  | .error error => (.error error, store)

end SeedChain
