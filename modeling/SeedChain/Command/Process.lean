import SeedChain.Command.Variables
import SeedChain.Evaluator.Basic
/-!
# Resolving a text on request

Variables are stored first, those of the document before single ones. Then the text is resolved, or
only checked for an expression.
-/

namespace SeedChain

/-- What is asked for. -/
structure Request where
  text : Option Text
  env : Environment
  /-- The number of substitutions allowed. -/
  limit : Nat
  /-- Variables written as `name=value`. -/
  assignments : List Text
  /-- A JSON object of variables. -/
  document : Option Text
  /-- Only the expression that is resolved first is looked at, and its seed built. -/
  checkOnly : Bool

/-- What comes of a request. -/
inductive Reply where
  /-- The canonical spelling of the expression found. -/
  | valid (canonical : Text)
  | noExpression
  | output (t : Text)
  deriving DecidableEq, Repr

/-- The store with the variables of a request. -/
def Request.store (r : Request) : Except CommandError Store := do
  let fromDocument ← (r.document.map readVariables).getD (.ok [])
  let single ← r.assignments.mapM readVariable
  return Store.setAll (fromDocument ++ single.map fun (name, t) => (name, .value (.text t))) []

/-- Answers a request. -/
def Request.answer (r : Request) : Except CommandError Reply := do
  match r.text with
  | none => throw .noInput
  | some t =>
    let store ← r.store
    if r.checkOnly then
      match ← (checkedExpression r.env t store).mapError .evaluation with
      | some (e, _) => return .valid e.canonical
      | none => return .noExpression
    else return .output (← (process r.env r.limit t store).1.mapError .evaluation)

end SeedChain
