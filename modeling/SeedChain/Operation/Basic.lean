import SeedChain.Operation.Args
import SeedChain.Text.LetterCase
import SeedChain.Value.Basic
/-!
# Operations

An operation is declared with its name, its arity and what it does. Two operations are shared by all
types: `store` keeps the value under a name, and `text` goes on with the text of the value. All
others compute: they see the delimiter, the value and the arguments, and change nothing else.

An operation is called by its name or by the hyphenated spelling of it.
-/

namespace SeedChain

/-- The outcome of an operation: the value that the chain goes on with, or nothing when it ends the
chain. -/
abbrev Outcome := Except EvalError (Option Value)

/-- The body of an operation on values of one type. -/
abbrev Body (α : Type) := Char → α → Args → Outcome

/-- What an operation does. -/
inductive Action (α : Type) where
  /-- Keeps the value under the name in the first argument, and goes on with it. -/
  | store
  /-- Goes on with the text of the value. -/
  | text
  | compute (body : Body α)

/-- An operation on values of one type. -/
structure Operation (α : Type) where
  name : String
  arity : Arity
  action : Action α

namespace Operation

variable {α : Type}

/-- An operation with a number of slots. -/
def fixed (name : String) (slots : Nat) (body : Body α) : Operation α :=
  ⟨name, .fixed slots, .compute body⟩

/-- An operation with any number of arguments. -/
def variadic (name : String) (body : Body α) : Operation α := ⟨name, .variadic 0, .compute body⟩

/-- The operations that all types have, and those of one type. -/
def withShared (own : List (Operation α)) : List (Operation α) :=
  ⟨"store", .fixed 1, .store⟩ :: ⟨"text", .fixed 0, .text⟩ :: own

/-- A name calls the operation. -/
def isCalled (op : Operation α) (name : Text) : Bool :=
  op.name.toList == name || Text.hyphenate op.name.toList == name

/-- The operation that a name calls. -/
def find? (operations : List (Operation α)) (name : Text) : Option (Operation α) :=
  operations.find? (·.isCalled name)

/-- The names and arities of operations, in the order of the names. -/
def listing (operations : List (Operation α)) : List (String × Arity) :=
  (operations.map fun op => (op.name, op.arity)).mergeSort fun a b =>
    Text.ordered a.1.toList b.1.toList

end Operation

/-- Goes on with a value. -/
def goOn (v : Value) : Outcome := .ok (some v)

/-- Goes on with a value if there is one, else ends the chain. -/
def goOnIf (v : Option Value) : Outcome := .ok v

/-- Refuses an argument. -/
def refuse {ε : Type} (function : String) (reason : Reason) : Except EvalError ε :=
  .error (.invalidArgument function reason)

/-- The result of a reader, its failure being that of an argument. -/
def argument {ε : Type} (function : String) (result : Except Reason ε) : Except EvalError ε :=
  result.mapError (.invalidArgument function)

end SeedChain
