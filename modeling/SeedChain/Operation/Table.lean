import SeedChain.Host.Store
import SeedChain.Operation.OfBytes
import SeedChain.Operation.OfDate
import SeedChain.Operation.OfJson
import SeedChain.Operation.OfList
import SeedChain.Operation.OfProperties
import SeedChain.Operation.OfTable
import SeedChain.Operation.OfText
import SeedChain.Operation.OfXml
/-!
# Calling operations

Every type has a table of operations; the external types share one. A call finds its operation,
checks the number of arguments and runs it. Only `store` changes the store, and it changes nothing
else.
-/

namespace SeedChain

/-- Applies a function to the operations of a type. -/
def Keyword.withOperations {β : Type} (f : {α : Type} → List (Operation α) → β) : Keyword → β
  | .text => f Text.operations
  | .number => f Decimal.operations
  | .list => f ItemList.operations
  | .json => f JsonDocument.operations
  | .xml => f XmlDocument.operations
  | .csv => f Table.operations
  | .date => f DateValue.operations
  | .config => f Properties.operations
  | .ini => f Sections.operations
  | .binary => f Bytes.operations
  | .sql | .excel | .web => f ExternalResult.operations

/-- The names and arities of the operations of a type, in the order of the names. -/
def Keyword.operations (k : Keyword) : List (String × Arity) := k.withOperations Operation.listing

/-- The arity of the operation that a name calls. -/
def Keyword.arity? (k : Keyword) (name : Text) : Option Arity :=
  k.withOperations fun operations => (Operation.find? operations name).map (·.arity)

/-- The type whose name the table of operations bears. -/
def Keyword.tableOwner (k : Keyword) : Keyword := if k.isExternal then .sql else k

/-- Keeps a value under the name in the first argument; without a name nothing is kept. -/
def keep (v : Value) (args : Args) (store : Store) : Store :=
  let name := (args.getD 0 []).trim
  if name = [] then store else Entries.set name (.value v) store

namespace Operation

variable {α : Type}

/-- Runs an operation on a value, whose carrier is `x`. -/
def run (op : Operation α) (delimiter : Char) (v : Value) (x : α) (args : Args) (store : Store) :
    Outcome × Store :=
  match op.action with
  | .store => (goOn v, keep v args store)
  | .text => (goOnIf (v.text?.map .text), store)
  | .compute body => (body delimiter x args, store)

/-- Calls one of some operations by name. -/
def call (operations : List (Operation α)) (delimiter : Char) (v : Value) (x : α) (name : Text)
    (args : List Text) (store : Store) : Outcome × Store :=
  match find? operations name with
  | none => (.error (.unknownFunction v.keyword name), store)
  | some op =>
    if op.arity.accepts args.length then
      op.run delimiter v x (Args.bind op.arity args) store
    else (.error (.arity v.keyword name op.arity args.length), store)

end Operation

/-- Calls an operation on a value. -/
def Value.invoke (delimiter : Char) (v : Value) (name : Text) (args : List Text) (store : Store) :
    Outcome × Store :=
  match v with
  | .text x => Operation.call Text.operations delimiter v x name args store
  | .number x => Operation.call Decimal.operations delimiter v x name args store
  | .list x => Operation.call ItemList.operations delimiter v x name args store
  | .json x => Operation.call JsonDocument.operations delimiter v x name args store
  | .xml x => Operation.call XmlDocument.operations delimiter v x name args store
  | .csv x => Operation.call Table.operations delimiter v x name args store
  | .date x => Operation.call DateValue.operations delimiter v x name args store
  | .config x => Operation.call Properties.operations delimiter v x name args store
  | .ini x => Operation.call Sections.operations delimiter v x name args store
  | .binary x => Operation.call Bytes.operations delimiter v x name args store
  | .external x => Operation.call ExternalResult.operations delimiter v x name args store

/-- An operation gives a value whatever the delimiter is and whatever is stored, and stores nothing. -/
def Value.Gives (v : Value) (name : String) (args : List Text) (w : Value) : Prop :=
  ∀ delimiter store, v.invoke delimiter name.toList args store = (goOn w, store)

end SeedChain
