import SeedChain.Json.Path
import SeedChain.Json.Reader
import SeedChain.Operation.Basic
/-!
# Operations on JSON documents, and on what the host hands back

Both look into documents by paths. Parts that are taken out of a document keep its layout.
-/

namespace SeedChain

/-- The path in the first argument. -/
def Args.path (args : Args) (function : String) : Except EvalError JsonPath :=
  argument function (JsonPath.read (args.getD 0 []))

namespace JsonDocument

/-- The value at a path. -/
def extract : Body JsonDocument := fun _ doc args => do
  let path ← args.path "extract"
  goOnIf ((doc.root.lookup path).bind (Json.carrier? doc.layout))

/-- The keys of the object at a path. -/
def keys : Body JsonDocument := fun delimiter doc args => do
  let path ← args.path "keys"
  let keys :=
    match doc.root.lookup path with
    | some (.object members) => Entries.keys members
    | _ => []
  goOn (.list ⟨keys, delimiter⟩)

/-- The size of what stands at a path. -/
def count : Body JsonDocument := fun _ doc args => do
  let path ← args.path "count"
  goOn (.ofCount (((doc.root.lookup path).map Json.count).getD 0))

/-- The items of the array at a path. -/
def list : Body JsonDocument := fun delimiter doc args => do
  let path ← args.path "list"
  goOn (.list ⟨((doc.root.lookup path).bind Json.itemTexts?).getD [], delimiter⟩)

/-- Writes a value at a path: a JSON value if the argument is one, else a string. -/
def replace : Body JsonDocument := fun _ doc args => do
  let path ← args.path "replace"
  let raw := args.getD 1 "null".toList
  match Json.assign ((Json.read? raw).getD (.string raw)) path doc.root with
  | (.ok _, root) => goOn (.json { doc with root })
  | (.error reason, _) => refuse "replace" reason

/-- Takes out what stands at a path. -/
def remove : Body JsonDocument := fun _ doc args => do
  let path ← args.path "remove"
  goOn (.json { doc with root := (doc.root.delete path).2 })

def operations : List (Operation JsonDocument) := Operation.withShared [
  .fixed "extract" 1 extract,
  .fixed "keys" 1 keys,
  .fixed "count" 1 count,
  .fixed "list" 1 list,
  .fixed "replace" 2 replace,
  .fixed "remove" 1 remove,
  .fixed "compact" 0 fun _ doc _ => goOn (.json { doc with layout := .compact }),
  .fixed "beautify" 0 fun _ doc _ => goOn (.json { doc with layout := .indented })]

end JsonDocument

namespace ExternalResult

/-- The value at a path in the data. -/
def extract : Body ExternalResult := fun _ result args => do
  let path ← args.path "extract"
  goOnIf ((result.data.lookup path).bind (Json.carrier? .compact))

def operations : List (Operation ExternalResult) := Operation.withShared [
  .fixed "error" 0 fun _ result _ => goOn (.text (result.error.getD [])),
  .fixed "extract" 1 extract,
  .fixed "size" 0 fun _ result _ => goOn (.ofCount result.data.count),
  .fixed "json" 0 fun _ result _ => goOn (.ofJson result.data)]

end ExternalResult

end SeedChain
