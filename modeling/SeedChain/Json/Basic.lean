import SeedChain.Entries
import SeedChain.Json.Number
/-!
# JSON documents

A document is a tree; the members of an object keep their order, and a repeated key keeps its first
place and its last value.
-/

namespace SeedChain

/-- A JSON value. -/
inductive Json where
  | null
  | bool (b : Bool)
  | number (n : JsonNumber)
  | string (t : Text)
  | array (items : List Json)
  | object (members : List (Text × Json))
  deriving Repr, Inhabited

namespace Json

def isNull : Json → Bool
  | null => true
  | _ => false

end Json

end SeedChain
