import SeedChain.Command.Error
import SeedChain.Host.Store
import SeedChain.Json.Reader
/-!
# Variables of the host

Values that are stored before an evaluation: from a JSON object, or one by one as `name=value`.
-/

namespace SeedChain

/-- The text of a scalar as an item: strings stand without quotes, `null` is empty. Arrays and objects
are no scalars. -/
def Json.scalarText? : Json → Option Text
  | null => some []
  | bool true => some "true".toList
  | bool false => some "false".toList
  | number n => some n.text
  | string t => some t
  | array _ => none
  | object _ => none

/-- What is stored for a JSON value: strings and truth values are texts, numbers are numbers if they are
in range, arrays of scalars are items, and every other value is a document. -/
def Stored.ofJson : Json → Stored
  | .string t => .value (.text t)
  | .bool b => .value (.text (if b then "true".toList else "false".toList))
  | .number n =>
    match Decimal.read n.text with
    | .ok d => .value (.number d)
    | .error _ => .value (.text n.text)
  | .array values =>
    match values.mapM Json.scalarText? with
    | some texts => .items texts
    | none => .value (.ofJson (.array values))
  | v => .value (.ofJson v)

/-- The variables of a JSON object, in its order. -/
def readVariables (t : Text) : Except CommandError (List (Text × Stored)) :=
  match Json.read? t with
  | none => .error .invalidJson
  | some (.object members) => .ok (members.map fun (name, value) => (name, Stored.ofJson value))
  | some _ => .error (.invalidVariable "variables file must hold a JSON object".toList)

/-- The name and value of a variable, on both sides of the first `=`. The name is trimmed and not
blank. -/
def readVariable (t : Text) : Except CommandError (Text × Text) :=
  match Text.cut? ['='] t with
  | some (name, value) =>
    if name.isBlank then .error (.invalidVariable t) else .ok (name.trim, value)
  | none => .error (.invalidVariable t)

/-- Stores variables one after the other. -/
def Store.setAll (values : List (Text × Stored)) (store : Store) : Store :=
  values.foldl (fun store (name, value) => Entries.set name value store) store

end SeedChain
