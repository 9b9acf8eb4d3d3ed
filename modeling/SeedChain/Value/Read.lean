import SeedChain.Host.Environment
import SeedChain.Json.Reader
import SeedChain.Xml.Reader
/-!
# Reading values

The value of a type that a text stands for. External types are not read but fetched.
-/

namespace SeedChain

/-- What the service of an external type hands back for a text. -/
def ExternalResult.fetch (env : Environment) (keyword : Keyword) (h : keyword.isExternal = true)
    (t : Text) : Except Reason ExternalResult :=
  match env.collaborator keyword with
  | none => .error (.noCollaborator keyword)
  | some fetch => (fetch t).map fun payload => ⟨keyword, payload.data, payload.error, h⟩

/-- Reads a JSON document between blanks. -/
def JsonDocument.read (t : Text) : Except Reason JsonDocument :=
  match Json.read? t.trim with
  | some root => .ok ⟨root, .compact⟩
  | none => .error .invalidJson

/-- Reads a value of a type. -/
def Value.read (env : Environment) (keyword : Keyword) (t : Text) : Except Reason Value :=
  match keyword with
  | .text => .ok (.text t)
  | .number => .number <$> Decimal.read t
  | .list => .ok (.list (ItemList.read env.delimiter t))
  | .json => .json <$> JsonDocument.read t
  | .xml => (fun root => .xml ⟨root, false⟩) <$> Xml.read t
  | .csv => .ok (.csv (Table.read (Table.delimiterFor env.delimiter) t))
  | .date => (fun (moment, pattern) => .date ⟨moment, pattern⟩) <$> Calendar.read env.clock t
  | .config => .config <$> Properties.read t
  | .ini => .ini <$> Sections.read t
  | .binary => .binary <$> Bytes.read t
  | .sql => .external <$> ExternalResult.fetch env .sql rfl t
  | .excel => .external <$> ExternalResult.fetch env .excel rfl t
  | .web => .external <$> ExternalResult.fetch env .web rfl t

end SeedChain
