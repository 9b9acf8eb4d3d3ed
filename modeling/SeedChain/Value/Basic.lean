import SeedChain.Bytes.Base64
import SeedChain.Calendar.Reader
import SeedChain.Json.Printer
import SeedChain.Properties.Sections
import SeedChain.Table.Text
import SeedChain.Value.ItemList
import SeedChain.Xml.Printer
/-!
# Values

What runs through a chain: one kind of value for every type keyword, and one kind for the three
keywords whose values come from the host. A value knows more than its text shows: the scale of a
number, the layout of a document, the delimiter of a table, the pattern of a date.
-/

namespace SeedChain

/-- A JSON document and how it is laid out. -/
structure JsonDocument where
  root : Json
  layout : Json.Layout
  deriving Repr

/-- An XML document and whether it is laid out over several lines. -/
structure XmlDocument where
  root : Xml.Element
  indented : Bool
  deriving DecidableEq, Repr

/-- A date and time, and the pattern it is written by. -/
structure DateValue where
  moment : Calendar.Moment
  pattern : Calendar.Pattern
  deriving DecidableEq, Repr

/-- What the host handed back for a seed. A failure on its side is data, and stops nothing. -/
structure ExternalResult where
  keyword : Keyword
  data : Json
  error : Option Text
  isExternal : keyword.isExternal = true
  deriving Repr

/-- A typed value. -/
inductive Value where
  | text (t : Text)
  | number (d : Decimal)
  | list (l : ItemList)
  | json (doc : JsonDocument)
  | xml (doc : XmlDocument)
  | csv (table : Table)
  | date (d : DateValue)
  | config (properties : Properties)
  | ini (sections : Sections)
  | binary (bytes : Bytes)
  | external (result : ExternalResult)
  deriving Repr

/-- The text of a document; `null` has none. -/
def JsonDocument.text? (doc : JsonDocument) : Option Text :=
  if doc.root.isNull then none else some (doc.root.print doc.layout)

def XmlDocument.text (doc : XmlDocument) : Text := doc.root.print doc.indented

def DateValue.text? (d : DateValue) : Option Text := d.pattern.write? d.moment

/-- The text of a result: strings stand without quotes, and without data there is the error only. -/
def ExternalResult.text? (result : ExternalResult) : Option Text :=
  match result.data with
  | .null => result.error
  | .string t => some t
  | data => some data.compactText

namespace Bytes

/-- What stands before bytes in base 64. -/
def base64Mark : Text := "base64:".toList

/-- What stands before bytes in hexadecimal digits. -/
def hexMark : Text := "hex:".toList

/-- Bytes as a text that is read back as the same bytes: the text they encode, or base 64. -/
def text (bytes : Bytes) : Text := (decode? bytes).getD (base64Mark ++ toBase64 bytes)

/-- Reads bytes behind a mark, or else takes the bytes of the text itself. -/
def read (t : Text) : Except Reason Bytes :=
  let trimmed := t.trim
  match base64Mark.isPrefixOf? trimmed, hexMark.isPrefixOf? trimmed with
  | some encoded, _ => (ofBase64? (Text.trim encoded)).elim (.error .invalidBase64) .ok
  | none, some encoded => (ofHex? (Text.trim encoded)).elim (.error .invalidHex) .ok
  | none, none => .ok (ofText t)

end Bytes

namespace Value

/-- The type of a value. -/
def keyword : Value → Keyword
  | text _ => .text
  | number _ => .number
  | list _ => .list
  | json _ => .json
  | xml _ => .xml
  | csv _ => .csv
  | date _ => .date
  | config _ => .config
  | ini _ => .ini
  | binary _ => .binary
  | external result => result.keyword

/-- The text of a value; some values have none. -/
def text? : Value → Option Text
  | text t => some t
  | number d => some d.text
  | list l => some l.text
  | json doc => doc.text?
  | xml doc => some doc.text
  | csv table => some table.text
  | date d => d.text?
  | config properties => some (Properties.text properties)
  | ini sections => some (Sections.text sections)
  | binary bytes => some (Bytes.text bytes)
  | external result => result.text?

/-- A count as a value. -/
def ofCount (n : Nat) : Value := number (.ofInt n)

/-- A truth value, which is a text. -/
def ofBool (b : Bool) : Value := text (if b then "true".toList else "false".toList)

/-- A document laid out on one line. -/
def ofJson (root : Json) : Value := json ⟨root, .compact⟩

end Value

/-! ## Values out of documents -/

namespace Json

/-- The value that goes on when this one is taken out of a document: strings and truth values are
texts, numbers are numbers if they are in range, containers keep the layout, `null` is nothing. -/
def carrier? (layout : Layout) : Json → Option Value
  | null => none
  | string t => some (.text t)
  | bool b => some (.ofBool b)
  | number n =>
    match Decimal.read? n.text with
    | some d => some (.number d)
    | none => some (.text n.text)
  | doc => some (.json ⟨doc, layout⟩)

/-- A value as an item of a list: strings stand without quotes, `null` is empty. -/
def itemText : Json → Text
  | string t => t
  | null => []
  | doc => doc.compactText

/-- The items of an array as texts. -/
def itemTexts? : Json → Option (List Text)
  | array items => some (items.map itemText)
  | _ => none

/-- The number of items or members; a scalar counts as one, `null` as none. -/
def count : Json → Nat
  | null => 0
  | array items => items.length
  | object members => members.length
  | _ => 1

end Json

end SeedChain
