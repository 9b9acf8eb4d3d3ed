import SeedChain.Text.LetterCase
/-!
# Type keywords

The closed set of words that can open a bracket expression.
-/

namespace SeedChain

/-- The type an expression names. -/
inductive Keyword where
  | text
  | number
  | list
  | json
  | xml
  | csv
  | date
  | config
  | ini
  | binary
  /-- The result of the host's SQL runner. -/
  | sql
  /-- The result of the host's spreadsheet engine. -/
  | excel
  /-- The result of the host's web client. -/
  | web
  deriving DecidableEq, Repr

namespace Keyword

def all : List Keyword :=
  [text, number, list, json, xml, csv, date, config, ini, binary, sql, excel, web]

/-- The keyword as written in a script. -/
def name : Keyword → String
  | text => "TEXT"
  | number => "NUMBER"
  | list => "LIST"
  | json => "JSON"
  | xml => "XML"
  | csv => "CSV"
  | date => "DATE"
  | config => "CONFIG"
  | ini => "INI"
  | binary => "BINARY"
  | sql => "SQL"
  | excel => "EXCEL"
  | web => "WEB"

instance : ToString Keyword := ⟨name⟩

/-- The letters of the keyword. -/
def letters (k : Keyword) : Text := k.name.toList

/-- Values under these keywords come from the host. -/
def isExternal : Keyword → Bool
  | sql | excel | web => true
  | _ => false

/-- The keyword with a name, whatever the case of its letters. -/
def ofName? (t : Text) : Option Keyword :=
  all.find? fun k => Text.asciiLower k.letters == Text.asciiLower t

/-- The keyword a text begins with, exactly as written, and the text after it. No keyword begins
with another one. -/
def readPrefix? (t : Text) : Option (Keyword × Text) :=
  all.findSome? fun k => (k.letters.isPrefixOf? t).map (k, ·)

end Keyword

end SeedChain
