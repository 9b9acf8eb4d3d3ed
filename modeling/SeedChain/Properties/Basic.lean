import SeedChain.Entries
import SeedChain.Error
/-!
# Properties

A document of `key=value` lines. Keys and values are trimmed, a line without a separator is a key
with an empty value, and of equal keys the last value counts, at the place of the first. Lines that
begin with `#` or `!` are comments.
-/

namespace SeedChain

/-- Settings in order. -/
abbrev Properties := Entries Text

namespace Properties

/-- The key and value of a line, on both sides of the first `=` or `:`. -/
def readEntry (line : Text) : Text × Text :=
  let isSeparator (c : Char) := c == '=' || c == ':'
  let key := line.takeWhile fun c => !isSeparator c
  let value := (line.dropWhile fun c => !isSeparator c).drop 1
  (Text.trim key, Text.trim value)

/-- Sets what a line that is no comment says. -/
def addLine (line : Text) (properties : Properties) : Except Reason Properties :=
  let (key, value) := readEntry line
  if key = [] then .error (.missingKey line) else .ok (Entries.set key value properties)

/-- The line says nothing: it is blank, or begins with one of some characters. -/
def isComment (marks : List Char) : Text → Bool
  | [] => true
  | c :: _ => marks.contains c

/-- The lines of a document that are no comments, without blanks around them. -/
def contentLines (marks : List Char) (t : Text) : List Text :=
  (t.lines.map Text.trim).filter fun line => !isComment marks line

def read (t : Text) : Except Reason Properties :=
  (contentLines ['#', '!'] t).foldlM (fun properties line => addLine line properties) []

/-- One line per entry, without a line end behind the last one. -/
def text (properties : Properties) : Text :=
  Text.join ['\n'] (properties.map fun (key, value) => key ++ '=' :: value)

end Properties

end SeedChain
