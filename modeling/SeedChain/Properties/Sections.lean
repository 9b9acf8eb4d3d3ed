import SeedChain.Properties.Basic
/-!
# Properties in sections

A document of properties under `[section]` headers. What stands before the first header belongs to
the section without a name, which is always there and always first. Lines that begin with `;` or `#`
are comments. A repeated header goes on with its section.
-/

namespace SeedChain

/-- Properties by section, in the order of the headers. -/
abbrev Sections := Entries Properties

namespace Sections

/-- Only the section without a name. -/
def start : Sections := [([], [])]

/-- The names of the sections that have one. -/
def names (sections : Sections) : List Text := (Entries.keys sections).filter (· ≠ [])

/-- The properties of a section, none if there is no such section. -/
def propertiesOf (name : Text) (sections : Sections) : Properties :=
  (Entries.get? name sections).getD []

/-- The value of a key in a section. -/
def value? (name key : Text) (sections : Sections) : Option Text :=
  Entries.get? key (propertiesOf name sections)

/-- Sets the value of a key in a section, which is added when it is new. -/
def setValue (name key value : Text) (sections : Sections) : Sections :=
  Entries.set name (Entries.set key value (propertiesOf name sections)) sections

/-- Takes a key out of a section. -/
def removeKey (name key : Text) (sections : Sections) : Sections :=
  match Entries.get? name sections with
  | some properties => Entries.set name (Entries.remove key properties) sections
  | none => sections

/-- Takes a section out; the one without a name stays. -/
def removeSection (name : Text) (sections : Sections) : Sections :=
  if name = [] then sections else Entries.remove name sections

/-- Reads the lines under the header of a section. -/
def readLines (current : Text) (sections : Sections) : List Text → Except Reason Sections
  | [] => .ok sections
  | line :: lines =>
    match line with
    | '[' :: header =>
      match ([']'] : Text).isSuffixOf? header with
      | some name =>
        let name := Text.trim name
        readLines name (Entries.set name (propertiesOf name sections) sections) lines
      | none => .error (.unterminatedHeader line)
    | line =>
      match Properties.addLine line (propertiesOf current sections) with
      | .ok properties => readLines current (Entries.set current properties sections) lines
      | .error reason => .error reason

def read (t : Text) : Except Reason Sections :=
  readLines [] start (Properties.contentLines [';', '#'] t)

/-- A section with its header; the one without a name has none, and is left out when empty. -/
def block (name : Text) (properties : Properties) : Option Text :=
  if name = [] then if properties = [] then none else some (Properties.text properties)
  else
    let header := '[' :: name ++ [']']
    some (if properties = [] then header else header ++ '\n' :: Properties.text properties)

/-- The sections with a blank line between them. -/
def text (sections : Sections) : Text :=
  Text.join ['\n', '\n'] (sections.filterMap fun (name, properties) => block name properties)

end Sections

end SeedChain
