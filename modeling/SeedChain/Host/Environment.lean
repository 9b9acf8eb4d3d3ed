import SeedChain.Value.Basic
/-!
# The environment of an evaluation

What the host provides, all of it pure: the delimiter, what the content of a seed is, the services
behind the external types, and the time of a clock. A seed can name a file whose text it stands for.
What the host knows of files is a function from names; a name it has not looked up yet stops the
evaluation, which the host can then begin again.
-/

namespace SeedChain

/-- What a service of the host hands back. -/
structure Payload where
  data : Json
  error : Option Text
  deriving Repr

/-- A service of the host: what it hands back for a seed, or why the seed is of no use. -/
abbrev Collaborator := Text → Except Reason Payload

/-- What evaluation depends on besides the store. -/
structure Environment where
  /-- The delimiter of lists and arguments. -/
  delimiter : Char
  /-- The content that a literal seed stands for. -/
  content : Text → Except Reason Text
  /-- The service of an external type. -/
  collaborator : Keyword → Option Collaborator
  /-- The time now; without it no seed means the time. -/
  clock : Option Calendar.Moment

/-- The delimiter unless another one is chosen. -/
def defaultDelimiter : Char := ','

/-- The number of substitutions allowed unless another one is chosen. -/
def defaultPasses : Nat := 1024

/-- Seeds stand for themselves, and nothing else is provided. -/
def Environment.plain (delimiter : Char) : Environment where
  delimiter
  content t := .ok t
  collaborator _ := none
  clock := none

/-- What the host knows of a file name. -/
inductive FileState where
  | unseen
  /-- There is no file of this name. -/
  | absent
  | holds (bytes : Bytes)
  deriving Repr

/-- A seed that names a file, apart from blanks around the name, stands for the text of the file. -/
def contentOfFiles (file : Text → FileState) (seed : Text) : Except Reason Text :=
  let name := seed.trim
  if name = [] ∨ name.contains '\n' then .ok seed
  else
    match file name with
    | .unseen => .error (.unseenFile name)
    | .absent => .ok seed
    | .holds bytes => (Bytes.decode? bytes).elim (.error (.unreadableFile name)) .ok

end SeedChain
