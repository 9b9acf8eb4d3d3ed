import SeedChain.Host.Environment
import SeedChain.Text.Integer
/-!
# The command line

What the arguments of the program ask for. Options of `process` may stand before and behind the text,
their values behind a blank or an equals sign.
-/

namespace SeedChain

/-- The options of the command that resolves a text. -/
structure ProcessOptions where
  /-- The text; without it the standard input is read. -/
  text : Option Text
  delimiter : Char
  limit : Nat
  /-- Seeds that name files stand for their contents. -/
  resolveFiles : Bool
  assignments : List Text
  variablesFile : Option String
  checkOnly : Bool

/-- A command with its arguments. -/
inductive CommandLine where
  | process (options : ProcessOptions)
  | functions (type : Option Text)
  | docs
  | doc (category : Text)
  | onboard

namespace CommandLine

/-- How the program is called. -/
def usage : String :=
  "Usage: typeflow <process|functions|docs|doc|onboard> [ARGUMENTS]\n" ++
    "  process [TEXT] [-d|--delimiter C] [--max-passes N] [--resolve-files]\n" ++
    "          [--var NAME=VALUE]... [--vars FILE] [--syntax-only]\n" ++
    "  functions [TYPE]\n" ++
    "  docs\n" ++
    "  doc CATEGORY\n" ++
    "  onboard"

/-- The options when nothing is asked for. -/
def defaultOptions : ProcessOptions :=
  ⟨none, defaultDelimiter, defaultPasses, false, [], none, false⟩

/-- Sets an option that has a value; `none` when there is no such option, or the value does not
fit. -/
def setOption? (o : ProcessOptions) (name value : String) : Option ProcessOptions :=
  match name with
  | "-d" | "--delimiter" =>
    match value.toList with
    | [c] => some { o with delimiter := c }
    | _ => none
  | "--max-passes" =>
    (Text.natural? Text.maxSize value.toList).map fun limit => { o with limit }
  | "--var" => some { o with assignments := o.assignments ++ [value.toList] }
  | "--vars" => some { o with variablesFile := some value }
  | _ => none

/-- Sets an option that has no value. -/
def setFlag? (o : ProcessOptions) (name : String) : Option ProcessOptions :=
  match name with
  | "--resolve-files" => some { o with resolveFiles := true }
  | "--syntax-only" => some { o with checkOnly := true }
  | "-v" | "--verbose" => some o
  | _ => none

/-- Takes an argument that is no option as the text, unless there is one already. -/
def setText? (o : ProcessOptions) (argument : String) : Option ProcessOptions :=
  if o.text.isSome then none else some { o with text := some argument.toList }

/-- Takes an argument that needs no other one: a flag, an option with its value behind an equals
sign, or the text. -/
def setSingle? (o : ProcessOptions) (argument : String) : Option ProcessOptions :=
  if ['-'].isPrefixOf argument.toList ∧ argument ≠ "-" then
    setFlag? o argument <|>
      (Text.cut? ['='] argument.toList).bind fun (name, value) => setOption? o name.str value.str
  else setText? o argument

/-- Reads options and the text; behind two hyphens there are no options. -/
def options? (o : ProcessOptions) : List String → Option ProcessOptions
  | [] => some o
  | [argument] => setSingle? o argument
  | "--" :: rest => rest.foldlM setText? o
  | argument :: value :: rest =>
    match setSingle? o argument with
    | some o => options? o (value :: rest)
    | none => (setOption? o argument value).bind fun o => options? o rest

/-- Reads the arguments of the program. -/
def read? : List String → Option CommandLine
  | "process" :: rest => process <$> options? defaultOptions rest
  | ["functions"] => some (functions none)
  | ["functions", type] => some (functions (some type.toList))
  | ["docs"] => some docs
  | ["doc", category] => some (doc category.toList)
  | ["onboard"] => some onboard
  | _ => none

end CommandLine

end SeedChain
