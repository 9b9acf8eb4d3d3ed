import SeedChain.Error
/-!
# Errors of commands
-/

namespace SeedChain

/-- Why a command fails. -/
inductive CommandError where
  | evaluation (error : EvalError)
  /-- The variables are not a JSON document. -/
  | invalidJson
  | noInput
  /-- A variable that is not written as a name and a value. -/
  | invalidVariable (t : Text)
  | unknownType (name : Text)
  | unknownCategory (name : Text)
  deriving DecidableEq, Repr

/-- The wording of an error. -/
def CommandError.message : CommandError → String
  | evaluation error => s!"Evaluation error: {error.message}"
  | invalidJson => "Invalid JSON"
  | noInput => "No input provided. Pass the text as an argument or pipe it to stdin."
  | invalidVariable t => s!"Invalid variable '{t.str}': expected name=value"
  | unknownType name =>
    s!"Unknown type: '{name.str}'\nRun 'typeflow functions' to see all types."
  | unknownCategory name =>
    s!"Unknown category: '{name.str}'\nRun 'typeflow docs' to see available categories."

end SeedChain
