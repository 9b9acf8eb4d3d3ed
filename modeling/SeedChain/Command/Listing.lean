import SeedChain.Command.Error
import SeedChain.Operation.Table
/-!
# Listing the operations
-/

namespace SeedChain

/-- A text filled up with blanks on its right. -/
def Text.padRight (width : Nat) (t : Text) : Text := t ++ List.replicate (width - t.length) ' '

/-- The operations of a type, one per line, with the number of their arguments. -/
def Keyword.listing (k : Keyword) : Text :=
  let line (name : String) (arity : Arity) : Text :=
    "  ".toList ++ Text.padRight 16 name.toList ++ ' ' :: arity.display.toList ++ ['\n']
  k.letters ++ '\n' :: k.operations.flatMap fun (name, arity) => line name arity

/-- The operations of the type with a name, or of all types. -/
def listOperations (name : Option Text) : Except CommandError Text :=
  match name with
  | none => .ok (Text.join ['\n'] (Keyword.all.map Keyword.listing))
  | some name =>
    match Keyword.ofName? name with
    | some k => .ok k.listing
    | none => .error (.unknownType name)

end SeedChain
