import SeedChain.Host.Store
import SeedChain.Value.Read
/-!
# Building seeds

A seed that is the name of a stored value of the right type is resumed, exactly as it was kept. Any
other seed is unescaped, replaced by its content, and read. Lists keep their escapes until they are
split.
-/

namespace SeedChain

/-- A letter or underscore, then letters, digits, underscores, points and hyphens. -/
def isIdentifier : Text → Bool
  | [] => false
  | c :: t =>
    (c.isAlpha || c == '_') &&
      t.all fun c => c.isAlphanum || c == '_' || c == '.' || c == '-'

/-- The stored value that a seed names, if it can be resumed under a type. -/
def resume? (delimiter : Char) (keyword : Keyword) (seed : Text) (store : Store) : Option Value :=
  let name := seed.trim
  if isIdentifier name then
    (Entries.get? name store).bind (Stored.resume? keyword delimiter)
  else none

/-- The text of a seed as it is read: lists take care of escapes themselves. -/
def plainSeed (delimiter : Char) (keyword : Keyword) (seed : Text) : Text :=
  if keyword = .list then seed else EscapeCodec.unescape delimiter seed

/-- The first value of a chain. -/
def build (env : Environment) (keyword : Keyword) (seed : Text) (store : Store) :
    Except EvalError Value :=
  match resume? env.delimiter keyword seed store with
  | some v => .ok v
  | none =>
    let value := do
      let content ← env.content (plainSeed env.delimiter keyword seed)
      Value.read env keyword content
    value.mapError (.conversion keyword seed)

end SeedChain
