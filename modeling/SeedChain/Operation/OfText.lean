import SeedChain.Operation.Basic
/-!
# Operations on texts
-/

namespace SeedChain.Text

/-- An operation whose result is a text that depends on the value alone. -/
def simple (name : String) (f : Text → Text) : Operation Text :=
  .fixed name 0 fun _ t _ => goOn (.text (f t))

/-- Runs of white characters become single blanks; there are none at the ends. -/
def pack (t : Text) : Text := join [' '] (words t)

/-- The text with every occurrence of a search text replaced; an empty one is nowhere. -/
def substitute (search replacement : Text) (t : Text) : Text :=
  if search = [] then t else replaceAll search replacement t

/-- The text without a beginning. -/
def removeStart (start t : Text) : Text := (start.isPrefixOf? t).getD t

/-- The text without an end. -/
def removeEnd (stop t : Text) : Text := (stop.isSuffixOf? t).getD t

/-- The text before a marker: all of it when the marker is absent, nothing when it is empty. -/
def before (marker t : Text) : Text :=
  if marker = [] then [] else ((cut? marker t).map (·.1)).getD t

/-- The text behind a marker: nothing when the marker is absent, all of it when it is empty. -/
def after (marker t : Text) : Text :=
  if marker = [] then t else ((cut? marker t).map (·.2)).getD []

/-- The text between a marker and the next occurrence of another one. -/
def between? (opening closing t : Text) : Option Text := do
  let (_, rest) ← cut? opening t
  let (inner, _) ← cut? closing rest
  return inner

/-- The lines of the text in order of code points. -/
def sortLines (descending : Bool) (t : Text) : Text :=
  let sorted := (lines t).mergeSort ordered
  join ['\n'] (if descending then sorted.reverse else sorted)

/-- The text as a list; unlike a seed it is split at every delimiter. -/
def toItems (delimiter : Char) (t : Text) : ItemList :=
  ⟨if t = [] then [] else split delimiter t, delimiter⟩

/-- The part of the text between two positions. -/
def substring : Body Text := fun _ t args => do
  let start ← args.int? 0 "substring"
  let stop ← args.int? 1 "substring"
  goOn (.text (ItemList.slice (start.getD 0) (stop.getD t.length) t))

/-- The text as a number. -/
def toNumber : Body Text := fun _ t _ =>
  match Decimal.read t with
  | .ok d => goOn (.number d)
  | .error reason => .error (.conversion .number t reason)

def operations : List (Operation Text) := Operation.withShared [
  simple "upper" upper,
  simple "lower" lower,
  simple "title" title,
  simple "trim" trim,
  simple "pack" pack,
  .fixed "length" 0 fun _ t _ => goOn (.ofCount t.length),
  .variadic "append" fun _ t args => goOn (.text (t ++ args.rest.flatten)),
  .variadic "prepend" fun _ t args => goOn (.text (args.rest.flatten ++ t)),
  .fixed "replace" 2 fun _ t args => do
    let search ← args.required 0 "replace"
    goOn (.text (substitute search (args.getD 1 []) t)),
  .fixed "remove" 1 fun _ t args => goOn (.text (substitute (args.getD 0 []) [] t)),
  .fixed "removeStart" 1 fun _ t args => goOn (.text (removeStart (args.getD 0 []) t)),
  .fixed "removeEnd" 1 fun _ t args => goOn (.text (removeEnd (args.getD 0 []) t)),
  .fixed "substring" 2 substring,
  .fixed "before" 1 fun _ t args => goOn (.text (before (args.getD 0 []) t)),
  .fixed "after" 1 fun _ t args => goOn (.text (after (args.getD 0 []) t)),
  .fixed "between" 2 fun _ t args => do
    let opening ← args.required 0 "between"
    goOnIf ((between? opening (args.getD 1 opening) t).map .text),
  .fixed "list" 1 fun delimiter t args =>
    goOn (.list (toItems ((args.char? 0).getD delimiter) t)),
  .fixed "number" 0 toNumber,
  simple "ascending" (sortLines false),
  simple "descending" (sortLines true),
  .fixed "isEmpty" 0 fun _ t _ => goOn (.ofBool t.isBlank)]

end SeedChain.Text
