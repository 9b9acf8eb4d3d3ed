import SeedChain.Operation.Basic
/-!
# Operations on properties, with and without sections

Names of sections and keys are trimmed.
-/

namespace SeedChain

/-- The argument in a slot without blanks around it. -/
def Args.trimmed (args : Args) (i : Nat) : Text := (args.getD i []).trim

namespace Properties

def operations : List (Operation Properties) := Operation.withShared [
  .fixed "value" 1 fun _ p args => goOnIf ((Entries.get? (args.trimmed 0) p).map .text),
  .fixed "set" 2 fun _ p args => do
    let key ← args.required 0 "set"
    goOn (.config (Entries.set key.trim (args.getD 1 []) p)),
  .fixed "remove" 1 fun _ p args => goOn (.config (Entries.remove (args.trimmed 0) p)),
  .fixed "keys" 0 fun delimiter p _ => goOn (.list ⟨Entries.keys p, delimiter⟩),
  .fixed "size" 0 fun _ p _ => goOn (.ofCount p.length)]

end Properties

namespace Sections

/-- Takes out a key, or the whole section when no key is given. -/
def removeAt : Body Sections := fun _ s args =>
  let name := args.trimmed 0
  let key := args.trimmed 1
  goOn (.ini (if key = [] then s.removeSection name else s.removeKey name key))

def operations : List (Operation Sections) := Operation.withShared [
  .fixed "value" 2 fun _ s args =>
    goOnIf ((Sections.value? (args.trimmed 0) (args.trimmed 1) s).map .text),
  .fixed "set" 3 fun _ s args => do
    let key ← args.required 1 "set"
    goOn (.ini (Sections.setValue (args.trimmed 0) key.trim (args.getD 2 []) s)),
  .fixed "remove" 2 removeAt,
  .fixed "sections" 0 fun delimiter s _ => goOn (.list ⟨Sections.names s, delimiter⟩),
  .fixed "keys" 1 fun delimiter s args =>
    goOn (.list ⟨Entries.keys (Sections.propertiesOf (args.trimmed 0) s), delimiter⟩)]

end Sections

end SeedChain
