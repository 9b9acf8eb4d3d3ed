import SeedChain.Value.Basic
/-!
# The store of named values

What a chain keeps with `store`, and what the host sets. The last writer of a name wins.
-/

namespace SeedChain

/-- What is stored under a name. -/
inductive Stored where
  /-- A typed value, exactly as it was in the chain. -/
  | value (v : Value)
  /-- Plain text of the host, which no seed resumes. -/
  | text (t : Text)
  /-- Items of the host, which a list resumes. -/
  | items (texts : List Text)
  deriving Repr

/-- The named values. -/
abbrev Store := Entries Stored

/-- The value of a type that a stored one can be resumed as. A list also resumes items and an array of
a document, with the delimiter at hand. -/
def Stored.resume? (keyword : Keyword) (delimiter : Char) : Stored → Option Value
  | .value v =>
    if v.keyword = keyword then some v
    else
      match keyword, v with
      | .list, .json doc => doc.root.itemTexts?.map fun texts => .list ⟨texts, delimiter⟩
      | _, _ => none
  | .items texts => if keyword = .list then some (.list ⟨texts, delimiter⟩) else none
  | .text _ => none

end SeedChain
