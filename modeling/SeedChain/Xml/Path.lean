import SeedChain.Error
import SeedChain.Text.Integer
import SeedChain.Xml.Basic
/-!
# Element paths

A path selects elements by steps between slashes: `book[2]/title` are the titles of the second book
under the root, and `*` stands for any name. A path that begins with a slash names the root itself
in its first step. A last step `@name` means an attribute of the selected elements.
-/

namespace SeedChain.Xml

/-- One step of a path. -/
inductive Step where
  /-- The child elements of a name, or only the one at a position, counted from 1. -/
  | element (name : Text) (position : Option Nat)
  | attr (name : Text)
  deriving DecidableEq, Repr

namespace Step

/-- Elements of this name are meant. -/
def calls (pattern name : Text) : Bool := pattern == ['*'] || pattern == name

/-- Reads a step. -/
def read (step : Text) : Except Reason Step :=
  match step with
  | '@' :: name => .ok (.attr name)
  | step =>
    match Text.cut? ['['] step with
    | none => .ok (.element step none)
    | some (name, rest) =>
      match ([']'] : Text).isSuffixOf? rest with
      | none => .error (.unclosedPosition step)
      | some index =>
        match (Text.natural? Text.maxSize (Text.trim index)).filter (0 < ·) with
        | some position => .ok (.element name (some position))
        | none => .error (.invalidPosition index step)

def isAttr : Step → Bool
  | .attr _ => true
  | .element _ _ => false

end Step

/-- Reads the steps of a path; blank ones are left out. -/
def readSteps (path : Text) : Except Reason (List Step) := do
  let parts := ((Text.split '/' path.trim).map Text.trim).filter (· ≠ [])
  let steps ← parts.mapM Step.read
  if steps.dropLast.any Step.isAttr then throw (.attributeNotLast path)
  return steps

/-- The steps of a path from the root element on; `none` when the path begins at the document and
does not name the root. -/
def stepsFrom (root : Element) (path : Text) : Except Reason (Option (List Step)) := do
  let steps ← readSteps path
  match path.trimStart, steps with
  | '/' :: _, .element name position :: rest =>
    return if Step.calls name root.name && position.all (· == 1) then some rest else none
  | '/' :: _, .attr _ :: _ => return none
  | _, steps => return some steps

namespace Element

/-- The child elements that a step selects. -/
def selectChildren (name : Text) (position : Option Nat) (e : Element) : List Element :=
  let called := e.elements.filter fun child => Step.calls name child.name
  match position with
  | some p => (called.drop (p - 1)).take 1
  | none => called

/-- The elements that a path selects; an attribute step selects none further. -/
def select (steps : List Step) (e : Element) : List Element :=
  match steps with
  | .element name position :: rest =>
    (e.selectChildren name position).flatMap fun child => child.select rest
  | _ => [e]

/-- The attribute that the last step of a path names, if it is one. -/
def attributeStep? (steps : List Step) : Option Text :=
  match steps.getLast? with
  | some (.attr name) => some name
  | _ => none

/-- The number of elements, or attributes, that a path selects. -/
def count (steps : List Step) (e : Element) : Nat :=
  match attributeStep? steps with
  | some name => (e.select steps).countP fun selected => (selected.attribute? name).isSome
  | none => (e.select steps).length

/-- Takes out every element, or attribute, that a path selects; never the element itself. -/
def remove (steps : List Step) (e : Element) : Element :=
  match steps with
  | [] => e
  | .attr name :: _ => { e with attributes := Entries.remove name e.attributes }
  | .element name position :: rest =>
    let edit (child : Element) := if rest.isEmpty then none else some (child.remove rest)
    { e with children := e.children.editWhere (Step.calls name) position edit 0 }

end Element

end SeedChain.Xml
