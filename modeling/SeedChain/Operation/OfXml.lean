import SeedChain.Operation.Basic
import SeedChain.Xml.Path
/-!
# Operations on XML documents

All take an element path first. A path that does not begin at the root selects nothing.
-/

namespace SeedChain.XmlDocument

open Xml

/-- The steps of the path in the first argument. -/
def steps (doc : XmlDocument) (args : Args) (function : String) :
    Except EvalError (Option (List Step)) :=
  argument function (stepsFrom doc.root (args.getD 0 []))

/-- What is taken out of a document at a path: an attribute, the document under an element that holds
elements, or else the text of the element. -/
def extracted? (doc : XmlDocument) (steps : List Step) : Option Value := do
  let e ← (doc.root.select steps).head?
  match Element.attributeStep? steps with
  | some name => (e.attribute? name).map .text
  | none => some (if e.children.hasElements then .xml { doc with root := e } else .text e.text)

def extract : Body XmlDocument := fun _ doc args => do
  goOnIf ((← doc.steps args "extract").bind doc.extracted?)

/-- An attribute of the first element at a path. -/
def attributeOf : Body XmlDocument := fun _ doc args => do
  match ← doc.steps args "attribute" with
  | none => goOnIf none
  | some steps =>
    let name ← args.required 1 "attribute"
    goOnIf ((doc.root.select steps).head?.bind fun e => (e.attribute? name).map .text)

/-- The number of elements, or attributes, at a path. -/
def count : Body XmlDocument := fun _ doc args => do
  goOn (.ofCount (((← doc.steps args "count").map doc.root.count).getD 0))

/-- Takes out all that is at a path. -/
def remove : Body XmlDocument := fun _ doc args => do
  match ← doc.steps args "remove" with
  | none => goOn (.xml doc)
  | some steps => goOn (.xml { doc with root := doc.root.remove steps })

def operations : List (Operation XmlDocument) := Operation.withShared [
  .fixed "extract" 1 extract,
  .fixed "attribute" 2 attributeOf,
  .fixed "count" 1 count,
  .fixed "remove" 1 remove,
  .fixed "compact" 0 fun _ doc _ => goOn (.xml { doc with indented := false }),
  .fixed "beautify" 0 fun _ doc _ => goOn (.xml { doc with indented := true })]

end SeedChain.XmlDocument
