import SeedChain.Entries
/-!
# XML trees

The content of an element is a forest: texts and elements side by side. Attributes keep their order.
-/

namespace SeedChain.Xml

/-- Attributes in the order in which they are written. -/
abbrev Attributes := Entries Text

/-- Content: texts and elements in order. -/
inductive Forest where
  | nil
  | text (t : Text) (rest : Forest)
  | element (name : Text) (attributes : Attributes) (children rest : Forest)
  deriving DecidableEq, Repr, Inhabited

/-- An element on its own. -/
structure Element where
  name : Text
  attributes : Attributes
  children : Forest
  deriving DecidableEq, Repr, Inhabited

namespace Forest

/-- The content of two forests, one after the other. -/
def append : Forest → Forest → Forest
  | nil, g => g
  | text t rest, g => text t (rest.append g)
  | element name attributes children rest, g => element name attributes children (rest.append g)

instance : Append Forest := ⟨append⟩

/-- A single element as content. -/
def ofElement (e : Element) : Forest := element e.name e.attributes e.children nil

/-- The elements among the content. -/
def elements : Forest → List Element
  | nil => []
  | text _ rest => rest.elements
  | element name attributes children rest => ⟨name, attributes, children⟩ :: rest.elements

/-- All text of the content and of the elements in it. -/
def allText : Forest → Text
  | nil => []
  | text t rest => t ++ rest.allText
  | element _ _ children rest => children.allText ++ rest.allText

/-- There is an element among the content. -/
def hasElements : Forest → Bool
  | nil => false
  | text _ rest => rest.hasElements
  | element _ _ _ _ => true

/-- Changes or takes out the elements among the content that are called by a name, or only the one
of them that stands at a position; `seen` of them have been passed. -/
def editWhere (called : Text → Bool) (position : Option Nat) (edit : Element → Option Element)
    (seen : Nat) : Forest → Forest
  | nil => nil
  | text t rest => text t (editWhere called position edit seen rest)
  | element name attributes children rest =>
    if called name then
      let behind := editWhere called position edit (seen + 1) rest
      if position.all (· == seen + 1) then
        match edit ⟨name, attributes, children⟩ with
        | some e => element e.name e.attributes e.children behind
        | none => behind
      else element name attributes children behind
    else element name attributes children (editWhere called position edit seen rest)

end Forest

namespace Element

def attribute? (e : Element) (name : Text) : Option Text := Entries.get? name e.attributes

/-- The child elements. -/
def elements (e : Element) : List Element := e.children.elements

/-- The text of the element and its descendants. -/
def text (e : Element) : Text := e.children.allText

end Element

end SeedChain.Xml
